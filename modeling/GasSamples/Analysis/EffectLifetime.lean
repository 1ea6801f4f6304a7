import GasSamples.Reactive.Run
import GasSamples.Analysis.BaseGameplayAbility

/-!
# Effects and the ability that applied them

The runs of one instance of an ability: activations with arbitrary scripts, calls of
`EndAbility`, and whatever other parties do to the active effects in between.  The
property is that between calls an inactive ability stores no handle and none of the
effects it applied from `OngoingEffectsToRemoveOnEnd` is active.

`ActivateAbility` does not look again whether the ability is still active.  If it is
ended from inside the activation, the loop over `OngoingEffectsToRemoveOnEnd` goes on
applying effects and storing their handles, and no `EndAbility` is left to remove them.
`noEffectOutlives_iff` says that nothing else can go wrong: a run keeps the property
exactly if, in each of its activations, no such application returns after the last call
of `EndAbility`.
-/

set_option autoImplicit false

namespace GasSamples.Analysis

open Reactive GasSamples.Model GasSamples.Program GasSamples.Program.BaseGameplayAbility

variable {E : Type}

/-- What happens to one instance of an ability and the component it applies its effects to.
`applied` and `removed` are the doing of other parties, expiry included. -/
inductive AbilityEvent (E : Type)
  | activate (a : ActivationScript)
  | endAbility
  | applied (effect : E) (outcome : ApplyOutcome)
  | removed (kept : ℕ × E → Bool)

/-- One event in the life of the ability `c`. -/
def abilityStep (c : AbilityClass E) (s : BaseState E) : AbilityEvent E → BaseState E
  | .activate a => activateInstance c a s
  | .endAbility => endAbility c s
  | .applied effect outcome =>
    { s with asc := (s.asc.applyGameplayEffectSpecToSelf effect outcome).2 }
  | .removed kept => { s with asc := s.asc.keepWhere kept }

/-- An inactive ability stores no handle, and no effect it applied from
`OngoingEffectsToRemoveOnEnd` is active. -/
def NoEffectOutlives (s : BaseState E) : Prop :=
  s.ability.activeCount = 0 →
    s.ability.removeOnEndEffectsHandle = [] ∧ ∀ h ∈ s.ability.obtained, ¬ s.asc.IsLive h

/-- `EndAbility` is called somewhere during the activation. -/
def endsDuring (c : AbilityClass E) (a : ActivationScript) : Bool :=
  a.superEnds || (entries c.ongoingEffectsToApplyOnStart a.start).any entryEnds ||
    (entries c.ongoingEffectsToRemoveOnEnd a.remove).any entryEnds

/-- If an activation is entered and the ability is ended during it, no successful
application from `OngoingEffectsToRemoveOnEnd` returns after the last such call. -/
def EndsLast (c : AbilityClass E) (s : BaseState E) : AbilityEvent E → Prop
  | .activate a => s.ability.activeCount = 0 → endsDuring c a = true →
      obtainsAfterEnd (entries c.ongoingEffectsToRemoveOnEnd a.remove) = false
  | _ => True

/-- A granted ability that was never activated. -/
def Granted (s : BaseState E) : Prop := s.ability = .fresh

/-- A fresh instance is granted without activations and handles. -/
theorem granted_fresh (asc : AbilitySystem E) : Granted ⟨asc, .fresh⟩ := rfl

section Runs

variable {c : AbilityClass E} (hc : c.instancingPolicy.isInstantiated = true)
variable {s : BaseState E}

/-- With the handles tracked, an empty list is all that has to be checked. -/
theorem noEffectOutlives_iff_handles (ht : Tracked s) :
    NoEffectOutlives s ↔
      (s.ability.activeCount = 0 → s.ability.removeOnEndEffectsHandle = []) := by
  constructor
  · intro h hinactive
    exact (h hinactive).1
  · intro h hinactive
    refine ⟨h hinactive, fun n hn hlive => ?_⟩
    have hmem := ht.stored n hn hlive
    rw [h hinactive] at hmem
    exact absurd hmem (List.not_mem_nil)

include hc in
/-- An entered activation leaves the ability inactive exactly if it was ended during it. -/
theorem activateAbility_activeCount (hs : s.ability.activeCount = 0) (a : ActivationScript) :
    (activateAbility c a (preActivate s)).ability.activeCount =
      if endsDuring c a then 0 else 1 := by
  have hpre : (preActivate s).ability.activeCount = 1 := by
    simp [preActivate, AbilityInstance.preActivate, hs]
  have hsuper : (if a.superEnds then endAbility c (preActivate s)
      else preActivate s).ability.activeCount = if a.superEnds then 0 else 1 := by
    split <;> simp [hpre]
  have hle : (if a.superEnds then endAbility c (preActivate s)
      else preActivate s).ability.activeCount ≤ 1 := by
    rw [hsuper]
    split <;> omega
  have hstart := foldl_activeCount (c := c) false
    (entries c.ongoingEffectsToApplyOnStart a.start) _ hle
  rw [hsuper] at hstart
  simp only [activateAbility, hc, if_true]
  rw [foldl_activeCount true _ _ (by rw [hstart]; split <;> [omega; split <;> omega]), hstart]
  by_cases h₁ : a.superEnds = true <;>
    by_cases h₂ : (entries c.ongoingEffectsToApplyOnStart a.start).any entryEnds = true <;>
    by_cases h₃ : (entries c.ongoingEffectsToRemoveOnEnd a.remove).any entryEnds = true <;>
    simp only [endsDuring, h₁, h₂, h₃, Bool.or_true, Bool.true_or, Bool.or_self, if_true,
      if_false, Bool.false_eq_true]

include hc in
/-- An activation entered with no handle stored leaves one exactly if an application from
`OngoingEffectsToRemoveOnEnd` returned after the last `EndAbility`. -/
theorem activateAbility_handles_eq_nil_iff
    (hs : s.ability.removeOnEndEffectsHandle = []) (a : ActivationScript) :
    (activateAbility c a (preActivate s)).ability.removeOnEndEffectsHandle = [] ↔
      obtainsAfterEnd (entries c.ongoingEffectsToRemoveOnEnd a.remove) = false := by
  have hsuper : (if a.superEnds then endAbility c (preActivate s)
      else preActivate s).ability.removeOnEndEffectsHandle = [] := by
    split
    · exact endAbility_handles hc _
    · exact hs
  have hstart := foldl_false_handles_eq_nil hc
    (entries c.ongoingEffectsToApplyOnStart a.start) _ hsuper
  have hremove := foldl_handles_ne_nil_iff hc
    (entries c.ongoingEffectsToRemoveOnEnd a.remove)
    ((entries c.ongoingEffectsToApplyOnStart a.start).foldl (applyEffect c false)
      (if a.superEnds then endAbility c (preActivate s) else preActivate s))
  simp only [activateAbility, hc, if_true]
  rw [← not_iff_not, ← ne_eq, hremove, hstart]
  simp

include hc in
/-- One event keeps the tracking, and the spec of an instanced ability counts at most
one activation. -/
theorem abilityStep_keeps (h : Tracked s ∧ s.ability.activeCount ≤ 1) (e : AbilityEvent E) :
    Tracked (abilityStep c s e) ∧ (abilityStep c s e).ability.activeCount ≤ 1 := by
  obtain ⟨ht, hcount⟩ := h
  cases e with
  | activate a =>
    simp only [abilityStep, activateInstance, hc, Bool.true_and,
      AbilityInstance.isActive_eq_true]
    split
    · exact ⟨ht, hcount⟩
    · rename_i hinactive
      refine ⟨ht.preActivate.activateAbility hc a, ?_⟩
      rw [activateAbility_activeCount hc (by omega)]
      split <;> omega
  | endAbility =>
    refine ⟨ht.endAbility hc, ?_⟩
    simp only [abilityStep, endAbility_activeCount]
    omega
  | applied effect outcome => exact ⟨ht.apply effect outcome, hcount⟩
  | removed kept =>
    refine ⟨ht.of_asc (Nat.le_refl _) fun n hn => ?_, hcount⟩
    exact Or.inl (HandleStore.isLive_of_keepWhere hn)

include hc in
/-- One event, from a state with the property: it is kept exactly if the event meets
`EndsLast`. -/
theorem noEffectOutlives_step_iff (h : Tracked s ∧ s.ability.activeCount ≤ 1)
    (hP : NoEffectOutlives s) (e : AbilityEvent E) :
    NoEffectOutlives (abilityStep c s e) ↔ EndsLast c s e := by
  have ht' := (abilityStep_keeps hc h e).1
  rw [noEffectOutlives_iff_handles ht']
  cases e with
  | activate a =>
    simp only [abilityStep, activateInstance, hc, Bool.true_and,
      AbilityInstance.isActive_eq_true, EndsLast]
    split
    · rename_i hactive
      exact ⟨fun _ hz => by omega, fun _ hz => by omega⟩
    · rename_i hinactive
      have hzero : s.ability.activeCount = 0 := by omega
      rw [activateAbility_activeCount hc hzero,
        activateAbility_handles_eq_nil_iff hc (hP hzero).1]
      cases endsDuring c a <;> simp [hzero]
  | endAbility => simp [abilityStep, endAbility_handles hc, EndsLast]
  | applied effect outcome => exact ⟨fun _ => trivial, fun _ hz => (hP hz).1⟩
  | removed kept => exact ⟨fun _ => trivial, fun _ hz => (hP hz).1⟩

end Runs

/-- **No effect outlives its ability, exactly when no activation is ended too early.**
For every instanced ability and every run from its granting on, the property holds
whenever no call is in progress if and only if, in every activation that is entered and
ended from inside, no successful application from `OngoingEffectsToRemoveOnEnd` returns
after the last call of `EndAbility`.
SOURCE: AG_BaseGameplayAbility.cpp:9-69 -/
theorem noEffectOutlives_iff (c : AbilityClass E)
    (hc : c.instancingPolicy.isInstantiated = true) (s : BaseState E) (hs : Granted s)
    (es : List (AbilityEvent E)) :
    Always (abilityStep c) NoEffectOutlives s es ↔
      EveryStep (abilityStep c) (EndsLast c) s es := by
  have hinit : Tracked s ∧ s.ability.activeCount ≤ 1 := by
    rw [Granted] at hs
    exact ⟨⟨by simp [hs, AbilityInstance.fresh], by simp [hs, AbilityInstance.fresh]⟩,
      by simp [hs, AbilityInstance.fresh]⟩
  have hP : NoEffectOutlives s := by
    rw [Granted] at hs
    intro _
    simp [hs, AbilityInstance.fresh]
  exact always_iff_everyStep (fun s => Tracked s ∧ s.ability.activeCount ≤ 1)
    (fun s e h hP => noEffectOutlives_step_iff hc h hP e)
    (fun s e h _ _ => abilityStep_keeps hc h e) hinit hP es

/-- An ability whose one ongoing effect is applied on activation and removed on end. -/
def stateEffectAbility : AbilityClass ℕ := ⟨.instancedPerActor, [some 0], []⟩

/-- The condition is met by a run that activates the ability, is ended from inside its
last application, which fails, and activates and ends it again. -/
theorem noEffectOutlives_stateEffectAbility :
    Always (abilityStep stateEffectAbility) NoEffectOutlives ⟨HandleStore.empty, .fresh⟩
      [.activate ⟨false, fun _ => .quiet .added, fun _ => ⟨true, .rejected, false⟩⟩,
        .activate (.quiet (fun _ => .added) fun _ => .added), .endAbility] := by
  refine (noEffectOutlives_iff stateEffectAbility rfl _ (granted_fresh _) _).mpr
    ⟨?_, ?_, trivial, trivial⟩
  · intro _ _
    decide
  · intro _ hends
    exact absurd hends (by decide)

/-- The activate event ends the ability, and the effect it then applies stays: the
ability is inactive with a stored handle and an active effect. -/
theorem not_noEffectOutlives_activateEventEnds :
    ¬ Always (abilityStep stateEffectAbility) NoEffectOutlives ⟨HandleStore.empty, .fresh⟩
      [.activate ⟨true, fun _ => .quiet .added, fun _ => .quiet .added⟩] := by
  intro h
  have hlast := (h.last (by decide)).1
  exact absurd hlast (by decide)

end GasSamples.Analysis
