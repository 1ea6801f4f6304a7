import GasSamples.Analysis.HoldToCrouch
import GasSamples.Analysis.StateTags

/-!
# The crouch state effect

`OnStartCrouch` applies `CrouchStateEffect` and drops the handle, `OnEndCrouch` removes the
class.  So nobody owns the effect, and it tells whether the character is crouched as long as
every application adds it; the other abilities on the component may do what they like, if
they leave this effect alone.
-/

set_option autoImplicit false

namespace GasSamples.Analysis

open Reactive GasSamples.Model GasSamples.Program GasSamples.Program.CrouchAbility

/-- The crouching character, and the other abilities on its component. -/
structure CrouchSystem (ι E : Type) where
  character : CrouchingCharacter E
  others : ι → AbilityInstance

/-- What happens to the character, or to its component through the others. -/
inductive CrouchSystemEvent (ι E : Type)
  | crouch (e : CrouchEvent)
  | other (e : ComponentEvent ι E)

variable {ι E : Type}

section System

variable [DecidableEq ι] [DecidableEq E] (c : CrouchClass E) (k : ι → AbilityClass E)

/-- One event. -/
def crouchSystemStep (s : CrouchSystem ι E) : CrouchSystemEvent ι E → CrouchSystem ι E
  | .crouch e => { s with character := crouchStep c s.character e }
  | .other e =>
    let t := componentStep k ⟨s.character.asc, s.others⟩ e
    { character := { s.character with asc := t.asc }, others := t.abilities }

end System

/-! ## The component -/

section Component

variable (c : CrouchClass E) (k : ι → AbilityClass E)

/-- The component, with the crouch among the abilities. -/
def crouchComponent (s : CrouchSystem ι E) : SharedComponent (Option ι) E :=
  ⟨s.character.asc, fun i => i.elim s.character.crouch s.others⟩

/-- Their classes. -/
def crouchClasses (i : Option ι) : AbilityClass E := i.elim c.base k

/-- An event of the others, with the crouch among the abilities. -/
def otherEvent : ComponentEvent ι E → ComponentEvent (Option ι) E
  | .activate i a => .activate (some i) a
  | .endAbility i => .endAbility (some i)
  | .applied effect outcome => .applied effect outcome
  | .removed kept => .removed kept

/-- A movement update makes the character crouch. -/
def startsToCrouch (w : CrouchingCharacter E) : Bool := w.bWantsToCrouch && !w.bIsCrouched

/-- A movement update makes the character stand up. -/
def standsUp (w : CrouchingCharacter E) : Bool :=
  !w.bWantsToCrouch && w.bIsCrouched && w.roomToStand

variable [DecidableEq E]

/-- What an event of the character does to the component. -/
def crouchEvents (w : CrouchingCharacter E) : CrouchEvent → List (ComponentEvent (Option ι) E)
  | .started start remove =>
    if w.crouch.isActive || w.bIsCrouched then [] else [.activate none (.quiet start remove)]
  | .completed => if w.crouch.isActive then [.endAbility none] else []
  | .movementUpdate outcome =>
    if startsToCrouch w then applyClass c.crouchStateEffect outcome
    else if standsUp w then removeClass c.crouchStateEffect
    else []
  | .roomChanged _ => []

/-- What an event does to the component. -/
def crouchSystemEvents (s : CrouchSystem ι E) :
    CrouchSystemEvent ι E → List (ComponentEvent (Option ι) E)
  | .crouch e => crouchEvents c s.character e
  | .other e => [otherEvent e]

end Component

section Simulation

variable [DecidableEq ι] {c : CrouchClass E} {k : ι → AbilityClass E}

/-- An activation or an end of another ability. -/
theorem crouchComponent_setBase (s : CrouchSystem ι E) (i : ι) (b : BaseState E) :
    crouchComponent ⟨{ s.character with asc := b.asc },
        Function.update s.others i b.ability⟩ =
      (crouchComponent s).setBase (some i) b := by
  unfold crouchComponent SharedComponent.setBase
  congr 1
  funext j
  cases j with
  | none => rfl
  | some j =>
    by_cases hji : j = i
    · subst hji
      simp
    · simp [hji]

variable [DecidableEq E]

/-- An event of the other abilities is one of the shared component. -/
theorem crouchComponent_other (s : CrouchSystem ι E) (e : ComponentEvent ι E) :
    crouchComponent (crouchSystemStep c k s (.other e)) =
      componentStep (crouchClasses c k) (crouchComponent s) (otherEvent e) := by
  cases e with
  | activate i a => exact crouchComponent_setBase s i _
  | endAbility i => exact crouchComponent_setBase s i _
  | applied effect outcome => rfl
  | removed kept => rfl

omit [DecidableEq E] in
/-- An activation or an end of the crouch. -/
theorem crouchComponent_setBase_none (s : CrouchSystem ι E) {w : CrouchingCharacter E}
    {b : BaseState E} (hasc : w.asc = b.asc) (hcrouch : w.crouch = b.ability) :
    crouchComponent ⟨w, s.others⟩ = (crouchComponent s).setBase none b := by
  unfold crouchComponent SharedComponent.setBase
  rw [hasc]
  congr 1
  funext j
  cases j with
  | none => simp [hcrouch]
  | some j => simp

/-- A movement update makes the character crouch or stand up, or changes nothing. -/
theorem movementUpdate_eq (outcome : ApplyOutcome) (w : CrouchingCharacter E) :
    movementUpdate c outcome w =
      if startsToCrouch w then onStartCrouch c outcome { w with bIsCrouched := true }
      else if standsUp w then onEndCrouch c { w with bIsCrouched := false }
      else w := rfl

/-- A movement update applies or removes `CrouchStateEffect`. -/
theorem crouchComponent_movementUpdate (s : CrouchSystem ι E) (outcome : ApplyOutcome) :
    crouchComponent ⟨movementUpdate c outcome s.character, s.others⟩ =
      run (componentStep (crouchClasses c k)) (crouchComponent s)
        (crouchEvents c s.character (.movementUpdate outcome)) := by
  rw [movementUpdate_eq, crouchEvents]
  by_cases hstarts : startsToCrouch s.character = true
  · rw [if_pos hstarts, if_pos hstarts]
    unfold onStartCrouch applyClass
    cases c.crouchStateEffect with
    | none => rfl
    | some effect =>
      by_cases hspec : outcome = .invalidSpec
      · simp only [if_pos hspec]
        rfl
      · simp only [if_neg hspec]
        rfl
  · rw [if_neg hstarts, if_neg hstarts]
    by_cases hstands : standsUp s.character = true
    · rw [if_pos hstands, if_pos hstands]
      unfold onEndCrouch
      cases c.crouchStateEffect <;> rfl
    · rw [if_neg hstands, if_neg hstands]
      rfl

/-- An event is a run of events of the component. -/
theorem crouchComponent_step (s : CrouchSystem ι E) (e : CrouchSystemEvent ι E) :
    crouchComponent (crouchSystemStep c k s e) =
      run (componentStep (crouchClasses c k)) (crouchComponent s) (crouchSystemEvents c s e) := by
  cases e with
  | other e => exact crouchComponent_other s e
  | crouch e =>
    cases e with
    | started start remove =>
      simp only [crouchSystemStep, crouchStep, onCrouchStarted, CrouchAbility.tryActivateAbility,
        crouchSystemEvents, crouchEvents, canActivateAbility, canCrouch, Bool.not_true,
        Bool.false_eq_true, if_false, Bool.not_not]
      by_cases hrefused : (s.character.crouch.isActive || s.character.bIsCrouched) = true
      · rw [if_pos hrefused, if_pos hrefused]
        rfl
      · rw [if_neg hrefused, if_neg hrefused, run_cons, run_nil]
        have hrefuses : refuses (crouchClasses c k none) ((crouchComponent s).running none) =
            false := by
          simp only [Bool.or_eq_true, not_or, Bool.not_eq_true] at hrefused
          obtain ⟨hinactive, -⟩ := hrefused
          simp only [refuses, Bool.and_eq_false_iff]
          exact Or.inr hinactive
        simp only [componentStep, activateInstance_base, hrefuses, Bool.false_eq_true, if_false]
        apply crouchComponent_setBase_none
        · unfold CrouchAbility.activateAbility crouch
          split <;> rfl
        · unfold CrouchAbility.activateAbility crouch
          split <;> rfl
    | completed =>
      simp only [crouchSystemStep, crouchStep, onCrouchEnded, crouchSystemEvents, crouchEvents]
      by_cases hactive : s.character.crouch.isActive = true
      · rw [if_pos hactive, if_pos hactive, run_cons, run_nil]
        exact crouchComponent_setBase_none s rfl rfl
      · rw [if_neg hactive, if_neg hactive]
        rfl
    | movementUpdate outcome => exact crouchComponent_movementUpdate s outcome
    | roomChanged roomToStand => rfl

end Simulation

/-! ## The effect on the ledger -/

/-- The effect is in no list of an ability. -/
def ListsWithout (c : ι → AbilityClass E) (effect : E) : Prop :=
  ∀ i, some effect ∉ (c i).ongoingEffectsToApplyOnStart ∧
    some effect ∉ (c i).ongoingEffectsToRemoveOnEnd

/-- Other parties neither add the effect nor remove it. -/
def AvoidsEffect (effect : E) : ComponentEvent ι E → Prop
  | .activate _ _ => True
  | .endAbility _ => True
  | .applied other outcome => outcome = .added → effect ≠ other
  | .removed kept => kept effect = true

/-- An event that avoids the effect makes operations that avoid it. -/
theorem avoids_eventOps {c : ι → AbilityClass E} {effect : E} (hc : ListsWithout c effect)
    (running : ι → ℕ) {e : ComponentEvent ι E} (he : AvoidsEffect effect e) :
    ∀ op ∈ eventOps c running e, op.Avoids fun other => effect = other := by
  intro op hop
  cases e with
  | activate i a =>
    simp only [eventOps] at hop
    split at hop
    · exact absurd hop List.not_mem_nil
    · rcases mem_activationOps hop with ⟨rfl, -⟩ | ⟨other, live, hmem, rfl⟩ |
        ⟨-, other, live, hmem, rfl⟩
      · trivial
      · exact fun _ heq => (hc i).1 (heq ▸ hmem)
      · exact fun _ heq => (hc i).2 (heq ▸ hmem)
  | endAbility i =>
    rw [mem_endOps hop]
    trivial
  | applied other outcome =>
    simp only [eventOps, applyOps] at hop
    split at hop
    · rw [List.mem_singleton.mp hop]
      exact fun hadded => he (of_decide_eq_true hadded)
    · exact absurd hop List.not_mem_nil
  | removed kept =>
    rw [List.mem_singleton.mp hop]
    intro other heq
    rw [← heq]
    exact he

/-- Nobody owns the effect, and `n` of it are active. -/
structure LooseEffect [DecidableEq E] (effect : E) (n : ℕ) (l : EffectLedger ι E) : Prop where
  unowned : l.bag.Unowned fun other => effect = other
  count : l.bag.loose.countP (fun other => effect = other) = n

section Ledger

variable [DecidableEq ι] [DecidableEq E] {c : ι → AbilityClass E} {effect : E} {n : ℕ}
  {l : EffectLedger ι E}

/-- The loose copies of the effect are kept over runs that avoid it. -/
theorem LooseEffect.run (hc : ListsWithout c effect) (h : LooseEffect effect n l)
    {es : List (ComponentEvent ι E)} (hes : ∀ e ∈ es, AvoidsEffect effect e) :
    LooseEffect effect n (run (ledgerStep c) l es) := by
  induction es generalizing l with
  | nil => exact h
  | cons e es ih =>
    have hops := avoids_eventOps hc l.running (hes e List.mem_cons_self)
    obtain ⟨hunowned, hcount⟩ := h.unowned.run hops
    exact ih ⟨hunowned, hcount.trans h.count⟩ fun e' he' => hes e' (List.mem_cons_of_mem _ he')

/-- An application by another party adds one or nothing. -/
theorem LooseEffect.applyClass (h : LooseEffect effect n l) (outcome : ApplyOutcome) :
    LooseEffect effect (n + if outcome = .added then 1 else 0)
      (Reactive.run (ledgerStep c) l (applyClass (some effect) outcome)) := by
  cases outcome with
  | invalidSpec => exact h
  | rejected => exact h
  | executed => exact h
  | added =>
    refine ⟨h.unowned.add_none effect, ?_⟩
    have hone : ({effect} : Multiset E).countP (fun other => effect = other) = 1 :=
      Multiset.count_singleton_self effect
    show (l.bag.loose + {effect}).countP (fun other => effect = other) = n + 1
    rw [Multiset.countP_add, h.count, hone]

/-- A removal of the class leaves none. -/
theorem LooseEffect.removeClass (h : LooseEffect effect n l) :
    LooseEffect effect 0 (Reactive.run (ledgerStep c) l (removeClass (some effect))) := by
  refine ⟨h.unowned.sweep _, ?_⟩
  show (l.bag.loose.filter fun other => (other != effect) = true).countP _ = 0
  rw [Multiset.countP_eq_zero]
  intro other hmem heq
  subst heq
  simp at hmem

end Ledger

/-! ## The effect and the character -/

/-- An event of the others leaves the effect alone. -/
def LeavesCrouchState (effect : E) : CrouchSystemEvent ι E → Prop
  | .crouch _ => True
  | .other e => AvoidsEffect effect e

/-- A movement update that makes the character crouch adds the effect. -/
def AddsCrouchState (s : CrouchSystem ι E) : CrouchSystemEvent ι E → Prop
  | .crouch (.movementUpdate outcome) => startsToCrouch s.character = true → outcome = .added
  | _ => True

/-- How often the effect is active. -/
def crouchStateCount [DecidableEq E] (effect : E) (s : CrouchSystem ι E) : ℕ :=
  s.character.asc.values.count effect

/-- The effect is active once while the character is crouched, and not at all otherwise. -/
def TellsCrouched [DecidableEq E] (effect : E) (s : CrouchSystem ι E) : Prop :=
  crouchStateCount effect s = if s.character.bIsCrouched then 1 else 0

section State

variable [DecidableEq ι] [Fintype ι] [DecidableEq E] {c : CrouchClass E} {k : ι → AbilityClass E}
  {effect : E} {s : CrouchSystem ι E}

/-- No handle has two owners, and nobody owns the effect. -/
structure CrouchAccounted (effect : E) (s : CrouchSystem ι E) : Prop where
  separate : (crouchComponent s).holdings.Separate
  loose : LooseEffect effect (crouchStateCount effect s) (crouchComponent s).ledger

/-- What the ledger says of the effect, the component has. -/
theorem crouchAccounted_of_loose {n : ℕ} (hsep : (crouchComponent s).holdings.Separate)
    (h : LooseEffect effect n (crouchComponent s).ledger) :
    CrouchAccounted effect s ∧ crouchStateCount effect s = n := by
  have htotal : (crouchComponent s).ledger.bag.total =
      (s.character.asc.values : Multiset E) := Holdings.total_bag hsep
  have hcount : crouchStateCount effect s = n := by
    rw [← h.count, ← h.unowned.countP_total, htotal]
    exact (Multiset.coe_count effect s.character.asc.values).symm
  refine ⟨⟨hsep, ?_⟩, hcount⟩
  rw [hcount]
  exact h

/-- An event whose events on the component leave `n` of the effect. -/
theorem CrouchAccounted.next (h : CrouchAccounted effect s) {e : CrouchSystemEvent ι E} {n : ℕ}
    (hn : LooseEffect effect n (Reactive.run (ledgerStep (crouchClasses c k))
      (crouchComponent s).ledger (crouchSystemEvents c s e))) :
    CrouchAccounted effect (crouchSystemStep c k s e) ∧
      crouchStateCount effect (crouchSystemStep c k s e) = n := by
  have hview := crouchComponent_step (c := c) (k := k) s e
  apply crouchAccounted_of_loose
  · rw [hview]
    exact (always_of_invariant (fun t : SharedComponent (Option ι) E => t.holdings.Separate)
      (fun _ e ht => separate_componentStep ht e) h.separate _).last
  · rw [hview, ledger_run h.separate]
    exact hn

/-- A movement update that makes the character crouch adds one of the effect, or none. -/
theorem CrouchAccounted.starts (heffect : c.crouchStateEffect = some effect)
    (h : CrouchAccounted effect s) (hstarts : startsToCrouch s.character = true)
    (outcome : ApplyOutcome) :
    CrouchAccounted effect (crouchSystemStep c k s (.crouch (.movementUpdate outcome))) ∧
      crouchStateCount effect (crouchSystemStep c k s (.crouch (.movementUpdate outcome))) =
        crouchStateCount effect s + if outcome = .added then 1 else 0 := by
  apply h.next
  simp only [crouchSystemEvents, crouchEvents, hstarts, if_true, heffect]
  exact h.loose.applyClass outcome

/-- A movement update that lets the character stand up leaves none of the effect. -/
theorem CrouchAccounted.stands (heffect : c.crouchStateEffect = some effect)
    (h : CrouchAccounted effect s) (hstarts : ¬ startsToCrouch s.character = true)
    (hstands : standsUp s.character = true) (outcome : ApplyOutcome) :
    CrouchAccounted effect (crouchSystemStep c k s (.crouch (.movementUpdate outcome))) ∧
      crouchStateCount effect (crouchSystemStep c k s (.crouch (.movementUpdate outcome))) =
        0 := by
  apply h.next
  simp only [crouchSystemEvents, crouchEvents, hstarts, Bool.false_eq_true, if_false, hstands,
    if_true, heffect]
  exact h.loose.removeClass

/-- A movement update of a character that stays as it is. -/
def StaysAsItIs (s : CrouchSystem ι E) : CrouchSystemEvent ι E → Prop
  | .crouch (.movementUpdate _) =>
    ¬ startsToCrouch s.character = true ∧ ¬ standsUp s.character = true
  | _ => True

/-- Any other event leaves the effect and the character's posture as they are. -/
theorem CrouchAccounted.stays (hc : ListsWithout (crouchClasses c k) effect)
    (h : CrouchAccounted effect s) {e : CrouchSystemEvent ι E} (he : LeavesCrouchState effect e)
    (hstays : StaysAsItIs s e) :
    CrouchAccounted effect (crouchSystemStep c k s e) ∧
      crouchStateCount effect (crouchSystemStep c k s e) = crouchStateCount effect s := by
  apply h.next
  apply h.loose.run hc
  intro d hd
  cases e with
  | other e =>
    obtain rfl : d = otherEvent e := List.mem_singleton.mp hd
    cases e <;> exact he
  | crouch e =>
    simp only [crouchSystemEvents] at hd
    cases e with
    | started start remove =>
      simp only [crouchEvents] at hd
      split at hd
      · exact absurd hd List.not_mem_nil
      · rw [List.mem_singleton.mp hd]
        trivial
    | completed =>
      simp only [crouchEvents] at hd
      split at hd
      · rw [List.mem_singleton.mp hd]
        trivial
      · exact absurd hd List.not_mem_nil
    | movementUpdate outcome =>
      simp only [crouchEvents, hstays.1, hstays.2, Bool.false_eq_true, if_false] at hd
      exact absurd hd List.not_mem_nil
    | roomChanged roomToStand => exact absurd hd List.not_mem_nil

/-! ## The posture -/

omit [DecidableEq ι] [Fintype ι] [DecidableEq E] in
/-- `OnStartCrouch` leaves the flag to the movement component. -/
theorem onStartCrouch_bIsCrouched (outcome : ApplyOutcome) (w : CrouchingCharacter E) :
    (onStartCrouch c outcome w).bIsCrouched = w.bIsCrouched := by
  unfold onStartCrouch
  split
  · rfl
  · split <;> rfl

omit [DecidableEq ι] [Fintype ι] in
/-- `OnEndCrouch` leaves the flag to the movement component. -/
theorem onEndCrouch_bIsCrouched (w : CrouchingCharacter E) :
    (onEndCrouch c w).bIsCrouched = w.bIsCrouched := by
  unfold onEndCrouch
  split <;> rfl

omit [Fintype ι] in
/-- An update that starts to crouch leaves the character crouched. -/
theorem bIsCrouched_starts (hstarts : startsToCrouch s.character = true)
    (outcome : ApplyOutcome) :
    (crouchSystemStep c k s
      (.crouch (.movementUpdate outcome))).character.bIsCrouched = true := by
  simp only [crouchSystemStep, crouchStep, movementUpdate_eq, hstarts, if_true,
    onStartCrouch_bIsCrouched]

omit [Fintype ι] in
/-- An update that stands up leaves the character standing. -/
theorem bIsCrouched_stands (hstarts : ¬ startsToCrouch s.character = true)
    (hstands : standsUp s.character = true) (outcome : ApplyOutcome) :
    (crouchSystemStep c k s
      (.crouch (.movementUpdate outcome))).character.bIsCrouched = false := by
  simp only [crouchSystemStep, crouchStep, movementUpdate_eq, hstarts, Bool.false_eq_true,
    if_false, hstands, if_true, onEndCrouch_bIsCrouched]

omit [Fintype ι] in
/-- An event that does neither leaves the flag as it is. -/
theorem bIsCrouched_stays {e : CrouchSystemEvent ι E} (hstays : StaysAsItIs s e) :
    (crouchSystemStep c k s e).character.bIsCrouched = s.character.bIsCrouched := by
  cases e with
  | other e => rfl
  | crouch e =>
    cases e with
    | started start remove =>
      simp only [crouchSystemStep, crouchStep, onCrouchStarted, CrouchAbility.tryActivateAbility]
      split
      · rfl
      · unfold CrouchAbility.activateAbility crouch
        split <;> rfl
    | completed =>
      simp only [crouchSystemStep, crouchStep, onCrouchEnded]
      split <;> rfl
    | movementUpdate outcome =>
      simp only [crouchSystemStep, crouchStep, movementUpdate_eq, hstays.1, hstays.2,
        Bool.false_eq_true, if_false]
    | roomChanged roomToStand => rfl

omit [DecidableEq ι] [Fintype ι] [DecidableEq E] in
/-- An event that does not start to crouch need not add the effect. -/
theorem addsCrouchState_of_stays {e : CrouchSystemEvent ι E} (hstays : StaysAsItIs s e) :
    AddsCrouchState s e := by
  cases e with
  | other e => trivial
  | crouch e =>
    cases e with
    | started start remove => trivial
    | completed => trivial
    | movementUpdate outcome => exact fun hstarts => absurd hstarts hstays.1
    | roomChanged roomToStand => trivial

omit [DecidableEq ι] [Fintype ι] [DecidableEq E] in
/-- Only a standing character starts to crouch. -/
theorem crouched_of_startsToCrouch (hstarts : startsToCrouch s.character = true) :
    s.character.bIsCrouched = false := by
  simp only [startsToCrouch, Bool.and_eq_true, Bool.not_eq_true'] at hstarts
  exact hstarts.2

/-- The effect is active at most once, and not while the character stands. -/
structure CrouchStateKept (effect : E) (s : CrouchSystem ι E) : Prop where
  accounted : CrouchAccounted effect s
  atMost : crouchStateCount effect s ≤ if s.character.bIsCrouched then 1 else 0

/-- **The step lemma**: the effect is kept apart, and goes on telling whether the character
is crouched exactly if it is added whenever the character starts to crouch. -/
theorem CrouchStateKept.step (hc : ListsWithout (crouchClasses c k) effect)
    (heffect : c.crouchStateEffect = some effect) (h : CrouchStateKept effect s)
    {e : CrouchSystemEvent ι E} (he : LeavesCrouchState effect e) :
    CrouchStateKept effect (crouchSystemStep c k s e) ∧
      (TellsCrouched effect s →
        (TellsCrouched effect (crouchSystemStep c k s e) ↔ AddsCrouchState s e)) := by
  by_cases hstays : StaysAsItIs s e
  · obtain ⟨haccounted, hcount⟩ := h.accounted.stays hc he hstays
    have hposture := bIsCrouched_stays (c := c) (k := k) hstays
    refine ⟨⟨haccounted, ?_⟩, fun htells => iff_of_true ?_ ?_⟩
    · rw [hcount, hposture]
      exact h.atMost
    · unfold TellsCrouched at htells ⊢
      rw [hcount, hposture, htells]
    · exact addsCrouchState_of_stays hstays
  · -- a movement update that changes the posture
    obtain ⟨outcome, rfl⟩ : ∃ outcome, e = .crouch (.movementUpdate outcome) := by
      cases e with
      | other e => exact absurd trivial hstays
      | crouch e =>
        cases e with
        | started start remove => exact absurd trivial hstays
        | completed => exact absurd trivial hstays
        | movementUpdate outcome => exact ⟨outcome, rfl⟩
        | roomChanged roomToStand => exact absurd trivial hstays
    by_cases hstarts : startsToCrouch s.character = true
    · obtain ⟨haccounted, hcount⟩ := h.accounted.starts (k := k) heffect hstarts outcome
      have hposture := bIsCrouched_starts (c := c) (k := k) hstarts outcome
      have hnone : crouchStateCount effect s = 0 := by
        have hatMost := h.atMost
        rw [crouched_of_startsToCrouch hstarts] at hatMost
        simpa using hatMost
      rw [hnone, Nat.zero_add] at hcount
      refine ⟨⟨haccounted, ?_⟩, fun _ => ?_⟩
      · rw [hcount, hposture]
        split <;> simp
      · unfold TellsCrouched AddsCrouchState
        rw [hcount, hposture]
        simp [hstarts]
    · have hstands : standsUp s.character = true := by
        by_contra hnot
        exact hstays ⟨hstarts, hnot⟩
      obtain ⟨haccounted, hcount⟩ := h.accounted.stands (k := k) heffect hstarts hstands outcome
      have hposture := bIsCrouched_stands (c := c) (k := k) hstarts hstands outcome
      refine ⟨⟨haccounted, ?_⟩, fun _ => iff_of_true ?_ ?_⟩
      · rw [hcount]
        exact Nat.zero_le _
      · unfold TellsCrouched
        rw [hcount, hposture]
        rfl
      · exact fun hstarts' => absurd hstarts' hstarts

/-- A standing character without the effect, whose abilities were never activated. -/
theorem crouchStateKept_of_granted (hs : (crouchComponent s).Granted)
    (hnone : crouchStateCount effect s = 0) : CrouchStateKept effect s := by
  have hsep := separate_of_granted hs
  have htotal : (crouchComponent s).ledger.bag.total =
      (s.character.asc.values : Multiset E) := Holdings.total_bag hsep
  have hunowned : (crouchComponent s).ledger.bag.Unowned fun other => effect = other := by
    intro i other hmem heq
    subst heq
    have hin : effect ∈ (crouchComponent s).ledger.bag.total :=
      Multiset.mem_add.mpr (Or.inr (Multiset.mem_sum.mpr ⟨i, Finset.mem_univ i, hmem⟩))
    rw [htotal, Multiset.mem_coe] at hin
    exact absurd hin (List.count_eq_zero.mp hnone)
  have hcount : (crouchComponent s).ledger.bag.loose.countP (fun other => effect = other) = 0 := by
    rw [← hunowned.countP_total, htotal, ← hnone]
    exact Multiset.coe_count effect s.character.asc.values
  refine ⟨(crouchAccounted_of_loose hsep ⟨hunowned, hcount⟩).1, ?_⟩
  rw [hnone]
  exact Nat.zero_le _

end State

/-- **The crouch state effect tells whether the character is crouched.**  Let
`CrouchStateEffect` be in no list of an ability on the component.  Then in every run of
presses, releases, movement updates and changes of the room to stand up, with any
activations and ends of the other abilities in between, and applications and removals by
others that leave the effect alone, from a standing character without it whose abilities
were never activated: the effect is active at most once, and never while the character
stands; and it is active throughout exactly while the character is crouched if and only if
every application in `OnStartCrouch` adds it.
SOURCE: GASCharacter.cpp:140-163, 344-356, AG_CrouchAbility.cpp:14-45,
AG_BaseGameplayAbility.cpp:9-69 -/
theorem crouchState_iff [DecidableEq ι] [Fintype ι] [DecidableEq E] (c : CrouchClass E)
    (k : ι → AbilityClass E) (effect : E) (heffect : c.crouchStateEffect = some effect)
    (hc : ListsWithout (crouchClasses c k) effect) (s : CrouchSystem ι E)
    (hs : (crouchComponent s).Granted) (hstanding : s.character.bIsCrouched = false)
    (hnone : crouchStateCount effect s = 0) (es : List (CrouchSystemEvent ι E))
    (hes : ∀ e ∈ es, LeavesCrouchState effect e) :
    Always (crouchSystemStep c k)
        (fun s => crouchStateCount effect s ≤ if s.character.bIsCrouched then 1 else 0) s es ∧
      (Always (crouchSystemStep c k) (TellsCrouched effect) s es ↔
        EveryStep (crouchSystemStep c k) AddsCrouchState s es) := by
  have hkept := crouchStateKept_of_granted hs hnone
  have htells : TellsCrouched effect s := by
    unfold TellsCrouched
    rw [hnone, hstanding]
    rfl
  constructor
  · have halways := always_of_invariant_on (CrouchStateKept effect) (LeavesCrouchState effect)
      (fun _ _ he h => (h.step hc heffect he).1) hkept hes
    exact fun pre hpre => (halways pre hpre).atMost
  · exact always_iff_everyStep_on (CrouchStateKept effect) (LeavesCrouchState effect)
      (fun _ _ he h htells => (h.step hc heffect he).2 htells)
      (fun _ _ he h _ _ => (h.step hc heffect he).1) hkept htells hes

/-! ## The effect and the ability -/

section Lag

variable [DecidableEq ι] [DecidableEq E] {c : CrouchClass E} {k : ι → AbilityClass E}
  {effect : E} {s : CrouchSystem ι E}

end Lag

/-- A crouch with effects of its own: 5 for good, and 6 while it is active. -/
def sneakingCrouch : CrouchClass ℕ := ⟨[some 6], [some 5], some 0⟩

/-- The standing character, with two other abilities. -/
def standingSystem : CrouchSystem Bool ℕ := ⟨standingCharacter, fun _ => .fresh⟩

/-- A press, the crouching and the loss of the room above, the release with two more
updates, and another ability all the while. -/
def crouchUnderCeiling : List (CrouchSystemEvent Bool ℕ) :=
  [.crouch (.started (fun _ => .added) fun _ => .added),
    .other (.activate true (.quiet (fun _ => .added) fun _ => .added)),
    .crouch (.movementUpdate .added), .crouch (.roomChanged false), .crouch .completed,
    .crouch (.movementUpdate .rejected), .other (.endAbility true),
    .other (.removed fun effect => effect == 0), .crouch (.roomChanged true),
    .crouch (.movementUpdate .rejected)]

/-- No ability of the example lists the state effect. -/
theorem listsWithout_sneakingCrouch :
    ListsWithout (crouchClasses sneakingCrouch twoAbilities) 0 := by
  intro i
  cases i with
  | none => simp [crouchClasses, sneakingCrouch, CrouchClass.base]
  | some i => cases i <;> simp [crouchClasses, twoAbilities]

/-- No event of the example touches the state effect. -/
theorem leavesCrouchState_underCeiling :
    ∀ e ∈ crouchUnderCeiling, LeavesCrouchState 0 e := by
  intro e he
  simp only [crouchUnderCeiling, List.mem_cons, List.not_mem_nil, or_false] at he
  rcases he with rfl | rfl | rfl | rfl | rfl | rfl | rfl | rfl | rfl | rfl <;> trivial

/-- Every start of a crouch in the example adds the state effect. -/
theorem addsCrouchState_underCeiling :
    EveryStep (crouchSystemStep sneakingCrouch twoAbilities) AddsCrouchState standingSystem
      crouchUnderCeiling := by
  refine ⟨trivial, trivial, fun _ => rfl, trivial, trivial, ?_, trivial, trivial, trivial, ?_,
    trivial⟩
  · exact fun hstarts => absurd hstarts (by decide)
  · exact fun hstarts => absurd hstarts (by decide)

/-- Under the ceiling the effect still tells that the character is crouched. -/
theorem crouchState_underCeiling :
    Always (crouchSystemStep sneakingCrouch twoAbilities) (TellsCrouched 0) standingSystem
      crouchUnderCeiling :=
  (crouchState_iff sneakingCrouch twoAbilities 0 rfl listsWithout_sneakingCrouch standingSystem
    (fun i => by cases i <;> rfl) rfl rfl crouchUnderCeiling
    leavesCrouchState_underCeiling).2.mpr addsCrouchState_underCeiling

end GasSamples.Analysis
