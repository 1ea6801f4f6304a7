import GasSamples.Reactive.Ownership
import GasSamples.Analysis.BaseGameplayAbility

/-!
# Several abilities on one component

All abilities of a character apply their effects to the same component, and each one
removes by handle what it has stored.  `EffectLedger` says what that is for: effects that
stay, and for each ability those that go when it ends, with no handle anywhere.
`refines_ledger` says that any family of abilities follows the ledger in every run, with
the ends of an ability from inside its own activation.

The members of a family are instances: an ability that is instanced per actor is one member,
each execution of an ability that is instanced per execution is a member of its own, and a
non-instanced ability is one member, its class default object, that may be active several
times.

An activation is taken apart into operations on the shared store.  `EndAbility` from
inside an application is made before the value is put in or after it, which makes no
difference to the store, so an entry of an effect list is its ends and then one new value.
-/

set_option autoImplicit false

namespace GasSamples.Analysis

open Reactive GasSamples.Model GasSamples.Program GasSamples.Program.BaseGameplayAbility

/-! ## The component and its ledger -/

/-- The component, and the abilities that share it. -/
structure SharedComponent (ι E : Type) where
  asc : AbilitySystem E
  abilities : ι → AbilityInstance

/-- What happens to the component.  `applied` and `removed` are the doing of other
parties. -/
inductive ComponentEvent (ι E : Type)
  | activate (i : ι) (a : ActivationScript)
  | endAbility (i : ι)
  | applied (effect : E) (outcome : ApplyOutcome)
  | removed (kept : E → Bool)

variable {ι E : Type}

namespace SharedComponent

/-- What one ability and the component share. -/
def base (s : SharedComponent ι E) (i : ι) : BaseState E := ⟨s.asc, s.abilities i⟩

/-- The store of the active effects, with the handles that the abilities keep. -/
def holdings (s : SharedComponent ι E) : Holdings ι E :=
  ⟨s.asc, fun i => (s.abilities i).removeOnEndEffectsHandle⟩

/-- Put the part of one ability back. -/
def setBase [DecidableEq ι] (s : SharedComponent ι E) (i : ι) (b : BaseState E) :
    SharedComponent ι E :=
  ⟨b.asc, Function.update s.abilities i b.ability⟩

/-- How often each ability is running. -/
def running (s : SharedComponent ι E) (i : ι) : ℕ := (s.abilities i).activeCount

/-- No ability was ever activated. -/
def Granted (s : SharedComponent ι E) : Prop := ∀ i, s.abilities i = .fresh

end SharedComponent

/-- One event. -/
def componentStep [DecidableEq ι] (c : ι → AbilityClass E) (s : SharedComponent ι E) :
    ComponentEvent ι E → SharedComponent ι E
  | .activate i a => s.setBase i (activateInstance (c i) a (s.base i))
  | .endAbility i => s.setBase i (endAbility (c i) (s.base i))
  | .applied effect outcome =>
    { s with asc := (s.asc.applyGameplayEffectSpecToSelf effect outcome).2 }
  | .removed kept => { s with asc := s.asc.keepWhere fun p => kept p.2 }

/-- Another party applies an effect class; nothing comes of the null class or of an invalid
spec. -/
def applyClass (effect : Option E) (outcome : ApplyOutcome) : List (ComponentEvent ι E) :=
  match effect with
  | none => []
  | some effect => if outcome = .invalidSpec then [] else [.applied effect outcome]

/-- Another party removes an effect class; the null class removes nothing. -/
def removeClass [DecidableEq E] : Option E → List (ComponentEvent ι E)
  | none => []
  | some effect => [.removed fun other => other != effect]

/-- The active effects that nobody will remove by handle, those of each ability, and how
often each ability is running. -/
@[ext] structure EffectLedger (ι E : Type) where
  bag : Bag ι E
  running : ι → ℕ

section Operations

/-- An end of an ability: an instanced one gives back what it holds. -/
def endOps (c : AbilityClass E) (i : ι) : List (OwnerOp ι E) :=
  if c.instancingPolicy.isInstantiated then [.drop i] else []

/-- An application for an owner, or for nobody. -/
def applyOps (owner : Option ι) (effect : E) (outcome : ApplyOutcome) : List (OwnerOp ι E) :=
  if outcome.wasSuccessfullyApplied then [.issue owner (decide (outcome = .added)) effect] else []

/-- The ends of the ability from inside one application. -/
def callOps (c : AbilityClass E) (i : ι) (call : ApplyCall) : List (OwnerOp ι E) :=
  (if call.endsBefore then endOps c i else []) ++ if call.endsAfter then endOps c i else []

/-- One entry of an effect list: the ends, and then the application. -/
def entryOps (c : AbilityClass E) (i : ι) (keep : Bool) :
    Option E × ApplyCall → List (OwnerOp ι E)
  | (none, _) => []
  | (some effect, call) =>
    if call.outcome = .invalidSpec then []
    else callOps c i call ++ applyOps (if keep then some i else none) effect call.outcome

/-- An activation that is entered. -/
def activationOps (c : AbilityClass E) (i : ι) (a : ActivationScript) : List (OwnerOp ι E) :=
  (if a.superEnds then endOps c i else []) ++
    ((entries c.ongoingEffectsToApplyOnStart a.start).flatMap (entryOps c i false) ++
      if c.instancingPolicy.isInstantiated then
        (entries c.ongoingEffectsToRemoveOnEnd a.remove).flatMap (entryOps c i true)
      else [])

/-- How often the ability is ended while an entry is processed. -/
def entryEndCount : Option E × ApplyCall → ℕ
  | (none, _) => 0
  | (some _, call) =>
    if call.outcome = .invalidSpec then 0
    else (if call.endsBefore then 1 else 0) + if call.endsAfter then 1 else 0

/-- How often the ability is ended during an activation. -/
def activationEndCount (c : AbilityClass E) (a : ActivationScript) : ℕ :=
  (if a.superEnds then 1 else 0) +
    (((entries c.ongoingEffectsToApplyOnStart a.start).map entryEndCount).sum +
      if c.instancingPolicy.isInstantiated then
        ((entries c.ongoingEffectsToRemoveOnEnd a.remove).map entryEndCount).sum
      else 0)

/-- An instance is not activated again while it is running. -/
def refuses (c : AbilityClass E) (running : ℕ) : Bool :=
  c.instancingPolicy.isInstantiated && decide (0 < running)

/-- What an event does to the shared store. -/
def eventOps (c : ι → AbilityClass E) (running : ι → ℕ) :
    ComponentEvent ι E → List (OwnerOp ι E)
  | .activate i a => if refuses (c i) (running i) then [] else activationOps (c i) i a
  | .endAbility i => endOps (c i) i
  | .applied effect outcome => applyOps none effect outcome
  | .removed kept => [.sweep kept]

variable [DecidableEq ι]

/-- How often each ability is running after an event. -/
def runningAfter (c : ι → AbilityClass E) (running : ι → ℕ) : ComponentEvent ι E → ι → ℕ
  | .activate i a =>
    if refuses (c i) (running i) then running
    else Function.update running i (running i + 1 - activationEndCount (c i) a)
  | .endAbility i => Function.update running i (running i - 1)
  | .applied _ _ => running
  | .removed _ => running

/-- One event, on the ledger. -/
def ledgerStep (c : ι → AbilityClass E) (l : EffectLedger ι E) (e : ComponentEvent ι E) :
    EffectLedger ι E :=
  ⟨run Bag.step l.bag (eventOps c l.running e), runningAfter c l.running e⟩

end Operations

/-- The ledger of a component. -/
def SharedComponent.ledger [Fintype ι] [DecidableEq ι] (s : SharedComponent ι E) :
    EffectLedger ι E :=
  ⟨s.holdings.bag, s.running⟩

/-! ## The operations of one ability -/

section OneAbility

variable [DecidableEq ι] {c : AbilityClass E}

/-- The shared store, with one ability apart. -/
def placed (held : ι → List ℕ) (i : ι) (b : BaseState E) : Holdings ι E :=
  ⟨b.asc, Function.update held i b.ability.removeOnEndEffectsHandle⟩

variable (held : ι → List ℕ) (i : ι) (b : BaseState E)

/-- `EndAbility` on the instance is its operations on the handles. -/
theorem placed_endAbility :
    placed held i (endAbility c b) = run Holdings.step (placed held i b) (endOps c i) := by
  unfold endOps
  by_cases hc : c.instancingPolicy.isInstantiated = true
  · rw [if_pos hc]
    simp only [placed, run_cons, run_nil, Holdings.step, endAbility_asc hc,
      endAbility_handles hc, Function.update_self, Function.update_idem]
  · rw [if_neg hc]
    simp only [endAbility, hc, Bool.false_eq_true, if_false]
    rfl

/-- An end that may or may not happen is its operations on the handles. -/
theorem placed_endAbility_ite (ends : Bool) :
    placed held i (if ends then endAbility c b else b) =
      run Holdings.step (placed held i b) (if ends then endOps c i else []) := by
  cases ends with
  | false => rfl
  | true => exact placed_endAbility held i b

variable {b}

omit [DecidableEq ι] in
/-- An end of the ability and an application commute. -/
theorem endAbility_apply (hold : ∀ h ∈ b.ability.removeOnEndEffectsHandle, h < b.asc.nextHandle)
    (effect : E) (outcome : ApplyOutcome) :
    endAbility c { b with asc := (b.asc.applyGameplayEffectSpecToSelf effect outcome).2 } =
      { endAbility c b with
        asc := ((endAbility c b).asc.applyGameplayEffectSpecToSelf effect outcome).2 } := by
  by_cases hc : c.instancingPolicy.isInstantiated = true
  · unfold endAbility AbilitySystem.applyGameplayEffectSpecToSelf
    simp only [hc, if_true]
    by_cases hsucc : outcome.wasSuccessfullyApplied = true
    · simp only [hsucc, if_true]
      congr 1
      exact HandleStore.removeAll_issue b.asc _ effect hold
    · simp only [hsucc]
      rfl
  · unfold endAbility
    simp only [hc, Bool.false_eq_true, if_false]

/-- An application is its ends, and then a new value for nobody. -/
theorem applySpec_snd (hold : ∀ h ∈ b.ability.removeOnEndEffectsHandle, h < b.asc.nextHandle)
    (effect : E) (call : ApplyCall) :
    ∃ e : BaseState E,
      placed held i e = run Holdings.step (placed held i b) (callOps c i call) ∧
      e.asc.nextHandle = b.asc.nextHandle ∧
      (applySpec c effect call b).2 =
        { e with asc := (e.asc.applyGameplayEffectSpecToSelf effect call.outcome).2 } := by
  have hmid : ∀ h ∈
      (if call.endsBefore then endAbility c b else b).ability.removeOnEndEffectsHandle,
      h < (if call.endsBefore then endAbility c b else b).asc.nextHandle := by
    cases call.endsBefore with
    | false => exact hold
    | true =>
      intro h hh
      simp only [if_true, endAbility_nextHandle] at hh ⊢
      by_cases hc : c.instancingPolicy.isInstantiated = true
      · rw [endAbility_handles hc] at hh
        exact absurd hh List.not_mem_nil
      · simp only [endAbility, hc, Bool.false_eq_true, if_false] at hh
        exact hold h hh
  have hplaced := placed_endAbility_ite (c := c) held i b call.endsBefore
  have hnext : (if call.endsBefore then endAbility c b else b).asc.nextHandle =
      b.asc.nextHandle := by
    split
    · exact endAbility_nextHandle b c
    · rfl
  unfold applySpec
  simp only []
  generalize (if call.endsBefore then endAbility c b else b) = m at hmid hplaced hnext
  refine ⟨if call.endsAfter then endAbility c m else m, ?_, ?_, ?_⟩
  · rw [placed_endAbility_ite, hplaced, callOps, run_append]
  · split
    · rw [endAbility_nextHandle, hnext]
    · exact hnext
  · cases call.endsAfter with
    | false => rfl
    | true => exact endAbility_apply hmid effect call.outcome

/-- A new value, stored by the ability or not. -/
theorem placed_apply (keep : Bool) (effect : E) (outcome : ApplyOutcome) :
    placed held i (if keep then
        addHandle (b.asc.applyGameplayEffectSpecToSelf effect outcome).1
          { b with asc := (b.asc.applyGameplayEffectSpecToSelf effect outcome).2 }
      else { b with asc := (b.asc.applyGameplayEffectSpecToSelf effect outcome).2 }) =
      run Holdings.step (placed held i b)
        (applyOps (if keep then some i else none) effect outcome) := by
  unfold AbilitySystem.applyGameplayEffectSpecToSelf applyOps
  by_cases hsucc : outcome.wasSuccessfullyApplied = true
  · cases keep with
    | false =>
      simp only [hsucc, if_true, Bool.false_eq_true, if_false]
      rfl
    | true =>
      simp only [hsucc, if_true, addHandle, placed, run_cons, run_nil, Holdings.step,
        Function.update_self, Function.update_idem]
  · cases keep with
    | false =>
      simp only [hsucc, Bool.false_eq_true, if_false]
      rfl
    | true =>
      simp only [hsucc, Bool.false_eq_true, if_false, if_true]
      rfl

variable {held i}

/-- Applying one entry is its operations on the handles. -/
theorem placed_applyEffect (h : (placed held i b).Separate) (keep : Bool)
    (entry : Option E × ApplyCall) :
    placed held i (applyEffect c keep b entry) =
      run Holdings.step (placed held i b) (entryOps c i keep entry) := by
  obtain ⟨effect, call⟩ := entry
  cases effect with
  | none => rfl
  | some effect =>
    by_cases hspec : call.outcome = .invalidSpec
    · simp only [applyEffect, entryOps, hspec, if_true]
      rfl
    · have hold : ∀ n ∈ b.ability.removeOnEndEffectsHandle, n < b.asc.nextHandle := by
        intro n hn
        apply h.issued i n
        simpa only [placed, Function.update_self] using hn
      obtain ⟨e, hplaced, hnext, hsnd⟩ := applySpec_snd (c := c) held i hold effect call
      have hfst : (applySpec c effect call b).1 =
          (e.asc.applyGameplayEffectSpecToSelf effect call.outcome).1 := by
        rw [applySpec_fst, apply_fst, hnext]
      have happly := placed_apply held i (b := e) keep effect call.outcome
      simp only [applyEffect, entryOps, hspec, if_false]
      rw [hfst, hsnd, run_append, ← hplaced, ← happly]

/-- Applying a list is the operations of its entries on the handles. -/
theorem placed_foldl (h : (placed held i b).Separate) (keep : Bool)
    (l : List (Option E × ApplyCall)) :
    placed held i (l.foldl (applyEffect c keep) b) =
      run Holdings.step (placed held i b) (l.flatMap (entryOps c i keep)) := by
  induction l generalizing b with
  | nil => rfl
  | cons entry l ih =>
    have hentry := placed_applyEffect (c := c) h keep entry
    have hsep : (placed held i (applyEffect c keep b entry)).Separate := by
      rw [hentry]
      exact h.run _
    rw [List.foldl_cons, List.flatMap_cons, run_append, ih hsep, hentry]

/-- An activation that is entered, with the ends from inside it. -/
theorem placed_activateAbility (h : (placed held i b).Separate) (a : ActivationScript) :
    placed held i (activateAbility c a b) =
      run Holdings.step (placed held i b) (activationOps c i a) := by
  have hsuper := placed_endAbility_ite (c := c) held i b a.superEnds
  have hsep : (placed held i (if a.superEnds then endAbility c b else b)).Separate := by
    rw [hsuper]
    exact h.run _
  unfold activateAbility activationOps
  simp only []
  generalize (if a.superEnds then endAbility c b else b) = m at hsuper hsep
  have hstart := placed_foldl (c := c) hsep false (entries c.ongoingEffectsToApplyOnStart a.start)
  rw [run_append, run_append, ← hsuper, ← hstart]
  by_cases hc : c.instancingPolicy.isInstantiated = true
  · rw [if_pos hc, if_pos hc]
    apply placed_foldl
    rw [hstart]
    exact hsep.run _
  · rw [if_neg hc, if_neg hc]
    rfl

omit [DecidableEq ι] in
/-- One entry ends as many activations as it has ends. -/
theorem applyEffect_activeCount_sub (keep : Bool) (b : BaseState E)
    (entry : Option E × ApplyCall) :
    (applyEffect c keep b entry).ability.activeCount =
      b.ability.activeCount - entryEndCount entry := by
  obtain ⟨effect, call⟩ := entry
  cases effect with
  | none => rfl
  | some effect =>
    by_cases hspec : call.outcome = .invalidSpec
    · simp [applyEffect, entryEndCount, hspec]
    · have hcount : (applySpec c effect call b).2.ability.activeCount =
          b.ability.activeCount -
            ((if call.endsBefore then 1 else 0) + if call.endsAfter then 1 else 0) := by
        cases hb : call.endsBefore <;> cases ha : call.endsAfter <;> simp [applySpec, hb, ha]
        omega
      cases keep <;> simp [applyEffect, entryEndCount, hspec, hcount]

omit [DecidableEq ι] in
/-- A list ends as many activations as its entries have ends. -/
theorem foldl_activeCount_sub (keep : Bool) (l : List (Option E × ApplyCall)) (b : BaseState E) :
    (l.foldl (applyEffect c keep) b).ability.activeCount =
      b.ability.activeCount - (l.map entryEndCount).sum := by
  induction l generalizing b with
  | nil => rfl
  | cons entry l ih =>
    rw [List.foldl_cons, ih, applyEffect_activeCount_sub, List.map_cons, List.sum_cons]
    omega

omit [DecidableEq ι] in
/-- `ActivateAbility` ends as many activations as its script has ends. -/
theorem activateAbility_activeCount_sub (a : ActivationScript) (b : BaseState E) :
    (activateAbility c a b).ability.activeCount =
      b.ability.activeCount - activationEndCount c a := by
  have hsuper : (if a.superEnds then endAbility c b else b).ability.activeCount =
      b.ability.activeCount - if a.superEnds then 1 else 0 := by
    split
    · exact endAbility_activeCount b c
    · rfl
  unfold activateAbility activationEndCount
  simp only []
  by_cases hc : c.instancingPolicy.isInstantiated = true
  · rw [if_pos hc, if_pos hc, foldl_activeCount_sub, foldl_activeCount_sub, hsuper]
    omega
  · rw [if_neg hc, if_neg hc, foldl_activeCount_sub, hsuper]
    omega

end OneAbility

/-! ## The refinement -/

section Refinement

variable [DecidableEq ι] {c : ι → AbilityClass E} {s : SharedComponent ι E}

/-- Putting back one instance places its handles. -/
theorem holdings_setBase (i : ι) (b : BaseState E) :
    (s.setBase i b).holdings = placed s.holdings.held i b := by
  unfold SharedComponent.holdings SharedComponent.setBase placed
  congr 1
  funext j
  by_cases hji : j = i
  · subst hji
    simp
  · simp [hji]

/-- Placing what an instance has changes nothing. -/
theorem placed_base (i : ι) : placed s.holdings.held i (s.base i) = s.holdings := by
  unfold placed SharedComponent.base SharedComponent.holdings
  simp

omit [DecidableEq ι] in
/-- An activation of a member: refused, or entered. -/
theorem activateInstance_base (i : ι) (a : ActivationScript) :
    activateInstance (c i) a (s.base i) =
      if refuses (c i) (s.running i) then s.base i
      else activateAbility (c i) a (preActivate (s.base i)) := rfl

/-- An event is a run of operations on the shared store. -/
theorem holdings_componentStep (h : s.holdings.Separate) (e : ComponentEvent ι E) :
    (componentStep c s e).holdings = run Holdings.step s.holdings (eventOps c s.running e) := by
  cases e with
  | activate i a =>
    simp only [componentStep, holdings_setBase, activateInstance_base, eventOps]
    split
    · exact placed_base i
    · have hpre : placed s.holdings.held i (preActivate (s.base i)) = s.holdings := placed_base i
      rw [placed_activateAbility (by rw [hpre]; exact h), hpre]
  | endAbility i =>
    simp only [componentStep, holdings_setBase, placed_endAbility, placed_base, eventOps]
  | applied effect outcome =>
    simp only [componentStep, AbilitySystem.applyGameplayEffectSpecToSelf, eventOps, applyOps]
    split <;> rfl
  | removed kept => rfl

/-- Putting back one instance changes only its own activations. -/
theorem running_setBase (i : ι) (b : BaseState E) :
    (s.setBase i b).running = Function.update s.running i b.ability.activeCount := by
  funext j
  unfold SharedComponent.running SharedComponent.setBase
  by_cases hji : j = i
  · subst hji
    simp
  · simp [hji]

/-- An event changes the numbers of activations as the ledger has it. -/
theorem running_componentStep (e : ComponentEvent ι E) :
    (componentStep c s e).running = runningAfter c s.running e := by
  cases e with
  | activate i a =>
    simp only [componentStep, running_setBase, activateInstance_base, runningAfter]
    split
    · exact Function.update_eq_self i s.running
    · rw [activateAbility_activeCount_sub]
      rfl
  | endAbility i =>
    simp only [componentStep, running_setBase, endAbility_activeCount, runningAfter]
    rfl
  | applied effect outcome => rfl
  | removed kept => rfl

/-- An event keeps the instances' handles separate. -/
theorem separate_componentStep (h : s.holdings.Separate) (e : ComponentEvent ι E) :
    (componentStep c s e).holdings.Separate := by
  rw [holdings_componentStep h]
  exact h.run _

variable [Fintype ι]

/-- One event of the component is that event of the ledger. -/
theorem ledger_componentStep (h : s.holdings.Separate) (e : ComponentEvent ι E) :
    (componentStep c s e).ledger = ledgerStep c s.ledger e := by
  have hbag : (componentStep c s e).holdings.bag =
      run Bag.step s.holdings.bag (eventOps c s.running e) := by
    rw [holdings_componentStep h, Holdings.bag_run h]
  exact EffectLedger.ext hbag (running_componentStep e)

/-- The ledger of a run is the run of the ledger. -/
theorem ledger_run (h : s.holdings.Separate) (es : List (ComponentEvent ι E)) :
    (run (componentStep c) s es).ledger = run (ledgerStep c) s.ledger es := by
  induction es generalizing s with
  | nil => rfl
  | cons e es ih =>
    rw [run_cons, run_cons, ih (separate_componentStep h e), ledger_componentStep h]

/-- What every event keeps on the ledger holds of the component throughout. -/
theorem always_ledger (P : EffectLedger ι E → Prop) (D : ComponentEvent ι E → Prop)
    (hstep : ∀ l e, D e → P l → P (ledgerStep c l e)) (h : s.holdings.Separate)
    (hP : P s.ledger) {es : List (ComponentEvent ι E)} (hes : ∀ e ∈ es, D e) :
    Always (componentStep c) (fun s => s.holdings.Separate ∧ P s.ledger) s es := by
  refine always_of_invariant_on
    (fun s : SharedComponent ι E => s.holdings.Separate ∧ P s.ledger) D ?_ ⟨h, hP⟩ hes
  rintro s e he ⟨hsep, hP⟩
  refine ⟨separate_componentStep hsep e, ?_⟩
  rw [ledger_componentStep hsep]
  exact hstep _ e he hP

omit [DecidableEq ι] [Fintype ι] in
/-- Abilities that were never activated hold nothing. -/
theorem separate_of_granted (h : s.Granted) : s.holdings.Separate := by
  have hnone : ∀ i, s.holdings.held i = [] := by
    intro i
    simp only [SharedComponent.holdings, h i]
    rfl
  refine ⟨fun i n hn => ?_, fun i j _ n hn => ?_⟩
  · rw [hnone i] at hn
    exact absurd hn List.not_mem_nil
  · rw [hnone i] at hn
    exact absurd hn List.not_mem_nil

end Refinement

/-- Two abilities, with the effects 1 and 2 while they run; the second one applies the effect
3 for good. -/
def twoAbilities : Bool → AbilityClass ℕ
  | true => ⟨.instancedPerActor, [some 1], []⟩
  | false => ⟨.instancedPerActor, [some 2], [some 3]⟩

/-- The two abilities on a new component. -/
def newComponent : SharedComponent Bool ℕ := ⟨HandleStore.empty, fun _ => .fresh⟩

/-- The first ability is ended while the second one is running, and the second one by its
own next activation. -/
def interleaved : List (ComponentEvent Bool ℕ) :=
  [.activate true (.quiet (fun _ => .added) fun _ => .added),
    .activate false (.quiet (fun _ => .added) fun _ => .added), .applied 4 .added,
    .endAbility true, .removed fun effect => effect != 4, .endAbility false,
    .activate false ⟨false, fun _ => .quiet .added, fun _ => ⟨true, .rejected, false⟩⟩]

end GasSamples.Analysis
