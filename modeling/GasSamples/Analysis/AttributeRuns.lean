import GasSamples.Analysis.TemporaryModifiers
import GasSamples.Reactive.CappedWalk

/-!
# Runs of the attributes

Executions and temporary modifiers of all attributes, in any order. The base value of
Health is a stock under a cap: an execution changes it by its magnitude and, since the
clamp reads the current value, by what the modifiers of Health add, and MaxHealth is the
cap. So a run of executions never finds Health used up exactly if no stretch of them takes
too much, whatever else happens in between.
-/

set_option autoImplicit false

namespace GasSamples.Analysis

open Reactive GasSamples.Program GasSamples.Program.AttributeSetBase

variable {K : Type} [AddCommGroup K] [LinearOrder K]

/-! ## One event -/

/-- The base value that an execution leaves: only Health is clamped, at its current value. -/
def executedBase (s : AttributeSetBase K) (e : ExecutedModification K) : K :=
  if e.attr = .health then clamp (s.getHealth + e.magnitude) 0 s.getMaxHealth
  else (s.data e.attr).baseValue + e.magnitude

/-- An execution changes the base value of its attribute and no other data. -/
theorem executeStep_data (s : AttributeSetBase K) (e : ExecutedModification K) :
    (executeStep s e).data =
      Function.update s.data e.attr { s.data e.attr with baseValue := executedBase s e } := by
  unfold executeStep executedBase
  rw [postGameplayEffectExecute_data]
  by_cases hh : e.attr = .health
  · have hhealth : (s.setNumericAttributeBase e.attr
        ((s.data e.attr).baseValue + e.magnitude)).getHealth = s.getHealth + e.magnitude := by
      unfold getHealth
      rw [getNumericAttribute_set, if_pos hh.symm, hh]
      exact add_right_comm _ _ _
    have hmax : (s.setNumericAttributeBase e.attr
        ((s.data e.attr).baseValue + e.magnitude)).getMaxHealth = s.getMaxHealth := by
      unfold getMaxHealth
      rw [getNumericAttribute_set, if_neg (by simp [hh])]
    rw [if_pos hh, if_pos hh, hhealth, hmax]
    unfold setHealth
    rw [setNumericAttributeBase_data, setNumericAttributeBase_data, hh, Function.update_idem,
      Function.update_self]
  · rw [if_neg hh, if_neg hh, setNumericAttributeBase_data]

omit [LinearOrder K] in
/-- Setting the base value of the movement speed sets the walk speed to the new current value.
-/
theorem setNumericAttributeBase_maxWalkSpeed (s : AttributeSetBase K)
    (attr : GameplayAttribute) (value : K) :
    (s.setNumericAttributeBase attr value).maxWalkSpeed =
      if attr = .movementSpeed then value + (s.data attr).modifiers.sum else s.maxWalkSpeed := by
  unfold setNumericAttributeBase
  split
  · next hattr =>
    subst hattr
    show (Function.update s.data _ _ _).currentValue = _
    rw [Function.update_self]
    rfl
  · rfl

/-- The delegate has written the new speed before the callback writes it once more. -/
theorem executeStep_maxWalkSpeed (s : AttributeSetBase K) (e : ExecutedModification K) :
    (executeStep s e).maxWalkSpeed =
      if e.attr = .movementSpeed then s.getMovementSpeed + e.magnitude else s.maxWalkSpeed := by
  obtain ⟨attr, magnitude⟩ := e
  cases attr with
  | movementSpeed =>
    have hspeed : (s.data .movementSpeed).baseValue + magnitude +
        (s.data .movementSpeed).modifiers.sum = s.getMovementSpeed + magnitude :=
      add_right_comm _ _ _
    unfold executeStep postGameplayEffectExecute
    simp only [reduceCtorEq, if_false, if_true]
    split
    · unfold getMovementSpeed
      rw [getNumericAttribute_set, if_pos rfl]
      exact hspeed
    · rw [setNumericAttributeBase_maxWalkSpeed, if_pos rfl]
      exact hspeed
  | health => rfl
  | maxHealth => rfl
  | stamina => rfl
  | maxStamina => rfl

omit [LinearOrder K] in
/-- New modifiers change the data of that attribute only. -/
theorem setModifiers_data (s : AttributeSetBase K) (attr : GameplayAttribute)
    (modifiers : List K) :
    (s.setModifiers attr modifiers).data =
      Function.update s.data attr { s.data attr with modifiers := modifiers } := by
  unfold setModifiers
  split <;> rfl

omit [LinearOrder K] in
/-- New modifiers of the movement speed set the walk speed to the new current value. -/
theorem setModifiers_maxWalkSpeed (s : AttributeSetBase K) (attr : GameplayAttribute)
    (modifiers : List K) :
    (s.setModifiers attr modifiers).maxWalkSpeed =
      if attr = .movementSpeed then (s.data attr).baseValue + modifiers.sum
      else s.maxWalkSpeed := by
  unfold setModifiers
  split
  · next hattr =>
    subst hattr
    show (Function.update s.data _ _ _).currentValue = _
    rw [Function.update_self]
    rfl
  · rfl

/-! ## More never hurts -/

/-- Neither the base value nor what the modifiers add to it is larger. -/
structure DataAtMost (d d' : FGameplayAttributeData K) : Prop where
  baseValue : d.baseValue ≤ d'.baseValue
  modifiers : d.modifiers.sum ≤ d'.modifiers.sum

/-- Of no attribute is the base value or what the modifiers add larger, and the character does
not walk faster. -/
structure AtMost (s t : AttributeSetBase K) : Prop where
  data : ∀ attr, DataAtMost (s.data attr) (t.data attr)
  maxWalkSpeed : s.maxWalkSpeed ≤ t.maxWalkSpeed

/-- The same happens to the same attribute, by no larger amounts. -/
inductive EventAtMost : AttributeEvent K → AttributeEvent K → Prop
  | execute (attr : GameplayAttribute) {d d' : K} (h : d ≤ d') :
      EventAtMost (.execute ⟨attr, d⟩) (.execute ⟨attr, d'⟩)
  | modifiers (attr : GameplayAttribute) {ms ms' : List K} (h : ms.sum ≤ ms'.sum) :
      EventAtMost (.modifiers attr ms) (.modifiers attr ms')

/-- A relation between the values at each place is kept by related writes at one place. -/
theorem update_related {α β γ : Type} [DecidableEq α] {R : α → β → γ → Prop} {f : α → β}
    {g : α → γ} (h : ∀ a, R a (f a) (g a)) {i : α} {x : β} {y : γ} (hxy : R i x y) (a : α) :
    R a (Function.update f i x a) (Function.update g i y a) := by
  by_cases ha : a = i
  · subst ha
    rwa [Function.update_self, Function.update_self]
  · rw [Function.update_of_ne ha, Function.update_of_ne ha]
    exact h a

omit [AddCommGroup K] in
/-- Clamping keeps the order, under a higher upper bound too. -/
theorem clamp_le_clamp {x x' lo hi hi' : K} (hx : x ≤ x') (hhi : hi ≤ hi') :
    clamp x lo hi ≤ clamp x' lo hi' :=
  max_le_max (min_le_min hx hhi) le_rfl

section Monotone

variable [IsOrderedAddMonoid K] {s t : AttributeSetBase K}

/-- Where no base value and no sum of modifiers is larger, no current value is. -/
theorem AtMost.getNumericAttribute (h : AtMost s t) (attr : GameplayAttribute) :
    s.getNumericAttribute attr ≤ t.getNumericAttribute attr :=
  add_le_add (h.data attr).baseValue (h.data attr).modifiers

/-- An execution of no more on attributes of no more stores no more. -/
theorem AtMost.executedBase (h : AtMost s t) (attr : GameplayAttribute) {d d' : K}
    (hd : d ≤ d') : executedBase s ⟨attr, d⟩ ≤ executedBase t ⟨attr, d'⟩ := by
  unfold Analysis.executedBase
  split
  · exact clamp_le_clamp (add_le_add (h.getNumericAttribute .health) hd)
      (h.getNumericAttribute .maxHealth)
  · exact add_le_add (h.data attr).baseValue hd

/-- One event keeps the order. -/
theorem AtMost.step (h : AtMost s t) {e f : AttributeEvent K} (he : EventAtMost e f) :
    AtMost (attributeStep s e) (attributeStep t f) := by
  cases he with
  | execute attr hd =>
    constructor
    · simp only [attributeStep, executeStep_data]
      exact update_related h.data ⟨h.executedBase attr hd, (h.data attr).modifiers⟩
    · simp only [attributeStep, executeStep_maxWalkSpeed]
      split
      · exact add_le_add (h.getNumericAttribute .movementSpeed) hd
      · exact h.maxWalkSpeed
  | modifiers attr hsum =>
    constructor
    · simp only [attributeStep, setModifiers_data]
      exact update_related h.data ⟨(h.data attr).baseValue, hsum⟩
    · simp only [attributeStep, setModifiers_maxWalkSpeed]
      split
      · exact add_le_add (h.data attr).baseValue hsum
      · exact h.maxWalkSpeed

/-- **More never hurts.**  Let one character have of each attribute no larger a base value and
no larger a sum of modifiers than another one, and walk no faster, and let the same
executions and changes of modifiers happen to both, to the first one by no larger amounts.
Then after any run of them the first one has no more of any attribute and walks no faster,
although every execution of Health is clamped and counts its modifiers once more.
SOURCE: AG_AttributeSetBase.cpp:10-28, GASCharacter.cpp:76, 114-117 -/
theorem moreNeverHurts (h : AtMost s t) {es fs : List (AttributeEvent K)}
    (hes : List.Forall₂ EventAtMost es fs) :
    (∀ attr, (run attributeStep s es).getNumericAttribute attr ≤
        (run attributeStep t fs).getNumericAttribute attr) ∧
      (run attributeStep s es).maxWalkSpeed ≤ (run attributeStep t fs).maxWalkSpeed := by
  have hrun : AtMost (run attributeStep s es) (run attributeStep t fs) :=
    List.rel_foldl (fun _ _ hs _ _ he => hs.step he) h hes
  exact ⟨hrun.getNumericAttribute, hrun.maxWalkSpeed⟩

end Monotone

/-- A character with a bonus on its Health, and one without that is hit harder, slowed down
instead of sped up, and gets less of a bonus on its MaxHealth. -/
theorem moreNeverHurts_strengthened :
    (run attributeStep woundedCharacter [.execute ⟨.health, -70⟩, .modifiers .maxHealth [50],
        .execute ⟨.movementSpeed, -100⟩, .execute ⟨.health, 500⟩]).getHealth ≤
      (run attributeStep (strengthened [20]) [.execute ⟨.health, -60⟩,
        .modifiers .maxHealth [20, 40], .execute ⟨.movementSpeed, 100⟩,
        .execute ⟨.health, 500⟩]).getHealth := by
  have hle : AtMost woundedCharacter (strengthened [20]) := by
    refine ⟨fun attr => ?_, by decide +kernel⟩
    cases attr <;> exact ⟨by decide +kernel, by decide +kernel⟩
  refine (moreNeverHurts hle ?_).1 .health
  exact .cons (.execute _ (by decide +kernel)) <| .cons (.modifiers _ (by decide +kernel)) <|
    .cons (.execute _ (by decide +kernel)) <| .cons (.execute _ le_rfl) .nil

/-! ## Health as a stock -/

/-- The base value of Health. -/
def baseHealth (s : AttributeSetBase K) : K := (s.data .health).baseValue

/-- An execution of Health asks for its magnitude and for what the modifiers of Health add. -/
def healthEntry (s : AttributeSetBase K) : AttributeEvent K → List (CappedStep K)
  | .execute e =>
    if e.attr = .health then [⟨s.getMaxHealth, e.magnitude + healthModifiers s⟩] else []
  | .modifiers _ _ => []

/-- What the engine writes at an event, without the callback. -/
def writeStep (s : AttributeSetBase K) : AttributeEvent K → AttributeSetBase K
  | .execute e => s.setNumericAttributeBase e.attr ((s.data e.attr).baseValue + e.magnitude)
  | .modifiers attr modifiers => s.setModifiers attr modifiers

/-- What the executions of Health ask for, under the MaxHealth and the modifiers that the
events themselves make. -/
def healthEntries (s : AttributeSetBase K) (es : List (AttributeEvent K)) :
    List (CappedStep K) := viewRun writeStep healthEntry s es

/-- An execution of Health finds more than it takes. -/
def LeavesHealth (s : AttributeSetBase K) : AttributeEvent K → Prop
  | .execute e => e.attr = .health → 0 < s.getHealth + e.magnitude
  | .modifiers _ _ => True

/-- The data of an attribute differ at most in the base value of Health. -/
structure SameData (attr : GameplayAttribute) (d d' : FGameplayAttributeData K) : Prop where
  modifiers : d.modifiers = d'.modifiers
  baseValue : attr ≠ .health → d.baseValue = d'.baseValue

/-- Nothing but the base value of Health differs. -/
def SameBesidesHealth (s t : AttributeSetBase K) : Prop :=
  ∀ attr, SameData attr (s.data attr) (t.data attr)

/-- The callback writes nothing that a later execution of Health asks for. -/
theorem SameBesidesHealth.step {s t : AttributeSetBase K} (h : SameBesidesHealth s t)
    (e : AttributeEvent K) : SameBesidesHealth (attributeStep s e) (writeStep t e) := by
  unfold SameBesidesHealth
  cases e with
  | execute e =>
    obtain ⟨attr, magnitude⟩ := e
    simp only [attributeStep, writeStep, executeStep_data, setNumericAttributeBase_data]
    refine update_related h ⟨(h attr).modifiers, fun hother => ?_⟩
    simp only [executedBase, if_neg hother, (h attr).baseValue hother]
  | modifiers attr modifiers =>
    simp only [attributeStep, writeStep, setModifiers_data]
    exact update_related h ⟨rfl, (h attr).baseValue⟩

omit [LinearOrder K] in
/-- Attributes that differ in the base value of Health only are asked for the same by an event.
-/
theorem SameBesidesHealth.healthEntry {s t : AttributeSetBase K} (h : SameBesidesHealth s t)
    (e : AttributeEvent K) : healthEntry s e = healthEntry t e := by
  have hmax : s.getMaxHealth = t.getMaxHealth := by
    unfold getMaxHealth AttributeSetBase.getNumericAttribute FGameplayAttributeData.currentValue
    rw [(h .maxHealth).modifiers, (h .maxHealth).baseValue (by decide)]
  have hmodifiers : healthModifiers s = healthModifiers t := congrArg List.sum (h .health).modifiers
  cases e with
  | execute e => simp only [Analysis.healthEntry, hmax, hmodifiers]
  | modifiers attr modifiers => rfl

/-- The entries are those of the run itself. -/
theorem viewRun_healthEntry (s : AttributeSetBase K) (es : List (AttributeEvent K)) :
    viewRun attributeStep healthEntry s es = healthEntries s es :=
  viewRun_related (R := SameBesidesHealth) (fun _ _ e h => h.step e)
    (fun _ _ e h => h.healthEntry e) (fun _ => ⟨rfl, fun _ => rfl⟩) es

omit [LinearOrder K] in
/-- The change that an execution asks for, counted from the base value. -/
theorem getHealth_add (s : AttributeSetBase K) (d : K) :
    s.getHealth + d = baseHealth s + (d + healthModifiers s) := by
  rw [add_comm d, ← add_assoc]
  rfl

/-- The base value of Health goes through the steps of the stock. -/
theorem baseHealth_step (s : AttributeSetBase K) (e : AttributeEvent K) :
    baseHealth (attributeStep s e) = run CappedStep.take (baseHealth s) (healthEntry s e) := by
  unfold baseHealth
  cases e with
  | execute e =>
    obtain ⟨attr, magnitude⟩ := e
    simp only [attributeStep, executeStep_data]
    by_cases hh : attr = .health
    · subst hh
      simp only [Function.update_self, executedBase, if_true, healthEntry, run_cons, run_nil,
        CappedStep.take, clamp, getHealth_add, baseHealth]
    · simp only [Function.update_of_ne (Ne.symm hh), healthEntry, if_neg hh, run_nil]
  | modifiers attr modifiers =>
    simp only [attributeStep, setModifiers_data, healthEntry, run_nil]
    by_cases hh : GameplayAttribute.health = attr
    · subst hh
      simp only [Function.update_self]
    · simp only [Function.update_of_ne hh]

variable [IsOrderedAddMonoid K]

omit [IsOrderedAddMonoid K] in
/-- An event leaves some of Health exactly if its entry in the walk leaves some of the base. -/
theorem leavesHealth_iff (s : AttributeSetBase K) (e : AttributeEvent K) :
    LeavesHealth s e ↔
      EveryStep CappedStep.take CappedStep.Leaves (baseHealth s) (healthEntry s e) := by
  cases e with
  | execute e =>
    by_cases hh : e.attr = .health
    · simp only [LeavesHealth, healthEntry, hh, forall_const, if_true, everyStep_cons,
        everyStep_nil, and_true, CappedStep.Leaves, getHealth_add]
    · simp only [LeavesHealth, healthEntry, hh, false_implies, if_false, everyStep_nil]
  | modifiers attr modifiers => exact Iff.rfl

/-- **When Health is used up.**  For every run of executions on any attributes and of
additive modifiers that come and go, with MaxHealth not negative at the executions of Health: every
execution of Health finds more than it takes, if and only if no stretch of them from the start
asks for the base value of Health, and none after an execution of Health asks for the
MaxHealth at that execution.  An execution asks for its magnitude and, since the clamp writes
the current value to the base value, for what the modifiers of Health add at the time.  Then
the base value at the end is the least of what these stretches leave.
SOURCE: AG_AttributeSetBase.cpp:10-28, AG_AttributeSetBase.h:10-45 -/
theorem healthLasts_iff (s : AttributeSetBase K) (es : List (AttributeEvent K))
    (hmax : ∀ p ∈ healthEntries s es, 0 ≤ p.cap) :
    (EveryStep attributeStep LeavesHealth s es ↔
        CappedStep.Covers (baseHealth s) (healthEntries s es) ∧
          CappedStep.CapsCover (healthEntries s es)) ∧
      (EveryStep attributeStep LeavesHealth s es → ∀ y,
        y ≤ baseHealth (run attributeStep s es) ↔
          y ≤ baseHealth s + CappedStep.total (healthEntries s es) ∧
            ∀ p rest, p :: rest <:+ healthEntries s es → y ≤ p.cap + CappedStep.total rest) := by
  have hlasts : EveryStep attributeStep LeavesHealth s es ↔
      EveryStep CappedStep.take CappedStep.Leaves (baseHealth s) (healthEntries s es) := by
    rw [← viewRun_healthEntry]
    exact everyStep_abs_iff (fun _ => True) (fun _ => True) (fun s e _ _ => baseHealth_step s e)
      (fun _ _ _ _ => trivial) (fun s e _ _ => leavesHealth_iff s e) trivial
      fun _ _ => trivial
  have hbase : baseHealth (run attributeStep s es) =
      run CappedStep.take (baseHealth s) (healthEntries s es) := by
    rw [← viewRun_healthEntry]
    exact abs_run (fun _ => True) (fun _ => True) (fun s e _ _ => baseHealth_step s e)
      (fun _ _ _ _ => trivial) trivial fun _ _ => trivial
  constructor
  · rw [hlasts]
    exact CappedStep.lasts_iff hmax
  · intro h y
    rw [hbase]
    exact CappedStep.le_run_iff hmax (hlasts.mp h)

/-- Under a bonus of 10 on 80 of Health, 30 damage asks for 20. The next 50 are asked for after
the bonus is gone, and leave 10: enough for 5 more, not for 20. -/
theorem healthLasts_strengthened :
    let hits := [.execute ⟨.health, -30⟩, .modifiers .health [], .execute ⟨.health, -50⟩]
    EveryStep attributeStep LeavesHealth (strengthened [10])
        (hits ++ [.execute ⟨.health, -5⟩]) ∧
      ¬ EveryStep attributeStep LeavesHealth (strengthened [10])
        (hits ++ [.execute ⟨.health, -20⟩]) := by
  intro hits
  have hfew : healthEntries (strengthened [10]) (hits ++ [.execute ⟨.health, -5⟩]) =
      [⟨100, -20⟩, ⟨100, -50⟩, ⟨100, -5⟩] := by decide +kernel
  have hmany : healthEntries (strengthened [10]) (hits ++ [.execute ⟨.health, -20⟩]) =
      [⟨100, -20⟩, ⟨100, -50⟩, ⟨100, -20⟩] := by decide +kernel
  have hbase : baseHealth (strengthened [10]) = 80 := by decide +kernel
  constructor
  · rw [(healthLasts_iff _ _ (by rw [hfew]; decide +kernel)).1, hfew, hbase]
    simp only [CappedStep.covers_cons, CappedStep.capsCover_cons, CappedStep.Leaves]
    refine ⟨⟨?_, ?_, ?_, CappedStep.covers_nil _⟩, ⟨?_, ?_, CappedStep.covers_nil _⟩,
      ⟨?_, CappedStep.covers_nil _⟩, CappedStep.covers_nil _, CappedStep.capsCover_nil⟩ <;>
      decide +kernel
  · rw [(healthLasts_iff _ _ (by rw [hmany]; decide +kernel)).1, hmany, hbase]
    simp only [CappedStep.covers_cons, CappedStep.Leaves]
    rintro ⟨⟨-, -, hlast, -⟩, -⟩
    exact absurd hlast (by decide +kernel)

end GasSamples.Analysis
