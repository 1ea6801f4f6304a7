import GasSamples.Reactive.Run
import GasSamples.Program.AttributeSetBase
import Mathlib.Algebra.Order.Ring.Rat

/-!
# The bounds of the attributes

`PostGameplayEffectExecute` clamps Health when Health is written, and nothing else: not
Health when MaxHealth is written, and not Stamina at all.  What an execution keeps of the
bounds is therefore decided by the one attribute it writes.
-/

set_option autoImplicit false

namespace GasSamples.Analysis

open Reactive GasSamples.Program GasSamples.Program.AttributeSetBase

variable {K : Type} [AddCommGroup K] [LinearOrder K]

/-- Health and Stamina are between zero and their maxima. -/
def WithinBounds (s : AttributeSetBase K) : Prop :=
  (0 ≤ s.getHealth ∧ s.getHealth ≤ s.getMaxHealth) ∧
    (0 ≤ s.getStamina ∧ s.getStamina ≤ s.getMaxStamina)

instance (s : AttributeSetBase K) : Decidable (WithinBounds s) :=
  inferInstanceAs (Decidable ((_ ∧ _) ∧ (_ ∧ _)))

/-- No temporary modifier is active. -/
def NoModifiers (s : AttributeSetBase K) : Prop := ∀ attr, (s.data attr).modifiers = []

/-- A new maximum is not below the value it bounds, and a new Stamina is within its
bounds. -/
def WritesWithin (s : AttributeSetBase K) (e : ExecutedModification K) : Prop :=
  match e.attr with
  | .health => True
  | .maxHealth => s.getHealth ≤ s.getMaxHealth + e.magnitude
  | .stamina => 0 ≤ s.getStamina + e.magnitude ∧ s.getStamina + e.magnitude ≤ s.getMaxStamina
  | .maxStamina => s.getStamina ≤ s.getMaxStamina + e.magnitude
  | .movementSpeed => True

/-! ## One execution -/

section Execution

omit [LinearOrder K] in
/-- Without modifiers the current value is the base value. -/
theorem NoModifiers.getNumericAttribute {s : AttributeSetBase K} (h : NoModifiers s)
    (attr : GameplayAttribute) :
    s.getNumericAttribute attr = (s.data attr).baseValue := by
  simp [AttributeSetBase.getNumericAttribute, FGameplayAttributeData.currentValue, h attr]

omit [LinearOrder K] in
/-- Setting a base value changes the data of that attribute only. -/
theorem setNumericAttributeBase_data (s : AttributeSetBase K) (attr : GameplayAttribute)
    (value : K) :
    (s.setNumericAttributeBase attr value).data =
      Function.update s.data attr { s.data attr with baseValue := value } := by
  unfold setNumericAttributeBase
  split <;> rfl

omit [LinearOrder K] in
/-- Setting a base value adds no modifier. -/
theorem NoModifiers.set {s : AttributeSetBase K} (h : NoModifiers s)
    (attr : GameplayAttribute) (value : K) :
    NoModifiers (s.setNumericAttributeBase attr value) := by
  intro other
  rw [setNumericAttributeBase_data]
  by_cases ho : other = attr
  · rw [ho, Function.update_self]
    exact h attr
  · rw [Function.update_of_ne ho]
    exact h other

omit [LinearOrder K] in
/-- A write is read back with the modifiers on top, and leaves the other attributes alone. -/
theorem getNumericAttribute_set (s : AttributeSetBase K) (attr other : GameplayAttribute)
    (value : K) :
    (s.setNumericAttributeBase attr value).getNumericAttribute other =
      if other = attr then value + (s.data attr).modifiers.sum
      else s.getNumericAttribute other := by
  unfold getNumericAttribute FGameplayAttributeData.currentValue
  rw [setNumericAttributeBase_data]
  by_cases ho : other = attr
  · rw [if_pos ho, ho, Function.update_self]
  · rw [if_neg ho, Function.update_of_ne ho]

omit [LinearOrder K] in
/-- Without modifiers a write is read back, and leaves the other attributes alone. -/
theorem NoModifiers.get_set {s : AttributeSetBase K} (h : NoModifiers s)
    (attr other : GameplayAttribute) (value : K) :
    (s.setNumericAttributeBase attr value).getNumericAttribute other =
      if other = attr then value else s.getNumericAttribute other := by
  rw [getNumericAttribute_set, h attr, List.sum_nil, add_zero]

/-- The callback writes Health when Health was written, and no attribute otherwise. -/
theorem postGameplayEffectExecute_data (s : AttributeSetBase K) (attr : GameplayAttribute) :
    (s.postGameplayEffectExecute attr).data =
      if attr = .health then (s.setHealth (clamp s.getHealth 0 s.getMaxHealth)).data
      else s.data := by
  unfold postGameplayEffectExecute
  by_cases hh : attr = .health
  · rw [if_pos hh, if_pos hh]
  · rw [if_neg hh, if_neg hh]
    split
    · split <;> rfl
    · rfl

/-- An execution adds no modifier. -/
theorem noModifiers_execute {s : AttributeSetBase K} (h : NoModifiers s)
    (e : ExecutedModification K) : NoModifiers (executeStep s e) := by
  have hset := h.set e.attr ((s.data e.attr).baseValue + e.magnitude)
  unfold NoModifiers executeStep
  rw [postGameplayEffectExecute_data]
  split
  · exact hset.set .health _
  · exact hset

/-- The values after an execution: the attribute written has the new value, Health
clamped, and the others are as before. -/
theorem get_execute {s : AttributeSetBase K} (h : NoModifiers s) (e : ExecutedModification K)
    (other : GameplayAttribute) :
    (executeStep s e).getNumericAttribute other =
      if other = e.attr then
        if other = .health then clamp (s.getHealth + e.magnitude) 0 s.getMaxHealth
        else s.getNumericAttribute other + e.magnitude
      else s.getNumericAttribute other := by
  have hset := h.set e.attr ((s.data e.attr).baseValue + e.magnitude)
  have hget := fun other => h.get_set e.attr other
    ((s.data e.attr).baseValue + e.magnitude)
  have hbase := h.getNumericAttribute e.attr
  rw [(noModifiers_execute h e).getNumericAttribute]
  unfold executeStep
  rw [postGameplayEffectExecute_data]
  by_cases hh : e.attr = .health
  · -- the callback writes Health once more
    rw [if_pos hh]
    unfold setHealth getHealth getMaxHealth
    rw [← (hset.set .health _).getNumericAttribute, hset.get_set, hget, hget, ← hbase, hh]
    by_cases ho : other = .health
    · simp [ho]
    · simp [ho, h.get_set]
  · rw [if_neg hh, ← hset.getNumericAttribute, hget, ← hbase]
    by_cases ho : other = e.attr
    · simp [ho, hh]
    · simp [ho]

/-- A clamped number lies between its bounds. -/
theorem clamp_mem {x hi : K} (hhi : 0 ≤ hi) : 0 ≤ clamp x 0 hi ∧ clamp x 0 hi ≤ hi := by
  unfold clamp
  exact ⟨le_max_right _ _, max_le (min_le_right _ _) hhi⟩

/-- One execution, from a state within the bounds. -/
theorem withinBounds_step_iff {s : AttributeSetBase K} (h : NoModifiers s) (hs : WithinBounds s)
    (e : ExecutedModification K) : WithinBounds (executeStep s e) ↔ WritesWithin s e := by
  obtain ⟨⟨hhealth, hmax⟩, hstamina, hmaxStamina⟩ := hs
  have hclamp := clamp_mem (x := s.getHealth + e.magnitude) (hhealth.trans hmax)
  unfold WithinBounds WritesWithin
  simp only [getHealth, getMaxHealth, getStamina, getMaxStamina, get_execute h] at *
  cases e.attr with
  | health => simp [hclamp, hstamina, hmaxStamina]
  | maxHealth => simp [hhealth, hstamina, hmaxStamina]
  | stamina => simp [hhealth, hmax]
  | maxStamina => simp [hhealth, hmax, hstamina]
  | movementSpeed => simp [hhealth, hmax, hstamina, hmaxStamina]

end Execution

/-- **The bounds hold over a run exactly if the unclamped writes stay within them.**  For
every run of executed modifications of any of the five attributes by any amounts, from
values within the bounds and without temporary modifiers: after every execution and its
callback Health and Stamina are between zero and their maxima, if and only if no
execution puts MaxHealth below Health, Stamina out of its bounds or MaxStamina below
Stamina.
SOURCE: AG_AttributeSetBase.cpp:10-28, AG_AttributeSetBase.h:23-45 -/
theorem withinBounds_iff (s : AttributeSetBase K) (hmodifiers : NoModifiers s)
    (hbounds : WithinBounds s) (es : List (ExecutedModification K)) :
    Always executeStep WithinBounds s es ↔ EveryStep executeStep WritesWithin s es :=
  always_iff_everyStep NoModifiers (fun _ e h hs => withinBounds_step_iff h hs e)
    (fun _ e h _ _ => noModifiers_execute h e) hmodifiers hbounds es

/-- A character with 80 of 100 Health and 50 of 100 Stamina. -/
def woundedCharacter : AttributeSetBase ℚ where
  data
    | .health => ⟨80, []⟩
    | .maxHealth => ⟨100, []⟩
    | .stamina => ⟨50, []⟩
    | .maxStamina => ⟨100, []⟩
    | .movementSpeed => ⟨500, []⟩
  ownerIsCharacter := true
  maxWalkSpeed := 500

/-- The wounded character has no modifiers. -/
theorem noModifiers_woundedCharacter : NoModifiers woundedCharacter := by
  intro attr
  cases attr <;> rfl

/-- The wounded character is within the bounds. -/
theorem withinBounds_woundedCharacter : WithinBounds woundedCharacter := by
  decide +kernel

/-- Damage and healing beyond the bounds, and a dash that the Stamina allows. -/
theorem withinBounds_damageAndDash :
    Always executeStep WithinBounds woundedCharacter
      [⟨.health, -200⟩, ⟨.health, 500⟩, ⟨.stamina, -30⟩, ⟨.movementSpeed, 250⟩] := by
  refine (withinBounds_iff woundedCharacter noModifiers_woundedCharacter
    withinBounds_woundedCharacter _).mpr ?_
  exact ⟨trivial, trivial, ⟨by decide +kernel, by decide +kernel⟩, trivial, trivial⟩

/-- A dash that costs more Stamina than there is. -/
theorem not_withinBounds_dash :
    ¬ Always executeStep WithinBounds woundedCharacter [⟨.stamina, -80⟩] := by
  intro h
  exact absurd h.last.2.1 (by decide +kernel)

end GasSamples.Analysis
