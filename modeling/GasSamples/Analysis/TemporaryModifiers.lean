import GasSamples.Analysis.AttributeBounds

/-!
# Clamping Health under temporary modifiers

The clamp reads the current value of Health and writes the base value.  Whatever the
temporary modifiers add is therefore added once more at every execution.
-/

set_option autoImplicit false

namespace GasSamples.Analysis

open Reactive GasSamples.Program GasSamples.Program.AttributeSetBase

variable {K : Type} [AddCommGroup K] [LinearOrder K]

/-- An executed modification of Health. -/
def healthStep (s : AttributeSetBase K) (d : K) : AttributeSetBase K :=
  executeStep s ⟨.health, d⟩

/-- The current Health after an execution is the clamped sum, and damage that leaves it
within the bounds does not raise it. -/
def ClampsCurrent (s : AttributeSetBase K) (d : K) : Prop :=
  (healthStep s d).getHealth = clamp (s.getHealth + d) 0 s.getMaxHealth ∧
    (d ≤ 0 → s.getHealth ≤ s.getMaxHealth → 0 ≤ s.getHealth + d →
      (healthStep s d).getHealth ≤ s.getHealth)

/-- What the temporary modifiers add to Health. -/
def healthModifiers (s : AttributeSetBase K) : K := (s.data .health).modifiers.sum

/-- An execution adds the modifiers to the clamped value. -/
theorem getHealth_healthStep (s : AttributeSetBase K) (d : K) :
    (healthStep s d).getHealth =
      clamp (s.getHealth + d) 0 s.getMaxHealth + healthModifiers s := by
  have hhealth : (s.setNumericAttributeBase .health ((s.data .health).baseValue + d)).getHealth =
      s.getHealth + d := by
    unfold getHealth
    rw [getNumericAttribute_set, if_pos rfl]
    unfold getNumericAttribute FGameplayAttributeData.currentValue
    exact add_right_comm _ _ _
  have hmax : (s.setNumericAttributeBase .health ((s.data .health).baseValue + d)).getMaxHealth =
      s.getMaxHealth := by
    unfold getMaxHealth
    rw [getNumericAttribute_set, if_neg (by decide)]
  unfold healthStep executeStep postGameplayEffectExecute
  rw [if_pos rfl]
  simp only [hhealth, hmax]
  unfold getHealth setHealth
  rw [getNumericAttribute_set, if_pos rfl, setNumericAttributeBase_data, Function.update_self]
  rfl

/-- An execution leaves the modifiers as they are. -/
theorem healthModifiers_healthStep (s : AttributeSetBase K) (d : K) :
    healthModifiers (healthStep s d) = healthModifiers s := by
  unfold healthModifiers healthStep executeStep
  rw [postGameplayEffectExecute_data, if_pos rfl]
  simp only [setHealth, setNumericAttributeBase_data, Function.update_self]

/-- Clamping changes nothing between the bounds. -/
theorem clamp_of_mem {x hi : K} (hlo : 0 ≤ x) (hhi : x ≤ hi) : clamp x 0 hi = x := by
  unfold clamp
  rw [min_eq_left hhi, max_eq_left hlo]

variable [IsOrderedAddMonoid K]

/-- One execution clamps the current value exactly if the modifiers add nothing. -/
theorem clampsCurrent_step_iff (s : AttributeSetBase K) (d : K) :
    ClampsCurrent s d ↔ healthModifiers s = 0 := by
  unfold ClampsCurrent
  rw [getHealth_healthStep]
  constructor
  · rintro ⟨hclamp, -⟩
    exact add_eq_left.mp hclamp
  · intro hzero
    rw [hzero, add_zero]
    refine ⟨rfl, fun hdamage hle hnonneg => ?_⟩
    have hless : s.getHealth + d ≤ s.getHealth := add_le_of_nonpos_right hdamage
    rw [clamp_of_mem hnonneg (hless.trans hle)]
    exact hless

/-- **Clamping keeps the temporary modifiers out of the base value exactly if they add
nothing.**  For every state of the attributes and every sequence of executed modifications
of Health: after each of them the current Health is the clamped sum of the Health before and
the modification, and no damage within the bounds raises it, if and only if the sequence is
empty or the sum of the temporary modifiers of Health is zero.
SOURCE: AG_AttributeSetBase.cpp:10-28, AG_AttributeSetBase.h:10-25 -/
theorem clampsCurrent_iff (s : AttributeSetBase K) (ds : List K) :
    EveryStep healthStep ClampsCurrent s ds ↔ ds = [] ∨ healthModifiers s = 0 := by
  induction ds generalizing s with
  | nil => simp
  | cons d ds ih =>
    rw [everyStep_cons, clampsCurrent_step_iff, ih, healthModifiers_healthStep]
    constructor
    · rintro ⟨hzero, -⟩
      exact Or.inr hzero
    · intro h
      have hzero := h.resolve_left (List.cons_ne_nil d ds)
      exact ⟨hzero, Or.inr hzero⟩

/-- The wounded character with temporary modifiers of its Health. -/
def strengthened (modifiers : List ℚ) : AttributeSetBase ℚ :=
  { woundedCharacter with
    data := Function.update woundedCharacter.data .health ⟨80, modifiers⟩ }

/-- Two modifiers that cancel each other stay out of the base value. -/
theorem clampsCurrent_cancelling :
    EveryStep healthStep ClampsCurrent (strengthened [20, -20]) [-30, 90, -400] :=
  (clampsCurrent_iff (strengthened [20, -20]) [-30, 90, -400]).mpr (Or.inr (by decide +kernel))

/-- Under a modifier of 10, damage of 5 raises the Health from 90 to 95. -/
theorem not_clampsCurrent_damage :
    ¬ EveryStep healthStep ClampsCurrent (strengthened [10]) [-5] := by
  rintro ⟨⟨-, hdamage⟩, -⟩
  exact absurd (hdamage (by decide +kernel) (by decide +kernel) (by decide +kernel))
    (by decide +kernel)

end GasSamples.Analysis
