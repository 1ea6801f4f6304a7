import GasSamples.Program.BaseGameplayAbility

/-!
# What the base ability does to the active effects

One lemma per function of `UAG_BaseGameplayAbility`, for callers that do not unfold it.

The first part holds for every script.  `Tracked` is the invariant that ties the handle
list to the component: an effect whose handle was ever stored is either no longer active
or still in `RemoveOnEndEffectsHandle`.  Every function keeps it, also when the ability
is ended in the middle of its activation.  `foldl_handles_ne_nil_iff` and
`foldl_activeCount` then say which handles an activation leaves behind, and whether it
leaves the ability active, from the script alone.

`activateAbility_nextHandle` and `activateAbility_handles` name the handles themselves: an
activation takes consecutive ones, first for the one list and then for the other, and
stores the latter.

The last part is about quiet activations: `Appends` lists what a loop adds to the
component and to the handle list.
-/

set_option autoImplicit false

namespace GasSamples.Analysis

open Reactive GasSamples.Model GasSamples.Program GasSamples.Program.BaseGameplayAbility

variable {E : Type}

/-! ## `EndAbility` -/

section EndAbility

variable {c : AbilityClass E} (hc : c.instancingPolicy.isInstantiated = true) (s : BaseState E)

/-- `EndAbility` ends one activation. -/
@[simp] theorem endAbility_activeCount (c : AbilityClass E) :
    (endAbility c s).ability.activeCount = s.ability.activeCount - 1 := by
  unfold endAbility
  split <;> rfl

/-- `EndAbility` obtains no handle. -/
@[simp] theorem endAbility_obtained (c : AbilityClass E) :
    (endAbility c s).ability.obtained = s.ability.obtained := by
  unfold endAbility
  split <;> rfl

/-- `EndAbility` uses up no handle. -/
@[simp] theorem endAbility_nextHandle (c : AbilityClass E) :
    (endAbility c s).asc.nextHandle = s.asc.nextHandle := by
  unfold endAbility
  split
  · exact HandleStore.removeAll_nextHandle s.asc _
  · rfl

include hc in
/-- `EndAbility` removes the effects under the stored handles. -/
theorem endAbility_asc :
    (endAbility c s).asc = s.asc.removeAll s.ability.removeOnEndEffectsHandle := by
  simp only [endAbility, hc, if_true]
  rfl

include hc in
/-- No handle is stored after `EndAbility`. -/
theorem endAbility_handles : (endAbility c s).ability.removeOnEndEffectsHandle = [] := by
  simp only [endAbility, hc, if_true]

end EndAbility

/-! ## Applications -/

section Applications

variable (asc : AbilitySystem E) (effect : E) (outcome : ApplyOutcome)

/-- A successful application returns the next handle. -/
theorem apply_fst : (asc.applyGameplayEffectSpecToSelf effect outcome).1 =
    if outcome.wasSuccessfullyApplied then some asc.nextHandle else none := by
  unfold AbilitySystem.applyGameplayEffectSpecToSelf
  split <;> rfl

/-- An application adds at most one effect, at the end and under the next handle. -/
theorem apply_live : (asc.applyGameplayEffectSpecToSelf effect outcome).2.live =
    asc.live ++ if outcome = .added then [(asc.nextHandle, effect)] else [] := by
  cases outcome <;>
    simp [AbilitySystem.applyGameplayEffectSpecToSelf, ApplyOutcome.wasSuccessfullyApplied]

/-- An application uses up one handle if it is successful. -/
theorem apply_nextHandle : (asc.applyGameplayEffectSpecToSelf effect outcome).2.nextHandle =
    asc.nextHandle + if outcome.wasSuccessfullyApplied then 1 else 0 := by
  unfold AbilitySystem.applyGameplayEffectSpecToSelf
  split <;> simp

/-- What is active after an application was active before or has been added by it. -/
theorem isLive_apply {h : ℕ} :
    (asc.applyGameplayEffectSpecToSelf effect outcome).2.IsLive h ↔
      asc.IsLive h ∨ (outcome = .added ∧ h = asc.nextHandle) := by
  simp only [HandleStore.IsLive, apply_live, List.map_append, List.mem_append]
  split <;> simp_all

/-- Storing a handle leaves the component as it is. -/
@[simp] theorem addHandle_asc (handle : Option ℕ) (s : BaseState E) :
    (addHandle handle s).asc = s.asc := by
  cases handle <;> rfl

/-- Storing a handle starts and ends nothing. -/
@[simp] theorem addHandle_activeCount (handle : Option ℕ) (s : BaseState E) :
    (addHandle handle s).ability.activeCount = s.ability.activeCount := by
  cases handle <;> rfl

/-- Storing a handle puts it behind those stored before. -/
@[simp] theorem addHandle_handles (handle : Option ℕ) (s : BaseState E) :
    (addHandle handle s).ability.removeOnEndEffectsHandle =
      s.ability.removeOnEndEffectsHandle ++ handle.toList := by
  cases handle <;> simp [addHandle]

/-- Which handle is returned does not depend on whether the ability is ended meanwhile. -/
theorem applySpec_fst (c : AbilityClass E) (call : ApplyCall) (s : BaseState E) :
    (applySpec c effect call s).1 =
      if call.outcome.wasSuccessfullyApplied then some s.asc.nextHandle else none := by
  cases hb : call.endsBefore <;> simp [applySpec, hb, apply_fst]

/-- An application uses up one handle if it is successful, and an end from inside it none. -/
theorem applySpec_nextHandle (c : AbilityClass E) (call : ApplyCall) (s : BaseState E) :
    (applySpec c effect call s).2.asc.nextHandle =
      s.asc.nextHandle + if call.outcome.wasSuccessfullyApplied then 1 else 0 := by
  cases hb : call.endsBefore <;> cases ha : call.endsAfter <;>
    simp [applySpec, hb, ha, apply_nextHandle]

end Applications

/-! ## Tracking the stored handles -/

/-- Every handle the ability ever stored was issued, and if its effect is still active
the handle is still stored. -/
structure Tracked (s : BaseState E) : Prop where
  issued : ∀ h ∈ s.ability.obtained, h < s.asc.nextHandle
  stored : ∀ h ∈ s.ability.obtained, s.asc.IsLive h → h ∈ s.ability.removeOnEndEffectsHandle

section Tracked

variable {c : AbilityClass E} (hc : c.instancingPolicy.isInstantiated = true)
variable {s : BaseState E}

/-- The start of an activation keeps the ability tracked. -/
theorem Tracked.preActivate (h : Tracked s) : Tracked (preActivate s) := ⟨h.issued, h.stored⟩

include hc in
/-- Ending the ability removes every effect whose handle was stored. -/
theorem Tracked.endAbility (h : Tracked s) :
    Tracked (BaseGameplayAbility.endAbility c s) where
  issued n hn := by
    rw [endAbility_nextHandle]
    exact h.issued n (by simpa using hn)
  stored n hn hlive := by
    rw [endAbility_asc hc, HandleStore.isLive_removeAll] at hlive
    exact absurd (h.stored n (by simpa using hn) hlive.1) hlive.2

/-- Any change of the component that makes only fresh handles live keeps the tracking:
applications and removals by anybody. -/
theorem Tracked.of_asc (h : Tracked s) {asc : AbilitySystem E}
    (hnext : s.asc.nextHandle ≤ asc.nextHandle)
    (hlive : ∀ n, asc.IsLive n → s.asc.IsLive n ∨ s.asc.nextHandle ≤ n) :
    Tracked { s with asc := asc } where
  issued n hn := Nat.lt_of_lt_of_le (h.issued n hn) hnext
  stored n hn hl := by
    rcases hlive n hl with hold | hfresh
    · exact h.stored n hn hold
    · have := h.issued n hn
      omega

/-- An application by the component keeps the ability tracked. -/
theorem Tracked.apply (h : Tracked s) (effect : E) (outcome : ApplyOutcome) :
    Tracked { s with asc := (s.asc.applyGameplayEffectSpecToSelf effect outcome).2 } := by
  apply h.of_asc
  · rw [apply_nextHandle]
    omega
  · intro n hn
    rcases (isLive_apply _ _ _).mp hn with hold | ⟨-, rfl⟩
    · exact Or.inl hold
    · exact Or.inr (Nat.le_refl _)

include hc in
/-- An application that may end the ability keeps it tracked. -/
theorem Tracked.applySpec (h : Tracked s) (effect : E) (call : ApplyCall) :
    Tracked (applySpec c effect call s).2 := by
  have hbefore : Tracked (if call.endsBefore then BaseGameplayAbility.endAbility c s else s) := by
    split
    · exact h.endAbility hc
    · exact h
  have hafter : ∀ b : BaseState E, Tracked b →
      Tracked (if call.endsAfter then BaseGameplayAbility.endAbility c b else b) := by
    intro b hb
    split
    · exact hb.endAbility hc
    · exact hb
  exact hafter _ (hbefore.apply effect call.outcome)

/-- The handle that `ApplyGameplayEffectSpecToSelf` returns was issued by then. -/
theorem applySpec_handle_lt {effect : E} {call : ApplyCall} {n : ℕ}
    (hn : (applySpec c effect call s).1 = some n) :
    n < (applySpec c effect call s).2.asc.nextHandle := by
  rw [applySpec_fst] at hn
  rw [applySpec_nextHandle]
  split at hn
  · rename_i hsucc
    have hlast : s.asc.nextHandle = n := Option.some.inj hn
    rw [if_pos hsucc]
    omega
  · simp at hn

/-- Storing a handle that has been issued keeps the ability tracked. -/
theorem Tracked.addHandle (h : Tracked s) {handle : Option ℕ}
    (hn : ∀ n, handle = some n → n < s.asc.nextHandle) : Tracked (addHandle handle s) := by
  cases handle with
  | none => exact h
  | some n =>
    constructor
    · intro m hm
      rcases List.mem_append.mp hm with hm | hm
      · exact h.issued m hm
      · rw [List.mem_singleton.mp hm]
        exact hn n rfl
    · intro m hm hlive
      apply List.mem_append.mpr
      rcases List.mem_append.mp hm with hm | hm
      · exact Or.inl (h.stored m hm hlive)
      · exact Or.inr hm

include hc in
/-- Applying one entry of the list keeps the ability tracked. -/
theorem Tracked.applyEffect (h : Tracked s) (keep : Bool) (entry : Option E × ApplyCall) :
    Tracked (applyEffect c keep s entry) := by
  obtain ⟨effect, call⟩ := entry
  cases effect with
  | none => exact h
  | some effect =>
    have hspec := h.applySpec hc effect call
    simp only [BaseGameplayAbility.applyEffect]
    split
    · exact h
    · split
      · exact hspec.addHandle fun n hn => applySpec_handle_lt hn
      · exact hspec

include hc in
/-- Applying a list keeps the ability tracked. -/
theorem Tracked.foldl (h : Tracked s) (keep : Bool) (l : List (Option E × ApplyCall)) :
    Tracked (l.foldl (BaseGameplayAbility.applyEffect c keep) s) := by
  induction l generalizing s with
  | nil => exact h
  | cons entry l ih => exact ih (h.applyEffect hc keep entry)

include hc in
/-- An activation keeps the tracking, wherever the ability is ended during it. -/
theorem Tracked.activateAbility (h : Tracked s) (a : ActivationScript) :
    Tracked (activateAbility c a s) := by
  have hsuper : Tracked (if a.superEnds then BaseGameplayAbility.endAbility c s else s) := by
    split
    · exact h.endAbility hc
    · exact h
  simp only [BaseGameplayAbility.activateAbility, hc, if_true]
  exact (hsuper.foldl hc false _).foldl hc true _

end Tracked

/-! ## What an activation leaves behind -/

/-- `EndAbility` is called while this entry of a list is processed. -/
def entryEnds (entry : Option E × ApplyCall) : Bool :=
  entry.1.isSome && decide (entry.2.outcome ≠ .invalidSpec) && entry.2.ends

/-- The application of this entry succeeds. -/
def entryObtains (entry : Option E × ApplyCall) : Bool :=
  entry.1.isSome && entry.2.outcome.wasSuccessfullyApplied

/-- Some application succeeds and returns after the last call of `EndAbility`. -/
def obtainsAfterEnd : List (Option E × ApplyCall) → Bool
  | [] => false
  | entry :: l => obtainsAfterEnd l || (entryObtains entry && !l.any entryEnds)

section Leftovers

variable {c : AbilityClass E} (hc : c.instancingPolicy.isInstantiated = true)

include hc in
/-- The handle list after `ApplyGameplayEffectSpecToSelf`: untouched, or emptied by a
call of `EndAbility` from inside it. -/
theorem applySpec_handles (effect : E) (call : ApplyCall) (s : BaseState E) :
    (applySpec c effect call s).2.ability.removeOnEndEffectsHandle =
      if call.ends then [] else s.ability.removeOnEndEffectsHandle := by
  cases hb : call.endsBefore <;> cases ha : call.endsAfter <;>
    simp [applySpec, ApplyCall.ends, hb, ha, endAbility_handles hc]

include hc in
/-- One entry of the second loop: afterwards a handle is stored exactly if this
application succeeded, or one was stored and the ability was not ended. -/
theorem applyEffect_handles_ne_nil_iff (s : BaseState E) (entry : Option E × ApplyCall) :
    (applyEffect c true s entry).ability.removeOnEndEffectsHandle ≠ [] ↔
      entryObtains entry = true ∨
        (s.ability.removeOnEndEffectsHandle ≠ [] ∧ entryEnds entry = false) := by
  obtain ⟨effect, call⟩ := entry
  cases effect with
  | none => simp [applyEffect, entryObtains, entryEnds]
  | some effect =>
    by_cases hspec : call.outcome = .invalidSpec
    · simp [applyEffect, entryObtains, entryEnds, hspec, ApplyOutcome.wasSuccessfullyApplied]
    · have hfst : (applySpec c effect call s).1.isSome = call.outcome.wasSuccessfullyApplied := by
        rw [applySpec_fst]
        split <;> simp_all
      have hhandles := applySpec_handles hc effect call s
      simp only [applyEffect, if_true, entryObtains, entryEnds, Option.isSome_some,
        Bool.true_and, ne_eq, hspec, not_false_eq_true, decide_true]
      rw [← hfst]
      cases hh : (applySpec c effect call s).1 with
      | none =>
        cases he : call.ends <;> simp [addHandle, hhandles, he]
      | some h => simp [addHandle]

include hc in
/-- The handles that the second loop leaves. -/
theorem foldl_handles_ne_nil_iff (l : List (Option E × ApplyCall)) (s : BaseState E) :
    (l.foldl (applyEffect c true) s).ability.removeOnEndEffectsHandle ≠ [] ↔
      obtainsAfterEnd l = true ∨
        (s.ability.removeOnEndEffectsHandle ≠ [] ∧ l.any entryEnds = false) := by
  induction l generalizing s with
  | nil => simp [obtainsAfterEnd]
  | cons entry l ih =>
    simp only [List.foldl_cons, ih, applyEffect_handles_ne_nil_iff hc, obtainsAfterEnd,
      Bool.or_eq_true, Bool.and_eq_true, Bool.not_eq_true', List.any_cons, Bool.or_eq_false_iff]
    constructor
    · rintro (h | ⟨h | ⟨h, he⟩, hl⟩)
      · exact Or.inl (Or.inl h)
      · exact Or.inl (Or.inr ⟨h, hl⟩)
      · exact Or.inr ⟨h, he, hl⟩
    · rintro ((h | ⟨h, hl⟩) | ⟨h, he, hl⟩)
      · exact Or.inl h
      · exact Or.inr ⟨Or.inl h, hl⟩
      · exact Or.inr ⟨Or.inr ⟨h, he⟩, hl⟩

include hc in
/-- The first loop stores nothing. -/
theorem foldl_false_handles_eq_nil (l : List (Option E × ApplyCall)) (s : BaseState E)
    (hs : s.ability.removeOnEndEffectsHandle = []) :
    (l.foldl (applyEffect c false) s).ability.removeOnEndEffectsHandle = [] := by
  induction l generalizing s with
  | nil => exact hs
  | cons entry l ih =>
    apply ih _
    obtain ⟨effect, call⟩ := entry
    cases effect with
    | none => exact hs
    | some effect =>
      simp only [applyEffect, Bool.false_eq_true, if_false]
      split
      · exact hs
      · rw [applySpec_handles hc, hs]
        split <;> rfl

/-- An entry that ends the ability leaves it inactive; another changes nothing about that. -/
theorem applyEffect_activeCount (keep : Bool) (s : BaseState E) (entry : Option E × ApplyCall)
    (hs : s.ability.activeCount ≤ 1) :
    (applyEffect c keep s entry).ability.activeCount =
      if entryEnds entry then 0 else s.ability.activeCount := by
  obtain ⟨effect, call⟩ := entry
  cases effect with
  | none => simp [applyEffect, entryEnds]
  | some effect =>
    by_cases hspec : call.outcome = .invalidSpec
    · simp [applyEffect, entryEnds, hspec]
    · have hcount : (applySpec c effect call s).2.ability.activeCount =
          if call.ends then 0 else s.ability.activeCount := by
        cases hb : call.endsBefore <;> cases ha : call.endsAfter <;>
          simp [applySpec, ApplyCall.ends, hb, ha] <;> omega
      cases keep <;> simp [applyEffect, entryEnds, hspec, hcount]

/-- The ability is inactive after a list with an entry that ends it. -/
theorem foldl_activeCount (keep : Bool) (l : List (Option E × ApplyCall)) (s : BaseState E)
    (hs : s.ability.activeCount ≤ 1) :
    (l.foldl (applyEffect c keep) s).ability.activeCount =
      if l.any entryEnds then 0 else s.ability.activeCount := by
  induction l generalizing s with
  | nil => simp
  | cons entry l ih =>
    have hstep := applyEffect_activeCount (c := c) keep s entry hs
    have hle : (applyEffect c keep s entry).ability.activeCount ≤ 1 := by
      rw [hstep]
      split <;> omega
    rw [List.foldl_cons, ih _ hle, hstep, List.any_cons]
    cases entryEnds entry <;> cases l.any entryEnds <;> simp

end Leftovers

/-! ## Which handles an activation issues and stores -/

section Issued

variable {c : AbilityClass E}

/-- An entry whose application succeeds takes one handle, whatever ends meanwhile. -/
theorem applyEffect_nextHandle (keep : Bool) (s : BaseState E) (entry : Option E × ApplyCall) :
    (applyEffect c keep s entry).asc.nextHandle =
      s.asc.nextHandle + if entryObtains entry then 1 else 0 := by
  obtain ⟨effect, call⟩ := entry
  cases effect with
  | none => simp [applyEffect, entryObtains]
  | some effect =>
    by_cases hspec : call.outcome = .invalidSpec
    · simp [applyEffect, entryObtains, hspec, ApplyOutcome.wasSuccessfullyApplied]
    · cases keep <;> simp [applyEffect, entryObtains, hspec, applySpec_nextHandle]

/-- A list uses up one handle for each entry that is applied successfully. -/
theorem foldl_nextHandle (keep : Bool) (l : List (Option E × ApplyCall)) (s : BaseState E) :
    (l.foldl (applyEffect c keep) s).asc.nextHandle =
      s.asc.nextHandle + l.countP entryObtains := by
  induction l generalizing s with
  | nil => simp
  | cons entry l ih =>
    rw [List.foldl_cons, ih, applyEffect_nextHandle, List.countP_cons]
    omega

variable (hc : c.instancingPolicy.isInstantiated = true)

include hc in
/-- The handles are issued in the order of the lists. -/
theorem activateAbility_nextHandle (a : ActivationScript) (s : BaseState E) :
    (activateAbility c a s).asc.nextHandle = s.asc.nextHandle +
      ((entries c.ongoingEffectsToApplyOnStart a.start).countP entryObtains +
        (entries c.ongoingEffectsToRemoveOnEnd a.remove).countP entryObtains) := by
  have hsuper : (if a.superEnds then endAbility c s else s).asc.nextHandle =
      s.asc.nextHandle := by
    split
    · exact endAbility_nextHandle s c
    · rfl
  simp only [activateAbility, hc, if_true, foldl_nextHandle, hsuper, Nat.add_assoc]

include hc in
/-- One entry of the second loop, in which the ability is not ended. -/
theorem applyEffect_handles (s : BaseState E) {entry : Option E × ApplyCall}
    (hq : entryEnds entry = false) :
    (applyEffect c true s entry).ability.removeOnEndEffectsHandle =
      s.ability.removeOnEndEffectsHandle ++
        if entryObtains entry then [s.asc.nextHandle] else [] := by
  obtain ⟨effect, call⟩ := entry
  cases effect with
  | none => simp [applyEffect, entryObtains]
  | some effect =>
    by_cases hspec : call.outcome = .invalidSpec
    · simp [applyEffect, entryObtains, hspec, ApplyOutcome.wasSuccessfullyApplied]
    · have hends : call.ends = false := by
        simpa [entryEnds, hspec] using hq
      simp only [applyEffect, hspec, if_false, if_true, addHandle_handles,
        applySpec_handles hc, hends, Bool.false_eq_true, applySpec_fst, entryObtains,
        Option.isSome_some, Bool.true_and]
      split <;> rfl

include hc in
/-- The second loop stores the handles it takes, which follow one another. -/
theorem foldl_handles (l : List (Option E × ApplyCall)) (s : BaseState E)
    (hq : l.any entryEnds = false) :
    (l.foldl (applyEffect c true) s).ability.removeOnEndEffectsHandle =
      s.ability.removeOnEndEffectsHandle ++
        List.range' s.asc.nextHandle (l.countP entryObtains) := by
  induction l generalizing s with
  | nil => simp
  | cons entry l ih =>
    obtain ⟨hentry, hl⟩ := Bool.or_eq_false_iff.mp ((List.any_cons).symm.trans hq)
    rw [List.foldl_cons, ih _ hl, applyEffect_handles hc s hentry, applyEffect_nextHandle,
      List.countP_cons, List.append_assoc]
    congr 1
    split
    · rw [List.singleton_append, ← List.range'_succ]
    · rfl

include hc in
/-- What an activation stores that is entered with no handle stored and during which the
ability is not ended. -/
theorem activateAbility_handles (a : ActivationScript) (s : BaseState E)
    (hs : s.ability.removeOnEndEffectsHandle = []) (hsuper : a.superEnds = false)
    (hq : (entries c.ongoingEffectsToRemoveOnEnd a.remove).any entryEnds = false) :
    (activateAbility c a s).ability.removeOnEndEffectsHandle =
      List.range' (s.asc.nextHandle +
          (entries c.ongoingEffectsToApplyOnStart a.start).countP entryObtains)
        ((entries c.ongoingEffectsToRemoveOnEnd a.remove).countP entryObtains) := by
  simp only [activateAbility, hc, if_true, hsuper, Bool.false_eq_true, if_false]
  rw [foldl_handles hc _ _ hq, foldl_false_handles_eq_nil hc _ _ hs, foldl_nextHandle,
    List.nil_append]

end Issued

/-! ## Quiet activations -/

/-- This entry adds an active effect. -/
def entryAdds (entry : Option E × ApplyCall) : Bool :=
  entry.1.isSome && decide (entry.2.outcome = .added)

/-- The effect that this entry adds. -/
def addedEffect (entry : Option E × ApplyCall) : Option E :=
  if entry.2.outcome = .added then entry.1 else none

/-- An entry names no added effect exactly if it adds none. -/
theorem addedEffect_eq_none_iff (entry : Option E × ApplyCall) :
    addedEffect entry = none ↔ entryAdds entry = false := by
  unfold addedEffect entryAdds
  by_cases hout : entry.2.outcome = .added <;> cases entry.1 <;> simp [hout]

/-- A list adds no effect exactly if no entry of it does. -/
theorem filterMap_addedEffect_eq_nil_iff (l : List (Option E × ApplyCall)) :
    l.filterMap addedEffect = [] ↔ l.any entryAdds = false := by
  rw [List.filterMap_eq_nil_iff, List.any_eq_false]
  refine forall₂_congr fun entry _ => ?_
  rw [addedEffect_eq_none_iff, Bool.not_eq_true]

/-- What a loop over a list of effects does while nothing ends the ability: `fresh` are
the active effects it adds and `handles` the handles it obtains, all of them new. -/
structure Appends (keep : Bool) (l : List (Option E × ApplyCall)) (s s' : BaseState E)
    (fresh : List (ℕ × E)) (handles : List ℕ) : Prop where
  live : s'.asc.live = s.asc.live ++ fresh
  stored : s'.ability.removeOnEndEffectsHandle =
    s.ability.removeOnEndEffectsHandle ++ if keep then handles else []
  mem : ∀ p ∈ fresh, p.1 ∈ handles
  new : ∀ h ∈ handles, s.asc.nextHandle ≤ h
  activeCount : s'.ability.activeCount = s.ability.activeCount
  next : s.asc.nextHandle ≤ s'.asc.nextHandle
  classes : fresh.map Prod.snd = l.filterMap addedEffect

/-- Nothing fresh is active exactly if no entry of the list adds an effect. -/
theorem Appends.fresh_eq_nil {keep : Bool} {l : List (Option E × ApplyCall)}
    {s s' : BaseState E} {fresh : List (ℕ × E)} {handles : List ℕ}
    (h : Appends keep l s s' fresh handles) : fresh = [] ↔ l.any entryAdds = false := by
  rw [← filterMap_addedEffect_eq_nil_iff, ← h.classes, List.map_eq_nil_iff]

section Quiet

variable {c : AbilityClass E}

/-- Quiet applications end nothing. -/
theorem entries_quiet {effects : List (Option E)} {outcome : ℕ → ApplyOutcome}
    {entry : Option E × ApplyCall}
    (h : entry ∈ entries effects fun i => .quiet (outcome i)) : entry.2.ends = false := by
  obtain ⟨p, -, rfl⟩ := List.mem_map.mp h
  rfl

/-- One quiet entry. -/
theorem applyEffect_appends (keep : Bool) (s : BaseState E) {entry : Option E × ApplyCall}
    (hq : entry.2.ends = false) :
    ∃ fresh handles, Appends keep [entry] s (applyEffect c keep s entry) fresh handles := by
  obtain ⟨effect, call⟩ := entry
  obtain ⟨hb, ha⟩ : call.endsBefore = false ∧ call.endsAfter = false := by
    simpa [ApplyCall.ends] using hq
  cases effect with
  | none =>
    exact ⟨[], [], by simp [applyEffect], by simp [applyEffect], by simp, by simp, rfl,
      Nat.le_refl _, by simp [addedEffect]⟩
  | some effect =>
    have hspec : applySpec c effect call s =
        ((s.asc.applyGameplayEffectSpecToSelf effect call.outcome).1,
          { s with asc := (s.asc.applyGameplayEffectSpecToSelf effect call.outcome).2 }) := by
      simp [applySpec, hb, ha]
    refine ⟨if call.outcome = .added then [(s.asc.nextHandle, effect)] else [],
      if call.outcome.wasSuccessfullyApplied then [s.asc.nextHandle] else [], ?_⟩
    have hadded : call.outcome = .added → call.outcome.wasSuccessfullyApplied = true := by
      intro h
      rw [h]
      rfl
    by_cases hinvalid : call.outcome = .invalidSpec
    · constructor <;>
        simp [applyEffect, addedEffect, hinvalid, ApplyOutcome.wasSuccessfullyApplied]
    · constructor
      · cases keep <;> simp [applyEffect, hinvalid, hspec, apply_live]
      · cases keep
        · simp [applyEffect, hinvalid, hspec]
        · simp only [applyEffect, hinvalid, hspec, addHandle_handles, apply_fst, if_true,
            if_false]
          split <;> rfl
      · intro p hp
        split at hp
        · rename_i hout
          rw [List.mem_singleton.mp hp]
          simp [hadded hout]
        · exact absurd hp List.not_mem_nil
      · intro h hh
        split at hh
        · exact Nat.le_of_eq (List.mem_singleton.mp hh).symm
        · exact absurd hh List.not_mem_nil
      · cases keep <;> simp [applyEffect, hinvalid, hspec]
      · cases keep <;> simp [applyEffect, hinvalid, hspec, apply_nextHandle]
      · by_cases hout : call.outcome = .added <;> simp [addedEffect, hout]

/-- A quiet loop. -/
theorem foldl_appends (keep : Bool) (l : List (Option E × ApplyCall)) (s : BaseState E)
    (hq : ∀ entry ∈ l, entry.2.ends = false) :
    ∃ fresh handles, Appends keep l s (l.foldl (applyEffect c keep) s) fresh handles := by
  induction l generalizing s with
  | nil =>
    exact ⟨[], [], by simp, by simp, by simp, by simp, rfl, Nat.le_refl _, by simp⟩
  | cons entry l ih =>
    obtain ⟨fresh, handles, h⟩ :=
      applyEffect_appends keep s (hq entry List.mem_cons_self)
    obtain ⟨fresh', handles', h'⟩ := ih (applyEffect c keep s entry)
      (fun entry' hentry => hq entry' (List.mem_cons_of_mem _ hentry))
    refine ⟨fresh ++ fresh', handles ++ handles', ?_⟩
    constructor
    · rw [List.foldl_cons, h'.live, h.live, List.append_assoc]
    · rw [List.foldl_cons, h'.stored, h.stored]
      cases keep <;> simp
    · intro p hp
      rcases List.mem_append.mp hp with hp | hp
      · exact List.mem_append_left _ (h.mem p hp)
      · exact List.mem_append_right _ (h'.mem p hp)
    · intro n hn
      rcases List.mem_append.mp hn with hn | hn
      · exact h.new n hn
      · exact Nat.le_trans h.next (h'.new n hn)
    · rw [List.foldl_cons, h'.activeCount, h.activeCount]
    · exact Nat.le_trans h.next h'.next
    · rw [List.map_append, h.classes, h'.classes, ← List.filterMap_append]
      rfl

/-- A quiet activation leaves the activation count alone. -/
@[simp] theorem activateAbility_quiet_activeCount (start remove : ℕ → ApplyOutcome)
    (s : BaseState E) :
    (activateAbility c (.quiet start remove) s).ability.activeCount = s.ability.activeCount := by
  obtain ⟨_, _, hstart⟩ := foldl_appends (c := c) false
    (entries c.ongoingEffectsToApplyOnStart fun i => .quiet (start i)) s
    (fun _ => entries_quiet)
  obtain ⟨_, _, hremove⟩ := foldl_appends (c := c) true
    (entries c.ongoingEffectsToRemoveOnEnd fun i => .quiet (remove i))
    ((entries c.ongoingEffectsToApplyOnStart fun i => .quiet (start i)).foldl
      (applyEffect c false) s) (fun _ => entries_quiet)
  simp only [activateAbility, ActivationScript.quiet, Bool.false_eq_true, if_false]
  split
  · rw [hremove.activeCount, hstart.activeCount]
  · exact hstart.activeCount

/-- The classes of the active effects after a quiet activation. -/
theorem activateAbility_quiet_values (hc : c.instancingPolicy.isInstantiated = true)
    (start remove : ℕ → ApplyOutcome) (s : BaseState E) :
    (activateAbility c (.quiet start remove) s).asc.values = s.asc.values ++
      (entries c.ongoingEffectsToApplyOnStart fun i => .quiet (start i)).filterMap addedEffect ++
      (entries c.ongoingEffectsToRemoveOnEnd fun i => .quiet (remove i)).filterMap
        addedEffect := by
  obtain ⟨_, _, hstart⟩ := foldl_appends (c := c) false
    (entries c.ongoingEffectsToApplyOnStart fun i => .quiet (start i)) s
    (fun _ => entries_quiet)
  obtain ⟨_, _, hremove⟩ := foldl_appends (c := c) true
    (entries c.ongoingEffectsToRemoveOnEnd fun i => .quiet (remove i))
    ((entries c.ongoingEffectsToApplyOnStart fun i => .quiet (start i)).foldl
      (applyEffect c false) s) (fun _ => entries_quiet)
  simp only [activateAbility, ActivationScript.quiet, Bool.false_eq_true, if_false, hc, if_true,
    HandleStore.values, hremove.live, hstart.live, List.map_append, hstart.classes,
    hremove.classes]

/-- What is active after a quiet activation and the `EndAbility` that follows it: the
effects from `OngoingEffectsToApplyOnStart` have come, those behind handles stored
earlier have gone.  The effects from `OngoingEffectsToRemoveOnEnd` leave no trace. -/
theorem activate_endAbility_live (hc : c.instancingPolicy.isInstantiated = true)
    (start remove : ℕ → ApplyOutcome) (s : BaseState E)
    (hissued : ∀ h ∈ s.ability.removeOnEndEffectsHandle, h < s.asc.nextHandle) :
    ∃ fresh : List (ℕ × E),
      (endAbility c (activateAbility c (.quiet start remove) s)).asc.live =
        s.asc.live.filter (fun p => p.1 ∉ s.ability.removeOnEndEffectsHandle) ++ fresh ∧
      (∀ p ∈ fresh, s.asc.nextHandle ≤ p.1) ∧
      (fresh = [] ↔ (entries c.ongoingEffectsToApplyOnStart
        fun i => .quiet (start i)).any entryAdds = false) := by
  obtain ⟨fresh, handles, hstart⟩ := foldl_appends (c := c) false
    (entries c.ongoingEffectsToApplyOnStart fun i => .quiet (start i)) s
    (fun _ => entries_quiet)
  obtain ⟨fresh', handles', hremove⟩ := foldl_appends (c := c) true
    (entries c.ongoingEffectsToRemoveOnEnd fun i => .quiet (remove i))
    ((entries c.ongoingEffectsToApplyOnStart fun i => .quiet (start i)).foldl
      (applyEffect c false) s) (fun _ => entries_quiet)
  refine ⟨fresh, ?_, fun p hp => hstart.new p.1 (hstart.mem p hp), hstart.fresh_eq_nil⟩
  have hstored := hremove.stored
  rw [hstart.stored] at hstored
  simp only [Bool.false_eq_true, if_false, List.append_nil, if_true] at hstored
  have hlive := hremove.live
  rw [hstart.live] at hlive
  simp only [endAbility_asc hc, HandleStore.removeAll_live]
  simp only [activateAbility, ActivationScript.quiet, Bool.false_eq_true, if_false, hc, if_true]
  rw [hlive, hstored, List.filter_append, List.filter_append]
  -- an old effect is under none of the new handles
  have hold : s.asc.live.filter (fun p => p.1 ∉ s.ability.removeOnEndEffectsHandle ++ handles') =
      s.asc.live.filter (fun p => p.1 ∉ s.ability.removeOnEndEffectsHandle) := by
    apply List.filter_congr
    intro p hp
    have hlt := s.asc.lt_nextHandle hp
    have hnot : p.1 ∉ handles' := fun hmem => by
      have := Nat.le_trans hstart.next (hremove.new p.1 hmem)
      omega
    simp [hnot]
  -- an effect of the first list is under no stored handle
  have hkept : fresh.filter (fun p => p.1 ∉ s.ability.removeOnEndEffectsHandle ++ handles') =
      fresh := by
    apply List.filter_eq_self.mpr
    intro p hp
    have hge := hstart.new p.1 (hstart.mem p hp)
    have hmem : p ∈ ((entries c.ongoingEffectsToApplyOnStart fun i => .quiet (start i)).foldl
        (applyEffect c false) s).asc.live := by
      rw [hstart.live]
      exact List.mem_append_right _ hp
    have hlt := HandleStore.lt_nextHandle _ hmem
    have hnot₁ : p.1 ∉ s.ability.removeOnEndEffectsHandle := fun h => by
      have := hissued p.1 h
      omega
    have hnot₂ : p.1 ∉ handles' := fun h => by
      have := hremove.new p.1 h
      omega
    simp [hnot₁, hnot₂]
  -- the effects of the second list are all under new handles
  have hgone : fresh'.filter (fun p => p.1 ∉ s.ability.removeOnEndEffectsHandle ++ handles') =
      [] := by
    apply List.filter_eq_nil_iff.mpr
    intro p hp
    simp [hremove.mem p hp]
  rw [hold, hkept, hgone, List.append_nil]

/-- A quiet activation followed by `EndAbility` leaves the active effects as they were
exactly if it adds none from `OngoingEffectsToApplyOnStart` and no handle stored earlier
is live. -/
theorem activate_endAbility_live_iff (hc : c.instancingPolicy.isInstantiated = true)
    (start remove : ℕ → ApplyOutcome) (s : BaseState E)
    (hissued : ∀ h ∈ s.ability.removeOnEndEffectsHandle, h < s.asc.nextHandle) :
    (endAbility c (activateAbility c (.quiet start remove) s)).asc.live = s.asc.live ↔
      (entries c.ongoingEffectsToApplyOnStart fun i => .quiet (start i)).any entryAdds = false ∧
        ∀ h ∈ s.ability.removeOnEndEffectsHandle, ¬ s.asc.IsLive h := by
  obtain ⟨fresh, hlive, hnew, hnil⟩ := activate_endAbility_live hc start remove s hissued
  rw [hlive, ← hnil]
  constructor
  · intro heq
    have hfresh : fresh = [] := by
      apply List.eq_nil_iff_forall_not_mem.mpr
      intro p hp
      have hmem : p ∈ s.asc.live := heq ▸ List.mem_append_right _ hp
      have := s.asc.lt_nextHandle hmem
      have := hnew p hp
      omega
    refine ⟨hfresh, fun h hh hl => ?_⟩
    rw [hfresh, List.append_nil, List.filter_eq_self] at heq
    obtain ⟨p, hp, rfl⟩ := List.mem_map.mp hl
    simpa [hh] using heq p hp
  · rintro ⟨hfresh, hdead⟩
    rw [hfresh, List.append_nil, List.filter_eq_self]
    intro p hp
    simp only [decide_eq_true_eq]
    exact fun hmem => hdead p.1 hmem (List.mem_map_of_mem hp)

end Quiet

end GasSamples.Analysis
