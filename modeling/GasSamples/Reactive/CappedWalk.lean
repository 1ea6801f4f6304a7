import GasSamples.Reactive.Run
import Mathlib.Algebra.BigOperators.Group.List.Basic
import Mathlib.Algebra.Order.Group.Defs
import Mathlib.Algebra.Order.Monoid.Unbundled.MinMax

/-!
# A stock under a cap

A stock changes step by step; each step lets it rise to a cap of its own at most, and it
never falls below zero. A stretch of steps that starts when the stock is at some cap cannot
use more than that cap, and the first stretch cannot use more than there was. `lasts_iff`
says that nothing else counts: a run never asks for the last of the stock if and only if no
stretch does. `le_run_iff` gives the stock at the end of such a run, as the least of what
the stretches leave.
-/

set_option autoImplicit false

namespace Reactive

/-- A step of a stock: how it changes, and what it may be at most. -/
structure CappedStep (K : Type*) where
  cap : K
  change : K
deriving DecidableEq

namespace CappedStep

variable {K : Type*} [AddCommGroup K] [LinearOrder K]

/-- The stock takes the change, up to the cap and down to zero. -/
def take (x : K) (p : CappedStep K) : K := max (min (x + p.change) p.cap) 0

/-- The step leaves something of the stock. -/
def Leaves (x : K) (p : CappedStep K) : Prop := 0 < x + p.change

/-- What the steps add up to. -/
def total (ps : List (CappedStep K)) : K := (ps.map change).sum

/-- No stretch of steps that begins here asks for all of `x`. -/
def Covers (x : K) (ps : List (CappedStep K)) : Prop :=
  ∀ pre, pre <+: ps → pre ≠ [] → 0 < x + total pre

omit [LinearOrder K] in
/-- The walk without steps changes nothing. -/
@[simp] theorem total_nil : total ([] : List (CappedStep K)) = 0 := rfl

omit [LinearOrder K] in
/-- The total after one more step at the front. -/
@[simp] theorem total_cons (p : CappedStep K) (ps : List (CappedStep K)) :
    total (p :: ps) = p.change + total ps := by
  simp [total]

/-- Every number covers the walk without steps. -/
theorem covers_nil (x : K) : Covers x [] := by
  intro pre hpre hne
  exact absurd (List.prefix_nil.mp hpre) hne

/-- The first step leaves something, and what it leaves covers the others. -/
theorem covers_cons {x : K} {p : CappedStep K} {ps : List (CappedStep K)} :
    Covers x (p :: ps) ↔ Leaves x p ∧ Covers (x + p.change) ps := by
  constructor
  · intro h
    constructor
    · have hfirst := h [p] (List.cons_prefix_cons.mpr ⟨rfl, List.nil_prefix⟩)
        (List.cons_ne_nil p [])
      rwa [total_cons, total_nil, add_zero] at hfirst
    · intro pre hpre _
      have hmore := h (p :: pre) (List.cons_prefix_cons.mpr ⟨rfl, hpre⟩)
        (List.cons_ne_nil p pre)
      rwa [total_cons, ← add_assoc] at hmore
  · rintro ⟨hfirst, hmore⟩ pre hpre hne
    cases pre with
    | nil => exact absurd rfl hne
    | cons p' pre =>
      obtain ⟨rfl, hrest⟩ := List.cons_prefix_cons.mp hpre
      rw [total_cons, ← add_assoc]
      by_cases hnil : pre = []
      · rw [hnil, total_nil, add_zero]
        exact hfirst
      · exact hmore pre hrest hnil

/-- What the stretches after the first one may use: the cap of the step before them. -/
def CapsCover (ps : List (CappedStep K)) : Prop :=
  ∀ p rest, p :: rest <:+ ps → Covers p.cap rest

/-- The walk without steps has no caps to check. -/
theorem capsCover_nil : CapsCover ([] : List (CappedStep K)) := by
  intro p rest hsuffix
  exact absurd (List.suffix_nil.mp hsuffix) (List.cons_ne_nil p rest)

/-- A step with the steps after it, in a list with one more step in front. -/
theorem forall_suffix_cons {α : Type*} {P : α → List α → Prop} {p : α} {ps : List α} :
    (∀ q rest, q :: rest <:+ p :: ps → P q rest) ↔
      P p ps ∧ ∀ q rest, q :: rest <:+ ps → P q rest := by
  constructor
  · intro h
    exact ⟨h p ps (List.suffix_refl _), fun q rest hrest =>
      h q rest (hrest.trans (List.suffix_cons p ps))⟩
  · rintro ⟨hfirst, hmore⟩ q rest hrest
    rcases List.suffix_cons_iff.mp hrest with heq | hrest
    · obtain ⟨rfl, rfl⟩ := List.cons_eq_cons.mp heq
      exact hfirst
    · exact hmore q rest hrest

/-- The caps cover a walk if the first covers the rest and the others do. -/
theorem capsCover_cons {p : CappedStep K} {ps : List (CappedStep K)} :
    CapsCover (p :: ps) ↔ Covers p.cap ps ∧ CapsCover ps := forall_suffix_cons

/-- A step that leaves something never meets the floor. -/
theorem take_of_leaves {x : K} {p : CappedStep K} (hcap : 0 ≤ p.cap) (h : Leaves x p) :
    take x p = min (x + p.change) p.cap :=
  max_eq_left (le_min h.le hcap)

variable [IsOrderedAddMonoid K]

/-- The lesser of two stocks covers what both cover. -/
theorem covers_min {x y : K} {ps : List (CappedStep K)} :
    Covers (min x y) ps ↔ Covers x ps ∧ Covers y ps := by
  simp only [Covers, ← min_add_add_right, lt_min_iff]
  constructor
  · intro h
    exact ⟨fun pre hpre hne => (h pre hpre hne).1, fun pre hpre hne => (h pre hpre hne).2⟩
  · rintro ⟨hx, hy⟩ pre hpre hne
    exact ⟨hx pre hpre hne, hy pre hpre hne⟩

/-- **A stock lasts exactly if no stretch asks for all that it may use**: the first stretch
for what there was, and every later one for the cap of the step before it. -/
theorem lasts_iff {x : K} {ps : List (CappedStep K)} (hcaps : ∀ p ∈ ps, 0 ≤ p.cap) :
    EveryStep take Leaves x ps ↔ Covers x ps ∧ CapsCover ps := by
  induction ps generalizing x with
  | nil => exact ⟨fun _ => ⟨covers_nil x, capsCover_nil⟩, fun _ => trivial⟩
  | cons p ps ih =>
    have hrest : ∀ q ∈ ps, 0 ≤ q.cap := fun q hq => hcaps q (List.mem_cons_of_mem p hq)
    rw [everyStep_cons, covers_cons, capsCover_cons, ih hrest, and_assoc]
    refine and_congr_right fun hleaves => ?_
    rw [take_of_leaves (hcaps p List.mem_cons_self) hleaves, covers_min, and_assoc]

/-- **What is left of a stock that lasts** is the least of what the first stretch leaves of
the start, and every other stretch of the cap before it. -/
theorem le_run_iff {x y : K} {ps : List (CappedStep K)} (hcaps : ∀ p ∈ ps, 0 ≤ p.cap)
    (hlasts : EveryStep take Leaves x ps) :
    y ≤ run take x ps ↔
      y ≤ x + total ps ∧ ∀ p rest, p :: rest <:+ ps → y ≤ p.cap + total rest := by
  induction ps generalizing x with
  | nil => simp
  | cons p ps ih =>
    have hrest : ∀ q ∈ ps, 0 ≤ q.cap := fun q hq => hcaps q (List.mem_cons_of_mem p hq)
    rw [run_cons, ih hrest hlasts.2, take_of_leaves (hcaps p List.mem_cons_self) hlasts.1,
      ← min_add_add_right, le_min_iff, total_cons, ← add_assoc, and_assoc]
    rw [forall_suffix_cons]

end CappedStep

end Reactive
