import Mathlib.Data.Nat.Basic

/-!
# Loops that may run for ever

A loop body either goes on with a new state (`.inl`) or leaves the loop with a result
(`.inr`).  `loop` runs a body on fuel; `Returns` says of a fuelled computation that it
gives one and the same result at every fuel from some point on, `Diverges` that it gives
none at any.

Two rules prove that a loop returns.  `returns_loop_of_states` is for a loop whose states
are known in closed form, `returns_loop_of_measure` for one with an invariant and a
measure that falls in every round.  Two more say what another body does: `loop_map` for one
on translated states, `loop_of_live` for one that is the same only on the way to some of the
results.
-/

set_option autoImplicit false

namespace Reactive

variable {σ β γ : Type*}

/-- Run the loop from a state; without fuel there is no result. -/
def loop (body : σ → σ ⊕ β) : ℕ → σ → Option β
  | 0, _ => none
  | fuel + 1, s =>
    match body s with
    | .inl s' => loop body fuel s'
    | .inr b => some b

/-- The computation has the result `b` whenever it is given enough fuel. -/
def Returns (f : ℕ → Option β) (b : β) : Prop := ∃ bound, ∀ fuel, bound < fuel → f fuel = some b

/-- The computation has no result, whatever fuel it is given. -/
def Diverges (f : ℕ → Option β) : Prop := ∀ fuel, f fuel = none

section Returns

variable {f : ℕ → Option β} {b b' : β}

/-- A computation that needs no fuel returns. -/
theorem returns_some (b : β) : Returns (fun _ => some b) b := ⟨0, fun _ _ => rfl⟩

/-- A computation returns one result at most. -/
theorem Returns.unique (h : Returns f b) (h' : Returns f b') : b = b' := by
  obtain ⟨n, hn⟩ := h
  obtain ⟨n', hn'⟩ := h'
  have heq : some b = some b' := by
    rw [← hn (n + n' + 1) (by omega), ← hn' (n + n' + 1) (by omega)]
  exact Option.some.inj heq

/-- A computation that returns does not diverge. -/
theorem Returns.not_diverges (h : Returns f b) : ¬ Diverges f := by
  obtain ⟨n, hn⟩ := h
  intro hdiverges
  have heq := hn (n + 1) (by omega)
  rw [hdiverges (n + 1)] at heq
  exact absurd heq (by simp)

/-- Two computations on the same fuel, one after the other. -/
theorem Returns.bind {g : β → ℕ → Option γ} {c : γ} (hf : Returns f b) (hg : Returns (g b) c) :
    Returns (fun fuel => (f fuel).bind fun b => g b fuel) c := by
  obtain ⟨n, hn⟩ := hf
  obtain ⟨n', hn'⟩ := hg
  refine ⟨n + n', fun fuel hfuel => ?_⟩
  have hfirst : f fuel = some b := hn fuel (by omega)
  have hsecond : g b fuel = some c := hn' fuel (by omega)
  simp only [hfirst, Option.bind_some, hsecond]

/-- A computation whose first part gives one result at most, from which the second never
returns. -/
theorem Diverges.of_bind {g : β → ℕ → Option γ} (hf : ∀ fuel b', f fuel = some b' → b' = b)
    (hg : Diverges (g b)) : Diverges (fun fuel => (f fuel).bind fun b => g b fuel) := by
  intro fuel
  cases hfirst : f fuel with
  | none => simp only [hfirst, Option.bind_none]
  | some b' =>
    simp only [hfirst, Option.bind_some, hf fuel b' hfirst]
    exact hg fuel

/-- The image of a computation returns the image of its result. -/
theorem Returns.map (g : β → γ) (hf : Returns f b) :
    Returns (fun fuel => (f fuel).map g) (g b) := by
  obtain ⟨n, hn⟩ := hf
  refine ⟨n, fun fuel hfuel => ?_⟩
  simp only [hn fuel hfuel, Option.map_some]

end Returns

section Rules

variable {body : σ → σ ⊕ β}

/-- More fuel does not change a result. -/
theorem loop_mono {s : σ} {b : β} {fuel fuel' : ℕ} (h : loop body fuel s = some b)
    (hle : fuel ≤ fuel') : loop body fuel' s = some b := by
  induction fuel generalizing s fuel' with
  | zero => exact absurd h (by simp [loop])
  | succ fuel ih =>
    obtain ⟨fuel', rfl⟩ : ∃ m, fuel' = m + 1 := ⟨fuel' - 1, by omega⟩
    simp only [loop] at h ⊢
    cases hbody : body s with
    | inl s' =>
      simp only [hbody] at h ⊢
      exact ih h (by omega)
    | inr b' =>
      simp only [hbody] at h ⊢
      exact h

/-- A loop that was seen to give a result returns it. -/
theorem returns_loop {s : σ} {b : β} {fuel : ℕ} (h : loop body fuel s = some b) :
    Returns (fun fuel => loop body fuel s) b :=
  ⟨fuel, fun _ hfuel => loop_mono h (Nat.le_of_lt hfuel)⟩

/-- **Unrolling.** A loop whose first `n` rounds go through the states `states 0`, ...,
`states n`, and which is left from the last of them. -/
theorem returns_loop_of_states {states : ℕ → σ} {n : ℕ} {b : β}
    (hcontinues : ∀ j < n, body (states j) = .inl (states (j + 1)))
    (hexits : body (states n) = .inr b) :
    Returns (fun fuel => loop body fuel (states 0)) b := by
  refine ⟨n, ?_⟩
  -- from round `n - d` on, with `d` rounds to go
  have hrest : ∀ d ≤ n, ∀ fuel, d < fuel → loop body fuel (states (n - d)) = some b := by
    intro d
    induction d with
    | zero =>
      intro _ fuel hfuel
      obtain ⟨fuel, rfl⟩ : ∃ m, fuel = m + 1 := ⟨fuel - 1, by omega⟩
      simp only [loop, Nat.sub_zero, hexits]
    | succ d ih =>
      intro hd fuel hfuel
      obtain ⟨fuel, rfl⟩ : ∃ m, fuel = m + 1 := ⟨fuel - 1, by omega⟩
      have hround := hcontinues (n - (d + 1)) (by omega)
      have hnext : n - (d + 1) + 1 = n - d := by omega
      rw [hnext] at hround
      simp only [loop, hround]
      exact ih (by omega) fuel (by omega)
  intro fuel hfuel
  have hall := hrest n (Nat.le_refl n) fuel hfuel
  rw [Nat.sub_self] at hall
  exact hall

/-- **Total correctness.** Every round keeps the invariant and lowers the measure, or
leaves the loop with a result as required. -/
theorem returns_loop_of_measure (Inv : σ → Prop) (Post : β → Prop) (measure : σ → ℕ)
    (hround : ∀ s, Inv s → (∃ s', body s = .inl s' ∧ Inv s' ∧ measure s' < measure s) ∨
      ∃ b, body s = .inr b ∧ Post b)
    {s : σ} (hs : Inv s) : ∃ b, Returns (fun fuel => loop body fuel s) b ∧ Post b := by
  induction hm : measure s using Nat.strong_induction_on generalizing s with
  | _ m ih =>
    rcases hround s hs with ⟨s', hbody, hs', hless⟩ | ⟨b, hbody, hpost⟩
    · rw [hm] at hless
      obtain ⟨b, ⟨n, hn⟩, hpost⟩ := ih (measure s') hless hs' rfl
      refine ⟨b, ⟨n + 1, fun fuel hfuel => ?_⟩, hpost⟩
      obtain ⟨fuel, rfl⟩ : ∃ m, fuel = m + 1 := ⟨fuel - 1, by omega⟩
      simp only [loop, hbody]
      exact hn fuel (by omega)
    · refine ⟨b, ⟨0, fun fuel hfuel => ?_⟩, hpost⟩
      obtain ⟨fuel, rfl⟩ : ∃ m, fuel = m + 1 := ⟨fuel - 1, by omega⟩
      simp only [loop, hbody]

/-- A loop that goes on from every state of an invariant is never left. -/
theorem diverges_loop (Inv : σ → Prop) (hround : ∀ s, Inv s → ∃ s', body s = .inl s' ∧ Inv s')
    {s : σ} (hs : Inv s) : Diverges (fun fuel => loop body fuel s) := by
  intro fuel
  induction fuel generalizing s with
  | zero => rfl
  | succ fuel ih =>
    obtain ⟨s', hbody, hs'⟩ := hround s hs
    simp only [loop, hbody]
    exact ih hs'

/-- **Partial correctness.** What every round keeps holds of the result. -/
theorem inv_of_loop (Inv : σ ⊕ β → Prop) (hkeep : ∀ s, Inv (.inl s) → Inv (body s)) {s : σ}
    (hs : Inv (.inl s)) {fuel : ℕ} {b : β} (h : loop body fuel s = some b) : Inv (.inr b) := by
  induction fuel generalizing s with
  | zero => exact absurd h (by simp [loop])
  | succ fuel ih =>
    have hround := hkeep s hs
    simp only [loop] at h
    cases hbody : body s with
    | inl s' =>
      simp only [hbody] at h hround
      exact ih hround h
    | inr b' =>
      simp only [hbody] at h hround
      obtain rfl : b' = b := Option.some.inj h
      exact hround

/-- **Exchange of the body.** Let `Live` go back from the end of a round to its start, and
let both bodies do the same in a round that ends in `Live`.  Then they take the same way to
a result in `Live`, and are in `Live` from the start. -/
theorem loop_of_live (body' : σ → σ ⊕ β) (Inv : σ ⊕ β → Prop) (Live : σ ⊕ β → Prop)
    (hkeep : ∀ s, Inv (.inl s) → Inv (body s))
    (hback : ∀ s, Inv (.inl s) → Live (body s) → Live (.inl s) ∧ body' s = body s) {s : σ}
    (hs : Inv (.inl s)) {fuel : ℕ} {b : β} (h : loop body fuel s = some b)
    (hlive : Live (.inr b)) : loop body' fuel s = some b ∧ Live (.inl s) := by
  induction fuel generalizing s with
  | zero => exact absurd h (by simp [loop])
  | succ fuel ih =>
    have hround := hkeep s hs
    have hlater := hback s hs
    simp only [loop] at h ⊢
    cases hbody : body s with
    | inl s' =>
      simp only [hbody] at h hround hlater
      obtain ⟨hrest, hlive'⟩ := ih hround h
      obtain ⟨hstart, hsame⟩ := hlater hlive'
      simp only [hsame]
      exact ⟨hrest, hstart⟩
    | inr b' =>
      simp only [hbody] at h hround hlater
      obtain rfl : b' = b := Option.some.inj h
      obtain ⟨hstart, hsame⟩ := hlater hlive
      simp only [hsame]
      exact ⟨trivial, hstart⟩

/-- A loop that does to translated states what another one does to the states themselves. -/
theorem loop_map {σ' β' : Type*} {body' : σ' → σ' ⊕ β'} (f : σ → σ') (g : β → β')
    (hbody : ∀ s, body' (f s) = (body s).map f g) (fuel : ℕ) (s : σ) :
    loop body' fuel (f s) = (loop body fuel s).map g := by
  induction fuel generalizing s with
  | zero => rfl
  | succ fuel ih =>
    simp only [loop, hbody]
    cases body s with
    | inl s' => exact ih s'
    | inr b => rfl

end Rules

end Reactive
