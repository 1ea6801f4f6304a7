import GasSamples.Program.CommitCheck

/-!
# The vault search in closed form

The horizontal loop stops one layer above the first layer that is hit, the vertical loop
at the first probe after the start that finds nothing.  With these two numbers the states
of both loops are known in closed form (`scanning`, `scanned`, `probing`), so the loops
return by unrolling, and the result of `commitCheck` is read off: `Outcome` says what it is
in each case, and `commitCheck_outcome` that one of the cases applies.
-/

set_option autoImplicit false

namespace GasSamples.Analysis

open Reactive GasSamples.Model GasSamples.Program GasSamples.Program.CommitCheck

variable {K : Type} [Field K] [LinearOrder K] (x : VaultSearch K)

/-! ## The numbers that decide the search -/

/-- `k` is the least layer whose sweep hits, and not the topmost one. -/
structure FirstLayer (k : ℕ) (hit : FHitResult K) : Prop where
  hits : trace x (layer x k) = some hit
  misses : ∀ j < k, trace x (layer x j) = none
  below : (k : K) < x.settings.horizontalTraceCount - 1

/-- The first `n` layers. -/
def layers (n : ℕ) : List (Sweep K) := (List.range n).map (layer x)

variable [SquareRoot K]

/-- The distance that layer `k + 1` leaves free: up to its hit, or its whole length. -/
def available (k : ℕ) : K :=
  ((trace x (layer x (k + 1))).map fun hit =>
    FVector.dist2D hit.location (layer x (k + 1)).start).getD x.settings.horizontalTraceLenght

/-- `MaxVerticalTraceDistance`, after a hit of layer `k`. -/
def room (k : ℕ) (hit : FHitResult K) : K :=
  available x k - FVector.dist2D x.startLocation hit.location

/-- What the vertical part starts from, after a hit of layer `k`. -/
def verticalStart (k : ℕ) (hit : FHitResult K) : VerticalStart K where
  jumpToLocation := hit.location
  maxVerticalTraceDistance := room x k hit
  verticalTraceLength := |hit.location.z - (layer x (k + 1)).start.z|
  sweeps := layers x (k + 2)

omit [SquareRoot K] in
/-- `m` is the first probe after the start that finds nothing. -/
structure FirstMiss (v : VerticalStart K) (m : ℕ) : Prop where
  pos : 1 ≤ m
  reached : (verticalTraceCount x v).atLeast m = true
  misses : trace x (probe x v m) = none
  hits : ∀ j, 1 ≤ j → j < m → (trace x (probe x v j)).isSome = true

/-- The first `n` probes. -/
def probes (v : VerticalStart K) (n : ℕ) : List (Sweep K) := (List.range n).map (probe x v)

/-- `JumpToLocation` after the first probe. -/
def landing (v : VerticalStart K) : FVector K :=
  ((trace x (probe x v 0)).map fun hit => hit.impactPoint).getD v.jumpToLocation

/-- `JumpOverLocation` after `i` probes: the impact point of the last one that hit. -/
def edge (v : VerticalStart K) : ℕ → FVector K
  | 0 => x.jumpOverLocation
  | i + 1 => ((trace x (probe x v i)).map fun hit => hit.impactPoint).getD (edge v i)

/-- Where the refinement sweep moves `JumpOverLocation`. -/
def refined (location : FVector K) : FVector K :=
  ((trace x (refinement x location)).map fun hit => hit.impactPoint).getD location

/-! ## The horizontal loop -/

section Horizontal

omit [LinearOrder K] [SquareRoot K] in
/-- The layers up to one more. -/
theorem layers_succ (n : ℕ) : layers x (n + 1) = layers x n ++ [layer x n] := by
  simp [layers, List.range_succ]

/-- No layer below `i` was hit. -/
def scanning (i : ℕ) : HorizontalScan K :=
  { horizontalInit x with i := i, sweeps := layers x i }

/-- Layer `k` was hit, and the one above it comes next. -/
def scanned (k : ℕ) (hit : FHitResult K) : HorizontalScan K where
  i := k + 1
  jumpToLocationIdx := k
  jumpToLocation := hit.location
  maxJumpDistance := x.settings.horizontalTraceLenght
  sweeps := layers x (k + 1)

variable {x} {i k : ℕ} {hit : FHitResult K}

/-- A layer without a hit, before any hit, only moves the scan on. -/
theorem horizontalBody_miss (hi : (i : K) < x.settings.horizontalTraceCount)
    (hmiss : trace x (layer x i) = none) :
    horizontalBody x (scanning x i) = .inl (scanning x (i + 1)) := by
  simp only [horizontalBody, scanning, horizontalInit, if_pos hi, hmiss, layers_succ]
  simp

/-- A hit of the topmost layer is not taken: the loop goes on, or is left at once. -/
theorem horizontalBody_top (hhit : trace x (layer x i) = some hit)
    (hi : (i : K) < x.settings.horizontalTraceCount)
    (htop : ¬ (i : K) < x.settings.horizontalTraceCount - 1) :
    horizontalBody x (scanning x i) = .inl (scanning x (i + 1)) ∨
      ∃ s, horizontalBody x (scanning x i) = .inr s ∧ s.jumpToLocationIdx = -1 ∧
        s.jumpToLocation = x.jumpToLocation ∧ s.sweeps = layers x (i + 1) := by
  simp only [horizontalBody, scanning, horizontalInit, if_pos hi, hhit, htop, and_false,
    if_false, ← layers_succ]
  -- `JumpToLocationIdx == i - 1` holds for the bottom layer, of which both sides are -1
  by_cases hzero : (-1 : ℤ) = (i : ℤ) - 1
  · rw [if_pos hzero]
    exact Or.inr ⟨_, rfl, rfl, rfl, rfl⟩
  · rw [if_neg hzero]
    exact Or.inl rfl

variable [IsStrictOrderedRing K]

/-- The first hit sends the scan one layer higher. -/
theorem horizontalBody_first (hhit : trace x (layer x i) = some hit)
    (hi : (i : K) < x.settings.horizontalTraceCount - 1) :
    horizontalBody x (scanning x i) = .inl (scanned x i hit) := by
  have hlt : (i : K) < x.settings.horizontalTraceCount := by linarith
  simp only [horizontalBody, scanning, scanned, horizontalInit, if_pos hlt, hhit, hi,
    layers_succ]
  simp

/-- The layer above the first hit is the last one that is swept. -/
theorem horizontalBody_above (h : FirstLayer x k hit) :
    horizontalBody x (scanned x k hit) = .inr { scanned x k hit with
      maxJumpDistance := available x k
      sweeps := layers x (k + 2) } := by
  have hlt : ((k + 1 : ℕ) : K) < x.settings.horizontalTraceCount := by
    have hbelow := h.below
    push_cast
    linarith
  have hidx : (k : ℤ) ≠ -1 := by omega
  have hnext : (k : ℤ) = ((k + 1 : ℕ) : ℤ) - 1 := by omega
  rw [layers_succ x (k + 1)]
  unfold horizontalBody scanned
  simp only [if_pos hlt]
  cases habove : trace x (layer x (k + 1)) with
  | none =>
    simp only [ne_eq, hidx, not_false_eq_true, if_true, available, habove, Option.map_none,
      Option.getD_none]
  | some hit' =>
    simp only [hidx, false_and, if_false, available, habove, Option.map_some, Option.getD_some]
    rw [if_pos hnext]

/-- The horizontal loop, with a first layer. -/
theorem horizontalLoop_firstLayer (h : FirstLayer x k hit) :
    Returns (fun fuel => loop (horizontalBody x) fuel (horizontalInit x))
      { scanned x k hit with
        maxJumpDistance := available x k
        sweeps := layers x (k + 2) } := by
  have hbelow := h.below
  -- the layers up to `k`, and the state after the hit of layer `k`
  let states : ℕ → HorizontalScan K := fun j => if j ≤ k then scanning x j else scanned x k hit
  have hcontinues : ∀ j < k + 1, horizontalBody x (states j) = .inl (states (j + 1)) := by
    intro j hj
    have hjk : j ≤ k := by omega
    simp only [states, if_pos hjk]
    by_cases hlast : j = k
    · subst hlast
      rw [if_neg (by omega)]
      exact horizontalBody_first h.hits hbelow
    · rw [if_pos (by omega)]
      have hcast : (j : K) ≤ k := Nat.cast_le.mpr hjk
      exact horizontalBody_miss (by linarith) (h.misses j (by omega))
  have hexits : horizontalBody x (states (k + 1)) = .inr { scanned x k hit with
      maxJumpDistance := available x k
      sweeps := layers x (k + 2) } := by
    simp only [states]
    rw [if_neg (by omega)]
    exact horizontalBody_above h
  have hreturns := returns_loop_of_states hcontinues hexits
  simp only [states, if_pos (Nat.zero_le k)] at hreturns
  exact hreturns

omit [SquareRoot K] in
/-- A hit below the topmost layer gives a first one. -/
theorem exists_firstLayer (hhit : (trace x (layer x i)).isSome = true)
    (hi : (i : K) < x.settings.horizontalTraceCount - 1) : ∃ k hit, FirstLayer x k hit := by
  classical
  have hex : ∃ j, (trace x (layer x j)).isSome = true := ⟨i, hhit⟩
  obtain ⟨hit, hfound⟩ := Option.isSome_iff_exists.mp (Nat.find_spec hex)
  have hcast : ((Nat.find hex : ℕ) : K) ≤ i := Nat.cast_le.mpr (Nat.find_min' hex hhit)
  refine ⟨Nat.find hex, hit, hfound, fun j hj => ?_, by linarith⟩
  have hmin := Nat.find_min hex hj
  simpa using hmin

variable [FloorRing K]

/-- The horizontal loop, without a first layer: it sweeps some of the layers and sets
nothing. -/
theorem horizontalLoop_noLayer (hnone : ∀ k hit, ¬ FirstLayer x k hit) :
    ∃ s, Returns (fun fuel => loop (horizontalBody x) fuel (horizontalInit x)) s ∧
      s.jumpToLocationIdx = -1 ∧ s.jumpToLocation = x.jumpToLocation ∧
      ∃ n ≤ ⌈x.settings.horizontalTraceCount⌉₊,
        x.settings.horizontalTraceCount - 1 ≤ n ∧ s.sweeps = layers x n := by
  refine returns_loop_of_measure
    (fun s => ∃ i ≤ ⌈x.settings.horizontalTraceCount⌉₊, s = scanning x i)
    (fun s : HorizontalScan K => s.jumpToLocationIdx = -1 ∧
      s.jumpToLocation = x.jumpToLocation ∧ ∃ n ≤ ⌈x.settings.horizontalTraceCount⌉₊,
        x.settings.horizontalTraceCount - 1 ≤ n ∧ s.sweeps = layers x n)
    (fun s => ⌈x.settings.horizontalTraceCount⌉₊ - s.i) ?_ ⟨0, Nat.zero_le _, rfl⟩
  rintro s ⟨i, hi, rfl⟩
  by_cases hlt : (i : K) < x.settings.horizontalTraceCount
  · have hceil : i < ⌈x.settings.horizontalTraceCount⌉₊ := Nat.lt_ceil.mpr hlt
    have hless : ⌈x.settings.horizontalTraceCount⌉₊ - (scanning x (i + 1)).i <
        ⌈x.settings.horizontalTraceCount⌉₊ - (scanning x i).i := by
      simp only [scanning]
      omega
    cases htrace : trace x (layer x i) with
    | none => exact Or.inl ⟨_, horizontalBody_miss hlt htrace, ⟨i + 1, hceil, rfl⟩, hless⟩
    | some hit =>
      have htop : ¬ (i : K) < x.settings.horizontalTraceCount - 1 := by
        intro hbelow
        obtain ⟨k, hit', hfirst⟩ := exists_firstLayer (by rw [htrace]; rfl) hbelow
        exact hnone k hit' hfirst
      rcases horizontalBody_top htrace hlt htop with hbody | ⟨s, hbody, hidx, hlocation, hsweeps⟩
      · exact Or.inl ⟨_, hbody, ⟨i + 1, hceil, rfl⟩, hless⟩
      · refine Or.inr ⟨s, hbody, hidx, hlocation, i + 1, hceil, ?_, hsweeps⟩
        push_cast
        linarith
  · refine Or.inr ⟨scanning x i, ?_, rfl, rfl, i, hi, by linarith, rfl⟩
    simp only [horizontalBody, scanning, hlt, if_false]

end Horizontal

/-! ## The vertical loop -/

section Vertical

omit [SquareRoot K]

omit [LinearOrder K] in
/-- The probes up to one more. -/
theorem probes_succ (v : VerticalStart K) (n : ℕ) :
    probes x v (n + 1) = probes x v n ++ [probe x v n] := by
  simp [probes, List.range_succ]

/-- After `i` probes, none of them the last one. -/
def probing (v : VerticalStart K) (i : ℕ) : VerticalScan K where
  i := i
  jumpToLocation := if i = 0 then v.jumpToLocation else landing x v
  jumpOverLocation := edge x v i
  jumpOverLocationSet := false
  sweeps := v.sweeps ++ probes x v i

omit [LinearOrder K] in
/-- The vertical loop starts at probe zero. -/
theorem probing_zero (v : VerticalStart K) : probing x v 0 = verticalInit x v := by
  simp [probing, verticalInit, edge, probes]

variable {x} {v : VerticalStart K} {i m : ℕ}

/-- With a vertical step, the count admits probe `i` exactly if `i` is at most the quotient. -/
theorem atLeast_verticalTraceCount (hstep : x.settings.verticalTraceStep ≠ 0) :
    (verticalTraceCount x v).atLeast i =
      decide ((i : K) ≤ v.maxVerticalTraceDistance / x.settings.verticalTraceStep) := by
  rw [verticalTraceCount, FloatQuotient.div_of_ne_zero _ hstep]
  rfl

/-- The loop goes on after the first probe, and after every other one that hits. -/
theorem verticalBody_continues (hcount : (verticalTraceCount x v).atLeast i = true)
    (hgoes : 1 ≤ i → (trace x (probe x v i)).isSome = true) :
    verticalBody x v (probing x v i) = .inl (probing x v (i + 1)) := by
  unfold verticalBody probing
  simp only [if_pos hcount, probes_succ, edge]
  rw [if_neg (Nat.succ_ne_zero i)]
  cases htrace : trace x (probe x v i) with
  | none =>
    have hzero : i = 0 := by
      by_contra hpos
      have hsome := hgoes (by omega)
      rw [htrace] at hsome
      exact absurd hsome (by simp)
    subst hzero
    simp [landing, htrace]
  | some hit =>
    by_cases hzero : i = 0
    · subst hzero
      simp [landing, htrace]
    · simp [hzero]

/-- The loop is left after the first miss that is not one of the first probe. -/
theorem verticalBody_firstMiss (hcount : (verticalTraceCount x v).atLeast m = true)
    (hpos : 1 ≤ m) (hmiss : trace x (probe x v m) = none) :
    verticalBody x v (probing x v m) = .inr
      { i := m
        jumpToLocation := landing x v
        jumpOverLocation := edge x v m
        jumpOverLocationSet := true
        sweeps := v.sweeps ++ probes x v (m + 1) } := by
  unfold verticalBody probing
  have hne : m ≠ 0 := by omega
  simp only [if_pos hcount, hmiss, hne, ne_eq, not_false_eq_true, if_true, if_false,
    probes_succ, List.append_assoc]

variable [IsStrictOrderedRing K]

/-- A count that reaches a probe reaches those before it. -/
theorem atLeast_of_le (hcount : (verticalTraceCount x v).atLeast m = true) (hi : i ≤ m) :
    (verticalTraceCount x v).atLeast i = true := by
  cases hquotient : verticalTraceCount x v with
  | finite value =>
    rw [hquotient] at hcount
    have hm : (m : K) ≤ value := of_decide_eq_true hcount
    exact decide_eq_true (le_trans (Nat.cast_le.mpr hi) hm)
  | infinity positive =>
    rw [hquotient] at hcount
    exact hcount
  | nan =>
    rw [hquotient] at hcount
    exact absurd hcount (by simp [FloatQuotient.atLeast])

/-- The vertical loop, with a first miss. -/
theorem verticalLoop_firstMiss (h : FirstMiss x v m) :
    Returns (fun fuel => loop (verticalBody x v) fuel (verticalInit x v))
      { i := m
        jumpToLocation := landing x v
        jumpOverLocation := edge x v m
        jumpOverLocationSet := true
        sweeps := v.sweeps ++ probes x v (m + 1) } := by
  have hcontinues : ∀ j < m, verticalBody x v (probing x v j) = .inl (probing x v (j + 1)) :=
    fun j hj => verticalBody_continues (atLeast_of_le h.reached (Nat.le_of_lt hj))
      fun hpos => h.hits j hpos hj
  have hexits := verticalBody_firstMiss h.reached h.pos h.misses
  have hreturns := returns_loop_of_states hcontinues hexits
  rw [probing_zero] at hreturns
  exact hreturns

/-- A miss within reach gives a first one. -/
theorem exists_firstMiss (hpos : 1 ≤ i) (hreach : (verticalTraceCount x v).atLeast i = true)
    (hmiss : trace x (probe x v i) = none) : ∃ m, FirstMiss x v m := by
  classical
  have hex : ∃ j, 1 ≤ j ∧ trace x (probe x v j) = none := ⟨i, hpos, hmiss⟩
  have hspec := Nat.find_spec hex
  have hle : Nat.find hex ≤ i := Nat.find_min' hex ⟨hpos, hmiss⟩
  refine ⟨Nat.find hex, hspec.1, atLeast_of_le hreach hle, hspec.2, fun j hj hless => ?_⟩
  have hmin := Nat.find_min hex hless
  rw [Option.isSome_iff_ne_none]
  exact fun hnone => hmin ⟨hj, hnone⟩

/-- Without a first miss every probe within reach hits, but for the first one. -/
theorem isSome_of_noMiss (hnone : ∀ m, ¬ FirstMiss x v m)
    (hreach : (verticalTraceCount x v).atLeast i = true) (hpos : 1 ≤ i) :
    (trace x (probe x v i)).isSome = true := by
  by_contra hmiss
  obtain ⟨m, hm⟩ := exists_firstMiss hpos hreach (by simpa using hmiss)
  exact hnone m hm

/-- The vertical loop, with an infinite count and without a first miss. -/
theorem verticalLoop_hangs (hinfinite : verticalTraceCount x v = .infinity true)
    (hnone : ∀ m, ¬ FirstMiss x v m) :
    Diverges (fun fuel => loop (verticalBody x v) fuel (verticalInit x v)) := by
  have hcount : ∀ i, (verticalTraceCount x v).atLeast i = true := by
    intro i
    rw [hinfinite]
    rfl
  refine diverges_loop (fun s => ∃ i, s = probing x v i) ?_ ⟨0, (probing_zero x v).symm⟩
  rintro s ⟨i, rfl⟩
  exact ⟨_, verticalBody_continues (hcount i) (isSome_of_noMiss hnone (hcount i)), i + 1, rfl⟩

variable [FloorRing K]

variable (x v) in
/-- The number of probes when the count is not infinite and none of them is the last. -/
def probeCount : ℕ :=
  if (verticalTraceCount x v).atLeast 0 then
    ⌊v.maxVerticalTraceDistance / x.settings.verticalTraceStep⌋₊ + 1
  else 0

/-- Below the number of probes are the indices that the count admits. -/
theorem lt_probeCount (hfinite : verticalTraceCount x v ≠ .infinity true) :
    i < probeCount x v ↔ (verticalTraceCount x v).atLeast i = true := by
  unfold probeCount
  by_cases hstep : x.settings.verticalTraceStep = 0
  · -- a quotient by zero that is not infinite lets no probe pass
    have hnever : ∀ j, (verticalTraceCount x v).atLeast j = false := by
      intro j
      cases hquotient : verticalTraceCount x v with
      | finite value =>
        simp only [verticalTraceCount, FloatQuotient.div, hstep, ne_eq, not_true_eq_false,
          if_false] at hquotient
        split_ifs at hquotient
      | infinity positive =>
        cases positive with
        | true => exact absurd hquotient hfinite
        | false => rfl
      | nan => rfl
    simp [hnever]
  · simp only [atLeast_verticalTraceCount hstep, decide_eq_true_eq, Nat.cast_zero]
    by_cases hquotient : 0 ≤ v.maxVerticalTraceDistance / x.settings.verticalTraceStep
    · rw [if_pos hquotient, Nat.lt_succ_iff, Nat.le_floor_iff hquotient]
    · rw [if_neg hquotient]
      have hi : (0 : K) ≤ i := Nat.cast_nonneg i
      exact ⟨fun h => absurd h (by omega), fun h => absurd (le_trans hi h) hquotient⟩

/-- The vertical loop, with a finite count and without a first miss. -/
theorem verticalLoop_noMiss (hfinite : verticalTraceCount x v ≠ .infinity true)
    (hnone : ∀ m, ¬ FirstMiss x v m) :
    Returns (fun fuel => loop (verticalBody x v) fuel (verticalInit x v))
      (probing x v (probeCount x v)) := by
  have hcontinues : ∀ j < probeCount x v,
      verticalBody x v (probing x v j) = .inl (probing x v (j + 1)) := by
    intro j hj
    have hreach := (lt_probeCount hfinite).mp hj
    exact verticalBody_continues hreach (isSome_of_noMiss hnone hreach)
  have hexits : verticalBody x v (probing x v (probeCount x v)) =
      .inr (probing x v (probeCount x v)) := by
    have hcount : ¬ (verticalTraceCount x v).atLeast (probeCount x v) = true := by
      rw [← lt_probeCount hfinite]
      exact Nat.lt_irrefl _
    unfold verticalBody
    exact if_neg hcount
  have hreturns := returns_loop_of_states hcontinues hexits
  rw [probing_zero] at hreturns
  exact hreturns

end Vertical

/-! ## The whole search -/

/-- `Super::CommitCheck` passes and the character is valid. -/
structure Ready : Prop where
  superCommitCheck : x.superCommitCheck = true
  characterValid : x.characterValid = true

/-- The search reaches its vertical part, from the hit of layer `k`. -/
structure ReachesVertical (k : ℕ) (hit : FHitResult K) : Prop where
  ready : Ready x
  first : FirstLayer x k hit
  room : 0 ≤ room x k hit

/-- The results of the search, one constructor for each way it ends. -/
inductive Outcome [FloorRing K] : SearchResult K → Prop
  | refused (hrefused : ¬ Ready x) : Outcome ⟨⟨false, x.jumpToLocation, x.jumpOverLocation⟩, []⟩
  | noLayer {n : ℕ} (hready : Ready x) (hnone : ∀ k hit, ¬ FirstLayer x k hit)
      (hcount : n ≤ ⌈x.settings.horizontalTraceCount⌉₊)
      (hcovers : x.settings.horizontalTraceCount - 1 ≤ n) :
      Outcome ⟨⟨false, x.jumpToLocation, x.jumpOverLocation⟩, layers x n⟩
  | noRoom {k : ℕ} {hit : FHitResult K} (hready : Ready x) (hfirst : FirstLayer x k hit)
      (hroom : room x k hit < 0) :
      Outcome ⟨⟨false, hit.location, x.jumpOverLocation⟩, layers x (k + 2)⟩
  | noMiss {k : ℕ} {hit : FHitResult K} {v : VerticalStart K} {scan : VerticalScan K}
      (hreach : ReachesVertical x k hit) (hstart : v = verticalStart x k hit)
      (hfinite : verticalTraceCount x v ≠ .infinity true) (hnone : ∀ m, ¬ FirstMiss x v m)
      (hscan : scan = probing x v (probeCount x v)) :
      Outcome ⟨⟨false, scan.jumpToLocation, scan.jumpOverLocation⟩, scan.sweeps⟩
  | landed {k m : ℕ} {hit : FHitResult K} {v : VerticalStart K}
      (hreach : ReachesVertical x k hit) (hstart : v = verticalStart x k hit)
      (hmiss : FirstMiss x v m) :
      Outcome ⟨⟨true, landing x v, refined x (edge x v m)⟩,
        v.sweeps ++ probes x v (m + 1) ++ [refinement x (edge x v m)]⟩

section Search

variable {x} {k m : ℕ} {hit : FHitResult K}

omit [SquareRoot K] in
/-- There is one first layer at most. -/
theorem FirstLayer.unique {k' : ℕ} {hit' : FHitResult K} (h : FirstLayer x k hit)
    (h' : FirstLayer x k' hit') : k = k' ∧ hit = hit' := by
  have hk : k = k' := by
    rcases Nat.lt_trichotomy k k' with hless | heq | hless
    · have hmiss := h'.misses k hless
      rw [h.hits] at hmiss
      exact absurd hmiss (by simp)
    · exact heq
    · have hmiss := h.misses k' hless
      rw [h'.hits] at hmiss
      exact absurd hmiss (by simp)
  subst hk
  exact ⟨rfl, Option.some.inj (h.hits.symm.trans h'.hits)⟩

omit [SquareRoot K] in
/-- There is one first miss at most. -/
theorem FirstMiss.unique {v : VerticalStart K} {m' : ℕ} (h : FirstMiss x v m)
    (h' : FirstMiss x v m') : m = m' := by
  rcases Nat.lt_trichotomy m m' with hless | heq | hless
  · have hhit := h'.hits m h.pos hless
    rw [h.misses] at hhit
    exact absurd hhit (by simp)
  · exact heq
  · have hhit := h.hits m' h'.pos hless
    rw [h'.misses] at hhit
    exact absurd hhit (by simp)

/-- Without the checks of `Super::CommitCheck` and the character there is no sweep. -/
theorem searchForward_refused (hrefused : ¬ Ready x) (fuel : ℕ) :
    searchForward x fuel =
      some (.inl ⟨⟨false, x.jumpToLocation, x.jumpOverLocation⟩, []⟩) := by
  unfold searchForward
  cases hsuper : x.superCommitCheck with
  | false => rfl
  | true =>
    cases hvalid : x.characterValid with
    | false => rfl
    | true => exact absurd ⟨hsuper, hvalid⟩ hrefused

/-- Once the checks have passed, the first part is the loop over the layers and what follows it.
-/
theorem searchForward_ready (hready : Ready x) (fuel : ℕ) :
    searchForward x fuel =
      (loop (horizontalBody x) fuel (horizontalInit x)).map (afterHorizontal x) := by
  unfold searchForward
  rw [hready.superCommitCheck, hready.characterValid]
  rfl

/-- A search that was seen to reach its vertical part, or to stop before, does so. -/
theorem searchForward_returns {fuel : ℕ} {searched : SearchResult K ⊕ VerticalStart K}
    (h : searchForward x fuel = some searched) : Returns (searchForward x) searched := by
  by_cases hready : Ready x
  · rw [show searchForward x = _ from funext (searchForward_ready hready)] at h ⊢
    obtain ⟨s, hloop, rfl⟩ := Option.map_eq_some_iff.mp h
    exact (returns_loop hloop).map (afterHorizontal x)
  · refine ⟨0, fun fuel' _ => ?_⟩
    rw [searchForward_refused hready] at h ⊢
    exact h

/-- A search that was seen to give a result returns it. -/
theorem commitCheck_returns {fuel : ℕ} {r : SearchResult K} (h : commitCheck x fuel = some r) :
    Returns (commitCheck x) r := by
  obtain ⟨searched, hforward, hrest⟩ := Option.bind_eq_some_iff.mp h
  refine (searchForward_returns hforward).bind (g := fun _ _ => _) ?_
  cases searched with
  | inl result => exact ⟨0, fun _ _ => hrest⟩
  | inr v =>
    obtain ⟨s, hloop, rfl⟩ := Option.map_eq_some_iff.mp hrest
    exact (returns_loop hloop).map (afterVertical x)

omit [LinearOrder K] [SquareRoot K] in
/-- With a landing point the search passes, after one more sweep that refines it. -/
theorem afterVertical_set (s : VerticalScan K) (hset : s.jumpOverLocationSet = true) :
    afterVertical x s = ⟨⟨true, s.jumpToLocation, refined x s.jumpOverLocation⟩,
      s.sweeps ++ [refinement x s.jumpOverLocation]⟩ := by
  simp only [afterVertical, hset, Bool.not_true, Bool.false_eq_true, if_false, refined]
  cases trace x (refinement x s.jumpOverLocation) with
  | none => rfl
  | some hit => rfl

omit [LinearOrder K] [SquareRoot K] in
/-- Without a landing point the search fails. -/
theorem afterVertical_unset (s : VerticalScan K) (hset : s.jumpOverLocationSet = false) :
    afterVertical x s = ⟨⟨false, s.jumpToLocation, s.jumpOverLocation⟩, s.sweeps⟩ := by
  simp only [afterVertical, hset, Bool.not_false, if_true]

variable [IsStrictOrderedRing K]

/-- What follows the horizontal loop, with a first layer.  The counter is below the count,
so it is not lowered. -/
theorem afterHorizontal_firstLayer (h : FirstLayer x k hit) :
    afterHorizontal x { scanned x k hit with
        maxJumpDistance := available x k
        sweeps := layers x (k + 2) } =
      if room x k hit < 0 then
        .inl ⟨⟨false, hit.location, x.jumpOverLocation⟩, layers x (k + 2)⟩
      else .inr (verticalStart x k hit) := by
  have hidx : ¬ (k : ℤ) = -1 := by omega
  have hcount : ¬ ((k + 1 : ℕ) : K) = x.settings.horizontalTraceCount := by
    have hbelow := h.below
    push_cast
    intro heq
    linarith
  unfold afterHorizontal scanned
  simp only [if_neg hidx, if_neg hcount]
  rfl

/-- After a first layer the search goes on to the vertical part exactly if there is room. -/
theorem searchForward_firstLayer (hready : Ready x) (h : FirstLayer x k hit) :
    Returns (searchForward x) (if room x k hit < 0 then
        .inl ⟨⟨false, hit.location, x.jumpOverLocation⟩, layers x (k + 2)⟩
      else .inr (verticalStart x k hit)) := by
  have hforward := (horizontalLoop_firstLayer h).map (afterHorizontal x)
  rw [afterHorizontal_firstLayer h] at hforward
  rw [show searchForward x = _ from funext (searchForward_ready hready)]
  exact hforward

/-- A search that reaches the vertical part starts it from `verticalStart`. -/
theorem searchForward_reaches (hreach : ReachesVertical x k hit) :
    Returns (searchForward x) (.inr (verticalStart x k hit)) := by
  have hforward := searchForward_firstLayer hreach.ready hreach.first
  rw [if_neg (not_lt.mpr hreach.room)] at hforward
  exact hforward

omit [IsStrictOrderedRing K] in
/-- A search that stops before its vertical part. -/
theorem commitCheck_stops {r : SearchResult K} (hforward : Returns (searchForward x) (.inl r)) :
    Returns (commitCheck x) r :=
  hforward.bind (g := fun _ _ => _) (returns_some r)

/-- A search whose vertical loop returns. -/
theorem commitCheck_reaches (hreach : ReachesVertical x k hit) {s : VerticalScan K}
    (hloop : Returns (fun fuel => loop (verticalBody x (verticalStart x k hit)) fuel
      (verticalInit x (verticalStart x k hit))) s) :
    Returns (commitCheck x) (afterVertical x s) :=
  (searchForward_reaches hreach).bind (g := fun _ _ => _) (hloop.map (afterVertical x))

variable (x) in
/-- The count of the probes is infinite, and each of them hits but for the first one. -/
def Hangs : Prop :=
  ∃ k hit, ReachesVertical x k hit ∧
    verticalTraceCount x (verticalStart x k hit) = .infinity true ∧
    ∀ m, ¬ FirstMiss x (verticalStart x k hit) m

/-- A search that hangs does not return. -/
theorem commitCheck_hangs (h : Hangs x) : Diverges (commitCheck x) := by
  obtain ⟨k, hit, hreach, hinfinite, hnone⟩ := h
  apply Diverges.of_bind (b := .inr (verticalStart x k hit))
  · intro fuel searched hsearched
    exact (searchForward_returns hsearched).unique (searchForward_reaches hreach)
  · intro fuel
    have hloop := verticalLoop_hangs hinfinite hnone fuel
    simp only [searchDown, hloop, Option.map_none]

variable [FloorRing K]

/-- The search stops before its vertical part, or reaches it. -/
theorem searchForward_outcome :
    (∃ r, Returns (searchForward x) (.inl r) ∧ Outcome x r) ∨
      ∃ k hit, ReachesVertical x k hit := by
  by_cases hready : Ready x
  · by_cases hlayer : ∃ k hit, FirstLayer x k hit
    · obtain ⟨k, hit, hfirst⟩ := hlayer
      by_cases hroom : room x k hit < 0
      · have hforward := searchForward_firstLayer hready hfirst
        rw [if_pos hroom] at hforward
        exact Or.inl ⟨_, hforward, .noRoom hready hfirst hroom⟩
      · exact Or.inr ⟨k, hit, hready, hfirst, not_lt.mp hroom⟩
    · have hnone : ∀ k hit, ¬ FirstLayer x k hit :=
        fun k hit hfirst => hlayer ⟨k, hit, hfirst⟩
      obtain ⟨s, hloop, hidx, hlocation, n, hn, hcovers, hsweeps⟩ := horizontalLoop_noLayer hnone
      have hforward := hloop.map (afterHorizontal x)
      have hafter : afterHorizontal x s =
          .inl ⟨⟨false, x.jumpToLocation, x.jumpOverLocation⟩, layers x n⟩ := by
        simp only [afterHorizontal, if_pos hidx, hlocation, hsweeps]
      rw [hafter, ← show searchForward x = _ from funext (searchForward_ready hready)] at hforward
      exact Or.inl ⟨_, hforward, .noLayer hready hnone hn hcovers⟩
  · exact Or.inl ⟨_, ⟨0, fun fuel _ => searchForward_refused hready fuel⟩, .refused hready⟩

/-- **The search returns in one of five ways, or hangs.**
SOURCE: AG_VaultOverAbility.cpp:19-152 -/
theorem commitCheck_outcome :
    (∃ r, Returns (commitCheck x) r ∧ Outcome x r) ∨ Hangs x := by
  rcases searchForward_outcome (x := x) with ⟨r, hforward, houtcome⟩ | ⟨k, hit, hreach⟩
  · exact Or.inl ⟨r, commitCheck_stops hforward, houtcome⟩
  · by_cases hmiss : ∃ m, FirstMiss x (verticalStart x k hit) m
    · obtain ⟨m, hmiss⟩ := hmiss
      have hreturns := commitCheck_reaches hreach (verticalLoop_firstMiss hmiss)
      rw [afterVertical_set _ rfl] at hreturns
      exact Or.inl ⟨_, hreturns, .landed hreach rfl hmiss⟩
    · have hnone : ∀ m, ¬ FirstMiss x (verticalStart x k hit) m := not_exists.mp hmiss
      by_cases hinfinite : verticalTraceCount x (verticalStart x k hit) = .infinity true
      · exact Or.inr ⟨k, hit, hreach, hinfinite, hnone⟩
      · have hreturns := commitCheck_reaches hreach (verticalLoop_noMiss hinfinite hnone)
        rw [afterVertical_unset _ rfl] at hreturns
        exact Or.inl ⟨_, hreturns, .noMiss hreach rfl hinfinite hnone rfl⟩

/-- With a non-zero step the search does not hang. -/
theorem commitCheck_outcome_of_step (hstep : x.settings.verticalTraceStep ≠ 0) :
    ∃ r, Returns (commitCheck x) r ∧ Outcome x r := by
  rcases commitCheck_outcome (x := x) with h | ⟨k, hit, -, hinfinite, -⟩
  · exact h
  · rw [verticalTraceCount, FloatQuotient.div_of_ne_zero _ hstep] at hinfinite
    exact absurd hinfinite (by simp)

omit [IsStrictOrderedRing K] in
/-- A search without a first miss fails. -/
theorem Outcome.passed_of_noMiss {r : SearchResult K} (h : Outcome x r)
    (hnone : ∀ k hit m, ReachesVertical x k hit → ¬ FirstMiss x (verticalStart x k hit) m) :
    r.passed = false := by
  cases h with
  | refused hrefused => rfl
  | noLayer hready hnone hn hcovers => rfl
  | noRoom hready hfirst hroom => rfl
  | noMiss hreach hstart hfinite hnone hscan => rfl
  | landed hreach hstart hmiss =>
    subst hstart
    exact absurd hmiss (hnone _ _ _ hreach)

omit [IsStrictOrderedRing K] in
/-- A search with a first miss passes, with the landing and the refined edge. -/
theorem Outcome.commitResult_of_firstMiss {r : SearchResult K} (h : Outcome x r)
    (hreach : ReachesVertical x k hit) (hmiss : FirstMiss x (verticalStart x k hit) m) :
    r.toCommitResult = ⟨true, landing x (verticalStart x k hit),
      refined x (edge x (verticalStart x k hit) m)⟩ := by
  cases h with
  | refused hrefused => exact absurd hreach.ready hrefused
  | noLayer hready hnone hn hcovers => exact absurd hreach.first (hnone _ _)
  | noRoom hready hfirst hroom =>
    obtain ⟨rfl, rfl⟩ := hreach.first.unique hfirst
    exact absurd hroom (not_lt.mpr hreach.room)
  | noMiss hreach' hstart hfinite hnone hscan =>
    obtain ⟨rfl, rfl⟩ := hreach.first.unique hreach'.first
    subst hstart
    exact absurd hmiss (hnone _)
  | landed hreach' hstart hmiss' =>
    obtain ⟨rfl, rfl⟩ := hreach.first.unique hreach'.first
    subst hstart
    rw [hmiss.unique hmiss']

/-- Whatever the search returns is such a result. -/
theorem Outcome.of_returns {r : SearchResult K} (hr : Returns (commitCheck x) r) :
    Outcome x r := by
  rcases commitCheck_outcome (x := x) with ⟨r', hr', houtcome⟩ | hhangs
  · rw [hr.unique hr']
    exact houtcome
  · exact absurd (commitCheck_hangs hhangs) hr.not_diverges

end Search

end GasSamples.Analysis
