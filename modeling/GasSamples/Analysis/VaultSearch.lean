import GasSamples.Analysis.CommitCheck

/-!
# When the vault search passes, and when it ends

`CommitCheck` passes exactly if there is a first layer below the topmost one, room behind
it, and a probe that finds nothing within the room.  It returns whenever the step of the
vertical sweeps is not zero, with a number of sweeps bounded by the settings; with step
zero the count of the probes is a quotient by zero, and over solid ground the search
hangs.
-/

set_option autoImplicit false

namespace GasSamples.Analysis

open Reactive GasSamples.Model GasSamples.Program GasSamples.Program.CommitCheck

variable {K : Type} [Field K] [LinearOrder K] [SquareRoot K] (x : VaultSearch K)

/-- What makes the search pass: a first layer, room behind it, and a probe within the room
that finds nothing. -/
def Passable : Prop :=
  ∃ k hit, FirstLayer x k hit ∧ 0 ≤ room x k hit ∧
    ∃ m : ℕ, 1 ≤ m ∧ (m : K) ≤ room x k hit / x.settings.verticalTraceStep ∧
      trace x (probe x (verticalStart x k hit) m) = none

variable {x} {k m : ℕ} {hit : FHitResult K} {r : SearchResult K}

/-- The horizontal sweeps of a list do not go above a layer. -/
def LayersUpTo (bound : ℕ) (sweeps : List (Sweep K)) : Prop :=
  ∀ s ∈ sweeps, ∀ i, s.phase = .horizontal i → i ≤ bound

omit [LinearOrder K] [SquareRoot K] in
/-- The first layers stay within a bound on their number. -/
theorem layersUpTo_layers {n bound : ℕ} (hn : n ≤ bound + 1) :
    LayersUpTo bound (layers x n) := by
  intro s hs i hphase
  obtain ⟨j, hj, rfl⟩ := List.mem_map.mp hs
  rw [List.mem_range] at hj
  have heq : j = i := SweepPhase.horizontal.inj hphase
  omega

omit [LinearOrder K] [SquareRoot K] in
/-- The probes are no layers. -/
theorem layersUpTo_probes (v : VerticalStart K) (n bound : ℕ) :
    LayersUpTo bound (probes x v n) := by
  intro s hs i hphase
  obtain ⟨j, -, rfl⟩ := List.mem_map.mp hs
  exact absurd hphase (by simp [probe])

omit [Field K] [LinearOrder K] [SquareRoot K] in
/-- Two lists of sweeps within a bound. -/
theorem LayersUpTo.append {bound : ℕ} {ss ts : List (Sweep K)} (hs : LayersUpTo bound ss)
    (ht : LayersUpTo bound ts) : LayersUpTo bound (ss ++ ts) := by
  intro s hmem
  rcases List.mem_append.mp hmem with hmem | hmem
  · exact hs s hmem
  · exact ht s hmem

/-! ## The closed form -/

section ClosedForm

variable [FloorRing K]

/-- No search sweeps a layer more than one above the first one that is hit. -/
theorem Outcome.layersUpTo (h : Outcome x r) (hfirst : FirstLayer x k hit) :
    LayersUpTo (k + 1) r.sweeps := by
  cases h with
  | refused hrefused => exact fun s hs => absurd hs (by simp)
  | noLayer hready hnone hn hcovers => exact absurd hfirst (hnone k hit)
  | noRoom hready hfirst' hroom =>
    obtain ⟨rfl, rfl⟩ := hfirst'.unique hfirst
    exact layersUpTo_layers (Nat.le_refl _)
  | noMiss hreach hstart hfinite hnone hscan =>
    obtain ⟨rfl, rfl⟩ := hreach.first.unique hfirst
    subst hscan hstart
    exact (layersUpTo_layers (Nat.le_refl _)).append (layersUpTo_probes _ _ _)
  | landed hreach hstart hmiss =>
    obtain ⟨rfl, rfl⟩ := hreach.first.unique hfirst
    subst hstart
    refine ((layersUpTo_layers (Nat.le_refl _)).append (layersUpTo_probes _ _ _)).append ?_
    intro s hs i hphase
    rw [List.mem_singleton] at hs
    subst hs
    exact absurd hphase (by simp [refinement])

variable [IsStrictOrderedRing K]

omit [FloorRing K] in
/-- The search is passable if it reaches its vertical part and has a first miss there. -/
theorem passable_iff (hready : Ready x) (hstep : x.settings.verticalTraceStep ≠ 0) :
    Passable x ↔ ∃ k hit, ReachesVertical x k hit ∧
      ∃ m, FirstMiss x (verticalStart x k hit) m := by
  constructor
  · rintro ⟨k, hit, hfirst, hroom, m, hpos, hwithin, hmiss⟩
    refine ⟨k, hit, ⟨hready, hfirst, hroom⟩, exists_firstMiss hpos ?_ hmiss⟩
    rw [atLeast_verticalTraceCount hstep, decide_eq_true_eq]
    exact hwithin
  · rintro ⟨k, hit, hreach, m, hmiss⟩
    have hwithin := hmiss.reached
    rw [atLeast_verticalTraceCount hstep, decide_eq_true_eq] at hwithin
    exact ⟨k, hit, hreach.first, hreach.room, m, hmiss.pos, hwithin, hmiss.misses⟩

/-- A search passes exactly if there is something to land on. -/
theorem Outcome.passed_iff (hready : Ready x) (hstep : x.settings.verticalTraceStep ≠ 0)
    (h : Outcome x r) : r.passed = true ↔ Passable x := by
  rw [passable_iff hready hstep]
  constructor
  · intro hpassed
    by_contra hnone
    have hfailed := h.passed_of_noMiss fun k hit m hreach hmiss =>
      hnone ⟨k, hit, hreach, m, hmiss⟩
    rw [hpassed] at hfailed
    exact absurd hfailed (by simp)
  · rintro ⟨k, hit, hreach, m, hmiss⟩
    exact congrArg CommitResult.passed (h.commitResult_of_firstMiss hreach hmiss)

/-- **The closed form of the vault search.**  For every world, pose and setting with a
non-zero step of the vertical sweeps: when `Super::CommitCheck` passes and the character is
valid, the search returns; it passes exactly if some layer below the topmost one is the
first to be hit, there is room behind it and a probe within the room finds nothing; on
success `JumpToLocation` is the impact point of the first probe, or else the hit of that
layer; and no layer above the next one is swept.
SOURCE: AG_VaultOverAbility.cpp:19-152 -/
theorem commitCheck_closedForm (x : VaultSearch K) (hready : Ready x)
    (hstep : x.settings.verticalTraceStep ≠ 0) :
    ∃ r, Returns (commitCheck x) r ∧ (r.passed = true ↔ Passable x) ∧
      ∀ k hit, FirstLayer x k hit →
        (r.passed = true → r.jumpToLocation = landing x (verticalStart x k hit)) ∧
          LayersUpTo (k + 1) r.sweeps := by
  obtain ⟨r, hreturns, houtcome⟩ := commitCheck_outcome_of_step hstep
  refine ⟨r, hreturns, houtcome.passed_iff hready hstep, fun k hit hfirst => ⟨?_, ?_⟩⟩
  · intro hpassed
    obtain ⟨k', hit', hreach, m, hmiss⟩ :=
      (passable_iff hready hstep).mp ((houtcome.passed_iff hready hstep).mp hpassed)
    obtain ⟨rfl, rfl⟩ := hfirst.unique hreach.first
    exact congrArg CommitResult.jumpToLocation (houtcome.commitResult_of_firstMiss hreach hmiss)
  · exact houtcome.layersUpTo hfirst

end ClosedForm

/-- A search from the origin, along X. -/
def searchIn (settings : VaultTraceSettings ℚ) (world : SphereTrace ℚ) : VaultSearch ℚ where
  superCommitCheck := true
  characterValid := true
  settings := settings
  startLocation := ⟨0, 0, 0⟩
  forwardVector := ⟨1, 0, 0⟩
  upVector := ⟨0, 0, 1⟩
  world := world
  jumpToLocation := ⟨0, 0, 0⟩
  jumpOverLocation := ⟨0, 0, 0⟩

/-- A wall at 100, lower than the second layer, with a top that ends at 160. -/
def lowWall : SphereTrace ℚ := fun start stop _ =>
  if start.z = 0 ∧ start.x < stop.x then some ⟨⟨100, 0, 0⟩, ⟨100, 0, 0⟩, ⟨-1, 0, 0⟩⟩
  else if stop.z < start.z ∧ start.x ≤ 160 then some ⟨stop, ⟨start.x, 0, 0⟩, ⟨0, 0, 1⟩⟩
  else none

/-- The lowest layer hits the low wall. -/
theorem firstLayer_lowWall (settings : VaultTraceSettings ℚ)
    (hcount : 1 < settings.horizontalTraceCount)
    (hlength : 0 < settings.horizontalTraceLenght) :
    FirstLayer (searchIn settings lowWall) 0 ⟨⟨100, 0, 0⟩, ⟨100, 0, 0⟩, ⟨-1, 0, 0⟩⟩ where
  hits := by
    simp [trace, layer, searchIn, lowWall, hlength]
  misses := fun j hj => absurd hj (Nat.not_lt_zero j)
  below := by
    simp only [searchIn]
    push_cast
    linarith

/-- Over the low wall the search passes, with the top of the wall as the first target. -/
theorem commitCheck_lowWall : ∃ r, Returns (commitCheck (searchIn (.default ℚ) lowWall)) r ∧
    r.passed = true ∧ r.jumpToLocation = ⟨100, 0, 0⟩ := by
  have hfirst := firstLayer_lowWall (.default ℚ) (by decide +kernel) (by decide +kernel)
  obtain ⟨r, hreturns, hpassed, hform⟩ :=
    commitCheck_closedForm (searchIn (.default ℚ) lowWall) ⟨rfl, rfl⟩ (by decide +kernel)
  have hpasses : r.passed = true :=
    hpassed.mpr ⟨0, _, hfirst, by decide +kernel, 3, by decide, by decide +kernel,
      by decide +kernel⟩
  refine ⟨r, hreturns, hpasses, ?_⟩
  rw [(hform 0 _ hfirst).1 hpasses]
  decide +kernel

/-! ## Termination -/

section Termination

omit [LinearOrder K] [SquareRoot K] in
/-- The number of the first `n` layers. -/
theorem layers_length (n : ℕ) : (layers x n).length = n := by
  simp [layers]

omit [LinearOrder K] [SquareRoot K] in
/-- The number of the first `n` probes. -/
theorem probes_length (v : VerticalStart K) (n : ℕ) : (probes x v n).length = n := by
  simp [probes]

variable [IsStrictOrderedRing K]

variable [FloorRing K]

variable (x) in
/-- The number of probes that the settings allow after the first one; none if the vertical
part is not reached. -/
def probeBound (searched : SearchResult K ⊕ VerticalStart K) : ℤ :=
  Sum.elim (fun _ => 0)
    (fun v => ⌊max 0 (v.maxVerticalTraceDistance / x.settings.verticalTraceStep)⌋) searched

variable (x) in
/-- The search divides by a non-zero step only, it returns, and its sweeps are bounded by
the settings. -/
structure Terminates : Prop where
  divisor : ∀ v, Returns (searchForward x) (.inr v) → x.settings.verticalTraceStep ≠ 0
  returns : ∃ searched r, Returns (searchForward x) searched ∧ Returns (commitCheck x) r ∧
    (r.sweeps.length : ℤ) ≤ max 0 ⌈x.settings.horizontalTraceCount⌉ + probeBound x searched + 2

omit [SquareRoot K] in
/-- The layers up to the one above the first hit are within the count. -/
theorem FirstLayer.add_two_le (h : FirstLayer x k hit) :
    ((k + 2 : ℕ) : ℤ) ≤ ⌈x.settings.horizontalTraceCount⌉ := by
  have hbelow := h.below
  have hlt : (((k + 1 : ℕ) : ℤ) : K) < x.settings.horizontalTraceCount := by
    push_cast
    linarith
  have hceil := Int.lt_ceil.mpr hlt
  push_cast at hceil ⊢
  omega

omit [SquareRoot K] [IsStrictOrderedRing K] in
/-- A probe within the count is within the bound. -/
theorem le_probeBound (hstep : x.settings.verticalTraceStep ≠ 0) {v : VerticalStart K}
    (hreach : (verticalTraceCount x v).atLeast m = true) : (m : ℤ) ≤ probeBound x (.inr v) := by
  rw [atLeast_verticalTraceCount hstep, decide_eq_true_eq] at hreach
  apply Int.le_floor.mpr
  rw [Int.cast_natCast]
  exact le_trans hreach (le_max_right _ _)

omit [SquareRoot K] in
/-- The probes are at most one more than the bound on them. -/
theorem probeCount_le (hstep : x.settings.verticalTraceStep ≠ 0) {v : VerticalStart K}
    (hfinite : verticalTraceCount x v ≠ .infinity true) :
    (probeCount x v : ℤ) ≤ probeBound x (.inr v) + 1 := by
  have hnonneg : 0 ≤ probeBound x (.inr v) := Int.floor_nonneg.mpr (le_max_left _ _)
  rcases Nat.eq_zero_or_pos (probeCount x v) with hzero | hpos
  · rw [hzero]
    push_cast
    omega
  · have hlast : probeCount x v - 1 < probeCount x v := by omega
    have hle := le_probeBound hstep ((lt_probeCount hfinite).mp hlast)
    omega

/-- A search that gets to the vertical part sweeps its layers, its probes and the refinement at
most. -/
theorem Outcome.length_le_of_reaches (hstep : x.settings.verticalTraceStep ≠ 0)
    (h : Outcome x r) (hreach : ReachesVertical x k hit) :
    (r.sweeps.length : ℤ) ≤ max 0 ⌈x.settings.horizontalTraceCount⌉ +
      probeBound x (.inr (verticalStart x k hit)) + 2 := by
  have hlayers := hreach.first.add_two_le
  have hmax : ⌈x.settings.horizontalTraceCount⌉ ≤ max 0 ⌈x.settings.horizontalTraceCount⌉ :=
    le_max_right _ _
  have hnonneg : 0 ≤ probeBound x (.inr (verticalStart x k hit)) :=
    Int.floor_nonneg.mpr (le_max_left _ _)
  cases h with
  | refused hrefused => exact absurd hreach.ready hrefused
  | noLayer hready hnone hn hcovers => exact absurd hreach.first (hnone k hit)
  | noRoom hready hfirst hroom =>
    obtain ⟨rfl, rfl⟩ := hreach.first.unique hfirst
    rw [layers_length]
    omega
  | noMiss hreach' hstart hfinite hnone hscan =>
    obtain ⟨rfl, rfl⟩ := hreach.first.unique hreach'.first
    subst hscan hstart
    have hprobes := probeCount_le hstep hfinite
    have hlength : (verticalStart x k hit).sweeps.length = k + 2 := layers_length _
    simp only [probing, List.length_append, probes_length, hlength]
    push_cast at hlayers ⊢
    omega
  | landed hreach' hstart hmiss =>
    obtain ⟨rfl, rfl⟩ := hreach.first.unique hreach'.first
    subst hstart
    have hprobes := le_probeBound hstep hmiss.reached
    have hlength : (verticalStart x k hit).sweeps.length = k + 2 := layers_length _
    simp only [List.length_append, List.length_singleton, probes_length, hlength]
    push_cast at hlayers ⊢
    omega

/-- A search that does not get to the vertical part sweeps its layers at most. -/
theorem Outcome.length_le_of_stops (h : Outcome x r) (hnever : ∀ k hit, ¬ ReachesVertical x k hit) :
    (r.sweeps.length : ℤ) ≤ max 0 ⌈x.settings.horizontalTraceCount⌉ := by
  have hmax : ⌈x.settings.horizontalTraceCount⌉ ≤ max 0 ⌈x.settings.horizontalTraceCount⌉ :=
    le_max_right _ _
  cases h with
  | refused hrefused => exact le_max_left _ _
  | noLayer hready hnone hn hcovers =>
    rw [← Int.ceil_toNat] at hn
    rw [layers_length]
    omega
  | noRoom hready hfirst hroom =>
    have hlayers := hfirst.add_two_le
    rw [layers_length]
    omega
  | noMiss hreach hstart hfinite hnone hscan => exact absurd hreach (hnever _ _)
  | landed hreach hstart hmiss => exact absurd hreach (hnever _ _)

/-- **The vault search terminates exactly if it does not divide by zero.**  For every world,
pose and setting: the quotient is computed with a non-zero step only, the search returns and
its sweeps are bounded by the settings, if and only if the step of the vertical sweeps is
not zero or the search does not reach its vertical part.
SOURCE: AG_VaultOverAbility.cpp:54-143 -/
theorem terminates_iff (x : VaultSearch K) :
    Terminates x ↔
      x.settings.verticalTraceStep ≠ 0 ∨ ∀ k hit, ¬ ReachesVertical x k hit := by
  constructor
  · intro h
    by_cases hreach : ∃ k hit, ReachesVertical x k hit
    · obtain ⟨k, hit, hreach⟩ := hreach
      exact Or.inl (h.divisor _ (searchForward_reaches hreach))
    · exact Or.inr fun k hit hreach' => hreach ⟨k, hit, hreach'⟩
  · intro hstep
    rcases searchForward_outcome (x := x) with ⟨r, hforward, houtcome⟩ | ⟨k, hit, hreach⟩
    · have hnever : ∀ k hit, ¬ ReachesVertical x k hit := by
        intro k hit hreach
        exact absurd (hforward.unique (searchForward_reaches hreach)) (by simp)
      refine ⟨fun v hv => absurd (hforward.unique hv) (by simp), _, r, hforward,
        commitCheck_stops hforward, ?_⟩
      have hlength := houtcome.length_le_of_stops hnever
      have hbound : probeBound x (.inl r) = 0 := rfl
      omega
    · have hne := hstep.resolve_right fun hnever => hnever k hit hreach
      obtain ⟨r, hreturns, houtcome⟩ := commitCheck_outcome_of_step hne
      exact ⟨fun _ _ => hne, _, r, searchForward_reaches hreach, hreturns,
        houtcome.length_le_of_reaches hne hreach⟩

end Termination

/-- With the default settings the search at the low wall terminates. -/
theorem terminates_lowWall : Terminates (searchIn (.default ℚ) lowWall) :=
  (terminates_iff (searchIn (.default ℚ) lowWall)).mpr (Or.inl (by decide +kernel))

/-- The default settings, with step zero for the vertical sweeps. -/
def stepZero : VaultTraceSettings ℚ := { VaultTraceSettings.default ℚ with verticalTraceStep := 0 }

/-- With step zero the search divides by zero at the low wall, and hangs. -/
theorem not_terminates_stepZero : ¬ Terminates (searchIn stepZero lowWall) ∧
    Diverges (commitCheck (searchIn stepZero lowWall)) := by
  have hreach : ReachesVertical (searchIn stepZero lowWall) 0
      ⟨⟨100, 0, 0⟩, ⟨100, 0, 0⟩, ⟨-1, 0, 0⟩⟩ :=
    ⟨⟨rfl, rfl⟩, firstLayer_lowWall stepZero (by decide +kernel) (by decide +kernel),
      by decide +kernel⟩
  refine ⟨fun h => h.divisor _ (searchForward_reaches hreach) rfl, ?_⟩
  refine commitCheck_hangs ⟨0, _, hreach, by decide +kernel, fun m hmiss => ?_⟩
  -- every probe is the first one again
  have hzero : ∀ a : FVector ℚ, (0 : ℚ) • a = ⟨0, 0, 0⟩ := by
    intro a
    ext <;> simp
  have hsame : ∀ v, trace (searchIn stepZero lowWall) (probe (searchIn stepZero lowWall) v m) =
      trace (searchIn stepZero lowWall) (probe (searchIn stepZero lowWall) v 0) := by
    intro v
    simp only [trace, probe, searchIn, stepZero, hzero]
  have hnone := hmiss.misses
  rw [hsame] at hnone
  exact absurd hnone (by decide +kernel)

end GasSamples.Analysis
