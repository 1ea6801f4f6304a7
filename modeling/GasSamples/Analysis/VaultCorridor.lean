import GasSamples.Analysis.VaultSearch

/-!
# The vertical sweeps and the corridor that was found clear

For an upright character whose hits lie on the segments that were swept, the first layer
is hit at a forward distance `D` and the layer above is clear up to `M`.  The length and
the count of the vertical sweeps are rebuilt from these hits by an absolute difference of
heights and a difference of planar distances; they come out so that every probe starts on
the clear part of the layer above and goes down to the height of the layer that was hit.
-/

set_option autoImplicit false

namespace GasSamples.Analysis

open Reactive GasSamples.Model GasSamples.Program GasSamples.Program.CommitCheck

variable {K : Type} [Field K] [LinearOrder K]

/-- The character stands upright and faces along a unit vector of the plane. -/
structure UprightSearch (x : VaultSearch K) : Prop where
  upVector : x.upVector = ⟨0, 0, 1⟩
  horizontal : x.forwardVector.z = 0
  unit : x.forwardVector.x * x.forwardVector.x + x.forwardVector.y * x.forwardVector.y = 1

/-- The location of every hit is on the segment that was swept. -/
def HitsOnSegment (world : SphereTrace K) : Prop :=
  ∀ start stop radius hit, world start stop radius = some hit →
    ∃ t : K, 0 ≤ t ∧ t ≤ 1 ∧ hit.location = (1 - t) • start + t • stop

/-- Layer `k` is hit at the forward distance `D`, and the layer above is clear up to `M`: up
to its own hit, or up to its end. -/
structure Corridor (x : VaultSearch K) (k : ℕ) (hit : FHitResult K) (D M : K) : Prop where
  location : hit.location = (layer x k).start + D • x.forwardVector
  nonneg : 0 ≤ D
  obstructed : ∀ hit', trace x (layer x (k + 1)) = some hit' →
    hit'.location = (layer x (k + 1)).start + M • x.forwardVector
  unobstructed : trace x (layer x (k + 1)) = none → M = x.settings.horizontalTraceLenght
  available_nonneg : 0 ≤ M
  available_le : M ≤ x.settings.horizontalTraceLenght

/-- The point at some height over the character and some distance ahead of it. -/
def pointAt (x : VaultSearch K) (height distance : K) : FVector K :=
  x.startLocation + height • x.upVector + distance • x.forwardVector

variable {x : VaultSearch K} {k i : ℕ} {hit : FHitResult K} {D M : K}

/-- A hit of a layer is at some distance ahead of its start, within its length. -/
theorem exists_distance (hsegment : HitsOnSegment x.world)
    (hlength : 0 ≤ x.settings.horizontalTraceLenght) [IsStrictOrderedRing K]
    (hhit : trace x (layer x i) = some hit) :
    ∃ d, 0 ≤ d ∧ d ≤ x.settings.horizontalTraceLenght ∧
      hit.location = (layer x i).start + d • x.forwardVector := by
  obtain ⟨t, hzero, hone, hlocation⟩ := hsegment _ _ _ _ hhit
  refine ⟨t * x.settings.horizontalTraceLenght, mul_nonneg hzero hlength,
    mul_le_of_le_one_left hlength hone, ?_⟩
  rw [hlocation]
  ext <;> simp [layer] <;> ring

variable [SquareRoot K]

/-- The planar distance to a point that is `d` ahead, at whatever height. -/
theorem dist2D_ahead (hpose : UprightSearch x) {a b : FVector K} {d : K} (hd : 0 ≤ d)
    (hx : b.x = a.x + d * x.forwardVector.x) (hy : b.y = a.y + d * x.forwardVector.y) :
    FVector.dist2D a b = d ∧ FVector.dist2D b a = d := by
  have hsquare : d * d = d * d * (x.forwardVector.x * x.forwardVector.x +
      x.forwardVector.y * x.forwardVector.y) := by
    rw [hpose.unit, mul_one]
  unfold FVector.dist2D
  constructor
  · rw [show (b.x - a.x) * (b.x - a.x) + (b.y - a.y) * (b.y - a.y) = d * d by
      rw [hx, hy, hsquare]; ring]
    exact SquareRoot.sqrt_mul_self d hd
  · rw [show (a.x - b.x) * (a.x - b.x) + (a.y - b.y) * (a.y - b.y) = d * d by
      rw [hx, hy, hsquare]; ring]
    exact SquareRoot.sqrt_mul_self d hd

variable [IsStrictOrderedRing K]

omit [SquareRoot K] in
/-- A first layer spans a corridor. -/
theorem exists_corridor (hsegment : HitsOnSegment x.world)
    (hlength : 0 ≤ x.settings.horizontalTraceLenght) (hfirst : FirstLayer x k hit) :
    ∃ D M, Corridor x k hit D M := by
  obtain ⟨D, hD, -, hlocation⟩ := exists_distance hsegment hlength hfirst.hits
  cases habove : trace x (layer x (k + 1)) with
  | none =>
    refine ⟨D, x.settings.horizontalTraceLenght, hlocation, hD, fun hit' hhit' => ?_,
      fun _ => rfl, hlength, le_refl _⟩
    rw [habove] at hhit'
    exact absurd hhit' (by simp)
  | some hit' =>
    obtain ⟨M, hM, hle, hlocation'⟩ := exists_distance hsegment hlength habove
    refine ⟨D, M, hlocation, hD, fun hit₁ hhit₁ => ?_, fun hnone => ?_, hM, hle⟩
    · rw [habove] at hhit₁
      obtain rfl := Option.some.inj hhit₁
      exact hlocation'
    · rw [habove] at hnone
      exact absurd hnone (by simp)

section InCorridor

variable (hpose : UprightSearch x) (hc : Corridor x k hit D M)
include hpose hc

omit [IsStrictOrderedRing K] in
/-- The layer above is available up to `M`. -/
theorem Corridor.available_eq : available x k = M := by
  unfold available
  cases habove : trace x (layer x (k + 1)) with
  | none => exact (hc.unobstructed habove).symm
  | some hit' =>
    have hlocation := hc.obstructed hit' habove
    refine (dist2D_ahead hpose hc.available_nonneg ?_ ?_).2
    · rw [hlocation]
      rfl
    · rw [hlocation]
      rfl

omit [IsStrictOrderedRing K] in
/-- `MaxVerticalTraceDistance` is what is left from the first hit on. -/
theorem Corridor.room_eq : room x k hit = M - D := by
  have hdistance : FVector.dist2D x.startLocation hit.location = D := by
    refine (dist2D_ahead hpose hc.nonneg ?_ ?_).1
    · rw [hc.location]
      simp [layer, hpose.upVector]
    · rw [hc.location]
      simp [layer, hpose.upVector]
  rw [room, hc.available_eq hpose, hdistance]

/-- `VerticalTraceLength` is the height of one layer. -/
theorem Corridor.verticalTraceLength_eq (hheight : 0 ≤ x.settings.horizontalTraceStep) :
    (verticalStart x k hit).verticalTraceLength = x.settings.horizontalTraceStep := by
  have hdifference : hit.location.z - (layer x (k + 1)).start.z =
      -x.settings.horizontalTraceStep := by
    rw [hc.location]
    simp [layer, hpose.upVector, hpose.horizontal]
    ring
  show |hit.location.z - (layer x (k + 1)).start.z| = x.settings.horizontalTraceStep
  rw [hdifference, abs_neg, abs_of_nonneg hheight]

/-- A probe starts on the layer above and goes down to the layer that was hit. -/
theorem Corridor.probe_eq (hheight : 0 ≤ x.settings.horizontalTraceStep) :
    (probe x (verticalStart x k hit) i).start =
        pointAt x (((k + 1 : ℕ) : K) * x.settings.horizontalTraceStep)
          (D + (i : K) * x.settings.verticalTraceStep) ∧
      (probe x (verticalStart x k hit) i).stop =
        pointAt x ((k : K) * x.settings.horizontalTraceStep)
          (D + (i : K) * x.settings.verticalTraceStep) := by
  have htall := hc.verticalTraceLength_eq hpose hheight
  have hfrom : (verticalStart x k hit).jumpToLocation = (layer x k).start + D • x.forwardVector :=
    hc.location
  constructor
  · simp only [probe, htall, hfrom, layer, pointAt]
    ext <;> simp <;> ring
  · simp only [probe, htall, hfrom, layer, pointAt]
    ext <;> simp <;> ring

/-- A probe within the count is within the corridor. -/
theorem Corridor.probe_within (hreach : ReachesVertical x k hit)
    (hstep : x.settings.verticalTraceStep ≠ 0)
    (hcount : (verticalTraceCount x (verticalStart x k hit)).atLeast i = true) :
    D ≤ D + (i : K) * x.settings.verticalTraceStep ∧
      D + (i : K) * x.settings.verticalTraceStep ≤ M := by
  have hroom : 0 ≤ M - D := by
    rw [← hc.room_eq hpose]
    exact hreach.room
  rw [atLeast_verticalTraceCount hstep, decide_eq_true_eq] at hcount
  have hwithin : (i : K) ≤ (M - D) / x.settings.verticalTraceStep := by
    rw [← hc.room_eq hpose]
    exact hcount
  rcases lt_or_gt_of_ne hstep with hneg | hpos
  · -- with a negative step only the first probe is within the count
    have hquotient : (M - D) / x.settings.verticalTraceStep ≤ 0 :=
      div_nonpos_of_nonneg_of_nonpos hroom (le_of_lt hneg)
    have hzero : (i : K) = 0 := le_antisymm (le_trans hwithin hquotient) (Nat.cast_nonneg i)
    rw [hzero, zero_mul, add_zero]
    exact ⟨le_refl D, by linarith⟩
  · have hforward : 0 ≤ (i : K) * x.settings.verticalTraceStep :=
      mul_nonneg (Nat.cast_nonneg i) (le_of_lt hpos)
    have hmul : (i : K) * x.settings.verticalTraceStep ≤ M - D := (le_div_iff₀ hpos).mp hwithin
    exact ⟨by linarith, by linarith⟩

end InCorridor

omit [LinearOrder K] [SquareRoot K] [IsStrictOrderedRing K] in
/-- No layer is a vertical sweep. -/
theorem not_vertical_of_mem_layers {s : Sweep K} {n : ℕ} (hs : s ∈ layers x n)
    (hphase : s.phase = .vertical i) : False := by
  obtain ⟨j, -, rfl⟩ := List.mem_map.mp hs
  exact absurd hphase (by simp [layer])

omit [LinearOrder K] [SquareRoot K] [IsStrictOrderedRing K] in
/-- A vertical sweep among the probes is the probe of its index. -/
theorem eq_probe_of_mem_probes {s : Sweep K} {v : VerticalStart K} {n : ℕ}
    (hs : s ∈ probes x v n) (hphase : s.phase = .vertical i) : s = probe x v i ∧ i < n := by
  obtain ⟨j, hj, rfl⟩ := List.mem_map.mp hs
  obtain rfl := SweepPhase.vertical.inj hphase
  exact ⟨rfl, List.mem_range.mp hj⟩

variable [FloorRing K]

/-- The vertical sweeps of a search are its probes within the count. -/
theorem Outcome.eq_probe {r : SearchResult K} (h : Outcome x r) (hreach : ReachesVertical x k hit)
    {s : Sweep K} (hs : s ∈ r.sweeps) (hphase : s.phase = .vertical i) :
    s = probe x (verticalStart x k hit) i ∧
      (verticalTraceCount x (verticalStart x k hit)).atLeast i = true := by
  cases h with
  | refused hrefused => exact absurd hs (by simp)
  | noLayer hready hnone hn hcovers => exact (not_vertical_of_mem_layers hs hphase).elim
  | noRoom hready hfirst hroom => exact (not_vertical_of_mem_layers hs hphase).elim
  | noMiss hreach' hstart hfinite hnone hscan =>
    obtain ⟨rfl, rfl⟩ := hreach.first.unique hreach'.first
    subst hscan hstart
    rcases List.mem_append.mp hs with hs | hs
    · exact (not_vertical_of_mem_layers hs hphase).elim
    · obtain ⟨heq, hi⟩ := eq_probe_of_mem_probes hs hphase
      exact ⟨heq, (lt_probeCount hfinite).mp hi⟩
  | landed hreach' hstart hmiss =>
    obtain ⟨rfl, rfl⟩ := hreach.first.unique hreach'.first
    subst hstart
    rcases List.mem_append.mp hs with hs | hs
    · rcases List.mem_append.mp hs with hs | hs
      · exact (not_vertical_of_mem_layers hs hphase).elim
      · obtain ⟨heq, hi⟩ := eq_probe_of_mem_probes hs hphase
        exact ⟨heq, atLeast_of_le hmiss.reached (by omega)⟩
    · rw [List.mem_singleton] at hs
      subst hs
      exact absurd hphase (by simp [refinement])

/-- **The probes stay in the corridor that was swept clear.**  For every world whose hits
lie on the segments swept, every upright pose and every setting with a non-negative length
and step of the layers and a non-zero step of the vertical sweeps: when the search reaches
its vertical part with the first layer `k` hit at the forward distance `D` and the layer
above clear up to `M`, every vertical sweep goes from the layer above straight down to layer
`k`, at a forward distance between `D` and `M`.
SOURCE: AG_VaultOverAbility.cpp:54-131 -/
theorem probes_inCorridor (x : VaultSearch K) (hpose : UprightSearch x)
    (hlength : 0 ≤ x.settings.horizontalTraceLenght)
    (hheight : 0 ≤ x.settings.horizontalTraceStep) (hstep : x.settings.verticalTraceStep ≠ 0)
    (hsegment : HitsOnSegment x.world) (k : ℕ) (hit : FHitResult K)
    (hreach : ReachesVertical x k hit) :
    ∃ D M, Corridor x k hit D M ∧ ∃ r, Returns (commitCheck x) r ∧
      ∀ s ∈ r.sweeps, ∀ i, s.phase = .vertical i →
        s.start = pointAt x (((k + 1 : ℕ) : K) * x.settings.horizontalTraceStep)
            (D + (i : K) * x.settings.verticalTraceStep) ∧
          s.stop = pointAt x ((k : K) * x.settings.horizontalTraceStep)
            (D + (i : K) * x.settings.verticalTraceStep) ∧
          D ≤ D + (i : K) * x.settings.verticalTraceStep ∧
          D + (i : K) * x.settings.verticalTraceStep ≤ M ∧
          M ≤ x.settings.horizontalTraceLenght := by
  obtain ⟨D, M, hc⟩ := exists_corridor hsegment hlength hreach.first
  obtain ⟨r, hr, houtcome⟩ := commitCheck_outcome_of_step hstep
  refine ⟨D, M, hc, r, hr, fun s hs i hphase => ?_⟩
  obtain ⟨rfl, hcount⟩ := houtcome.eq_probe hreach hs hphase
  obtain ⟨hstart, hstop⟩ := hc.probe_eq (i := i) hpose hheight
  obtain ⟨hfrom, hto⟩ := hc.probe_within hpose hreach hstep hcount
  exact ⟨hstart, hstop, hfrom, hto, hc.available_le⟩

/-- A world that blocks every sweep at the height of the character after a fifth. -/
def fifthBlocked : SphereTrace ℚ := fun start stop _ =>
  if start.z = 0 then
    some ⟨(1 - 1 / 5 : ℚ) • start + (1 / 5 : ℚ) • stop, stop, ⟨-1, 0, 0⟩⟩
  else none

/-- Behind an obstacle that is 100 ahead, the probes stay between 100 and 500. -/
theorem probes_inCorridor_fifthBlocked :
    ∃ r, Returns (commitCheck (searchIn (.default ℚ) fifthBlocked)) r ∧
      ∀ s ∈ r.sweeps, ∀ i, s.phase = .vertical i → 100 ≤ s.start.x ∧ s.start.x ≤ 500 := by
  have hfirst : FirstLayer (searchIn (.default ℚ) fifthBlocked) 0
      ⟨⟨100, 0, 0⟩, ⟨500, 0, 0⟩, ⟨-1, 0, 0⟩⟩ :=
    ⟨by decide +kernel, fun j hj => absurd hj (Nat.not_lt_zero j), by decide +kernel⟩
  have hsegment : HitsOnSegment (searchIn (.default ℚ) fifthBlocked).world := by
    intro start stop radius hit hhit
    simp only [searchIn, fifthBlocked] at hhit
    split at hhit
    · obtain rfl := Option.some.inj hhit
      exact ⟨1 / 5, by norm_num, by norm_num, rfl⟩
    · exact absurd hhit (by simp)
  obtain ⟨D, M, hc, r, hr, hprobes⟩ := probes_inCorridor (searchIn (.default ℚ) fifthBlocked)
    ⟨rfl, rfl, by decide +kernel⟩ (by decide +kernel) (by decide +kernel) (by decide +kernel)
    hsegment 0 _ ⟨⟨rfl, rfl⟩, hfirst, by decide +kernel⟩
  refine ⟨r, hr, fun s hs i hphase => ?_⟩
  obtain ⟨hstart, -, hfrom, hto, hle⟩ := hprobes s hs i hphase
  have hdistance : (100 : ℚ) = D := by
    have hx := congrArg FVector.x hc.location
    simpa [layer, searchIn] using hx
  have hlength : (searchIn (.default ℚ) fifthBlocked).settings.horizontalTraceLenght = 500 := by
    decide +kernel
  have hx : s.start.x =
      D + (i : ℚ) * (searchIn (.default ℚ) fifthBlocked).settings.verticalTraceStep := by
    rw [hstart]
    simp [pointAt, searchIn]
  rw [hlength] at hle
  rw [hx]
  exact ⟨by linarith, by linarith⟩

end GasSamples.Analysis
