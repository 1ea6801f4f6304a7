import GasSamples.Analysis.VaultCorridor
import GasSamples.Analysis.VaultTargets

/-!
# Where a vault may take the character

The two targets of a vault are impact points of sweeps.  A sweep stays in the corridor
over the first layer that is hit, and a sphere touches what it hits, so the targets are
in the corridor up to the radius of the sweeps, upwards, ahead and to the side; the second
target is found by a sweep that starts from an impact point, which costs the radius once more.
-/

set_option autoImplicit false

namespace GasSamples.Analysis

open Reactive GasSamples.Model GasSamples.Program GasSamples.Program.CommitCheck

variable {K : Type} [Field K] [LinearOrder K]

/-- How far a point is over the character. -/
def heightOf (x : VaultSearch K) (p : FVector K) : K := p.z + -x.startLocation.z

/-- How far a point is ahead of the character. -/
def aheadOf (x : VaultSearch K) (p : FVector K) : K :=
  FVector.dotProduct x.forwardVector (p + -x.startLocation)

/-- How far a point is to the side of the line that the character faces along. -/
def asideOf (x : VaultSearch K) (p : FVector K) : K :=
  x.forwardVector.x * (p.y + -x.startLocation.y) - x.forwardVector.y * (p.x + -x.startLocation.x)

/-- The point is at heights from `low` to `high`, ahead by `near` to `far`, and to either side
by at most `wide`. -/
structure Within (x : VaultSearch K) (low high near far wide : K) (p : FVector K) : Prop where
  low_le : low ≤ heightOf x p
  le_high : heightOf x p ≤ high
  near_le : near ≤ aheadOf x p
  le_far : aheadOf x p ≤ far
  aside_le : |asideOf x p| ≤ wide

/-- The location of every hit is on the segment that was swept, and the sphere there touches
the impact point. -/
structure TouchesWhatItHits (world : SphereTrace K) : Prop where
  onSegment : HitsOnSegment world
  touches : ∀ start stop radius hit, world start stop radius = some hit →
    FVector.dotProduct (hit.impactPoint + -hit.location) (hit.impactPoint + -hit.location) ≤
      radius * radius

section Points

variable [IsStrictOrderedRing K] {x : VaultSearch K} {low high near far wide : K}
  {p q : FVector K}

omit [LinearOrder K] [IsStrictOrderedRing K] in
/-- A point of the corridor is at its height. -/
theorem heightOf_pointAt (hpose : UprightSearch x) (height distance : K) :
    heightOf x (pointAt x height distance) = height := by
  simp [heightOf, pointAt, hpose.upVector, hpose.horizontal]

/-- A point of the corridor is ahead by its distance. -/
theorem aheadOf_pointAt (hpose : UprightSearch x) (height distance : K) :
    aheadOf x (pointAt x height distance) = distance := by
  have hunit := hpose.unit
  simp only [aheadOf, pointAt, FVector.dotProduct, hpose.upVector, hpose.horizontal,
    FVector.add_x, FVector.add_y, FVector.smul_x, FVector.smul_y, FVector.neg_x, FVector.neg_y]
  linear_combination distance * hunit

omit [LinearOrder K] [IsStrictOrderedRing K] in
/-- A point of the corridor is on the line ahead. -/
theorem asideOf_pointAt (hpose : UprightSearch x) (height distance : K) :
    asideOf x (pointAt x height distance) = 0 := by
  simp only [asideOf, pointAt, hpose.upVector, FVector.add_x, FVector.add_y, FVector.smul_x,
    FVector.smul_y]
  ring

/-- Where a point of the corridor is. -/
theorem within_pointAt (hpose : UprightSearch x) {height distance : K} (hlow : low ≤ height)
    (hhigh : height ≤ high) (hnear : near ≤ distance) (hfar : distance ≤ far) (hwide : 0 ≤ wide) :
    Within x low high near far wide (pointAt x height distance) := by
  constructor
  · rwa [heightOf_pointAt hpose]
  · rwa [heightOf_pointAt hpose]
  · rwa [aheadOf_pointAt hpose]
  · rwa [aheadOf_pointAt hpose]
  · rwa [asideOf_pointAt hpose, abs_zero]

omit [IsStrictOrderedRing K] in
/-- A point is within wider bounds too. -/
theorem Within.mono {low' high' near' far' wide' : K} (h : Within x low high near far wide p)
    (hlow : low' ≤ low) (hhigh : high ≤ high') (hnear : near' ≤ near) (hfar : far ≤ far')
    (hwide : wide ≤ wide') : Within x low' high' near' far' wide' p :=
  ⟨le_trans hlow h.low_le, le_trans h.le_high hhigh, le_trans hnear h.near_le,
    le_trans h.le_far hfar, le_trans h.aside_le hwide⟩

/-- A point of a segment is between its ends. -/
theorem Within.segment (hp : Within x low high near far wide p)
    (hq : Within x low high near far wide q) {t : K} (hzero : 0 ≤ t) (hone : t ≤ 1) :
    Within x low high near far wide ((1 - t) • p + t • q) := by
  have hheight : heightOf x ((1 - t) • p + t • q) = (1 - t) * heightOf x p + t * heightOf x q := by
    simp only [heightOf, FVector.add_z, FVector.smul_z]
    ring
  have hahead : aheadOf x ((1 - t) • p + t • q) = (1 - t) * aheadOf x p + t * aheadOf x q := by
    simp only [aheadOf, FVector.dotProduct, FVector.add_x, FVector.add_y, FVector.add_z,
      FVector.smul_x, FVector.smul_y, FVector.smul_z, FVector.neg_x, FVector.neg_y, FVector.neg_z]
    ring
  have haside : asideOf x ((1 - t) • p + t • q) = (1 - t) * asideOf x p + t * asideOf x q := by
    simp only [asideOf, FVector.add_x, FVector.add_y, FVector.smul_x, FVector.smul_y]
    ring
  have hbetween : ∀ {a b l h : K}, l ≤ a → a ≤ h → l ≤ b → b ≤ h →
      l ≤ (1 - t) * a + t * b ∧ (1 - t) * a + t * b ≤ h := by
    intro a b l h hla hah hlb hbh
    have hrest : 0 ≤ 1 - t := by linarith
    constructor
    · have ha := mul_le_mul_of_nonneg_left hla hrest
      have hb := mul_le_mul_of_nonneg_left hlb hzero
      linarith
    · have ha := mul_le_mul_of_nonneg_left hah hrest
      have hb := mul_le_mul_of_nonneg_left hbh hzero
      linarith
  obtain ⟨hlow, hhigh⟩ := hbetween hp.low_le hp.le_high hq.low_le hq.le_high
  obtain ⟨hnear, hfar⟩ := hbetween hp.near_le hp.le_far hq.near_le hq.le_far
  obtain ⟨hpleft, hpright⟩ := abs_le.mp hp.aside_le
  obtain ⟨hqleft, hqright⟩ := abs_le.mp hq.aside_le
  have hwide := abs_le.mpr (hbetween hpleft hpright hqleft hqright)
  rw [← hheight] at hlow hhigh
  rw [← hahead] at hnear hfar
  rw [← haside] at hwide
  exact ⟨hlow, hhigh, hnear, hfar, hwide⟩

/-- A point at some distance from another one is at most as much off in height, ahead and to
the side. -/
theorem Within.touched (hpose : UprightSearch x) (hq : Within x low high near far wide q) {ρ : K}
    (hradius : 0 ≤ ρ)
    (htouches : FVector.dotProduct (p + -q) (p + -q) ≤ ρ * ρ) :
    Within x (low - ρ) (high + ρ) (near - ρ) (far + ρ) (wide + ρ) p := by
  obtain ⟨hlow, hhigh, hnear, hfar, hwide⟩ := hq
  have hsquare : ∀ a : K, a * a ≤ ρ * ρ → |a| ≤ ρ := fun a ha =>
    abs_le_of_sq_le_sq (by nlinarith) hradius
  have hunit := hpose.unit
  simp only [FVector.dotProduct, FVector.add_x, FVector.add_y, FVector.add_z, FVector.neg_x,
    FVector.neg_y, FVector.neg_z] at htouches
  have hheight : |heightOf x p - heightOf x q| ≤ ρ := by
    apply hsquare
    simp only [heightOf]
    nlinarith [mul_self_nonneg (p.x + -q.x), mul_self_nonneg (p.y + -q.y)]
  -- the components along a unit vector of the plane and across it
  have halong : aheadOf x p - aheadOf x q =
      x.forwardVector.x * (p.x + -q.x) + x.forwardVector.y * (p.y + -q.y) := by
    simp only [aheadOf, FVector.dotProduct, hpose.horizontal, FVector.add_x, FVector.add_y,
      FVector.neg_x, FVector.neg_y]
    ring
  have hacross : asideOf x p - asideOf x q =
      x.forwardVector.x * (p.y + -q.y) - x.forwardVector.y * (p.x + -q.x) := by
    simp only [asideOf]
    ring
  have hpythagoras : (aheadOf x p - aheadOf x q) * (aheadOf x p - aheadOf x q) +
      (asideOf x p - asideOf x q) * (asideOf x p - asideOf x q) =
        (p.x + -q.x) * (p.x + -q.x) + (p.y + -q.y) * (p.y + -q.y) := by
    rw [halong, hacross]
    linear_combination ((p.x + -q.x) * (p.x + -q.x) + (p.y + -q.y) * (p.y + -q.y)) * hunit
  have hvertical := mul_self_nonneg (p.z + -q.z)
  have hahead : |aheadOf x p - aheadOf x q| ≤ ρ := by
    apply hsquare
    have hsideways := mul_self_nonneg (asideOf x p - asideOf x q)
    linarith
  have haside : |asideOf x p - asideOf x q| ≤ ρ := by
    apply hsquare
    have hforward := mul_self_nonneg (aheadOf x p - aheadOf x q)
    linarith
  have hwidened : |asideOf x p| ≤ wide + ρ := by
    have htriangle := abs_sub_abs_le_abs_sub (asideOf x p) (asideOf x q)
    linarith
  rw [abs_le] at hheight hahead
  exact ⟨by linarith [hheight.1], by linarith [hheight.2], by linarith [hahead.1],
    by linarith [hahead.2], hwidened⟩

/-- A sphere that is swept between two points hits within the radius of what is between. -/
theorem within_of_hit (hpose : UprightSearch x) (hworld : TouchesWhatItHits x.world)
    {s : Sweep K} {hit : FHitResult K} (hradius : 0 ≤ s.radius) (hhit : trace x s = some hit)
    (hstart : Within x low high near far wide s.start)
    (hstop : Within x low high near far wide s.stop) :
    Within x (low - s.radius) (high + s.radius) (near - s.radius) (far + s.radius)
      (wide + s.radius) hit.impactPoint := by
  obtain ⟨t, hzero, hone, hlocation⟩ := hworld.onSegment _ _ _ _ hhit
  have hbetween := hstart.segment hstop hzero hone
  rw [← hlocation] at hbetween
  exact hbetween.touched hpose hradius (hworld.touches _ _ _ _ hhit)

/-- The sweep back to the edge moves it by at most one step and the radius. -/
theorem Within.refined (hpose : UprightSearch x) (hworld : TouchesWhatItHits x.world)
    (hradius : 0 ≤ x.settings.horizontalTraceRadius) (hstep : 0 ≤ x.settings.verticalTraceStep)
    (hp : Within x low high near far wide p) :
    Within x (low - x.settings.horizontalTraceRadius) (high + x.settings.horizontalTraceRadius)
      (near - x.settings.horizontalTraceRadius)
      (far + x.settings.verticalTraceStep + x.settings.horizontalTraceRadius)
      (wide + x.settings.horizontalTraceRadius) (Analysis.refined x p) := by
  unfold Analysis.refined
  cases hhit : trace x (refinement x p) with
  | none =>
    exact hp.mono (by linarith) (by linarith) (by linarith) (by linarith) (by linarith)
  | some hit =>
    have hheight : heightOf x (refinement x p).start = heightOf x p := by
      simp [heightOf, refinement, hpose.horizontal]
    have hahead : aheadOf x (refinement x p).start =
        aheadOf x p + x.settings.verticalTraceStep := by
      have hunit := hpose.unit
      simp only [aheadOf, refinement, FVector.dotProduct, hpose.horizontal, FVector.add_x,
        FVector.add_y, FVector.smul_x, FVector.smul_y, FVector.neg_x, FVector.neg_y]
      linear_combination x.settings.verticalTraceStep * hunit
    have haside : asideOf x (refinement x p).start = asideOf x p := by
      simp only [asideOf, refinement, FVector.add_x, FVector.add_y, FVector.smul_x, FVector.smul_y]
      ring
    have hstart : Within x low high near (far + x.settings.verticalTraceStep) wide
        (refinement x p).start := by
      constructor
      · rw [hheight]
        exact hp.low_le
      · rw [hheight]
        exact hp.le_high
      · rw [hahead]
        linarith [hp.near_le]
      · rw [hahead]
        linarith [hp.le_far]
      · rw [haside]
        exact hp.aside_le
    have hstop : Within x low high near (far + x.settings.verticalTraceStep) wide
        (refinement x p).stop := hp.mono le_rfl le_rfl le_rfl (by linarith) le_rfl
    exact within_of_hit hpose hworld hradius hhit hstart hstop

end Points

/-! ## The targets of a search -/

section Targets

variable [SquareRoot K] [IsStrictOrderedRing K] {x : VaultSearch K} {k m i : ℕ}
  {hit : FHitResult K} {D M : K}

/-- The two targets are in the corridor over layer `k` from `D` to `M`: the first one up to
the radius of the sweeps, at its near end, and the second one up to twice the radius; to the side
they are off by no more than that. -/
structure TargetsInReach (x : VaultSearch K) (k : ℕ) (D M : K) (r : SearchResult K) : Prop where
  jumpTo : Within x
    ((k : K) * x.settings.horizontalTraceStep - x.settings.horizontalTraceRadius)
    (((k + 1 : ℕ) : K) * x.settings.horizontalTraceStep + x.settings.horizontalTraceRadius)
    (D - x.settings.horizontalTraceRadius) (D + x.settings.horizontalTraceRadius)
    x.settings.horizontalTraceRadius r.jumpToLocation
  jumpOver : Within x
    ((k : K) * x.settings.horizontalTraceStep - 2 * x.settings.horizontalTraceRadius)
    (((k + 1 : ℕ) : K) * x.settings.horizontalTraceStep + 2 * x.settings.horizontalTraceRadius)
    (D - 2 * x.settings.horizontalTraceRadius) (M + 2 * x.settings.horizontalTraceRadius)
    (2 * x.settings.horizontalTraceRadius) r.jumpOverLocation

variable (hpose : UprightSearch x) (hworld : TouchesWhatItHits x.world)
  (hheight : 0 ≤ x.settings.horizontalTraceStep) (hradius : 0 ≤ x.settings.horizontalTraceRadius)
  (hc : Corridor x k hit D M)
include hpose hheight hc

/-- A probe goes down at one distance ahead, over one layer. -/
theorem Corridor.within_probe :
    Within x ((k : K) * x.settings.horizontalTraceStep)
        (((k + 1 : ℕ) : K) * x.settings.horizontalTraceStep)
        (D + (i : K) * x.settings.verticalTraceStep) (D + (i : K) * x.settings.verticalTraceStep)
        0 (probe x (verticalStart x k hit) i).start ∧
      Within x ((k : K) * x.settings.horizontalTraceStep)
        (((k + 1 : ℕ) : K) * x.settings.horizontalTraceStep)
        (D + (i : K) * x.settings.verticalTraceStep) (D + (i : K) * x.settings.verticalTraceStep)
        0 (probe x (verticalStart x k hit) i).stop := by
  obtain ⟨hstart, hstop⟩ := hc.probe_eq (i := i) hpose hheight
  have hlayer : (k : K) * x.settings.horizontalTraceStep ≤
      ((k + 1 : ℕ) : K) * x.settings.horizontalTraceStep := by
    push_cast
    linarith
  rw [hstart, hstop]
  exact ⟨within_pointAt hpose hlayer le_rfl le_rfl le_rfl le_rfl,
    within_pointAt hpose le_rfl hlayer le_rfl le_rfl le_rfl⟩

include hworld hradius

/-- What a probe hits is over the layer and at the probe, up to the radius. -/
theorem Corridor.within_probe_hit {hit' : FHitResult K}
    (hhit : trace x (probe x (verticalStart x k hit) i) = some hit') :
    Within x ((k : K) * x.settings.horizontalTraceStep - x.settings.horizontalTraceRadius)
      (((k + 1 : ℕ) : K) * x.settings.horizontalTraceStep + x.settings.horizontalTraceRadius)
      (D + (i : K) * x.settings.verticalTraceStep - x.settings.horizontalTraceRadius)
      (D + (i : K) * x.settings.verticalTraceStep + x.settings.horizontalTraceRadius)
      x.settings.horizontalTraceRadius hit'.impactPoint := by
  obtain ⟨hstart, hstop⟩ := hc.within_probe (i := i) hpose hheight
  have hwithin := within_of_hit hpose hworld hradius hhit hstart hstop
  rw [zero_add] at hwithin
  exact hwithin

/-- The first target is at the near end of the corridor. -/
theorem Corridor.within_landing :
    Within x ((k : K) * x.settings.horizontalTraceStep - x.settings.horizontalTraceRadius)
      (((k + 1 : ℕ) : K) * x.settings.horizontalTraceStep + x.settings.horizontalTraceRadius)
      (D - x.settings.horizontalTraceRadius) (D + x.settings.horizontalTraceRadius)
      x.settings.horizontalTraceRadius (landing x (verticalStart x k hit)) := by
  unfold landing
  cases hhit : trace x (probe x (verticalStart x k hit) 0) with
  | some hit' =>
    have hwithin := hc.within_probe_hit hpose hworld hheight hradius hhit
    rw [Nat.cast_zero, zero_mul, add_zero] at hwithin
    exact hwithin
  | none =>
    -- the hit of layer `k` itself, which is on that layer
    have hlocation : (verticalStart x k hit).jumpToLocation =
        pointAt x ((k : K) * x.settings.horizontalTraceStep) D := by
      show hit.location = _
      rw [hc.location]
      ext <;> simp [layer, pointAt] <;> ring
    simp only [Option.map_none, Option.getD_none, hlocation]
    have habove : (k : K) * x.settings.horizontalTraceStep ≤
        ((k + 1 : ℕ) : K) * x.settings.horizontalTraceStep := by
      push_cast
      linarith
    exact within_pointAt hpose (by linarith) (by linarith) (by linarith) (by linarith) hradius

omit hpose hworld hheight hradius hc

variable [FloorRing K] {r : SearchResult K}

omit [IsStrictOrderedRing K] in
/-- A search that passes and has written the second target went down to it in the probe before
the first miss. -/
theorem Outcome.written (h : Outcome x r) (hpassed : r.passed = true)
    (hwritten : ¬ LandsUnwritten x) :
    ∃ k hit n hit', ReachesVertical x k hit ∧ FirstMiss x (verticalStart x k hit) (n + 1) ∧
      trace x (probe x (verticalStart x k hit) n) = some hit' ∧
      r.jumpToLocation = landing x (verticalStart x k hit) ∧
      r.jumpOverLocation = refined x hit'.impactPoint := by
  cases h with
  | refused hrefused => exact absurd hpassed (by simp)
  | noLayer hready hnone hn hcovers => exact absurd hpassed (by simp)
  | noRoom hready hfirst hroom => exact absurd hpassed (by simp)
  | noMiss hreach hstart hfinite hnone hscan => exact absurd hpassed (by simp)
  | @landed k m hit v hreach hstart hmiss =>
    subst hstart
    obtain ⟨n, rfl⟩ : ∃ n, m = n + 1 := ⟨m - 1, by have hpos := hmiss.pos; omega⟩
    have hsome : (trace x (probe x (verticalStart x k hit) n)).isSome = true := by
      rcases Nat.eq_zero_or_pos n with rfl | hpos
      · by_contra hnone
        exact hwritten ⟨k, hit, hreach, by simpa using hnone, hmiss⟩
      · exact hmiss.hits n hpos (Nat.lt_succ_self n)
    obtain ⟨hit', hhit⟩ := Option.isSome_iff_exists.mp hsome
    refine ⟨k, hit, n, hit', hreach, hmiss, hhit, rfl, ?_⟩
    show refined x (edge x (verticalStart x k hit) (n + 1)) = _
    simp only [edge, hhit, Option.map_some, Option.getD_some]

/-- The targets of a search that passes and has written the second one. -/
theorem Outcome.inReach (h : Outcome x r) (hpassed : r.passed = true)
    (hwritten : ¬ LandsUnwritten x) (hpose : UprightSearch x)
    (hworld : TouchesWhatItHits x.world) (hlength : 0 ≤ x.settings.horizontalTraceLenght)
    (hheight : 0 ≤ x.settings.horizontalTraceStep)
    (hradius : 0 ≤ x.settings.horizontalTraceRadius)
    (hstep : 0 < x.settings.verticalTraceStep) :
    ∃ k hit D M, FirstLayer x k hit ∧ Corridor x k hit D M ∧ D ≤ M ∧
      TargetsInReach x k D M r := by
  obtain ⟨k, hit, n, hit', hreach, hmiss, hhit, hto, hover⟩ := h.written hpassed hwritten
  obtain ⟨D, M, hc⟩ := exists_corridor hworld.onSegment hlength hreach.first
  obtain ⟨hfrom, hfar⟩ := hc.probe_within hpose hreach (ne_of_gt hstep) hmiss.reached
  have hedge := (hc.within_probe_hit hpose hworld hheight hradius hhit).refined hpose hworld
    hradius (le_of_lt hstep)
  have hnext : ((n + 1 : ℕ) : K) * x.settings.verticalTraceStep =
      (n : K) * x.settings.verticalTraceStep + x.settings.verticalTraceStep := by
    push_cast
    ring
  have hback : 0 ≤ (n : K) * x.settings.verticalTraceStep :=
    mul_nonneg (Nat.cast_nonneg n) (le_of_lt hstep)
  rw [hnext] at hfar
  refine ⟨k, hit, D, M, hreach.first, hc, by linarith, ?_, ?_⟩
  · rw [hto]
    exact hc.within_landing hpose hworld hheight hradius
  · rw [hover]
    exact hedge.mono (by linarith) (by linarith) (by linarith) (by linarith) (by linarith)

/-- **The targets of a vault are within reach.**  For every world whose hits lie on the
segments swept and are touched by the sphere there, every upright pose and every setting
with a non-negative length, step and radius of the layers and a positive step of the
vertical sweeps: when the search passes, and not with a `JumpOverLocation` that nothing was
written to, the two targets are in the corridor over the first layer that is hit, in height,
ahead and to the side up to the radius and to twice the radius of the sweeps.
SOURCE: AG_VaultOverAbility.cpp:54-151 -/
theorem targets_inReach (x : VaultSearch K) (hpose : UprightSearch x)
    (hlength : 0 ≤ x.settings.horizontalTraceLenght)
    (hheight : 0 ≤ x.settings.horizontalTraceStep)
    (hradius : 0 ≤ x.settings.horizontalTraceRadius) (hstep : 0 < x.settings.verticalTraceStep)
    (hworld : TouchesWhatItHits x.world) (r : SearchResult K) (hr : Returns (commitCheck x) r)
    (hpassed : r.passed = true) (hwritten : ¬ LandsUnwritten x) :
    ∃ k hit D M, FirstLayer x k hit ∧ Corridor x k hit D M ∧ D ≤ M ∧
      TargetsInReach x k D M r :=
  (Outcome.of_returns hr).inReach hpassed hwritten hpose hworld hlength hheight hradius hstep

end Targets

/-- A world that blocks every forward sweep at the height of the character after a fifth, and
every sweep down up to 160 at its end. -/
def ledge : SphereTrace ℚ := fun start stop _ =>
  if start.z = 0 ∧ start.x < stop.x then
    let p := (1 - 1 / 5 : ℚ) • start + (1 / 5 : ℚ) • stop
    some ⟨p, p, ⟨-1, 0, 0⟩⟩
  else if stop.z < start.z ∧ start.x ≤ 160 then some ⟨stop, stop, ⟨0, 0, 1⟩⟩
  else none

/-- The ledge is touched where it is hit. -/
theorem touchesWhatItHits_ledge : TouchesWhatItHits ledge := by
  have hsame : ∀ (p : FVector ℚ) (radius : ℚ),
      FVector.dotProduct (p + -p) (p + -p) ≤ radius * radius := by
    intro p radius
    simp only [FVector.dotProduct, FVector.add_x, FVector.add_y, FVector.add_z, FVector.neg_x,
      FVector.neg_y, FVector.neg_z, add_neg_cancel, mul_zero, add_zero]
    exact mul_self_nonneg radius
  constructor
  · intro start stop radius hit hhit
    simp only [ledge] at hhit
    split_ifs at hhit
    · obtain rfl := Option.some.inj hhit
      exact ⟨1 / 5, by norm_num, by norm_num, rfl⟩
    · obtain rfl := Option.some.inj hhit
      refine ⟨1, by norm_num, le_refl 1, ?_⟩
      ext <;> simp
  · intro start stop radius hit hhit
    simp only [ledge] at hhit
    split_ifs at hhit
    · obtain rfl := Option.some.inj hhit
      exact hsame _ radius
    · obtain rfl := Option.some.inj hhit
      exact hsame _ radius

/-- The targets of a vault over the ledge are in reach. -/
theorem targets_inReach_ledge :
    ∃ r, Returns (commitCheck (searchIn (.default ℚ) ledge)) r ∧
      ∃ k hit D M, FirstLayer (searchIn (.default ℚ) ledge) k hit ∧
        Corridor (searchIn (.default ℚ) ledge) k hit D M ∧ D ≤ M ∧
        TargetsInReach (searchIn (.default ℚ) ledge) k D M r := by
  have hrun : (commitCheck (searchIn (.default ℚ) ledge) 8).map (fun r => r.passed) =
      some true := by
    decide +kernel
  obtain ⟨r, hr, hpassed⟩ := Option.map_eq_some_iff.mp hrun
  refine ⟨r, commitCheck_returns hr, targets_inReach (searchIn (.default ℚ) ledge)
    ⟨rfl, rfl, by decide +kernel⟩ (by decide +kernel) (by decide +kernel) (by decide +kernel)
    (by decide +kernel) touchesWhatItHits_ledge r (commitCheck_returns hr) hpassed ?_⟩
  -- the first probe hits the ledge
  rintro ⟨k, hit, hreach, hnone, -⟩
  have hfirst : FirstLayer (searchIn (.default ℚ) ledge) 0
      ⟨⟨100, 0, 0⟩, ⟨100, 0, 0⟩, ⟨-1, 0, 0⟩⟩ :=
    ⟨by decide +kernel, fun j hj => absurd hj (Nat.not_lt_zero j), by decide +kernel⟩
  obtain ⟨rfl, rfl⟩ := hfirst.unique hreach.first
  exact absurd hnone (by decide +kernel)

end GasSamples.Analysis
