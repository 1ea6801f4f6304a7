import GasSamples.Model.SphereTrace
import GasSamples.Analysis.WallRunAbility

/-!
# The geometry of a wall run

The task decides the side of the wall three times: in the search, by the trace that was
accepted; in `IsWallOnTheLeft`, by a sign; and in the tick, by a turn of the normal.  For an
upright character the three agree, and the velocity is tangent to the wall and forward.

The distance that `Activate` puts the character from the wall is a constant, the length of
the traces is not, and the next search needs the one to reach over the other.
-/

set_option autoImplicit false

namespace GasSamples.Analysis

open GasSamples.Model GasSamples.Program

variable {K E C : Type} [Field K]

/-- The character stands upright: it faces along a unit vector of the plane, and its right
is a quarter turn from there. -/
structure Upright (w : GASCharacter K E C) : Prop where
  horizontal : w.forwardVector.z = 0
  unit : FVector.dotProduct w.forwardVector w.forwardVector = 1
  right : w.rightVector = w.forwardVector.rotateYaw90

variable {w : GASCharacter K E C}

/-- The components of a vector along the two axes of an upright character. -/
theorem Upright.dotProduct_right (h : Upright w) (n : FVector K) :
    FVector.dotProduct n w.rightVector =
      n.y * w.forwardVector.x - n.x * w.forwardVector.y := by
  rw [h.right]
  simp only [FVector.dotProduct, FVector.rotateYaw90, h.horizontal]
  ring

/-- Along the forward vector of an upright character only the horizontal components count. -/
theorem Upright.dotProduct_forward (h : Upright w) (n : FVector K) :
    FVector.dotProduct n w.forwardVector =
      n.x * w.forwardVector.x + n.y * w.forwardVector.y := by
  simp only [FVector.dotProduct, h.horizontal, mul_zero, add_zero]

/-! ## The velocity of a tick -/

section Velocity

/-- The velocity of a wall run is level. -/
theorem wallRunVelocity_z (wallOnTheLeft : Bool) (hit : FHitResult K) :
    (TickWallRun.wallRunVelocity wallOnTheLeft hit).z = 0 := rfl

/-- A quarter turn of the normal is tangent to the wall, once its height is dropped. -/
theorem wallRunVelocity_tangent (wallOnTheLeft : Bool) (hit : FHitResult K) :
    FVector.dotProduct (TickWallRun.wallRunVelocity wallOnTheLeft hit) hit.impactNormal = 0 := by
  cases wallOnTheLeft with
  | true =>
    simp only [TickWallRun.wallRunVelocity, FVector.dotProduct, FVector.rotateYawMinus90,
      FVector.smul_x, FVector.smul_y, if_true]
    ring
  | false =>
    simp only [TickWallRun.wallRunVelocity, FVector.dotProduct, FVector.rotateYaw90,
      FVector.smul_x, FVector.smul_y, Bool.false_eq_true, if_false]
    ring

/-- Its forward component is what the normal has to the right, with the sign of the side. -/
theorem wallRunVelocity_forward (h : Upright w) (wallOnTheLeft : Bool) (hit : FHitResult K) :
    FVector.dotProduct (TickWallRun.wallRunVelocity wallOnTheLeft hit) w.forwardVector =
      700 * (if wallOnTheLeft then FVector.dotProduct hit.impactNormal w.rightVector
        else -FVector.dotProduct hit.impactNormal w.rightVector) := by
  rw [h.dotProduct_forward, h.dotProduct_right]
  cases wallOnTheLeft with
  | true =>
    simp only [TickWallRun.wallRunVelocity, FVector.rotateYawMinus90, FVector.smul_x,
      FVector.smul_y, if_true]
    ring
  | false =>
    simp only [TickWallRun.wallRunVelocity, FVector.rotateYaw90, FVector.smul_x,
      FVector.smul_y, Bool.false_eq_true, if_false]
    ring

/-- The square of the speed, for any normal. -/
theorem wallRunVelocity_square (wallOnTheLeft : Bool) (hit : FHitResult K) :
    FVector.dotProduct (TickWallRun.wallRunVelocity wallOnTheLeft hit)
        (TickWallRun.wallRunVelocity wallOnTheLeft hit) =
      700 * 700 * (hit.impactNormal.x * hit.impactNormal.x +
        hit.impactNormal.y * hit.impactNormal.y) := by
  cases wallOnTheLeft with
  | true =>
    simp only [TickWallRun.wallRunVelocity, FVector.dotProduct, FVector.rotateYawMinus90,
      FVector.smul_x, FVector.smul_y, if_true]
    ring
  | false =>
    simp only [TickWallRun.wallRunVelocity, FVector.dotProduct, FVector.rotateYaw90,
      FVector.smul_x, FVector.smul_y, Bool.false_eq_true, if_false]
    ring

variable [LinearOrder K] [IsStrictOrderedRing K]

/-- A unit normal is at most one long in the plane. -/
theorem planar_le_one {n : FVector K} (hunit : FVector.dotProduct n n = 1) :
    n.x * n.x + n.y * n.y ≤ 1 := by
  have hheight : 0 ≤ n.z * n.z := mul_self_nonneg n.z
  simp only [FVector.dotProduct] at hunit
  linarith

/-- On the side of an accepted hit the normal has more than 0.3 to the right or left. -/
theorem side_of_found {lineTrace : LineTrace K} {side : WallSide} {hit : FHitResult K}
    (hfound : TickWallRun.findRunnableWall lineTrace w = some (side, hit)) :
    (if decide (side = .left) = true then FVector.dotProduct hit.impactNormal w.rightVector
      else -FVector.dotProduct hit.impactNormal w.rightVector) =
        |FVector.dotProduct hit.impactNormal w.rightVector| ∧
      3 / 10 < |FVector.dotProduct hit.impactNormal w.rightVector| := by
  have hpos : (0 : K) < 3 / 10 := by positivity
  rcases dotProduct_of_found hfound with ⟨rfl, hdot⟩ | ⟨rfl, hdot⟩
  · have habs := abs_of_pos (lt_trans hpos hdot)
    rw [habs]
    exact ⟨by simp, hdot⟩
  · rw [FVector.dotProduct_neg] at hdot
    have hneg : FVector.dotProduct hit.impactNormal w.rightVector < 0 := by linarith
    rw [abs_of_neg hneg]
    exact ⟨by simp, hdot⟩

/-- Every hit of the traces has a unit normal. -/
def UnitNormals (lineTrace : LineTrace K) : Prop :=
  ∀ start stop hit, lineTrace start stop = some hit →
    FVector.dotProduct hit.impactNormal hit.impactNormal = 1

omit [IsStrictOrderedRing K] in
/-- The normal of a wall that is found is a unit vector. -/
theorem UnitNormals.of_found {lineTrace : LineTrace K} (hunit : UnitNormals lineTrace)
    {side : WallSide} {hit : FHitResult K}
    (hfound : TickWallRun.findRunnableWall lineTrace w = some (side, hit)) :
    FVector.dotProduct hit.impactNormal hit.impactNormal = 1 := by
  obtain ⟨-, ⟨-, htrace, -⟩ | ⟨-, -, htrace, -⟩⟩ := findRunnableWall_eq_some_iff.mp hfound
  · exact hunit _ _ _ htrace
  · exact hunit _ _ _ htrace

/-- The velocity is level, tangent to the wall that the movement is constrained to, forward
by 700 times what the normal has to the side, and at most 700. -/
structure AlongWall (w : GASCharacter K E C) (hit : FHitResult K) (m : CharacterMovement K) :
    Prop where
  level : m.velocity.z = 0
  tangent : FVector.dotProduct m.velocity hit.impactNormal = 0
  constrained : m.planeConstraintEnabled = true ∧ m.planeConstraintNormal = hit.impactNormal
  forward : FVector.dotProduct m.velocity w.forwardVector =
    700 * |FVector.dotProduct hit.impactNormal w.rightVector|
  fast : 210 < FVector.dotProduct m.velocity w.forwardVector
  bounded : FVector.dotProduct m.velocity m.velocity ≤ 700 * 700

omit [IsStrictOrderedRing K] in
/-- What a tick that finds a wall leaves in the movement component. -/
theorem tickTask_movement (onFinished : GASCharacter K E C → GASCharacter K E C)
    {lineTrace : LineTrace K} (task : ℕ) {side : WallSide} {hit : FHitResult K}
    (hfound : TickWallRun.findRunnableWall lineTrace w = some (side, hit)) :
    (TickWallRun.tickTask onFinished lineTrace task w).movement =
      { w.movement with
        velocity := TickWallRun.wallRunVelocity (TickWallRun.isWallOnTheLeft w hit) hit
        planeConstraintEnabled := true
        planeConstraintOrigin := hit.impactPoint
        planeConstraintNormal := hit.impactNormal } := by
  unfold TickWallRun.tickTask
  rw [hfound]
  rfl

/-- **The velocity of a wall run is tangent to the wall and forward.**  For every upright
character and every result of the traces with unit normals: when the search finds a wall,
`IsWallOnTheLeft` names the trace that was accepted, and the tick sets a velocity along the
wall.
SOURCE: AG_Task_TickWallRun.cpp:53-133 -/
theorem tickTask_alongWall (w : GASCharacter K E C) (hpose : Upright w)
    (lineTrace : LineTrace K) (hunit : UnitNormals lineTrace)
    (onFinished : GASCharacter K E C → GASCharacter K E C) (task : ℕ) (side : WallSide)
    (hit : FHitResult K)
    (hfound : TickWallRun.findRunnableWall lineTrace w = some (side, hit)) :
    (TickWallRun.isWallOnTheLeft w hit = true ↔ side = .left) ∧
      AlongWall w hit (TickWallRun.tickTask onFinished lineTrace task w).movement := by
  have hside := isWallOnTheLeft_of_found hfound
  refine ⟨by rw [hside, decide_eq_true_eq], ?_⟩
  obtain ⟨hcomponent, hthreshold⟩ := side_of_found hfound
  have hplanar := planar_le_one (hunit.of_found hfound)
  have hforward := wallRunVelocity_forward hpose (decide (side = .left)) hit
  rw [hcomponent] at hforward
  rw [tickTask_movement onFinished task hfound, hside]
  refine ⟨wallRunVelocity_z _ _, wallRunVelocity_tangent _ _, ⟨rfl, rfl⟩, hforward, ?_, ?_⟩
  · simp only [hforward]
    linarith
  · rw [wallRunVelocity_square]
    nlinarith

end Velocity

/-- Along the wall on its left the falling character runs forward. -/
theorem tickTask_alongWall_left :
    AlongWall fallingCharacter ⟨⟨0, -50, 0⟩, ⟨0, -50, 0⟩, ⟨0, 1, 0⟩⟩
      (TickWallRun.tickTask id wallOnTheLeft 0 fallingCharacter).movement := by
  refine (tickTask_alongWall fallingCharacter ⟨rfl, by decide +kernel, by decide +kernel⟩
    wallOnTheLeft ?_ id 0 .left _ (by decide +kernel)).2
  intro start stop hit htrace
  simp only [wallOnTheLeft] at htrace
  split at htrace
  · obtain rfl := Option.some.inj htrace
    show FVector.dotProduct ⟨0, 1, 0⟩ ⟨0, 1, 0⟩ = (1 : ℚ)
    decide +kernel
  · exact absurd htrace (by simp)

/-! ## The distance from the wall -/

section Distance

/-- What the search reads of a character besides its location. -/
def facing (w : GASCharacter K E C) : FVector K × FVector K × K :=
  (w.forwardVector, w.rightVector, w.capsuleRadius)

omit [Field K] in
/-- A call leaves the facing alone. -/
def KeepsFacing (f : GASCharacter K E C → GASCharacter K E C) : Prop :=
  ∀ w, facing (f w) = facing w

omit [Field K] in
/-- Two calls that keep the facing, one after the other. -/
theorem KeepsFacing.comp {f g : GASCharacter K E C → GASCharacter K E C} (hf : KeepsFacing f)
    (hg : KeepsFacing g) : KeepsFacing fun w => g (f w) :=
  fun w => (hg (f w)).trans (hf w)

omit [Field K] in
/-- A call that may or may not be made keeps the facing if the call does. -/
theorem KeepsFacing.ite {f : GASCharacter K E C → GASCharacter K E C} (hf : KeepsFacing f)
    (condition : Bool) : KeepsFacing fun w => if condition then f w else w := by
  intro w
  cases condition with
  | true => exact hf w
  | false => rfl

section Delegates

variable [DecidableEq E] (c : WallRunClass E)

/-- The end of the ability keeps the facing. -/
theorem keepsFacing_endAbility : KeepsFacing (WallRunAbility.endAbility (K := K) (C := C) c) := by
  intro w
  have htask : facing (TickWallRun.endTask w) = facing w := by
    unfold TickWallRun.endTask
    split <;> rfl
  exact htask

/-- `OnWallSideDetermened` keeps the facing. -/
theorem keepsFacing_onWallSideDetermened (callbacks : TaskCallbacks) (leftSide : Bool) :
    KeepsFacing ((WallRunAbility.delegates (K := K) (C := C) c callbacks).onWallSideDetermened
      leftSide) := by
  have hend := keepsFacing_endAbility (K := K) (C := C) c
  have happly : ∀ effect : Option E, KeepsFacing fun w : GASCharacter K E C =>
      (AGASCharacter.applyGameplayEffectToSelf (WallRunAbility.endAbility c) effect
        callbacks.sideEffect w).2 := by
    intro effect w
    unfold AGASCharacter.applyGameplayEffectToSelf
    cases effect with
    | none => rfl
    | some effect =>
      by_cases hspec : callbacks.sideEffect.outcome = .invalidSpec
      · simp only [if_pos hspec]
      · simp only [if_neg hspec]
        exact (hend.ite callbacks.sideEffect.endsAfter _).trans
          (hend.ite callbacks.sideEffect.endsBefore w)
  exact (happly _).comp (hend.ite callbacks.listenerEnds)

/-- The landing keeps the facing. -/
theorem keepsFacing_landed (callbacks : TaskCallbacks) :
    KeepsFacing (WallRunAbility.delegates (K := K) (C := C) c callbacks).landed := by
  have hend := keepsFacing_endAbility (K := K) (C := C) c
  intro w
  exact (hend.ite callbacks.removalEnds _).trans (hend.ite callbacks.superLandedEnds w)

end Delegates

/-- How far a point is in front of the plane `n · p = c`. -/
def distanceFrom (n : FVector K) (c : K) (p : FVector K) : K := FVector.dotProduct n p - c

/-- The distance from the plane along a line. -/
theorem distanceFrom_add_smul (n : FVector K) (c : K) (p d : FVector K) (l : K) :
    distanceFrom n c (p + l • d) = distanceFrom n c p + l * FVector.dotProduct n d := by
  unfold distanceFrom
  rw [FVector.dotProduct_add, FVector.dotProduct_smul]
  ring

variable [LinearOrder K]

/-- Exact line traces against an infinite plane and nothing else: a trace hits the front
face if it starts before it and reaches it. -/
def planarWall (n : FVector K) (c : K) : LineTrace K := fun start stop =>
  let s := distanceFrom n c start
  let e := distanceFrom n c stop
  if 0 < s ∧ e ≤ 0 then
    let t := s / (s - e)
    let p := (1 - t) • start + t • stop
    some ⟨p, p, n⟩
  else none

/-- What the normal has towards a side of the character. -/
def toward (n : FVector K) (w : GASCharacter K E C) : WallSide → K
  | .left => FVector.dotProduct n w.rightVector
  | .right => -FVector.dotProduct n w.rightVector

/-- The direction of the trace to a side. -/
def sideward (w : GASCharacter K E C) : WallSide → FVector K
  | .left => -w.rightVector
  | .right => w.rightVector

variable {n : FVector K} {c l : K} {side : WallSide} {hit : FHitResult K}

/-- A trace hits exactly if it starts before the plane and reaches it. -/
theorem planarWall_isSome (start stop : FVector K) :
    (∃ hit, planarWall n c start stop = some hit) ↔
      0 < distanceFrom n c start ∧ distanceFrom n c stop ≤ 0 := by
  unfold planarWall
  by_cases hhit : 0 < distanceFrom n c start ∧ distanceFrom n c stop ≤ 0
  · exact iff_of_true ⟨_, if_pos hhit⟩ hhit
  · refine iff_of_false ?_ hhit
    rintro ⟨hit, h⟩
    rw [if_neg hhit] at h
    exact absurd h (by simp)

/-- A trace hits the plane exactly if it starts before it and does not end before it. -/
theorem exists_traceTo_planarWall (d : FVector K) :
    (∃ hit, traceTo (planarWall n c) w l d = some hit) ↔
      0 < distanceFrom n c w.actorLocation ∧
        distanceFrom n c w.actorLocation + l * FVector.dotProduct n d ≤ 0 := by
  unfold traceTo
  rw [planarWall_isSome, distanceFrom_add_smul]

variable [IsStrictOrderedRing K]

/-- The trace to a side hits exactly if it covers the distance along the normal. -/
theorem exists_traceTo_sideward :
    (∃ hit, traceTo (planarWall n c) w l (sideward w side) = some hit) ↔
      0 < distanceFrom n c w.actorLocation ∧
        distanceFrom n c w.actorLocation ≤ l * toward n w side := by
  rw [exists_traceTo_planarWall]
  cases side with
  | left =>
    simp only [sideward, toward, FVector.dotProduct_neg]
    exact and_congr_right fun _ => ⟨fun h => by linarith, fun h => by linarith⟩
  | right =>
    simp only [sideward, toward]
    exact and_congr_right fun _ => ⟨fun h => by linarith, fun h => by linarith⟩

/-- The hit is on the plane, with the plane's normal. -/
theorem planarWall_hit {start stop : FVector K} (h : planarWall n c start stop = some hit) :
    hit.impactNormal = n ∧ distanceFrom n c hit.impactPoint = 0 := by
  obtain ⟨hstart, hstop⟩ := (planarWall_isSome start stop).mp ⟨hit, h⟩
  unfold planarWall at h
  simp only [if_pos (And.intro hstart hstop)] at h
  obtain rfl := Option.some.inj h
  refine ⟨rfl, ?_⟩
  have hne : distanceFrom n c start - distanceFrom n c stop ≠ 0 := by
    have hpos : 0 < distanceFrom n c start - distanceFrom n c stop := by linarith
    exact ne_of_gt hpos
  have hdot : ∀ p, FVector.dotProduct n p = distanceFrom n c p + c := by
    intro p
    unfold distanceFrom
    ring
  unfold distanceFrom at hne ⊢
  simp only [FVector.dotProduct_add, FVector.dotProduct_smul]
  field_simp
  ring

/-- A search before the plane finds it on a side exactly if the forward trace does not
reach it, the trace to the side does, and the normal has more than 0.3 towards that side. -/
theorem exists_found_planarWall :
    (∃ hit, TickWallRun.findRunnableWall (planarWall n c) w = some (side, hit)) ↔
      ¬ distanceFrom n c w.actorLocation +
          (w.capsuleRadius + 30) * FVector.dotProduct n w.forwardVector ≤ 0 ∧
        0 < distanceFrom n c w.actorLocation ∧
        distanceFrom n c w.actorLocation ≤ (w.capsuleRadius + 30) * toward n w side ∧
        3 / 10 < toward n w side := by
  constructor
  · rintro ⟨hit, hfound⟩
    obtain ⟨hnone, hside⟩ := findRunnableWall_eq_some_iff.mp hfound
    have hahead : ¬ (0 < distanceFrom n c w.actorLocation ∧ distanceFrom n c w.actorLocation +
        (w.capsuleRadius + 30) * FVector.dotProduct n w.forwardVector ≤ 0) := by
      rw [← exists_traceTo_planarWall]
      rintro ⟨hit', htrace⟩
      rw [hnone] at htrace
      exact absurd htrace (by simp)
    obtain ⟨htrace, hdot⟩ : traceTo (planarWall n c) w (w.capsuleRadius + 30) (sideward w side) =
        some hit ∧ 3 / 10 < toward n w side := by
      rcases hside with ⟨rfl, htrace, hdot⟩ | ⟨rfl, -, htrace, hdot⟩
      · rw [(planarWall_hit htrace).1] at hdot
        exact ⟨htrace, hdot⟩
      · rw [(planarWall_hit htrace).1, FVector.dotProduct_neg] at hdot
        exact ⟨htrace, hdot⟩
    obtain ⟨hfront, hreach⟩ := exists_traceTo_sideward.mp ⟨hit, htrace⟩
    exact ⟨fun h => hahead ⟨hfront, h⟩, hfront, hreach, hdot⟩
  · rintro ⟨hahead, hfront, hreach, hdot⟩
    have hnone : traceTo (planarWall n c) w (w.capsuleRadius + 30) w.forwardVector = none :=
      Option.eq_none_iff_forall_ne_some.mpr fun hit htrace =>
        hahead ((exists_traceTo_planarWall _).mp ⟨hit, htrace⟩).2
    obtain ⟨hit, htrace⟩ := exists_traceTo_sideward.mpr ⟨hfront, hreach⟩
    have hnormal := (planarWall_hit htrace).1
    refine ⟨hit, findRunnableWall_eq_some_iff.mpr ⟨hnone, ?_⟩⟩
    cases side with
    | left =>
      refine Or.inl ⟨rfl, htrace, ?_⟩
      rw [hnormal]
      exact hdot
    | right =>
      refine Or.inr ⟨rfl, ?_, htrace, ?_⟩
      · -- the plane has one normal, which a hit to the left would have as well
        intro hit' htrace' hleft
        rw [(planarWall_hit htrace').1] at hleft
        simp only [toward] at hdot
        linarith
      · rw [hnormal, FVector.dotProduct_neg]
        exact hdot

/-- Towards the side of the wall is away from neither. -/
theorem toward_eq_abs (h : 0 < toward n w side) :
    toward n w side = |FVector.dotProduct n w.rightVector| := by
  cases side with
  | left => exact (abs_of_pos h).symm
  | right =>
    simp only [toward] at h ⊢
    rw [abs_of_neg (by linarith)]

omit [IsStrictOrderedRing K] in
/-- An activation that finds a wall puts the character before it, and leaves the facing
alone. -/
theorem activate_found {lineTrace : LineTrace K} (d : TaskDelegates (GASCharacter K E C))
    (hside : ∀ leftSide, KeepsFacing (d.onWallSideDetermened leftSide))
    (hlanded : KeepsFacing d.landed) (task : ℕ)
    (hfound : TickWallRun.findRunnableWall lineTrace w = some (side, hit)) :
    facing (TickWallRun.activate d lineTrace task w) = facing w ∧
      (TickWallRun.activate d lineTrace task w).actorLocation =
        hit.impactPoint + (60 : K) • hit.impactNormal := by
  unfold TickWallRun.activate
  rw [hfound]
  refine ⟨?_, rfl⟩
  have hcalls := (hlanded _).trans (hside (TickWallRun.isWallOnTheLeft w hit)
    (TickWallRun.accept side w))
  exact hcalls

/-- **A wall run keeps the wall it started at exactly if the traces reach over the distance
it starts from.**  For every character, every capsule radius, every infinite plane with a
unit normal that is the only thing to trace, and every call out of the task that leaves the
facing alone: when `Activate` finds the wall on a side, the next search finds it again on
that side if and only if the trace to the side covers 60 units along the normal and the one
ahead does not.
SOURCE: AG_Task_TickWallRun.cpp:10-39, 53-71, 88-133 -/
theorem wallKept_iff (w : GASCharacter K E C) (n : FVector K) (c : K)
    (hunit : FVector.dotProduct n n = 1) (d : TaskDelegates (GASCharacter K E C))
    (hside : ∀ leftSide, KeepsFacing (d.onWallSideDetermened leftSide))
    (hlanded : KeepsFacing d.landed) (task : ℕ) (side : WallSide) (hit : FHitResult K)
    (hfound : TickWallRun.findRunnableWall (planarWall n c) w = some (side, hit)) :
    (∃ hit', TickWallRun.findRunnableWall (planarWall n c)
        (TickWallRun.activate d (planarWall n c) task w) = some (side, hit')) ↔
      60 ≤ (w.capsuleRadius + 30) * |FVector.dotProduct n w.rightVector| ∧
        (w.capsuleRadius + 30) * -FVector.dotProduct n w.forwardVector < 60 := by
  obtain ⟨-, -, -, hthreshold⟩ := exists_found_planarWall.mp ⟨hit, hfound⟩
  have hpos : (0 : K) < 3 / 10 := by positivity
  have habs := toward_eq_abs (lt_trans hpos hthreshold)
  obtain ⟨hfacing, hlocation⟩ := activate_found d hside hlanded task hfound
  simp only [facing, Prod.mk.injEq] at hfacing
  obtain ⟨hforward, hright, hradius⟩ := hfacing
  -- the character is 60 before the plane now
  have hdistance : distanceFrom n c
      (TickWallRun.activate d (planarWall n c) task w).actorLocation = 60 := by
    obtain ⟨hnormal, hplane⟩ : hit.impactNormal = n ∧ distanceFrom n c hit.impactPoint = 0 := by
      obtain ⟨-, ⟨-, htrace, -⟩ | ⟨-, -, htrace, -⟩⟩ := findRunnableWall_eq_some_iff.mp hfound
      · exact planarWall_hit htrace
      · exact planarWall_hit htrace
    rw [hlocation, hnormal, distanceFrom_add_smul, hplane, hunit]
    ring
  have htoward : toward n (TickWallRun.activate d (planarWall n c) task w) side =
      toward n w side := by
    cases side with
    | left => simp only [toward, hright]
    | right => simp only [toward, hright]
  rw [exists_found_planarWall, hdistance, hradius, hforward, htoward, ← habs]
  constructor
  · rintro ⟨hahead, -, hreach, -⟩
    exact ⟨hreach, by linarith⟩
  · rintro ⟨hreach, hahead⟩
    exact ⟨by linarith, by positivity, hreach, hthreshold⟩

end Distance

/-- A wall that the falling character runs along at 48 on its left is found again. -/
theorem wallKept_parallel : ∃ hit', TickWallRun.findRunnableWall (planarWall ⟨0, 1, 0⟩ (-48))
    (TickWallRun.activate (WallRunAbility.delegates wallRunWithSides (.quiet .added))
      (planarWall ⟨0, 1, 0⟩ (-48)) 0 fallingCharacter) = some (.left, hit') :=
  (wallKept_iff fallingCharacter ⟨0, 1, 0⟩ (-48) (by decide +kernel)
    (WallRunAbility.delegates wallRunWithSides (.quiet .added))
    (keepsFacing_onWallSideDetermened wallRunWithSides (.quiet .added))
    (keepsFacing_landed wallRunWithSides (.quiet .added)) 0 .left
    ⟨⟨0, -48, 0⟩, ⟨0, -48, 0⟩, ⟨0, 1, 0⟩⟩ (by decide +kernel)).mpr (by decide +kernel)

/-- A wall at 48 that the falling character runs away from at an angle is found by
`Activate`, and lost by the first tick. -/
theorem not_wallKept_oblique :
    (∃ hit, TickWallRun.findRunnableWall (planarWall ⟨3 / 5, 4 / 5, 0⟩ (-48))
      fallingCharacter = some (.left, hit)) ∧
    ¬ ∃ hit', TickWallRun.findRunnableWall (planarWall ⟨3 / 5, 4 / 5, 0⟩ (-48))
      (TickWallRun.activate (WallRunAbility.delegates wallRunWithSides (.quiet .added))
        (planarWall ⟨3 / 5, 4 / 5, 0⟩ (-48)) 0 fallingCharacter) = some (.left, hit') := by
  constructor
  · rw [exists_found_planarWall]
    decide +kernel
  · rw [exists_found_planarWall]
    decide +kernel

end GasSamples.Analysis
