import GasSamples.Model.Character

/-!
# `UAG_Task_TickWallRun`

The task of a wall run: `Activate` looks for a wall and puts the character there,
`TickTask` steers along it, `OnDestroy` resets the movement component.  The task calls
out through its two delegates and through `ACharacter::Landed`; what these calls do is
given as `TaskDelegates`, as functions on the character.  They may end the ability, and
the ability ends the task, so each body goes on with whatever character the call returns.

Every write of a task to the character is recorded in `taskLog`.
-/

set_option autoImplicit false

namespace GasSamples.Program

open GasSamples.Model

/-- What the calls out of the task do. -/
structure TaskDelegates (W : Type) where
  onFinished : W → W
  onWallSideDetermened : Bool → W → W
  landed : W → W

namespace TickWallRun

variable {K E C : Type}

section Search

variable [Field K] [LinearOrder K]

/-- `FindRunnableWall`: the hit in `OnWallHit`, for a search that returns true, with the
side of the trace that produced it.
SOURCE: AG_Task_TickWallRun.cpp:88-128 -/
def findRunnableWall (lineTrace : LineTrace K) (w : GASCharacter K E C) :
    Option (WallSide × FHitResult K) :=
  let characterLocation := w.actorLocation
  let rightVector := w.rightVector
  let forwardVector := w.forwardVector
  let traceLength := w.capsuleRadius + 30
  let onTheRight :=
    match lineTrace characterLocation (characterLocation + traceLength • rightVector) with
    | none => none
    | some hit =>
      if FVector.dotProduct hit.impactNormal (-rightVector) > 3 / 10 then some (.right, hit)
      else none
  match lineTrace characterLocation (characterLocation + traceLength • forwardVector) with
  | some _ => none
  | none =>
    match lineTrace characterLocation (characterLocation + traceLength • -rightVector) with
    | none => onTheRight
    | some hit =>
      if FVector.dotProduct hit.impactNormal rightVector > 3 / 10 then some (.left, hit)
      else onTheRight

/-- `IsWallOnTheLeft`.
SOURCE: AG_Task_TickWallRun.cpp:130-133 -/
def isWallOnTheLeft (w : GASCharacter K E C) (hit : FHitResult K) : Bool :=
  decide (FVector.dotProduct w.rightVector hit.impactNormal > 0)

end Search

/-- A write to the movement component. -/
def writeMovement (task : ℕ) (field : TaskField)
    (f : CharacterMovement K → CharacterMovement K) (w : GASCharacter K E C) :
    GASCharacter K E C :=
  { w with movement := f w.movement, taskLog := w.taskLog ++ [.wrote task field] }

/-- `SetActorLocation`. -/
def setActorLocation (task : ℕ) (location : FVector K) (w : GASCharacter K E C) :
    GASCharacter K E C :=
  { w with actorLocation := location, taskLog := w.taskLog ++ [.wrote task .actorLocation] }

/-- Update the task that `WallRunTickTask` points to. -/
def updateTask (f : WallRunTask → WallRunTask) (w : GASCharacter K E C) : GASCharacter K E C :=
  { w with wallRun := { w.wallRun with wallRunTickTask := w.wallRun.wallRunTickTask.map f } }

section Body

variable [Field K]

/-- `OnDestroy`; `Super::OnDestroy` makes the task finished.
SOURCE: AG_Task_TickWallRun.cpp:135-144 -/
def onDestroy (task : ℕ) (w : GASCharacter K E C) : GASCharacter K E C :=
  let w := writeMovement task .planeConstraint
    (fun m => { m with planeConstraintEnabled := false }) w
  let w := writeMovement task .movementMode (fun m => { m with movementMode := .falling }) w
  let w := writeMovement task .gravityScale
    (fun m => { m with gravityScale := destroyedGravityScale K }) w
  let w := updateTask (fun t => { t with finished := true }) w
  { w with taskLog := w.taskLog ++ [.destroyed task] }

/-- `EndTask` of the task in `WallRunTickTask`: nothing, if there is none or it is
finished already. -/
def endTask (w : GASCharacter K E C) : GASCharacter K E C :=
  match w.wallRun.liveTask with
  | none => w
  | some t => onDestroy t.id w

/-- The end of a body that found no wall: `OnFinished` is broadcast while the ability is
active, then the task ends itself.
SOURCE: AG_Task_TickWallRun.cpp:20-27, 63-70 -/
def finish (onFinished : GASCharacter K E C → GASCharacter K E C) (w : GASCharacter K E C) :
    GASCharacter K E C :=
  endTask (if w.wallRun.ability.isActive then onFinished w else w)

/-- A wall has been accepted on this side. -/
def accept (side : WallSide) (w : GASCharacter K E C) : GASCharacter K E C :=
  updateTask (fun t => { t with side := some side }) w

/-- The writes at the end of `Activate`.
SOURCE: AG_Task_TickWallRun.cpp:34-38 -/
def attach (task : ℕ) (hit : FHitResult K) (w : GASCharacter K E C) : GASCharacter K E C :=
  let w := setActorLocation task (hit.impactPoint + (60 : K) • hit.impactNormal) w
  let w := writeMovement task .movementMode (fun m => { m with movementMode := .flying }) w
  writeMovement task .gravityScale (fun m => { m with gravityScale := wallRunGravityScale K }) w

/-- The velocity that `TickTask` sets.
SOURCE: AG_Task_TickWallRun.cpp:73-81 -/
def wallRunVelocity (wallOnTheLeft : Bool) (hit : FHitResult K) : FVector K :=
  let wallRunDirection :=
    if wallOnTheLeft then hit.impactNormal.rotateYawMinus90 else hit.impactNormal.rotateYaw90
  { (700 : K) • wallRunDirection with z := 0 }

/-- The writes at the end of `TickTask`.
SOURCE: AG_Task_TickWallRun.cpp:79-85 -/
def steer (task : ℕ) (wallOnTheLeft : Bool) (hit : FHitResult K) (w : GASCharacter K E C) :
    GASCharacter K E C :=
  let w := writeMovement task .velocity
    (fun m => { m with velocity := wallRunVelocity wallOnTheLeft hit }) w
  writeMovement task .planeConstraint (fun m =>
    { m with
      planeConstraintEnabled := true
      planeConstraintOrigin := hit.impactPoint
      planeConstraintNormal := hit.impactNormal }) w

variable [LinearOrder K]

/-- `Activate`, of the task with this id.
SOURCE: AG_Task_TickWallRun.cpp:10-39 -/
def activate (d : TaskDelegates (GASCharacter K E C)) (lineTrace : LineTrace K) (task : ℕ)
    (w : GASCharacter K E C) : GASCharacter K E C :=
  match findRunnableWall lineTrace w with
  | none => finish d.onFinished w
  | some (side, hit) =>
    let w := d.onWallSideDetermened (isWallOnTheLeft w hit) (accept side w)
    attach task hit (d.landed w)

/-- `TickTask`, of the task with this id; it broadcasts `OnFinished` only.
SOURCE: AG_Task_TickWallRun.cpp:53-86 -/
def tickTask (onFinished : GASCharacter K E C → GASCharacter K E C) (lineTrace : LineTrace K)
    (task : ℕ) (w : GASCharacter K E C) : GASCharacter K E C :=
  match findRunnableWall lineTrace w with
  | none => finish onFinished w
  | some (side, hit) => steer task (isWallOnTheLeft w hit) hit (accept side w)

end Body

end TickWallRun

end GasSamples.Program
