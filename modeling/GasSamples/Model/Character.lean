import GasSamples.Model.AbilitySystem

/-!
# The state of one character

An `AGASCharacter` with its movement component, capsule, motion-warping component and
ability system component, and the instances of the native traversal abilities.  Fields
that no modelled function reads or writes are left out.

Four fields are history variables: `passedCommit` (the running vault got through its
commit), `side` (the wall-run task's most recently accepted wall), and `tasksCreated`
and `taskLog`, which record the writes of each wall-run task to the character and the
end of its `OnDestroy`.
-/

set_option autoImplicit false

namespace GasSamples.Model

/-- `UCharacterMovementComponent`, as far as the abilities touch it. -/
structure CharacterMovement (K : Type) where
  movementMode : EMovementMode
  gravityScale : K
  velocity : FVector K
  planeConstraintEnabled : Bool
  planeConstraintOrigin : FVector K
  planeConstraintNormal : FVector K
deriving DecidableEq

section GravityScale

variable (K : Type) [Field K]

/-- The gravity scale of a wall run, `0.2f`.
SOURCE: AG_Task_TickWallRun.cpp:38 -/
def wallRunGravityScale : K := 1 / 5

/-- The gravity scale after a wall run, `1.75f`.
SOURCE: AG_Task_TickWallRun.cpp:141 -/
def destroyedGravityScale : K := 7 / 4

end GravityScale

/-- The vault ability of the character. `montageTask` says whether `MontageTask` is valid. -/
structure VaultOverState (K : Type) where
  ability : AbilityInstance
  montageTask : Bool
  jumpToLocation : FVector K
  jumpOverLocation : FVector K
  passedCommit : Bool

/-- The side a wall is on, seen from the character. -/
inductive WallSide
  | left
  | right
deriving DecidableEq

/-- A `UAG_Task_TickWallRun`. -/
structure WallRunTask where
  id : ℕ
  finished : Bool
  side : Option WallSide
deriving DecidableEq

/-- The wall-run ability of the character. -/
structure WallRunState where
  ability : AbilityInstance
  wallRunTickTask : Option WallRunTask

/-- The parts of the character that a wall-run task writes. -/
inductive TaskField
  | movementMode
  | gravityScale
  | velocity
  | planeConstraint
  | actorLocation
deriving DecidableEq

/-- A wall-run task has written a field, or its `OnDestroy` has run. -/
inductive TaskEvent
  | wrote (task : ℕ) (field : TaskField)
  | destroyed (task : ℕ)
deriving DecidableEq

/-- The character: `K` are the scalars, `E` the gameplay-effect classes, `C` the
collision channels. -/
structure GASCharacter (K E C : Type) where
  avatarValid : Bool
  actorLocation : FVector K
  forwardVector : FVector K
  rightVector : FVector K
  actorRotation : FRotator K
  capsuleRadius : K
  movement : CharacterMovement K
  collisionResponse : C → ECollisionResponse
  warpTargets : String → Option (FMotionWarpingTarget K)
  asc : AbilitySystem E
  vault : VaultOverState K
  wallRun : WallRunState
  jump : AbilityInstance
  pressedJump : Bool
  tasksCreated : ℕ
  taskLog : List TaskEvent

/-- A wall-run task is live from its activation until its `OnDestroy`. -/
def WallRunState.liveTask (s : WallRunState) : Option WallRunTask :=
  s.wallRunTickTask.filter fun t => !t.finished

namespace GASCharacter

variable {K E C : Type}

/-- `SetMovementMode`. -/
def setMovementMode (w : GASCharacter K E C) (mode : EMovementMode) : GASCharacter K E C :=
  { w with movement := { w.movement with movementMode := mode } }

/-- `AddOrUpdateWarpTargetFromLocationAndRotation`. -/
def addOrUpdateWarpTarget (w : GASCharacter K E C) (name : String) (location : FVector K)
    (rotation : FRotator K) : GASCharacter K E C :=
  { w with warpTargets := Function.update w.warpTargets name (some ⟨location, rotation⟩) }

/-- `RemoveWarpTarget`. -/
def removeWarpTarget (w : GASCharacter K E C) (name : String) : GASCharacter K E C :=
  { w with warpTargets := Function.update w.warpTargets name none }

/-- A character that has just been spawned at the origin, facing along X: it was granted
its abilities and has used none of them.
SOURCE: GASCharacter.cpp:32 (the capsule) -/
def spawned [Zero K] [One K] [NatCast K] (mode : EMovementMode) (gravityScale : K)
    (collisionResponse : C → ECollisionResponse) : GASCharacter K E C where
  avatarValid := true
  actorLocation := ⟨0, 0, 0⟩
  forwardVector := ⟨1, 0, 0⟩
  rightVector := ⟨0, 1, 0⟩
  actorRotation := ⟨0, 0, 0⟩
  capsuleRadius := (42 : ℕ)
  movement := ⟨mode, gravityScale, ⟨0, 0, 0⟩, false, ⟨0, 0, 0⟩, ⟨0, 0, 0⟩⟩
  collisionResponse := collisionResponse
  warpTargets := fun _ => none
  asc := Reactive.HandleStore.empty
  vault := ⟨.fresh, false, ⟨0, 0, 0⟩, ⟨0, 0, 0⟩, false⟩
  wallRun := ⟨.fresh, none⟩
  jump := .fresh
  pressedJump := false
  tasksCreated := 0
  taskLog := []

end GASCharacter

end GasSamples.Model
