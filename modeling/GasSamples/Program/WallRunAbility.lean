import GasSamples.Program.GASCharacter
import GasSamples.Program.TickWallRun

/-!
# `UAG_WallRunAbility`

Activation creates a `UAG_Task_TickWallRun`, binds `K2_EndAbility` and the side handler
to its delegates and activates it.  `EndAbility` ends the task and removes the side
effects.  A `TaskCallbacks` says from which calls out of the task the ability is ended
in one activation.
-/

set_option autoImplicit false

namespace GasSamples.Program

open GasSamples.Model

/-- The class defaults of the wall run, with the character's `InAirTags` as the classes
that match them. -/
structure WallRunClass (E : Type) where
  ongoingEffectsToRemoveOnEnd : List (Option E)
  ongoingEffectsToApplyOnStart : List (Option E)
  wallRunLeftSideEffectClass : Option E
  wallRunRightSideEffectClass : Option E
  inAirTags : E → Bool

/-- The base part of the class.
SOURCE: AG_WallRunAbility.cpp:13-17 -/
def WallRunClass.base {E : Type} (c : WallRunClass E) : AbilityClass E where
  instancingPolicy := .instancedPerActor
  ongoingEffectsToRemoveOnEnd := c.ongoingEffectsToRemoveOnEnd
  ongoingEffectsToApplyOnStart := c.ongoingEffectsToApplyOnStart

/-- What one attempt to start a wall run meets: the answer of `Super::CanActivateAbility`,
the outcome of each effect application of the base class, and the traces. -/
structure WallRunActivation (K : Type) where
  superCanActivate : Bool
  start : ℕ → ApplyOutcome
  remove : ℕ → ApplyOutcome
  lineTrace : LineTrace K

/-- The calls out of a task that found a wall: the application of the side effect, and
whether a further listener of `OnWallSideDetermened`, `Super::Landed` or the removal of
the `InAirTags` effects ends the ability. -/
structure TaskCallbacks where
  sideEffect : ApplyCall
  listenerEnds : Bool
  superLandedEnds : Bool
  removalEnds : Bool

/-- Calls from which the ability is not ended. -/
def TaskCallbacks.quiet (outcome : ApplyOutcome) : TaskCallbacks :=
  ⟨.quiet outcome, false, false, false⟩

namespace WallRunAbility

variable {K E C : Type}

/-- The part of the character that the base class works on. -/
def baseState (w : GASCharacter K E C) : BaseState E := ⟨w.asc, w.wallRun.ability⟩

/-- Put the base part back. -/
def setBaseState (w : GASCharacter K E C) (b : BaseState E) : GASCharacter K E C :=
  { w with asc := b.asc, wallRun := { w.wallRun with ability := b.ability } }

/-- `CanActivateAbility`.
SOURCE: AG_WallRunAbility.cpp:42-52 -/
def canActivateAbility (superCanActivate : Bool) (w : GASCharacter K E C) : Bool :=
  if !superCanActivate then false
  else w.avatarValid && !w.movement.movementMode.isMovingOnGround

/-- `PreActivate`. -/
def preActivate (w : GASCharacter K E C) : GASCharacter K E C :=
  { w with wallRun := { w.wallRun with ability := w.wallRun.ability.preActivate } }

/-- `CreateWallRunTask`, assigned to `WallRunTickTask`.
SOURCE: AG_WallRunAbility.cpp:58, AG_Task_TickWallRun.cpp:41-51 -/
def createWallRunTask (w : GASCharacter K E C) : GASCharacter K E C :=
  { w with
    wallRun := { w.wallRun with wallRunTickTask := some ⟨w.tasksCreated, false, none⟩ }
    tasksCreated := w.tasksCreated + 1 }

variable [DecidableEq E]

/-- The removal of both side effects in `EndAbility`.
SOURCE: AG_WallRunAbility.cpp:100-106 -/
def removeSideEffects (c : WallRunClass E) (w : GASCharacter K E C) : GASCharacter K E C :=
  { w with asc :=
    (w.asc.removeActiveGameplayEffectBySourceEffect c.wallRunLeftSideEffectClass)
      |>.removeActiveGameplayEffectBySourceEffect c.wallRunRightSideEffectClass }

variable [Field K]

/-- `EndAbility`.
SOURCE: AG_WallRunAbility.cpp:93-109 -/
def endAbility (c : WallRunClass E) (w : GASCharacter K E C) : GASCharacter K E C :=
  let w := removeSideEffects c (TickWallRun.endTask w)
  setBaseState w (BaseGameplayAbility.endAbility c.base (baseState w))

/-- `OnWallSideDetermened`, and a further listener of the delegate.
SOURCE: AG_WallRunAbility.cpp:76-91 -/
def onWallSideDetermened (c : WallRunClass E) (callbacks : TaskCallbacks) (leftSide : Bool)
    (w : GASCharacter K E C) : GASCharacter K E C :=
  let effect := if leftSide then c.wallRunLeftSideEffectClass else c.wallRunRightSideEffectClass
  let w := (AGASCharacter.applyGameplayEffectToSelf (endAbility c) effect callbacks.sideEffect w).2
  if callbacks.listenerEnds then endAbility c w else w

/-- The delegates that `ActivateAbility` binds, and `Landed`.
SOURCE: AG_WallRunAbility.cpp:60-61 -/
def delegates (c : WallRunClass E) (callbacks : TaskCallbacks) :
    TaskDelegates (GASCharacter K E C) where
  onFinished := endAbility c
  onWallSideDetermened := onWallSideDetermened c callbacks
  landed := AGASCharacter.landed (endAbility c) c.inAirTags callbacks.superLandedEnds
    callbacks.removalEnds

/-- `CancelAbility`, or an end of the ability from outside. -/
def cancelAbility (c : WallRunClass E) (w : GASCharacter K E C) : GASCharacter K E C :=
  if w.wallRun.ability.isActive then endAbility c w else w

variable [LinearOrder K]

/-- `ActivateAbility`.
SOURCE: AG_WallRunAbility.cpp:54-64 -/
def activateAbility (c : WallRunClass E) (env : WallRunActivation K) (callbacks : TaskCallbacks)
    (w : GASCharacter K E C) : GASCharacter K E C :=
  let w := setBaseState w
    (BaseGameplayAbility.activateAbility c.base (.quiet env.start env.remove) (baseState w))
  TickWallRun.activate (delegates c callbacks) env.lineTrace w.tasksCreated (createWallRunTask w)

/-- `TryActivateAbility`, with its return value.  `OnCapsuleComponentHit` is a call of it.
SOURCE: AG_WallRunAbility.cpp:66-74 -/
def tryActivateAbility (c : WallRunClass E) (env : WallRunActivation K)
    (callbacks : TaskCallbacks) (w : GASCharacter K E C) : Bool × GASCharacter K E C :=
  if w.wallRun.ability.isActive || !canActivateAbility env.superCanActivate w then (false, w)
  else (true, activateAbility c env callbacks (preActivate w))

/-- A tick of the world: a live task is ticked. -/
def tick (c : WallRunClass E) (lineTrace : LineTrace K)
    (w : GASCharacter K E C) : GASCharacter K E C :=
  match w.wallRun.liveTask with
  | none => w
  | some t => TickWallRun.tickTask (endAbility c) lineTrace t.id w

end WallRunAbility

/-- What happens to the wall-run ability.  `moved` is any change of the character's pose
by others. -/
inductive WallRunEvent (K : Type)
  | activate (env : WallRunActivation K) (callbacks : TaskCallbacks)
  | tick (lineTrace : LineTrace K)
  | cancel
  | moved (location forward right : FVector K)

/-- One event in the life of the wall-run ability. -/
def wallRunStep {K E C : Type} [DecidableEq E] [Field K] [LinearOrder K] (c : WallRunClass E)
    (w : GASCharacter K E C) : WallRunEvent K → GASCharacter K E C
  | .activate env callbacks => (WallRunAbility.tryActivateAbility c env callbacks w).2
  | .tick lineTrace => WallRunAbility.tick c lineTrace w
  | .cancel => WallRunAbility.cancelAbility c w
  | .moved location forward right =>
    { w with actorLocation := location, forwardVector := forward, rightVector := right }

end GasSamples.Program
