import GasSamples.Model.Character

/-!
# Wall-run sessions

What a wall run is, without effects and abilities: a session that is running or not, and
what it does to the movement component.  The session is started, steered and ended; a
session that is `interrupted` was ended by somebody else while it was starting, and goes
on starting all the same.  `sessionStep` is the abstract machine that the wall-run
ability and its task are shown to follow.
-/

set_option autoImplicit false

namespace GasSamples.Model

/-- A session that is running: its task, and the side of the wall accepted last. -/
structure RunningSession where
  task : ℕ
  side : Option WallSide
deriving DecidableEq

/-- The movement component, the session that is running, if any, and the history of the
sessions. -/
@[ext] structure Session (K : Type) where
  movement : CharacterMovement K
  running : Option RunningSession
  tasksCreated : ℕ
  taskLog : List TaskEvent

/-- What happens to the session. -/
inductive SessionEvent (K : Type)
  | failed
  | started (side : WallSide) (interrupted : Bool)
  | steered (side : WallSide) (velocity origin normal : FVector K)
  | ended

namespace Session

variable {K : Type}

/-- The writes of a task that is destroyed. -/
def destroyLog (task : ℕ) : List TaskEvent :=
  [.wrote task .planeConstraint, .wrote task .movementMode, .wrote task .gravityScale,
    .destroyed task]

/-- The writes at the start of a session. -/
def attachLog (task : ℕ) : List TaskEvent :=
  [.wrote task .actorLocation, .wrote task .movementMode, .wrote task .gravityScale]

/-- The writes of one tick. -/
def steerLog (task : ℕ) : List TaskEvent := [.wrote task .velocity, .wrote task .planeConstraint]

/-- A task has been created. -/
def begun (s : Session K) : Session K :=
  { s with running := some ⟨s.tasksCreated, none⟩, tasksCreated := s.tasksCreated + 1 }

/-- A wall has been accepted. -/
def accepted (side : WallSide) (s : Session K) : Session K :=
  { s with running := s.running.map fun r => { r with side := some side } }

section

variable [Field K]

/-- The session is over; without one nothing happens. -/
def ended (s : Session K) : Session K :=
  match s.running with
  | none => s
  | some r =>
    { s with
      movement := { s.movement with
        planeConstraintEnabled := false
        movementMode := .falling
        gravityScale := destroyedGravityScale K }
      running := none
      taskLog := s.taskLog ++ destroyLog r.task }

/-- The character is put to the wall. -/
def attached (task : ℕ) (s : Session K) : Session K :=
  { s with
    movement := { s.movement with movementMode := .flying, gravityScale := wallRunGravityScale K }
    taskLog := s.taskLog ++ attachLog task }

end

/-- The character is steered along the wall. -/
def steered (velocity origin normal : FVector K) (s : Session K) : Session K :=
  match s.running with
  | none => s
  | some r =>
    { s with
      movement := { s.movement with
        velocity := velocity
        planeConstraintEnabled := true
        planeConstraintOrigin := origin
        planeConstraintNormal := normal }
      taskLog := s.taskLog ++ steerLog r.task }

/-- The task that a session begins has not accepted a wall yet. -/
@[simp] theorem begun_running (s : Session K) :
    s.begun.running = some ⟨s.tasksCreated, none⟩ := rfl

/-- Accepting a wall sets the side of the task that runs. -/
@[simp] theorem accepted_running (side : WallSide) (s : Session K) :
    (s.accepted side).running = s.running.map fun r => { r with side := some side } := rfl

/-- Steering leaves the task as it is. -/
@[simp] theorem steered_running (velocity origin normal : FVector K) (s : Session K) :
    (s.steered velocity origin normal).running = s.running := by
  unfold steered
  cases h : s.running <;> simp [h]

/-- Steering leaves the movement mode and the gravity scale alone. -/
theorem steered_movement (velocity origin normal : FVector K) (s : Session K) :
    (s.steered velocity origin normal).movement.movementMode = s.movement.movementMode ∧
      (s.steered velocity origin normal).movement.gravityScale = s.movement.gravityScale := by
  unfold steered
  cases s.running <;> exact ⟨rfl, rfl⟩

end Session

variable {K : Type} [Field K]

/-- One event in the life of the sessions. -/
def sessionStep (s : Session K) : SessionEvent K → Session K
  | .failed => s.begun.ended
  | .started side interrupted =>
    let fresh := s.begun.accepted side
    (if interrupted then fresh.ended else fresh).attached s.tasksCreated
  | .steered side velocity origin normal => (s.accepted side).steered velocity origin normal
  | .ended => s.ended

namespace Session

/-- Ending a session twice is ending it once. -/
@[simp] theorem ended_ended (s : Session K) : s.ended.ended = s.ended := by
  unfold ended
  cases h : s.running <;> simp [h]

/-- No task runs after the end. -/
@[simp] theorem ended_running (s : Session K) : s.ended.running = none := by
  unfold ended
  cases h : s.running <;> simp [h]

/-- Ending a session that is running resets the movement component. -/
theorem ended_movement {s : Session K} (h : s.running.isSome = true) :
    s.ended.movement = { s.movement with
      planeConstraintEnabled := false
      movementMode := .falling
      gravityScale := destroyedGravityScale K } := by
  obtain ⟨r, hr⟩ := Option.isSome_iff_exists.mp h
  simp [ended, hr]

/-- Attaching to the wall leaves the task as it is. -/
@[simp] theorem attached_running (task : ℕ) (s : Session K) :
    (s.attached task).running = s.running := rfl

/-- Ending has no effect where no task runs. -/
theorem ended_of_none {s : Session K} (h : s.running = none) : s.ended = s := by
  simp [ended, h]

end Session

end GasSamples.Model
