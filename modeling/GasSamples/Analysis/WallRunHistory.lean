import GasSamples.Analysis.WallRunAbility

/-!
# The history of the wall-run tasks

What the tasks of a wall-run ability have written is told by one `TaskHistory` for each
task that was created: its attempt failed, its start was interrupted from inside its own
callbacks, or it steered the character for some ticks and is over or not.  `recordTask`
keeps these histories along the events of the session machine, and `Recorded` says how the
state of the session is read off them: the number of tasks, the whole log, the task that
is running, and what the newest task has left the movement component with.
-/

set_option autoImplicit false

namespace GasSamples.Analysis

open Reactive GasSamples.Model GasSamples.Program

/-- What became of one task. -/
inductive TaskHistory
  | failed
  | interrupted
  | wallRun (ticks : ℕ) (destroyed : Bool)
deriving DecidableEq

namespace TaskHistory

/-- The task is over: its `OnDestroy` has run. -/
def isOver : TaskHistory → Bool
  | failed => true
  | interrupted => true
  | wallRun _ destroyed => destroyed

/-- The writes of the task.  One that was interrupted goes on after its `OnDestroy`. -/
def log (task : ℕ) : TaskHistory → List TaskEvent
  | failed => Session.destroyLog task
  | interrupted => Session.destroyLog task ++ Session.attachLog task
  | wallRun ticks destroyed =>
    Session.attachLog task ++ (List.replicate ticks (Session.steerLog task)).flatten ++
      if destroyed then Session.destroyLog task else []

end TaskHistory

/-- The log of some tasks, the newest first; the oldest is the task `first`. -/
def historyLog (first : ℕ) : List TaskHistory → List TaskEvent
  | [] => []
  | h :: hs => historyLog first hs ++ h.log (first + hs.length)

/-- The task that is running: the newest one, unless it is over. -/
def runningTask (first : ℕ) : List TaskHistory → Option ℕ
  | [] => none
  | h :: hs => if h.isOver then none else some (first + hs.length)

/-- What a wall-run task sets of the movement component, its velocity and the position of
its plane apart. -/
structure MovementSettings (K : Type) where
  movementMode : EMovementMode
  gravityScale : K
  planeConstraintEnabled : Bool

section Settings

variable {K : Type}

/-- The settings of a movement component. -/
def settingsOf (m : CharacterMovement K) : MovementSettings K :=
  ⟨m.movementMode, m.gravityScale, m.planeConstraintEnabled⟩

variable [Field K]

/-- The settings that a task leaves; the plane constraint is enabled by its first tick. -/
def TaskHistory.settings (before : MovementSettings K) : TaskHistory → MovementSettings K
  | failed => ⟨.falling, destroyedGravityScale K, false⟩
  | interrupted => ⟨.flying, wallRunGravityScale K, false⟩
  | wallRun ticks destroyed =>
    if destroyed then ⟨.falling, destroyedGravityScale K, false⟩
    else ⟨.flying, wallRunGravityScale K, before.planeConstraintEnabled || decide (0 < ticks)⟩

/-- The settings that some tasks leave, the newest first. -/
def historySettings (before : MovementSettings K) : List TaskHistory → MovementSettings K
  | [] => before
  | h :: hs => h.settings (historySettings before hs)

end Settings

/-! ## Keeping the histories -/

/-- What an event of the session adds to the histories. -/
def recordTask {K : Type} (hs : List TaskHistory) : SessionEvent K → List TaskHistory
  | .failed => .failed :: hs
  | .started _ interrupted => (if interrupted then .interrupted else .wallRun 0 false) :: hs
  | .steered _ _ _ _ =>
    match hs with
    | .wallRun ticks false :: older => .wallRun (ticks + 1) false :: older
    | hs => hs
  | .ended =>
    match hs with
    | .wallRun ticks false :: older => .wallRun ticks true :: older
    | hs => hs

/-- The event is about the session that is running. -/
def GoesOn {K : Type} : SessionEvent K → Prop
  | .failed => False
  | .started _ _ => False
  | .steered _ _ _ _ => True
  | .ended => True

/-- Tasks that are all over are left alone. -/
theorem recordTask_of_over {K : Type} {hs : List TaskHistory} (hs_over : ∀ t ∈ hs, t.isOver = true)
    {d : SessionEvent K} (hd : GoesOn d) : recordTask hs d = hs := by
  cases hs with
  | nil => cases d <;> first | rfl | exact hd.elim
  | cons newest older =>
    have hnewest := hs_over newest List.mem_cons_self
    cases newest with
    | failed => cases d <;> first | rfl | exact hd.elim
    | interrupted => cases d <;> first | rfl | exact hd.elim
    | wallRun ticks destroyed =>
      simp only [TaskHistory.isOver] at hnewest
      subst hnewest
      cases d <;> first | rfl | exact hd.elim

/-- A session in which each task is begun after the one before it is over. -/
def BeginsIdle {K : Type} (s : Session K) : SessionEvent K → Prop
  | .failed => s.running = none
  | .started _ _ => s.running = none
  | .steered _ _ _ _ => True
  | .ended => True

section Recorded

variable {K : Type} [Field K]

/-- The session that has come from `s₀` is told by the histories of its tasks. -/
structure Recorded (s₀ : Session K) (hs : List TaskHistory) (s : Session K) : Prop where
  tasksCreated : s.tasksCreated = s₀.tasksCreated + hs.length
  taskLog : s.taskLog = s₀.taskLog ++ historyLog s₀.tasksCreated hs
  running : s.running.map RunningSession.task = runningTask s₀.tasksCreated hs
  older_over : ∀ h ∈ hs.tail, h.isOver = true
  settings : settingsOf s.movement = historySettings (settingsOf s₀.movement) hs

/-- A session that no task runs in starts with an empty record. -/
theorem recorded_idle {s : Session K} (hnone : s.running = none) : Recorded s [] s where
  tasksCreated := rfl
  taskLog := (List.append_nil _).symm
  running := by
    rw [hnone]
    rfl
  older_over h hh := absurd hh List.not_mem_nil
  settings := rfl

variable {s₀ s : Session K} {hs : List TaskHistory}

/-- Without a running session every task is over. -/
theorem Recorded.all_over (h : Recorded s₀ hs s) (hnone : s.running = none) :
    ∀ t ∈ hs, t.isOver = true := by
  intro t ht
  have hrunning := h.running
  cases hs with
  | nil => exact absurd ht List.not_mem_nil
  | cons newest older =>
    rcases List.mem_cons.mp ht with rfl | ht
    · rw [hnone, Option.map_none, runningTask] at hrunning
      by_contra hover
      rw [if_neg hover] at hrunning
      exact absurd hrunning (by simp)
    · exact h.older_over t ht

/-- A running session is that of the newest task, which is steering. -/
theorem Recorded.exists_running (h : Recorded s₀ hs s) {r : RunningSession}
    (hr : s.running = some r) : ∃ ticks older, hs = .wallRun ticks false :: older ∧
      r.task = s₀.tasksCreated + older.length := by
  have hrunning := h.running
  rw [hr, Option.map_some] at hrunning
  cases hs with
  | nil => exact absurd hrunning (by simp [runningTask])
  | cons newest older =>
    cases newest with
    | failed => exact absurd hrunning (by simp [runningTask, TaskHistory.isOver])
    | interrupted => exact absurd hrunning (by simp [runningTask, TaskHistory.isOver])
    | wallRun ticks destroyed =>
      cases destroyed with
      | true => exact absurd hrunning (by simp [runningTask, TaskHistory.isOver])
      | false => exact ⟨ticks, older, rfl, Option.some.inj hrunning⟩

/-- A session that is begun adds a task. -/
theorem Recorded.begins (h : Recorded s₀ hs s) (hnone : s.running = none) {s' : Session K}
    {t : TaskHistory} (hcreated : s'.tasksCreated = s.tasksCreated + 1)
    (hlog : s'.taskLog = s.taskLog ++ t.log s.tasksCreated)
    (hrunning : s'.running.map RunningSession.task =
      if t.isOver then none else some s.tasksCreated)
    (hsettings : settingsOf s'.movement = t.settings (settingsOf s.movement)) :
    Recorded s₀ (t :: hs) s' where
  tasksCreated := by
    rw [hcreated, h.tasksCreated, List.length_cons]
    omega
  taskLog := by
    rw [hlog, h.taskLog, h.tasksCreated, historyLog, List.append_assoc]
  running := by
    rw [hrunning, runningTask, h.tasksCreated]
  older_over := h.all_over hnone
  settings := by
    rw [hsettings, h.settings, historySettings]

/-- A session that goes on, or ends, changes its newest task. -/
theorem Recorded.goes_on {ticks : ℕ} {older : List TaskHistory}
    (h : Recorded s₀ (.wallRun ticks false :: older) s) {s' : Session K} {t : TaskHistory}
    (hcreated : s'.tasksCreated = s.tasksCreated)
    (hlog : s'.taskLog = s₀.taskLog ++ historyLog s₀.tasksCreated (t :: older))
    (hrunning : s'.running.map RunningSession.task =
      if t.isOver then none else some (s₀.tasksCreated + older.length))
    (hsettings : settingsOf s'.movement =
      t.settings (historySettings (settingsOf s₀.movement) older)) :
    Recorded s₀ (t :: older) s' where
  tasksCreated := by
    rw [hcreated, h.tasksCreated, List.length_cons, List.length_cons]
  taskLog := hlog
  running := hrunning
  older_over := h.older_over
  settings := hsettings

/-- A tick along the wall keeps the record. -/
theorem Recorded.steered (h : Recorded s₀ hs s) (side : WallSide)
    (velocity origin normal : FVector K) :
    Recorded s₀ (recordTask hs (.steered side velocity origin normal))
      (sessionStep s (.steered side velocity origin normal)) := by
  cases hr : s.running with
  | none =>
    have hsame : sessionStep s (.steered side velocity origin normal) = s := by
      have haccepted : s.accepted side = s := by
        apply Session.ext <;> simp [Session.accepted, hr]
      show (s.accepted side).steered velocity origin normal = s
      rw [haccepted]
      unfold Session.steered
      rw [hr]
    have hsame' : recordTask hs (.steered side velocity origin normal) = hs :=
      recordTask_of_over (h.all_over hr) trivial
    rw [hsame, hsame']
    exact h
  | some r =>
    obtain ⟨ticks, older, rfl, htask⟩ := h.exists_running hr
    have hstep : sessionStep s (.steered side velocity origin normal) =
        { s with
          movement := { s.movement with
            velocity := velocity
            planeConstraintEnabled := true
            planeConstraintOrigin := origin
            planeConstraintNormal := normal }
          running := some { r with side := some side }
          taskLog := s.taskLog ++ Session.steerLog r.task } := by
      simp [sessionStep, Session.accepted, Session.steered, hr]
    have hsettings := h.settings
    simp only [settingsOf, historySettings, TaskHistory.settings, Bool.false_eq_true, if_false,
      MovementSettings.mk.injEq] at hsettings
    rw [hstep]
    apply h.goes_on
    · rfl
    · -- one more tick at the end of the log
      have hlog := h.taskLog
      simp only [historyLog, TaskHistory.log, Bool.false_eq_true, if_false, List.append_nil]
        at hlog ⊢
      rw [hlog, htask, List.replicate_succ', List.flatten_append]
      simp only [List.flatten_cons, List.flatten_nil, List.append_nil, List.append_assoc]
    · simp [TaskHistory.isOver, htask]
    · simp [settingsOf, TaskHistory.settings, hsettings.1, hsettings.2.1]

/-- The end of a wall run is recorded. -/
theorem Recorded.ended (h : Recorded s₀ hs s) :
    Recorded s₀ (recordTask (K := K) hs .ended) (sessionStep s .ended) := by
  cases hr : s.running with
  | none =>
    have hsame : recordTask (K := K) hs .ended = hs :=
      recordTask_of_over (h.all_over hr) trivial
    show Recorded s₀ _ s.ended
    rw [Session.ended_of_none hr, hsame]
    exact h
  | some r =>
    obtain ⟨ticks, older, rfl, htask⟩ := h.exists_running hr
    show Recorded s₀ (.wallRun ticks true :: older) s.ended
    apply h.goes_on
    · simp [Session.ended, hr]
    · have hlog := h.taskLog
      simp only [historyLog, TaskHistory.log, Bool.false_eq_true, if_false, List.append_nil,
        if_true] at hlog ⊢
      simp only [Session.ended, hr, hlog, htask, List.append_assoc]
    · simp [TaskHistory.isOver]
    · rw [Session.ended_movement (by simp [hr])]
      rfl

/-- **The step lemma**: the histories are kept along the session machine. -/
theorem Recorded.step (h : Recorded s₀ hs s) {d : SessionEvent K} (hd : BeginsIdle s d) :
    Recorded s₀ (recordTask hs d) (sessionStep s d) := by
  cases d with
  | failed =>
    apply h.begins hd
    · rfl
    · rfl
    · rfl
    · rfl
  | started side interrupted =>
    cases interrupted with
    | false =>
      apply h.begins hd
      · rfl
      · show _ = s.taskLog ++ (TaskHistory.wallRun 0 false).log s.tasksCreated
        simp [TaskHistory.log, sessionStep, Session.attached, Session.accepted, Session.begun]
      · rfl
      · simp [sessionStep, settingsOf, Session.attached, Session.accepted, Session.begun,
          TaskHistory.settings]
    | true =>
      apply h.begins hd
      · rfl
      · show _ = s.taskLog ++ TaskHistory.interrupted.log s.tasksCreated
        rw [TaskHistory.log, ← List.append_assoc]
        rfl
      · rfl
      · rfl
  | steered side velocity origin normal => exact h.steered side velocity origin normal
  | ended => exact h.ended

end Recorded

/-! ## Every task is destroyed once -/

section Destroyed

/-- Every task from `first` on that was created is destroyed once, unless it is running. -/
def DestroyedOnce {K : Type} (first : ℕ) (s : Session K) : Prop :=
  ∀ t, first ≤ t → t < s.tasksCreated → s.taskLog.count (.destroyed t) =
    if s.running.map RunningSession.task = some t then 0 else 1

/-- Its own history destroys a task once, when it is over. -/
theorem count_destroyed_log (h : TaskHistory) (task t : ℕ) :
    (h.log task).count (.destroyed t) = if h.isOver = true ∧ t = task then 1 else 0 := by
  have hsteer : ∀ n, (List.replicate n (Session.steerLog task)).flatten.count (.destroyed t) =
      0 := by
    intro n
    induction n with
    | zero => rfl
    | succ n ih =>
      rw [List.replicate_succ, List.flatten_cons, List.count_append, ih]
      simp [Session.steerLog]
  have hattach : (Session.attachLog task).count (.destroyed t) = 0 := by
    simp [Session.attachLog]
  have hdestroy : (Session.destroyLog task).count (.destroyed t) = if t = task then 1 else 0 := by
    by_cases ht : t = task
    · simp [Session.destroyLog, ht]
    · have hne : task ≠ t := fun heq => ht heq.symm
      simp [Session.destroyLog, ht, hne]
  cases h with
  | failed => simp [TaskHistory.log, TaskHistory.isOver, hdestroy]
  | interrupted => simp [TaskHistory.log, TaskHistory.isOver, hdestroy, hattach]
  | wallRun ticks destroyed =>
    cases destroyed with
    | false => simp [TaskHistory.log, TaskHistory.isOver, hsteer, hattach]
    | true => simp [TaskHistory.log, TaskHistory.isOver, hsteer, hattach, hdestroy]

/-- Tasks that are all over are all destroyed once. -/
theorem count_destroyed_of_over (first : ℕ) {hs : List TaskHistory}
    (hover : ∀ h ∈ hs, h.isOver = true) (t : ℕ) :
    (historyLog first hs).count (.destroyed t) =
      if first ≤ t ∧ t < first + hs.length then 1 else 0 := by
  induction hs with
  | nil =>
    have hnothing : ¬ (first ≤ t ∧ t < first + 0) := by omega
    rw [List.length_nil, if_neg hnothing]
    rfl
  | cons h hs ih =>
    have hh := hover h List.mem_cons_self
    rw [historyLog, List.count_append, ih fun h' hh' => hover h' (List.mem_cons_of_mem _ hh'),
      count_destroyed_log, List.length_cons]
    simp only [hh, true_and]
    split_ifs <;> omega

variable {K : Type} [Field K]

/-- A recorded session has destroyed each of its finished tasks once. -/
theorem Recorded.destroyedOnce {s₀ s : Session K} {hs : List TaskHistory}
    (h : Recorded s₀ hs s) (hempty : s₀.taskLog = []) : DestroyedOnce s₀.tasksCreated s := by
  intro t hfirst hlt
  rw [h.tasksCreated] at hlt
  rw [h.taskLog, hempty, List.nil_append, h.running]
  cases hs with
  | nil =>
    have hempty : ¬ t < s₀.tasksCreated + 0 := by omega
    exact absurd hlt hempty
  | cons newest older =>
    rw [List.length_cons] at hlt
    have holder : ∀ h ∈ older, h.isOver = true := h.older_over
    rw [historyLog, List.count_append, count_destroyed_of_over _ holder, count_destroyed_log,
      runningTask]
    cases hnewest : newest.isOver with
    | true =>
      simp only [true_and, if_true]
      split_ifs <;> first | omega | simp_all
    | false =>
      simp only [Bool.false_eq_true, false_and, if_false, Option.some.injEq]
      split_ifs <;> omega

end Destroyed

/-! ## Runs of the ability -/

section Runs

variable {K E C : Type} [DecidableEq E] [Field K] [LinearOrder K] (c : WallRunClass E)

/-- The events of the session machine that a run of the ability stands for. -/
def sessionEvents (w : GASCharacter K E C) (es : List (WallRunEvent K)) :
    List (SessionEvent K) :=
  viewRun (wallRunStep c) (fun w e => (wallRunView c w e).toList) w es

omit [DecidableEq E] in
/-- The ability begins no session while one is running. -/
theorem beginsIdle_of_view {w : GASCharacter K E C} (hw : WallRunSettled w)
    {e : WallRunEvent K} {d : SessionEvent K} (hd : wallRunView c w e = some d) :
    BeginsIdle (sessionOf w) d := by
  cases e with
  | activate env callbacks =>
    by_cases hentered : entersWallRun w env = true
    · have hcount := activeCount_eq_zero_of_enters hentered
      have hnone : (sessionOf w).running = none := by
        have hactive := hw.isActive
        rw [(AbilityInstance.isActive_eq_false _).mpr hcount] at hactive
        exact Option.isSome_eq_false_iff.mp hactive.symm |> Option.isNone_iff_eq_none.mp
      cases d with
      | failed => exact hnone
      | started side interrupted => exact hnone
      | steered side velocity origin normal => trivial
      | ended => trivial
    · simp [wallRunView, hentered] at hd
  | tick lineTrace =>
    cases d with
    | failed =>
      simp only [wallRunView] at hd
      split at hd
      · split at hd <;> exact absurd hd (by simp)
      · exact absurd hd (by simp)
    | started side interrupted =>
      simp only [wallRunView] at hd
      split at hd
      · split at hd <;> exact absurd hd (by simp)
      · exact absurd hd (by simp)
    | steered side velocity origin normal => trivial
    | ended => trivial
  | cancel =>
    simp only [wallRunView] at hd
    split at hd
    · obtain rfl := Option.some.inj hd
      trivial
    · exact absurd hd (by simp)
  | moved location forward right => exact absurd hd (by simp [wallRunView])

variable [IsStrictOrderedRing K]

/-- The run lemma. -/
theorem recorded_run {s₀ : Session K} {w : GASCharacter K E C} {hs : List TaskHistory}
    (hw : WallRunSettled w) (h : Recorded s₀ hs (sessionOf w)) (es : List (WallRunEvent K)) :
    Recorded s₀ (run recordTask hs (sessionEvents c w es))
      (sessionOf (run (wallRunStep c) w es)) := by
  induction es generalizing w hs with
  | nil => exact h
  | cons e es ih =>
    have hfollows := follows_wallRunStep c hw e
    have hevents : sessionEvents c w (e :: es) =
        (wallRunView c w e).toList ++ sessionEvents c (wallRunStep c w e) es := rfl
    rw [run_cons, hevents, run_append]
    apply ih hfollows.settled
    rw [hfollows.session]
    cases hview : wallRunView c w e with
    | none => exact h
    | some d => exact h.step (beginsIdle_of_view c hw hview)

/-- **The history of the wall-run tasks.**  For every run of the wall-run ability, whatever
ends it from inside its own callbacks, from a character without a running session and
without a log: the session is the one that the session machine reaches, and it is told by
one history for each created task: the tasks' writes are those histories one after the
other, in the order the tasks were created, only the newest task may be running, the mode,
the gravity scale and the plane constraint are those the newest task has left, and every
task is destroyed exactly once unless it is running.
SOURCE: AG_Task_TickWallRun.cpp:10-86, 135-144, AG_WallRunAbility.cpp:42-109 -/
theorem wallRun_history (w : GASCharacter K E C) (hinactive : w.wallRun.ability.activeCount = 0)
    (hidle : w.wallRun.liveTask = none) (hlog : w.taskLog = []) (es : List (WallRunEvent K)) :
    sessionOf (run (wallRunStep c) w es) =
        run sessionStep (sessionOf w) (sessionEvents c w es) ∧
      Recorded (sessionOf w) (run recordTask [] (sessionEvents c w es))
        (sessionOf (run (wallRunStep c) w es)) ∧
      DestroyedOnce w.tasksCreated (sessionOf (run (wallRunStep c) w es)) := by
  have hsettled : WallRunSettled w := (onWall_idle hinactive hidle).1
  have hrecorded := recorded_run c hsettled
    (recorded_idle (sessionOf_running_eq_none.mpr hidle)) es
  refine ⟨?_, hrecorded, hrecorded.destroyedOnce hlog⟩
  exact abs_run WallRunSettled (fun _ => True)
    (fun w' e _ hw' => (follows_wallRunStep c hw' e).session)
    (fun w' e _ hw' => (follows_wallRunStep c hw' e).settled) hsettled fun _ _ => trivial

end Runs

/-- A wall run of two ticks, a start that the side effect interrupts, and an attempt that
finds nothing. -/
def threeTasks : List (WallRunEvent ℚ) :=
  [wallRunAttempt wallOnTheLeft (.quiet .added), .tick wallOnTheLeft, .tick wallOnTheLeft,
    .tick openSpace, wallRunAttempt wallOnTheLeft ⟨⟨false, .added, true⟩, false, false, false⟩,
    wallRunAttempt openSpace (.quiet .added)]

/-- The three tasks are destroyed once each, with their histories in the order of creation. -/
theorem wallRun_history_threeTasks :
    sessionOf (run (wallRunStep wallRunWithSides) fallingCharacter threeTasks) =
        run sessionStep (sessionOf fallingCharacter)
          (sessionEvents wallRunWithSides fallingCharacter threeTasks) ∧
      Recorded (sessionOf fallingCharacter)
        (run recordTask [] (sessionEvents wallRunWithSides fallingCharacter threeTasks))
        (sessionOf (run (wallRunStep wallRunWithSides) fallingCharacter threeTasks)) ∧
      DestroyedOnce 0
        (sessionOf (run (wallRunStep wallRunWithSides) fallingCharacter threeTasks)) :=
  wallRun_history wallRunWithSides fallingCharacter rfl rfl rfl threeTasks

example : run recordTask [] (sessionEvents wallRunWithSides fallingCharacter threeTasks) =
    [.failed, .interrupted, .wallRun 2 true] := by decide +kernel

end GasSamples.Analysis
