import GasSamples.Analysis.WallRunAbility

/-!
# Writes of a destroyed wall-run task

`Activate` goes on with its writes after its calls out, and does not ask whether the task
was finished meanwhile.  `Logged` is the invariant of the sessions in which that never
happens: the running task is not destroyed, and no task writes after its `OnDestroy`.
Every event of the session machine but an interrupted start keeps it.
-/

set_option autoImplicit false

namespace GasSamples.Analysis

open Reactive GasSamples.Model GasSamples.Program

/-- No task writes after its `OnDestroy` has run. -/
def NoWriteAfterDestroy (log : List TaskEvent) : Prop :=
  log.Pairwise fun a b => ∀ task field, a = .destroyed task → b ≠ .wrote task field

/-- The task an event of the log is about. -/
def taskOf : TaskEvent → ℕ
  | .wrote task _ => task
  | .destroyed task => task

/-! ## Logs -/

/-- A task that was not destroyed may go on. -/
theorem NoWriteAfterDestroy.append {log log' : List TaskEvent} {task : ℕ}
    (h : NoWriteAfterDestroy log) (h' : NoWriteAfterDestroy log')
    (hown : ∀ e ∈ log', taskOf e = task) (hfree : TaskEvent.destroyed task ∉ log) :
    NoWriteAfterDestroy (log ++ log') := by
  unfold NoWriteAfterDestroy
  rw [List.pairwise_append]
  refine ⟨h, h', ?_⟩
  intro a ha b hb task' field hdestroyed hwrote
  have htask : task' = task := by
    have hb' := hown b hb
    rw [hwrote] at hb'
    exact hb'
  apply hfree
  rw [← htask, ← hdestroyed]
  exact ha

/-- The writes of `OnDestroy` come with the destruction. -/
theorem noWriteAfterDestroy_destroyLog (task : ℕ) :
    NoWriteAfterDestroy (Session.destroyLog task) := by
  simp [NoWriteAfterDestroy, Session.destroyLog]

/-- Nothing is destroyed while a task attaches. -/
theorem noWriteAfterDestroy_attachLog (task : ℕ) :
    NoWriteAfterDestroy (Session.attachLog task) := by
  simp [NoWriteAfterDestroy, Session.attachLog]

/-- Nothing is destroyed while a task steers. -/
theorem noWriteAfterDestroy_steerLog (task : ℕ) :
    NoWriteAfterDestroy (Session.steerLog task) := by
  simp [NoWriteAfterDestroy, Session.steerLog]

/-- What `OnDestroy` logs is about its task. -/
theorem taskOf_destroyLog {task : ℕ} {e : TaskEvent} (h : e ∈ Session.destroyLog task) :
    taskOf e = task := by
  simp only [Session.destroyLog, List.mem_cons, List.not_mem_nil, or_false] at h
  rcases h with rfl | rfl | rfl | rfl <;> rfl

/-- What attaching logs is about its task. -/
theorem taskOf_attachLog {task : ℕ} {e : TaskEvent} (h : e ∈ Session.attachLog task) :
    taskOf e = task := by
  simp only [Session.attachLog, List.mem_cons, List.not_mem_nil, or_false] at h
  rcases h with rfl | rfl | rfl <;> rfl

/-- What steering logs is about its task. -/
theorem taskOf_steerLog {task : ℕ} {e : TaskEvent} (h : e ∈ Session.steerLog task) :
    taskOf e = task := by
  simp only [Session.steerLog, List.mem_cons, List.not_mem_nil, or_false] at h
  rcases h with rfl | rfl <;> rfl

/-! ## The invariant of the sessions -/

variable {K : Type}

/-- The log is about tasks that were created, the running task is not destroyed in it,
and nothing is written after an `OnDestroy`. -/
structure Logged (s : Session K) : Prop where
  task_lt : ∀ e ∈ s.taskLog, taskOf e < s.tasksCreated
  running_lt : ∀ r, s.running = some r → r.task < s.tasksCreated
  running_free : ∀ r, s.running = some r → TaskEvent.destroyed r.task ∉ s.taskLog
  ordered : NoWriteAfterDestroy s.taskLog

/-- A session without a task and a log is well logged. -/
theorem logged_idle {s : Session K} (hnone : s.running = none) (hempty : s.taskLog = []) :
    Logged s := by
  constructor
  · rw [hempty]
    exact fun e he => absurd he List.not_mem_nil
  · rw [hnone]
    exact fun r hr => absurd hr (by simp)
  · rw [hempty]
    exact fun r _ => List.not_mem_nil
  · rw [hempty]
    exact List.Pairwise.nil

/-- Beginning a task keeps the log. -/
theorem Logged.begun {s : Session K} (h : Logged s) : Logged s.begun where
  task_lt e he := Nat.lt_succ_of_lt (h.task_lt e he)
  running_lt r hr := by
    simp only [Session.begun_running, Option.some.injEq] at hr
    rw [← hr]
    exact Nat.lt_succ_self _
  running_free r hr hmem := by
    simp only [Session.begun_running, Option.some.injEq] at hr
    rw [← hr] at hmem
    exact absurd (h.task_lt _ hmem) (Nat.lt_irrefl _)
  ordered := h.ordered

/-- Accepting a wall keeps the log. -/
theorem Logged.accepted {s : Session K} (h : Logged s) (side : WallSide) :
    Logged (s.accepted side) where
  task_lt := h.task_lt
  running_lt r hr := by
    obtain ⟨r', hr', rfl⟩ := Option.map_eq_some_iff.mp hr
    exact h.running_lt r' hr'
  running_free r hr := by
    obtain ⟨r', hr', rfl⟩ := Option.map_eq_some_iff.mp hr
    exact h.running_free r' hr'
  ordered := h.ordered

/-- The running task may write. -/
theorem Logged.write {s : Session K} (h : Logged s) {r : RunningSession}
    (hr : s.running = some r) {log : List TaskEvent} (hordered : NoWriteAfterDestroy log)
    (hown : ∀ e ∈ log, taskOf e = r.task) (hfree : TaskEvent.destroyed r.task ∉ log)
    (movement : CharacterMovement K) :
    Logged { s with movement := movement, taskLog := s.taskLog ++ log } where
  task_lt e he := by
    rcases List.mem_append.mp he with he | he
    · exact h.task_lt e he
    · rw [hown e he]
      exact h.running_lt r hr
  running_lt := h.running_lt
  running_free r' hr' hmem := by
    obtain rfl : r = r' := Option.some.inj (hr.symm.trans hr')
    rcases List.mem_append.mp hmem with hmem | hmem
    · exact h.running_free r hr hmem
    · exact hfree hmem
  ordered := h.ordered.append hordered hown (h.running_free r hr)

/-- Steering a live task keeps the log. -/
theorem Logged.steered {s : Session K} (h : Logged s) (velocity origin normal : FVector K) :
    Logged (s.steered velocity origin normal) := by
  unfold Session.steered
  cases hr : s.running with
  | none => exact h
  | some r =>
    have hwritten := h.write hr (noWriteAfterDestroy_steerLog r.task) (fun e => taskOf_steerLog)
      (by simp [Session.steerLog]) { s.movement with
        velocity := velocity
        planeConstraintEnabled := true
        planeConstraintOrigin := origin
        planeConstraintNormal := normal }
    rw [hr] at hwritten
    exact hwritten

variable [Field K]

/-- Attaching the task that runs keeps the log. -/
theorem Logged.attached {s : Session K} (h : Logged s) {r : RunningSession}
    (hr : s.running = some r) : Logged (s.attached r.task) :=
  h.write hr (noWriteAfterDestroy_attachLog r.task) (fun e => taskOf_attachLog)
    (by simp [Session.attachLog]) _

/-- Ending the session keeps the log. -/
theorem Logged.ended {s : Session K} (h : Logged s) : Logged s.ended := by
  unfold Session.ended
  cases hr : s.running with
  | none => exact h
  | some r =>
    constructor
    · intro e he
      rcases List.mem_append.mp he with he | he
      · exact h.task_lt e he
      · rw [taskOf_destroyLog he]
        exact h.running_lt r hr
    · intro r' hr'
      exact absurd hr' (by simp)
    · intro r' hr'
      exact absurd hr' (by simp)
    · exact h.ordered.append (noWriteAfterDestroy_destroyLog r.task)
        (fun e => taskOf_destroyLog) (h.running_free r hr)

/-- The start of a session is interrupted. -/
def interruptsStart : SessionEvent K → Bool
  | .started _ interrupted => interrupted
  | .failed => false
  | .steered _ _ _ _ => false
  | .ended => false

/-- Everything but an interrupted start keeps the log in order. -/
theorem Logged.step {s : Session K} (h : Logged s) {d : SessionEvent K}
    (hd : interruptsStart d = false) : Logged (sessionStep s d) := by
  cases d with
  | failed => exact h.begun.ended
  | started side interrupted =>
    simp only [interruptsStart] at hd
    simp only [sessionStep, hd, Bool.false_eq_true, if_false]
    exact (h.begun.accepted side).attached rfl
  | steered side velocity origin normal => exact (h.accepted side).steered velocity origin normal
  | ended => exact h.ended

/-! ## The character that is left behind -/

/-- The character was left as a wall run in progress has it, and no session is running. -/
def Stranded (s : Session K) : Prop :=
  s.running = none ∧ s.movement.movementMode = .flying ∧
    s.movement.gravityScale = wallRunGravityScale K

/-- No destroyed task has written, and the character is not stranded. -/
def Tidy (s : Session K) : Prop := NoWriteAfterDestroy s.taskLog ∧ ¬ Stranded s

/-- An interrupted start writes after its `OnDestroy`, and strands the character. -/
theorem not_tidy_of_interrupts {s : Session K} {d : SessionEvent K}
    (hd : interruptsStart d = true) : ¬ Tidy (sessionStep s d) := by
  cases d with
  | started side interrupted =>
    simp only [interruptsStart] at hd
    rintro ⟨-, hstranded⟩
    apply hstranded
    simp only [sessionStep, hd, if_true]
    exact ⟨by simp, rfl, rfl⟩
  | failed => exact absurd hd (by simp [interruptsStart])
  | steered side velocity origin normal => exact absurd hd (by simp [interruptsStart])
  | ended => exact absurd hd (by simp [interruptsStart])

/-- An end strands nothing that was not stranded before. -/
theorem not_stranded_ended {s : Session K} (hs : ¬ Stranded s) : ¬ Stranded s.ended := by
  cases hr : s.running with
  | none =>
    rw [Session.ended_of_none hr]
    exact hs
  | some r =>
    rintro ⟨-, hmode, -⟩
    rw [Session.ended_movement (by simp [hr])] at hmode
    exact absurd hmode (by simp)

/-- A session that is well logged and not stranded is tidy after an event that does not
interrupt a start. -/
theorem tidy_step {s : Session K} (h : Logged s) (hs : ¬ Stranded s) {d : SessionEvent K}
    (hd : interruptsStart d = false) : Tidy (sessionStep s d) := by
  refine ⟨(h.step hd).ordered, ?_⟩
  cases d with
  | failed =>
    apply not_stranded_ended
    rintro ⟨hnone, -, -⟩
    exact absurd hnone (by simp)
  | started side interrupted =>
    simp only [interruptsStart] at hd
    rintro ⟨hnone, -, -⟩
    simp only [sessionStep, hd, Bool.false_eq_true, if_false] at hnone
    exact absurd hnone (by simp)
  | steered side velocity origin normal =>
    rintro ⟨hnone, hmode, hgravity⟩
    obtain ⟨hm, hg⟩ := Session.steered_movement velocity origin normal (s.accepted side)
    simp only [sessionStep] at hnone hmode hgravity
    rw [hm] at hmode
    rw [hg] at hgravity
    rw [Session.steered_running, Session.accepted_running, Option.map_eq_none_iff] at hnone
    exact hs ⟨hnone, hmode, hgravity⟩
  | ended => exact not_stranded_ended hs

/-! ## Runs of the ability -/

variable {E C : Type} [LinearOrder K] [DecidableEq E]

/-- The event is an activation that finds a wall, and some call out of its task ends the
ability. -/
def interruptsActivation (c : WallRunClass E) (w : GASCharacter K E C) : WallRunEvent K → Bool
  | .activate env callbacks => entersWallRun w env &&
      (TickWallRun.findRunnableWall env.lineTrace w).any fun found =>
        callbacksEnd c callbacks found.1
  | .tick _ => false
  | .cancel => false
  | .moved _ _ _ => false

omit [DecidableEq E] in
/-- These are the events that interrupt the start of a session. -/
theorem interruptsActivation_eq (c : WallRunClass E) (w : GASCharacter K E C)
    (e : WallRunEvent K) :
    interruptsActivation c w e = (wallRunView c w e).any interruptsStart := by
  cases e with
  | activate env callbacks =>
    cases hentered : entersWallRun w env <;>
      cases hfound : TickWallRun.findRunnableWall env.lineTrace w <;>
      simp [interruptsActivation, wallRunView, interruptsStart, hentered, hfound]
  | tick lineTrace =>
    cases hrun : (sessionOf w).running.isSome <;>
      cases hfound : TickWallRun.findRunnableWall lineTrace w <;>
      simp [interruptsActivation, wallRunView, interruptsStart, hrun, hfound]
  | cancel =>
    cases hrun : (sessionOf w).running.isSome <;>
      simp [interruptsActivation, wallRunView, interruptsStart, hrun]
  | moved location forward right => rfl

variable [IsStrictOrderedRing K]

/-- **A destroyed task never writes again exactly if no activation is interrupted.**  For
every run of the wall-run ability from a character that is not stranded and without a
running session or a log: in every state no task has written to the character after its
`OnDestroy` and the character is not left flying at gravity scale 1/5 without a live
task, if and only if in every activation that finds a wall no call out of the task ends
the ability.
SOURCE: AG_Task_TickWallRun.cpp:10-86, 135-144, AG_WallRunAbility.cpp:54-109,
GASCharacter.cpp:131-138 -/
theorem tidy_iff (c : WallRunClass E) (w : GASCharacter K E C)
    (hinactive : w.wallRun.ability.activeCount = 0) (hidle : w.wallRun.liveTask = none)
    (hlog : w.taskLog = [])
    (hstart : ¬ (w.movement.movementMode = .flying ∧
      w.movement.gravityScale = wallRunGravityScale K))
    (es : List (WallRunEvent K)) :
    Always (wallRunStep c) (fun w => Tidy (sessionOf w)) w es ↔
      EveryStep (wallRunStep c) (fun w e => interruptsActivation c w e = false) w es := by
  have hsettled : WallRunSettled w := (onWall_idle hinactive hidle).1
  have hnone : (sessionOf w).running = none := sessionOf_running_eq_none.mpr hidle
  have hempty : (sessionOf w).taskLog = [] := hlog
  have hlogged : Logged (sessionOf w) := logged_idle hnone hempty
  have htidy : Tidy (sessionOf w) := ⟨hlogged.ordered, fun h => hstart h.2⟩
  refine always_iff_everyStep (fun w' => WallRunSettled w' ∧ Logged (sessionOf w')) ?_ ?_
    ⟨hsettled, hlogged⟩ htidy es
  · intro w' e hw' ht
    -- the step is one event of the session, or none
    have hsession := (follows_wallRunStep c hw'.1 e).session
    rw [hsession, interruptsActivation_eq]
    cases hview : wallRunView c w' e with
    | none => simpa using ht
    | some d =>
      simp only [Option.toList_some, run_cons, run_nil, Option.any_some]
      cases hd : interruptsStart d with
      | true => simpa using not_tidy_of_interrupts hd
      | false => simpa using tidy_step hw'.2 ht.2 hd
  · intro w' e hw' _ hc
    have hfollows := follows_wallRunStep c hw'.1 e
    refine ⟨hfollows.settled, ?_⟩
    rw [hfollows.session]
    rw [interruptsActivation_eq] at hc
    cases hview : wallRunView c w' e with
    | none => simpa using hw'.2
    | some d =>
      rw [hview] at hc
      simpa using hw'.2.step hc

/-- A wall run whose callbacks leave it alone, also when it is repeated. -/
theorem tidy_quietRuns :
    Always (wallRunStep wallRunWithSides) (fun w => Tidy (sessionOf w)) fallingCharacter
      [wallRunAttempt wallOnTheLeft (.quiet .added), .tick wallOnTheLeft, .tick openSpace,
        wallRunAttempt openSpace (.quiet .added)] := by
  refine (tidy_iff wallRunWithSides fallingCharacter rfl rfl rfl ?_ _).mpr ?_
  · rintro ⟨-, hgravity⟩
    have h : (1 : ℚ) = 1 / 5 := hgravity
    norm_num at h
  · exact ⟨by decide +kernel, rfl, rfl, by decide +kernel, trivial⟩

/-- The side effect ends the ability from inside its application: the task goes on. -/
theorem not_tidy_sideEffectEnds :
    ¬ Always (wallRunStep wallRunWithSides) (fun w => Tidy (sessionOf w)) fallingCharacter
      [wallRunAttempt wallOnTheLeft ⟨⟨false, .added, true⟩, false, false, false⟩] := by
  intro h
  exact h.last.2 ⟨by decide +kernel, by decide +kernel, by decide +kernel⟩

end GasSamples.Analysis
