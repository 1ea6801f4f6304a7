import GasSamples.Analysis.WallRunAbility

/-!
# What wall-run sessions leave behind

`OnDestroy` writes fixed values: gravity scale 7/4 and the falling mode, also for a task
that never found a wall.  So a run of sessions leaves the movement component as it found
it exactly if these are the values it had.
-/

set_option autoImplicit false

namespace GasSamples.Analysis

open Reactive GasSamples.Model GasSamples.Program

variable {K E C : Type} [Field K]

/-- With no live task the gravity scale is the initial one and the plane constraint is
off. -/
def SessionsLeave (initial : K) (w : GASCharacter K E C) : Prop :=
  w.wallRun.liveTask = none →
    w.movement.gravityScale = initial ∧ w.movement.planeConstraintEnabled = false

variable [LinearOrder K] [DecidableEq E]

/-- An attempt that finds no runnable wall leaves the movement mode as it was. -/
def FailedAttemptKeepsMode (c : WallRunClass E) (w : GASCharacter K E C) (e : WallRunEvent K) :
    Prop :=
  attemptFails w e = true →
    (wallRunStep c w e).movement.movementMode = w.movement.movementMode

omit [DecidableEq E] in
/-- A task is destroyed only if the initial gravity scale was 7/4, and an attempt fails
only from the falling mode. -/
def DestroysAsFound (initial : K) (w : GASCharacter K E C) (e : WallRunEvent K) : Prop :=
  (destroysTask w e = true → initial = destroyedGravityScale K) ∧
    (attemptFails w e = true → w.movement.movementMode = .falling)

variable [IsStrictOrderedRing K]

omit [DecidableEq E] [IsStrictOrderedRing K] in
/-- An attempt that fails destroys its task. -/
theorem destroysTask_of_attemptFails {w : GASCharacter K E C} {e : WallRunEvent K}
    (h : attemptFails w e = true) : destroysTask w e = true := by
  cases e with
  | activate env callbacks => exact h
  | tick lineTrace => exact absurd h (by simp [attemptFails])
  | cancel => exact absurd h (by simp [attemptFails])
  | moved location forward right => exact absurd h (by simp [attemptFails])

omit [IsStrictOrderedRing K] in
/-- What the movement component looks like after a task was destroyed. -/
theorem movement_destroys (c : WallRunClass E) {w : GASCharacter K E C} (hw : WallRunSettled w)
    {e : WallRunEvent K} (he : destroysTask w e = true) :
    (wallRunStep c w e).wallRun.liveTask = none ∧
      (wallRunStep c w e).movement = { w.movement with
        planeConstraintEnabled := false
        movementMode := .falling
        gravityScale := destroyedGravityScale K } := by
  obtain ⟨s, hrun, hmovement, hsession⟩ := session_destroys c hw he
  constructor
  · rw [← sessionOf_running_eq_none, hsession, Session.ended_running]
  · have h := congrArg Session.movement hsession
    rw [Session.ended_movement hrun, hmovement] at h
    exact h

/-- One event, from a state with the property. -/
theorem sessionsLeave_step_iff (c : WallRunClass E) {initial : K} {w : GASCharacter K E C}
    (hw : WallRunSettled w) (hleave : SessionsLeave initial w) {e : WallRunEvent K}
    (hq : QuietEvent e) :
    SessionsLeave initial (wallRunStep c w e) ∧ FailedAttemptKeepsMode c w e ↔
      DestroysAsFound initial w e := by
  by_cases hd : destroysTask w e = true
  · obtain ⟨hlive, hmovement⟩ := movement_destroys c hw hd
    have hgravity : destroyedGravityScale K = initial ↔ initial = destroyedGravityScale K := eq_comm
    have hmode : EMovementMode.falling = w.movement.movementMode ↔
        w.movement.movementMode = .falling := eq_comm
    simp only [SessionsLeave, FailedAttemptKeepsMode, DestroysAsFound, hlive, hmovement, hd,
      forall_const, and_true, hgravity, hmode]
  · -- no task is destroyed: neither side says anything of the step itself
    have hf : attemptFails w e = false := by
      by_contra hf
      exact hd (destroysTask_of_attemptFails (by simpa using hf))
    have hcond : DestroysAsFound initial w e :=
      ⟨fun h => absurd h hd, fun h => absurd (hf.symm.trans h) (by simp)⟩
    have hkeeps : FailedAttemptKeepsMode c w e :=
      fun h => absurd (hf.symm.trans h) (by simp)
    have hleave' : SessionsLeave initial (wallRunStep c w e) := by
      intro hlive
      rw [← sessionOf_running_eq_none] at hlive
      by_cases hs : startsWallRun w e = true
      · obtain ⟨side, hrun, -⟩ := session_starts c hw hq hs
        rw [hrun] at hlive
        exact absurd hlive (by simp)
      · rcases session_continues c hw (by simpa using hd) (by simpa using hs) with
          hsame | ⟨side, v, o, n, hrun, hsteered⟩
        · have hmovement : (wallRunStep c w e).movement = w.movement :=
            congrArg Session.movement hsame
          rw [hsame, sessionOf_running_eq_none] at hlive
          rw [hmovement]
          exact hleave hlive
        · rw [hsteered, Session.steered_running, Session.accepted_running] at hlive
          rw [Option.map_eq_none_iff.mp hlive] at hrun
          exact absurd hrun (by simp)
    exact ⟨fun _ => hcond, fun _ => ⟨hleave', hkeeps⟩⟩

/-- **Wall-run sessions leave the movement component as they found it exactly if it had
the values that `OnDestroy` writes.**  For every run of attempts, ticks and ends from a
character without a running session and with the plane constraint off: whenever no task
is live the gravity scale is the initial one and the plane constraint is off, and every
attempt that finds no wall keeps the movement mode, if and only if no task is destroyed
unless the initial gravity scale is 7/4 and no attempt fails unless the character was
falling.
SOURCE: AG_Task_TickWallRun.cpp:10-86, 135-144, AG_WallRunAbility.cpp:54-109 -/
theorem sessionsLeave_iff (c : WallRunClass E) (w : GASCharacter K E C)
    (hinactive : w.wallRun.ability.activeCount = 0) (hidle : w.wallRun.liveTask = none)
    (hplane : w.movement.planeConstraintEnabled = false) (es : List (WallRunEvent K))
    (hquiet : ∀ e ∈ es, QuietEvent e) :
    Always (wallRunStep c) (SessionsLeave w.movement.gravityScale) w es ∧
        EveryStep (wallRunStep c) (FailedAttemptKeepsMode c) w es ↔
      EveryStep (wallRunStep c) (DestroysAsFound w.movement.gravityScale) w es := by
  have hleave : SessionsLeave w.movement.gravityScale w := fun _ => ⟨rfl, hplane⟩
  have hsettled : WallRunSettled w := (onWall_idle hinactive hidle).1
  rw [always_iff_everyStep_post hleave, ← everyStep_and]
  refine everyStep_iff_everyStep_on
    (fun w' => WallRunSettled w' ∧ SessionsLeave w.movement.gravityScale w') QuietEvent
    ?_ ?_ ⟨hsettled, hleave⟩ hquiet
  · intro w' e hq hw'
    exact sessionsLeave_step_iff c hw'.1 hw'.2 hq
  · intro w' e hq hw' hcond
    have hstep := (sessionsLeave_step_iff c hw'.1 hw'.2 hq).mpr hcond
    exact ⟨(follows_wallRunStep c hw'.1 e).settled, hstep.1⟩

/-- From a fall at gravity scale 7/4, a failed attempt and a wall run that is cancelled
leave everything as it was. -/
theorem sessionsLeave_falling :
    Always (wallRunStep wallRunWithSides) (SessionsLeave (7 / 4 : ℚ))
        (GASCharacter.spawned .falling (7 / 4 : ℚ) fun _ : ℕ => .block)
        [wallRunAttempt openSpace (.quiet .added), wallRunAttempt wallOnTheLeft (.quiet .added),
          .tick wallOnTheLeft, .cancel] ∧
      EveryStep (wallRunStep wallRunWithSides) (FailedAttemptKeepsMode wallRunWithSides)
        (GASCharacter.spawned .falling (7 / 4 : ℚ) fun _ : ℕ => .block)
        [wallRunAttempt openSpace (.quiet .added), wallRunAttempt wallOnTheLeft (.quiet .added),
          .tick wallOnTheLeft, .cancel] := by
  refine (sessionsLeave_iff wallRunWithSides
    (GASCharacter.spawned .falling (7 / 4 : ℚ) fun _ : ℕ => .block) rfl rfl rfl _ ?_).mpr ?_
  · intro e he
    simp only [List.mem_cons, List.not_mem_nil, or_false] at he
    rcases he with rfl | rfl | rfl | rfl
    · exact ⟨.added, rfl⟩
    · exact ⟨.added, rfl⟩
    · trivial
    · trivial
  · exact ⟨⟨fun _ => rfl, fun _ => rfl⟩, ⟨fun _ => rfl, fun _ => rfl⟩, ⟨fun _ => rfl, by decide⟩,
      ⟨fun _ => rfl, by decide⟩, trivial⟩

/-- From a fall at gravity scale 1, a failed attempt changes the gravity scale. -/
theorem not_sessionsLeave_failedAttempt :
    ¬ (Always (wallRunStep wallRunWithSides) (SessionsLeave (1 : ℚ)) fallingCharacter
        [wallRunAttempt openSpace (.quiet .added)] ∧
      EveryStep (wallRunStep wallRunWithSides) (FailedAttemptKeepsMode wallRunWithSides)
        fallingCharacter [wallRunAttempt openSpace (.quiet .added)]) := by
  rintro ⟨hleave, -⟩
  have hgravity : (7 / 4 : ℚ) = 1 := (hleave.last rfl).1
  norm_num at hgravity

end GasSamples.Analysis
