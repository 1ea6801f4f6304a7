import GasSamples.Analysis.WallRunGeometry

/-!
# How long a wall run lasts

`Activate` puts the character 60 units before the wall, and no tick puts it there again:
from then on the movement component moves it, along the velocity that the tick sets and
constrained to the plane of the wall.  Before an infinite plane the distance therefore
stays what it is, and whether a tick finds the wall is a matter of the facing alone.  The
run lasts exactly as long as each tick finds the character facing along the wall.
-/

set_option autoImplicit false

namespace GasSamples.Analysis

open Reactive GasSamples.Model GasSamples.Program

variable {K E C : Type} [Field K] [LinearOrder K]

/-- The trace to this side reaches a wall that is 60 units away, with a normal that passes
the test, and the one ahead does not reach it. -/
structure FacesAlong (n : FVector K) (w : GASCharacter K E C) (side : WallSide) : Prop where
  reaches : 60 ≤ (w.capsuleRadius + 30) * toward n w side
  beside : 3 / 10 < toward n w side
  clear : (w.capsuleRadius + 30) * -FVector.dotProduct n w.forwardVector < 60

/-- Before the plane `n · p = k`: ticks trace against it, moves keep the distance from it,
with any facing, and nobody cancels the ability. -/
def BeforePlane (n : FVector K) (k : K) (w : GASCharacter K E C) : WallRunEvent K → Prop
  | .activate _ _ => True
  | .tick lineTrace => lineTrace = planarWall n k
  | .cancel => False
  | .moved location _ _ => distanceFrom n k location = distanceFrom n k w.actorLocation

/-- If this is a tick, the character faces along the wall. -/
def TickFacesAlong (n : FVector K) (w : GASCharacter K E C) : WallRunEvent K → Prop
  | .activate _ _ => True
  | .tick _ => ∃ side, FacesAlong n w side
  | .cancel => True
  | .moved _ _ _ => True

/-- The task runs along the plane: the character is 60 units before it, flying at the
gravity scale of a wall run. -/
structure RunsAlong (n : FVector K) (k : K) (task : ℕ) (w : GASCharacter K E C) : Prop where
  settled : WallRunSettled w
  task : ∀ r, (sessionOf w).running = some r → r.task = task
  distance : distanceFrom n k w.actorLocation = 60
  movementMode : w.movement.movementMode = .flying
  gravityScale : w.movement.gravityScale = wallRunGravityScale K

/-- The movement is constrained to the plane, with a level velocity along it. -/
structure Constrained (n : FVector K) (k : K) (w : GASCharacter K E C) : Prop where
  enabled : w.movement.planeConstraintEnabled = true
  normal : w.movement.planeConstraintNormal = n
  origin : distanceFrom n k w.movement.planeConstraintOrigin = 0
  level : w.movement.velocity.z = 0
  along : FVector.dotProduct w.movement.velocity n = 0

/-- There is a tick among the events. -/
def HasTick (es : List (WallRunEvent K)) : Prop := ∃ lineTrace, .tick lineTrace ∈ es

section Step

variable [IsStrictOrderedRing K] {n : FVector K} {k : K} {task : ℕ} {w : GASCharacter K E C}

/-- At 60 units the search finds the plane exactly if the character faces along it. -/
theorem exists_found_iff (hdistance : distanceFrom n k w.actorLocation = 60) :
    (∃ found, TickWallRun.findRunnableWall (planarWall n k) w = some found) ↔
      ∃ side, FacesAlong n w side := by
  have hpos : (0 : K) < 60 := by positivity
  constructor
  · rintro ⟨⟨side, hit⟩, hfound⟩
    obtain ⟨hahead, -, hreach, hdot⟩ := exists_found_planarWall.mp ⟨hit, hfound⟩
    rw [hdistance] at hahead hreach
    exact ⟨side, hreach, hdot, by linarith⟩
  · rintro ⟨side, hfaces⟩
    have hahead := hfaces.clear
    have hfound : ∃ hit,
        TickWallRun.findRunnableWall (planarWall n k) w = some (side, hit) := by
      rw [exists_found_planarWall, hdistance]
      exact ⟨by linarith, hpos, hfaces.reaches, hfaces.beside⟩
    obtain ⟨hit, hfound⟩ := hfound
    exact ⟨(side, hit), hfound⟩

variable [DecidableEq E] (c : WallRunClass E)

/-- **The step lemma**: the session goes on exactly if a tick finds the character facing
along the wall. -/
theorem RunsAlong.running_iff (h : RunsAlong n k task w)
    (hrun : (sessionOf w).running.isSome = true) {e : WallRunEvent K}
    (he : BeforePlane n k w e) :
    (sessionOf (wallRunStep c w e)).running.isSome = true ↔ TickFacesAlong n w e := by
  rw [(follows_wallRunStep c h.settled e).session]
  cases e with
  | activate env callbacks =>
    -- an active ability is not activated again
    have hrefused : entersWallRun w env = false := by
      simp [entersWallRun, h.settled.isActive, hrun]
    simp [wallRunView, hrefused, hrun, TickFacesAlong]
  | tick lineTrace =>
    obtain rfl : lineTrace = planarWall n k := he
    simp only [TickFacesAlong, ← exists_found_iff h.distance, wallRunView, hrun, if_true]
    cases hfound : TickWallRun.findRunnableWall (planarWall n k) w with
    | none => simp [sessionStep]
    | some found => simpa [sessionStep] using hrun
  | cancel => exact he.elim
  | moved location forward right => simp [wallRunView, hrun, TickFacesAlong]

/-- A tick that finds the character facing along the wall steers it along a hit of the plane. -/
theorem RunsAlong.tick_eq (h : RunsAlong n k task w)
    (hrun : (sessionOf w).running.isSome = true) (hfaces : ∃ side, FacesAlong n w side) :
    ∃ id side hit, TickWallRun.findRunnableWall (planarWall n k) w = some (side, hit) ∧
      hit.impactNormal = n ∧ distanceFrom n k hit.impactPoint = 0 ∧
      wallRunStep c w (.tick (planarWall n k)) =
        TickWallRun.steer id (TickWallRun.isWallOnTheLeft w hit) hit
          (TickWallRun.accept side w) := by
  obtain ⟨⟨side, hit⟩, hfound⟩ := (exists_found_iff h.distance).mpr hfaces
  obtain ⟨t, ht⟩ : ∃ t, w.wallRun.liveTask = some t := by
    rw [← Option.isSome_iff_exists]
    simpa [sessionOf] using hrun
  obtain ⟨hnormal, hplane⟩ : hit.impactNormal = n ∧ distanceFrom n k hit.impactPoint = 0 := by
    obtain ⟨-, ⟨-, htrace, -⟩ | ⟨-, -, htrace, -⟩⟩ := findRunnableWall_eq_some_iff.mp hfound
    · exact planarWall_hit htrace
    · exact planarWall_hit htrace
  refine ⟨t.id, side, hit, hfound, hnormal, hplane, ?_⟩
  simp only [wallRunStep, WallRunAbility.tick, ht, TickWallRun.tickTask, hfound]

/-- A session that goes on runs along the plane. -/
theorem RunsAlong.step (h : RunsAlong n k task w) (hrun : (sessionOf w).running.isSome = true)
    {e : WallRunEvent K} (he : BeforePlane n k w e) (hfaces : TickFacesAlong n w e) :
    RunsAlong n k task (wallRunStep c w e) := by
  cases e with
  | activate env callbacks =>
    have hrefused : entersWallRun w env = false := by
      simp [entersWallRun, h.settled.isActive, hrun]
    rw [wallRunStep_activate, hrefused]
    exact h
  | tick lineTrace =>
    obtain rfl : lineTrace = planarWall n k := he
    obtain ⟨id, side, hit, hfound, -, -, hstep⟩ := h.tick_eq c hrun hfaces
    have hfollows := follows_wallRunStep c h.settled (.tick (planarWall n k))
    refine ⟨hfollows.settled, ?_, ?_, ?_, ?_⟩
    · intro r hr
      rw [hfollows.session] at hr
      simp only [wallRunView, hrun, hfound, if_true, Option.toList_some, run_cons, run_nil,
        sessionStep, Session.steered_running, Session.accepted_running] at hr
      obtain ⟨r', hr', rfl⟩ := Option.map_eq_some_iff.mp hr
      exact h.task r' hr'
    · rw [hstep]
      exact h.distance
    · rw [hstep]
      exact h.movementMode
    · rw [hstep]
      exact h.gravityScale
  | cancel => exact he.elim
  | moved location forward right =>
    have hdistance : distanceFrom n k location = 60 := he.trans h.distance
    exact ⟨h.settled, h.task, hdistance, h.movementMode, h.gravityScale⟩

/-- A tick constrains the movement to the plane. -/
theorem RunsAlong.constrained_tick (h : RunsAlong n k task w)
    (hrun : (sessionOf w).running.isSome = true) (hfaces : ∃ side, FacesAlong n w side) :
    Constrained n k (wallRunStep c w (.tick (planarWall n k))) := by
  obtain ⟨id, side, hit, -, hnormal, hplane, hstep⟩ := h.tick_eq c hrun hfaces
  have htangent := wallRunVelocity_tangent (TickWallRun.isWallOnTheLeft w hit) hit
  rw [hnormal] at htangent
  rw [hstep]
  exact ⟨rfl, hnormal, hplane, wallRunVelocity_z _ _, htangent⟩

omit [IsStrictOrderedRing K] in
/-- Until a tick the movement does not change. -/
theorem RunsAlong.movement_eq (h : RunsAlong n k task w)
    (hrun : (sessionOf w).running.isSome = true) {e : WallRunEvent K}
    (he : BeforePlane n k w e) (htick : ¬ HasTick [e]) :
    (wallRunStep c w e).movement = w.movement := by
  cases e with
  | activate env callbacks =>
    have hrefused : entersWallRun w env = false := by
      simp [entersWallRun, h.settled.isActive, hrun]
    rw [wallRunStep_activate, hrefused]
    rfl
  | tick lineTrace => exact absurd ⟨lineTrace, List.mem_singleton.mpr rfl⟩ htick
  | cancel => exact he.elim
  | moved location forward right => rfl

/-- What a run along the plane does to the movement: nothing before the first tick, and from
then on it is constrained. -/
theorem RunsAlong.movement_run (h : RunsAlong n k task w)
    (hrun : (sessionOf w).running.isSome = true) {es : List (WallRunEvent K)}
    (hes : EveryStep (wallRunStep c) (BeforePlane n k) w es)
    (hfaces : EveryStep (wallRunStep c) (TickFacesAlong n) w es) :
    (HasTick es ∨ Constrained n k w → Constrained n k (run (wallRunStep c) w es)) ∧
      (¬ HasTick es → (run (wallRunStep c) w es).movement = w.movement) := by
  induction es generalizing w with
  | nil => exact ⟨fun hor => hor.resolve_left fun ⟨_, hmem⟩ => absurd hmem List.not_mem_nil,
      fun _ => rfl⟩
  | cons e es ih =>
    have hnext := (h.running_iff c hrun hes.1).mpr hfaces.1
    obtain ⟨hafter, hbefore⟩ := ih (h.step c hrun hes.1 hfaces.1) hnext hes.2 hfaces.2
    rw [run_cons]
    by_cases htick : HasTick [e]
    · obtain ⟨lineTrace, hmem⟩ := htick
      obtain rfl := List.mem_singleton.mp hmem
      obtain rfl : lineTrace = planarWall n k := hes.1
      refine ⟨fun _ => hafter (Or.inr (h.constrained_tick c hrun hfaces.1)), fun hnone => ?_⟩
      exact absurd ⟨_, List.mem_cons_self⟩ hnone
    · have hmovement := h.movement_eq c hrun hes.1 htick
      constructor
      · rintro (⟨lineTrace, hmem⟩ | hconstrained)
        · rcases List.mem_cons.mp hmem with rfl | hmem
          · exact absurd ⟨lineTrace, List.mem_singleton.mpr rfl⟩ htick
          · exact hafter (Or.inl ⟨lineTrace, hmem⟩)
        · apply hafter
          refine Or.inr ?_
          obtain ⟨henabled, hnormal, horigin, hlevel, halong⟩ := hconstrained
          rw [← hmovement] at henabled hnormal horigin hlevel halong
          exact ⟨henabled, hnormal, horigin, hlevel, halong⟩
      · intro hnone
        rw [hbefore fun ⟨lineTrace, hmem⟩ => hnone ⟨lineTrace, List.mem_cons_of_mem _ hmem⟩,
          hmovement]

/-- The start of a wall run before the plane. -/
theorem runsAlong_start (hunit : FVector.dotProduct n n = 1) (hsettled : WallRunSettled w)
    {env : WallRunActivation K} {outcome : ApplyOutcome}
    (hworld : env.lineTrace = planarWall n k)
    (hstarts : startsWallRun w (.activate env (.quiet outcome)) = true) :
    (sessionOf (wallRunStep c w (.activate env (.quiet outcome)))).running.isSome = true ∧
      RunsAlong n k w.tasksCreated (wallRunStep c w (.activate env (.quiet outcome))) ∧
      (wallRunStep c w (.activate env (.quiet outcome))).movement.planeConstraintEnabled =
        w.movement.planeConstraintEnabled := by
  have hquiet : QuietEvent (.activate env (.quiet outcome)) := ⟨outcome, rfl⟩
  obtain ⟨side, hrun, hmovement⟩ := session_starts c hsettled hquiet hstarts
  have hmove : (wallRunStep c w (.activate env (.quiet outcome))).movement =
      { w.movement with movementMode := .flying, gravityScale := wallRunGravityScale K } :=
    hmovement
  simp only [startsWallRun, Bool.and_eq_true] at hstarts
  obtain ⟨hentered, hsome⟩ := hstarts
  obtain ⟨⟨side', hit⟩, hfound⟩ := Option.isSome_iff_exists.mp hsome
  have hlocation : (wallRunStep c w (.activate env (.quiet outcome))).actorLocation =
      hit.impactPoint + (60 : K) • hit.impactNormal := by
    rw [wallRunStep_activate, if_pos hentered, activateAbility_eq_activate]
    exact (activate_found _ (keepsFacing_onWallSideDetermened c _) (keepsFacing_landed c _) _
      ((findRunnableWall_searching c env w).trans hfound)).2
  rw [hworld] at hfound
  obtain ⟨hnormal, hplane⟩ : hit.impactNormal = n ∧ distanceFrom n k hit.impactPoint = 0 := by
    obtain ⟨-, ⟨-, htrace, -⟩ | ⟨-, -, htrace, -⟩⟩ := findRunnableWall_eq_some_iff.mp hfound
    · exact planarWall_hit htrace
    · exact planarWall_hit htrace
  refine ⟨by rw [hrun]; rfl, ⟨(follows_wallRunStep c hsettled _).settled, ?_, ?_, ?_, ?_⟩, ?_⟩
  · intro r hr
    rw [hrun] at hr
    rw [← Option.some.inj hr]
  · rw [hlocation, hnormal, distanceFrom_add_smul, hplane, hunit]
    ring
  · rw [hmove]
  · rw [hmove]
  · rw [hmove]

/-- **A wall run lasts exactly as long as the character faces along the wall.**  Let a wall
run start before an infinite plane with a unit normal that is the only thing to trace, and
be followed by any number of ticks, further attempts and moves that keep the distance from
the plane, with any facing.  Then the session runs throughout if and only if at every tick
the trace to a side covers 60 units along the normal, the normal passes the side's test and
the trace ahead does not cover them; and in such a run it is the same task in every state and
the character stays 60 units before the plane, flying at gravity scale 1/5, from the first
tick on constrained to the plane, with a level velocity along it, and not before.
SOURCE: AG_Task_TickWallRun.cpp:10-133, AG_WallRunAbility.cpp:42-64 -/
theorem wallRun_lasts_iff (w : GASCharacter K E C) (hinactive : w.wallRun.ability.activeCount = 0)
    (hidle : w.wallRun.liveTask = none)
    (hunconstrained : w.movement.planeConstraintEnabled = false) (n : FVector K) (k : K)
    (hunit : FVector.dotProduct n n = 1) (env : WallRunActivation K) (outcome : ApplyOutcome)
    (hworld : env.lineTrace = planarWall n k)
    (hstarts : startsWallRun w (.activate env (.quiet outcome)) = true)
    (es : List (WallRunEvent K))
    (hes : EveryStep (wallRunStep c) (BeforePlane n k)
      (wallRunStep c w (.activate env (.quiet outcome))) es) :
    (Always (wallRunStep c) (fun w => (sessionOf w).running.isSome = true)
        (wallRunStep c w (.activate env (.quiet outcome))) es ↔
      EveryStep (wallRunStep c) (TickFacesAlong n)
        (wallRunStep c w (.activate env (.quiet outcome))) es) ∧
    (EveryStep (wallRunStep c) (TickFacesAlong n)
        (wallRunStep c w (.activate env (.quiet outcome))) es →
      Always (wallRunStep c) (RunsAlong n k w.tasksCreated)
        (wallRunStep c w (.activate env (.quiet outcome))) es ∧
      ∀ pre, pre <+: es →
        (HasTick pre → Constrained n k
          (run (wallRunStep c) (wallRunStep c w (.activate env (.quiet outcome))) pre)) ∧
        (¬ HasTick pre → (run (wallRunStep c) (wallRunStep c w (.activate env (.quiet outcome)))
          pre).movement.planeConstraintEnabled = false)) := by
  obtain ⟨hrun, hstart, hmovement⟩ := runsAlong_start c hunit (onWall_idle hinactive hidle).1
    hworld hstarts
  obtain ⟨hlasts, hinv⟩ := always_iff_everyStep_along (RunsAlong n k w.tasksCreated)
    (BeforePlane n k) (fun w' e he hw' hrun' => hw'.running_iff c hrun' he)
    (fun w' e he hw' hrun' hfaces => hw'.step c hrun' he hfaces) hstart hrun hes
  refine ⟨hlasts, fun hfaces => ⟨hinv hfaces, ?_⟩⟩
  rintro pre ⟨rest, rfl⟩
  obtain ⟨hafter, hbefore⟩ := hstart.movement_run c hrun ((everyStep_append _ _ _).mp hes).1
    ((everyStep_append _ _ _).mp hfaces).1
  refine ⟨fun htick => hafter (Or.inl htick), fun hnone => ?_⟩
  rw [hbefore hnone, hmovement]
  exact hunconstrained

end Step

/-- A wall at 48 on the left of the falling character, parallel to it. -/
def straightWall : LineTrace ℚ := planarWall ⟨0, 1, 0⟩ (-48)

/-- An attempt to run along it. -/
def straightAttempt : WallRunActivation ℚ :=
  ⟨true, fun _ => .added, fun _ => .added, straightWall⟩

/-- A tick, a move along the wall with a turn of the character, and another tick. -/
def straightRun : List (WallRunEvent ℚ) :=
  [.tick straightWall, .moved ⟨100, 12, 0⟩ ⟨4 / 5, 3 / 5, 0⟩ ⟨-3 / 5, 4 / 5, 0⟩,
    .moved ⟨200, 12, 0⟩ ⟨1, 0, 0⟩ ⟨0, 1, 0⟩, .tick straightWall]

/-- The run along the straight wall lasts, constrained to it in the end. -/
theorem wallRun_lasts_straightRun :
    Always (wallRunStep wallRunWithSides) (RunsAlong ⟨0, 1, 0⟩ (-48) 0)
        (wallRunStep wallRunWithSides fallingCharacter
          (.activate straightAttempt (.quiet .added))) straightRun ∧
      Constrained ⟨0, 1, 0⟩ (-48) (run (wallRunStep wallRunWithSides)
        (wallRunStep wallRunWithSides fallingCharacter
          (.activate straightAttempt (.quiet .added))) straightRun) := by
  have hparallel : ∀ w : GASCharacter ℚ ℕ ℕ, w.capsuleRadius = 42 → w.forwardVector = ⟨1, 0, 0⟩ →
      w.rightVector = ⟨0, 1, 0⟩ → FacesAlong ⟨0, 1, 0⟩ w .left := by
    intro w hradius hforward hright
    constructor
    · rw [toward, hradius, hright]
      decide +kernel
    · rw [toward, hright]
      decide +kernel
    · rw [hradius, hforward]
      decide +kernel
  have hlasts := (wallRun_lasts_iff wallRunWithSides fallingCharacter rfl rfl rfl ⟨0, 1, 0⟩ (-48)
    (by decide +kernel) straightAttempt .added rfl (by decide +kernel) straightRun
    ⟨rfl, ?_, ?_, rfl, trivial⟩).2 ?_
  · exact ⟨hlasts.1, (hlasts.2 straightRun (List.prefix_refl _)).1 ⟨_, List.mem_cons_self⟩⟩
  · simp only [BeforePlane]
    decide +kernel
  · simp only [BeforePlane]
    decide +kernel
  · refine ⟨⟨.left, hparallel _ ?_ ?_ ?_⟩, trivial, trivial, ⟨.left, hparallel _ ?_ ?_ ?_⟩,
      trivial⟩ <;> decide +kernel

end GasSamples.Analysis
