import GasSamples.Model.Mirror
import GasSamples.Analysis.Equivariance
import GasSamples.Analysis.WallRunAbility

/-!
# The wall run in a mirrored world

The wall run treats the two sides alike, but for the order of its search: the left side is
tried first.  So a run in the mirrored world, by the mirrored character and with the two
side effects exchanged, is the mirror image of the run itself exactly as long as no search
of the run finds a runnable wall on both sides.

One step is followed from the traces (`findRunnableWall_mirror`) through the bodies of the
task; the calls out of it are mirrored as a whole (`callbacks_mirror`).  Where the search
does choose, the accepted side differs, and no call out of the task can undo that
(`acceptedSide_callbacks`).
-/

set_option autoImplicit false

namespace GasSamples.Analysis

open Reactive GasSamples.Model GasSamples.Program

variable {K E C : Type}

section Mirror

variable [Field K]

/-- The mirror image of the movement component. -/
def mirrorMovement (m : CharacterMovement K) : CharacterMovement K :=
  { m with
    velocity := m.velocity.mirror
    planeConstraintOrigin := m.planeConstraintOrigin.mirror
    planeConstraintNormal := m.planeConstraintNormal.mirror }

/-- The mirror image of a task: the accepted wall is on the other side. -/
def mirrorTask (t : WallRunTask) : WallRunTask := { t with side := t.side.map WallSide.opposite }

/-- The mirror image of a character: its right is the mirror image of its left. -/
def mirrorCharacter (w : GASCharacter K E C) : GASCharacter K E C :=
  { w with
    actorLocation := w.actorLocation.mirror
    forwardVector := w.forwardVector.mirror
    rightVector := -w.rightVector.mirror
    actorRotation := w.actorRotation.mirror
    movement := mirrorMovement w.movement
    warpTargets := fun name =>
      (w.warpTargets name).map fun target => ⟨target.location.mirror, target.rotation.mirror⟩
    vault := { w.vault with
      jumpToLocation := w.vault.jumpToLocation.mirror
      jumpOverLocation := w.vault.jumpOverLocation.mirror }
    wallRun := { w.wallRun with wallRunTickTask := w.wallRun.wallRunTickTask.map mirrorTask } }

/-- The class with its side effects exchanged. -/
def mirrorClass (c : WallRunClass E) : WallRunClass E :=
  { c with
    wallRunLeftSideEffectClass := c.wallRunRightSideEffectClass
    wallRunRightSideEffectClass := c.wallRunLeftSideEffectClass }

/-- An event in the mirrored world. -/
def mirrorEvent : WallRunEvent K → WallRunEvent K
  | .activate env callbacks =>
    .activate { env with lineTrace := mirrorLineTrace env.lineTrace } callbacks
  | .tick lineTrace => .tick (mirrorLineTrace lineTrace)
  | .cancel => .cancel
  | .moved location forward right => .moved location.mirror forward.mirror (-right.mirror)

/-! ## The bodies of the task -/

/-- Updates of the task commute with the mirror if what they do to it does. -/
theorem updateTask_mirror {f f' : WallRunTask → WallRunTask}
    (h : Function.Semiconj mirrorTask f f') :
    Function.Semiconj (mirrorCharacter (K := K) (E := E) (C := C)) (TickWallRun.updateTask f)
      (TickWallRun.updateTask f') := by
  intro w
  have htask := h.option_map w.wallRun.wallRunTickTask
  unfold TickWallRun.updateTask mirrorCharacter
  simp only [htask]

/-- Accepting a side is accepting the opposite one in the mirror. -/
theorem accept_mirror (side : WallSide) :
    Function.Semiconj (mirrorCharacter (K := K) (E := E) (C := C)) (TickWallRun.accept side)
      (TickWallRun.accept side.opposite) :=
  updateTask_mirror fun _ => rfl

/-- The live task of the mirror image is the mirrored task. -/
theorem liveTask_mirror (w : GASCharacter K E C) :
    (mirrorCharacter w).wallRun.liveTask = w.wallRun.liveTask.map mirrorTask := by
  unfold WallRunState.liveTask mirrorCharacter
  cases w.wallRun.wallRunTickTask with
  | none => rfl
  | some t => cases hfinished : t.finished <;> simp [mirrorTask, Option.filter, hfinished]

/-- Ending the task commutes with the mirror. -/
theorem endTask_mirror :
    Function.Commute (mirrorCharacter (K := K) (E := E) (C := C)) TickWallRun.endTask := by
  intro w
  unfold TickWallRun.endTask
  rw [liveTask_mirror]
  cases w.wallRun.liveTask with
  | none => rfl
  | some t =>
    have hfinish : Function.Commute (mirrorCharacter (K := K) (E := E) (C := C))
        (TickWallRun.updateTask fun t => { t with finished := true }) :=
      updateTask_mirror fun _ => rfl
    have hlog : Function.Commute (mirrorCharacter (K := K) (E := E) (C := C)) fun w =>
        { w with taskLog := w.taskLog ++ [.destroyed t.id] } := fun _ => rfl
    exact hlog.comp_right hfinish _

/-- Attaching to a wall commutes with the mirror. -/
theorem attach_mirror (task : ℕ) (hit : FHitResult K) :
    Function.Semiconj (mirrorCharacter (K := K) (E := E) (C := C)) (TickWallRun.attach task hit)
      (TickWallRun.attach task hit.mirror) := by
  intro w
  have hlocation : (hit.impactPoint + (60 : K) • hit.impactNormal).mirror =
      hit.mirror.impactPoint + (60 : K) • hit.mirror.impactNormal := by
    rw [FVector.mirror_add, FVector.mirror_smul]
    rfl
  unfold TickWallRun.attach
  rw [← hlocation]
  rfl

/-- The run along the mirror image of a wall, which is on the other side. -/
theorem wallRunVelocity_mirror (side : WallSide) (hit : FHitResult K) :
    TickWallRun.wallRunVelocity (decide (side.opposite = .left)) hit.mirror =
      (TickWallRun.wallRunVelocity (decide (side = .left)) hit).mirror := by
  have hflat : ∀ v : FVector K, ({ (700 : K) • v.mirror with z := 0 } : FVector K) =
      ({ (700 : K) • v with z := 0 } : FVector K).mirror := by
    intro v
    rw [← FVector.mirror_smul]
    rfl
  have hnormal : hit.mirror.impactNormal = hit.impactNormal.mirror := rfl
  unfold TickWallRun.wallRunVelocity
  cases side with
  | left =>
    simp only [WallSide.opposite, reduceCtorEq, decide_false, decide_true, if_true,
      Bool.false_eq_true, if_false, hnormal, ← FVector.mirror_rotateYawMinus90]
    exact hflat _
  | right =>
    simp only [WallSide.opposite, reduceCtorEq, decide_false, decide_true, if_true,
      Bool.false_eq_true, if_false, hnormal, ← FVector.mirror_rotateYaw90]
    exact hflat _

/-- Steering along a wall is steering along the mirrored wall on the other side. -/
theorem steer_mirror (task : ℕ) (side : WallSide) (hit : FHitResult K) :
    Function.Semiconj (mirrorCharacter (K := K) (E := E) (C := C))
      (TickWallRun.steer task (decide (side = .left)) hit)
      (TickWallRun.steer task (decide (side.opposite = .left)) hit.mirror) := by
  intro w
  unfold TickWallRun.steer
  rw [wallRunVelocity_mirror]
  rfl

/-! ## The calls out of the task -/

section Calls

variable [DecidableEq E] (c : WallRunClass E)

omit [Field K] in
/-- The two side effects may be removed in either order. -/
theorem removeSideEffects_comm (asc : AbilitySystem E) (a b : Option E) :
    (asc.removeActiveGameplayEffectBySourceEffect a).removeActiveGameplayEffectBySourceEffect b =
      (asc.removeActiveGameplayEffectBySourceEffect b).removeActiveGameplayEffectBySourceEffect
        a := by
  cases a with
  | none => rfl
  | some a =>
    cases b with
    | none => rfl
    | some b => exact asc.keepWhere_comm _ _

/-- The end of a wall run commutes with the mirror. -/
theorem wallRunEnd_mirror :
    Function.Semiconj (mirrorCharacter (K := K) (E := E) (C := C)) (WallRunAbility.endAbility c)
      (WallRunAbility.endAbility (mirrorClass c)) := by
  have hremoved : Function.Semiconj (mirrorCharacter (K := K) (E := E) (C := C))
      (WallRunAbility.removeSideEffects c) (WallRunAbility.removeSideEffects (mirrorClass c)) := by
    intro w
    unfold WallRunAbility.removeSideEffects mirrorClass
    simp only
    rw [removeSideEffects_comm]
    rfl
  have hbase : Function.Semiconj (mirrorCharacter (K := K) (E := E) (C := C))
      (fun w => WallRunAbility.setBaseState w
        (BaseGameplayAbility.endAbility c.base (WallRunAbility.baseState w)))
      (fun w => WallRunAbility.setBaseState w (BaseGameplayAbility.endAbility
        (mirrorClass c).base (WallRunAbility.baseState w))) := fun _ => rfl
  exact hbase.comp_right (hremoved.comp_right endTask_mirror)

/-- Finishing the task commutes with the mirror. -/
theorem finish_mirror :
    Function.Semiconj (mirrorCharacter (K := K) (E := E) (C := C))
      (TickWallRun.finish (WallRunAbility.endAbility c))
      (TickWallRun.finish (WallRunAbility.endAbility (mirrorClass c))) :=
  semiconj_finish endTask_mirror (fun _ => rfl) (wallRunEnd_mirror c)

/-- The callbacks commute with the mirror, which sends the effect of one side to the other. -/
theorem callbacks_mirror (callbacks : TaskCallbacks) (side : WallSide) :
    Function.Semiconj (mirrorCharacter (K := K) (E := E) (C := C))
      (fun w => (WallRunAbility.delegates c callbacks).landed
        ((WallRunAbility.delegates c callbacks).onWallSideDetermened (decide (side = .left)) w))
      (fun w => (WallRunAbility.delegates (mirrorClass c) callbacks).landed
        ((WallRunAbility.delegates (mirrorClass c) callbacks).onWallSideDetermened
          (decide (side.opposite = .left)) w)) := by
  refine callbacks_related Function.Semiconj.id_right (fun _ _ _ _ hf hh => hh.comp_right hf)
    (fun _ _ => rfl) (wallRunEnd_mirror c) rfl ?_ callbacks
  cases side <;> rfl

end Calls

/-! ## The side of the last accepted wall -/

section AcceptedSide

/-- The side of the wall that the task accepted last. -/
def acceptedSide (w : GASCharacter K E C) : Option WallSide :=
  w.wallRun.wallRunTickTask.bind WallRunTask.side

/-- The mirror image has accepted the opposite side. -/
theorem acceptedSide_mirror (w : GASCharacter K E C) :
    acceptedSide (mirrorCharacter w) = (acceptedSide w).map WallSide.opposite := by
  unfold acceptedSide mirrorCharacter
  cases w.wallRun.wallRunTickTask <;> rfl

omit [Field K] in
/-- After accepting a side, that side is the one accepted. -/
theorem acceptedSide_accept (side : WallSide) {w : GASCharacter K E C}
    (htask : w.wallRun.wallRunTickTask.isSome = true) :
    acceptedSide (TickWallRun.accept side w) = some side := by
  obtain ⟨t, ht⟩ := Option.isSome_iff_exists.mp htask
  simp [acceptedSide, TickWallRun.accept, TickWallRun.updateTask, ht]

variable [DecidableEq E] (c : WallRunClass E)

/-- The end of the ability finishes the task and leaves its side. -/
theorem acceptedSide_wallRunEnd (w : GASCharacter K E C) :
    acceptedSide (WallRunAbility.endAbility c w) = acceptedSide w := by
  have hend : acceptedSide (TickWallRun.endTask w) = acceptedSide w := by
    unfold TickWallRun.endTask
    cases w.wallRun.liveTask with
    | none => rfl
    | some t =>
      unfold acceptedSide TickWallRun.onDestroy TickWallRun.updateTask TickWallRun.writeMovement
      simp only
      cases w.wallRun.wallRunTickTask <;> rfl
  exact hend

/-- The callbacks leave the accepted side as it is. -/
theorem acceptedSide_callbacks (callbacks : TaskCallbacks) (leftSide : Bool)
    (w : GASCharacter K E C) :
    acceptedSide ((WallRunAbility.delegates c callbacks).landed
      ((WallRunAbility.delegates c callbacks).onWallSideDetermened leftSide w)) =
        acceptedSide w := by
  have h := callbacks_of_parts (P := fun f => Function.Semiconj
      (acceptedSide (K := K) (E := E) (C := C)) f id) Function.Semiconj.id_right
    (fun _ _ hf hg => hg.comp_right hf) (fun _ _ => rfl) (acceptedSide_wallRunEnd c) callbacks
    leftSide
  exact h w

end AcceptedSide

end Mirror

/-! ## The search -/

section Search

variable [Field K] [LinearOrder K]

/-- The wall in a direction: a hit over this length that faces the character by more than
`facing`. -/
def wallTowards (lineTrace : LineTrace K) (w : GASCharacter K E C) (length facing : K)
    (direction : FVector K) : Option (FHitResult K) :=
  (traceTo lineTrace w length direction).filter fun hit =>
    decide (FVector.dotProduct hit.impactNormal (-direction) > facing)

/-- Nothing is ahead, and there is a runnable wall on either side.
SOURCE: AG_Task_TickWallRun.cpp:95-125 -/
structure BetweenWalls (lineTrace : LineTrace K) (w : GASCharacter K E C) : Prop where
  nothingAhead : traceTo lineTrace w (w.capsuleRadius + 30) w.forwardVector = none
  left : (wallTowards lineTrace w (w.capsuleRadius + 30) (3 / 10) (-w.rightVector)).isSome = true
  right : (wallTowards lineTrace w (w.capsuleRadius + 30) (3 / 10) w.rightVector).isSome = true

/-- `FindRunnableWall` refuses a wall ahead and takes the left wall before the right one. -/
theorem findRunnableWall_eq_walls (lineTrace : LineTrace K) (w : GASCharacter K E C) :
    TickWallRun.findRunnableWall lineTrace w =
      if (traceTo lineTrace w (w.capsuleRadius + 30) w.forwardVector).isSome then none
      else ((wallTowards lineTrace w (w.capsuleRadius + 30) (3 / 10) (-w.rightVector)).map
          (Prod.mk WallSide.left)).or
        ((wallTowards lineTrace w (w.capsuleRadius + 30) (3 / 10) w.rightVector).map
          (Prod.mk WallSide.right)) := by
  rw [findRunnableWall_eq]
  unfold wallTowards
  rw [FVector.neg_neg]

omit [LinearOrder K] in
/-- A trace in the mirrored world finds the mirrored hit. -/
theorem traceTo_mirror (lineTrace : LineTrace K) (w : GASCharacter K E C) (length : K)
    (direction : FVector K) :
    traceTo (mirrorLineTrace lineTrace) (mirrorCharacter w) length direction.mirror =
      (traceTo lineTrace w length direction).map FHitResult.mirror := by
  have hstop : w.actorLocation.mirror + length • direction.mirror =
      (w.actorLocation + length • direction).mirror := by
    rw [FVector.mirror_add, FVector.mirror_smul]
  show mirrorLineTrace lineTrace w.actorLocation.mirror
    (w.actorLocation.mirror + length • direction.mirror) = _
  rw [hstop]
  exact mirrorLineTrace_mirror lineTrace _ _

/-- The wall towards the mirrored direction is the mirrored wall. -/
theorem wallTowards_mirror (lineTrace : LineTrace K) (w : GASCharacter K E C) (length facing : K)
    (direction : FVector K) :
    wallTowards (mirrorLineTrace lineTrace) (mirrorCharacter w) length facing direction.mirror =
      (wallTowards lineTrace w length facing direction).map FHitResult.mirror := by
  have hdot : ∀ hit : FHitResult K,
      FVector.dotProduct hit.mirror.impactNormal (-direction.mirror) =
        FVector.dotProduct hit.impactNormal (-direction) := by
    intro hit
    rw [← FVector.mirror_neg]
    exact FVector.dotProduct_mirror _ _
  unfold wallTowards
  rw [traceTo_mirror]
  cases traceTo lineTrace w length direction with
  | none => rfl
  | some hit =>
    simp only [Option.map_some, Option.filter_some, hdot]
    split <;> rfl

/-- The search in the mirrored world tries the mirror image of the right side first. -/
theorem findRunnableWall_mirrorCharacter (lineTrace : LineTrace K) (w : GASCharacter K E C) :
    TickWallRun.findRunnableWall (mirrorLineTrace lineTrace) (mirrorCharacter w) =
      if (traceTo lineTrace w (w.capsuleRadius + 30) w.forwardVector).isSome then none
      else ((wallTowards lineTrace w (w.capsuleRadius + 30) (3 / 10) w.rightVector).map fun hit =>
          (WallSide.left, hit.mirror)).or
        ((wallTowards lineTrace w (w.capsuleRadius + 30) (3 / 10) (-w.rightVector)).map fun hit =>
          (WallSide.right, hit.mirror)) := by
  have hright : (mirrorCharacter w).rightVector = (-w.rightVector).mirror := rfl
  have hleft : -(mirrorCharacter w).rightVector = w.rightVector.mirror := FVector.neg_neg _
  have hforward : (mirrorCharacter w).forwardVector = w.forwardVector.mirror := rfl
  have hradius : (mirrorCharacter w).capsuleRadius = w.capsuleRadius := rfl
  rw [findRunnableWall_eq_walls, hleft, hright, hforward, hradius, traceTo_mirror,
    wallTowards_mirror, wallTowards_mirror, Option.isSome_map, Option.map_map, Option.map_map]
  rfl

/-- A search that has no choice finds the mirrored wall, on the other side. -/
theorem findRunnableWall_mirror {lineTrace : LineTrace K} {w : GASCharacter K E C}
    (h : ¬ BetweenWalls lineTrace w) :
    TickWallRun.findRunnableWall (mirrorLineTrace lineTrace) (mirrorCharacter w) =
      (TickWallRun.findRunnableWall lineTrace w).map
        (Prod.map WallSide.opposite FHitResult.mirror) := by
  rw [findRunnableWall_mirrorCharacter, findRunnableWall_eq_walls]
  cases hahead : traceTo lineTrace w (w.capsuleRadius + 30) w.forwardVector with
  | some ahead => rfl
  | none =>
    cases hleft : wallTowards lineTrace w (w.capsuleRadius + 30) (3 / 10) (-w.rightVector) with
    | none =>
      cases wallTowards lineTrace w (w.capsuleRadius + 30) (3 / 10) w.rightVector <;> rfl
    | some left =>
      cases hright : wallTowards lineTrace w (w.capsuleRadius + 30) (3 / 10) w.rightVector with
      | none => rfl
      | some right =>
        have hbetween : BetweenWalls lineTrace w := by
          refine ⟨hahead, ?_, ?_⟩
          · rw [hleft]
            rfl
          · rw [hright]
            rfl
        exact absurd hbetween h

/-- A search that has the choice takes the wall on its left, in both worlds. -/
theorem findRunnableWall_betweenWalls {lineTrace : LineTrace K} {w : GASCharacter K E C}
    (h : BetweenWalls lineTrace w) :
    ∃ hit hit', TickWallRun.findRunnableWall lineTrace w = some (.left, hit) ∧
      TickWallRun.findRunnableWall (mirrorLineTrace lineTrace) (mirrorCharacter w) =
        some (.left, hit') := by
  obtain ⟨hahead, hleft, hright⟩ := h
  obtain ⟨left, hleft⟩ := Option.isSome_iff_exists.mp hleft
  obtain ⟨right, hright⟩ := Option.isSome_iff_exists.mp hright
  refine ⟨left, right.mirror, ?_, ?_⟩
  · rw [findRunnableWall_eq_walls, hahead, hleft]
    rfl
  · rw [findRunnableWall_mirrorCharacter, hahead, hright]
    rfl

end Search

/-! ## One event -/

section Step

variable [DecidableEq E] [Field K] [LinearOrder K] (c : WallRunClass E)

/-- The search that an event makes: of an attempt that is entered, or of a live task. -/
def wallSearch (w : GASCharacter K E C) : WallRunEvent K → Option (LineTrace K)
  | .activate env _ => if entersWallRun w env then some env.lineTrace else none
  | .tick lineTrace => if w.wallRun.liveTask.isSome then some lineTrace else none
  | .cancel => none
  | .moved _ _ _ => none

/-- The search of this event, if it makes one, does not find walls on both sides. -/
def OneSided (w : GASCharacter K E C) (e : WallRunEvent K) : Prop :=
  ∀ lineTrace ∈ wallSearch w e, ¬ BetweenWalls lineTrace w

omit [DecidableEq E] in
/-- A search is one-sided unless it is made between two walls. -/
theorem oneSided_iff {w : GASCharacter K E C} {e : WallRunEvent K} {lineTrace : LineTrace K}
    (h : wallSearch w e = some lineTrace) : OneSided w e ↔ ¬ BetweenWalls lineTrace w := by
  simp only [OneSided, h, Option.mem_some_iff, forall_eq']

omit [DecidableEq E] in
/-- A tick of a live task is one-sided unless it comes between two walls. -/
theorem oneSided_tick {w : GASCharacter K E C} {lineTrace : LineTrace K}
    (hlive : w.wallRun.liveTask.isSome = true) :
    OneSided w (.tick lineTrace) ↔ ¬ BetweenWalls lineTrace w :=
  oneSided_iff (if_pos hlive)

omit [DecidableEq E] in
/-- An event that makes no search is one-sided. -/
theorem oneSided_of_none {w : GASCharacter K E C} {e : WallRunEvent K}
    (h : wallSearch w e = none) : OneSided w e := by
  simp only [OneSided, h, Option.not_mem_none, false_implies, implies_true]

omit [DecidableEq E] [LinearOrder K] in
/-- The last accepted side differs from that of the mirror image. -/
theorem ne_mirror_of_acceptedSide {w w' : GASCharacter K E C} {side : WallSide}
    (h : acceptedSide w = some side) (h' : acceptedSide w' = some side) :
    w' ≠ mirrorCharacter w := by
  rintro rfl
  rw [acceptedSide_mirror, h] at h'
  cases side <;> simp [WallSide.opposite] at h'

variable {c} in
/-- The task accepts the side of the wall that its activation finds. -/
theorem acceptedSide_activate {lineTrace : LineTrace K} {w : GASCharacter K E C} {side : WallSide}
    {hit : FHitResult K} (htask : w.wallRun.wallRunTickTask.isSome = true)
    (hfound : TickWallRun.findRunnableWall lineTrace w = some (side, hit))
    (callbacks : TaskCallbacks) (task : ℕ) :
    acceptedSide (TickWallRun.activate (WallRunAbility.delegates c callbacks) lineTrace task w) =
      some side := by
  have hcalls := acceptedSide_callbacks c callbacks (TickWallRun.isWallOnTheLeft w hit)
    (TickWallRun.accept side w)
  unfold TickWallRun.activate
  simp only [hfound]
  rw [acceptedSide_accept side htask] at hcalls
  exact hcalls

omit [DecidableEq E] in
/-- The task accepts the side of the wall that a tick finds. -/
theorem acceptedSide_tickTask {lineTrace : LineTrace K} {w : GASCharacter K E C} {side : WallSide}
    {hit : FHitResult K} (htask : w.wallRun.wallRunTickTask.isSome = true)
    (hfound : TickWallRun.findRunnableWall lineTrace w = some (side, hit))
    (onFinished : GASCharacter K E C → GASCharacter K E C) (task : ℕ) :
    acceptedSide (TickWallRun.tickTask onFinished lineTrace task w) = some side := by
  unfold TickWallRun.tickTask
  rw [hfound]
  exact acceptedSide_accept side htask

omit [DecidableEq E] [LinearOrder K] in
/-- The mirror image has a task where the character has one. -/
theorem isSome_task_mirror {w : GASCharacter K E C}
    (htask : w.wallRun.wallRunTickTask.isSome = true) :
    (mirrorCharacter w).wallRun.wallRunTickTask.isSome = true :=
  Option.isSome_map.trans htask

variable [IsStrictOrderedRing K]

/-- `Activate` of the task mirrors exactly if its search has no choice. -/
theorem activate_mirror_iff (callbacks : TaskCallbacks) (lineTrace : LineTrace K) (task : ℕ)
    {w : GASCharacter K E C} (htask : w.wallRun.wallRunTickTask.isSome = true) :
    TickWallRun.activate (WallRunAbility.delegates (mirrorClass c) callbacks)
        (mirrorLineTrace lineTrace) task (mirrorCharacter w) =
      mirrorCharacter
        (TickWallRun.activate (WallRunAbility.delegates c callbacks) lineTrace task w) ↔
      ¬ BetweenWalls lineTrace w := by
  constructor
  · intro h hbetween
    obtain ⟨hit, hit', hfound, hfound'⟩ := findRunnableWall_betweenWalls hbetween
    exact ne_mirror_of_acceptedSide (acceptedSide_activate htask hfound callbacks task)
      (acceptedSide_activate (isSome_task_mirror htask) hfound' callbacks task) h
  · intro h
    have hmirror := findRunnableWall_mirror h
    unfold TickWallRun.activate
    cases hfound : TickWallRun.findRunnableWall lineTrace w with
    | none =>
      rw [hfound] at hmirror
      rw [hmirror]
      exact (finish_mirror c w).symm
    | some found =>
      obtain ⟨side, hit⟩ := found
      rw [hfound] at hmirror
      have hmirror : TickWallRun.findRunnableWall (mirrorLineTrace lineTrace) (mirrorCharacter w) =
          some (side.opposite, hit.mirror) := hmirror
      -- each world tests the side of the hit that its own search accepted
      simp only [hmirror, isWallOnTheLeft_of_found hfound, isWallOnTheLeft_of_found hmirror]
      exact ((attach_mirror task hit).comp_right
        ((callbacks_mirror c callbacks side).comp_right (accept_mirror side)) w).symm

/-- `TickTask` of a task mirrors exactly if its search has no choice. -/
theorem tickTask_mirror_iff (lineTrace : LineTrace K) (task : ℕ) {w : GASCharacter K E C}
    (htask : w.wallRun.wallRunTickTask.isSome = true) :
    TickWallRun.tickTask (WallRunAbility.endAbility (mirrorClass c)) (mirrorLineTrace lineTrace)
        task (mirrorCharacter w) =
      mirrorCharacter (TickWallRun.tickTask (WallRunAbility.endAbility c) lineTrace task w) ↔
      ¬ BetweenWalls lineTrace w := by
  constructor
  · intro h hbetween
    obtain ⟨hit, hit', hfound, hfound'⟩ := findRunnableWall_betweenWalls hbetween
    exact ne_mirror_of_acceptedSide (acceptedSide_tickTask htask hfound _ task)
      (acceptedSide_tickTask (isSome_task_mirror htask) hfound' _ task) h
  · intro h
    have hmirror := findRunnableWall_mirror h
    unfold TickWallRun.tickTask
    cases hfound : TickWallRun.findRunnableWall lineTrace w with
    | none =>
      rw [hfound] at hmirror
      rw [hmirror]
      exact (finish_mirror c w).symm
    | some found =>
      obtain ⟨side, hit⟩ := found
      rw [hfound] at hmirror
      have hmirror : TickWallRun.findRunnableWall (mirrorLineTrace lineTrace) (mirrorCharacter w) =
          some (side.opposite, hit.mirror) := hmirror
      simp only [hmirror, isWallOnTheLeft_of_found hfound, isWallOnTheLeft_of_found hmirror]
      exact ((steer_mirror task side hit).comp_right (accept_mirror side) w).symm

omit [DecidableEq E] [IsStrictOrderedRing K] in
/-- Entering the ability moves nothing, so it is between walls where the attempt was. -/
theorem betweenWalls_searching (env : WallRunActivation K) (lineTrace : LineTrace K)
    (w : GASCharacter K E C) :
    BetweenWalls lineTrace (searching c env w) ↔ BetweenWalls lineTrace w :=
  ⟨fun h => ⟨h.nothingAhead, h.left, h.right⟩, fun h => ⟨h.nothingAhead, h.left, h.right⟩⟩

/-- **One event mirrors exactly if its search has no choice.** -/
theorem wallRunStep_mirror_iff (w : GASCharacter K E C) (e : WallRunEvent K) :
    wallRunStep (mirrorClass c) (mirrorCharacter w) (mirrorEvent e) =
      mirrorCharacter (wallRunStep c w e) ↔ OneSided w e := by
  cases e with
  | activate env callbacks =>
    have henters : entersWallRun (mirrorCharacter w)
        { env with lineTrace := mirrorLineTrace env.lineTrace } = entersWallRun w env := rfl
    have hstep := activate_mirror_iff c callbacks env.lineTrace w.tasksCreated
      (w := searching c env w) rfl
    simp only [mirrorEvent, wallRunStep_activate, henters]
    cases hentered : entersWallRun w env with
    | false =>
      have hnone : wallSearch w (.activate env callbacks) = none := by
        simp only [wallSearch, hentered, Bool.false_eq_true, if_false]
      simp only [Bool.false_eq_true, if_false, oneSided_of_none hnone]
    | true =>
      have hsome : wallSearch w (.activate env callbacks) = some env.lineTrace := by
        simp only [wallSearch, hentered, if_true]
      rw [betweenWalls_searching] at hstep
      rw [oneSided_iff hsome]
      simp only [if_true]
      exact hstep
  | tick lineTrace =>
    simp only [mirrorEvent, wallRunStep, WallRunAbility.tick, liveTask_mirror]
    cases hlive : w.wallRun.liveTask with
    | none =>
      have hnone : wallSearch w (.tick lineTrace) = none := by
        simp only [wallSearch, hlive, Option.isSome_none, Bool.false_eq_true, if_false]
      simp only [Option.map_none, oneSided_of_none hnone]
    | some t =>
      have htask : w.wallRun.wallRunTickTask.isSome = true := by
        rw [(liveTask_eq_some.mp hlive).1]
        rfl
      rw [oneSided_tick (hlive ▸ rfl)]
      exact tickTask_mirror_iff c lineTrace t.id htask
  | cancel =>
    have hcancel := semiconj_ite (wallRunEnd_mirror (K := K) (C := C) c)
      w.wallRun.ability.isActive w
    exact ⟨fun _ => oneSided_of_none rfl, fun _ => hcancel.symm⟩
  | moved location forward right => exact ⟨fun _ => oneSided_of_none rfl, fun _ => rfl⟩

/-! ## Whole runs -/

/-- **The wall run has a mirror image exactly as long as it is not between walls.**  For every
character and every run of attempts, whose calls may end the ability anywhere, of ticks,
cancels and moves: the mirrored character, with the two side effects exchanged, goes through
the mirror images of the states of the run if and only if no search that the run made found a
runnable wall on both sides with nothing ahead.
SOURCE: AG_Task_TickWallRun.cpp:10-144, AG_WallRunAbility.cpp:54-109 -/
theorem wallRun_mirror_iff (w : GASCharacter K E C) (es : List (WallRunEvent K)) :
    (∀ pre, pre <+: es →
      run (wallRunStep (mirrorClass c)) (mirrorCharacter w) (pre.map mirrorEvent) =
        mirrorCharacter (run (wallRunStep c) w pre)) ↔
      EveryStep (wallRunStep c) OneSided w es :=
  run_map_iff_everyStep mirrorCharacter mirrorEvent (wallRunStep_mirror_iff c) w es

end Step

/-- Two walls along X, at 50 units to the left and to the right of the origin. -/
def wallsOnBothSides : LineTrace ℚ := fun start stop =>
  if 50 ≤ stop.y then some ⟨⟨start.x, 50, start.z⟩, ⟨start.x, 50, start.z⟩, ⟨0, -1, 0⟩⟩
  else wallOnTheLeft start stop

/-- A run along the wall on the left has a mirror image; it is lost at the tick where a wall
on the right comes up. -/
theorem wallRun_mirror_secondWall :
    let w : GASCharacter ℚ ℕ ℕ := fallingCharacter
    let es := [wallRunAttempt wallOnTheLeft (.quiet .added), .tick wallOnTheLeft]
    run (wallRunStep (mirrorClass wallRunWithSides)) (mirrorCharacter w) (es.map mirrorEvent) =
        mirrorCharacter (run (wallRunStep wallRunWithSides) w es) ∧
      ¬ ∀ pre, pre <+: es ++ [.moved ⟨9, 0, 0⟩ ⟨1, 0, 0⟩ ⟨0, 1, 0⟩, .tick wallsOnBothSides] →
        run (wallRunStep (mirrorClass wallRunWithSides)) (mirrorCharacter w)
            (pre.map mirrorEvent) =
          mirrorCharacter (run (wallRunStep wallRunWithSides) w pre) := by
  intro w es
  constructor
  · refine (wallRun_mirror_iff wallRunWithSides w es).mpr ⟨?_, ?_, trivial⟩ es
      (List.prefix_refl es)
    · have hsearch : wallSearch w (wallRunAttempt wallOnTheLeft (.quiet .added)) =
          some wallOnTheLeft := by rfl
      exact (oneSided_iff hsearch).mpr fun h => absurd h.right (by decide +kernel)
    · exact (oneSided_tick (by decide +kernel)).mpr fun h => absurd h.right (by decide +kernel)
  · rw [wallRun_mirror_iff wallRunWithSides w]
    rintro ⟨-, -, -, htick, -⟩
    exact (oneSided_tick (by decide +kernel)).mp htick
      ⟨by decide +kernel, by decide +kernel, by decide +kernel⟩

end GasSamples.Analysis
