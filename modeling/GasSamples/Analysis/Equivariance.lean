import GasSamples.Reactive.Run
import GasSamples.Model.RigidMotion
import GasSamples.Program.CharacterMovement
import GasSamples.Program.CommitCheck
import GasSamples.Analysis.WallRunAbility

/-!
# The abilities in a world that was moved

Neither the search for a vault nor the wall run knows where the origin of the world is or
which way its axes point in the plane.  Let the world, the character and whatever it
remembers be moved by a rigid motion about the vertical: each function then does what it
did before, moved.  For the search this carries through both loops, at every fuel; for the
traversal abilities through every run.
-/

set_option autoImplicit false

namespace GasSamples.Analysis

open Reactive GasSamples.Model GasSamples.Program

/-! ## The search for a vault -/

section Search

open CommitCheck

variable {K : Type} [Field K] (g : RigidMotion K)

/-- The search of a character that was moved, in the moved world. -/
def moveSearch (x : VaultSearch K) : VaultSearch K :=
  { x with
    startLocation := g.move x.startLocation
    forwardVector := g.rotate x.forwardVector
    upVector := g.rotate x.upVector
    world := g.moveSphereTrace x.world
    jumpToLocation := g.move x.jumpToLocation
    jumpOverLocation := g.move x.jumpOverLocation }

/-- A sweep, moved. -/
def moveSweep (s : Sweep K) : Sweep K :=
  { s with start := g.move s.start, stop := g.move s.stop }

/-- The outcome of a commit, moved. -/
def moveCommit (r : CommitResult K) : CommitResult K :=
  { r with
    jumpToLocation := g.move r.jumpToLocation
    jumpOverLocation := g.move r.jumpOverLocation }

/-- The result of a search, moved. -/
def moveResult (r : SearchResult K) : SearchResult K where
  toCommitResult := moveCommit g r.toCommitResult
  sweeps := r.sweeps.map (moveSweep g)

/-- The variables of the horizontal loop, moved. -/
def moveHorizontal (s : HorizontalScan K) : HorizontalScan K :=
  { s with
    jumpToLocation := g.move s.jumpToLocation
    sweeps := s.sweeps.map (moveSweep g) }

/-- The start of the vertical part, moved. -/
def moveVerticalStart (v : VerticalStart K) : VerticalStart K :=
  { v with
    jumpToLocation := g.move v.jumpToLocation
    sweeps := v.sweeps.map (moveSweep g) }

/-- The variables of the vertical loop, moved. -/
def moveVertical (s : VerticalScan K) : VerticalScan K :=
  { s with
    jumpToLocation := g.move s.jumpToLocation
    jumpOverLocation := g.move s.jumpOverLocation
    sweeps := s.sweeps.map (moveSweep g) }

variable (x : VaultSearch K)

/-- The layers of the moved search are the moved layers. -/
theorem layer_moveSearch (i : ℕ) : layer (moveSearch g x) i = moveSweep g (layer x i) := by
  simp only [layer, moveSearch, moveSweep, RigidMotion.move_add, RigidMotion.rotate_smul]

/-- The probes of the moved search are the moved probes. -/
theorem probe_moveSearch (v : VerticalStart K) (i : ℕ) :
    probe (moveSearch g x) (moveVerticalStart g v) i = moveSweep g (probe x v i) := by
  simp only [probe, moveSearch, moveSweep, moveVerticalStart, RigidMotion.move_add,
    RigidMotion.rotate_smul]

/-- The refining sweep of the moved search is the moved one. -/
theorem refinement_moveSearch (location : FVector K) :
    refinement (moveSearch g x) (g.move location) = moveSweep g (refinement x location) := by
  simp only [refinement, moveSearch, moveSweep, RigidMotion.move_add, RigidMotion.rotate_smul]

/-- A moved sweep in the moved world finds the moved hit. -/
theorem trace_moveSearch (s : Sweep K) :
    trace (moveSearch g x) (moveSweep g s) = (trace x s).map g.moveHit :=
  g.moveSphereTrace_move x.world s.start s.stop s.radius

variable [LinearOrder K] [SquareRoot K]

/-- The body of the horizontal loop commutes with motions. -/
theorem horizontalBody_moveSearch (s : HorizontalScan K) :
    horizontalBody (moveSearch g x) (moveHorizontal g s) =
      (horizontalBody x s).map (moveHorizontal g) (moveHorizontal g) := by
  have hsweeps : (moveHorizontal g s).sweeps ++ [moveSweep g (layer x s.i)] =
      (s.sweeps ++ [layer x s.i]).map (moveSweep g) := by
    simp [moveHorizontal]
  unfold horizontalBody
  have hi : (moveHorizontal g s).i = s.i := rfl
  have hcount : (moveSearch g x).settings = x.settings := rfl
  have hidx : (moveHorizontal g s).jumpToLocationIdx = s.jumpToLocationIdx := rfl
  simp only [hi, hcount, hidx, layer_moveSearch, trace_moveSearch, hsweeps]
  by_cases hlt : (s.i : K) < x.settings.horizontalTraceCount
  · simp only [if_pos hlt]
    cases trace x (layer x s.i) with
    | none =>
      simp only [Option.map_none]
      split_ifs <;> rfl
    | some hit =>
      simp only [Option.map_some]
      split_ifs
      · rfl
      · -- the distance to the hit of the layer above does not change
        have hdist : FVector.dist2D (g.moveHit hit).location (moveSweep g (layer x s.i)).start =
            FVector.dist2D hit.location (layer x s.i).start := g.dist2D_move _ _
        simp only [hdist]
        rfl
      · rfl
  · simp only [if_neg hlt]
    rfl

/-- What follows the horizontal loop commutes with motions. -/
theorem afterHorizontal_moveSearch (s : HorizontalScan K) :
    afterHorizontal (moveSearch g x) (moveHorizontal g s) =
      (afterHorizontal x s).map (moveResult g) (moveVerticalStart g) := by
  have hdist : FVector.dist2D (moveSearch g x).startLocation (moveHorizontal g s).jumpToLocation =
      FVector.dist2D x.startLocation s.jumpToLocation := g.dist2D_move _ _
  have hheight : ∀ i, (moveHorizontal g s).jumpToLocation.z - (layer (moveSearch g x) i).start.z =
      s.jumpToLocation.z - (layer x i).start.z := by
    intro i
    rw [layer_moveSearch]
    exact g.move_z_sub _ _
  unfold afterHorizontal
  simp only [hdist, hheight]
  have hidx : (moveHorizontal g s).jumpToLocationIdx = s.jumpToLocationIdx := rfl
  have hdistance : (moveHorizontal g s).maxJumpDistance = s.maxJumpDistance := rfl
  have hi : (moveHorizontal g s).i = s.i := rfl
  have hsettings : (moveSearch g x).settings = x.settings := rfl
  simp only [hidx, hdistance, hi, hsettings]
  split_ifs <;> rfl

/-- The first part of the search commutes with motions. -/
theorem searchForward_moveSearch (fuel : ℕ) :
    searchForward (moveSearch g x) fuel =
      (searchForward x fuel).map (Sum.map (moveResult g) (moveVerticalStart g)) := by
  have hinit : horizontalInit (moveSearch g x) = moveHorizontal g (horizontalInit x) := rfl
  have hsuper : (moveSearch g x).superCommitCheck = x.superCommitCheck := rfl
  have hvalid : (moveSearch g x).characterValid = x.characterValid := rfl
  unfold searchForward
  rw [hinit, loop_map (moveHorizontal g) (moveHorizontal g) (horizontalBody_moveSearch g x),
    hsuper, hvalid]
  split_ifs
  · rfl
  · rfl
  · rw [Option.map_map, Option.map_map]
    congr 1
    funext s
    exact afterHorizontal_moveSearch g x s

omit [SquareRoot K] in
/-- The body of the vertical loop commutes with motions. -/
theorem verticalBody_moveSearch (v : VerticalStart K) (s : VerticalScan K) :
    verticalBody (moveSearch g x) (moveVerticalStart g v) (moveVertical g s) =
      (verticalBody x v s).map (moveVertical g) (moveVertical g) := by
  have hsweeps : (moveVertical g s).sweeps ++ [moveSweep g (probe x v s.i)] =
      (s.sweeps ++ [probe x v s.i]).map (moveSweep g) := by
    simp [moveVertical]
  have hi : (moveVertical g s).i = s.i := rfl
  have hcount : verticalTraceCount (moveSearch g x) (moveVerticalStart g v) =
      verticalTraceCount x v := rfl
  unfold verticalBody
  simp only [hi, hcount, probe_moveSearch, trace_moveSearch, hsweeps]
  by_cases hreach : (verticalTraceCount x v).atLeast s.i = true
  · simp only [if_pos hreach]
    cases trace x (probe x v s.i) with
    | none =>
      simp only [Option.map_none]
      split_ifs <;> rfl
    | some hit =>
      simp only [Option.map_some, Sum.map_inl, moveVertical]
      split_ifs <;> rfl
  · simp only [if_neg hreach]
    rfl

omit [LinearOrder K] [SquareRoot K] in
/-- What follows the vertical loop commutes with motions. -/
theorem afterVertical_moveSearch (s : VerticalScan K) :
    afterVertical (moveSearch g x) (moveVertical g s) = moveResult g (afterVertical x s) := by
  have hset : (moveVertical g s).jumpOverLocationSet = s.jumpOverLocationSet := rfl
  have hlocation : (moveVertical g s).jumpOverLocation = g.move s.jumpOverLocation := rfl
  unfold afterVertical
  simp only [hset, hlocation, refinement_moveSearch, trace_moveSearch]
  cases s.jumpOverLocationSet with
  | false => rfl
  | true =>
    simp only [Bool.not_true, Bool.false_eq_true, if_false]
    cases trace x (refinement x s.jumpOverLocation) <;>
      simp [moveResult, moveCommit, moveVertical, RigidMotion.moveHit]

/-- **The search commutes with rigid motions about the vertical.**  For every motion, world,
pose and setting, and at every fuel: the search of the moved character in the moved world
makes the same sweeps, moved, in the same number of rounds, and returns the same result,
moved; it runs out of fuel, or hangs, when the other one does.
SOURCE: AG_VaultOverAbility.cpp:19-152 -/
theorem commitCheck_moveSearch (fuel : ℕ) :
    commitCheck (moveSearch g x) fuel = (commitCheck x fuel).map (moveResult g) := by
  unfold commitCheck
  rw [searchForward_moveSearch]
  cases searchForward x fuel with
  | none => rfl
  | some searched =>
    cases searched with
    | inl result => rfl
    | inr v =>
      have hinit : verticalInit (moveSearch g x) (moveVerticalStart g v) =
          moveVertical g (verticalInit x v) := rfl
      simp only [Option.map_some, Option.bind_some, Sum.map_inr, searchDown, hinit]
      rw [loop_map (moveVertical g) (moveVertical g) (verticalBody_moveSearch g x v),
        Option.map_map, Option.map_map]
      congr 1
      funext s
      exact afterVertical_moveSearch g x s

end Search

/-! ## The traversal abilities -/

section Character

variable {K E C : Type} [Field K] (g : RigidMotion K)

/-- The movement component, moved. -/
def moveMovement (m : CharacterMovement K) : CharacterMovement K :=
  { m with
    velocity := g.rotate m.velocity
    planeConstraintOrigin := g.move m.planeConstraintOrigin
    planeConstraintNormal := g.rotate m.planeConstraintNormal }

/-- A warp target, moved. -/
def moveTarget (target : FMotionWarpingTarget K) : FMotionWarpingTarget K :=
  ⟨g.move target.location, g.turn target.rotation⟩

/-- A character, moved with all it remembers. -/
def moveCharacter (w : GASCharacter K E C) : GASCharacter K E C :=
  { w with
    actorLocation := g.move w.actorLocation
    forwardVector := g.rotate w.forwardVector
    rightVector := g.rotate w.rightVector
    actorRotation := g.turn w.actorRotation
    movement := moveMovement g w.movement
    warpTargets := fun name => (w.warpTargets name).map (moveTarget g)
    vault := { w.vault with
      jumpToLocation := g.move w.vault.jumpToLocation
      jumpOverLocation := g.move w.vault.jumpOverLocation } }

/-- What an attempt to vault meets, moved. -/
def moveVaultActivation (env : VaultActivation K) : VaultActivation K :=
  { env with commit := moveCommit g env.commit }

/-- What an attempt to run along a wall meets, moved. -/
def moveWallRunActivation (env : WallRunActivation K) : WallRunActivation K :=
  { env with lineTrace := g.moveLineTrace env.lineTrace }

/-- An attempt in the moved world. -/
def moveAttempt : TraversalAttempt K → TraversalAttempt K
  | .vault env => .vault (moveVaultActivation g env)
  | .wallRun env sideEffect => .wallRun (moveWallRunActivation g env) sideEffect
  | .jump env => .jump env
  | .other activated active => .other activated active

/-- An event in the moved world. -/
def moveEvent : TraversalEvent K → TraversalEvent K
  | .jumpPress attempts => .jumpPress (attempts.map (moveAttempt g))
  | .capsuleHit env sideEffect => .capsuleHit (moveWallRunActivation g env) sideEffect
  | .tick lineTrace => .tick (g.moveLineTrace lineTrace)
  | .montageFinished => .montageFinished
  | .cancelVault => .cancelVault
  | .cancelWallRun => .cancelWallRun
  | .moved location forward right =>
    .moved (g.move location) (g.rotate forward) (g.rotate right)

/-! ### The wall run -/

section WallRun

/-- Ending the task commutes with motions. -/
theorem commutes_endTask : Function.Commute (moveCharacter (K := K) (E := E) (C := C) g)
    TickWallRun.endTask := by
  intro w
  unfold TickWallRun.endTask
  have hlive : (moveCharacter g w).wallRun.liveTask = w.wallRun.liveTask := rfl
  rw [hlive]
  cases w.wallRun.liveTask <;> rfl

variable [DecidableEq E] (c : WallRunClass E)

/-- The end of a wall run commutes with motions. -/
theorem commutes_wallRunEnd : Function.Commute (moveCharacter (K := K) (E := E) (C := C) g)
    (WallRunAbility.endAbility c) := by
  intro w
  unfold WallRunAbility.endAbility
  rw [← commutes_endTask g w]
  rfl

/-- Finishing the task commutes with motions. -/
theorem commutes_finish : Function.Commute (moveCharacter (K := K) (E := E) (C := C) g)
    (TickWallRun.finish (WallRunAbility.endAbility c)) :=
  semiconj_finish (commutes_endTask g) (fun _ => rfl) (commutes_wallRunEnd g c)

/-- The callbacks of the task commute with motions. -/
theorem commutes_callbacks (callbacks : TaskCallbacks) (leftSide : Bool) :
    Function.Commute (moveCharacter (K := K) (E := E) (C := C) g) fun w =>
      (WallRunAbility.delegates c callbacks).landed
        ((WallRunAbility.delegates c callbacks).onWallSideDetermened leftSide w) :=
  callbacks_related Function.Semiconj.id_right (fun _ _ _ _ hf hh => hh.comp_right hf)
    (fun _ _ => rfl) (commutes_wallRunEnd g c) rfl rfl callbacks

variable [LinearOrder K]

omit [DecidableEq E] in
/-- In the moved world the moved character finds the moved wall, on the same side. -/
theorem findRunnableWall_moveCharacter (lineTrace : LineTrace K) (w : GASCharacter K E C) :
    TickWallRun.findRunnableWall (g.moveLineTrace lineTrace) (moveCharacter g w) =
      (TickWallRun.findRunnableWall lineTrace w).map (Prod.map id g.moveHit) := by
  have htrace : ∀ v : FVector K, g.moveLineTrace lineTrace (moveCharacter g w).actorLocation
      ((moveCharacter g w).actorLocation + ((moveCharacter g w).capsuleRadius + 30) • g.rotate v) =
        (lineTrace w.actorLocation (w.actorLocation + (w.capsuleRadius + 30) • v)).map
          g.moveHit := by
    intro v
    rw [← g.rotate_smul]
    show g.moveLineTrace lineTrace (g.move w.actorLocation)
      (g.move w.actorLocation + g.rotate ((w.capsuleRadius + 30) • v)) = _
    rw [← g.move_add]
    exact g.moveLineTrace_move lineTrace _ _
  have hdot : ∀ (hit : FHitResult K) (v : FVector K),
      FVector.dotProduct (g.moveHit hit).impactNormal (g.rotate v) =
        FVector.dotProduct hit.impactNormal v := fun hit v => g.dotProduct_rotate _ _
  have hright : (moveCharacter g w).rightVector = g.rotate w.rightVector := rfl
  have hforward : (moveCharacter g w).forwardVector = g.rotate w.forwardVector := rfl
  unfold TickWallRun.findRunnableWall
  simp only [hright, hforward, ← g.rotate_neg, htrace]
  -- the three traces, one after the other
  cases lineTrace w.actorLocation (w.actorLocation + (w.capsuleRadius + 30) • w.forwardVector) with
  | some ahead => rfl
  | none =>
    simp only [Option.map_none]
    cases lineTrace w.actorLocation
        (w.actorLocation + (w.capsuleRadius + 30) • w.rightVector) <;>
      cases lineTrace w.actorLocation
        (w.actorLocation + (w.capsuleRadius + 30) • -w.rightVector) <;>
      simp only [Option.map_none, Option.map_some, hdot] <;> split_ifs <;> rfl

omit [DecidableEq E] in
/-- The side of a wall stays the same under motions. -/
theorem isWallOnTheLeft_moveCharacter (w : GASCharacter K E C) (hit : FHitResult K) :
    TickWallRun.isWallOnTheLeft (moveCharacter g w) (g.moveHit hit) =
      TickWallRun.isWallOnTheLeft w hit := by
  have hdot : FVector.dotProduct (moveCharacter g w).rightVector (g.moveHit hit).impactNormal =
      FVector.dotProduct w.rightVector hit.impactNormal := g.dotProduct_rotate _ _
  unfold TickWallRun.isWallOnTheLeft
  rw [hdot]

omit [DecidableEq E] [LinearOrder K] in
/-- Attaching to a wall commutes with motions. -/
theorem attach_moveCharacter (task : ℕ) (hit : FHitResult K) :
    Function.Semiconj (moveCharacter (K := K) (E := E) (C := C) g) (TickWallRun.attach task hit)
      (TickWallRun.attach task (g.moveHit hit)) := by
  intro w
  have hlocation : (g.moveHit hit).impactPoint + (60 : K) • (g.moveHit hit).impactNormal =
      g.move (hit.impactPoint + (60 : K) • hit.impactNormal) := by
    rw [g.move_add, g.rotate_smul]
    rfl
  unfold TickWallRun.attach
  rw [hlocation]
  rfl

omit [DecidableEq E] [LinearOrder K] in
/-- The velocity along a moved wall is the rotated velocity. -/
theorem wallRunVelocity_moveHit (left : Bool) (hit : FHitResult K) :
    TickWallRun.wallRunVelocity left (g.moveHit hit) =
      g.rotate (TickWallRun.wallRunVelocity left hit) := by
  have hquarter : ∀ v : FVector K, ({ (700 : K) • g.rotate v with z := 0 } : FVector K) =
      g.rotate { (700 : K) • v with z := 0 } := by
    intro v
    ext <;> simp [RigidMotion.rotate] <;> ring
  have hnormal : (g.moveHit hit).impactNormal = g.rotate hit.impactNormal := rfl
  unfold TickWallRun.wallRunVelocity
  cases left with
  | true =>
    simp only [if_true, hnormal, ← g.rotate_rotateYawMinus90]
    exact hquarter _
  | false =>
    simp only [Bool.false_eq_true, if_false, hnormal, ← g.rotate_rotateYaw90]
    exact hquarter _

omit [DecidableEq E] [LinearOrder K] in
/-- Steering commutes with motions. -/
theorem steer_moveCharacter (task : ℕ) (left : Bool) (hit : FHitResult K) :
    Function.Semiconj (moveCharacter (K := K) (E := E) (C := C) g) (TickWallRun.steer task left hit)
      (TickWallRun.steer task left (g.moveHit hit)) := by
  intro w
  unfold TickWallRun.steer
  rw [wallRunVelocity_moveHit]
  rfl

/-- The activation of the task commutes with motions. -/
theorem activate_moveCharacter (callbacks : TaskCallbacks) (lineTrace : LineTrace K) (task : ℕ)
    (w : GASCharacter K E C) :
    TickWallRun.activate (WallRunAbility.delegates c callbacks) (g.moveLineTrace lineTrace) task
        (moveCharacter g w) =
      moveCharacter g
        (TickWallRun.activate (WallRunAbility.delegates c callbacks) lineTrace task w) := by
  have hfinish := commutes_finish (C := C) g c
  unfold TickWallRun.activate
  rw [findRunnableWall_moveCharacter]
  cases TickWallRun.findRunnableWall lineTrace w with
  | none => exact (hfinish w).symm
  | some found =>
    obtain ⟨side, hit⟩ := found
    simp only [Option.map_some, Prod.map_apply, id_eq, isWallOnTheLeft_moveCharacter]
    have hcalls := commutes_callbacks (C := C) g c callbacks (TickWallRun.isWallOnTheLeft w hit)
    exact (((attach_moveCharacter g task hit).comp_right hcalls) (TickWallRun.accept side w)).symm

/-- An attempt of the wall run commutes with motions. -/
theorem tryWallRun_moveCharacter (env : WallRunActivation K) (callbacks : TaskCallbacks)
    (w : GASCharacter K E C) :
    WallRunAbility.tryActivateAbility c (moveWallRunActivation g env) callbacks
        (moveCharacter g w) =
      Prod.map id (moveCharacter g) (WallRunAbility.tryActivateAbility c env callbacks w) := by
  have hactive : (moveCharacter g w).wallRun.ability.isActive = w.wallRun.ability.isActive := rfl
  have hcan : WallRunAbility.canActivateAbility (moveWallRunActivation g env).superCanActivate
      (moveCharacter g w) = WallRunAbility.canActivateAbility env.superCanActivate w := rfl
  unfold WallRunAbility.tryActivateAbility
  rw [hactive, hcan]
  split
  · rfl
  · -- the base class and the creation of the task do not look at the pose
    have hactivated := activate_moveCharacter g c callbacks env.lineTrace w.tasksCreated
      (WallRunAbility.createWallRunTask (WallRunAbility.setBaseState (WallRunAbility.preActivate w)
        (BaseGameplayAbility.activateAbility c.base (.quiet env.start env.remove)
          (WallRunAbility.baseState (WallRunAbility.preActivate w)))))
    exact congrArg (Prod.mk true) hactivated

/-- A tick commutes with motions. -/
theorem tick_moveCharacter (lineTrace : LineTrace K) (w : GASCharacter K E C) :
    WallRunAbility.tick c (g.moveLineTrace lineTrace) (moveCharacter g w) =
      moveCharacter g (WallRunAbility.tick c lineTrace w) := by
  unfold WallRunAbility.tick
  have hlive : (moveCharacter g w).wallRun.liveTask = w.wallRun.liveTask := rfl
  rw [hlive]
  cases w.wallRun.liveTask with
  | none => rfl
  | some t =>
    simp only [TickWallRun.tickTask, findRunnableWall_moveCharacter]
    cases TickWallRun.findRunnableWall lineTrace w with
    | none => exact (commutes_finish g c w).symm
    | some found =>
      obtain ⟨side, hit⟩ := found
      simp only [Option.map_some, Prod.map_apply, id_eq, isWallOnTheLeft_moveCharacter]
      exact (steer_moveCharacter g t.id _ hit (TickWallRun.accept side w)).symm

end WallRun

/-! ### The vault and the jump -/

section Vault

/-- Moving the targets commutes with an update of one of them. -/
theorem update_moveTarget (targets : String → Option (FMotionWarpingTarget K)) (name : String)
    (target : Option (FMotionWarpingTarget K)) :
    Function.update (fun n => (targets n).map (moveTarget g)) name (target.map (moveTarget g)) =
      fun n => (Function.update targets name target n).map (moveTarget g) := by
  funext n
  by_cases hn : n = name
  · subst hn
    simp
  · simp [hn]

/-- Removing a warp target commutes with motions. -/
theorem commutes_removeWarpTarget (name : String) :
    Function.Commute (moveCharacter (K := K) (E := E) (C := C) g) fun w =>
      w.removeWarpTarget name := by
  intro w
  have hupdate := update_moveTarget g w.warpTargets name none
  refine Eq.symm ?_
  show ({ moveCharacter g w with
    warpTargets := Function.update (fun n => (w.warpTargets n).map (moveTarget g)) name none } :
      GASCharacter K E C) = _
  rw [Option.map_none] at hupdate
  rw [hupdate]
  rfl

/-- A target at a location that the character remembers, with its rotation. -/
theorem addWarpTarget_moveCharacter (name : String) (location : FVector K)
    (w : GASCharacter K E C) :
    (moveCharacter g w).addOrUpdateWarpTarget name (g.move location)
        (moveCharacter g w).actorRotation =
      moveCharacter g (w.addOrUpdateWarpTarget name location w.actorRotation) := by
  have hupdate := update_moveTarget g w.warpTargets name (some ⟨location, w.actorRotation⟩)
  show ({ moveCharacter g w with
    warpTargets := Function.update (fun n => (w.warpTargets n).map (moveTarget g)) name
      (some ⟨g.move location, g.turn w.actorRotation⟩) } : GASCharacter K E C) = _
  rw [Option.map_some] at hupdate
  exact congrArg (fun targets => { moveCharacter g w with warpTargets := targets }) hupdate

variable [DecidableEq C] (c : VaultOverClass E C)

/-- The end of a vault commutes with motions. -/
theorem commutes_vaultEnd : Function.Commute (moveCharacter (K := K) (E := E) (C := C) g)
    (VaultOverAbility.endAbility c) := by
  have hmontage : Function.Commute (moveCharacter (K := K) (E := E) (C := C) g) fun w =>
      { w with vault := { w.vault with montageTask := false } } := fun w => rfl
  have hblock : Function.Commute (moveCharacter (K := K) (E := E) (C := C) g) fun w =>
      { w with
        collisionResponse := overwrite c.collisionChannelsToIgnore .block w.collisionResponse } :=
    fun w => rfl
  have hfall : Function.Commute (moveCharacter (K := K) (E := E) (C := C) g) fun w =>
      if w.movement.movementMode.isFlying then w.setMovementMode .falling else w := by
    intro w
    have hflying : (moveCharacter g w).movement.movementMode = w.movement.movementMode := rfl
    simp only [hflying]
    split <;> rfl
  have hbase : Function.Commute (moveCharacter (K := K) (E := E) (C := C) g) fun w =>
      VaultOverAbility.setBaseState w
        (BaseGameplayAbility.endAbility c.base (VaultOverAbility.baseState w)) := fun w => rfl
  have hto := commutes_removeWarpTarget (E := E) (C := C) g "JumpToLocation"
  have hover := commutes_removeWarpTarget (E := E) (C := C) g "JumpOverLocation"
  have hundone := hbase.comp_right (hover.comp_right (hto.comp_right (hfall.comp_right
    (hblock.comp_right hmontage))))
  intro w
  have hvalid : (moveCharacter g w).avatarValid = w.avatarValid := rfl
  unfold VaultOverAbility.endAbility
  simp only [hvalid]
  split
  · rfl
  · exact hundone w

/-- The start of a vault commutes with motions. -/
theorem commutes_beginVault : Function.Commute (moveCharacter (K := K) (E := E) (C := C) g)
    (VaultOverAbility.beginVault c) := by
  intro w
  unfold VaultOverAbility.beginVault
  have hvalid : (moveCharacter g w).avatarValid = w.avatarValid := rfl
  simp only [hvalid]
  split
  · rfl
  · rw [← addWarpTarget_moveCharacter, ← addWarpTarget_moveCharacter]
    rfl

/-- An attempt of the vault commutes with motions. -/
theorem tryVault_moveCharacter (env : VaultActivation K) (w : GASCharacter K E C) :
    VaultOverAbility.tryActivateAbility c (moveVaultActivation g env) (moveCharacter g w) =
      Prod.map id (moveCharacter g) (VaultOverAbility.tryActivateAbility c env w) := by
  have hend := commutes_vaultEnd (K := K) (E := E) g c
  have hbegin := commutes_beginVault (K := K) (E := E) g c
  have hmontage : Function.Commute (moveCharacter (K := K) (E := E) (C := C) g) fun w =>
      { w with vault := { w.vault with montageTask := true } } := fun w => rfl
  have hrunning := hmontage.comp_right hbegin
  have hactive : (moveCharacter g w).vault.ability.isActive = w.vault.ability.isActive := rfl
  have hcan : (moveVaultActivation g env).canActivate = env.canActivate := rfl
  have hpassed : (moveVaultActivation g env).commit.passed = env.commit.passed := rfl
  have hplays : (moveVaultActivation g env).montagePlays = env.montagePlays := rfl
  -- the character with the moved locations of the commit
  have hcommitted : VaultOverAbility.commitAbility (moveVaultActivation g env).commit
      (VaultOverAbility.setBaseState (VaultOverAbility.preActivate (moveCharacter g w))
        (BaseGameplayAbility.activateAbility c.base
          (.quiet (moveVaultActivation g env).start (moveVaultActivation g env).remove)
          (VaultOverAbility.baseState (VaultOverAbility.preActivate (moveCharacter g w))))) =
      moveCharacter g (VaultOverAbility.commitAbility env.commit
        (VaultOverAbility.setBaseState (VaultOverAbility.preActivate w)
          (BaseGameplayAbility.activateAbility c.base (.quiet env.start env.remove)
            (VaultOverAbility.baseState (VaultOverAbility.preActivate w))))) := rfl
  unfold VaultOverAbility.tryActivateAbility
  rw [hactive, hcan]
  split
  · rfl
  · refine congrArg (Prod.mk true) ?_
    unfold VaultOverAbility.activateAbility
    simp only [hcommitted, hpassed, hplays]
    split
    · exact (hend _).symm
    · split
      · exact (hrunning _).symm
      · exact (hend.comp_right hrunning _).symm

end Vault

/-- An attempt of the jump commutes with motions. -/
theorem tryJump_moveCharacter (c : JumpClass E) (env : JumpActivation) (w : GASCharacter K E C) :
    JumpAbility.tryActivateAbility c env (moveCharacter g w) =
      Prod.map id (moveCharacter g) (JumpAbility.tryActivateAbility c env w) := by
  have hcan : JumpAbility.canActivateAbility c env (moveCharacter g w) =
      JumpAbility.canActivateAbility c env w := rfl
  unfold JumpAbility.tryActivateAbility
  rw [hcan]
  split
  · refine congrArg (Prod.mk true) ?_
    unfold JumpAbility.activateAbility
    split
    · simp only []
      split <;> rfl
    · rfl
  · rfl

/-! ### Whole runs -/

section Runs

variable [DecidableEq C] [DecidableEq E] [LinearOrder K] (c : TraversalClasses E C)

/-- Every attempt commutes with motions. -/
theorem tryActivateAbilityByClass_moveCharacter (attempt : TraversalAttempt K)
    (w : GASCharacter K E C) :
    CharacterMovement.tryActivateAbilityByClass c (moveCharacter g w) (moveAttempt g attempt) =
      Prod.map id (moveCharacter g) (CharacterMovement.tryActivateAbilityByClass c w attempt) := by
  cases attempt with
  | vault env => exact tryVault_moveCharacter g c.vault env w
  | wallRun env sideEffect => exact tryWallRun_moveCharacter g c.wallRun env _ w
  | jump env => exact tryJump_moveCharacter g c.jump env w
  | other activated active => rfl

/-- `TryTraversal` commutes with motions. -/
theorem tryTraversal_moveCharacter (attempts : List (TraversalAttempt K))
    (w : GASCharacter K E C) :
    CharacterMovement.tryTraversal c (moveCharacter g w) (attempts.map (moveAttempt g)) =
      Prod.map id (moveCharacter g) (CharacterMovement.tryTraversal c w attempts) := by
  induction attempts generalizing w with
  | nil => rfl
  | cons attempt attempts ih =>
    have hactive : ∀ v : GASCharacter K E C,
        CharacterMovement.isActive (moveCharacter g v) (moveAttempt g attempt) =
          CharacterMovement.isActive v attempt := by
      intro v
      cases attempt <;> rfl
    simp only [List.map_cons, CharacterMovement.tryTraversal,
      tryActivateAbilityByClass_moveCharacter, Prod.map_fst, Prod.map_snd, id_eq, hactive]
    split
    · rfl
    · exact ih _

/-- **One step** of the traversal system commutes with motions. -/
theorem traversalStep_moveCharacter (w : GASCharacter K E C) (e : TraversalEvent K) :
    traversalStep c (moveCharacter g w) (moveEvent g e) =
      moveCharacter g (traversalStep c w e) := by
  cases e with
  | jumpPress attempts => exact congrArg Prod.snd (tryTraversal_moveCharacter g c attempts w)
  | capsuleHit env sideEffect =>
    exact congrArg Prod.snd (tryWallRun_moveCharacter g c.wallRun env _ w)
  | tick lineTrace => exact tick_moveCharacter g c.wallRun lineTrace w
  | montageFinished =>
    exact (semiconj_ite (commutes_vaultEnd g c.vault) w.vault.ability.isActive w).symm
  | cancelVault =>
    exact (semiconj_ite (commutes_vaultEnd g c.vault) w.vault.ability.isActive w).symm
  | cancelWallRun =>
    exact (semiconj_ite (commutes_wallRunEnd g c.wallRun) w.wallRun.ability.isActive w).symm
  | moved location forward right => rfl

/-- **The traversal abilities commute with rigid motions about the vertical.**  For every
motion and every run of jump presses over any list of abilities, capsule hits, ticks, montage
callbacks and cancels, from any character: the moved character goes through the moved run in
the moved world as the character goes through the run, and ends where that one ends, moved.
SOURCE: AG_Task_TickWallRun.cpp:10-144, AG_WallRunAbility.cpp:42-109,
AG_VaultOverAbility.cpp:154-235, AG_CharacterMovementComponent.cpp:16-31 -/
theorem run_moveCharacter (w : GASCharacter K E C) (es : List (TraversalEvent K)) :
    run (traversalStep c) (moveCharacter g w) (es.map (moveEvent g)) =
      moveCharacter g (run (traversalStep c) w es) :=
  run_map (moveCharacter g) (moveEvent g) (traversalStep_moveCharacter g c) w es

end Runs

end Character

end GasSamples.Analysis
