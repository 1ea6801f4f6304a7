import GasSamples.Analysis.ModeOwnership
import GasSamples.Analysis.TaskReentrancy

/-!
# What the traversal abilities leave behind

The vault and the wall run write to the same character, in any order and one during the
other.  `Accounted` says what the character shows of them: a flying mode, a gravity scale,
a plane constraint, warp targets, a montage task and ignored collision channels are there
because an ability is active that put them there.

Each ability keeps its own part of this as an invariant of its own writes (`VaultSide`,
`SessionSide`); that neither writes the part of the other one is a matter of frames.  The
movement mode is the exception: it is shared, and the account of it is that of the shared
cell.
-/

set_option autoImplicit false

namespace GasSamples.Analysis

open Reactive GasSamples.Model GasSamples.Program

variable {K E C : Type}

/-! ## Frames -/

/-- The function leaves a part of the character alone. -/
def Keeps {α : Type} (part : GASCharacter K E C → α)
    (f : GASCharacter K E C → GASCharacter K E C) : Prop :=
  ∀ w, part (f w) = part w

section Keeps

variable {α : Type} {part : GASCharacter K E C → α} {f g : GASCharacter K E C → GASCharacter K E C}

/-- What two functions keep, one after the other keeps. -/
theorem Keeps.comp (hf : Keeps part f) (hg : Keeps part g) : Keeps part fun w => g (f w) :=
  fun w => (hg (f w)).trans (hf w)

/-- A call that may or may not be made keeps what it keeps when it is made. -/
theorem Keeps.ite (hf : Keeps part f) (made : Bool) :
    Keeps part fun w => if made then f w else w := by
  intro w
  cases made with
  | true => exact hf w
  | false => rfl

end Keeps

/-- What only the vault writes. -/
def vaultPart (w : GASCharacter K E C) : VaultOverState K ×
    (String → Option (FMotionWarpingTarget K)) × (C → ECollisionResponse) :=
  (w.vault, w.warpTargets, w.collisionResponse)

/-- What only the wall run writes, its effects, velocity and plane apart. -/
def wallRunPart (w : GASCharacter K E C) : WallRunState × ℕ × List TaskEvent × K × Bool :=
  (w.wallRun, w.tasksCreated, w.taskLog, w.movement.gravityScale,
    w.movement.planeConstraintEnabled)

section WallRunFrame

variable [DecidableEq E] [Field K] (c : WallRunClass E)

/-- The end of a wall run leaves the vault's part alone. -/
theorem keeps_wallRunEnd :
    Keeps vaultPart (WallRunAbility.endAbility (K := K) (C := C) c) := by
  intro w
  have htask : vaultPart (TickWallRun.endTask w) = vaultPart w := by
    unfold TickWallRun.endTask
    split <;> rfl
  exact htask

/-- Finishing the task leaves the vault's part alone. -/
theorem keeps_finish :
    Keeps vaultPart (TickWallRun.finish (WallRunAbility.endAbility (K := K) (C := C) c)) := by
  intro w
  have htask : ∀ w : GASCharacter K E C, vaultPart (TickWallRun.endTask w) = vaultPart w := by
    intro w
    unfold TickWallRun.endTask
    split <;> rfl
  exact (htask _).trans ((keeps_wallRunEnd c).ite w.wallRun.ability.isActive w)

/-- The callbacks of the task leave the vault's part alone. -/
theorem keeps_callbacks (callbacks : TaskCallbacks) (leftSide : Bool) :
    Keeps vaultPart fun w : GASCharacter K E C => (WallRunAbility.delegates c callbacks).landed
      ((WallRunAbility.delegates c callbacks).onWallSideDetermened leftSide w) :=
  callbacks_of_parts (fun _ => rfl) (fun _ _ hf hg => hf.comp hg) (fun _ _ => rfl)
    (keeps_wallRunEnd c) callbacks leftSide

variable [LinearOrder K]

/-- No event of the wall run writes what only the vault writes. -/
theorem vaultPart_wallRunStep (w : GASCharacter K E C) (e : WallRunEvent K) :
    vaultPart (wallRunStep c w e) = vaultPart w := by
  cases e with
  | activate env callbacks =>
    rw [wallRunStep_activate]
    split
    · rw [activateAbility_eq_activate]
      unfold TickWallRun.activate
      rw [findRunnableWall_searching]
      cases TickWallRun.findRunnableWall env.lineTrace w with
      | none => exact keeps_finish c (searching c env w)
      | some found => exact keeps_callbacks c callbacks _ (TickWallRun.accept found.1 _)
    · rfl
  | tick lineTrace =>
    simp only [wallRunStep, WallRunAbility.tick]
    cases w.wallRun.liveTask with
    | none => rfl
    | some t =>
      simp only [TickWallRun.tickTask]
      cases TickWallRun.findRunnableWall lineTrace w with
      | none => exact keeps_finish c w
      | some found => rfl
  | cancel => exact (keeps_wallRunEnd c).ite w.wallRun.ability.isActive w
  | moved location forward right => rfl

end WallRunFrame

section VaultFrame

variable [DecidableEq C] (c : VaultOverClass E C)

/-- The end of a vault leaves the wall run's part alone. -/
theorem keeps_vaultEnd :
    Keeps wallRunPart (VaultOverAbility.endAbility (K := K) (E := E) c) := by
  intro w
  simp only [VaultOverAbility.endAbility]
  split
  · rfl
  · split <;> rfl

/-- The start of a vault leaves the wall run's part alone. -/
theorem keeps_beginVault :
    Keeps wallRunPart (VaultOverAbility.beginVault (K := K) (E := E) c) := by
  intro w
  simp only [VaultOverAbility.beginVault]
  split <;> rfl

/-- No event of the vault writes what only the wall run writes. -/
theorem wallRunPart_vaultStep (w : GASCharacter K E C) (e : VaultEvent K) :
    wallRunPart (vaultStep c w e) = wallRunPart w := by
  have hend := keeps_vaultEnd (K := K) c
  cases e with
  | activate env =>
    rw [vaultStep_activate]
    split
    · cases hpassed : env.commit.passed with
      | false =>
        rw [activateAbility_of_failed c env w hpassed]
        exact hend (committing c env w)
      | true =>
        rw [activateAbility_of_passed c env w hpassed]
        have hbegun := keeps_beginVault (K := K) c (committing c env w)
        simp only []
        split
        · exact hbegun
        · exact (hend _).trans hbegun
    · rfl
  | montageFinished => exact hend.ite w.vault.ability.isActive w
  | cancel => exact hend.ite w.vault.ability.isActive w

end VaultFrame

/-- An attempt to jump writes neither part. -/
theorem parts_jump (c : JumpClass E) (env : JumpActivation) (w : GASCharacter K E C) :
    vaultPart (JumpAbility.tryActivateAbility c env w).2 = vaultPart w ∧
      wallRunPart (JumpAbility.tryActivateAbility c env w).2 = wallRunPart w := by
  unfold JumpAbility.tryActivateAbility
  split
  · unfold JumpAbility.activateAbility
    split
    · simp only [JumpAbility.setBaseState]
      split <;> exact ⟨rfl, rfl⟩
    · exact ⟨rfl, rfl⟩
  · exact ⟨rfl, rfl⟩

/-! ## The part of the vault -/

/-- Other warp targets and other collision channels are as they were. -/
structure VaultApart (c : VaultOverClass E C) (w₀ w : GASCharacter K E C) : Prop where
  otherTargets : ∀ name, name ≠ "JumpToLocation" → name ≠ "JumpOverLocation" →
    w.warpTargets name = w₀.warpTargets name
  otherChannels : ∀ channel, channel ∉ c.collisionChannelsToIgnore →
    w.collisionResponse channel = w₀.collisionResponse channel

/-- The montage task, the two warp targets and the ignored channels are there exactly while
the vault is active. -/
structure VaultSide (c : VaultOverClass E C) (w₀ w : GASCharacter K E C) : Prop
    extends VaultApart c w₀ w where
  montageTask : w.vault.montageTask = w.vault.ability.isActive
  jumpTo : (w.warpTargets "JumpToLocation").map FMotionWarpingTarget.location =
    if w.vault.ability.isActive then some w.vault.jumpToLocation else none
  jumpOver : (w.warpTargets "JumpOverLocation").map FMotionWarpingTarget.location =
    if w.vault.ability.isActive then some w.vault.jumpOverLocation else none
  ignored : w.vault.ability.isActive = true → ∀ channel ∈ c.collisionChannelsToIgnore,
    w.collisionResponse channel = .ignore
  restored : w.vault.ability.isActive = false → ∀ channel ∈ c.collisionChannelsToIgnore,
    w.collisionResponse channel = .block ∨
      w.collisionResponse channel = w₀.collisionResponse channel

section VaultSide

variable {c : VaultOverClass E C} {w₀ w w' : GASCharacter K E C}

/-- What is apart from the vault is a matter of the vault's part. -/
theorem VaultApart.congr (h : VaultApart c w₀ w) (hpart : vaultPart w' = vaultPart w) :
    VaultApart c w₀ w' := by
  simp only [vaultPart, Prod.mk.injEq] at hpart
  obtain ⟨-, htargets, hresponse⟩ := hpart
  constructor
  · rw [htargets]
    exact h.otherTargets
  · rw [hresponse]
    exact h.otherChannels

/-- The account of the vault is a matter of the vault's part. -/
theorem VaultSide.congr (h : VaultSide c w₀ w) (hpart : vaultPart w' = vaultPart w) :
    VaultSide c w₀ w' := by
  have hapart := h.toVaultApart.congr hpart
  simp only [vaultPart, Prod.mk.injEq] at hpart
  obtain ⟨hvault, htargets, hresponse⟩ := hpart
  refine ⟨hapart, ?_, ?_, ?_, ?_, ?_⟩
  · rw [hvault]
    exact h.montageTask
  · rw [hvault, htargets]
    exact h.jumpTo
  · rw [hvault, htargets]
    exact h.jumpOver
  · rw [hvault, hresponse]
    exact h.ignored
  · rw [hvault, hresponse]
    exact h.restored

variable [DecidableEq C] (hv : w.avatarValid = true)
include hv

/-- The steps of a vault that begins touch their own targets and channels. -/
theorem VaultApart.begin (h : VaultApart c w₀ w) :
    VaultApart c w₀ (VaultOverAbility.beginVault c w) := by
  simp only [VaultOverAbility.beginVault, hv, Bool.not_true, Bool.false_eq_true, if_false]
  constructor
  · intro name hto hover
    simp only [GASCharacter.addOrUpdateWarpTarget, Function.update_of_ne hover,
      Function.update_of_ne hto]
    exact h.otherTargets name hto hover
  · intro channel hchannel
    simp only [GASCharacter.addOrUpdateWarpTarget, overwrite_apply, if_neg hchannel]
    exact h.otherChannels channel hchannel

/-- A vault that has begun is there. -/
theorem VaultApart.begun (h : VaultApart c w₀ w) (hcount : w.vault.ability.activeCount = 1) :
    VaultSide c w₀ { VaultOverAbility.beginVault c w with
      vault := { (VaultOverAbility.beginVault c w).vault with montageTask := true } } := by
  have hactive : w.vault.ability.isActive = true := by
    rw [AbilityInstance.isActive_eq_true, hcount]
    exact Nat.one_pos
  have hapart := h.begin hv
  refine ⟨⟨hapart.otherTargets, hapart.otherChannels⟩, ?_, ?_, ?_, ?_, ?_⟩
  · simp [hactive]
  · simp [VaultOverAbility.beginVault, hv, GASCharacter.addOrUpdateWarpTarget,
      GASCharacter.setMovementMode, hactive]
  · simp [VaultOverAbility.beginVault, hv, GASCharacter.addOrUpdateWarpTarget,
      GASCharacter.setMovementMode, hactive]
  · intro _ channel hchannel
    simp only [beginVault_collisionResponse c hv, overwrite_apply, if_pos hchannel]
  · intro hinactive
    simp [hactive] at hinactive

/-- Nothing of a vault that has ended is there. -/
theorem VaultApart.ended (h : VaultApart c w₀ w) (hcount : w.vault.ability.activeCount ≤ 1) :
    VaultSide c w₀ (VaultOverAbility.endAbility c w) := by
  have htargets := vaultEnd_warpTargets c hv
  have hresponse := vaultEnd_collisionResponse c hv
  have hinactive : (VaultOverAbility.endAbility c w).vault.ability.isActive = false := by
    rw [AbilityInstance.isActive_eq_false, vaultEnd_activeCount c hv]
    omega
  have hmontage : (VaultOverAbility.endAbility c w).vault.montageTask = false := by
    simp only [VaultOverAbility.endAbility, hv, Bool.not_true, Bool.false_eq_true, if_false]
    split <;> rfl
  refine ⟨⟨?_, ?_⟩, ?_, ?_, ?_, ?_, ?_⟩
  · intro name hto hover
    rw [htargets, Function.update_of_ne hover, Function.update_of_ne hto]
    exact h.otherTargets name hto hover
  · intro channel hchannel
    rw [hresponse, overwrite_apply, if_neg hchannel]
    exact h.otherChannels channel hchannel
  · rw [hmontage, hinactive]
  · rw [htargets, hinactive]
    simp
  · rw [htargets, hinactive]
    simp
  · intro hactive
    rw [hinactive] at hactive
    exact absurd hactive (by simp)
  · intro _ channel hchannel
    rw [hresponse, overwrite_apply, if_pos hchannel]
    exact Or.inl rfl

omit hv in
/-- Every event of the vault keeps its part. -/
theorem VaultSide.vaultStep (h : VaultSide c w₀ w) (hw : VaultSettled w) (e : VaultEvent K) :
    VaultSide c w₀ (Program.vaultStep c w e) := by
  obtain ⟨hv, hcount, -⟩ := hw
  cases e with
  | activate env =>
    rw [vaultStep_activate]
    by_cases hentered : entersVault w env = true
    · have hzero : w.vault.ability.activeCount = 0 := by
        simp only [entersVault, Bool.and_eq_true, Bool.not_eq_true'] at hentered
        simpa using hentered.1
      have hv' : (committing c env w).avatarValid = true := hv
      have hcount' : (committing c env w).vault.ability.activeCount = 1 := by
        rw [committing_activeCount, hzero]
      have hapart : VaultApart c w₀ (committing c env w) := ⟨h.otherTargets, h.otherChannels⟩
      rw [if_pos hentered]
      cases hpassed : env.commit.passed with
      | false =>
        rw [activateAbility_of_failed c env w hpassed]
        exact hapart.ended hv' (Nat.le_of_eq hcount')
      | true =>
        rw [activateAbility_of_passed c env w hpassed]
        have hbegun := hapart.begun hv' hcount'
        simp only []
        split
        · exact hbegun
        · -- the montage does not play
          apply hbegun.toVaultApart.ended
          · exact (beginVault_avatarValid c _).trans hv'
          · show (VaultOverAbility.beginVault c (committing c env w)).vault.ability.activeCount ≤ 1
            rw [beginVault_vault, hcount']
    · rw [if_neg hentered]
      exact h
  | montageFinished =>
    simp only [Program.vaultStep, VaultOverAbility.onMontageFinished]
    split
    · exact h.toVaultApart.ended hv hcount
    · exact h
  | cancel =>
    simp only [Program.vaultStep, VaultOverAbility.cancelAbility]
    split
    · exact h.toVaultApart.ended hv hcount
    · exact h

end VaultSide

/-! ## The part of the wall run -/

section SessionSide

variable [Field K]

/-- The tasks have written `writes` since `s₀`, and the movement is constrained to a plane
exactly if the live task has written the constraint. -/
structure PlaneSide (s₀ s : Session K) (writes : List TaskEvent) : Prop where
  log : s.taskLog = s₀.taskLog ++ writes
  created : ∀ task field, .wrote task field ∈ writes → task < s.tasksCreated
  running : ∀ r, s.running = some r → r.task < s.tasksCreated
  enabled : s.movement.planeConstraintEnabled = true ↔
    ∃ r, s.running = some r ∧ .wrote r.task .planeConstraint ∈ writes

/-- The gravity scale is that of a wall run while a task is live, and the one its
`OnDestroy` sets once a task was created; the plane constraint is there exactly if the live
task has set it. -/
structure SessionSide (s₀ s : Session K) : Prop where
  created_le : s₀.tasksCreated ≤ s.tasksCreated
  created_lt : s.running.isSome = true → s₀.tasksCreated < s.tasksCreated
  gravityScale : s.movement.gravityScale =
    if s.running.isSome then wallRunGravityScale K
    else if s.tasksCreated = s₀.tasksCreated then s₀.movement.gravityScale
    else destroyedGravityScale K
  planeConstraint : ∃ writes, PlaneSide s₀ s writes

/-- Without a task and a plane constraint, nothing has been written yet. -/
theorem SessionSide.refl {s : Session K} (hnone : s.running = none)
    (hplane : s.movement.planeConstraintEnabled = false) : SessionSide s s where
  created_le := Nat.le_refl _
  created_lt hrun := by simp [hnone] at hrun
  gravityScale := by simp [hnone]
  planeConstraint := ⟨[], by simp, by simp, by simp [hnone], by simp [hplane]⟩

variable {s₀ s : Session K}

/-- A task that is destroyed takes the constraint away. -/
theorem PlaneSide.ended {writes : List TaskEvent} (h : PlaneSide s₀ s writes) {r : RunningSession}
    (hr : s.running = some r) : PlaneSide s₀ s.ended (writes ++ Session.destroyLog r.task) := by
  have hended : s.ended = { s with
      movement := { s.movement with
        planeConstraintEnabled := false
        movementMode := .falling
        gravityScale := destroyedGravityScale K }
      running := none
      taskLog := s.taskLog ++ Session.destroyLog r.task } := by
    simp only [Session.ended, hr]
  have hcreated := h.running r hr
  rw [hended]
  refine ⟨?_, ?_, by simp, by simp⟩
  · rw [h.log, List.append_assoc]
  · intro task field hmem
    rcases List.mem_append.mp hmem with hmem | hmem
    · exact h.created task field hmem
    · simp only [Session.destroyLog, List.mem_cons, TaskEvent.wrote.injEq, List.not_mem_nil,
        or_false, reduceCtorEq] at hmem
      show task < s.tasksCreated
      omega

omit [Field K] in
/-- A task that is created has written nothing yet. -/
theorem PlaneSide.begun {writes : List TaskEvent} (h : PlaneSide s₀ s writes)
    (hnone : s.running = none) : PlaneSide s₀ s.begun writes where
  log := h.log
  created task field hmem := Nat.lt_succ_of_lt (h.created task field hmem)
  running r hr := by
    rw [Session.begun_running] at hr
    obtain rfl := Option.some.inj hr
    exact Nat.lt_succ_self s.tasksCreated
  enabled := by
    rw [Session.begun_running]
    apply iff_of_false
    · intro henabled
      obtain ⟨r, hr, -⟩ := h.enabled.mp henabled
      rw [hnone] at hr
      exact absurd hr (by simp)
    · rintro ⟨r, hr, hmem⟩
      obtain rfl := Option.some.inj hr
      exact Nat.lt_irrefl _ (h.created _ _ hmem)

/-- A task that has found a wall writes no constraint at first. -/
theorem PlaneSide.attached {writes : List TaskEvent} {task : ℕ} (h : PlaneSide s₀ s writes)
    (htask : task < s.tasksCreated) :
    PlaneSide s₀ (s.attached task) (writes ++ Session.attachLog task) where
  log := by
    show s.taskLog ++ Session.attachLog task = _
    rw [h.log, List.append_assoc]
  created task' field hmem := by
    rcases List.mem_append.mp hmem with hmem | hmem
    · exact h.created task' field hmem
    · simp only [Session.attachLog, List.mem_cons, TaskEvent.wrote.injEq, List.not_mem_nil,
        or_false] at hmem
      show task' < s.tasksCreated
      omega
  running := h.running
  enabled := by
    have hwrites : ∀ r : RunningSession, .wrote r.task .planeConstraint ∈
        writes ++ Session.attachLog task ↔ .wrote r.task .planeConstraint ∈ writes := by
      intro r
      simp [Session.attachLog]
    simp only [hwrites]
    exact h.enabled

omit [Field K] in
/-- A tick writes the constraint. -/
theorem PlaneSide.steered {writes : List TaskEvent} (h : PlaneSide s₀ s writes)
    {r : RunningSession} (hr : s.running = some r) (side : WallSide)
    (velocity origin normal : FVector K) :
    PlaneSide s₀ ((s.accepted side).steered velocity origin normal)
      (writes ++ Session.steerLog r.task) := by
  have hsteered : (s.accepted side).steered velocity origin normal =
      { s with
        movement := { s.movement with
          velocity := velocity
          planeConstraintEnabled := true
          planeConstraintOrigin := origin
          planeConstraintNormal := normal }
        running := some { r with side := some side }
        taskLog := s.taskLog ++ Session.steerLog r.task } := by
    simp [Session.accepted, Session.steered, hr]
  have hcreated := h.running r hr
  rw [hsteered]
  refine ⟨?_, ?_, ?_, ?_⟩
  · rw [h.log, List.append_assoc]
  · intro task field hmem
    rcases List.mem_append.mp hmem with hmem | hmem
    · exact h.created task field hmem
    · simp only [Session.steerLog, List.mem_cons, TaskEvent.wrote.injEq, List.not_mem_nil,
        or_false] at hmem
      show task < s.tasksCreated
      omega
  · intro r' hr'
    obtain rfl := Option.some.inj hr'
    exact hcreated
  · refine iff_of_true rfl ⟨_, rfl, ?_⟩
    simp [Session.steerLog]

/-- A session that ends, after a task was created. -/
theorem SessionSide.of_ended (hrun : s.running.isSome = true)
    (hcreated : s₀.tasksCreated < s.tasksCreated) {writes : List TaskEvent}
    (hplane : PlaneSide s₀ s writes) : SessionSide s₀ s.ended := by
  obtain ⟨r, hr⟩ := Option.isSome_iff_exists.mp hrun
  have hmovement := Session.ended_movement hrun
  have hsame : s.ended.tasksCreated = s.tasksCreated := by
    simp [Session.ended, hr]
  constructor
  · rw [hsame]
    omega
  · intro hsome
    simp at hsome
  · have hne : s.ended.tasksCreated ≠ s₀.tasksCreated := by omega
    rw [hmovement, Session.ended_running, if_neg hne]
    rfl
  · exact ⟨_, hplane.ended hr⟩

/-- The event creates a task. -/
def createsTask : SessionEvent K → Prop
  | .failed => True
  | .started _ _ => True
  | .steered _ _ _ _ => False
  | .ended => False

/-- A start that is not interrupted keeps the session's part: the task is attached, and its
constraint comes with the first tick. -/
theorem SessionSide.started (h : SessionSide s₀ s) (hnone : s.running = none)
    (side : WallSide) : SessionSide s₀ ((s.begun.accepted side).attached s.tasksCreated) := by
  have hle := h.created_le
  obtain ⟨writes, hplane⟩ := h.planeConstraint
  have hbegun := hplane.begun hnone
  have haccepted : PlaneSide s₀ (s.begun.accepted side) writes := by
    refine ⟨hbegun.log, hbegun.created, fun r hr => ?_, ?_⟩
    · obtain rfl := Option.some.inj hr
      exact Nat.lt_succ_self s.tasksCreated
    · refine hbegun.enabled.trans ?_
      simp
  have hcreated : ((s.begun.accepted side).attached s.tasksCreated).tasksCreated =
      s.tasksCreated + 1 := rfl
  refine ⟨?_, fun _ => ?_, rfl, _, haccepted.attached (Nat.lt_succ_self s.tasksCreated)⟩
  · omega
  · omega

/-- A tick that finds a wall keeps the session's part, and the constraint comes with it. -/
theorem SessionSide.steered (h : SessionSide s₀ s) {r : RunningSession}
    (hr : s.running = some r) (side : WallSide) (velocity origin normal : FVector K) :
    SessionSide s₀ ((s.accepted side).steered velocity origin normal) := by
  have hrun : s.running.isSome = true := by simp [hr]
  have hlt := h.created_lt hrun
  have hgravity := h.gravityScale
  rw [if_pos hrun] at hgravity
  obtain ⟨writes, hplane⟩ := h.planeConstraint
  have hcreated : ((s.accepted side).steered velocity origin normal).tasksCreated =
      s.tasksCreated := by
    simp [Session.accepted, Session.steered, hr]
  have hlive : ((s.accepted side).steered velocity origin normal).running.isSome = true := by
    simp [hr]
  refine ⟨?_, fun _ => ?_, ?_, _, hplane.steered hr side velocity origin normal⟩
  · rw [hcreated]
    exact h.created_le
  · rw [hcreated]
    exact hlt
  · rw [if_pos hlive, ← hgravity]
    exact (Session.steered_movement velocity origin normal (s.accepted side)).2

/-- Every event of the session but an interrupted start keeps its part. -/
theorem SessionSide.step (h : SessionSide s₀ s) {d : SessionEvent K}
    (hd : interruptsStart d = false) (hfresh : createsTask d → s.running = none) :
    SessionSide s₀ (sessionStep s d) := by
  have hle := h.created_le
  obtain ⟨writes, hplane⟩ := h.planeConstraint
  cases d with
  | failed =>
    have hcreated : s₀.tasksCreated < s.begun.tasksCreated := by
      show s₀.tasksCreated < s.tasksCreated + 1
      omega
    exact SessionSide.of_ended rfl hcreated (hplane.begun (hfresh trivial))
  | started side interrupted =>
    simp only [interruptsStart] at hd
    have hstep : sessionStep s (.started side interrupted) =
        (s.begun.accepted side).attached s.tasksCreated := by
      rw [hd]
      rfl
    rw [hstep]
    exact h.started (hfresh trivial) side
  | steered side velocity origin normal =>
    cases hr : s.running with
    | none =>
      have hsame : sessionStep s (.steered side velocity origin normal) = s := by
        simp [sessionStep, Session.accepted, Session.steered, hr, Session.ext_iff]
      rw [hsame]
      exact h
    | some r => exact h.steered hr side velocity origin normal
  | ended =>
    show SessionSide s₀ s.ended
    cases hr : s.running with
    | none =>
      rw [Session.ended_of_none hr]
      exact h
    | some r =>
      have hrun : s.running.isSome = true := by simp [hr]
      exact SessionSide.of_ended hrun (h.created_lt hrun) hplane

variable [LinearOrder K] [IsStrictOrderedRing K] [DecidableEq E]

omit [IsStrictOrderedRing K] [DecidableEq E] in
/-- A task is created by an ability that is inactive, and so without a live one. -/
theorem running_eq_none_of_creates (c : WallRunClass E) {w : GASCharacter K E C}
    (hw : WallRunSettled w) {e : WallRunEvent K} {d : SessionEvent K}
    (hview : d ∈ wallRunView c w e) (hcreates : createsTask d) : (sessionOf w).running = none := by
  cases e with
  | activate env callbacks =>
    by_cases hentered : entersWallRun w env = true
    · simp only [entersWallRun, Bool.and_eq_true, Bool.not_eq_true'] at hentered
      rw [hw.isActive] at hentered
      simpa using hentered.1
    · simp [wallRunView, hentered] at hview
  | tick lineTrace =>
    simp only [wallRunView] at hview
    split at hview
    · split at hview
      · obtain rfl := Option.some.inj hview
        exact hcreates.elim
      · obtain rfl := Option.some.inj hview
        exact hcreates.elim
    · exact absurd hview (by simp)
  | cancel =>
    simp only [wallRunView] at hview
    split at hview
    · obtain rfl := Option.some.inj hview
      exact hcreates.elim
    · exact absurd hview (by simp)
  | moved location forward right => exact absurd hview (by simp [wallRunView])

/-- Every event of the wall run that nothing interrupts keeps its part. -/
theorem SessionSide.wallRunStep (c : WallRunClass E) {w : GASCharacter K E C}
    (h : SessionSide s₀ (sessionOf w)) (hw : WallRunSettled w) {e : WallRunEvent K}
    (hq : QuietEvent e) : SessionSide s₀ (sessionOf (Program.wallRunStep c w e)) := by
  have hquiet : (wallRunView c w e).any interruptsStart = false := by
    rw [← interruptsActivation_eq]
    cases e with
    | activate env callbacks =>
      obtain ⟨outcome, rfl⟩ := hq
      simp [interruptsActivation, callbacksEnd_quiet]
    | tick lineTrace => rfl
    | cancel => rfl
    | moved location forward right => rfl
  rw [(follows_wallRunStep c hw e).session]
  cases hview : wallRunView c w e with
  | none => exact h
  | some d =>
    rw [hview] at hquiet
    exact h.step hquiet fun hcreates => running_eq_none_of_creates c hw hview hcreates

omit [LinearOrder K] [IsStrictOrderedRing K] [DecidableEq E] in
/-- Whoever leaves the part of the wall run alone keeps it. -/
theorem SessionSide.congr {w w' : GASCharacter K E C} (h : SessionSide s₀ (sessionOf w))
    (hpart : wallRunPart w' = wallRunPart w) : SessionSide s₀ (sessionOf w') := by
  simp only [wallRunPart, Prod.mk.injEq] at hpart
  obtain ⟨hwallRun, hcreated, hlog, hgravity, hplane⟩ := hpart
  have hrunning : (sessionOf w').running = (sessionOf w).running := running_congr hwallRun
  have hcreated' : (sessionOf w').tasksCreated = (sessionOf w).tasksCreated := hcreated
  have hlog' : (sessionOf w').taskLog = (sessionOf w).taskLog := hlog
  have hgravity' : (sessionOf w').movement.gravityScale = (sessionOf w).movement.gravityScale :=
    hgravity
  have hplane' : (sessionOf w').movement.planeConstraintEnabled =
      (sessionOf w).movement.planeConstraintEnabled := hplane
  constructor
  · rw [hcreated']
    exact h.created_le
  · rw [hrunning, hcreated']
    exact h.created_lt
  · rw [hrunning, hcreated', hgravity']
    exact h.gravityScale
  · obtain ⟨writes, hlogged, hbound, hrun, henabled⟩ := h.planeConstraint
    rw [← hlog'] at hlogged
    rw [← hcreated'] at hbound hrun
    rw [← hrunning] at hrun henabled
    rw [← hplane'] at henabled
    exact ⟨writes, hlogged, hbound, hrun, henabled⟩

end SessionSide

/-! ## Both abilities -/

section Accounted

variable [Field K]

/-- What the character shows of the two abilities is there because of an ability that is
active. -/
structure Accounted (c : TraversalClasses E C) (w₀ w : GASCharacter K E C) : Prop where
  flying : w.movement.movementMode = .flying →
    w.vault.ability.isActive = true ∨ (sessionOf w).running.isSome = true
  vault : VaultSide c.vault w₀ w
  wallRun : SessionSide (sessionOf w₀) (sessionOf w)

omit [Field K] in
/-- The mode is explained if flying means that a vault or a wall run is active. -/
theorem explained_iff {w : GASCharacter K E C} : SharedCell.Explained (modeCell w) ↔
    (w.movement.movementMode = .flying →
      w.vault.ability.isActive = true ∨ (sessionOf w).running.isSome = true) := by
  unfold SharedCell.Explained
  simp only [modeCell, EMovementMode.isFlying_iff]
  constructor
  · intro h hmode
    obtain ⟨user, huser⟩ := h hmode
    cases user with
    | vault => exact Or.inl huser
    | wallRun => exact Or.inr huser
  · intro h hmode
    rcases h hmode with hvault | hwall
    · exact ⟨.vault, hvault⟩
    · exact ⟨.wallRun, hwall⟩

omit [Field K] in
/-- A character on which neither ability is active or has left anything. -/
structure Resting (w : GASCharacter K E C) : Prop where
  avatarValid : w.avatarValid = true
  vaultInactive : w.vault.ability.activeCount = 0
  wallRunInactive : w.wallRun.ability.activeCount = 0
  noTask : w.wallRun.liveTask = none
  noMontage : w.vault.montageTask = false
  notFlying : w.movement.movementMode ≠ .flying
  noJumpTo : w.warpTargets "JumpToLocation" = none
  noJumpOver : w.warpTargets "JumpOverLocation" = none
  unconstrained : w.movement.planeConstraintEnabled = false

omit [Field K] in
/-- A resting character is settled. -/
theorem Resting.settled {w : GASCharacter K E C} (h : Resting w) : Settled w := by
  have hinactive := h.vaultInactive
  refine ⟨⟨h.avatarValid, by omega, fun hpos => by omega⟩, ?_⟩
  exact onWall_idle h.wallRunInactive h.noTask

/-- A resting character is accounted for. -/
theorem Resting.accounted (c : TraversalClasses E C) {w : GASCharacter K E C} (h : Resting w) :
    Accounted c w w := by
  have hinactive : w.vault.ability.isActive = false := by
    rw [AbilityInstance.isActive_eq_false]
    exact h.vaultInactive
  refine ⟨fun hmode => absurd hmode h.notFlying, ⟨⟨?_, ?_⟩, ?_, ?_, ?_, ?_, ?_⟩, ?_⟩
  · exact fun _ _ _ => rfl
  · exact fun _ _ => rfl
  · rw [hinactive, h.noMontage]
  · rw [hinactive, h.noJumpTo]
    rfl
  · rw [hinactive, h.noJumpOver]
    rfl
  · intro hactive
    rw [hinactive] at hactive
    exact absurd hactive (by simp)
  · exact fun _ _ _ => Or.inr rfl
  · exact SessionSide.refl (sessionOf_running_eq_none.mpr h.noTask) h.unconstrained

variable [LinearOrder K] [IsStrictOrderedRing K] [DecidableEq C] [DecidableEq E]
  (c : TraversalClasses E C)

/-- Every attempt and every other event of one ability keeps the account. -/
theorem Accounted.step {w₀ w : GASCharacter K E C} (h : Accounted c w₀ w) (hw : Settled w)
    {e : AttemptEvent K} (hq : QuietAttempt e) : Accounted c w₀ (attemptStep c w e) := by
  have hmode : SharedCell.Explained (modeCell (attemptStep c w e)) := by
    rw [modeCell_attemptStep c hw hq]
    cases modeView w e with
    | none => exact explained_iff.mpr h.flying
    | some op => exact SharedCell.explained_step (modeCell w) op
  refine ⟨explained_iff.mp hmode, ?_, ?_⟩
  · cases e with
    | vault e => exact h.vault.vaultStep hw.1 e
    | wallRun e => exact h.vault.congr (vaultPart_wallRunStep c.wallRun w e)
    | jump env => exact h.vault.congr (parts_jump c.jump env w).1
    | other => exact h.vault
  · cases e with
    | vault e => exact h.wallRun.congr (wallRunPart_vaultStep c.vault w e)
    | wallRun e => exact h.wallRun.wallRunStep c.wallRun hw.2.1 hq
    | jump env => exact h.wallRun.congr (parts_jump c.jump env w).2
    | other => exact h.wallRun

/-- **Nothing is left behind.**  For every run of jump presses over any list of abilities,
capsule hits, ticks, montage callbacks and cancels, from a resting character, in which
nothing ends an ability from inside its activation or callbacks: after every single attempt
and in every state, also with both abilities on the go, the character flies only if the vault
is active or a wall-run task is live; the gravity scale is that of the live task, without one
what the last `OnDestroy` set or, before the first task, what it was; the plane constraint is
on exactly if the live task has set it in a tick; the montage task, the two warp targets and
the ignored channels are there exactly while the vault is active; and no other target or
channel is touched.
SOURCE: AG_VaultOverAbility.cpp:154-235, AG_Task_TickWallRun.cpp:10-144,
AG_WallRunAbility.cpp:42-109, AG_CharacterMovementComponent.cpp:16-31 -/
theorem always_accounted (w : GASCharacter K E C) (hw : Resting w)
    (es : List (TraversalEvent K)) :
    Always (attemptStep c) (Accounted c w) w (attempts c w es) ∧
      Always (traversalStep c) (Accounted c w) w es := by
  have hattempts : Always (attemptStep c) (fun w' => Settled w' ∧ Accounted c w w') w
      (attempts c w es) :=
    always_of_invariant_on (fun w' => Settled w' ∧ Accounted c w w') QuietAttempt
      (fun w' e hq hw' => ⟨settled_attemptStep c hw'.1 hq, hw'.2.step c hw'.1 hq⟩)
      ⟨hw.settled, hw.accounted c⟩ (quiet_attempts c)
  have haccounted : Always (attemptStep c) (Accounted c w) w (attempts c w es) :=
    fun pre hpre => (hattempts pre hpre).2
  exact ⟨haccounted, always_of_viewRun (attemptsOf c) (traversalStep_eq_run c) haccounted⟩

end Accounted

/-- A vault, a capsule hit during it that finds no wall, and the end of the vault. -/
def hitDuringVault : List (TraversalEvent ℚ) :=
  [.jumpPress [.vault passingAttempt], .capsuleHit (hitAttempt openSpace) .added, .montageFinished]

/-- A hit during a vault is accounted for. -/
theorem always_accounted_hitDuringVault :
    Always (attemptStep traversals) (Accounted traversals walkingCharacter) walkingCharacter
        (attempts traversals walkingCharacter hitDuringVault) ∧
      Always (traversalStep traversals) (Accounted traversals walkingCharacter)
        walkingCharacter hitDuringVault :=
  always_accounted traversals walkingCharacter
    ⟨rfl, rfl, rfl, rfl, rfl, by decide, rfl, rfl, rfl⟩ hitDuringVault

end GasSamples.Analysis
