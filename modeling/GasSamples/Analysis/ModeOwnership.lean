import GasSamples.Reactive.SharedCell
import GasSamples.Program.CharacterMovement
import GasSamples.Analysis.VaultOverAbility
import GasSamples.Analysis.WallRunAbility

/-!
# Who may leave the flying mode

The vault and the wall run share the movement mode as a `SharedCell`: each puts the
character into the flying mode when it starts, and takes it out when it ends or fails,
whoever else is flying.  A jump press is a run of attempts, so the events of the
character are taken apart into attempts first.
-/

set_option autoImplicit false

namespace GasSamples.Analysis

open Reactive GasSamples.Model GasSamples.Program

/-! ## Attempts -/

/-- What happens to one ability at a time. -/
inductive AttemptEvent (K : Type)
  | vault (e : VaultEvent K)
  | wallRun (e : WallRunEvent K)
  | jump (env : JumpActivation)
  | other

section Attempts

variable {K E C : Type} [DecidableEq C] [DecidableEq E] [Field K] [LinearOrder K]
  (c : TraversalClasses E C)

/-- One event of one ability. -/
def attemptStep (w : GASCharacter K E C) : AttemptEvent K → GASCharacter K E C
  | .vault e => vaultStep c.vault w e
  | .wallRun e => wallRunStep c.wallRun w e
  | .jump env => (JumpAbility.tryActivateAbility c.jump env w).2
  | .other => w

omit [DecidableEq C] [DecidableEq E] [Field K] [LinearOrder K] in
/-- The event that an entry of the list stands for. -/
def attemptEvent : TraversalAttempt K → AttemptEvent K
  | .vault env => .vault (.activate env)
  | .wallRun env sideEffect => .wallRun (.activate env (.quiet sideEffect))
  | .jump env => .jump env
  | .other _ _ => .other

/-- The attempts that `TryTraversal` makes. -/
def attemptsMade (w : GASCharacter K E C) : List (TraversalAttempt K) → List (AttemptEvent K)
  | [] => []
  | attempt :: attempts =>
    let tried := CharacterMovement.tryActivateAbilityByClass c w attempt
    attemptEvent attempt ::
      if tried.1 && CharacterMovement.isActive tried.2 attempt then []
      else attemptsMade tried.2 attempts

/-- The events of single abilities that an event of the character stands for. -/
def attemptsOf (w : GASCharacter K E C) : TraversalEvent K → List (AttemptEvent K)
  | .jumpPress attempts => attemptsMade c w attempts
  | .capsuleHit env sideEffect => [.wallRun (.activate env (.quiet sideEffect))]
  | .tick lineTrace => [.wallRun (.tick lineTrace)]
  | .montageFinished => [.vault .montageFinished]
  | .cancelVault => [.vault .cancel]
  | .cancelWallRun => [.wallRun .cancel]
  | .moved location forward right => [.wallRun (.moved location forward right)]

/-- All attempts of a run. -/
def attempts (w : GASCharacter K E C) (es : List (TraversalEvent K)) : List (AttemptEvent K) :=
  viewRun (traversalStep c) (attemptsOf c) w es

/-- An attempt by class is one step of the attempts. -/
theorem tryActivateAbilityByClass_snd (w : GASCharacter K E C) (attempt : TraversalAttempt K) :
    (CharacterMovement.tryActivateAbilityByClass c w attempt).2 =
      attemptStep c w (attemptEvent attempt) := by
  cases attempt <;> rfl

/-- `TryTraversal` is the run of the attempts it makes. -/
theorem tryTraversal_snd (w : GASCharacter K E C) (as : List (TraversalAttempt K)) :
    (CharacterMovement.tryTraversal c w as).2 = run (attemptStep c) w (attemptsMade c w as) := by
  induction as generalizing w with
  | nil => rfl
  | cons attempt as ih =>
    simp only [CharacterMovement.tryTraversal, attemptsMade, run_cons]
    rw [← tryActivateAbilityByClass_snd]
    split
    · rfl
    · exact ih _

/-- An event of the system is a run of the attempts it makes. -/
theorem traversalStep_eq_run (w : GASCharacter K E C) (e : TraversalEvent K) :
    traversalStep c w e = run (attemptStep c) w (attemptsOf c w e) := by
  cases e with
  | jumpPress as => exact tryTraversal_snd c w as
  | capsuleHit env sideEffect => rfl
  | tick lineTrace => rfl
  | montageFinished => rfl
  | cancelVault => rfl
  | cancelWallRun => rfl
  | moved location forward right => rfl

omit [DecidableEq C] [DecidableEq E] [Field K] [LinearOrder K] in
/-- Nothing ends the wall run from inside a call out of its task. -/
def QuietAttempt : AttemptEvent K → Prop
  | .vault _ => True
  | .wallRun e => QuietEvent e
  | .jump _ => True
  | .other => True

/-- The attempts of a jump press end nothing from inside. -/
theorem quiet_attemptsMade {w : GASCharacter K E C} {as : List (TraversalAttempt K)}
    {e : AttemptEvent K} (he : e ∈ attemptsMade c w as) : QuietAttempt e := by
  induction as generalizing w with
  | nil => exact absurd he List.not_mem_nil
  | cons attempt as ih =>
    simp only [attemptsMade, List.mem_cons] at he
    rcases he with rfl | he
    · cases attempt with
      | vault env => trivial
      | wallRun env sideEffect => exact ⟨sideEffect, rfl⟩
      | jump env => trivial
      | other activated active => trivial
    · split at he
      · exact absurd he List.not_mem_nil
      · exact ih he

/-- The attempts of a run end nothing from inside. -/
theorem quiet_attempts {w : GASCharacter K E C} {es : List (TraversalEvent K)} :
    ∀ e ∈ attempts c w es, QuietAttempt e := by
  induction es generalizing w with
  | nil => exact fun e he => absurd he List.not_mem_nil
  | cons event es ih =>
    intro e he
    rcases List.mem_append.mp he with he | he
    · cases event with
      | jumpPress as => exact quiet_attemptsMade c he
      | capsuleHit env sideEffect =>
        rw [List.mem_singleton.mp he]
        exact ⟨sideEffect, rfl⟩
      | tick lineTrace =>
        rw [List.mem_singleton.mp he]
        trivial
      | montageFinished =>
        rw [List.mem_singleton.mp he]
        trivial
      | cancelVault =>
        rw [List.mem_singleton.mp he]
        trivial
      | cancelWallRun =>
        rw [List.mem_singleton.mp he]
        trivial
      | moved location forward right =>
        rw [List.mem_singleton.mp he]
        trivial
    · exact ih e he

end Attempts

/-! ## The movement mode as a shared cell -/

/-- The two abilities that share the movement mode. -/
inductive Traversal
  | vault
  | wallRun
deriving DecidableEq

section Mode

variable {K E C : Type}

/-- The ability relies on the flying mode. -/
def flies (w : GASCharacter K E C) : Traversal → Bool
  | .vault => w.vault.ability.isActive
  | .wallRun => (sessionOf w).running.isSome

/-- The movement mode, as the two abilities share it. -/
def modeCell (w : GASCharacter K E C) : SharedCell Traversal :=
  ⟨flies w, w.movement.movementMode.isFlying⟩

/-- A committed vault that is active finds the character flying, and so does a live
wall-run task that has found a wall. -/
def ModeOwned (w : GASCharacter K E C) : Prop :=
  (w.vault.ability.isActive = true → w.vault.passedCommit = true →
      w.movement.movementMode = .flying) ∧
    ∀ r, (sessionOf w).running = some r → r.side.isSome = true →
      w.movement.movementMode = .flying

/-- Both abilities are between their events. -/
def Settled (w : GASCharacter K E C) : Prop := VaultSettled w ∧ OnWall w

/-- The mode is owned exactly if the shared cell is held. -/
theorem modeOwned_iff_held {w : GASCharacter K E C} (hw : Settled w) :
    ModeOwned w ↔ SharedCell.Held (modeCell w) := by
  obtain ⟨⟨-, -, hpassed⟩, -, hside⟩ := hw
  constructor
  · rintro ⟨hvault, hwall⟩ user huser
    simp only [modeCell, EMovementMode.isFlying_iff]
    cases user with
    | vault => exact hvault huser (hpassed (by simpa [modeCell, flies] using huser))
    | wallRun =>
      obtain ⟨r, hr⟩ := Option.isSome_iff_exists.mp huser
      exact hwall r hr (hside r hr)
  · intro h
    constructor
    · intro hactive _
      simpa [modeCell] using h .vault hactive
    · intro r hr _
      have huser : (modeCell w).users .wallRun = true := by
        simp [modeCell, flies, hr]
      simpa [modeCell] using h .wallRun huser

variable [Field K] [LinearOrder K]

/-- What an event of one ability does to the shared mode. -/
def modeView (w : GASCharacter K E C) : AttemptEvent K → Option (SharedCell.Op Traversal)
  | .vault e =>
    if startsVault w e then some (.acquire .vault)
    else if endsVault w e then some (.release .vault) else none
  | .wallRun e =>
    if startsWallRun w e then some (.acquire .wallRun)
    else if destroysTask w e then some (.release .wallRun) else none
  | .jump _ => none
  | .other => none

/-- No event ends one of the two abilities, or is a failed attempt of it, while the other
one is active. -/
def Undisturbed (w : GASCharacter K E C) : AttemptEvent K → Prop
  | .vault e => endsVault w e = true → (sessionOf w).running = none
  | .wallRun e => destroysTask w e = true → w.vault.ability.activeCount = 0
  | .jump _ => True
  | .other => True

/-- An event that starts a wall run destroys no task. -/
theorem destroysTask_eq_false_of_starts {w : GASCharacter K E C} {e : WallRunEvent K}
    (h : startsWallRun w e = true) : destroysTask w e = false := by
  cases e with
  | activate env callbacks =>
    simp only [startsWallRun, Bool.and_eq_true] at h
    cases hfound : TickWallRun.findRunnableWall env.lineTrace w with
    | none => simp [hfound] at h
    | some found => simp [destroysTask, attemptFails, hfound]
  | tick lineTrace => exact absurd h (by simp [startsWallRun])
  | cancel => exact absurd h (by simp [startsWallRun])
  | moved location forward right => exact absurd h (by simp [startsWallRun])

/-- The condition on an event is the one on the shared cell. -/
theorem undisturbed_iff_exclusive (w : GASCharacter K E C) (e : AttemptEvent K) :
    Undisturbed w e ↔ ∀ op ∈ modeView w e, SharedCell.Exclusive (modeCell w) op := by
  cases e with
  | vault e =>
    cases he : endsVault w e with
    | false =>
      cases hs : startsVault w e <;>
        simp [Undisturbed, modeView, he, hs, SharedCell.Exclusive]
    | true =>
      -- the other user of the mode is a live wall run
      have hs := startsVault_eq_false_of_ends he
      have hother : (∀ j, (modeCell w).users j = true → j = Traversal.vault) ↔
          (sessionOf w).running = none := by
        constructor
        · intro h
          cases hr : (sessionOf w).running with
          | none => rfl
          | some r => exact absurd (h .wallRun (by simp [modeCell, flies, hr])) (by simp)
        · intro h j hj
          cases j with
          | vault => rfl
          | wallRun => exact absurd hj (by simp [modeCell, flies, h])
      simp [Undisturbed, modeView, he, hs, SharedCell.Exclusive, hother]
  | wallRun e =>
    cases hs : startsWallRun w e with
    | true =>
      simp [Undisturbed, modeView, hs, destroysTask_eq_false_of_starts hs, SharedCell.Exclusive]
    | false =>
      -- the other user of the mode is an active vault
      have hother : (∀ j, (modeCell w).users j = true → j = Traversal.wallRun) ↔
          w.vault.ability.activeCount = 0 := by
        constructor
        · intro h
          by_contra hne
          have huser : (modeCell w).users .vault = true := by
            simp only [modeCell, flies, AbilityInstance.isActive_eq_true]
            omega
          exact absurd (h .vault huser) (by simp)
        · intro h j hj
          cases j with
          | vault => exact absurd hj (by simp [modeCell, flies, AbilityInstance.isActive, h])
          | wallRun => rfl
      cases he : destroysTask w e <;>
        simp [Undisturbed, modeView, he, hs, SharedCell.Exclusive, hother]
  | jump env => simp [Undisturbed, modeView]
  | other => simp [Undisturbed, modeView]

omit [Field K] [LinearOrder K] in
/-- The session that runs is a matter of the wall run alone. -/
theorem running_congr {w w' : GASCharacter K E C} (h : w'.wallRun = w.wallRun) :
    (sessionOf w').running = (sessionOf w).running := by
  simp only [sessionOf, h]

omit [Field K] [LinearOrder K] in
/-- Being on a wall is a matter of the wall run alone. -/
theorem OnWall.congr {w w' : GASCharacter K E C} (hw : OnWall w) (h : w'.wallRun = w.wallRun) :
    OnWall w' := by
  unfold OnWall WallRunSettled
  rw [running_congr h, h]
  exact hw

omit [Field K] [LinearOrder K] in
/-- Whether the vault is settled is a matter of the vault alone. -/
theorem VaultSettled.congr {w w' : GASCharacter K E C} (hw : VaultSettled w)
    (h : SameVault w w') : VaultSettled w' := by
  unfold VaultSettled
  rw [h.1, h.2]
  exact hw

omit [Field K] [LinearOrder K] in
/-- The shared mode, user by user. -/
theorem modeCell_eq {w : GASCharacter K E C} {cell : SharedCell Traversal}
    (hvault : w.vault.ability.isActive = cell.users .vault)
    (hwall : (sessionOf w).running.isSome = cell.users .wallRun)
    (hmode : w.movement.movementMode.isFlying = cell.held) : modeCell w = cell := by
  refine SharedCell.ext ?_ hmode
  funext user
  cases user with
  | vault => exact hvault
  | wallRun => exact hwall

omit [Field K] [LinearOrder K] in
/-- An attempt to jump touches neither the other abilities nor the movement mode. -/
theorem jump_keeps (c : JumpClass E) (env : JumpActivation) (w : GASCharacter K E C) :
    SameVault w (JumpAbility.tryActivateAbility c env w).2 ∧
      (JumpAbility.tryActivateAbility c env w).2.wallRun = w.wallRun ∧
      (JumpAbility.tryActivateAbility c env w).2.movement = w.movement := by
  unfold JumpAbility.tryActivateAbility
  split
  · unfold JumpAbility.activateAbility
    split
    · simp only [JumpAbility.setBaseState]
      split <;> exact ⟨⟨rfl, rfl⟩, rfl, rfl⟩
    · exact ⟨⟨rfl, rfl⟩, rfl, rfl⟩
  · exact ⟨⟨rfl, rfl⟩, rfl, rfl⟩

variable [DecidableEq C] [DecidableEq E] {w : GASCharacter K E C}

/-! ## The simulation -/

omit [Field K] [LinearOrder K] [DecidableEq E] in
/-- A vault event sets or resets the mode, and leaves the wall run alone. -/
theorem modeCell_vaultStep (c : VaultOverClass E C) (hw : VaultSettled w) (e : VaultEvent K) :
    modeCell (vaultStep c w e) = run SharedCell.step (modeCell w)
      (if startsVault w e then some (SharedCell.Op.acquire Traversal.vault)
        else if endsVault w e then some (.release .vault) else none).toList := by
  cases hs : startsVault w e with
  | true =>
    have h := vaultStep_starts c hw.1 hs
    apply modeCell_eq
    · simp [AbilityInstance.isActive, h.activeCount, SharedCell.step]
    · simp [running_congr h.wallRun, SharedCell.step, modeCell, flies]
    · simp [EMovementMode.isFlying, h.movementMode, SharedCell.step]
  | false =>
    cases he : endsVault w e with
    | true =>
      have h := vaultStep_ends c hw.1 hw.2.1 he
      apply modeCell_eq
      · simp [AbilityInstance.isActive, h.activeCount, SharedCell.step]
      · simp [running_congr h.wallRun, SharedCell.step, modeCell, flies]
      · simp [EMovementMode.isFlying, h.movementMode, SharedCell.step]
    | false =>
      rw [vaultStep_idle c hs he]
      rfl

variable [IsStrictOrderedRing K]

omit [DecidableEq C] in
/-- A wall-run event sets or resets the mode, and leaves the vault alone. -/
theorem modeCell_wallRunStep (c : WallRunClass E) (hw : WallRunSettled w) {e : WallRunEvent K}
    (hq : QuietEvent e) :
    modeCell (wallRunStep c w e) = run SharedCell.step (modeCell w)
      (if startsWallRun w e then some (SharedCell.Op.acquire Traversal.wallRun)
        else if destroysTask w e then some (.release .wallRun) else none).toList := by
  have hvault : (wallRunStep c w e).vault = w.vault := (follows_wallRunStep c hw e).sameVault.1
  cases hs : startsWallRun w e with
  | true =>
    -- the task is attached, which sets the mode
    obtain ⟨side, hrun, hmovement⟩ := session_starts c hw hq hs
    have hmode : (wallRunStep c w e).movement.movementMode = .flying :=
      congrArg CharacterMovement.movementMode hmovement
    apply modeCell_eq
    · simp [hvault, SharedCell.step, modeCell, flies]
    · simp [hrun, SharedCell.step]
    · simp [EMovementMode.isFlying, hmode, SharedCell.step]
  | false =>
    cases hd : destroysTask w e with
    | true =>
      -- the task is destroyed, which resets it
      obtain ⟨s, hrun, -, hsession⟩ := session_destroys c hw hd
      have hmode : (wallRunStep c w e).movement.movementMode = .falling := by
        have h := congrArg (fun s => s.movement.movementMode) hsession
        simp only [Session.ended_movement hrun] at h
        exact h
      apply modeCell_eq
      · simp [hvault, SharedCell.step, modeCell, flies]
      · simp [hsession, SharedCell.step]
      · simp [EMovementMode.isFlying, hmode, SharedCell.step]
    | false =>
      -- a session that goes on is steered at most
      simp only [Bool.false_eq_true, if_false, Option.toList_none, run_nil]
      rcases session_continues c hw hd hs with hsame | ⟨side, v, o, n, -, hsteered⟩
      · have hmovement : (wallRunStep c w e).movement = w.movement :=
          congrArg Session.movement hsame
        apply modeCell_eq
        · rw [hvault]
          rfl
        · rw [hsame]
          rfl
        · rw [hmovement]
          rfl
      · have hmode : (wallRunStep c w e).movement.movementMode = w.movement.movementMode := by
          have h := congrArg (fun s => s.movement.movementMode) hsteered
          simp only [(Session.steered_movement v o n _).1] at h
          exact h
        apply modeCell_eq
        · rw [hvault]
          rfl
        · rw [hsteered, Session.steered_running, Session.accepted_running, Option.isSome_map]
          rfl
        · rw [hmode]
          rfl

variable (c : TraversalClasses E C)

/-- Each event of one ability does to the movement mode what `modeView` says. -/
theorem modeCell_attemptStep (hw : Settled w) {e : AttemptEvent K} (hq : QuietAttempt e) :
    modeCell (attemptStep c w e) =
      run SharedCell.step (modeCell w) (modeView w e).toList := by
  cases e with
  | vault e => exact modeCell_vaultStep c.vault hw.1 e
  | wallRun e => exact modeCell_wallRunStep c.wallRun hw.2.1 hq
  | jump env =>
    obtain ⟨hvault, hwall, hmovement⟩ := jump_keeps c.jump env w
    apply modeCell_eq
    · simp only [attemptStep, hvault.1]
      rfl
    · simp only [attemptStep, running_congr hwall]
      rfl
    · simp only [attemptStep, hmovement]
      rfl
  | other => rfl

/-- Every quiet attempt leaves a settled character settled. -/
theorem settled_attemptStep (hw : Settled w) {e : AttemptEvent K} (hq : QuietAttempt e) :
    Settled (attemptStep c w e) := by
  cases e with
  | vault e =>
    refine ⟨vaultSettled_step c.vault hw.1 e, hw.2.congr ?_⟩
    by_cases hs : startsVault w e = true
    · exact (vaultStep_starts c.vault hw.1.1 hs).wallRun
    · by_cases he : endsVault w e = true
      · exact (vaultStep_ends c.vault hw.1.1 hw.1.2.1 he).wallRun
      · simp only [attemptStep]
        rw [vaultStep_idle c.vault (by simpa using hs) (by simpa using he)]
  | wallRun e =>
    exact ⟨hw.1.congr (follows_wallRunStep c.wallRun hw.2.1 e).sameVault,
      onWall_step c.wallRun hw.2 hq⟩
  | jump env =>
    obtain ⟨hvault, hwall, -⟩ := jump_keeps c.jump env w
    exact ⟨hw.1.congr hvault, hw.2.congr hwall⟩
  | other => exact hw

/-- **Each ability keeps the other one flying exactly if none ends or fails during the
other.**  For every run of jump presses over any list of abilities, capsule hits, ticks,
montage callbacks and cancels, from a valid character with both abilities inactive: after
every attempt and every other event a committed vault that is active and a live wall-run
task that found a wall have the character in the flying mode, if and only if no end and no
failed attempt of the one ability takes place while the other one is active; and then
the same holds in every state between events.
SOURCE: AG_VaultOverAbility.cpp:154-235, AG_Task_TickWallRun.cpp:10-144,
AG_WallRunAbility.cpp:42-109, AG_CharacterMovementComponent.cpp:16-31 -/
theorem modeOwned_iff (w : GASCharacter K E C) (hv : w.avatarValid = true)
    (hvault : w.vault.ability.activeCount = 0) (hwall : w.wallRun.ability.activeCount = 0)
    (hidle : w.wallRun.liveTask = none) (es : List (TraversalEvent K)) :
    (Always (attemptStep c) ModeOwned w (attempts c w es) ↔
        EveryStep (attemptStep c) Undisturbed w (attempts c w es)) ∧
      (EveryStep (attemptStep c) Undisturbed w (attempts c w es) →
        Always (traversalStep c) ModeOwned w es) := by
  have hrun : (sessionOf w).running = none := sessionOf_running_eq_none.mpr hidle
  have hsettled : Settled w := by
    have hsettledVault : VaultSettled w := ⟨hv, by omega, fun hpos => by omega⟩
    exact ⟨hsettledVault, onWall_idle hwall hidle⟩
  have howned : ModeOwned w := by
    refine ⟨fun hactive => ?_, fun r hr => absurd (hrun.symm.trans hr) (by simp)⟩
    rw [AbilityInstance.isActive_eq_true] at hactive
    omega
  have hiff : Always (attemptStep c) ModeOwned w (attempts c w es) ↔
      EveryStep (attemptStep c) Undisturbed w (attempts c w es) :=
    always_iff_everyStep_through Settled QuietAttempt modeCell modeView
      (fun w e hq hw => modeCell_attemptStep c hw hq)
      (fun cell op _ => SharedCell.held_step_iff cell op)
      (fun w e hq hw => settled_attemptStep c hw hq)
      (fun w hw => modeOwned_iff_held hw)
      (fun w e _ _ => undisturbed_iff_exclusive w e) hsettled howned (quiet_attempts c)
  exact ⟨hiff, fun h => always_of_viewRun (attemptsOf c) (traversalStep_eq_run c) (hiff.mpr h)⟩

end Mode

/-! ## Two runs -/

/-- A vault, a wall run with side effects 1 and 2, and a jump. -/
def traversals : TraversalClasses ℕ ℕ := ⟨⟨[], [], [0]⟩, wallRunWithSides, ⟨[], [], fun _ => false⟩⟩

/-- An attempt to run along what the traces find. -/
def hitAttempt (lineTrace : LineTrace ℚ) : WallRunActivation ℚ :=
  ⟨true, fun _ => .added, fun _ => .added, lineTrace⟩

/-- A vault and a wall run one after the other. -/
theorem modeOwned_oneAfterTheOther :
    Always (traversalStep traversals) ModeOwned walkingCharacter
      [.jumpPress [.vault passingAttempt, .other true true], .montageFinished,
        .capsuleHit (hitAttempt wallOnTheLeft) .added, .cancelWallRun] := by
  refine (modeOwned_iff traversals walkingCharacter rfl rfl rfl rfl _).2 ?_
  refine ⟨fun _ => rfl, fun _ => rfl, fun _ => rfl, fun _ => ?_, trivial⟩
  decide +kernel

/-- A capsule hit in open space during a vault takes the vault out of the flying mode. -/
theorem not_modeOwned_capsuleHit :
    ¬ Always (traversalStep traversals) ModeOwned walkingCharacter
      [.jumpPress [.vault passingAttempt], .capsuleHit (hitAttempt openSpace) .added] := by
  intro h
  exact absurd (h.last.1 (by decide +kernel) (by decide +kernel)) (by decide +kernel)

end GasSamples.Analysis
