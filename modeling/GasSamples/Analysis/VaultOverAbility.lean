import GasSamples.Program.VaultOverAbility
import GasSamples.Analysis.BaseGameplayAbility

/-!
# What one event does to the vault

Every event either starts a vault (`startsVault`), ends one (`endsVault`, the failed
commit included) or changes nothing.  The three lemmas `vaultStep_starts`,
`vaultStep_ends` and `vaultStep_idle` say all that the later files use about the step;
they are assembled from one lemma per function and field.
-/

set_option autoImplicit false

namespace GasSamples.Analysis

open Reactive GasSamples.Model GasSamples.Program GasSamples.Program.VaultOverAbility

variable {K E C : Type}

/-! ## The functions, field by field -/

section Fields

variable [DecidableEq C] (c : VaultOverClass E C) (w : GASCharacter K E C)

/-- The end of a vault leaves the avatar as it is. -/
@[simp] theorem vaultEnd_avatarValid : (endAbility c w).avatarValid = w.avatarValid := by
  simp only [endAbility]
  split
  · rfl
  · split <;> rfl

/-- The end of a vault leaves the wall run as it is. -/
@[simp] theorem vaultEnd_wallRun : (endAbility c w).wallRun = w.wallRun := by
  simp only [endAbility]
  split
  · rfl
  · split <;> rfl

/-- The end of a vault leaves the jump as it is. -/
@[simp] theorem vaultEnd_jump : (endAbility c w).jump = w.jump := by
  simp only [endAbility]
  split
  · rfl
  · split <;> rfl

variable {w} (hv : w.avatarValid = true)
include hv

/-- The end of a vault turns flying into falling. -/
theorem vaultEnd_movementMode : (endAbility c w).movement.movementMode =
    if w.movement.movementMode = .flying then .falling else w.movement.movementMode := by
  simp only [endAbility, hv, Bool.not_true, Bool.false_eq_true, if_false,
    EMovementMode.isFlying_iff]
  by_cases hm : w.movement.movementMode = .flying <;>
    simp [hm, setBaseState, GASCharacter.setMovementMode, GASCharacter.removeWarpTarget]

/-- The end of a vault makes the listed channels block. -/
theorem vaultEnd_collisionResponse : (endAbility c w).collisionResponse =
    overwrite c.collisionChannelsToIgnore .block w.collisionResponse := by
  simp only [endAbility, hv, Bool.not_true, Bool.false_eq_true, if_false]
  split <;> rfl

/-- The end of a vault removes its two warp targets. -/
theorem vaultEnd_warpTargets : (endAbility c w).warpTargets =
    Function.update (Function.update w.warpTargets "JumpToLocation" none)
      "JumpOverLocation" none := by
  simp only [endAbility, hv, Bool.not_true, Bool.false_eq_true, if_false]
  split <;> rfl

/-- The end of a vault ends its super class. -/
theorem vaultEnd_baseState : baseState (endAbility c w) =
    BaseGameplayAbility.endAbility c.base (baseState w) := by
  simp only [endAbility, hv, Bool.not_true, Bool.false_eq_true, if_false]
  split <;> rfl

/-- The end of a vault ends one activation. -/
theorem vaultEnd_activeCount : (endAbility c w).vault.ability.activeCount =
    w.vault.ability.activeCount - 1 := by
  have h := congrArg (fun b => b.ability.activeCount) (vaultEnd_baseState c hv)
  simpa [baseState] using h

end Fields

section Begin

variable [DecidableEq C] (c : VaultOverClass E C) {w : GASCharacter K E C}
  (hv : w.avatarValid = true)
include hv

/-- The start of a vault makes the character fly. -/
theorem beginVault_movementMode : (beginVault c w).movement.movementMode = .flying := by
  simp only [beginVault, hv, Bool.not_true, Bool.false_eq_true, if_false]
  rfl

/-- The start of a vault makes the listed channels ignore. -/
theorem beginVault_collisionResponse : (beginVault c w).collisionResponse =
    overwrite c.collisionChannelsToIgnore .ignore w.collisionResponse := by
  simp only [beginVault, hv, Bool.not_true, Bool.false_eq_true, if_false]
  rfl

end Begin

section Begin

variable [DecidableEq C] (c : VaultOverClass E C) (w : GASCharacter K E C)

/-- The start of a vault leaves the avatar as it is. -/
@[simp] theorem beginVault_avatarValid : (beginVault c w).avatarValid = w.avatarValid := by
  unfold beginVault
  split <;> rfl

/-- The start of a vault leaves the ability's own state as it is. -/
@[simp] theorem beginVault_vault : (beginVault c w).vault = w.vault := by
  unfold beginVault
  split <;> rfl

/-- The start of a vault leaves the wall run as it is. -/
@[simp] theorem beginVault_wallRun : (beginVault c w).wallRun = w.wallRun := by
  unfold beginVault
  split <;> rfl

/-- The start of a vault leaves the jump as it is. -/
@[simp] theorem beginVault_jump : (beginVault c w).jump = w.jump := by
  unfold beginVault
  split <;> rfl

end Begin

/-- The character as `ActivateAbility` finds it when it looks at the commit: the base
class has applied its effects, and the search has left its locations. -/
def committing (c : VaultOverClass E C) (env : VaultActivation K) (w : GASCharacter K E C) :
    GASCharacter K E C :=
  commitAbility env.commit (setBaseState (preActivate w)
    (BaseGameplayAbility.activateAbility c.base (.quiet env.start env.remove)
      (baseState (preActivate w))))

section Committing

variable (c : VaultOverClass E C) (env : VaultActivation K) (w : GASCharacter K E C)

/-- The commit leaves the avatar as it is. -/
@[simp] theorem committing_avatarValid :
    (committing c env w).avatarValid = w.avatarValid := rfl

/-- The commit leaves the movement as it is. -/
@[simp] theorem committing_movement : (committing c env w).movement = w.movement := rfl

/-- The commit leaves the collision responses as they are. -/
@[simp] theorem committing_collisionResponse :
    (committing c env w).collisionResponse = w.collisionResponse := rfl

/-- The commit leaves the warp targets as they are. -/
@[simp] theorem committing_warpTargets :
    (committing c env w).warpTargets = w.warpTargets := rfl

/-- The commit leaves the wall run as it is. -/
@[simp] theorem committing_wallRun : (committing c env w).wallRun = w.wallRun := rfl

/-- The commit leaves the jump as it is. -/
@[simp] theorem committing_jump : (committing c env w).jump = w.jump := rfl

/-- The ability remembers whether the commit has passed. -/
@[simp] theorem committing_passedCommit :
    (committing c env w).vault.passedCommit = env.commit.passed := rfl

/-- Before the commit the super class is activated. -/
theorem committing_baseState : baseState (committing c env w) =
    BaseGameplayAbility.activateAbility c.base (.quiet env.start env.remove)
      (BaseGameplayAbility.preActivate (baseState w)) := rfl

/-- Up to the commit one activation is added. -/
@[simp] theorem committing_activeCount :
    (committing c env w).vault.ability.activeCount = w.vault.ability.activeCount + 1 := by
  have h := congrArg (fun b => b.ability.activeCount) (committing_baseState c env w)
  simpa [baseState, BaseGameplayAbility.preActivate, AbilityInstance.preActivate] using h

variable [DecidableEq C]

/-- A commit that fails: the undoing steps run at once. -/
theorem activateAbility_of_failed (h : env.commit.passed = false) :
    activateAbility c env (preActivate w) = endAbility c (committing c env w) := by
  simp only [activateAbility, h, Bool.not_false, if_true]
  rfl

/-- After a commit that passes, the vault begins and ends at once if no montage plays. -/
theorem activateAbility_of_passed (h : env.commit.passed = true) :
    activateAbility c env (preActivate w) =
      let running := beginVault c (committing c env w)
      let running := { running with vault := { running.vault with montageTask := true } }
      if env.montagePlays then running else endAbility c running := by
  simp only [activateAbility, h, Bool.not_true, Bool.false_eq_true, if_false]
  rfl

end Committing

/-! ## The step -/

/-- An attempt is entered: `TryActivateAbility` gets as far as `ActivateAbility`. -/
def entersVault (w : GASCharacter K E C) (env : VaultActivation K) : Bool :=
  !w.vault.ability.isActive && env.canActivate

/-- The event starts a vault that goes on after the event. -/
def startsVault (w : GASCharacter K E C) : VaultEvent K → Bool
  | .activate env => entersVault w env && (env.commit.passed && env.montagePlays)
  | .montageFinished => false
  | .cancel => false

/-- The event runs `EndAbility`: at the end of a vault, or in an attempt that fails. -/
def endsVault (w : GASCharacter K E C) : VaultEvent K → Bool
  | .activate env => entersVault w env && !(env.commit.passed && env.montagePlays)
  | .montageFinished => w.vault.ability.isActive
  | .cancel => w.vault.ability.isActive

section Step

/-- What a start does: the vault is active and committed, the character flies, and the
listed channels are ignored. -/
structure VaultStarted [DecidableEq C] (c : VaultOverClass E C) (w w' : GASCharacter K E C) :
    Prop where
  activeCount : w'.vault.ability.activeCount = 1
  passedCommit : w'.vault.passedCommit = true
  movementMode : w'.movement.movementMode = .flying
  collisionResponse : w'.collisionResponse =
    overwrite c.collisionChannelsToIgnore .ignore w.collisionResponse
  wallRun : w'.wallRun = w.wallRun
  avatarValid : w'.avatarValid = w.avatarValid

/-- What an end does: the vault is inactive, the character does not fly, and the listed
channels block. -/
structure VaultEnded [DecidableEq C] (c : VaultOverClass E C) (w w' : GASCharacter K E C) :
    Prop where
  activeCount : w'.vault.ability.activeCount = 0
  movementMode : w'.movement.movementMode ≠ .flying
  collisionResponse : w'.collisionResponse =
    overwrite c.collisionChannelsToIgnore .block w.collisionResponse
  wallRun : w'.wallRun = w.wallRun
  avatarValid : w'.avatarValid = w.avatarValid

/-- No event both starts and ends a vault. -/
theorem startsVault_eq_false_of_ends {w : GASCharacter K E C} {e : VaultEvent K}
    (he : endsVault w e = true) : startsVault w e = false := by
  cases e with
  | activate env =>
    simp only [endsVault, Bool.and_eq_true, Bool.not_eq_true'] at he
    simp [startsVault, he.2]
  | montageFinished => rfl
  | cancel => rfl

variable [DecidableEq C] (c : VaultOverClass E C) {w : GASCharacter K E C}

/-- An attempt activates the ability if it gets to it. -/
theorem vaultStep_activate (w : GASCharacter K E C) (env : VaultActivation K) :
    vaultStep c w (.activate env) =
      if entersVault w env then activateAbility c env (preActivate w) else w := by
  cases ha : w.vault.ability.isActive <;> cases hcan : env.canActivate <;>
    simp [vaultStep, tryActivateAbility, entersVault, ha, hcan]

/-- An attempt to vault leaves the jump alone. -/
theorem vaultStep_activate_jump (w : GASCharacter K E C) (env : VaultActivation K) :
    (vaultStep c w (.activate env)).jump = w.jump := by
  rw [vaultStep_activate]
  split
  · cases hpassed : env.commit.passed with
    | false => rw [activateAbility_of_failed c env w hpassed, vaultEnd_jump, committing_jump]
    | true =>
      rw [activateAbility_of_passed c env w hpassed]
      cases env.montagePlays <;> simp
  · rfl

/-- An event that neither starts nor ends a vault changes nothing. -/
theorem vaultStep_idle {e : VaultEvent K} (hs : startsVault w e = false)
    (he : endsVault w e = false) : vaultStep c w e = w := by
  cases e with
  | activate env =>
    rw [vaultStep_activate, if_neg]
    intro hentered
    simp only [startsVault, endsVault, hentered, Bool.true_and, Bool.not_eq_false'] at hs he
    simp [hs] at he
  | montageFinished =>
    simp only [endsVault] at he
    simp [vaultStep, onMontageFinished, he]
  | cancel =>
    simp only [endsVault] at he
    simp [vaultStep, cancelAbility, he]

/-- `EndAbility` of an active vault ends it. -/
theorem vaultEnded_endAbility (hv : w.avatarValid = true)
    (hcount : w.vault.ability.activeCount ≤ 1) : VaultEnded c w (endAbility c w) where
  activeCount := by
    rw [vaultEnd_activeCount c hv]
    omega
  movementMode := by
    rw [vaultEnd_movementMode c hv]
    split
    · decide
    · assumption
  collisionResponse := vaultEnd_collisionResponse c hv
  wallRun := vaultEnd_wallRun c w
  avatarValid := vaultEnd_avatarValid c w

/-- An event that starts a vault puts the character into it. -/
theorem vaultStep_starts (hv : w.avatarValid = true) {e : VaultEvent K}
    (hs : startsVault w e = true) : VaultStarted c w (vaultStep c w e) := by
  cases e with
  | activate env =>
    simp only [startsVault, Bool.and_eq_true] at hs
    obtain ⟨hentered, hpassed, hplays⟩ := hs
    have hzero : w.vault.ability.activeCount = 0 := by
      simp only [entersVault, Bool.and_eq_true, Bool.not_eq_true'] at hentered
      simpa using hentered.1
    have hv' : (committing c env w).avatarValid = true := hv
    rw [vaultStep_activate, if_pos hentered, activateAbility_of_passed c env w hpassed]
    simp only [hplays, if_true]
    constructor
    · simp [hzero]
    · simpa using hpassed
    · exact beginVault_movementMode c hv'
    · exact beginVault_collisionResponse c hv'
    · simp
    · simp
  | montageFinished => exact absurd hs (by simp [startsVault])
  | cancel => exact absurd hs (by simp [startsVault])

/-- An event that ends a vault takes the character out of it. -/
theorem vaultStep_ends (hv : w.avatarValid = true) (hcount : w.vault.ability.activeCount ≤ 1)
    {e : VaultEvent K} (he : endsVault w e = true) : VaultEnded c w (vaultStep c w e) := by
  cases e with
  | activate env =>
    simp only [endsVault, Bool.and_eq_true] at he
    obtain ⟨hentered, hfails⟩ := he
    have hzero : w.vault.ability.activeCount = 0 := by
      simp only [entersVault, Bool.and_eq_true, Bool.not_eq_true'] at hentered
      simpa using hentered.1
    have hv' : (committing c env w).avatarValid = true := hv
    rw [vaultStep_activate, if_pos hentered]
    cases hpassed : env.commit.passed with
    | false =>
      rw [activateAbility_of_failed c env w hpassed]
      have hended := vaultEnded_endAbility c hv' (by simp [hzero])
      exact ⟨hended.activeCount, hended.movementMode, hended.collisionResponse, hended.wallRun,
        hended.avatarValid⟩
    | true =>
      -- the montage does not play: the vault has begun, and ends what it began
      have hplays : env.montagePlays = false := by
        simpa [hpassed] using hfails
      rw [activateAbility_of_passed c env w hpassed]
      simp only [hplays, Bool.false_eq_true, if_false]
      have hended := @vaultEnded_endAbility K E C _ c
        { beginVault c (committing c env w) with
          vault := { (beginVault c (committing c env w)).vault with montageTask := true } }
        (by simpa using hv) (by simp [hzero])
      refine ⟨hended.activeCount, hended.movementMode, ?_, ?_, ?_⟩
      · rw [hended.collisionResponse]
        simp only [beginVault_collisionResponse c hv', overwrite_overwrite,
          committing_collisionResponse]
      · rw [hended.wallRun]
        simp
      · rw [hended.avatarValid]
        simp
  | montageFinished =>
    simp only [endsVault] at he
    simp only [vaultStep, onMontageFinished, he, if_true]
    exact vaultEnded_endAbility c hv hcount
  | cancel =>
    simp only [endsVault] at he
    simp only [vaultStep, cancelAbility, he, if_true]
    exact vaultEnded_endAbility c hv hcount

/-- The vault is idle, or active and committed. -/
def VaultSettled (w : GASCharacter K E C) : Prop :=
  w.avatarValid = true ∧ w.vault.ability.activeCount ≤ 1 ∧
    (0 < w.vault.ability.activeCount → w.vault.passedCommit = true)

/-- Every event leaves a settled vault settled. -/
theorem vaultSettled_step (h : VaultSettled w) (e : VaultEvent K) :
    VaultSettled (vaultStep c w e) := by
  obtain ⟨hv, hcount, hpassed⟩ := h
  by_cases hs : startsVault w e = true
  · have hstarted := vaultStep_starts c hv hs
    refine ⟨hstarted.avatarValid.trans hv, Nat.le_of_eq hstarted.activeCount, fun _ => ?_⟩
    exact hstarted.passedCommit
  · by_cases he : endsVault w e = true
    · have hended := vaultStep_ends c hv hcount he
      refine ⟨hended.avatarValid.trans hv, by rw [hended.activeCount]; omega, fun hpos => ?_⟩
      rw [hended.activeCount] at hpos
      omega
    · rw [vaultStep_idle c (by simpa using hs) (by simpa using he)]
      exact ⟨hv, hcount, hpassed⟩

end Step

/-! ## A character and an attempt -/

/-- A walking character that has used none of its abilities. -/
def walkingCharacter : GASCharacter ℚ ℕ ℕ := .spawned .walking 1 fun _ => .block

/-- An attempt to vault that commits and plays its montage. -/
def passingAttempt : VaultActivation ℚ :=
  ⟨true, fun _ => .added, fun _ => .added, ⟨true, ⟨100, 0, 50⟩, ⟨200, 0, 50⟩⟩, true⟩

end GasSamples.Analysis
