import GasSamples.Program.JumpAbility
import GasSamples.Analysis.VaultOverAbility

/-!
# A commit that fails

The vault calls `K2_EndAbility` when its commit fails; its `EndAbility` then undoes steps
of the activation that were never taken, and leaves the effects of
`OngoingEffectsToApplyOnStart`, which were.  The jump returns without ending the ability
at all.  `failedCommit_atomic_iff` compares the character before such an activation
with the character after it.
-/

set_option autoImplicit false

namespace GasSamples.Analysis

open Reactive GasSamples.Model GasSamples.Program

/-- An activation that can fail to commit: of the vault or of the jump. -/
inductive CommittingActivation (K E C : Type)
  | vault (c : VaultOverClass E C) (env : VaultActivation K)
  | jump (c : JumpClass E) (env : JumpActivation)

namespace CommittingActivation

variable {K E C : Type}

/-- The activation is called in this state and its commit fails: the vault is inactive
and stores only handles that the component has issued; the jump has authority or a
prediction key. -/
def Fails (w : GASCharacter K E C) : CommittingActivation K E C → Prop
  | vault _ env => env.commit.passed = false ∧ w.vault.ability.activeCount = 0 ∧
      ∀ h ∈ w.vault.ability.removeOnEndEffectsHandle, h < w.asc.nextHandle
  | jump _ env => env.commitPasses = false ∧ env.hasAuthorityOrPredictionKey = true

/-- The ability that is activated. -/
def ability (w : GASCharacter K E C) : CommittingActivation K E C → AbilityInstance
  | vault _ _ => w.vault.ability
  | jump _ _ => w.jump

/-- The character when `ActivateAbility` returns. -/
def activated [DecidableEq C] (w : GASCharacter K E C) :
    CommittingActivation K E C → GASCharacter K E C
  | vault c env => VaultOverAbility.activateAbility c env (VaultOverAbility.preActivate w)
  | jump c env => JumpAbility.activateAbility c env (JumpAbility.preActivate w)

/-- The ability is inactive again, and the movement mode, the warp targets and the active
effects are those from before the activation. -/
def Atomic [DecidableEq C] (w : GASCharacter K E C) (a : CommittingActivation K E C) : Prop :=
  (a.ability (a.activated w)).activeCount = 0 ∧
    (a.activated w).movement.movementMode = w.movement.movementMode ∧
    (a.activated w).warpTargets = w.warpTargets ∧
    (a.activated w).asc.live = w.asc.live

/-- A vault has nothing to undo that it did not do, and nothing to leave: the avatar is
valid, the character does not fly, neither warp target is registered, no application
from `OngoingEffectsToApplyOnStart` adds an active effect, and no handle left in
`RemoveOnEndEffectsHandle` is live.  For a jump there is no such state. -/
def NothingToUndo (w : GASCharacter K E C) : CommittingActivation K E C → Prop
  | vault c env => w.avatarValid = true ∧ w.movement.movementMode ≠ .flying ∧
      (w.warpTargets "JumpToLocation" = none ∧ w.warpTargets "JumpOverLocation" = none) ∧
      (BaseGameplayAbility.entries c.ongoingEffectsToApplyOnStart
        fun i => .quiet (env.start i)).any entryAdds = false ∧
      ∀ h ∈ w.vault.ability.removeOnEndEffectsHandle, ¬ w.asc.IsLive h
  | jump _ _ => False

end CommittingActivation

open CommittingActivation

variable {K E C : Type}

/-! ## The jump -/

/-- The jump is active when `ActivateAbility` returns, also if its commit has failed: no
path of it calls `EndAbility`.
SOURCE: AG_JumpAbility.cpp:36-52 -/
theorem jump_activeCount (c : JumpClass E) (env : JumpActivation) (w : GASCharacter K E C) :
    (JumpAbility.activateAbility c env (JumpAbility.preActivate w)).jump.activeCount =
      w.jump.activeCount + 1 := by
  have hquiet := activateAbility_quiet_activeCount (c := c.base) env.start
    (fun _ => .rejected) (JumpAbility.baseState (JumpAbility.preActivate w))
  unfold JumpAbility.activateAbility
  split
  · dsimp only
    split
    · exact hquiet
    · exact hquiet
  · rfl

/-! ## The vault -/

section Vault

variable [DecidableEq C] (c : VaultOverClass E C) (env : VaultActivation K) {w : GASCharacter K E C}

/-- Removing the two warp targets changes nothing exactly if neither is registered. -/
theorem removed_warpTargets_iff {α : Type} (targets : String → Option α) :
    Function.update (Function.update targets "JumpToLocation" none)
        "JumpOverLocation" none = targets ↔
      targets "JumpToLocation" = none ∧ targets "JumpOverLocation" = none := by
  constructor
  · intro h
    have hto := congrFun h "JumpToLocation"
    have hover := congrFun h "JumpOverLocation"
    simp only [Function.update_self, ne_eq, String.reduceEq, not_false_eq_true,
      Function.update_of_ne] at hto hover
    exact ⟨hto.symm, hover.symm⟩
  · rintro ⟨hto, hover⟩
    rw [← hto, Function.update_eq_self, hto, ← hover, Function.update_eq_self]

/-- Ending a vault keeps the movement mode exactly if the character does not fly. -/
theorem vaultEnd_movementMode_iff (hv : w.avatarValid = true) :
    (VaultOverAbility.endAbility c w).movement.movementMode = w.movement.movementMode ↔
      w.movement.movementMode ≠ .flying := by
  rw [vaultEnd_movementMode c hv]
  by_cases hm : w.movement.movementMode = .flying <;> simp [hm]

/-- `EndAbility` without an avatar returns before it reaches the base class. -/
theorem vaultEnd_ability_of_invalid (hv : w.avatarValid = false) :
    (VaultOverAbility.endAbility c w).vault.ability = w.vault.ability := by
  simp [VaultOverAbility.endAbility, hv]

/-- The vault side of `failedCommit_atomic_iff`, field by field. -/
theorem vault_atomic_iff (hfails : Fails w (vault c env)) :
    Atomic w (vault c env) ↔ NothingToUndo w (vault c env) := by
  obtain ⟨hpassed, hidle, hissued⟩ := hfails
  have hend : activated w (vault c env) =
      VaultOverAbility.endAbility c (committing c env w) :=
    activateAbility_of_failed c env w hpassed
  simp only [Atomic, NothingToUndo, ability, hend]
  by_cases hv : w.avatarValid = true
  · have hv' : (committing c env w).avatarValid = true := hv
    have hactive : (VaultOverAbility.endAbility c (committing c env w)).vault.ability.activeCount
        = 0 := by
      rw [vaultEnd_activeCount c hv', committing_activeCount, hidle]
    have heffects : (VaultOverAbility.endAbility c (committing c env w)).asc.live = w.asc.live ↔
        (BaseGameplayAbility.entries c.ongoingEffectsToApplyOnStart
          fun i => .quiet (env.start i)).any entryAdds = false ∧
        ∀ h ∈ w.vault.ability.removeOnEndEffectsHandle, ¬ w.asc.IsLive h := by
      have hbase := congrArg (fun b => b.asc.live) (vaultEnd_baseState c hv')
      rw [committing_baseState] at hbase
      have hiff := activate_endAbility_live_iff (c := c.base) rfl env.start env.remove
        (BaseGameplayAbility.preActivate (VaultOverAbility.baseState w)) hissued
      rw [← hbase] at hiff
      exact hiff
    have hmode := vaultEnd_movementMode_iff c hv'
    rw [committing_movement] at hmode
    rw [vaultEnd_warpTargets c hv', committing_warpTargets, removed_warpTargets_iff, hmode,
      heffects]
    simp only [hactive, hv, true_and]
  · -- without an avatar the ability stays active
    have hinvalid : (committing c env w).avatarValid = false := by
      simpa using hv
    have hactive : (VaultOverAbility.endAbility c (committing c env w)).vault.ability.activeCount
        ≠ 0 := by
      rw [vaultEnd_ability_of_invalid c hinvalid, committing_activeCount]
      omega
    simp [hactive, hv]

end Vault

/-- **A failed commit is atomic exactly if the vault has nothing to undo.**  For every
character, every configuration of the effect lists and every activation of the vault or
the jump whose commit fails: the ability is inactive when `ActivateAbility` returns and
movement mode, warp targets and active effects are as before, if and only if the
activation is one of the vault and the state is as in `NothingToUndo`.
SOURCE: AG_VaultOverAbility.cpp:154-235, AG_JumpAbility.cpp:36-52,
AG_BaseGameplayAbility.cpp:9-69 -/
theorem failedCommit_atomic_iff [DecidableEq C] (w : GASCharacter K E C)
    (a : CommittingActivation K E C) (hfails : Fails w a) : Atomic w a ↔ NothingToUndo w a := by
  cases a with
  | vault c env => exact vault_atomic_iff c env hfails
  | jump c env =>
    have hactive := jump_activeCount c env w
    simp only [Atomic, NothingToUndo, iff_false, ability, activated, hactive]
    omega

/-- A vault with a state effect, which ignores one channel. -/
def vaultWithState : VaultOverClass ℕ ℕ := ⟨[some 0], [], [0]⟩

/-- An attempt with nothing to vault over; its start effects are added. -/
def failingAttempt : VaultActivation ℚ :=
  ⟨true, fun _ => .added, fun _ => .added, ⟨false, ⟨0, 0, 0⟩, ⟨0, 0, 0⟩⟩, true⟩

/-- A walking character without effects that fails to vault is left as it was. -/
theorem failedCommit_atomic_walking :
    Atomic walkingCharacter (vault vaultWithState failingAttempt) := by
  have hnone : ∀ P : ℕ → Prop, ∀ h ∈ AbilityInstance.fresh.removeOnEndEffectsHandle, P h :=
    fun _ _ h => absurd h List.not_mem_nil
  refine (failedCommit_atomic_iff walkingCharacter (vault vaultWithState failingAttempt)
    ⟨rfl, rfl, hnone _⟩).mpr ?_
  exact ⟨rfl, by decide, ⟨rfl, rfl⟩, rfl, hnone _⟩

/-- A jump that may start and fails to commit. -/
def failingJump : JumpActivation := ⟨true, true, true, true, fun _ => .added, false⟩

/-- A vault that fails to commit takes a flying character out of the flying mode, and a
jump that fails to commit stays active. -/
theorem not_failedCommit_atomic :
    (Fails (GASCharacter.spawned .flying (1 : ℚ) fun _ => .block)
        (vault vaultWithState failingAttempt) ∧
      ¬ Atomic (GASCharacter.spawned .flying (1 : ℚ) fun _ => .block)
        (vault vaultWithState failingAttempt)) ∧
    (Fails walkingCharacter
        (jump (⟨[], [], fun _ => false⟩ : JumpClass ℕ) failingJump) ∧
      ¬ Atomic walkingCharacter
        (jump (⟨[], [], fun _ => false⟩ : JumpClass ℕ) failingJump)) := by
  refine ⟨⟨⟨rfl, rfl, fun h hmem => absurd hmem List.not_mem_nil⟩, ?_⟩, ⟨⟨rfl, rfl⟩, ?_⟩⟩
  · rintro ⟨-, hmode, -⟩
    exact absurd hmode (by decide)
  · rintro ⟨hactive, -⟩
    exact absurd hactive (by decide)

end GasSamples.Analysis
