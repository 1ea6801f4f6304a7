import GasSamples.Model.Character
import GasSamples.Program.BaseGameplayAbility
import GasSamples.Reactive.Overwrite

/-!
# `UAG_VaultOverAbility`

Activation commits (the trace search of `CommitCheck` decides), and on success sets the
movement mode, ignores a list of collision channels, registers the two warp targets and
starts the montage.  `EndAbility` runs the undoing steps on every path, the failed
commit included.  The outcome of the commit is given to an activation as a
`CommitResult`, with whatever `CommitCheck` left in `JumpToLocation` and
`JumpOverLocation`.
-/

set_option autoImplicit false

namespace GasSamples.Program

open Reactive GasSamples.Model

/-- The class defaults of the vault. -/
structure VaultOverClass (E C : Type) where
  ongoingEffectsToRemoveOnEnd : List (Option E)
  ongoingEffectsToApplyOnStart : List (Option E)
  collisionChannelsToIgnore : List C

/-- The base part of the class; the constructor makes it instanced per actor.
SOURCE: AG_VaultOverAbility.cpp:13-17 -/
def VaultOverClass.base {E C : Type} (c : VaultOverClass E C) : AbilityClass E where
  instancingPolicy := .instancedPerActor
  ongoingEffectsToRemoveOnEnd := c.ongoingEffectsToRemoveOnEnd
  ongoingEffectsToApplyOnStart := c.ongoingEffectsToApplyOnStart

/-- What `CommitAbility` returns, and the two members that `CommitCheck` writes. -/
structure CommitResult (K : Type) where
  passed : Bool
  jumpToLocation : FVector K
  jumpOverLocation : FVector K

/-- What one attempt to activate the vault meets: the answer of `CanActivateAbility`, the
outcome of each effect application, the commit, and whether the montage can be played. -/
structure VaultActivation (K : Type) where
  canActivate : Bool
  start : ℕ → ApplyOutcome
  remove : ℕ → ApplyOutcome
  commit : CommitResult K
  montagePlays : Bool

namespace VaultOverAbility

variable {K E C : Type} [DecidableEq C]

/-- The part of the character that the base class works on. -/
def baseState (w : GASCharacter K E C) : BaseState E := ⟨w.asc, w.vault.ability⟩

/-- Put the base part back. -/
def setBaseState (w : GASCharacter K E C) (b : BaseState E) : GASCharacter K E C :=
  { w with asc := b.asc, vault := { w.vault with ability := b.ability } }

/-- `EndAbility`.
SOURCE: AG_VaultOverAbility.cpp:198-235 -/
def endAbility (c : VaultOverClass E C) (w : GASCharacter K E C) : GASCharacter K E C :=
  let w := { w with vault := { w.vault with montageTask := false } }
  if !w.avatarValid then w
  else
    let w := { w with
      collisionResponse := overwrite c.collisionChannelsToIgnore .block w.collisionResponse }
    let w := if w.movement.movementMode.isFlying then w.setMovementMode .falling else w
    let w := (w.removeWarpTarget "JumpToLocation").removeWarpTarget "JumpOverLocation"
    setBaseState w (BaseGameplayAbility.endAbility c.base (baseState w))

/-- `CommitAbility`: the search leaves its locations in the members, and the history
variable records whether it passed. -/
def commitAbility (r : CommitResult K) (w : GASCharacter K E C) : GASCharacter K E C :=
  { w with vault :=
    { w.vault with
      jumpToLocation := r.jumpToLocation
      jumpOverLocation := r.jumpOverLocation
      passedCommit := r.passed } }

/-- The steps of `ActivateAbility` between the commit and the montage.
SOURCE: AG_VaultOverAbility.cpp:166-188 -/
def beginVault (c : VaultOverClass E C) (w : GASCharacter K E C) : GASCharacter K E C :=
  if !w.avatarValid then w
  else
    let w := w.setMovementMode .flying
    let w := { w with
      collisionResponse := overwrite c.collisionChannelsToIgnore .ignore w.collisionResponse }
    let w := w.addOrUpdateWarpTarget "JumpToLocation" w.vault.jumpToLocation w.actorRotation
    w.addOrUpdateWarpTarget "JumpOverLocation" w.vault.jumpOverLocation w.actorRotation

/-- `ActivateAbility`.  A montage that cannot be played broadcasts `OnCancelled` from
`ReadyForActivation`, which is bound to `K2_EndAbility`.
SOURCE: AG_VaultOverAbility.cpp:154-196 -/
def activateAbility (c : VaultOverClass E C) (env : VaultActivation K)
    (w : GASCharacter K E C) : GASCharacter K E C :=
  let w := setBaseState w
    (BaseGameplayAbility.activateAbility c.base (.quiet env.start env.remove) (baseState w))
  let w := commitAbility env.commit w
  if !env.commit.passed then endAbility c w
  else
    let w := beginVault c w
    let w := { w with vault := { w.vault with montageTask := true } }
    if env.montagePlays then w else endAbility c w

/-- `PreActivate`. -/
def preActivate (w : GASCharacter K E C) : GASCharacter K E C :=
  { w with vault :=
    { w.vault with ability := w.vault.ability.preActivate, passedCommit := false } }

/-- `TryActivateAbility`, with its return value. -/
def tryActivateAbility (c : VaultOverClass E C) (env : VaultActivation K)
    (w : GASCharacter K E C) : Bool × GASCharacter K E C :=
  if w.vault.ability.isActive || !env.canActivate then (false, w)
  else (true, activateAbility c env (preActivate w))

/-- A montage callback (blend-out, completion, cancellation or interruption): the task
broadcasts only while the ability is active, and each delegate is bound to
`K2_EndAbility`. -/
def onMontageFinished (c : VaultOverClass E C) (w : GASCharacter K E C) : GASCharacter K E C :=
  if w.vault.ability.isActive then endAbility c w else w

/-- `CancelAbility`, which the component calls for an active ability. -/
def cancelAbility (c : VaultOverClass E C) (w : GASCharacter K E C) : GASCharacter K E C :=
  if w.vault.ability.isActive then endAbility c w else w

end VaultOverAbility

/-- What happens to the vault ability. -/
inductive VaultEvent (K : Type)
  | activate (env : VaultActivation K)
  | montageFinished
  | cancel

/-- One event in the life of the vault ability. -/
def vaultStep {K E C : Type} [DecidableEq C] (c : VaultOverClass E C)
    (w : GASCharacter K E C) : VaultEvent K → GASCharacter K E C
  | .activate env => (VaultOverAbility.tryActivateAbility c env w).2
  | .montageFinished => VaultOverAbility.onMontageFinished c w
  | .cancel => VaultOverAbility.cancelAbility c w

end GasSamples.Program
