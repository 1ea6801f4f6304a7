import GasSamples.Program.VaultOverAbility
import GasSamples.Program.JumpAbility
import GasSamples.Program.WallRunAbility

/-!
# `UAG_CharacterMovementComponent::TryTraversal` and the traversal abilities together

A jump press tries the abilities of `TraversalAbilitiesOrdered` one after the other, until
one has been activated and is still active.  The list is given together with what each
attempt meets.  Beside the native abilities it may hold others, which do not touch the
state modelled here.
-/

set_option autoImplicit false

namespace GasSamples.Program

open GasSamples.Model

/-- The class defaults of the native traversal abilities. -/
structure TraversalClasses (E C : Type) where
  vault : VaultOverClass E C
  wallRun : WallRunClass E
  jump : JumpClass E

/-- An entry of `TraversalAbilitiesOrdered`, and what the attempt to activate it meets.
Nothing ends the wall run from inside the calls out of its task. -/
inductive TraversalAttempt (K : Type)
  | vault (env : VaultActivation K)
  | wallRun (env : WallRunActivation K) (sideEffect : ApplyOutcome)
  | jump (env : JumpActivation)
  | other (activated active : Bool)

/-- What happens to the character and its traversal abilities. -/
inductive TraversalEvent (K : Type)
  | jumpPress (attempts : List (TraversalAttempt K))
  | capsuleHit (env : WallRunActivation K) (sideEffect : ApplyOutcome)
  | tick (lineTrace : LineTrace K)
  | montageFinished
  | cancelVault
  | cancelWallRun
  | moved (location forward right : FVector K)

namespace CharacterMovement

variable {K E C : Type} [DecidableEq C] [DecidableEq E] [Field K] [LinearOrder K]

/-- `TryActivateAbilityByClass`, with its return value. -/
def tryActivateAbilityByClass (c : TraversalClasses E C) (w : GASCharacter K E C) :
    TraversalAttempt K → Bool × GASCharacter K E C
  | .vault env => VaultOverAbility.tryActivateAbility c.vault env w
  | .wallRun env sideEffect =>
    WallRunAbility.tryActivateAbility c.wallRun env (.quiet sideEffect) w
  | .jump env => JumpAbility.tryActivateAbility c.jump env w
  | .other activated _ => (activated, w)

omit [DecidableEq C] [DecidableEq E] [Field K] [LinearOrder K] in
/-- `FindAbilitySpecFromClass` finds an active spec. -/
def isActive (w : GASCharacter K E C) : TraversalAttempt K → Bool
  | .vault _ => w.vault.ability.isActive
  | .wallRun _ _ => w.wallRun.ability.isActive
  | .jump _ => w.jump.isActive
  | .other _ active => active

/-- `TryTraversal`, with its return value.
SOURCE: AG_CharacterMovementComponent.cpp:16-31 -/
def tryTraversal (c : TraversalClasses E C) (w : GASCharacter K E C) :
    List (TraversalAttempt K) → Bool × GASCharacter K E C
  | [] => (false, w)
  | attempt :: attempts =>
    let tried := tryActivateAbilityByClass c w attempt
    if tried.1 && isActive tried.2 attempt then (true, tried.2)
    else tryTraversal c tried.2 attempts

end CharacterMovement

/-- One event in the life of the character.
SOURCE: GASCharacter.cpp:337 (the jump press) -/
def traversalStep {K E C : Type} [DecidableEq C] [DecidableEq E] [Field K] [LinearOrder K]
    (c : TraversalClasses E C) (w : GASCharacter K E C) : TraversalEvent K → GASCharacter K E C
  | .jumpPress attempts => (CharacterMovement.tryTraversal c w attempts).2
  | .capsuleHit env sideEffect => wallRunStep c.wallRun w (.activate env (.quiet sideEffect))
  | .tick lineTrace => wallRunStep c.wallRun w (.tick lineTrace)
  | .montageFinished => vaultStep c.vault w .montageFinished
  | .cancelVault => vaultStep c.vault w .cancel
  | .cancelWallRun => wallRunStep c.wallRun w .cancel
  | .moved location forward right => wallRunStep c.wallRun w (.moved location forward right)

end GasSamples.Program
