import GasSamples.Model.Character
import GasSamples.Program.BaseGameplayAbility

/-!
# `UAG_JumpAbility`

A non-instanced ability: its activations are counted on the spec, it runs on the class
default object and never on an instance.  The native class has no `EndAbility` of its
own and does not end itself.
-/

set_option autoImplicit false

namespace GasSamples.Program

open GasSamples.Model

/-- The class defaults of the jump; `wallRunStateTag` are the effects that grant
`WallRunStateTag`. -/
structure JumpClass (E : Type) where
  ongoingEffectsToRemoveOnEnd : List (Option E)
  ongoingEffectsToApplyOnStart : List (Option E)
  wallRunStateTag : E → Bool

/-- The base part of the class.
SOURCE: AG_JumpAbility.cpp:11-15 -/
def JumpClass.base {E : Type} (c : JumpClass E) : AbilityClass E where
  instancingPolicy := .nonInstanced
  ongoingEffectsToRemoveOnEnd := c.ongoingEffectsToRemoveOnEnd
  ongoingEffectsToApplyOnStart := c.ongoingEffectsToApplyOnStart

/-- What one attempt to jump meets. -/
structure JumpActivation where
  superCanActivate : Bool
  canJump : Bool
  isJumpAllowed : Bool
  hasAuthorityOrPredictionKey : Bool
  start : ℕ → ApplyOutcome
  commitPasses : Bool

namespace JumpAbility

variable {K E C : Type}

/-- The part of the character that the base class works on. -/
def baseState (w : GASCharacter K E C) : BaseState E := ⟨w.asc, w.jump⟩

/-- Put the base part back. -/
def setBaseState (w : GASCharacter K E C) (b : BaseState E) : GASCharacter K E C :=
  { w with asc := b.asc, jump := b.ability }

/-- `CanActivateAbility`.
SOURCE: AG_JumpAbility.cpp:17-34 -/
def canActivateAbility (c : JumpClass E) (env : JumpActivation) (w : GASCharacter K E C) :
    Bool :=
  if !env.superCanActivate then false
  else
    let isWallRunning := w.asc.hasMatchingGameplayTag c.wallRunStateTag
    env.canJump || (env.isJumpAllowed && isWallRunning)

/-- `ActivateAbility`.  A non-instanced ability skips the second list.
SOURCE: AG_JumpAbility.cpp:36-52 -/
def activateAbility (c : JumpClass E) (env : JumpActivation) (w : GASCharacter K E C) :
    GASCharacter K E C :=
  if env.hasAuthorityOrPredictionKey then
    let w := setBaseState w (BaseGameplayAbility.activateAbility c.base
      (.quiet env.start fun _ => .rejected) (baseState w))
    if !env.commitPasses then w
    else { w with pressedJump := true }
  else w

/-- `PreActivate`. -/
def preActivate (w : GASCharacter K E C) : GASCharacter K E C :=
  { w with jump := w.jump.preActivate }

/-- `TryActivateAbility`, with its return value: a non-instanced ability may be
activated again while it is active. -/
def tryActivateAbility (c : JumpClass E) (env : JumpActivation) (w : GASCharacter K E C) :
    Bool × GASCharacter K E C :=
  if canActivateAbility c env w then (true, activateAbility c env (preActivate w))
  else (false, w)

end JumpAbility

end GasSamples.Program
