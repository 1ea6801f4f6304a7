import GasSamples.Program.BaseGameplayAbility

/-!
# `UAG_CrouchAbility` and the crouch input

The input is bound to hold: `OnCrouchStarted` activates the ability, `OnCrouchEnded`
cancels it.  The ability asks `ACharacter::Crouch` and `UnCrouch` for it, and the
movement component follows the request in its next update, when it can.
-/

set_option autoImplicit false

namespace GasSamples.Program

open GasSamples.Model

/-- The class defaults of the crouch, and the character's `CrouchStateEffect`. -/
structure CrouchClass (E : Type) where
  ongoingEffectsToRemoveOnEnd : List (Option E)
  ongoingEffectsToApplyOnStart : List (Option E)
  crouchStateEffect : Option E

/-- The base part of the class.
SOURCE: AG_CrouchAbility.cpp:8-12 -/
def CrouchClass.base {E : Type} (c : CrouchClass E) : AbilityClass E where
  instancingPolicy := .instancedPerActor
  ongoingEffectsToRemoveOnEnd := c.ongoingEffectsToRemoveOnEnd
  ongoingEffectsToApplyOnStart := c.ongoingEffectsToApplyOnStart

/-- The character, as far as crouching goes: the component and the ability, the request
and the state of the character, whether there is room to stand up, and whether the crouch
input is held. -/
structure CrouchingCharacter (E : Type) where
  asc : AbilitySystem E
  crouch : AbilityInstance
  bWantsToCrouch : Bool
  bIsCrouched : Bool
  roomToStand : Bool
  held : Bool

namespace CrouchAbility

variable {E : Type}

/-- The part of the character that the base class works on. -/
def baseState (w : CrouchingCharacter E) : BaseState E := ⟨w.asc, w.crouch⟩

/-- Put the base part back. -/
def setBaseState (w : CrouchingCharacter E) (b : BaseState E) : CrouchingCharacter E :=
  { w with asc := b.asc, crouch := b.ability }

/-- `ACharacter::CanCrouch`. -/
def canCrouch (w : CrouchingCharacter E) : Bool := !w.bIsCrouched

/-- `ACharacter::Crouch`. -/
def crouch (w : CrouchingCharacter E) : CrouchingCharacter E :=
  if canCrouch w then { w with bWantsToCrouch := true } else w

/-- `ACharacter::UnCrouch`. -/
def unCrouch (w : CrouchingCharacter E) : CrouchingCharacter E :=
  { w with bWantsToCrouch := false }

/-- `CanActivateAbility`.
SOURCE: AG_CrouchAbility.cpp:14-26 -/
def canActivateAbility (superCanActivate : Bool) (w : CrouchingCharacter E) : Bool :=
  if !superCanActivate then false else canCrouch w

/-- `ActivateAbility`.
SOURCE: AG_CrouchAbility.cpp:28-36 -/
def activateAbility (c : CrouchClass E) (start remove : ℕ → ApplyOutcome)
    (w : CrouchingCharacter E) : CrouchingCharacter E :=
  crouch (setBaseState w
    (BaseGameplayAbility.activateAbility c.base (.quiet start remove) (baseState w)))

/-- `EndAbility`.
SOURCE: AG_CrouchAbility.cpp:38-45 -/
def endAbility (c : CrouchClass E) (w : CrouchingCharacter E) : CrouchingCharacter E :=
  let w := unCrouch w
  setBaseState w (BaseGameplayAbility.endAbility c.base (baseState w))

/-- `PreActivate`. -/
def preActivate (w : CrouchingCharacter E) : CrouchingCharacter E :=
  { w with crouch := w.crouch.preActivate }

/-- `TryActivateAbility`; `Super::CanActivateAbility` passes for an inactive ability. -/
def tryActivateAbility (c : CrouchClass E) (start remove : ℕ → ApplyOutcome)
    (w : CrouchingCharacter E) : CrouchingCharacter E :=
  if w.crouch.isActive || !canActivateAbility true w then w
  else activateAbility c start remove (preActivate w)

/-- `AGASCharacter::OnCrouchStarted`: `CrouchTags` match the one crouch ability.
SOURCE: GASCharacter.cpp:344-349 -/
def onCrouchStarted (c : CrouchClass E) (start remove : ℕ → ApplyOutcome)
    (w : CrouchingCharacter E) : CrouchingCharacter E :=
  tryActivateAbility c start remove w

/-- `AGASCharacter::OnCrouchEnded`: `CancelAbilities` ends the ability, if it is active.
SOURCE: GASCharacter.cpp:351-356 -/
def onCrouchEnded (c : CrouchClass E) (w : CrouchingCharacter E) : CrouchingCharacter E :=
  if w.crouch.isActive then endAbility c w else w

/-- `AGASCharacter::OnStartCrouch`.
SOURCE: GASCharacter.cpp:140-154 -/
def onStartCrouch (c : CrouchClass E) (outcome : ApplyOutcome) (w : CrouchingCharacter E) :
    CrouchingCharacter E :=
  match c.crouchStateEffect with
  | none => w
  | some effect =>
    if outcome = .invalidSpec then w
    else { w with asc := (w.asc.applyGameplayEffectSpecToSelf effect outcome).2 }

variable [DecidableEq E]

/-- `AGASCharacter::OnEndCrouch`.
SOURCE: GASCharacter.cpp:156-163 -/
def onEndCrouch (c : CrouchClass E) (w : CrouchingCharacter E) : CrouchingCharacter E :=
  match c.crouchStateEffect with
  | none => w
  | some effect =>
    { w with asc := w.asc.removeActiveGameplayEffectBySourceEffect (some effect) }

/-- A movement update: the character crouches on request, and stands up without one when
there is room. -/
def movementUpdate (c : CrouchClass E) (outcome : ApplyOutcome) (w : CrouchingCharacter E) :
    CrouchingCharacter E :=
  if w.bWantsToCrouch && !w.bIsCrouched then onStartCrouch c outcome { w with bIsCrouched := true }
  else if !w.bWantsToCrouch && w.bIsCrouched && w.roomToStand then
    onEndCrouch c { w with bIsCrouched := false }
  else w

end CrouchAbility

/-- What happens to the crouching character. -/
inductive CrouchEvent
  | started (start remove : ℕ → ApplyOutcome)
  | completed
  | movementUpdate (outcome : ApplyOutcome)
  | roomChanged (roomToStand : Bool)

/-- One event: the input is held from Started to Completed. -/
def crouchStep {E : Type} [DecidableEq E] (c : CrouchClass E) (w : CrouchingCharacter E) :
    CrouchEvent → CrouchingCharacter E
  | .started start remove => CrouchAbility.onCrouchStarted c start remove { w with held := true }
  | .completed => CrouchAbility.onCrouchEnded c { w with held := false }
  | .movementUpdate outcome => CrouchAbility.movementUpdate c outcome w
  | .roomChanged roomToStand => { w with roomToStand := roomToStand }

end GasSamples.Program
