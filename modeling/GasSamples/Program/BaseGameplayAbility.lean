import GasSamples.Model.AbilitySystem

/-!
# `UAG_BaseGameplayAbility`

Activation applies two lists of effects to the owner; the handles of the second list are
stored and removed again by `EndAbility`.  Activation calls out to code that may end the
ability at once: the Blueprint activate event in `UGameplayAbility::ActivateAbility`, and
whatever reacts to an effect inside `ApplyGameplayEffectSpecToSelf`.  An
`ActivationScript` says what these calls do in one activation.

The component is valid throughout: the character creates it in its constructor.
-/

set_option autoImplicit false

namespace GasSamples.Program

open GasSamples.Model

/-- The class defaults of an ability: its instancing policy and its effect lists, with
`none` for a null entry. -/
structure AbilityClass (E : Type) where
  instancingPolicy : EGameplayAbilityInstancingPolicy
  ongoingEffectsToRemoveOnEnd : List (Option E)
  ongoingEffectsToApplyOnStart : List (Option E)

/-- What one instance of an ability and the component share: the active effects, and the
instance. -/
structure BaseState (E : Type) where
  asc : AbilitySystem E
  ability : AbilityInstance

/-- One call of `ApplyGameplayEffectSpecToSelf`: its outcome, and whether `EndAbility` is
called from inside it, before or after the effect is in place. -/
structure ApplyCall where
  endsBefore : Bool
  outcome : ApplyOutcome
  endsAfter : Bool
deriving DecidableEq

/-- A call from inside which the ability is not ended. -/
def ApplyCall.quiet (outcome : ApplyOutcome) : ApplyCall := ⟨false, outcome, false⟩

/-- `EndAbility` is called from inside the call. -/
def ApplyCall.ends (call : ApplyCall) : Bool := call.endsBefore || call.endsAfter

/-- What happens in one activation: whether the Blueprint activate event ends the
ability, and the call made for each entry of the two lists. -/
structure ActivationScript where
  superEnds : Bool
  start : ℕ → ApplyCall
  remove : ℕ → ApplyCall

/-- An activation during which nothing ends the ability. -/
def ActivationScript.quiet (start remove : ℕ → ApplyOutcome) : ActivationScript :=
  ⟨false, fun i => .quiet (start i), fun i => .quiet (remove i)⟩

namespace BaseGameplayAbility

variable {E : Type}

/-- `EndAbility`.
SOURCE: AG_BaseGameplayAbility.cpp:50-69 -/
def endAbility (c : AbilityClass E) (s : BaseState E) : BaseState E :=
  let ability := s.ability.endAbility
  if c.instancingPolicy.isInstantiated then
    { asc := ability.removeOnEndEffectsHandle.foldl
        AbilitySystem.removeActiveGameplayEffect s.asc
      ability := { ability with removeOnEndEffectsHandle := [] } }
  else
    { s with ability := ability }

/-- `ApplyGameplayEffectSpecToSelf` with the calls of `EndAbility` made from inside it. -/
def applySpec (c : AbilityClass E) (effect : E) (call : ApplyCall) (s : BaseState E) :
    Option ℕ × BaseState E :=
  let s := if call.endsBefore then endAbility c s else s
  let applied := s.asc.applyGameplayEffectSpecToSelf effect call.outcome
  let s := { s with asc := applied.2 }
  let s := if call.endsAfter then endAbility c s else s
  (applied.1, s)

/-- `RemoveOnEndEffectsHandle.Add`, for a handle that was successfully applied. -/
def addHandle (handle : Option ℕ) (s : BaseState E) : BaseState E :=
  match handle with
  | none => s
  | some h =>
    { s with ability :=
      { s.ability with
        removeOnEndEffectsHandle := s.ability.removeOnEndEffectsHandle ++ [h]
        obtained := s.ability.obtained ++ [h] } }

/-- The body of the two loops of `ActivateAbility`; `keep` is the difference between
them, whether the handle is added to `RemoveOnEndEffectsHandle`.
SOURCE: AG_BaseGameplayAbility.cpp:20-29, 33-46 -/
def applyEffect (c : AbilityClass E) (keep : Bool) (s : BaseState E)
    (entry : Option E × ApplyCall) : BaseState E :=
  match entry with
  | (none, _) => s
  | (some effect, call) =>
    if call.outcome = .invalidSpec then s
    else
      let applied := applySpec c effect call s
      if keep then addHandle applied.1 applied.2 else applied.2

/-- The entries of an effect list, each with the call that the script gives it. -/
def entries (effects : List (Option E)) (calls : ℕ → ApplyCall) :
    List (Option E × ApplyCall) :=
  effects.zipIdx.map fun p => (p.1, calls p.2)

/-- `ActivateAbility`, of an ability that `PreActivate` has made active.
SOURCE: AG_BaseGameplayAbility.cpp:9-48 -/
def activateAbility (c : AbilityClass E) (a : ActivationScript) (s : BaseState E) :
    BaseState E :=
  let s := if a.superEnds then endAbility c s else s
  let s := (entries c.ongoingEffectsToApplyOnStart a.start).foldl (applyEffect c false) s
  if c.instancingPolicy.isInstantiated then
    (entries c.ongoingEffectsToRemoveOnEnd a.remove).foldl (applyEffect c true) s
  else
    s

/-- `PreActivate`. -/
def preActivate (s : BaseState E) : BaseState E :=
  { s with ability := s.ability.preActivate }

/-- `TryActivateAbility` as one instance sees it, once `CanActivateAbility` has passed: an
instance that is active is not activated again.  Of an ability that is instanced per actor
the engine refuses the attempt; of one that is instanced per execution it makes another
instance, with handles of its own.  The class default object of a non-instanced ability is
activated once more. -/
def activateInstance (c : AbilityClass E) (a : ActivationScript) (s : BaseState E) :
    BaseState E :=
  if c.instancingPolicy.isInstantiated && s.ability.isActive then s
  else activateAbility c a (preActivate s)

end BaseGameplayAbility

end GasSamples.Program
