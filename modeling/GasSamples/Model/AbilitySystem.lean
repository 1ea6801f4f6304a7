import GasSamples.Model.Engine
import GasSamples.Reactive.HandleStore

/-!
# The ability system component

The component holds the active gameplay effects: a store that issues a handle for every
successful application.  Whether an application succeeds is decided by the engine
(application requirements, immunity, duration policy), so each application is given its
`ApplyOutcome`.  An ability keeps, per spec, the number of its running activations and,
per instance, the handles in `RemoveOnEndEffectsHandle`.
-/

set_option autoImplicit false

namespace GasSamples.Model

open Reactive

/-- What comes of making an outgoing spec of a class and applying it to oneself:
`MakeOutgoingSpec` fails; the application is refused; an instant effect is executed and
gone; an effect with a duration is added to the active ones. -/
inductive ApplyOutcome
  | invalidSpec
  | rejected
  | executed
  | added
deriving DecidableEq

/-- `FActiveGameplayEffectHandle::WasSuccessfullyApplied`. -/
def ApplyOutcome.wasSuccessfullyApplied : ApplyOutcome → Bool
  | .invalidSpec => false
  | .rejected => false
  | .executed => true
  | .added => true

/-- The active gameplay effects of the component, by effect class. -/
abbrev AbilitySystem (E : Type) := HandleStore E

namespace AbilitySystem

variable {E : Type}

/-- `ApplyGameplayEffectSpecToSelf` of a valid spec of the class `effect`: the handle, if
the application succeeded, and the component afterwards. -/
def applyGameplayEffectSpecToSelf (asc : AbilitySystem E) (effect : E)
    (outcome : ApplyOutcome) : Option ℕ × AbilitySystem E :=
  if outcome.wasSuccessfullyApplied then
    (some asc.nextHandle, asc.issue (decide (outcome = .added)) effect)
  else
    (none, asc)

/-- `RemoveActiveGameplayEffect`. -/
def removeActiveGameplayEffect (asc : AbilitySystem E) (handle : ℕ) : AbilitySystem E :=
  asc.remove handle

/-- `RemoveActiveGameplayEffectBySourceEffect`: all active effects of the class; the
null class removes nothing. -/
def removeActiveGameplayEffectBySourceEffect [DecidableEq E] (asc : AbilitySystem E) :
    Option E → AbilitySystem E
  | none => asc
  | some effect => asc.keepWhere fun p => p.2 != effect

/-- `RemoveActiveEffectsWithTags`: `tagged` are the classes whose tags match. -/
def removeActiveEffectsWithTags (asc : AbilitySystem E) (tagged : E → Bool) :
    AbilitySystem E :=
  asc.keepWhere fun p => !tagged p.2

/-- `HasMatchingGameplayTag`: some active effect grants the tag. -/
def hasMatchingGameplayTag (asc : AbilitySystem E) (grants : E → Bool) : Bool :=
  asc.values.any grants

end AbilitySystem

/-- What the engine and `UAG_BaseGameplayAbility` keep of one ability: `activeCount` is
the spec's `ActiveCount`.  `obtained` is a history variable, all handles that were ever
put into `RemoveOnEndEffectsHandle`. -/
structure AbilityInstance where
  activeCount : ℕ
  removeOnEndEffectsHandle : List ℕ
  obtained : List ℕ
deriving DecidableEq

/-- `FGameplayAbilitySpec::IsActive`. -/
def AbilityInstance.isActive (a : AbilityInstance) : Bool := 0 < a.activeCount

/-- An instance is active while it has an activation. -/
@[simp] theorem AbilityInstance.isActive_eq_true (a : AbilityInstance) :
    a.isActive = true ↔ 0 < a.activeCount := by
  simp [AbilityInstance.isActive]

/-- An instance without an activation is inactive. -/
@[simp] theorem AbilityInstance.isActive_eq_false (a : AbilityInstance) :
    a.isActive = false ↔ a.activeCount = 0 := by
  simp [AbilityInstance.isActive]

/-- An ability that was granted and never activated. -/
def AbilityInstance.fresh : AbilityInstance := ⟨0, [], []⟩

/-- `UGameplayAbility::PreActivate`: the spec becomes active. -/
def AbilityInstance.preActivate (a : AbilityInstance) : AbilityInstance :=
  { a with activeCount := a.activeCount + 1 }

/-- `UGameplayAbility::EndAbility`: an active ability becomes inactive, an inactive one
is left alone. -/
def AbilityInstance.endAbility (a : AbilityInstance) : AbilityInstance :=
  { a with activeCount := a.activeCount - 1 }

end GasSamples.Model
