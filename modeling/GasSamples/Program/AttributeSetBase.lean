import Mathlib.Algebra.BigOperators.Group.List.Basic
import Mathlib.Algebra.Order.Group.Defs
import Mathlib.Logic.Function.Basic

/-!
# `UAG_AttributeSetBase`

Five attributes, each with a base value and the temporary additive modifiers that are
active on it.  An executed effect writes the base value of one attribute and calls
`PostGameplayEffectExecute` with it.
-/

set_option autoImplicit false

namespace GasSamples.Program

/-- The attributes of the set. -/
inductive GameplayAttribute
  | health
  | maxHealth
  | stamina
  | maxStamina
  | movementSpeed
deriving DecidableEq

/-- `FGameplayAttributeData`, with the active temporary modifiers of the attribute. -/
structure FGameplayAttributeData (K : Type) where
  baseValue : K
  modifiers : List K

/-- The current value: the base value and the modifiers on top of it. -/
def FGameplayAttributeData.currentValue {K : Type} [Add K] [Zero K]
    (d : FGameplayAttributeData K) : K :=
  d.baseValue + d.modifiers.sum

/-- The attribute set, with what its callbacks touch: whether the owner is a character,
and the `MaxWalkSpeed` of its movement component. -/
structure AttributeSetBase (K : Type) where
  data : GameplayAttribute → FGameplayAttributeData K
  ownerIsCharacter : Bool
  maxWalkSpeed : K

/-- `FMath::Clamp`. -/
def clamp {K : Type} [LinearOrder K] (x lo hi : K) : K := max (min x hi) lo

namespace AttributeSetBase

variable {K : Type}

section Accessors

variable [Add K] [Zero K]

/-- The getter of `ATTRIBUTE_ACCESSORS`: the current value. -/
def getNumericAttribute (s : AttributeSetBase K) (attr : GameplayAttribute) : K :=
  (s.data attr).currentValue

/-- `AGASCharacter::OnMaxMovementSpeedChanged`, the delegate bound to the value of
`MovementSpeed`.
SOURCE: GASCharacter.cpp:76, 114-117 -/
def onMaxMovementSpeedChanged (newValue : K) (s : AttributeSetBase K) : AttributeSetBase K :=
  { s with maxWalkSpeed := newValue }

/-- The setter of `ATTRIBUTE_ACCESSORS`: the base value is written, and a new value of
`MovementSpeed` is broadcast. -/
def setNumericAttributeBase (attr : GameplayAttribute) (value : K)
    (s : AttributeSetBase K) : AttributeSetBase K :=
  let s := { s with
    data := Function.update s.data attr { s.data attr with baseValue := value } }
  if attr = .movementSpeed then
    s.onMaxMovementSpeedChanged (s.getNumericAttribute .movementSpeed)
  else s

/-- Effects that come or go change the temporary modifiers of an attribute: its current value
is evaluated anew, and a new value of `MovementSpeed` is broadcast. -/
def setModifiers (attr : GameplayAttribute) (modifiers : List K)
    (s : AttributeSetBase K) : AttributeSetBase K :=
  let s := { s with
    data := Function.update s.data attr { s.data attr with modifiers := modifiers } }
  if attr = .movementSpeed then
    s.onMaxMovementSpeedChanged (s.getNumericAttribute .movementSpeed)
  else s

/-- `GetHealth`. -/
def getHealth (s : AttributeSetBase K) : K := s.getNumericAttribute .health

/-- `GetMaxHealth`. -/
def getMaxHealth (s : AttributeSetBase K) : K := s.getNumericAttribute .maxHealth

/-- `GetStamina`. -/
def getStamina (s : AttributeSetBase K) : K := s.getNumericAttribute .stamina

/-- `GetMaxStamina`. -/
def getMaxStamina (s : AttributeSetBase K) : K := s.getNumericAttribute .maxStamina

/-- `GetMovementSpeed`. -/
def getMovementSpeed (s : AttributeSetBase K) : K := s.getNumericAttribute .movementSpeed

/-- `SetHealth`. -/
def setHealth (value : K) (s : AttributeSetBase K) : AttributeSetBase K :=
  s.setNumericAttributeBase .health value

end Accessors

variable [AddCommGroup K] [LinearOrder K]

/-- `PostGameplayEffectExecute`, for the attribute that was written.
SOURCE: AG_AttributeSetBase.cpp:10-28 -/
def postGameplayEffectExecute (attr : GameplayAttribute) (s : AttributeSetBase K) :
    AttributeSetBase K :=
  if attr = .health then s.setHealth (clamp s.getHealth 0 s.getMaxHealth)
  else if attr = .movementSpeed then
    if s.ownerIsCharacter then { s with maxWalkSpeed := s.getMovementSpeed } else s
  else s

end AttributeSetBase

/-- A modification that a gameplay effect executes. -/
structure ExecutedModification (K : Type) where
  attr : GameplayAttribute
  magnitude : K

/-- An execution: the base value is written and the callback called. -/
def executeStep {K : Type} [AddCommGroup K] [LinearOrder K] (s : AttributeSetBase K)
    (e : ExecutedModification K) : AttributeSetBase K :=
  (s.setNumericAttributeBase e.attr
    ((s.data e.attr).baseValue + e.magnitude)).postGameplayEffectExecute e.attr

/-- What happens to the attributes: an effect is executed, or those that last change. -/
inductive AttributeEvent (K : Type)
  | execute (e : ExecutedModification K)
  | modifiers (attr : GameplayAttribute) (modifiers : List K)

/-- One event of a run. -/
def attributeStep {K : Type} [AddCommGroup K] [LinearOrder K] (s : AttributeSetBase K) :
    AttributeEvent K → AttributeSetBase K
  | .execute e => executeStep s e
  | .modifiers attr modifiers => s.setModifiers attr modifiers

end GasSamples.Program
