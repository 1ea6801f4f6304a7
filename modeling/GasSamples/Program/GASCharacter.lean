import GasSamples.Model.Character
import GasSamples.Program.BaseGameplayAbility

/-!
# `AGASCharacter`: effects and possession

`ApplyGameplayEffectToSelf` and `Landed` are how the wall run reaches the component.
Applying and removing effects runs code that reacts to them, which may end an ability:
`onEnd` is what ending it does to the character.

`PossessedBy` grants the abilities and applies the effects of the character data, at
every call.
-/

set_option autoImplicit false

namespace GasSamples.Program

open GasSamples.Model

namespace AGASCharacter

variable {K E C : Type}

/-- `ApplyGameplayEffectToSelf`, with its return value.
SOURCE: GASCharacter.cpp:99-112 -/
def applyGameplayEffectToSelf (onEnd : GASCharacter K E C → GASCharacter K E C)
    (effect : Option E) (call : ApplyCall) (w : GASCharacter K E C) :
    Bool × GASCharacter K E C :=
  match effect with
  | none => (false, w)
  | some effect =>
    if call.outcome = .invalidSpec then (false, w)
    else
      let w := if call.endsBefore then onEnd w else w
      let applied := w.asc.applyGameplayEffectSpecToSelf effect call.outcome
      let w := { w with asc := applied.2 }
      let w := if call.endsAfter then onEnd w else w
      (applied.1.isSome, w)

/-- `Landed`: `superEnds` and `removalEnds` say whether `Super::Landed` and the removal
of effects end the ability.  `inAirTags` are the classes that match `InAirTags`.
SOURCE: GASCharacter.cpp:131-138 -/
def landed (onEnd : GASCharacter K E C → GASCharacter K E C) (inAirTags : E → Bool)
    (superEnds removalEnds : Bool) (w : GASCharacter K E C) : GASCharacter K E C :=
  let w := if superEnds then onEnd w else w
  let w := { w with asc := w.asc.removeActiveEffectsWithTags inAirTags }
  if removalEnds then onEnd w else w

end AGASCharacter

/-- `FCharacterData`: effect classes, with `none` for a null entry, and ability classes. -/
structure FCharacterData (E A : Type) where
  effects : List (Option E)
  abilities : List A

/-- The character and what possession touches: the authority, the character data, the
granted specs by class, and the handlers that `OnComponentHit` of the capsule calls. -/
structure PossessableCharacter (K E C A : Type) where
  character : GASCharacter K E C
  hasAuthority : Bool
  characterData : FCharacterData E A
  activatableAbilities : List A
  capsuleHitHandlers : ℕ

/-- A call of `PossessedBy`: the controller, and what comes of each application. -/
structure Possession (P : Type) where
  newController : P
  outcome : ℕ → ApplyOutcome

namespace AGASCharacter

variable {K E C A P : Type}

/-- `InitAbilityActorInfo(this, this)`. -/
def initAbilityActorInfo (w : PossessableCharacter K E C A) : PossessableCharacter K E C A :=
  { w with character := { w.character with avatarValid := true } }

/-- `GiveAbility`; `OnGiveAbility` of a wall run binds its capsule-hit handler.
SOURCE: AG_WallRunAbility.cpp:19-27 -/
def giveAbility (isWallRun : A → Bool) (w : PossessableCharacter K E C A) (ability : A) :
    PossessableCharacter K E C A :=
  { w with
    activatableAbilities := w.activatableAbilities ++ [ability]
    capsuleHitHandlers := w.capsuleHitHandlers + if isWallRun ability then 1 else 0 }

/-- `GiveAbilities`.
SOURCE: GASCharacter.cpp:171-180 -/
def giveAbilities (isWallRun : A → Bool) (w : PossessableCharacter K E C A) :
    PossessableCharacter K E C A :=
  if w.hasAuthority then w.characterData.abilities.foldl (giveAbility isWallRun) w else w

/-- `ApplyStartupEffects`.
SOURCE: GASCharacter.cpp:182-194 -/
def applyStartupEffects (outcome : ℕ → ApplyOutcome) (w : PossessableCharacter K E C A) :
    PossessableCharacter K E C A :=
  if w.hasAuthority then
    let calls := BaseGameplayAbility.entries w.characterData.effects fun i => .quiet (outcome i)
    { w with character := calls.foldl (fun character entry =>
        (applyGameplayEffectToSelf id entry.1 entry.2 character).2) w.character }
  else w

/-- `PossessedBy`.
SOURCE: GASCharacter.cpp:196-204 -/
def possessedBy (isWallRun : A → Bool) (w : PossessableCharacter K E C A)
    (possession : Possession P) : PossessableCharacter K E C A :=
  applyStartupEffects possession.outcome (giveAbilities isWallRun (initAbilityActorInfo w))

end AGASCharacter

end GasSamples.Program
