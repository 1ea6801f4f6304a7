import GasSamples.Model.SphereTrace
import GasSamples.Program.VaultOverAbility
import GasSamples.Reactive.Loop

/-!
# `UAG_VaultOverAbility::CommitCheck`

The search for something to vault over.  Horizontal sweeps, layer by layer upwards, look
for the first layer that is hit and for the room above it; vertical probes then go
forward over the obstacle until one finds nothing below; a last sweep back moves the
landing point to the edge.  Both loops run on fuel, and every sweep that is made is
recorded in the history variable `sweeps`.
-/

set_option autoImplicit false

namespace GasSamples.Program

open Reactive GasSamples.Model

/-- The trace settings of the vault. -/
structure VaultTraceSettings (K : Type) where
  horizontalTraceRadius : K
  horizontalTraceLenght : K
  horizontalTraceCount : K
  horizontalTraceStep : K
  verticalTraceRadius : K
  verticalTraceStep : K

/-- Their defaults.
SOURCE: AG_VaultOverAbility.h:27-45 -/
def VaultTraceSettings.default (K : Type) [NatCast K] : VaultTraceSettings K where
  horizontalTraceRadius := (30 : ℕ)
  horizontalTraceLenght := (500 : ℕ)
  horizontalTraceCount := (5 : ℕ)
  horizontalTraceStep := (30 : ℕ)
  verticalTraceRadius := (30 : ℕ)
  verticalTraceStep := (30 : ℕ)

/-- What one call of `CommitCheck` meets: the answer of `Super::CommitCheck`, whether the
character is valid, the settings, the pose of the character, the world, and what earlier
calls left in the two members. -/
structure VaultSearch (K : Type) where
  superCommitCheck : Bool
  characterValid : Bool
  settings : VaultTraceSettings K
  startLocation : FVector K
  forwardVector : FVector K
  upVector : FVector K
  world : SphereTrace K
  jumpToLocation : FVector K
  jumpOverLocation : FVector K

/-- The sweeps of the search, by the value of the loop counter. -/
inductive SweepPhase
  | horizontal (layer : ℕ)
  | vertical (probe : ℕ)
  | refinement
deriving DecidableEq

/-- A sweep that was made. -/
structure Sweep (K : Type) where
  phase : SweepPhase
  start : FVector K
  stop : FVector K
  radius : K
deriving DecidableEq

/-- What `CommitCheck` returns and leaves in the two members, and the sweeps it made. -/
structure SearchResult (K : Type) extends CommitResult K where
  sweeps : List (Sweep K)

/-- The variables of the horizontal loop; `JumpToLocationIdx` is -1 for `INDEX_NONE`. -/
structure HorizontalScan (K : Type) where
  i : ℕ
  jumpToLocationIdx : ℤ
  jumpToLocation : FVector K
  maxJumpDistance : K
  sweeps : List (Sweep K)

/-- What the vertical part of the search starts from. -/
structure VerticalStart (K : Type) where
  jumpToLocation : FVector K
  maxVerticalTraceDistance : K
  verticalTraceLength : K
  sweeps : List (Sweep K)

/-- The variables of the vertical loop. -/
structure VerticalScan (K : Type) where
  i : ℕ
  jumpToLocation : FVector K
  jumpOverLocation : FVector K
  jumpOverLocationSet : Bool
  sweeps : List (Sweep K)

namespace CommitCheck

variable {K : Type} [Field K] (x : VaultSearch K)

/-- The sweep of a horizontal layer.
SOURCE: AG_VaultOverAbility.cpp:58-61 -/
def layer (i : ℕ) : Sweep K :=
  let traceStart := x.startLocation + x.settings.horizontalTraceStep • ((i : K) • x.upVector)
  { phase := .horizontal i
    start := traceStart
    stop := traceStart + x.settings.horizontalTraceLenght • x.forwardVector
    radius := x.settings.horizontalTraceRadius }

/-- A vertical sweep.  It is made with the radius of the horizontal ones.
SOURCE: AG_VaultOverAbility.cpp:104, 114-117 -/
def probe (v : VerticalStart K) (i : ℕ) : Sweep K :=
  let verticalStartLocation := v.jumpToLocation + v.verticalTraceLength • x.upVector
  let traceStart :=
    verticalStartLocation + x.settings.verticalTraceStep • ((i : K) • x.forwardVector)
  { phase := .vertical i
    start := traceStart
    stop := traceStart + (-1 : K) • (v.verticalTraceLength • x.upVector)
    radius := x.settings.horizontalTraceRadius }

/-- The sweep back to `JumpOverLocation`, with the same radius again.
SOURCE: AG_VaultOverAbility.cpp:138-140 -/
def refinement (jumpOverLocation : FVector K) : Sweep K where
  phase := .refinement
  start := jumpOverLocation + x.settings.verticalTraceStep • x.forwardVector
  stop := jumpOverLocation
  radius := x.settings.horizontalTraceRadius

/-- `SphereTraceSingleForObjects`: the hit, if any. -/
def trace (s : Sweep K) : Option (FHitResult K) := x.world s.start s.stop s.radius

variable [LinearOrder K] [SquareRoot K]

/-- One round of the horizontal loop: `.inr` leaves it.
SOURCE: AG_VaultOverAbility.cpp:56-81 -/
def horizontalBody (s : HorizontalScan K) : HorizontalScan K ⊕ HorizontalScan K :=
  if (s.i : K) < x.settings.horizontalTraceCount then
    let sweep := layer x s.i
    let s := { s with sweeps := s.sweeps ++ [sweep] }
    match trace x sweep with
    | some traceHit =>
      if s.jumpToLocationIdx = -1 ∧ (s.i : K) < x.settings.horizontalTraceCount - 1 then
        .inl { s with
          i := s.i + 1
          jumpToLocationIdx := s.i
          jumpToLocation := traceHit.location }
      else if s.jumpToLocationIdx = (s.i : ℤ) - 1 then
        .inr { s with maxJumpDistance := FVector.dist2D traceHit.location sweep.start }
      else .inl { s with i := s.i + 1 }
    | none => if s.jumpToLocationIdx ≠ -1 then .inr s else .inl { s with i := s.i + 1 }
  else .inr s

/-- The variables before the horizontal loop.
SOURCE: AG_VaultOverAbility.cpp:48-54 -/
def horizontalInit : HorizontalScan K where
  i := 0
  jumpToLocationIdx := -1
  jumpToLocation := x.jumpToLocation
  maxJumpDistance := x.settings.horizontalTraceLenght
  sweeps := []

/-- What follows the horizontal loop: an early return, or the start of the vertical part.
SOURCE: AG_VaultOverAbility.cpp:83-104 -/
def afterHorizontal (s : HorizontalScan K) : SearchResult K ⊕ VerticalStart K :=
  if s.jumpToLocationIdx = -1 then
    .inl ⟨⟨false, s.jumpToLocation, x.jumpOverLocation⟩, s.sweeps⟩
  else
    let distanceToJumpTo := FVector.dist2D x.startLocation s.jumpToLocation
    let maxVerticalTraceDistance := s.maxJumpDistance - distanceToJumpTo
    if maxVerticalTraceDistance < 0 then
      .inl ⟨⟨false, s.jumpToLocation, x.jumpOverLocation⟩, s.sweeps⟩
    else
      -- a counter that is equal to the count is lowered by one
      let i := if (s.i : K) = x.settings.horizontalTraceCount then s.i - 1 else s.i
      .inr
        { jumpToLocation := s.jumpToLocation
          maxVerticalTraceDistance := maxVerticalTraceDistance
          verticalTraceLength := |s.jumpToLocation.z - (layer x i).start.z|
          sweeps := s.sweeps }

/-- The search up to its vertical part.
SOURCE: AG_VaultOverAbility.cpp:23-104 -/
def searchForward (fuel : ℕ) : Option (SearchResult K ⊕ VerticalStart K) :=
  if !x.superCommitCheck then
    some (.inl ⟨⟨false, x.jumpToLocation, x.jumpOverLocation⟩, []⟩)
  else if !x.characterValid then
    some (.inl ⟨⟨false, x.jumpToLocation, x.jumpOverLocation⟩, []⟩)
  else (loop (horizontalBody x) fuel (horizontalInit x)).map (afterHorizontal x)

/-- `VerticalTraceCount`.
SOURCE: AG_VaultOverAbility.cpp:108 -/
def verticalTraceCount (v : VerticalStart K) : FloatQuotient K :=
  .div v.maxVerticalTraceDistance x.settings.verticalTraceStep

/-- One round of the vertical loop: `.inr` leaves it.
SOURCE: AG_VaultOverAbility.cpp:112-131 -/
def verticalBody (v : VerticalStart K) (s : VerticalScan K) :
    VerticalScan K ⊕ VerticalScan K :=
  if (verticalTraceCount x v).atLeast s.i then
    let sweep := probe x v s.i
    let s := { s with sweeps := s.sweeps ++ [sweep] }
    match trace x sweep with
    | some traceHit =>
      .inl { s with
        i := s.i + 1
        jumpToLocation := if s.i = 0 then traceHit.impactPoint else s.jumpToLocation
        jumpOverLocation := traceHit.impactPoint }
    | none =>
      if s.i ≠ 0 then .inr { s with jumpOverLocationSet := true }
      else .inl { s with i := s.i + 1 }
  else .inr s

/-- The variables before the vertical loop.
SOURCE: AG_VaultOverAbility.cpp:106-110 -/
def verticalInit (v : VerticalStart K) : VerticalScan K where
  i := 0
  jumpToLocation := v.jumpToLocation
  jumpOverLocation := x.jumpOverLocation
  jumpOverLocationSet := false
  sweeps := v.sweeps

omit [LinearOrder K] [SquareRoot K] in
/-- What follows the vertical loop.
SOURCE: AG_VaultOverAbility.cpp:133-151 -/
def afterVertical (s : VerticalScan K) : SearchResult K :=
  if !s.jumpOverLocationSet then ⟨⟨false, s.jumpToLocation, s.jumpOverLocation⟩, s.sweeps⟩
  else
    let sweep := refinement x s.jumpOverLocation
    let sweeps := s.sweeps ++ [sweep]
    match trace x sweep with
    | some traceHit => ⟨⟨true, s.jumpToLocation, traceHit.impactPoint⟩, sweeps⟩
    | none => ⟨⟨true, s.jumpToLocation, s.jumpOverLocation⟩, sweeps⟩

/-- The vertical part of the search.
SOURCE: AG_VaultOverAbility.cpp:106-151 -/
def searchDown (v : VerticalStart K) (fuel : ℕ) : Option (SearchResult K) :=
  (loop (verticalBody x v) fuel (verticalInit x v)).map (afterVertical x)

/-- `CommitCheck`.
SOURCE: AG_VaultOverAbility.cpp:19-152 -/
def commitCheck (fuel : ℕ) : Option (SearchResult K) :=
  (searchForward x fuel).bind fun searched =>
    match searched with
    | .inl result => some result
    | .inr v => searchDown x v fuel

omit [Field K] [LinearOrder K] [SquareRoot K] in
/-- The search that a character makes from where it stands, with what its earlier searches left
in the two members.
SOURCE: AG_VaultOverAbility.cpp:23-36 -/
def searchFrom {E C : Type} (settings : VaultTraceSettings K) (superCommitCheck : Bool)
    (upVector : FVector K) (world : SphereTrace K) (w : GASCharacter K E C) : VaultSearch K where
  superCommitCheck := superCommitCheck
  characterValid := w.avatarValid
  settings := settings
  startLocation := w.actorLocation
  forwardVector := w.forwardVector
  upVector := upVector
  world := world
  jumpToLocation := w.vault.jumpToLocation
  jumpOverLocation := w.vault.jumpOverLocation

end CommitCheck

end GasSamples.Program
