import Mathlib

/-!
# The engine vocabulary

The types of the engine that the character code reads and writes: vectors and
rotators over an ordered field `K` (exact arithmetic), movement modes, collision
responses, hit results and traces, warp targets, instancing policies.  Only the parts
that the code uses are kept.
-/

set_option autoImplicit false

namespace GasSamples.Model

/-- A vector of the world, Z up. -/
@[ext] structure FVector (K : Type) where
  x : K
  y : K
  z : K
deriving DecidableEq

namespace FVector

variable {K : Type}

instance [Add K] : Add (FVector K) := ⟨fun a b => ⟨a.x + b.x, a.y + b.y, a.z + b.z⟩⟩

instance [Neg K] : Neg (FVector K) := ⟨fun a => ⟨-a.x, -a.y, -a.z⟩⟩

instance [Mul K] : SMul K (FVector K) := ⟨fun c a => ⟨c * a.x, c * a.y, c * a.z⟩⟩

/-- `FVector::DotProduct`. -/
def dotProduct [Add K] [Mul K] (a b : FVector K) : K := a.x * b.x + a.y * b.y + a.z * b.z

/-- `FRotator(0, 90, 0).RotateVector`: X turns towards Y. -/
def rotateYaw90 [Neg K] (a : FVector K) : FVector K := ⟨-a.y, a.x, a.z⟩

/-- `FRotator(0, -90, 0).RotateVector`. -/
def rotateYawMinus90 [Neg K] (a : FVector K) : FVector K := ⟨a.y, -a.x, a.z⟩

/-- The first component of the opposite vector. -/
@[simp] theorem neg_x [Neg K] (a : FVector K) : (-a).x = -a.x := rfl
/-- The second component of the opposite vector. -/
@[simp] theorem neg_y [Neg K] (a : FVector K) : (-a).y = -a.y := rfl
/-- The height of the opposite vector. -/
@[simp] theorem neg_z [Neg K] (a : FVector K) : (-a).z = -a.z := rfl

/-- The dot product is symmetric. -/
theorem dotProduct_comm [Field K] (a b : FVector K) : dotProduct a b = dotProduct b a := by
  simp only [dotProduct, mul_comm]

/-- The dot product with the opposite vector changes sign. -/
theorem dotProduct_neg [Field K] (a b : FVector K) : dotProduct a (-b) = -dotProduct a b := by
  simp only [dotProduct, neg_x, neg_y, neg_z, mul_neg, neg_add_rev]
  rw [add_comm (-(a.z * b.z)), add_comm (-(a.y * b.y))]

end FVector

/-- A rotator, by its three angles. -/
structure FRotator (K : Type) where
  pitch : K
  yaw : K
  roll : K
deriving DecidableEq

/-- `EMovementMode`: `MOVE_None` and so on. -/
inductive EMovementMode
  | none
  | walking
  | navWalking
  | falling
  | swimming
  | flying
  | custom
deriving DecidableEq

/-- `UCharacterMovementComponent::IsMovingOnGround`. -/
def EMovementMode.isMovingOnGround : EMovementMode → Bool
  | .walking => true
  | .navWalking => true
  | _ => false

/-- `UCharacterMovementComponent::IsFlying`. -/
def EMovementMode.isFlying (m : EMovementMode) : Bool := m = .flying

/-- `isFlying` tests for one mode. -/
@[simp] theorem EMovementMode.isFlying_iff (m : EMovementMode) :
    m.isFlying = true ↔ m = .flying := by
  simp [EMovementMode.isFlying]

/-- `ECollisionResponse`: `ECR_Ignore` and so on. -/
inductive ECollisionResponse
  | ignore
  | overlap
  | block
deriving DecidableEq

/-- The parts of a hit result that the code reads. -/
structure FHitResult (K : Type) where
  location : FVector K
  impactPoint : FVector K
  impactNormal : FVector K
deriving DecidableEq

/-- `LineTraceSingleForObjects` in one state of the world, from start to end, with the
character ignored: the first blocking hit, if any. -/
abbrev LineTrace (K : Type) := FVector K → FVector K → Option (FHitResult K)

/-- A motion-warp target: location and rotation. -/
structure FMotionWarpingTarget (K : Type) where
  location : FVector K
  rotation : FRotator K
deriving DecidableEq

/-- `EGameplayAbilityInstancingPolicy`. -/
inductive EGameplayAbilityInstancingPolicy
  | nonInstanced
  | instancedPerActor
  | instancedPerExecution
deriving DecidableEq

/-- `UGameplayAbility::IsInstantiated`: an ability of a non-instanced class runs on the
class default object. -/
def EGameplayAbilityInstancingPolicy.isInstantiated : EGameplayAbilityInstancingPolicy → Bool
  | .nonInstanced => false
  | .instancedPerActor => true
  | .instancedPerExecution => true

end GasSamples.Model
