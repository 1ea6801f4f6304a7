import GasSamples.Model.Engine

/-!
# Sphere traces and exact arithmetic

What the search for a vault reads of the engine: sphere traces against one state of the
world, distances in the plane, and a division that may be one by zero.  Arithmetic is
exact; only the quotient by zero, which has no exact value, is that of a float.
-/

set_option autoImplicit false

namespace GasSamples.Model

/-- `FMath::Sqrt` on the scalars, exact on squares. -/
class SquareRoot (K : Type) [Field K] [LinearOrder K] where
  sqrt : K → K
  sqrt_mul_self : ∀ x, 0 ≤ x → sqrt (x * x) = x

instance : SquareRoot ℚ where
  sqrt := Rat.sqrt
  sqrt_mul_self _ hx := by rw [Rat.sqrt_eq, abs_of_nonneg hx]

noncomputable instance : SquareRoot ℝ where
  sqrt := Real.sqrt
  sqrt_mul_self _ hx := Real.sqrt_mul_self hx

namespace FVector

variable {K : Type}

/-- The first component of a sum. -/
@[simp] theorem add_x [Add K] (a b : FVector K) : (a + b).x = a.x + b.x := rfl
/-- The second component of a sum. -/
@[simp] theorem add_y [Add K] (a b : FVector K) : (a + b).y = a.y + b.y := rfl
/-- The height of a sum. -/
@[simp] theorem add_z [Add K] (a b : FVector K) : (a + b).z = a.z + b.z := rfl

/-- The first component of a multiple. -/
@[simp] theorem smul_x [Mul K] (c : K) (a : FVector K) : (c • a).x = c * a.x := rfl
/-- The second component of a multiple. -/
@[simp] theorem smul_y [Mul K] (c : K) (a : FVector K) : (c • a).y = c * a.y := rfl
/-- The height of a multiple. -/
@[simp] theorem smul_z [Mul K] (c : K) (a : FVector K) : (c • a).z = c * a.z := rfl

/-- The dot product distributes over sums. -/
theorem dotProduct_add [Field K] (n a b : FVector K) :
    dotProduct n (a + b) = dotProduct n a + dotProduct n b := by
  simp only [dotProduct, add_x, add_y, add_z]
  ring

/-- The dot product with a multiple. -/
theorem dotProduct_smul [Field K] (n : FVector K) (c : K) (a : FVector K) :
    dotProduct n (c • a) = c * dotProduct n a := by
  simp only [dotProduct, smul_x, smul_y, smul_z]
  ring

/-- `FVector::Dist2D`. -/
def dist2D [Field K] [LinearOrder K] [SquareRoot K] (a b : FVector K) : K :=
  SquareRoot.sqrt ((b.x - a.x) * (b.x - a.x) + (b.y - a.y) * (b.y - a.y))

end FVector

/-- `SphereTraceSingleForObjects` in one state of the world, from start to end and with a
radius, the character ignored: the first blocking hit, if any. -/
abbrev SphereTrace (K : Type) := FVector K → FVector K → K → Option (FHitResult K)

/-- A quotient of floats. -/
inductive FloatQuotient (K : Type)
  | finite (value : K)
  | infinity (positive : Bool)
  | nan
deriving DecidableEq

namespace FloatQuotient

variable {K : Type} [Field K] [LinearOrder K]

/-- The quotient of two finite floats. -/
def div (a b : K) : FloatQuotient K :=
  if b ≠ 0 then .finite (a / b)
  else if 0 < a then .infinity true
  else if a < 0 then .infinity false
  else .nan

/-- `i <= q`. -/
def atLeast (i : ℕ) : FloatQuotient K → Bool
  | .finite value => (i : K) ≤ value
  | .infinity positive => positive
  | .nan => false

/-- A quotient by a non-zero number is finite. -/
theorem div_of_ne_zero (a : K) {b : K} (hb : b ≠ 0) : div a b = .finite (a / b) := if_pos hb

end FloatQuotient

end GasSamples.Model
