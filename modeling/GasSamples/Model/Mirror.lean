import GasSamples.Model.Character

/-!
# The mirror image

A reflection of the world in the plane through the X and the Z axis.  Lengths and dot
products do not change, what was on the left is on the right, and a quarter turn becomes
the quarter turn the other way.
-/

set_option autoImplicit false

namespace GasSamples.Model

variable {K : Type} [Field K]

/-- The mirror image of a point or a direction. -/
def FVector.mirror (v : FVector K) : FVector K := ⟨v.x, -v.y, v.z⟩

/-- The mirror image of a rotator. -/
def FRotator.mirror (r : FRotator K) : FRotator K := ⟨r.pitch, -r.yaw, -r.roll⟩

/-- The mirror image of a hit. -/
def FHitResult.mirror (hit : FHitResult K) : FHitResult K where
  location := hit.location.mirror
  impactPoint := hit.impactPoint.mirror
  impactNormal := hit.impactNormal.mirror

/-- The line traces of the mirrored world. -/
def mirrorLineTrace (lineTrace : LineTrace K) : LineTrace K := fun start stop =>
  (lineTrace start.mirror stop.mirror).map FHitResult.mirror

/-- The side that was opposite. -/
def WallSide.opposite : WallSide → WallSide
  | .left => .right
  | .right => .left

namespace FVector

/-- The mirror image of the mirror image is the vector itself. -/
@[simp] theorem mirror_mirror (v : FVector K) : v.mirror.mirror = v := by
  ext <;> simp [mirror]

/-- The mirror image of a sum. -/
theorem mirror_add (v u : FVector K) : (v + u).mirror = v.mirror + u.mirror := by
  ext
  · rfl
  · exact neg_add v.y u.y
  · rfl

/-- The mirror image of a multiple. -/
theorem mirror_smul (a : K) (v : FVector K) : (a • v).mirror = a • v.mirror := by
  ext
  · rfl
  · exact (mul_neg a v.y).symm
  · rfl

/-- The mirror image of the opposite vector. -/
theorem mirror_neg (v : FVector K) : (-v).mirror = -v.mirror := rfl

/-- The opposite of the opposite is the vector itself. -/
@[simp] protected theorem neg_neg (v : FVector K) : - -v = v := by
  ext <;> simp

/-- Mirroring both vectors keeps their dot product. -/
theorem dotProduct_mirror (v u : FVector K) : dotProduct v.mirror u.mirror = dotProduct v u := by
  simp only [dotProduct, mirror, neg_mul_neg]

/-- A quarter turn, mirrored, is the quarter turn of the mirror image the other way. -/
theorem mirror_rotateYaw90 (v : FVector K) : v.rotateYaw90.mirror = v.mirror.rotateYawMinus90 := rfl

/-- A quarter turn one way, in the mirror, is the quarter turn the other way of the mirror
image. -/
theorem mirror_rotateYawMinus90 (v : FVector K) :
    v.rotateYawMinus90.mirror = v.mirror.rotateYaw90 := by
  ext <;> simp [mirror, rotateYaw90, rotateYawMinus90]

end FVector

/-- In the mirrored world, a trace between mirrored points finds the mirrored hit. -/
theorem mirrorLineTrace_mirror (lineTrace : LineTrace K) (start stop : FVector K) :
    mirrorLineTrace lineTrace start.mirror stop.mirror =
      (lineTrace start stop).map FHitResult.mirror := by
  simp [mirrorLineTrace]

end GasSamples.Model
