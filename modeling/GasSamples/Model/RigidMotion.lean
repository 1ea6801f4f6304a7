import GasSamples.Model.SphereTrace

/-!
# Rigid motions about the vertical

A turn about the Z axis followed by a shift.  Points are moved, directions are turned, and
a world is moved with everything in it.  Heights, planar distances and dot products do not
change, and the quarter turns of the code commute with the turn; turns about another axis
have neither property.
-/

set_option autoImplicit false

namespace GasSamples.Model

/-- A turn by an angle with this cosine and sine, which rotators record as `yaw`, followed
by a shift. -/
structure RigidMotion (K : Type) [Field K] where
  cos : K
  sin : K
  yaw : K
  offset : FVector K
  unit : cos * cos + sin * sin = 1

namespace RigidMotion

variable {K : Type} [Field K] (g : RigidMotion K)

/-- Turn a direction. -/
def rotate (v : FVector K) : FVector K :=
  ⟨g.cos * v.x - g.sin * v.y, g.sin * v.x + g.cos * v.y, v.z⟩

/-- Move a point. -/
def move (p : FVector K) : FVector K := g.rotate p + g.offset

/-- Move a point back. -/
def moveBack (p : FVector K) : FVector K :=
  let v := p + -g.offset
  ⟨g.cos * v.x + g.sin * v.y, g.cos * v.y - g.sin * v.x, v.z⟩

/-- Turn a rotator. -/
def turn (r : FRotator K) : FRotator K := { r with yaw := r.yaw + g.yaw }

/-- Move a hit. -/
def moveHit (hit : FHitResult K) : FHitResult K where
  location := g.move hit.location
  impactPoint := g.move hit.impactPoint
  impactNormal := g.rotate hit.impactNormal

/-- The line traces of a world that was moved. -/
def moveLineTrace (lineTrace : LineTrace K) : LineTrace K := fun start stop =>
  (lineTrace (g.moveBack start) (g.moveBack stop)).map g.moveHit

/-- The sphere traces of a world that was moved. -/
def moveSphereTrace (world : SphereTrace K) : SphereTrace K := fun start stop radius =>
  (world (g.moveBack start) (g.moveBack stop) radius).map g.moveHit

/-! ## What does not change -/

/-- `moveBack` undoes `move`. -/
@[simp] theorem moveBack_move (p : FVector K) : g.moveBack (g.move p) = p := by
  have hx : ∀ a b : K, g.cos * (g.cos * a - g.sin * b) + g.sin * (g.sin * a + g.cos * b) = a := by
    intro a b
    calc g.cos * (g.cos * a - g.sin * b) + g.sin * (g.sin * a + g.cos * b)
        = (g.cos * g.cos + g.sin * g.sin) * a := by ring
      _ = a := by rw [g.unit, one_mul]
  have hy : ∀ a b : K, g.cos * (g.sin * a + g.cos * b) - g.sin * (g.cos * a - g.sin * b) = b := by
    intro a b
    calc g.cos * (g.sin * a + g.cos * b) - g.sin * (g.cos * a - g.sin * b)
        = (g.cos * g.cos + g.sin * g.sin) * b := by ring
      _ = b := by rw [g.unit, one_mul]
  ext <;> simp [moveBack, move, rotate, hx, hy]

/-- A rotation of a multiple. -/
theorem rotate_smul (a : K) (v : FVector K) : g.rotate (a • v) = a • g.rotate v := by
  ext <;> simp [rotate] <;> ring

/-- A rotation of the opposite vector. -/
theorem rotate_neg (v : FVector K) : g.rotate (-v) = -g.rotate v := by
  ext <;> simp [rotate] <;> ring

/-- A displaced point moves to the displaced image, with the displacement rotated. -/
theorem move_add (p v : FVector K) : g.move (p + v) = g.move p + g.rotate v := by
  ext <;> simp [move, rotate] <;> ring

/-- A quarter turn commutes with the turn. -/
theorem rotate_rotateYaw90 (v : FVector K) : g.rotate v.rotateYaw90 = (g.rotate v).rotateYaw90 := by
  ext <;> simp [rotate, FVector.rotateYaw90] <;> ring

/-- Rotations about the vertical commute with a quarter turn about it. -/
theorem rotate_rotateYawMinus90 (v : FVector K) :
    g.rotate v.rotateYawMinus90 = (g.rotate v).rotateYawMinus90 := by
  ext <;> simp [rotate, FVector.rotateYawMinus90] <;> ring

/-- Rotating both vectors keeps their dot product. -/
theorem dotProduct_rotate (v u : FVector K) :
    FVector.dotProduct (g.rotate v) (g.rotate u) = FVector.dotProduct v u := by
  have hplane : ∀ a b c d : K, (g.cos * a - g.sin * b) * (g.cos * c - g.sin * d) +
      (g.sin * a + g.cos * b) * (g.sin * c + g.cos * d) = a * c + b * d := by
    intro a b c d
    calc (g.cos * a - g.sin * b) * (g.cos * c - g.sin * d) +
          (g.sin * a + g.cos * b) * (g.sin * c + g.cos * d)
        = (g.cos * g.cos + g.sin * g.sin) * (a * c + b * d) := by ring
      _ = a * c + b * d := by rw [g.unit, one_mul]
  simp only [FVector.dotProduct, rotate, hplane]

/-- Differences of heights do not change. -/
theorem move_z_sub (p q : FVector K) : (g.move p).z - (g.move q).z = p.z - q.z := by
  simp [move, rotate]

/-- A motion keeps horizontal distances. -/
theorem dist2D_move [LinearOrder K] [SquareRoot K] (p q : FVector K) :
    FVector.dist2D (g.move p) (g.move q) = FVector.dist2D p q := by
  unfold FVector.dist2D
  congr 1
  calc ((g.move q).x - (g.move p).x) * ((g.move q).x - (g.move p).x) +
        ((g.move q).y - (g.move p).y) * ((g.move q).y - (g.move p).y)
      = (g.cos * g.cos + g.sin * g.sin) *
          ((q.x - p.x) * (q.x - p.x) + (q.y - p.y) * (q.y - p.y)) := by
        simp only [move, rotate, FVector.add_x, FVector.add_y]
        ring
    _ = (q.x - p.x) * (q.x - p.x) + (q.y - p.y) * (q.y - p.y) := by rw [g.unit, one_mul]

/-! ## Worlds -/

/-- In the moved world, a trace between moved points finds the moved hit. -/
theorem moveLineTrace_move (lineTrace : LineTrace K) (start stop : FVector K) :
    g.moveLineTrace lineTrace (g.move start) (g.move stop) =
      (lineTrace start stop).map g.moveHit := by
  simp [moveLineTrace]

/-- A sweep of the moved world along the moved path finds the moved hit. -/
theorem moveSphereTrace_move (world : SphereTrace K) (start stop : FVector K) (radius : K) :
    g.moveSphereTrace world (g.move start) (g.move stop) radius =
      (world start stop radius).map g.moveHit := by
  simp [moveSphereTrace]

end RigidMotion

end GasSamples.Model
