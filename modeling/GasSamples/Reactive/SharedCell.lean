import GasSamples.Reactive.Run
import Mathlib.Logic.Function.Basic

/-!
# A cell that several users hold at one value

Each user of the cell wants it to hold a certain value while it is using it, puts the
value there when it starts, and resets the cell when it stops or fails to start. Nobody
counts the users. `Held` is what the users rely on; `held_step_iff` says that a step
keeps it exactly if it does not reset the cell while another one is using it.
-/

set_option autoImplicit false

namespace Reactive

/-- Who uses the cell, and whether it holds the value they want. -/
@[ext] structure SharedCell (ι : Type*) where
  users : ι → Bool
  held : Bool

namespace SharedCell

variable {ι : Type*} [DecidableEq ι]

/-- What a user does to the cell: set it and start, or reset it and stop. -/
inductive Op (ι : Type*)
  | acquire (i : ι)
  | release (i : ι)

/-- One operation on the cell. -/
def step (c : SharedCell ι) : Op ι → SharedCell ι
  | .acquire i => ⟨Function.update c.users i true, true⟩
  | .release i => ⟨Function.update c.users i false, false⟩

/-- Whoever uses the cell finds the value there. -/
def Held (c : SharedCell ι) : Prop := ∀ i, c.users i = true → c.held = true

/-- A reset is made while nobody else uses the cell. -/
def Exclusive (c : SharedCell ι) : Op ι → Prop
  | .acquire _ => True
  | .release i => ∀ j, c.users j = true → j = i

/-- One operation keeps the promise to the users exactly if it is exclusive. -/
theorem held_step_iff (c : SharedCell ι) (op : Op ι) :
    Held (step c op) ↔ Exclusive c op := by
  cases op with
  | acquire i => exact ⟨fun _ => trivial, fun _ _ _ => rfl⟩
  | release i =>
    constructor
    · intro h j hj
      by_contra hne
      have hused : (step c (.release i)).users j = true := by
        simpa [step, hne] using hj
      exact absurd (h j hused) (by simp [step])
    · intro h j hj
      by_cases hji : j = i
      · rw [hji] at hj
        exact absurd hj (by simp [step])
      · have hused : c.users j = true := by
          simpa [step, hji] using hj
        exact absurd (h j hused) hji

/-- A cell that holds the value is used by somebody. -/
def Explained (c : SharedCell ι) : Prop := c.held = true → ∃ i, c.users i = true

/-- Every operation leaves the cell unheld or its own user there. -/
theorem explained_step (c : SharedCell ι) (op : Op ι) : Explained (step c op) := by
  cases op with
  | acquire i => exact fun _ => ⟨i, by simp [step]⟩
  | release i => exact fun hheld => absurd hheld (by simp [step])

end SharedCell

end Reactive
