import Mathlib.Logic.Function.Basic
import Mathlib.Data.List.Basic

/-!
# Overwriting a table at a list of keys

`overwrite ks v f` writes the value `v` at every key of `ks`, one key after the other.
Duplicated keys make no difference, a later overwrite at the same keys hides an earlier
one, and an overwrite is the identity exactly on the tables that already hold `v` there.
The last two facts decide when one overwrite undoes another: writing `w` at `ks` after
`v` restores the table precisely if the table held `w` at `ks` before.
-/

set_option autoImplicit false

namespace Reactive

variable {κ β : Type*} [DecidableEq κ]

/-- Write `v` at every key of `ks`. -/
def overwrite (ks : List κ) (v : β) (f : κ → β) : κ → β :=
  ks.foldl (fun f k => Function.update f k v) f

/-- The value at one key after overwriting some. -/
theorem overwrite_apply (ks : List κ) (v : β) (f : κ → β) (k : κ) :
    overwrite ks v f k = if k ∈ ks then v else f k := by
  induction ks generalizing f with
  | nil => simp [overwrite]
  | cons j ks ih =>
    have hstep : overwrite (j :: ks) v f = overwrite ks v (Function.update f j v) := rfl
    rw [hstep, ih]
    by_cases hk : k ∈ ks
    · simp [hk]
    · by_cases hj : k = j <;> simp [hk, hj]

/-- A later overwrite at the same keys hides an earlier one. -/
@[simp] theorem overwrite_overwrite (ks : List κ) (v w : β) (f : κ → β) :
    overwrite ks w (overwrite ks v f) = overwrite ks w f := by
  funext k
  simp only [overwrite_apply]
  split <;> rfl

/-- An overwrite is the identity exactly on the tables that hold the value already. -/
theorem overwrite_eq_self_iff {ks : List κ} {v : β} {f : κ → β} :
    overwrite ks v f = f ↔ ∀ k ∈ ks, f k = v := by
  constructor
  · intro h k hk
    have hval := congrFun h k
    rw [overwrite_apply, if_pos hk] at hval
    exact hval.symm
  · intro h
    funext k
    rw [overwrite_apply]
    split
    · rename_i hk
      exact (h k hk).symm
    · rfl

end Reactive
