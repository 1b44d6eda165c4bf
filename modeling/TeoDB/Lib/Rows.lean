import Mathlib

/-!
# Lists of rows

Rows are dropped by position.
-/

namespace TeoDB.Lib.Rows

variable {α : Type*}

/-- The elements whose positions are not gone, where the first has the given position. -/
def keepFrom (gone : Nat → Bool) : Nat → List α → List α
  | _, [] => []
  | i, a :: rest => if gone i then keepFrom gone (i + 1) rest else a :: keepFrom gone (i + 1) rest

lemma keepFrom_eq_self {gone : Nat → Bool} {i : Nat} {l : List α}
    (h : ∀ j, i ≤ j → j < i + l.length → gone j = false) : keepFrom gone i l = l := by
  induction l generalizing i with
  | nil => rfl
  | cons a rest ih =>
    have hr := ih (i := i + 1) fun j hj hlt => h j (by omega) (by simp; omega)
    rw [keepFrom, h i le_rfl (by simp), hr]
    rfl

end TeoDB.Lib.Rows
