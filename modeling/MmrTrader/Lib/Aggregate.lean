import Mathlib.Data.List.Basic
import Mathlib.Order.Lattice

/-!
# `COALESCE(MAX(f), 0)` over a list of rows

The aggregate is written as a left fold.  `foldl_max_le_iff` characterises it from above and
`foldl_max_attained` says that a non-zero maximum belongs to a row.
-/

namespace MmrTrader.Lib

variable {R : Type}
variable {f : R → Nat} {l : List R}

theorem foldl_max_le_iff {a b : Nat} : l.foldl (fun c r => max c (f r)) a ≤ b ↔ a ≤ b ∧ ∀ r ∈ l, f r ≤ b := by
  induction l generalizing a with
  | nil => simp
  | cons x xs ih =>
    simp only [List.foldl_cons, ih, List.forall_mem_cons, Nat.max_le, and_assoc]

theorem le_foldl_max {r : R} (h : r ∈ l) (a : Nat) : f r ≤ l.foldl (fun c r => max c (f r)) a :=
  (foldl_max_le_iff.mp (Nat.le_refl _)).2 r h

theorem foldl_max_attained (f : R → Nat) (l : List R) (a : Nat) :
    l.foldl (fun c r => max c (f r)) a = a ∨ ∃ r ∈ l, f r = l.foldl (fun c r => max c (f r)) a := by
  induction l generalizing a with
  | nil => exact Or.inl rfl
  | cons x xs ih =>
    simp only [List.foldl_cons]
    rcases ih (max a (f x)) with h | ⟨r, hr, h⟩
    · rw [h]
      rcases Nat.le_total (f x) a with hx | hx
      · exact Or.inl (Nat.max_eq_left hx)
      · exact Or.inr ⟨x, List.mem_cons_self, (Nat.max_eq_right hx).symm⟩
    · exact Or.inr ⟨r, List.mem_cons_of_mem _ hr, h⟩

end MmrTrader.Lib
