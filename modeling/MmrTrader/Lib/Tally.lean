import Mathlib.Algebra.BigOperators.Group.List.Basic
import Mathlib.Algebra.Ring.Nat

/-!
# Tallies over a list of threads

* `tally f l` — the sum of what each element of `l` counts for.
* `tally_set`, `tally_eraseIdx`, `tally_append` — one element changes, one is removed, elements are added.
* `le_tally`, `add_le_tally` — one element, and two different ones, count for no more than all of them.
-/

namespace MmrTrader.Lib

variable {α : Type}

/-- The sum of `f` over the list. -/
def tally (f : α → Nat) (l : List α) : Nat := (l.map f).sum

@[simp] theorem tally_nil (f : α → Nat) : tally f [] = 0 := rfl

@[simp] theorem tally_cons (f : α → Nat) (a : α) (l : List α) : tally f (a :: l) = f a + tally f l := by
  simp [tally]

@[simp] theorem tally_append (f : α → Nat) (l m : List α) : tally f (l ++ m) = tally f l + tally f m := by
  simp [tally]

variable {f : α → Nat} {l : List α} {i : Nat} {a : α}

theorem tally_set (hi : l[i]? = some a) (b : α) : tally f (l.set i b) + f a = tally f l + f b := by
  induction l generalizing i with
  | nil => simp at hi
  | cons x l ih =>
    cases i with
    | zero =>
      obtain rfl : x = a := by simpa using hi
      simp only [List.set_cons_zero, tally_cons]
      omega
    | succ i =>
      have := ih (by simpa using hi)
      simp only [List.set_cons_succ, tally_cons]
      omega

theorem tally_eraseIdx (hi : l[i]? = some a) : tally f (l.eraseIdx i) + f a = tally f l := by
  induction l generalizing i with
  | nil => simp at hi
  | cons x l ih =>
    cases i with
    | zero =>
      obtain rfl : x = a := by simpa using hi
      simp only [List.eraseIdx_cons_zero, tally_cons]
      omega
    | succ i =>
      have := ih (by simpa using hi)
      simp only [List.eraseIdx_cons_succ, tally_cons]
      omega

theorem tally_congr {g : α → Nat} (h : ∀ a ∈ l, f a = g a) : tally f l = tally g l := by
  unfold tally
  rw [List.map_congr_left h]

theorem tally_eq_zero (h : ∀ a ∈ l, f a = 0) : tally f l = 0 := by
  induction l with
  | nil => rfl
  | cons a l ih =>
    rw [tally_cons, h a List.mem_cons_self, ih fun b hb => h b (List.mem_cons_of_mem _ hb)]

theorem le_tally (hi : l[i]? = some a) : f a ≤ tally f l := by
  induction l generalizing i with
  | nil => simp at hi
  | cons x l ih =>
    cases i with
    | zero =>
      obtain rfl : x = a := by simpa using hi
      simp
    | succ i =>
      have := ih (by simpa using hi)
      rw [tally_cons]
      omega

theorem add_le_tally {j : Nat} {b : α} (hi : l[i]? = some a) (hj : l[j]? = some b) (hij : i ≠ j) : f a + f b ≤ tally f l := by
  induction l generalizing i j with
  | nil => simp at hi
  | cons x l ih =>
    cases i with
    | zero =>
      obtain rfl : x = a := by simpa using hi
      cases j with
      | zero => exact absurd rfl hij
      | succ j =>
        have := le_tally (f := f) (l := l) (by simpa using hj)
        rw [tally_cons]
        omega
    | succ i =>
      cases j with
      | zero =>
        obtain rfl : x = b := by simpa using hj
        have := le_tally (f := f) (l := l) (by simpa using hi)
        rw [tally_cons]
        omega
      | succ j =>
        have := ih (by simpa using hi) (by simpa using hj) (by omega)
        rw [tally_cons]
        omega

end MmrTrader.Lib
