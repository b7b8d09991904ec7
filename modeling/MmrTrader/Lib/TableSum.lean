import Mathlib.Algebra.BigOperators.Group.List.Basic
import MmrTrader.Lib.Table

/-!
# Sums over the rows of a table

* `others` — the rows of the other keys.
* `sum_rows` — a sum over the rows is what the row of a key counts for, and what the others count for.
* `sum_upsert`, `sum_deleteKey` — the sum after a row was written or removed, also when the weights of its key change.
-/

namespace MmrTrader.Lib

namespace Table

variable {R K M : Type} {key : R → K} [DecidableEq K] [AddCommMonoid M]

def others (t : Table key) (k : K) : List R := t.rows.filter fun r => key r ≠ k

variable {t : Table key} {k : K}

theorem mem_others {r : R} : r ∈ t.others k ↔ r ∈ t.rows ∧ key r ≠ k := by
  simp [others]

theorem others_upsert (t : Table key) (row : R) : (t.upsert row).others (key row) = t.others (key row) := by
  unfold upsert
  split
  · rename_i t' h
    simp [others, (insert?_eq_some h).2]
  · have hpred : (fun r => decide (key r ≠ key row)) ∘ (fun r => if key r = key row then row else r) =
        fun r => decide (key r ≠ key row) := by
      funext r
      simp only [Function.comp]
      split <;> simp_all
    simp only [others, List.filter_map, hpred]
    calc _ = (t.rows.filter fun r => decide (key r ≠ key row)).map id :=
          List.map_congr_left fun r hr => if_neg (by simpa using (List.mem_filter.mp hr).2)
      _ = _ := List.map_id _

theorem others_deleteKey (t : Table key) (k : K) : (t.deleteWhere fun r => decide (key r = k)).others k = t.others k := by
  simp [others, deleteWhere]

theorem get?_deleteKey (t : Table key) (k k' : K) :
    (t.deleteWhere fun r => decide (key r = k)).get? k' = if k = k' then none else t.get? k' := by
  by_cases hk : k = k'
  · subst hk
    rw [if_pos rfl]
    exact get?_eq_none.mpr fun r hr => of_decide_eq_false (mem_deleteWhere.mp hr).2
  · rw [if_neg hk]
    cases hg : t.get? k' with
    | none =>
      exact get?_eq_none.mpr fun r hr => get?_eq_none.mp hg r (mem_deleteWhere.mp hr).1
    | some r =>
      obtain ⟨hr, hkey⟩ := get?_eq_some.mp hg
      exact get?_eq_some.mpr ⟨mem_deleteWhere.mpr ⟨hr, decide_eq_false fun h => hk (h.symm.trans hkey)⟩, hkey⟩

theorem sum_rows (t : Table key) (k : K) (f : R → M) :
    (t.rows.map f).sum = ((t.get? k).map f).getD 0 + ((t.others k).map f).sum := by
  obtain ⟨rows, nodup⟩ := t
  induction rows with
  | nil => simp [get?, others]
  | cons r rows ih =>
    have hrest := ih (List.nodup_cons.mp nodup).2
    simp only [get?, others] at hrest ⊢
    by_cases hk : key r = k
    · have hnone : ∀ s ∈ rows, decide (key s ≠ k) = true := fun s hs =>
        decide_eq_true fun h => (List.nodup_cons.mp nodup).1 (List.mem_map.mpr ⟨s, hs, h.trans hk.symm⟩)
      rw [List.filter_cons_of_neg (by simpa using hk), List.filter_eq_self.mpr hnone]
      simp [hk]
    · simp [hk, hrest, add_left_comm]

variable {f g : R → M}

theorem sum_others (h : ∀ r, key r ≠ k → f r = g r) : ((t.others k).map f).sum = ((t.others k).map g).sum :=
  congrArg List.sum (List.map_congr_left fun r hr => h r (mem_others.mp hr).2)

/-- A row is written. -/
theorem sum_upsert (t : Table key) (row : R) (h : ∀ r, key r ≠ key row → f r = g r) :
    ((t.upsert row).rows.map g).sum + ((t.get? (key row)).map f).getD 0 = (t.rows.map f).sum + g row := by
  rw [sum_rows (t.upsert row) (key row), sum_rows t (key row), others_upsert, get?_upsert, if_pos rfl, sum_others h]
  simp only [Option.map_some, Option.getD_some]
  ac_rfl

theorem sum_deleteKey (t : Table key) (k : K) (h : ∀ r, key r ≠ k → f r = g r) :
    ((t.deleteWhere fun r => decide (key r = k)).rows.map g).sum + ((t.get? k).map f).getD 0 = (t.rows.map f).sum := by
  rw [sum_rows (t.deleteWhere _) k, sum_rows t k, others_deleteKey, get?_deleteKey, if_pos rfl, sum_others h]
  simp only [Option.map_none, Option.getD_none, zero_add]
  exact add_comm _ _

end Table

end MmrTrader.Lib
