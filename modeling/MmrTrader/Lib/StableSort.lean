import Mathlib.Data.List.Sort

/-!
# Stable sorting

* `filter_insertionSort` — a stable sort leaves the elements that it cannot tell apart in their order.
* `eq_of_fibres` — a list sorted by a key is given by the elements of each key.
* `filter_append_of_sorted` — a sorted list begins with the elements up to a bound.
-/

namespace MmrTrader.Lib

variable {α κ : Type}

/-- The elements of `p` are all related, so the sort keeps them in their order. -/
theorem filter_insertionSort {r : α → α → Prop} [DecidableRel r] {p : α → Bool} (h : ∀ a b, p a = true → p b = true → r a b)
    (l : List α) : (l.insertionSort r).filter p = l.filter p := by
  have hrelated : (l.filter p).Pairwise r := by
    refine List.pairwise_iff_forall_sublist.mpr fun {a b} hab => ?_
    have ha : a ∈ l.filter p := hab.subset List.mem_cons_self
    have hb : b ∈ l.filter p := hab.subset (List.mem_cons_of_mem _ List.mem_cons_self)
    exact h a b (List.mem_filter.mp ha).2 (List.mem_filter.mp hb).2
  have hsub := (List.sublist_insertionSort hrelated List.filter_sublist).filter p
  rw [List.filter_filter] at hsub
  simp only [Bool.and_self] at hsub
  exact (hsub.eq_of_length ((List.perm_insertionSort r l).filter p).length_eq.symm).symm

variable [LinearOrder κ]
variable {l : List α}

theorem eq_of_fibres (key : α → κ) {l' : List α} (hl : l.Pairwise fun a b => key a ≤ key b) (hl' : l'.Pairwise fun a b => key a ≤ key b)
    (h : ∀ k, (l.filter fun a => key a = k) = l'.filter fun a => key a = k) : l = l' := by
  have hmem : ∀ a, a ∈ l ↔ a ∈ l' := by
    intro a
    have := congrArg (a ∈ ·) (h (key a))
    simpa using this
  induction l generalizing l' with
  | nil =>
    cases l' with
    | nil => rfl
    | cons b l' => simpa using (hmem b).mpr List.mem_cons_self
  | cons a l ih =>
    cases l' with
    | nil => simpa using (hmem a).mp List.mem_cons_self
    | cons b l' =>
      obtain ⟨ha, htail⟩ := List.pairwise_cons.mp hl
      obtain ⟨hb, htail'⟩ := List.pairwise_cons.mp hl'
      have hkey : key a = key b := by
        refine le_antisymm ?_ ?_
        · rcases List.mem_cons.mp ((hmem b).mpr List.mem_cons_self) with rfl | hmem
          · exact le_rfl
          · exact ha b hmem
        · rcases List.mem_cons.mp ((hmem a).mp List.mem_cons_self) with rfl | hmem
          · exact le_rfl
          · exact hb a hmem
      -- both heads are the first of their fibre
      have hhead := h (key a)
      rw [List.filter_cons_of_pos (by simp), List.filter_cons_of_pos (by simp [hkey])] at hhead
      obtain ⟨rfl, _⟩ := List.cons.inj hhead
      have hrest : ∀ k, (l.filter fun a => key a = k) = l'.filter fun a => key a = k := by
        intro k
        have hk := h k
        by_cases hak : key a = k
        · rw [List.filter_cons_of_pos (by simpa using hak), List.filter_cons_of_pos (by simpa using hak)] at hk
          exact (List.cons.inj hk).2
        · rwa [List.filter_cons_of_neg (by simpa using hak), List.filter_cons_of_neg (by simpa using hak)] at hk
      refine congrArg (a :: ·) (ih htail htail' hrest fun c => ?_)
      have := congrArg (c ∈ ·) (hrest (key c))
      simpa using this

theorem filter_append_of_sorted {key : α → κ} (hl : l.Pairwise fun a b => key a ≤ key b) (k : κ) :
    (l.filter fun a => key a ≤ k) ++ (l.filter fun a => ¬ key a ≤ k) = l := by
  induction l with
  | nil => rfl
  | cons a l ih =>
    obtain ⟨ha, hl⟩ := List.pairwise_cons.mp hl
    by_cases hk : key a ≤ k
    · rw [List.filter_cons_of_pos (by simpa using hk), List.filter_cons_of_neg (by simpa using hk), List.cons_append, ih hl]
    · have hnone : (l.filter fun a => decide (key a ≤ k)) = [] :=
        List.filter_eq_nil_iff.mpr fun b hb => by simpa using (lt_of_not_ge hk).trans_le (ha b hb)
      have hall : (l.filter fun a => decide (¬ key a ≤ k)) = l :=
        List.filter_eq_self.mpr fun b hb => by simpa using (lt_of_not_ge hk).trans_le (ha b hb)
      rw [List.filter_cons_of_neg (by simpa using hk), List.filter_cons_of_pos (by simpa using hk), hnone, hall]
      rfl

end MmrTrader.Lib
