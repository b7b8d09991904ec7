import Mathlib.Data.List.Nodup

/-!
# Append-only logs whose newest row is the state of its key

Rows are only appended; what is known of a key is its newest row.

* `lastOf` — `WHERE key = k ORDER BY entry_id DESC LIMIT 1`.
* `Absorbs` — a key with a row of some kind has a newest row of that kind.
* `Absorbs.append` — an append of that kind, or of a key without such a row, keeps it.
* `NoneAfter` — no row of one kind comes after a row of another kind of the same key.
-/

namespace MmrTrader.Lib

variable {R K : Type} [DecidableEq K] {key : R → K} {rows : List R} {r : R} {k : K}

def lastOf (key : R → K) (rows : List R) (k : K) : Option R := (rows.filter fun r => key r == k).getLast?

theorem lastOf_mem (h : lastOf key rows k = some r) : r ∈ rows ∧ key r = k := by
  obtain ⟨front, hfront⟩ := List.getLast?_eq_some_iff.mp h
  have hmem : r ∈ rows.filter fun r => key r == k := hfront ▸ List.mem_append_right _ (List.mem_singleton_self _)
  exact ⟨(List.mem_filter.mp hmem).1, beq_iff_eq.mp (List.mem_filter.mp hmem).2⟩

theorem lastOf_isSome (hr : r ∈ rows) (hk : key r = k) : ∃ a, lastOf key rows k = some a := by
  have hmem : r ∈ rows.filter fun r => key r == k := List.mem_filter.mpr ⟨hr, beq_iff_eq.mpr hk⟩
  exact Option.isSome_iff_exists.mp (by rw [lastOf, List.getLast?_isSome]; exact List.ne_nil_of_mem hmem)

theorem lastOf_append_self (hk : key r = k) : lastOf key (rows ++ [r]) k = some r := by
  unfold lastOf
  rw [List.filter_append, List.filter_singleton, beq_iff_eq.mpr hk, cond_true, List.getLast?_concat]

theorem lastOf_append_other (hk : key r ≠ k) : lastOf key (rows ++ [r]) k = lastOf key rows k := by
  unfold lastOf
  rw [List.filter_append, List.filter_singleton, beq_eq_false_iff_ne.mpr hk, cond_false, List.append_nil]

theorem lastOf_append {rows' : List R} : lastOf key (rows ++ rows') k = (lastOf key rows' k).or (lastOf key rows k) := by
  unfold lastOf
  rw [List.filter_append, List.getLast?_append]

theorem lastOf_eq_none : lastOf key rows k = none ↔ ∀ r ∈ rows, key r ≠ k := by
  simp [lastOf]

theorem lastOf_of_nodup (h : (rows.map key).Nodup) (hr : r ∈ rows) : lastOf key rows (key r) = some r := by
  obtain ⟨a, ha⟩ : ∃ a, lastOf key rows (key r) = some a := lastOf_isSome hr rfl
  obtain ⟨hmem, hk⟩ := lastOf_mem ha
  exact ha.trans (congrArg some (List.inj_on_of_nodup_map h hmem hr hk))

/-! ## Kinds of row that stay -/

variable {p : R → Bool}

/-- A key that has a row of kind `p`. -/
def Holds (key : R → K) (p : R → Bool) (rows : List R) (k : K) : Prop := ∃ a ∈ rows, key a = k ∧ p a = true

instance : Decidable (Holds key p rows k) := inferInstanceAs (Decidable (∃ a ∈ rows, key a = k ∧ p a = true))

/-- Every key with a row of kind `p` has a newest row of that kind. -/
def Absorbs (key : R → K) (p : R → Bool) (rows : List R) : Prop :=
  ∀ k, Holds key p rows k → ∃ r, lastOf key rows k = some r ∧ p r = true

theorem Absorbs.nil : Absorbs key p [] := fun _ ⟨_, ha, _⟩ => absurd ha List.not_mem_nil

theorem Absorbs.append (h : Absorbs key p rows) (hr : p r = true ∨ ¬ Holds key p rows (key r)) :
    Absorbs key p (rows ++ [r]) := by
  intro k hk
  by_cases hkey : key r = k
  · refine ⟨r, lastOf_append_self hkey, ?_⟩
    rcases hr with hr | hr
    · exact hr
    · obtain ⟨a, ha, hak, hp⟩ := hk
      rcases List.mem_append.mp ha with ha | ha
      · exact absurd ⟨a, ha, hak.trans hkey.symm, hp⟩ hr
      · rwa [← List.mem_singleton.mp ha]
  · rw [lastOf_append_other hkey]
    obtain ⟨a, ha, hak, hp⟩ := hk
    rcases List.mem_append.mp ha with ha | ha
    · exact h k ⟨a, ha, hak, hp⟩
    · exact absurd (List.mem_singleton.mp ha ▸ hak) hkey

/-- No row of kind `q` comes after a row of kind `p` of the same key. -/
def NoneAfter (key : R → K) (p q : R → Bool) (rows : List R) : Prop :=
  rows.Pairwise fun a b => key a = key b → p a = true → q b = false

omit [DecidableEq K] in
theorem NoneAfter.append {q : R → Bool} (h : NoneAfter key p q rows) (hr : q r = false ∨ ¬ Holds key p rows (key r)) :
    NoneAfter key p q (rows ++ [r]) := by
  refine List.pairwise_append.mpr ⟨h, List.pairwise_singleton _ _, fun a ha b hb hkey hp => ?_⟩
  obtain rfl := List.mem_singleton.mp hb
  rcases hr with hr | hr
  · exact hr
  · exact absurd ⟨a, ha, hkey, hp⟩ hr

end MmrTrader.Lib
