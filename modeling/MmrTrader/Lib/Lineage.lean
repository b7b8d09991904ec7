import MmrTrader.Lib.Table

/-!
# Lineages

An insert-only table where a row may name an earlier row as its parent.

* `ancestor` — follow the parents of a row.
* `Descends` — each parent is an earlier row with the same mark.
* `Descends.insert` — what a new row has to satisfy.
* `Descends.ancestor` — following the parents ends, at a row without a parent that has the same mark.
-/

namespace MmrTrader.Lib.Lineage

variable {R K T : Type} {key : R → K} (parent : R → Option K)

def Descends (key : R → K) (mark : R → T) (rows : List R) : Prop :=
  ∀ pre r post, rows = pre ++ r :: post → ∀ k, parent r = some k → ∃ p ∈ pre, key p = k ∧ mark p = mark r

variable {parent} {mark : R → T} {rows : List R} {r : R}

theorem Descends.nil : Descends parent key mark [] := by
  intro pre r post h
  simp at h

theorem Descends.append (h : Descends parent key mark rows)
    (hr : ∀ k, parent r = some k → ∃ p ∈ rows, key p = k ∧ mark p = mark r) :
    Descends parent key mark (rows ++ [r]) := by
  intro pre q post hsplit k hk
  rcases List.eq_nil_or_concat post with rfl | ⟨post', x, rfl⟩
  · obtain ⟨rfl, hq⟩ := List.append_inj' hsplit rfl
    cases hq
    exact hr k hk
  · have hrows : rows = pre ++ q :: post' := by
      have heq : rows ++ [r] = (pre ++ q :: post') ++ [x] := by simpa using hsplit
      exact (List.append_inj' heq rfl).1
    exact h pre q post' hrows k hk

variable [DecidableEq K] (parent)

/-- Follow the parents of `r`, at most `n` rows long. -/
def ancestor (t : Table key) : Nat → R → Option R
  | 0, _ => none
  | n + 1, r =>
    match parent r with
    | none => some r
    | some k => (t.get? k).bind (ancestor t n)

variable {parent} {t : Table key}

/-- **Following the parents of the `n`-th row ends after at most `n + 1` rows**, by induction on its place:
the parent comes earlier. -/
theorem Descends.ancestor_at (h : Descends parent key mark t.rows) (fuel : Nat) :
    ∀ pre r post, t.rows = pre ++ r :: post → pre.length < fuel →
      ∃ root ∈ t.rows, ancestor parent t fuel r = some root ∧ parent root = none ∧ mark root = mark r := by
  induction fuel with
  | zero => intro pre r post _ hlt; exact absurd hlt (Nat.not_lt_zero _)
  | succ fuel ih =>
    intro pre r post hsplit hlt
    unfold ancestor
    cases hp : parent r with
    | none => exact ⟨r, by rw [hsplit]; simp, rfl, hp, rfl⟩
    | some k =>
      obtain ⟨p, hmem, hkey, hmark⟩ := h pre r post hsplit k hp
      obtain ⟨pre', post', rfl⟩ := List.append_of_mem hmem
      have hrows : t.rows = pre' ++ p :: (post' ++ r :: post) := by simpa using hsplit
      have hlen : pre'.length < fuel := by
        simp only [List.length_append, List.length_cons] at hlt
        omega
      obtain ⟨root, hroot, hroot', hnone, hsame⟩ := ih pre' p _ hrows hlen
      have hget : t.get? k = some p := Table.get?_eq_some.mpr ⟨by rw [hrows]; simp, hkey⟩
      refine ⟨root, hroot, ?_, hnone, hsame.trans hmark⟩
      simp only [hget, Option.bind_some]
      exact hroot'

theorem Descends.ancestor (h : Descends parent key mark t.rows) (hr : r ∈ t.rows) :
    ∃ root ∈ t.rows, Lineage.ancestor parent t t.rows.length r = some root ∧ parent root = none ∧
      mark root = mark r := by
  obtain ⟨pre, post, hsplit⟩ := List.append_of_mem hr
  refine h.ancestor_at t.rows.length pre r post hsplit ?_
  rw [hsplit]
  simp

end MmrTrader.Lib.Lineage
