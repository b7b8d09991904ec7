import Mathlib.Data.List.MinMax

/-!
# Append-only revisions

Rows of one key carry a revision; a new row takes the newest revision plus one, or 1.

* `newest` — `ORDER BY revision DESC LIMIT 1`; `nextRevision` — the number of the next row.
* `Numbered` — the revisions are 1, 2, … in the order of the rows; an append of the next revision keeps it.
-/

namespace MmrTrader.Lib

variable {R : Type} {revision : R → Nat} {rows : List R} {r : R}

def newest (revision : R → Nat) (rows : List R) : Option R := rows.argmax revision

def nextRevision (revision : R → Nat) (rows : List R) : Nat :=
  match newest revision rows with
  | none => 1
  | some r => revision r + 1

def Numbered (revision : R → Nat) (rows : List R) : Prop := rows.map revision = List.range' 1 rows.length

theorem newest_none (h : newest revision rows = none) : rows = [] := List.argmax_eq_none.mp h

theorem newest_mem (h : newest revision rows = some r) : r ∈ rows := List.argmax_mem h

theorem newest_le (h : newest revision rows = some r) {s : R} (hs : s ∈ rows) : revision s ≤ revision r :=
  List.le_of_mem_argmax hs h

theorem Numbered.nil : Numbered revision [] := rfl

theorem Numbered.newest_eq (hn : Numbered revision rows) (h : newest revision rows = some r) :
    revision r = rows.length := by
  have hmem := newest_mem h
  have hr : revision r ∈ List.range' 1 rows.length := hn ▸ List.mem_map_of_mem hmem
  have hpos := List.length_pos_of_mem hmem
  have hlast : rows.length ∈ rows.map revision := by
    rw [hn, List.mem_range'_1]
    omega
  obtain ⟨s, hs, hlen⟩ := List.mem_map.mp hlast
  have hle := newest_le h hs
  rw [List.mem_range'_1] at hr
  omega

theorem Numbered.nextRevision_eq (hn : Numbered revision rows) : nextRevision revision rows = rows.length + 1 := by
  unfold nextRevision
  cases h : newest revision rows with
  | none => rw [newest_none h]; rfl
  | some r => rw [← hn.newest_eq h]

theorem Numbered.append (hn : Numbered revision rows) (hr : revision r = nextRevision revision rows) :
    Numbered revision (rows ++ [r]) := by
  unfold Numbered
  rw [List.map_append, hn, List.length_append, List.length_singleton, List.range'_concat, List.map_singleton, hr,
    hn.nextRevision_eq, Nat.add_comm, Nat.one_mul]

theorem Numbered.newest_append (hn : Numbered revision rows) (hr : revision r = nextRevision revision rows) :
    newest revision (rows ++ [r]) = some r := by
  cases h : newest revision (rows ++ [r]) with
  | none => exact absurd (newest_none h) (by simp)
  | some s =>
    have hlen := (hn.append hr).newest_eq h
    rw [List.length_append, List.length_singleton] at hlen
    rcases List.mem_append.mp (newest_mem h) with hs | hs
    · have hin : revision s ∈ List.range' 1 rows.length := hn ▸ List.mem_map_of_mem hs
      rw [List.mem_range'_1] at hin
      omega
    · rw [List.mem_singleton.mp hs]

end MmrTrader.Lib

/-!
## Logs that lose a prefix

A log numbered 1, 2, … (`Numbered`) keeps the rows above a watermark; a reader takes pages of it.

* `above` — the rows above a mark; `page` — the first `limit` of them after a cursor.
* `mem_page` — a page holds every kept row up to its last one; `page_empty` — an empty page leaves none.
-/

namespace MmrTrader.Lib

variable {R : Type} {cursor : R → Nat} {rows : List R} {after limit : Nat} {r : R}

def above (cursor : R → Nat) (mark : Nat) (rows : List R) : List R := rows.filter fun r => mark < cursor r

/-- `WHERE cursor > after ORDER BY cursor LIMIT limit`, of rows in order. -/
def page (cursor : R → Nat) (after limit : Nat) (rows : List R) : List R := (above cursor after rows).take limit

def Ordered (cursor : R → Nat) (rows : List R) : Prop := rows.Pairwise fun r s => cursor r < cursor s

theorem mem_above {mark : Nat} : r ∈ above cursor mark rows ↔ r ∈ rows ∧ mark < cursor r := by
  rw [above, List.mem_filter, decide_eq_true_iff]

theorem Numbered.ordered (h : Numbered cursor rows) : Ordered cursor rows := by
  have hsorted : (rows.map cursor).Pairwise (· < ·) := h ▸ List.pairwise_lt_range'
  exact List.pairwise_map.mp hsorted

theorem Numbered.bounds (h : Numbered cursor rows) (hr : r ∈ rows) : 1 ≤ cursor r ∧ cursor r ≤ rows.length := by
  have hmem : cursor r ∈ List.range' 1 rows.length := h ▸ List.mem_map_of_mem hr
  rw [List.mem_range'_1] at hmem
  omega

theorem Numbered.mem_prefix_of {old : List R} (h : Numbered cursor rows) (hpre : old <+: rows) (hr : r ∈ rows)
    (hle : cursor r ≤ old.length) : r ∈ old := by
  obtain ⟨new, rfl⟩ := hpre
  rcases List.mem_append.mp hr with hr | hr
  · exact hr
  · unfold Numbered at h
    rw [List.map_append, List.length_append, ← List.range'_append_1] at h
    have hnew := (List.append_inj h (by simp)).2
    have hmem : cursor r ∈ List.range' (1 + old.length) new.length := hnew ▸ List.mem_map_of_mem hr
    rw [List.mem_range'_1] at hmem
    omega

theorem Ordered.above (h : Ordered cursor rows) (mark : Nat) : Ordered cursor (above cursor mark rows) := h.filter _

variable {l : R}

theorem mem_take_of_le (h : Ordered cursor rows) (hl : l ∈ rows.take limit) (hr : r ∈ rows)
    (hle : cursor r ≤ cursor l) : r ∈ rows.take limit := by
  rw [← List.take_append_drop limit rows] at hr h
  rcases List.mem_append.mp hr with hr | hr
  · exact hr
  · exact absurd ((List.pairwise_append.mp h).2.2 l hl r hr) (Nat.not_lt_of_le hle)

theorem mem_page (h : Ordered cursor rows) (hl : l ∈ page cursor after limit rows) (hr : r ∈ rows)
    (hafter : after < cursor r) (hle : cursor r ≤ cursor l) : r ∈ page cursor after limit rows :=
  mem_take_of_le (h.above after) hl (mem_above.mpr ⟨hr, hafter⟩) hle

theorem page_empty (hlimit : 1 ≤ limit) (h : page cursor after limit rows = []) (hr : r ∈ rows) : cursor r ≤ after := by
  have hnil : above cursor after rows = [] := by
    rcases List.take_eq_nil_iff.mp h with hzero | hnil
    · omega
    · exact hnil
  by_contra hlt
  have hmem : r ∈ above cursor after rows := mem_above.mpr ⟨hr, Nat.lt_of_not_le hlt⟩
  rw [hnil] at hmem
  cases hmem

theorem mem_of_page (hr : r ∈ page cursor after limit rows) : r ∈ rows ∧ after < cursor r :=
  mem_above.mp (List.mem_of_mem_take hr)

end MmrTrader.Lib
