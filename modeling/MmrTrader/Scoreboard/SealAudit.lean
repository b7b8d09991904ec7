import Mathlib.Data.List.ReduceOption
import MmrTrader.Scoreboard.SealLaws

/-!
# What the audit finds

* `Change`, `Change.apply` — one change of the tables behind the writers' back.
* `verifies_ok`, `verifies_error` — the audit ends unless a sealed row holds a float that is not finite.
* `seals_accept_untouched_history` — **which changes the audit reports.**
-/

namespace MmrTrader.Scoreboard.SealedStore

open Lib Rpc

variable {F : Type} {H : Host F} {s s' : Store F} {t : SealedTable}

/-! ## Changes -/

inductive SealField where
  | tableName
  | rowKey
  | rowDigest
  | prevChain
  | chain
  deriving DecidableEq

def SealRow.get (x : SealRow) : SealField → String
  | .tableName => x.tableName
  | .rowKey => x.rowKey
  | .rowDigest => x.rowDigest
  | .prevChain => x.prevChain
  | .chain => x.chain

def SealRow.set (x : SealRow) (value : String) : SealField → SealRow
  | .tableName => { x with tableName := value }
  | .rowKey => { x with rowKey := value }
  | .rowDigest => { x with rowDigest := value }
  | .prevChain => { x with prevChain := value }
  | .chain => { x with chain := value }

inductive Change (F : Type) where
  | setCell (t : SealedTable) (key : List (Cell F)) (column : String) (value : Cell F)
  | deleteRow (t : SealedTable) (key : List (Cell F))
  | addRow (t : SealedTable) (row : Row F t)
  | setSeal (sealId : Nat) (field : SealField) (value : String)
  | deleteSeal (sealId : Nat)

def Change.setsNonFinite : Change F → Prop
  | .setCell _ _ _ value => value.finite = false
  | _ => False

def setColumn (t : SealedTable) (cells : List (Cell F)) (column : String) (value : Cell F) : List (Cell F) :=
  cells.set (((columns t).map Prod.fst).idxOf column) value

/-- The tables with these rows in one of them. -/
def Store.withRows (s : Store F) (t : SealedTable) (rows : Table (@Row.key F t)) : Store F :=
  { s with rows := Function.update s.rows t rows }

@[simp] theorem withRows_self (rows : Table (@Row.key F t)) : (s.withRows t rows).rows t = rows := Function.update_self _ _ _

theorem withRows_other (rows : Table (@Row.key F t)) {u : SealedTable} (hu : u ≠ t) : (s.withRows t rows).rows u = s.rows u :=
  Function.update_of_ne hu _ _

theorem keyColumns_subset : ∀ name ∈ keyColumns t, name ∈ (columns t).map Prod.fst := by
  cases t <;> decide

variable {column : String}

theorem keyCells_set {cells : List (Cell F)} (hlen : cells.length = (columns t).length) (value : Cell F)
    (h : column ∉ keyColumns t) : keyCells t (setColumn t cells column value) = keyCells t cells := by
  refine List.map_congr_left fun name hname => ?_
  obtain ⟨i, hi, hget⟩ := List.mem_iff_getElem.mp (keyColumns_subset name hname)
  rw [List.getElem_map] at hget
  have hi : i < (columns t).length := by simpa using hi
  have hlen' : (setColumn t cells column value).length = (columns t).length := by simp [setColumn, hlen]
  rw [← hget, cellOf_at hlen' hi (hlen' ▸ hi), cellOf_at hlen hi (hlen ▸ hi)]
  refine List.getElem_set_ne (fun heq => h ?_) _
  have hidx : ((columns t).map Prod.fst).idxOf column < ((columns t).map Prod.fst).length := by
    rw [heq]
    simpa using hi
  have hcolumn := List.getElem_idxOf hidx
  simp only [heq, List.getElem_map, hget] at hcolumn
  exact hcolumn ▸ hname

variable {value : Cell F}

theorem kind_of_not_finite {kind : ColumnKind} (h : value.finite = false) (hfits : value.fits kind = true) : kind = .DOUBLE := by
  cases value with
  | float d =>
    cases kind with
    | DOUBLE => rfl
    | _ => cases hfits
  | _ => cases h

theorem double_not_key : ∀ column ∈ columns t, column.2 = .DOUBLE → column.1 ∉ keyColumns t := by
  cases t <;> decide

variable {field : SealField}

theorem link_set (hsha : Function.Injective H.sha256) {x : SealRow} {value : String}
    (hne : x.get field ≠ value) (hchain : x.chain = link H x) : (x.set value field).chain ≠ link H (x.set value field) := by
  have hchanged := fun prev table key digest => @linkText_changed prev table key digest value
  cases field with
  | chain => exact fun heq => hne (hchain.trans heq.symm)
  | prevChain => exact fun heq => (hchanged _ _ _ _).1 (Ne.symm hne) (hsha (heq.symm.trans hchain))
  | tableName => exact fun heq => (hchanged _ _ _ _).2.1 (Ne.symm hne) (hsha (heq.symm.trans hchain))
  | rowKey => exact fun heq => (hchanged _ _ _ _).2.2.1 (Ne.symm hne) (hsha (heq.symm.trans hchain))
  | rowDigest => exact fun heq => (hchanged _ _ _ _).2.2.2 (Ne.symm hne) (hsha (heq.symm.trans hchain))

theorem set_sealId (x : SealRow) (field : SealField) (value : String) : (x.set value field).sealId = x.sealId := by
  cases field <;> rfl

/-! ## When the audit ends -/

variable [PyFloat F]

/-- The audit ends, and reports something. -/
def Reports (H : Host F) (s : Store F) : Prop := ∃ found, verifySeals H s = .ok found ∧ found ≠ []

theorem mem_all (t : SealedTable) : t ∈ SealedTable.all := by
  cases t <;> decide

def FiniteRows (s : Store F) : Prop :=
  ∀ t, ∀ row ∈ (s.rows t).rows, ∀ entry ∈ s.sealed.rows, entry.1 = (t.name, rowKey t row.cells) →
    ∀ c ∈ row.cells, c.finite = true

theorem verifyRow_ok (hfinite : FiniteRows s) {entry : (String × String) × String} (hentry : entry ∈ s.sealed.rows) :
    ∃ found, verifyRow H s t entry = .ok found := by
  unfold verifyRow
  split
  · exact ⟨none, rfl⟩
  · rename_i htable
    split
    · exact ⟨_, rfl⟩
    · rename_i key row hget
      obtain ⟨hmem, hkey⟩ := Table.get?_eq_some.mp hget
      obtain ⟨hrow, hrowKey⟩ := mem_live.mp hmem
      have hsame : entry.1 = (t.name, rowKey t row.cells) := Prod.ext (not_not.mp htable) (hkey.symm.trans hrowKey)
      rw [rowDigest_ok H row.wellTyped (hfinite t row hrow entry hentry hsame)]
      exact ⟨_, rfl⟩

theorem verifies_ok (hfinite : FiniteRows s) : ∃ found, verifySeals H s = .ok found := by
  have htable : ∀ t ∈ SealedTable.all, ∃ found, verifyTable H s t = .ok found := by
    intro t _
    obtain ⟨found, hfound⟩ := mapM_ok_of_forall fun entry hentry => verifyRow_ok (H := H) (t := t) hfinite hentry
    exact ⟨_, by rw [verifyTable, hfound]; rfl⟩
  obtain ⟨found, hfound⟩ := mapM_ok_of_forall htable
  exact ⟨_, by rw [verifySeals, hfound]; rfl⟩

variable {row : Row F t}

theorem verifies_error {entry : (String × String) × String} (hentry : entry ∈ s.sealed.rows)
    (hrow : row ∈ (s.rows t).rows) (hkey : entry.1 = (t.name, rowKey t row.cells)) {c : Cell F} (hc : c ∈ row.cells)
    (hnot : c.finite = false) : ∃ e, verifySeals H s = .error e := by
  obtain ⟨e, he⟩ := rowDigest_error H row.wellTyped hc hnot
  have hraise : verifyRow H s t entry = .error e := by
    rw [verifyRow, if_neg (not_not.mpr (congrArg Prod.fst hkey)), congrArg Prod.snd hkey, live_get? hrow]
    simp only [he]
    rfl
  obtain ⟨e₁, he₁⟩ := mapM_error hentry hraise
  have htable : verifyTable H s t = .error e₁ := by
    rw [verifyTable, he₁]
    rfl
  obtain ⟨e₂, he₂⟩ := mapM_error (mem_all t) htable
  exact ⟨e₂, by rw [verifySeals, he₂]; rfl⟩

/-! ## What is reported -/

theorem reports_broken (hok : ∃ found, verifySeals H s = .ok found) (h : brokenLink H s.fetchSeals 1 GENESIS ≠ none) :
    Reports H s := by
  obtain ⟨found, hfound⟩ := hok
  refine ⟨found, hfound, ?_⟩
  obtain ⟨tables, -, heq⟩ := map_ok hfound
  obtain ⟨m, hm⟩ := Option.ne_none_iff_exists'.mp h
  rw [← heq, hm]
  exact List.cons_ne_nil _ _

theorem reports_table (hok : ∃ found, verifySeals H s = .ok found)
    (h : ∀ found, verifyTable H s t = .ok found → found ≠ []) : Reports H s := by
  obtain ⟨found, hfound⟩ := hok
  refine ⟨found, hfound, ?_⟩
  obtain ⟨tables, htables, heq⟩ := map_ok hfound
  obtain ⟨mine, hmine, hverify⟩ := forall₂_right (mapM_ok htables) (mem_all t)
  have hne := h mine hverify
  rw [← heq]
  intro hnil
  have hflat := (List.append_eq_nil_iff.mp hnil).2
  exact hne (List.flatten_eq_nil_iff.mp hflat mine hmine)

theorem reports_row (hok : ∃ found, verifySeals H s = .ok found) {entry : (String × String) × String}
    (hentry : entry ∈ s.sealed.rows) {m : Mismatch} (h : verifyRow H s t entry = .ok (some m)) : Reports H s := by
  refine reports_table (t := t) hok fun found hfound => ?_
  obtain ⟨rows, hrows, heq⟩ := map_ok hfound
  obtain ⟨mine, hmine, hverify⟩ := forall₂_right (mapM_ok hrows) hentry
  obtain rfl : some m = mine := Except.ok.inj (h.symm.trans hverify)
  rw [← heq]
  have hmem : m ∈ rows.reduceOption := List.reduceOption_mem_iff.mpr hmine
  exact List.append_ne_nil_of_left_ne_nil (List.ne_nil_of_mem hmem) _

theorem reports_unsealed (hok : ∃ found, verifySeals H s = .ok found) (hrow : row ∈ (s.rows t).rows)
    (h : s.sealed.get? (t.name, rowKey t row.cells) = none) : Reports H s := by
  refine reports_table (t := t) hok fun found hfound => ?_
  obtain ⟨rows, -, heq⟩ := map_ok hfound
  have hmem : rowKey t row.cells ∈ s.unsealed t := by
    refine (List.perm_insertionSort _ _).mem_iff.mpr (List.mem_filter.mpr ⟨?_, by rw [h]; rfl⟩)
    exact List.mem_map.mpr ⟨(rowKey t row.cells, row), mem_live.mpr ⟨hrow, rfl⟩, rfl⟩
  rw [← heq]
  exact List.append_ne_nil_of_right_ne_nil _ (List.ne_nil_of_mem (List.mem_map_of_mem hmem))

theorem reports_missing (hok : ∃ found, verifySeals H s = .ok found) {entry : (String × String) × String}
    (hentry : entry ∈ s.sealed.rows) (htable : entry.1.1 = t.name)
    (h : ∀ row ∈ (s.rows t).rows, rowKey t row.cells ≠ entry.1.2) : Reports H s := by
  refine reports_row (t := t) hok hentry (m := ⟨"ROW_MISSING", t.name, entry.1.2, none⟩) ?_
  rw [verifyRow, if_neg (not_not.mpr htable), live_get?_none.mpr h]

theorem reports_edited (hok : ∃ found, verifySeals H s = .ok found) {entry : (String × String) × String}
    (hentry : entry ∈ s.sealed.rows) (hrow : row ∈ (s.rows t).rows)
    (hkey : entry.1 = (t.name, rowKey t row.cells)) {digest : String} (hdigest : rowDigest H t row.cells = .ok digest)
    (hne : digest ≠ entry.2) : Reports H s := by
  refine reports_row (t := t) hok hentry (m := ⟨"ROW_EDITED", t.name, entry.1.2, none⟩) ?_
  rw [verifyRow, if_neg (not_not.mpr (congrArg Prod.fst hkey)), congrArg Prod.snd hkey, live_get? hrow]
  simp only [hdigest, Except.map, if_pos hne]

theorem Inv.finite (h : Inv H s) (t : SealedTable) {row : Row F t} (hrow : row ∈ (s.rows t).rows) :
    ∀ c ∈ row.cells, c.finite = true := by
  obtain ⟨x, -, -, -, hdigest⟩ := h.ofRow t row hrow
  exact finite_of_rowDigest row.wellTyped hdigest

/-! ## Changed rows -/

variable {rows : Table (@Row.key F t)}

theorem Inv.finiteRows (h : Inv H s)
    (hrows : ∀ row ∈ rows.rows, (∃ entry ∈ s.sealed.rows, entry.1 = (t.name, rowKey t row.cells)) →
      ∀ c ∈ row.cells, c.finite = true) : FiniteRows (s.withRows t rows) := by
  intro u row hrow entry hentry hkey
  by_cases hu : u = t
  · subst hu
    rw [withRows_self] at hrow
    exact hrows row hrow ⟨entry, hentry, hkey⟩
  · rw [withRows_other rows hu] at hrow
    exact h.finite u hrow

theorem Inv.entry (h : Inv H s) {row : Row F t} (hrow : row ∈ (s.rows t).rows) :
    ∃ entry ∈ s.sealed.rows, entry.1 = (t.name, rowKey t row.cells) ∧ rowDigest H t row.cells = .ok entry.2 := by
  obtain ⟨x, hx, htable, hkey, hdigest⟩ := h.ofRow t row hrow
  exact ⟨_, h.mem_sealed hx, Prod.ext htable hkey, hdigest⟩

theorem Inv.row_of_entry (h : Inv H s) {entry : (String × String) × String} (hentry : entry ∈ s.sealed.rows)
    (htable : entry.1.1 = t.name) : ∃ row ∈ (s.rows t).rows, rowKey t row.cells = entry.1.2 := by
  rw [h.sealed_rows] at hentry
  obtain ⟨x, hx, rfl⟩ := List.mem_map.mp hentry
  obtain ⟨u, row, hrow, hu, hkey, -⟩ := h.ofSeal x hx
  obtain rfl : u = t := name_injective (hu.symm.trans htable)
  exact ⟨row, hrow, hkey.symm⟩

theorem Inv.finiteRows_of_rows (h : Inv H s) (seals : List SealRow) : FiniteRows { s with seals := seals } :=
  fun t _ hrow _ _ _ => h.finite t hrow

variable {changed : Row F t}

theorem reports_replaced (hsha : Function.Injective H.sha256) (h : Inv H s)
    (hrow : row ∈ (s.rows t).rows) (hne : changed.cells ≠ row.cells)
    (hmem : ∀ r, r ∈ rows.rows ↔ (r ∈ (s.rows t).rows ∧ r.key ≠ row.key) ∨ r = changed)
    (hfinite : ∀ c ∈ changed.cells, c.finite = true) : Reports H (s.withRows t rows) := by
  obtain ⟨entry, hentry, hkey, hdigest⟩ := h.entry hrow
  have hok : ∃ found, verifySeals H (s.withRows t rows) = .ok found := by
    refine verifies_ok (h.finiteRows fun r hr _ => ?_)
    rcases (hmem r).mp hr with ⟨hr, -⟩ | rfl
    · exact h.finite t hr
    · exact hfinite
  by_cases hsame : rowKey t changed.cells = rowKey t row.cells
  · have hchanged : changed ∈ ((s.withRows t rows).rows t).rows := by
      rw [withRows_self]
      exact (hmem changed).mpr (.inr rfl)
    refine reports_edited hok hentry hchanged (hsame ▸ hkey) (rowDigest_ok H changed.wellTyped hfinite) fun heq => hne ?_
    exact rowDigest_injective hsha changed.wellTyped row.wellTyped
      ((rowDigest_ok H changed.wellTyped hfinite).trans (congrArg Except.ok heq)) hdigest
  · refine reports_missing hok hentry (congrArg Prod.fst hkey) fun r hr heq => ?_
    rw [withRows_self] at hr
    rw [hkey] at heq
    rcases (hmem r).mp hr with ⟨-, hother⟩ | rfl
    · exact hother (rowKey_injective heq)
    · exact hsame heq

theorem not_reports_replaced (h : Inv H s)
    (hrow : row ∈ (s.rows t).rows) (hchanged : changed.cells = setColumn t row.cells column value)
    (hne : changed.cells ≠ row.cells) (hmem : changed ∈ rows.rows) (hnot : value.finite = false) :
    ¬ Reports H (s.withRows t rows) := by
  have hlen := length_of_fits row.wellTyped
  have hidx : ((columns t).map Prod.fst).idxOf column < (columns t).length := by
    by_contra hge
    refine hne (hchanged.trans (List.set_eq_of_length_le ?_))
    rw [hlen]
    exact Nat.le_of_not_lt hge
  have hidx' : ((columns t).map Prod.fst).idxOf column < ((columns t).map Prod.fst).length := by simpa using hidx
  have hname : ((columns t)[((columns t).map Prod.fst).idxOf column]).1 = column := by
    have hget := List.getElem_idxOf hidx'
    rwa [List.getElem_map] at hget
  have hvalue : value ∈ changed.cells := by
    rw [hchanged]
    exact List.mem_set (hlen.symm ▸ hidx) _
  have hdouble : ((columns t)[((columns t).map Prod.fst).idxOf column]).2 = .DOUBLE := by
    have hfits := cellOf_fits changed.wellTyped (List.getElem_mem hidx)
    have hlen' := length_of_fits changed.wellTyped
    rw [cellOf_at hlen' hidx (hlen' ▸ hidx)] at hfits
    simp only [hchanged, setColumn, List.getElem_set_self] at hfits
    exact kind_of_not_finite hnot hfits
  have hcolumn : column ∉ keyColumns t := hname ▸ double_not_key _ (List.getElem_mem hidx) hdouble
  have hkey : rowKey t changed.cells = rowKey t row.cells := by
    rw [rowKey, rowKey, hchanged, keyCells_set hlen value hcolumn]
  obtain ⟨entry, hentry, hentryKey, -⟩ := h.entry hrow
  obtain ⟨e, he⟩ := verifies_error (H := H) (s := s.withRows t rows) hentry (by rw [withRows_self]; exact hmem)
    (hentryKey.trans (by rw [hkey])) hvalue hnot
  rintro ⟨found, hfound, -⟩
  cases he.symm.trans hfound

variable [DecidableEq F]

/-- One change; `none` when there is nothing to change, or when the types or the key of a table refuse it. -/
def Change.apply (s : Store F) : Change F → Option (Store F)
  | .setCell t key column value => do
    let row ← (s.rows t).get? key
    let changed ← Row.ofCells? t (setColumn t row.cells column value)
    if changed.cells = row.cells then none
    else
      let rows ← ((s.rows t).deleteWhere fun r => r.key = key).insert? changed
      return s.withRows t rows
  | .deleteRow t key => do
    let _ ← (s.rows t).get? key
    return s.withRows t ((s.rows t).deleteWhere fun r => r.key = key)
  | .addRow t row => do
    let rows ← (s.rows t).insert? row
    return s.withRows t rows
  | .setSeal sealId field value => do
    let x ← s.seals.find? fun x => x.sealId = sealId
    if x.get field = value then none
    else return { s with seals := s.seals.map fun y => if y.sealId = sealId then y.set value field else y }
  | .deleteSeal sealId => do
    let last ← s.seals.getLast?
    if sealId = last.sealId ∨ sealId ∉ s.seals.map (fun x => x.sealId) then none
    else return { s with seals := s.seals.filter fun x => x.sealId ≠ sealId }

theorem reports_set (hsha : Function.Injective H.sha256) (h : Inv H s) {key : List (Cell F)}
    (happly : (Change.setCell t key column value).apply s = some s') : Reports H s' ↔ value.finite = true := by
  simp only [Change.apply, Option.bind_eq_bind, Option.bind_eq_some_iff] at happly
  obtain ⟨row, hget, changed, hchanged, happly⟩ := happly
  obtain ⟨hrow, hkey⟩ := Table.get?_eq_some.mp hget
  have hcells := cells_of_ofCells? hchanged
  split at happly
  · cases happly
  · rename_i hne
    obtain ⟨rows, hins, heq⟩ := Option.bind_eq_some_iff.mp happly
    cases heq
    have hmem : ∀ r, r ∈ rows.rows ↔ (r ∈ (s.rows t).rows ∧ r.key ≠ row.key) ∨ r = changed := by
      intro r
      rw [Table.mem_insert? hins, Table.mem_deleteWhere, decide_eq_false_iff_not, hkey]
    constructor
    · intro hreports
      by_contra hnot
      exact not_reports_replaced h hrow hcells hne ((hmem changed).mpr (.inr rfl)) (Bool.eq_false_of_not_eq_true hnot) hreports
    · intro hfinite
      refine reports_replaced hsha h hrow hne hmem fun c hc => ?_
      rw [hcells] at hc
      rcases List.mem_or_eq_of_mem_set hc with hc | rfl
      · exact h.finite t hrow c hc
      · exact hfinite

theorem reports_delete (h : Inv H s) {key : List (Cell F)} (happly : (Change.deleteRow t key).apply s = some s') :
    Reports H s' := by
  obtain ⟨row, hget, heq⟩ := Option.bind_eq_some_iff.mp happly
  cases heq
  obtain ⟨hrow, hkey⟩ := Table.get?_eq_some.mp hget
  obtain ⟨entry, hentry, hentryKey, -⟩ := h.entry hrow
  have hok : ∃ found, verifySeals H (s.withRows t ((s.rows t).deleteWhere fun r => r.key = key)) = .ok found :=
    verifies_ok (h.finiteRows fun r hr _ => h.finite t (Table.mem_deleteWhere.mp hr).1)
  refine reports_missing hok hentry (congrArg Prod.fst hentryKey) fun r hr heq => ?_
  rw [withRows_self] at hr
  rw [hentryKey] at heq
  obtain ⟨-, hother⟩ := Table.mem_deleteWhere.mp hr
  exact decide_eq_false_iff_not.mp hother ((rowKey_injective heq).trans hkey)

theorem reports_add (h : Inv H s) (happly : (Change.addRow t row).apply s = some s') : Reports H s' := by
  obtain ⟨rows, hins, heq⟩ := Option.bind_eq_some_iff.mp happly
  cases heq
  obtain ⟨hfresh, -⟩ := Table.insert?_eq_some hins
  have hnot : ∀ entry ∈ s.sealed.rows, entry.1 ≠ (t.name, rowKey t row.cells) := by
    intro entry hentry hkey
    obtain ⟨r, hr, hrKey⟩ := h.row_of_entry hentry (congrArg Prod.fst hkey)
    have hsame : rowKey t r.cells = rowKey t row.cells := hrKey.trans (congrArg Prod.snd hkey)
    exact Table.get?_eq_none.mp hfresh r hr (rowKey_injective hsame)
  have hok : ∃ found, verifySeals H (s.withRows t rows) = .ok found := by
    refine verifies_ok (h.finiteRows fun r hr hsealed => ?_)
    rcases (Table.mem_insert? hins).mp hr with hr | rfl
    · exact h.finite t hr
    · obtain ⟨entry, hentry, hkey⟩ := hsealed
      exact absurd hkey (hnot entry hentry)
  have hrow : row ∈ ((s.withRows t rows).rows t).rows := by
    rw [withRows_self]
    exact (Table.mem_insert? hins).mpr (.inr rfl)
  exact reports_unsealed hok hrow (Table.get?_eq_none.mpr hnot)

/-! ## Changed seals -/

variable {sealId : Nat}

theorem reports_setSeal (hsha : Function.Injective H.sha256) (h : Inv H s) {value : String}
    (happly : (Change.setSeal sealId field value).apply s = some s') : Reports H s' := by
  obtain ⟨x, hfind, happly⟩ := Option.bind_eq_some_iff.mp happly
  have hx := List.mem_of_find?_eq_some hfind
  have hid : x.sealId = sealId := by simpa using List.find?_some hfind
  split at happly
  · cases happly
  · rename_i hne
    cases happly
    refine reports_broken (verifies_ok (h.finiteRows_of_rows _)) fun hlinked => ?_
    have hids : (s.seals.map fun y => if y.sealId = sealId then y.set value field else y).map (fun y => y.sealId) =
        List.range' 1 (s.seals.map fun y => if y.sealId = sealId then y.set value field else y).length := by
      rw [List.map_map, List.length_map, ← ids_of_linked h.linked]
      refine List.map_congr_left fun y _ => ?_
      simp only [Function.comp]
      split
      · exact set_sealId y field value
      · rfl
    rw [fetchSeals_of_sorted (sorted_of_ids hids)] at hlinked
    have hmem : x.set value field ∈ s.seals.map fun y => if y.sealId = sealId then y.set value field else y :=
      List.mem_map.mpr ⟨x, hx, if_pos hid⟩
    exact link_set hsha hne (chain_of_linked h.linked x hx) (chain_of_linked hlinked _ hmem)

theorem reports_deleteSeal (h : Inv H s) (happly : (Change.deleteSeal sealId).apply s = some s') : Reports H s' := by
  obtain ⟨last, hlast, happly⟩ := Option.bind_eq_some_iff.mp happly
  split at happly
  · cases happly
  · rename_i hguard
    cases happly
    simp only [not_or, not_not] at hguard
    obtain ⟨hother, hthere⟩ := hguard
    refine reports_broken (verifies_ok (h.finiteRows_of_rows _)) fun hlinked => ?_
    have hids := ids_of_linked h.linked
    rw [fetchSeals_of_sorted ((sorted_of_ids hids).filter _)] at hlinked
    have hids' := ids_of_linked hlinked
    have hlastId : last.sealId = s.seals.length := by
      have hget := congrArg List.getLast? hids
      rw [List.getLast?_map, hlast, List.getLast?_range'] at hget
      split at hget
      · cases hget
      · rename_i hpos
        have hid : last.sealId = 1 + s.seals.length - 1 := by simpa using hget
        omega
    have hmem : last ∈ s.seals.filter fun x => x.sealId ≠ sealId :=
      List.mem_filter.mpr ⟨List.mem_of_getLast? hlast, by simpa using Ne.symm hother⟩
    have hlt : (s.seals.filter fun x => x.sealId ≠ sealId).length < s.seals.length := by
      obtain ⟨x, hx, hxid⟩ := List.mem_map.mp hthere
      exact List.length_filter_lt_length_iff_exists.mpr ⟨x, hx, by simpa using hxid⟩
    have hrange : last.sealId ∈ List.range' 1 (s.seals.filter fun x => x.sealId ≠ sealId).length :=
      hids' ▸ List.mem_map_of_mem hmem
    have hle := (List.mem_range'_1.mp hrange).2
    omega

/-- **The audit accepts what the writers left and reports every change, but one that puts a float that is not finite
into a sealed row.** -/
theorem seals_accept_untouched_history (H : Host F) (hsha : Function.Injective H.sha256) (calls : List (Call F)) :
    verifySeals H (run H calls) = .ok [] ∧
      (run H calls).seals.map (fun x => x.sealId) = List.range' 1 (run H calls).seals.length ∧
      (∀ call, AllOrNothing H (run H calls) call) ∧
      ∀ (change : Change F) (s : Store F), change.apply (run H calls) = some s → (Reports H s ↔ ¬ change.setsNonFinite) := by
  have hinv := inv_run H calls
  refine ⟨hinv.verifies, ids_of_linked hinv.linked, fun call => allOrNothing hinv call, fun change s happly => ?_⟩
  cases change with
  | setCell t key column value =>
    rw [reports_set hsha hinv happly, Change.setsNonFinite, Bool.not_eq_false]
  | deleteRow t key => exact iff_of_true (reports_delete hinv happly) id
  | addRow t row => exact iff_of_true (reports_add hinv happly) id
  | setSeal sealId field value => exact iff_of_true (reports_setSeal hsha hinv happly) id
  | deleteSeal sealId => exact iff_of_true (reports_deleteSeal hinv happly) id

/-- One float, enough for one amount. -/
inductive OneFloat where
  | one
  deriving DecidableEq

instance : PyFloat OneFloat where
  value _ := 1
  repr _ := "1.0".toList
  repr_injective f g _ := by cases f; cases g; rfl
  repr_chars _ := List.all_eq_true.mp (by decide)
  repr_marked _ := ⟨'.', by decide, .inl rfl⟩

def oneHost : Host OneFloat where
  floatOfInt _ := some .one
  floatOfDecimal _ := .nan
  repr _ := ""
  str _ := ""
  sha256 text := text
  sqlEq
    | .text s, .text s' => s = s'
    | _, _ => false
  accepts _ _ _ := true

def NOON : DateTime := ⟨⟨2026, 10, 6, 12, 0, 0, 0⟩, UTC, by decide, UTC_inRange⟩

def oneAdjustment : Mapping OneFloat :=
  [("adjustment_id", .text "a1"), ("experiment_id", .text "x1"), ("session_date", .date ⟨2026, 10, 6, by decide⟩),
    ("kind", .text "COMMISSION"), ("exec_id", .text "e1"), ("amount_usd", .float (.finite .one)), ("recorded_at", .aware NOON)]

def oneCall : Call OneFloat := .insertMany [("equity_adjustments", oneAdjustment)] ⟨NOON.wall, by decide⟩

theorem one_adjustment_audited : verifySeals oneHost (run oneHost [oneCall]) = .ok [] ∧
    ∃ s, (Change.deleteRow .equityAdjustments [.text "a1"]).apply (run oneHost [oneCall]) = some s ∧ Reports oneHost s := by
  have h := seals_accept_untouched_history oneHost Function.injective_id [oneCall]
  have hsome : ((Change.deleteRow .equityAdjustments [.text "a1"]).apply (run oneHost [oneCall])).isSome = true := by
    decide +kernel
  obtain ⟨s, happly⟩ := Option.isSome_iff_exists.mp hsome
  exact ⟨h.1, s, happly, (h.2.2.2 _ s happly).mpr id⟩

/-- The amount set to NaN: the audit raises, and reports nothing. -/
theorem nan_amount_unreported :
    ((Change.setCell .equityAdjustments [.text "a1"] "amount_usd" (.float .nan)).apply (run oneHost [oneCall])).map
      (verifySeals oneHost) = some (.error ⟨.TypeError, "a non-finite float cannot be sealed: nan"⟩) := by
  decide +kernel

end MmrTrader.Scoreboard.SealedStore
