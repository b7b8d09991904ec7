import MmrTrader.Scoreboard.SealedStore

/-!
# What a digest says

* `rowDigest_ok`, `rowDigest_error` — a row has a digest unless it holds a float that is not finite.
* `rowKey_injective` — rows of a table with the same key text have the same key.
* `chainDigest_changed` — another table, key, digest or predecessor is another link.
-/

namespace MmrTrader.Scoreboard.SealedStore

open Lib Lib.CanonicalJson Rpc

variable {F : Type} {t : SealedTable} {cells cells' : List (Cell F)}

/-! ## Columns -/

theorem columns_nodup (t : SealedTable) : ((columns t).map Prod.fst).Nodup := by
  cases t <;> decide

theorem length_of_fits (h : fits t cells = true) : cells.length = (columns t).length := by
  simp only [fits, Bool.and_eq_true, decide_eq_true_eq] at h
  exact h.1.1

theorem dict_names (h : fits t cells = true) : (dict t cells).map Prod.fst = (columns t).map Prod.fst := by
  rw [dict, List.map_fst_zip]
  simp [length_of_fits h]

theorem dict_cells (h : fits t cells = true) : (dict t cells).map Prod.snd = cells := by
  rw [dict, List.map_snd_zip]
  simp [length_of_fits h]

theorem dict_nodup (h : fits t cells = true) : ((dict t cells).map Prod.fst).Nodup := by
  rw [dict_names h]
  exact columns_nodup t

theorem mem_dict_of_mem (h : fits t cells = true) {cell : Cell F} (hcell : cell ∈ cells) :
    ∃ column, (column, cell) ∈ dict t cells := by
  rw [← dict_cells h] at hcell
  obtain ⟨⟨column, _⟩, hmem, rfl⟩ := List.mem_map.mp hcell
  exact ⟨column, hmem⟩

/-- A mapping is read by its names. -/
theorem lookup_of_mem {V : Type} {l : List (String × V)} (hl : (l.map Prod.fst).Nodup) {k : String} {v : V} (h : (k, v) ∈ l) :
    l.lookup k = some v := by
  induction l with
  | nil => cases h
  | cons entry rest ih =>
    obtain ⟨k', v'⟩ := entry
    rw [List.map_cons, List.nodup_cons] at hl
    rcases List.mem_cons.mp h with heq | hrest
    · cases heq
      simp
    · have hkey : k ∈ rest.map Prod.fst := List.mem_map.mpr ⟨_, hrest, rfl⟩
      have hne : k ≠ k' := by
        rintro rfl
        exact hl.1 hkey
      rw [List.lookup_cons, beq_false_of_ne hne]
      exact ih hl.2 hrest

variable {i : Nat}

theorem mem_dict_at (hi : i < (columns t).length) (hi' : i < cells.length) : (((columns t)[i]).1, cells[i]) ∈ dict t cells :=
  List.mem_iff_getElem.mpr ⟨i, by simpa [dict] using ⟨hi, hi'⟩, by simp [dict]⟩

theorem cellOf_at (hlen : cells.length = (columns t).length) (hi : i < (columns t).length) (hi' : i < cells.length) :
    cellOf t cells ((columns t)[i]).1 = cells[i] := by
  have hnodup : ((dict t cells).map Prod.fst).Nodup := by
    rw [dict, List.map_fst_zip (by simp [hlen])]
    exact columns_nodup t
  rw [cellOf, lookup_of_mem hnodup (mem_dict_at hi hi')]
  rfl

theorem cellOf_fits (h : fits t cells = true) {column : String × ColumnKind} (hcolumn : column ∈ columns t) :
    (cellOf t cells column.1).fits column.2 = true := by
  have hlen := length_of_fits h
  have htyped : (List.zipWith (fun column => Cell.fits column.2) (columns t) cells).all id = true := by
    simp only [fits, Bool.and_eq_true] at h
    exact h.1.2
  obtain ⟨i, hi, rfl⟩ := List.mem_iff_getElem.mp hcolumn
  have hi' : i < cells.length := hlen ▸ hi
  have hzip : Cell.fits (columns t)[i].2 cells[i] ∈ List.zipWith (fun column => Cell.fits column.2) (columns t) cells :=
    List.mem_iff_getElem.mpr ⟨i, by simpa using ⟨hi, hi'⟩, by rw [List.getElem_zipWith]⟩
  have htrue := List.all_eq_true.mp htyped _ hzip
  rw [cellOf_at hlen hi hi']
  exact htrue

theorem cellOf_key {row : Row F t} {column : String} (h : column ∈ keyColumns t) : (cellOf t row.cells column).isNull = false := by
  have hfits := row.wellTyped
  simp only [fits, Bool.and_eq_true, List.all_eq_true] at hfits
  have hcell := hfits.2 _ (List.mem_map_of_mem h)
  simpa using hcell

/-! ## Digests -/

theorem tagged_inj {tag tag' : String} {v w : Json (PyNumber F)} (h : tagged tag v = tagged tag' w) : tag = tag' ∧ v = w := by
  simpa [tagged, items] using h

theorem mem_sorted {entry : String × Cell F} :
    entry ∈ (dict t cells).insertionSort byName ↔ entry ∈ dict t cells := (List.perm_insertionSort _ _).mem_iff

section
variable [PyFloat F]

def Cell.json : Cell F → Json (PyNumber F)
  | .null => .null
  | .bool b => tagged "b" (.bool b)
  | .int n => tagged "i" (.num (.int n))
  | .float d => tagged "f" (.str d.repr)
  | .time t => tagged "t" (.str (String.ofList t.isoformat))
  | .date d => tagged "d" (.str (String.ofList d.isoformat))
  | .text s => tagged "s" (.str s)

variable {c : Cell F}

theorem Cell.canonical_eq (h : c.finite = true) : c.canonical = .ok c.json := by
  cases c with
  | float d =>
    cases d with
    | finite f => rfl
    | nan => cases h
    | infinite _ => cases h
  | _ => rfl

theorem Cell.canonical_error (h : c.finite = false) : ∃ e, c.canonical = .error e := by
  cases c with
  | float d =>
    cases d with
    | finite f => cases h
    | nan => exact ⟨_, rfl⟩
    | infinite _ => exact ⟨_, rfl⟩
  | _ => cases h

theorem sortKeys_json (c : Cell F) : sortKeys c.json = c.json := by
  cases c <;> rfl

variable {d : Cell F}

theorem Cell.json_inj (hc : c.finite = true) (hd : d.finite = true) (h : c.json = d.json) : c = d := by
  cases c with
  | null => cases d <;> first | rfl | exact absurd h (by simp [Cell.json, tagged])
  | bool b =>
    cases d with
    | bool b' => simpa [Cell.json] using (tagged_inj h).2
    | null => exact absurd h (by simp [Cell.json, tagged])
    | _ => exact absurd (tagged_inj h).1 (by decide)
  | int n =>
    cases d with
    | int n' => simpa [Cell.json] using (tagged_inj h).2
    | null => exact absurd h (by simp [Cell.json, tagged])
    | _ => exact absurd (tagged_inj h).1 (by decide)
  | float x =>
    cases d with
    | float y =>
      cases x with
      | finite f =>
        cases y with
        | finite g =>
          have hrepr : PyFloat.repr f = PyFloat.repr g := by
            have htext := (tagged_inj h).2
            simp only [Double.repr, Node.str.injEq] at htext
            exact String.ofList_injective htext
          rw [PyFloat.repr_injective f g hrepr]
        | nan => cases hd
        | infinite _ => cases hd
      | nan => cases hc
      | infinite _ => cases hc
    | null => exact absurd h (by simp [Cell.json, tagged])
    | _ => exact absurd (tagged_inj h).1 (by decide)
  | text s =>
    cases d with
    | text s' => simpa using (tagged_inj h).2
    | null => exact absurd h (by simp [Cell.json, tagged])
    | _ => exact absurd (tagged_inj h).1 (by decide)
  | date x =>
    cases d with
    | date y =>
      have htext := String.ofList_injective (Node.str.inj (tagged_inj h).2)
      rw [CivilDate.isoformat_injective htext]
    | null => exact absurd h (by simp [Cell.json, tagged])
    | _ => exact absurd (tagged_inj h).1 (by decide)
  | time x =>
    cases d with
    | time y =>
      have htext := String.ofList_injective (Node.str.inj (tagged_inj h).2)
      rw [UtcTime.isoformat_injective htext]
    | null => exact absurd h (by simp [Cell.json, tagged])
    | _ => exact absurd (tagged_inj h).1 (by decide)

/-- The object of a row. -/
def members (t : SealedTable) (cells : List (Cell F)) : List (String × Json (PyNumber F)) :=
  ((dict t cells).insertionSort byName).map fun entry => (entry.1, entry.2.json)

theorem rowDigest_ok (H : Host F) (hfits : fits t cells = true) (h : ∀ c ∈ cells, c.finite = true) :
    rowDigest H t cells = .ok (H.sha256 (canonicalWith ascii (.object (fields (members t cells))))) := by
  have hcanon : ((dict t cells).insertionSort byName).mapM canonicalEntry = .ok (members t cells) := by
    refine mapM_eq_ok fun entry hentry => ?_
    have hmem : entry.2 ∈ cells := by
      rw [← dict_cells hfits]
      exact List.mem_map_of_mem (mem_sorted.mp hentry)
    rw [canonicalEntry, Cell.canonical_eq (h _ hmem)]
    rfl
  rw [rowDigest, hcanon]
  rfl

theorem rowDigest_error (H : Host F) (hfits : fits t cells = true) (hc : c ∈ cells) (h : c.finite = false) :
    ∃ e, rowDigest H t cells = .error e := by
  obtain ⟨column, hmem⟩ := mem_dict_of_mem hfits hc
  obtain ⟨e, he⟩ := Cell.canonical_error h
  have hentry : canonicalEntry (column, c) = .error e := by rw [canonicalEntry, he]; rfl
  obtain ⟨e', he'⟩ := mapM_error (mem_sorted.mpr hmem) hentry
  exact ⟨e', by rw [rowDigest, he']; rfl⟩

variable {digest : String}
variable {H : Host F}

theorem finite_of_rowDigest (hfits : fits t cells = true)
    (h : rowDigest H t cells = .ok digest) : ∀ c ∈ cells, c.finite = true := by
  intro c hc
  by_contra hnot
  obtain ⟨e, he⟩ := rowDigest_error H hfits hc (Bool.eq_false_of_not_eq_true hnot)
  cases he.symm.trans h

theorem members_names (hfits : fits t cells = true) : ((members t cells).map Prod.fst).Nodup := by
  rw [members, List.map_map]
  exact ((List.perm_insertionSort _ _).map Prod.fst).nodup_iff.mpr (dict_nodup hfits)

/-- An object is read by its names. -/
theorem get?_fields {N : Type} {l : List (String × Json N)} (hl : (l.map Prod.fst).Nodup) {k : String} {v : Json N}
    (h : (k, v) ∈ l) : get? k (fields l) = some v := by
  induction l with
  | nil => cases h
  | cons entry rest ih =>
    obtain ⟨k', v'⟩ := entry
    rw [List.map_cons, List.nodup_cons] at hl
    rcases List.mem_cons.mp h with heq | hrest
    · cases heq
      simp [fields, get?]
    · have hkey : k ∈ rest.map Prod.fst := List.mem_map.mpr ⟨_, hrest, rfl⟩
      have hne : k' ≠ k := by
        rintro rfl
        exact hl.1 hkey
      rw [fields, get?, if_neg hne]
      exact ih hl.2 hrest

theorem get?_members (hfits : fits t cells = true) {column : String} (h : (column, c) ∈ dict t cells) :
    get? column (sortKeys (fields (members t cells))) = some c.json := by
  have hmem : (column, c.json) ∈ members t cells := List.mem_map_of_mem (mem_sorted.mpr h)
  rw [get?_sortKeys, get?_fields (members_names hfits) hmem, Option.map_some, sortKeys_json]

/-- **A digest determines its row.** -/
theorem rowDigest_injective (hsha : Function.Injective H.sha256) (hfits : fits t cells = true)
    (hfits' : fits t cells' = true) (h : rowDigest H t cells = .ok digest)
    (h' : rowDigest H t cells' = .ok digest) : cells = cells' := by
  have hfinite := finite_of_rowDigest hfits h
  have hfinite' := finite_of_rowDigest hfits' h'
  rw [rowDigest_ok H hfits hfinite] at h
  rw [rowDigest_ok H hfits' hfinite', ← h] at h'
  have htext := hsha (Except.ok.inj h')
  have hsort : sortKeys (fields (members t cells')) = sortKeys (fields (members t cells)) := by
    have hobject := canonicalWith_injective htext
    simpa [sortKeys] using hobject
  have hcell : ∀ column c c', (column, c) ∈ dict t cells → (column, c') ∈ dict t cells' → c = c' := by
    intro column c c' hc hc'
    have hjson := (get?_members hfits hc).symm.trans (hsort ▸ get?_members hfits' hc')
    have hmem : c ∈ cells := dict_cells hfits ▸ List.mem_map_of_mem hc
    have hmem' : c' ∈ cells' := dict_cells hfits' ▸ List.mem_map_of_mem hc'
    exact Cell.json_inj (hfinite c hmem) (hfinite' c' hmem') (Option.some.inj hjson)
  refine List.ext_getElem ((length_of_fits hfits).trans (length_of_fits hfits').symm) fun i hi hi' => ?_
  have hlen : i < (columns t).length := length_of_fits hfits ▸ hi
  refine hcell ((columns t)[i]).1 _ _ ?_ ?_
  · exact mem_dict_at hlen hi
  · exact mem_dict_at hlen hi'

/-! ## Keys -/

variable {kind : ColumnKind}

theorem Cell.str_inj (hkind : kind = .VARCHAR ∨ kind = .INTEGER ∨ kind = .DATE)
    (hc : c.fits kind = true) (hd : d.fits kind = true) (hnull : c.isNull = false) (hnull' : d.isNull = false)
    (h : c.str = d.str) : c = d := by
  rcases hkind with rfl | rfl | rfl
  · cases c <;> cases d <;> simp_all [Cell.fits, Cell.isNull, Cell.str]
  · cases c <;> cases d <;> simp_all [Cell.fits, Cell.isNull, Cell.str]
    exact intText_injective (String.ofList_injective h)
  · cases c <;> cases d <;> simp_all [Cell.fits, Cell.isNull, Cell.str]
    exact CivilDate.isoformat_injective (String.ofList_injective h)

theorem length_date (hc : c.fits .DATE = true) (hnull : c.isNull = false) : c.str.toList.length = 10 := by
  cases c <;> simp_all [Cell.fits, Cell.isNull, Cell.str, CivilDate.length_isoformat]

/-- The date at the end has a fixed length, so a key of two columns is cut in one way. -/
theorem pair_inj (hkind : kind = .VARCHAR ∨ kind = .INTEGER ∨ kind = .DATE) {a b : Cell F}
    (ha : a.fits kind = true ∧ a.isNull = false) (hb : b.fits kind = true ∧ b.isNull = false)
    (hc : c.fits .DATE = true ∧ c.isNull = false) (hd : d.fits .DATE = true ∧ d.isNull = false)
    (h : "|".intercalate [a.str, c.str] = "|".intercalate [b.str, d.str]) : a = b ∧ c = d := by
  have hlist : (a.str.toList ++ ['|']) ++ c.str.toList = (b.str.toList ++ ['|']) ++ d.str.toList := by
    have hjoin : ∀ x y : String, "|".intercalate [x, y] = x ++ "|" ++ y := fun _ _ => rfl
    have htext := congrArg String.toList h
    simpa [hjoin] using htext
  obtain ⟨hleft, hright⟩ := List.append_inj' hlist ((length_date hc.1 hc.2).trans (length_date hd.1 hd.2).symm)
  have hfirst := String.toList_injective (List.append_cancel_right hleft)
  exact ⟨Cell.str_inj hkind ha.1 hb.1 ha.2 hb.2 hfirst,
    Cell.str_inj (.inr (.inr rfl)) hc.1 hd.1 hc.2 hd.2 (String.toList_injective hright)⟩

variable {row row' : Row F t}

theorem key_single (column : String × ColumnKind)
    (hkind : column.2 = .VARCHAR ∨ column.2 = .INTEGER ∨ column.2 = .DATE) (hkey : keyColumns t = [column.1])
    (hcolumn : column ∈ columns t) (h : rowKey t row.cells = rowKey t row'.cells) : row.key = row'.key := by
  have hmem : column.1 ∈ keyColumns t := by simp [hkey]
  simp only [Row.key, rowKey, keyCells, hkey, List.map_cons, List.map_nil] at h ⊢
  rw [Cell.str_inj hkind (cellOf_fits row.wellTyped hcolumn) (cellOf_fits row'.wellTyped hcolumn) (cellOf_key hmem)
    (cellOf_key hmem) h]

theorem key_pair (column date : String × ColumnKind)
    (hkind : column.2 = .VARCHAR ∨ column.2 = .INTEGER ∨ column.2 = .DATE) (hdate : date.2 = .DATE)
    (hkey : keyColumns t = [column.1, date.1]) (hcolumn : column ∈ columns t) (hmem : date ∈ columns t)
    (h : rowKey t row.cells = rowKey t row'.cells) : row.key = row'.key := by
  have hfirst : column.1 ∈ keyColumns t := by simp [hkey]
  have hsecond : date.1 ∈ keyColumns t := by simp [hkey]
  have hfits : ∀ row : Row F t, (cellOf t row.cells date.1).fits .DATE = true := fun row =>
    hdate ▸ cellOf_fits row.wellTyped hmem
  simp only [Row.key, rowKey, keyCells, hkey, List.map_cons, List.map_nil] at h ⊢
  obtain ⟨h1, h2⟩ := pair_inj hkind ⟨(cellOf_fits row.wellTyped hcolumn), cellOf_key hfirst⟩
    ⟨(cellOf_fits row'.wellTyped hcolumn), cellOf_key hfirst⟩ ⟨hfits row, cellOf_key hsecond⟩
    ⟨hfits row', cellOf_key hsecond⟩ h
  rw [h1, h2]

/-- **The text of a key determines the key.** -/
theorem rowKey_injective (h : rowKey t row.cells = rowKey t row'.cells) : row.key = row'.key := by
  cases t with
  | equityDaily =>
    exact key_pair ("experiment_id", .VARCHAR) ("session_date", .DATE) (.inl rfl) rfl rfl (by decide) (by decide) h
  | equityAdjustments => exact key_single ("adjustment_id", .VARCHAR) (.inl rfl) rfl (by decide) h
  | benchmarkVersions => exact key_single ("version", .INTEGER) (.inr (.inl rfl)) rfl (by decide) h
  | benchmarkPrices =>
    exact key_pair ("version", .INTEGER) ("bar_date", .DATE) (.inr (.inl rfl)) rfl rfl (by decide) (by decide) h
  | aiCosts => exact key_single ("record_id", .VARCHAR) (.inl rfl) rfl (by decide) h
  | simulatedDecisions => exact key_single ("record_id", .VARCHAR) (.inl rfl) rfl (by decide) h
  | simulatedOutcomes => exact key_single ("record_id", .VARCHAR) (.inl rfl) rfl (by decide) h
  | shadowResults => exact key_single ("record_id", .VARCHAR) (.inl rfl) rfl (by decide) h

/-! ## Links -/

def linkText (prev table key digest : String) : String := prev ++ "|" ++ table ++ "|" ++ key ++ "|" ++ digest

theorem linkText_changed {prev table key : String} {x : String} :
    (x ≠ prev → linkText x table key digest ≠ linkText prev table key digest) ∧
      (x ≠ table → linkText prev x key digest ≠ linkText prev table key digest) ∧
      (x ≠ key → linkText prev table x digest ≠ linkText prev table key digest) ∧
      (x ≠ digest → linkText prev table key x ≠ linkText prev table key digest) := by
  refine ⟨fun hne h => hne ?_, fun hne h => hne ?_, fun hne h => hne ?_, fun hne h => hne ?_⟩ <;>
  · simpa [linkText, String.append_left_inj, String.append_right_inj] using h

end

end MmrTrader.Scoreboard.SealedStore
