import MmrTrader.Scoreboard.SealDigests

/-!
# The seals of the writers

* `Inv` — the chain holds, and rows and seals belong to each other.
* `AllOrNothing`, `allOrNothing` — a call writes all its rows with their seals or nothing.
* `Inv.verifies` — the audit finds nothing.
-/

namespace MmrTrader.Scoreboard.SealedStore

open Lib Rpc

variable {F : Type} {H : Host F} {s s' : Store F} {t : SealedTable}

/-! ## Dicts -/

section
variable {K V : Type} [DecidableEq K]

theorem foldl_upsert_rows (l : List (K × V)) (d : Table (@Prod.fst K V)) (h : ((d.rows ++ l).map Prod.fst).Nodup) :
    (l.foldl Table.upsert d).rows = d.rows ++ l := by
  induction l generalizing d with
  | nil => simp
  | cons entry l ih =>
    have hfresh : d.get? entry.1 = none := by
      refine Table.get?_eq_none.mpr fun r hr heq => ?_
      rw [List.map_append, List.nodup_append] at h
      exact h.2.2 r.1 (List.mem_map_of_mem hr) entry.1 List.mem_cons_self heq
    have hrows := Table.rows_upsert hfresh
    rw [List.foldl_cons, ih _ (by rw [hrows]; simpa using h), hrows]
    simp

theorem dictOf_rows {l : List (K × V)} (h : (l.map Prod.fst).Nodup) : (dictOf l).rows = l :=
  foldl_upsert_rows l Table.empty h

end

/-! ## The chain -/

def lastChain (prev : String) (seals : List SealRow) : String := seals.getLast?.elim prev fun x => x.chain

def link (H : Host F) (x : SealRow) : String := chainDigest H x.prevChain x.tableName x.rowKey x.rowDigest

variable {x : SealRow} {n : Nat} {prev : String}
variable {rest : List SealRow}

theorem brokenLink_cons :
    brokenLink H (x :: rest) n prev = none ↔
      (x.sealId = n ∧ x.prevChain = prev ∧ x.chain = link H x) ∧ brokenLink H rest (n + 1) x.chain = none := by
  rw [brokenLink]
  split
  · rename_i hbroken
    refine ⟨nofun, fun h => ?_⟩
    obtain ⟨⟨hid, hprev, hchain⟩, -⟩ := h
    rcases hbroken with h | h | h
    · exact absurd hid h
    · exact absurd hprev h
    · exact absurd hchain h
  · rename_i hbroken
    simp only [not_or, not_not] at hbroken
    exact ⟨fun h => ⟨hbroken, h⟩, fun h => h.2⟩

theorem lastChain_cons : lastChain prev (x :: rest) = lastChain x.chain rest := by
  cases rest with
  | nil => rfl
  | cons y rest =>
    rw [lastChain, lastChain, List.getLast?_cons_cons]
    cases h : (y :: rest).getLast? with
    | none => simp at h
    | some last => rfl

variable {l : List SealRow}

theorem lastChain_concat : lastChain prev (l ++ [x]) = x.chain := by
  simp [lastChain]

theorem brokenLink_append {l' : List SealRow} :
    brokenLink H (l ++ l') n prev = none ↔
      brokenLink H l n prev = none ∧ brokenLink H l' (n + l.length) (lastChain prev l) = none := by
  induction l generalizing n prev with
  | nil => simp [brokenLink, lastChain]
  | cons x l ih =>
    rw [List.cons_append, brokenLink_cons, brokenLink_cons, ih, lastChain_cons, List.length_cons, Nat.add_right_comm n 1,
      Nat.add_assoc n, and_assoc (c := brokenLink H l' _ _ = none)]

theorem ids_of_linked (h : brokenLink H l n prev = none) : l.map (fun x => x.sealId) = List.range' n l.length := by
  induction l generalizing n prev with
  | nil => rfl
  | cons x l ih =>
    obtain ⟨⟨hid, -, -⟩, hrest⟩ := brokenLink_cons.mp h
    rw [List.map_cons, List.length_cons, List.range'_succ, ih hrest, hid]

theorem sorted_of_ids (h : l.map (fun x => x.sealId) = List.range' 1 l.length) : l.Pairwise fun a b => a.sealId ≤ b.sealId := by
  have hsorted : (l.map fun x => x.sealId).Pairwise (· ≤ ·) := by
    rw [h]
    exact List.pairwise_le_range'
  exact List.pairwise_map.mp hsorted

theorem fetchSeals_of_sorted (h : s.seals.Pairwise fun a b => a.sealId ≤ b.sealId) : s.fetchSeals = s.seals :=
  h.insertionSort_eq

theorem chain_of_linked (h : brokenLink H l n prev = none) : ∀ x ∈ l, x.chain = link H x := by
  induction l generalizing n prev with
  | nil => nofun
  | cons y l ih =>
    obtain ⟨⟨-, -, hchain⟩, hrest⟩ := brokenLink_cons.mp h
    intro x hx
    rcases List.mem_cons.mp hx with rfl | hx
    · exact hchain
    · exact ih hrest x hx

/-! ## Inserts -/

variable {row : Row F t}

theorem cells_of_ofCells? {cells : List (Cell F)} (h : Row.ofCells? t cells = some row) : row.cells = cells := by
  unfold Row.ofCells? at h
  split at h
  · cases h
    rfl
  · cases h

/-- The prepared rows and one seal for each, in their order, and nothing else. -/
structure Written (prepared : List (Prepared F)) (s s' : Store F) : Prop where
  rows : ∀ t, (s'.rows t).rows.map Row.cells =
    (s.rows t).rows.map Row.cells ++ (prepared.filter fun p => p.table = t).map fun p => p.cells
  seals : ∃ news, s'.seals = s.seals ++ news ∧
    news.map (fun x => (x.tableName, x.rowKey, x.rowDigest)) = prepared.map fun p => (p.table.name, p.key, p.digest)

theorem Written.nil : Written [] s s := ⟨by simp, [], by simp⟩

section
variable [DecidableEq F]

/-- What an `INSERT` does. -/
structure Inserted (s s' : Store F) (t : SealedTable) (row : Row F t) : Prop where
  fresh : (s.rows t).get? row.key = none
  rows : (s'.rows t).rows = (s.rows t).rows ++ [row]
  others : ∀ u, u ≠ t → s'.rows u = s.rows u
  seals : s'.seals = s.seals

theorem insertRow_ok {cells : List (Cell F)} (h : insertRow H s t cells = .ok s') :
    ∃ row : Row F t, row.cells = cells ∧ Inserted s s' t row := by
  unfold insertRow at h
  split at h
  · cases h
  · rename_i row hrow
    split at h
    · split at h
      · cases h
      · rename_i rows hins
        cases h
        obtain ⟨hfresh, hrows⟩ := Table.insert?_eq_some hins
        exact ⟨row, cells_of_ofCells? hrow, hfresh, by simpa using hrows, fun u hu => Function.update_of_ne hu _ _, rfl⟩
    · cases h

theorem Inserted.mem {row : Row F t} (h : Inserted s s' t row) {u : SealedTable} {r : Row F u} :
    r ∈ (s'.rows u).rows ↔ r ∈ (s.rows u).rows ∨ ∃ e : u = t, e ▸ r = row := by
  by_cases hu : u = t
  · subst hu
    rw [h.rows]
    simp
  · rw [h.others u hu]
    simp [hu]

theorem Written.cons {p : Prepared F} {rest : List (Prepared F)} {row : Row F p.table} (hcells : row.cells = p.cells)
    (hrow : Inserted s s' p.table row) {x : SealRow} (hx : (x.tableName, x.rowKey, x.rowDigest) = (p.table.name, p.key, p.digest))
    {u : Store F} (h : Written rest { s' with seals := s'.seals ++ [x] } u) : Written (p :: rest) s u where
  rows t := by
    rw [h.rows t]
    by_cases ht : p.table = t
    · subst ht
      rw [List.filter_cons_of_pos (by simp), hrow.rows]
      simp [hcells]
    · rw [List.filter_cons_of_neg (by simpa using ht), hrow.others t (Ne.symm ht)]
  seals := by
    obtain ⟨news, hseals, hcontent⟩ := h.seals
    refine ⟨x :: news, ?_, ?_⟩
    · rw [hseals, hrow.seals]
      simp
    · rw [List.map_cons, List.map_cons, hx, hcontent]

end

/-! ## Rows and their seals -/

variable [PyFloat F]

theorem name_injective {t u : SealedTable} (h : t.name = u.name) : t = u := by
  cases t <;> cases u <;> first | rfl | exact absurd h (by decide)

def SealRow.Of (H : Host F) (x : SealRow) (t : SealedTable) (row : Row F t) : Prop :=
  x.tableName = t.name ∧ x.rowKey = rowKey t row.cells ∧ rowDigest H t row.cells = .ok x.rowDigest

structure Inv (H : Host F) (s : Store F) : Prop where
  linked : brokenLink H s.seals 1 GENESIS = none
  ofSeal : ∀ x ∈ s.seals, ∃ t, ∃ row ∈ (s.rows t).rows, x.Of H t row
  ofRow : ∀ t, ∀ row ∈ (s.rows t).rows, ∃ x ∈ s.seals, x.Of H t row
  distinct : (s.seals.map fun x => (x.tableName, x.rowKey)).Nodup

theorem Inv.empty : Inv H Store.empty where
  linked := rfl
  ofSeal := nofun
  ofRow _ := nofun
  distinct := List.nodup_nil

theorem Inv.fetchSeals (h : Inv H s) : s.fetchSeals = s.seals := fetchSeals_of_sorted (sorted_of_ids (ids_of_linked h.linked))

/-! ## What the audit reads -/

theorem liveEntries_nodup (table : Table (@Row.key F t)) : ((liveEntries table.rows).map Prod.fst).Nodup := by
  rw [liveEntries, List.map_map]
  refine List.Nodup.map_on (fun row hrow row' hrow' h => ?_) (List.Nodup.of_map _ table.nodup)
  exact table.eq_of_key hrow hrow' (rowKey_injective h)

theorem mem_live {entry : String × Row F t} :
    entry ∈ (s.live t).rows ↔ entry.2 ∈ (s.rows t).rows ∧ entry.1 = rowKey t entry.2.cells := by
  rw [Store.live, dictOf_rows (liveEntries_nodup _), liveEntries, List.mem_map]
  constructor
  · rintro ⟨row, hrow, rfl⟩
    exact ⟨hrow, rfl⟩
  · rintro ⟨hrow, hkey⟩
    exact ⟨entry.2, hrow, by rw [← hkey]⟩

theorem live_get? (h : row ∈ (s.rows t).rows) : (s.live t).get? (rowKey t row.cells) = some (rowKey t row.cells, row) :=
  Table.get?_eq_some.mpr ⟨mem_live.mpr ⟨h, rfl⟩, rfl⟩

theorem live_get?_none {key : String} : (s.live t).get? key = none ↔ ∀ row ∈ (s.rows t).rows, rowKey t row.cells ≠ key := by
  rw [Table.get?_eq_none]
  constructor
  · intro hnone row hrow
    exact hnone (rowKey t row.cells, row) (mem_live.mpr ⟨hrow, rfl⟩)
  · intro hnone entry hentry
    obtain ⟨hrow, hkey⟩ := mem_live.mp hentry
    rw [hkey]
    exact hnone entry.2 hrow

theorem Inv.sealed_rows (h : Inv H s) : s.sealed.rows = sealEntries s.seals := by
  have hnodup : ((sealEntries s.seals).map Prod.fst).Nodup := by
    rw [sealEntries, List.map_map]
    exact h.distinct
  rw [Store.sealed, h.fetchSeals, dictOf_rows hnodup]

theorem Inv.mem_sealed (h : Inv H s) (hx : x ∈ s.seals) : ((x.tableName, x.rowKey), x.rowDigest) ∈ s.sealed.rows := by
  rw [h.sealed_rows]
  exact List.mem_map_of_mem hx

theorem Inv.verifyRow (h : Inv H s) (t : SealedTable) {x : SealRow} (hx : x ∈ s.seals) :
    verifyRow H s t ((x.tableName, x.rowKey), x.rowDigest) = .ok none := by
  obtain ⟨u, row, hrow, htable, hkey, hdigest⟩ := h.ofSeal x hx
  by_cases hu : u = t
  · subst hu
    rw [SealedStore.verifyRow, if_neg (not_not.mpr htable)]
    simp only [hkey, live_get? hrow, hdigest, Except.map]
    rw [if_neg (not_not.mpr rfl)]
  · exact if_pos fun heq => hu (name_injective (htable.symm.trans heq))

theorem Inv.unsealed (h : Inv H s) (t : SealedTable) : s.unsealed t = [] := by
  have hnone : ((s.live t).rows.map Prod.fst).filter (fun key => (s.sealed.get? (t.name, key)).isNone) = [] := by
    refine List.filter_eq_nil_iff.mpr fun key hkey => ?_
    obtain ⟨entry, hentry, rfl⟩ := List.mem_map.mp hkey
    obtain ⟨hrow, hkey⟩ := mem_live.mp hentry
    obtain ⟨x, hx, htable, hxkey, -⟩ := h.ofRow t entry.2 hrow
    have hget := Table.get?_of_mem (h.mem_sealed hx)
    rw [htable, hxkey, ← hkey] at hget
    rw [hget]
    simp
  rw [Store.unsealed, hnone]
  rfl

theorem Inv.verifyTable (h : Inv H s) (t : SealedTable) : verifyTable H s t = .ok [] := by
  have hfound : s.sealed.rows.mapM (SealedStore.verifyRow H s t) = .ok (s.sealed.rows.map fun _ => none) := by
    refine mapM_eq_ok fun entry hentry => ?_
    rw [h.sealed_rows] at hentry
    obtain ⟨x, hx, rfl⟩ := List.mem_map.mp hentry
    exact h.verifyRow t hx
  rw [SealedStore.verifyTable, hfound, h.unsealed]
  change Except.ok (List.filterMap id _ ++ _) = _
  simp

/-- **The audit of what the writers left finds nothing.** -/
theorem Inv.verifies (h : Inv H s) : verifySeals H s = .ok [] := by
  have hfound : SealedTable.all.mapM (SealedStore.verifyTable H s) = .ok (SealedTable.all.map fun _ => []) :=
    mapM_eq_ok fun t _ => h.verifyTable t
  rw [verifySeals, hfound, h.fetchSeals, h.linked]
  rfl

/-! ## Prepared rows -/

/-- What a prepared row says of itself is so. -/
def Prepared.Right (H : Host F) (p : Prepared F) : Prop :=
  p.key = rowKey p.table p.cells ∧ rowDigest H p.table p.cells = .ok p.digest

theorem prepareItem_ok {item : String × Mapping F} {p : Prepared F} (h : prepareItem H item = .ok p) :
    p.table.name = item.1 ∧ p.Right H := by
  unfold prepareItem at h
  split at h
  · cases h
  · rename_i t ht
    obtain ⟨cells, -, h⟩ := bind_ok h
    obtain ⟨digest, hdigest, h⟩ := bind_ok h
    cases h
    exact ⟨by simpa using List.find?_some ht, rfl, hdigest⟩

variable {prepared : List (Prepared F)}

theorem prepareItems_ok {items : List (String × Mapping F)}
    (h : prepareItems H items = .ok prepared) : ∀ p ∈ prepared, p.Right H := by
  intro p hp
  obtain ⟨item, -, hitem⟩ := forall₂_left (mapM_ok h) hp
  exact (prepareItem_ok hitem).2

variable [DecidableEq F]

theorem Inv.seal (h : Inv H s) (hrow : Inserted s s' t row) (hx : x.Of H t row)
    (hid : x.sealId = s.seals.length + 1) (hprev : x.prevChain = lastChain GENESIS s.seals) (hchain : x.chain = link H x) :
    Inv H { s' with seals := s'.seals ++ [x] } where
  linked := by
    rw [hrow.seals]
    refine brokenLink_append.mpr ⟨h.linked, brokenLink_cons.mpr ⟨⟨?_, hprev, hchain⟩, rfl⟩⟩
    rw [hid, Nat.add_comm]
  ofSeal := by
    intro y hy
    rw [hrow.seals] at hy
    rcases List.mem_append.mp hy with hy | hy
    · obtain ⟨u, r, hr, hof⟩ := h.ofSeal y hy
      exact ⟨u, r, hrow.mem.mpr (.inl hr), hof⟩
    · cases List.mem_singleton.mp hy
      exact ⟨t, row, hrow.mem.mpr (.inr ⟨rfl, rfl⟩), hx⟩
  ofRow := by
    intro u r hr
    rw [hrow.seals]
    rcases hrow.mem.mp hr with hr | ⟨rfl, rfl⟩
    · obtain ⟨y, hy, hof⟩ := h.ofRow u r hr
      exact ⟨y, List.mem_append_left _ hy, hof⟩
    · exact ⟨x, List.mem_append_right _ List.mem_cons_self, hx⟩
  distinct := by
    rw [hrow.seals, List.map_append, List.nodup_append]
    refine ⟨h.distinct, List.nodup_singleton _, ?_⟩
    rintro _ hold _ hnew rfl
    obtain ⟨y, hy, heq⟩ := List.mem_map.mp hold
    obtain ⟨z, hz, heq'⟩ := List.mem_map.mp hnew
    cases List.mem_singleton.mp hz
    obtain ⟨htable, hkey⟩ := Prod.mk.inj (heq.trans heq'.symm)
    obtain ⟨u, r, hr, hof⟩ := h.ofSeal y hy
    obtain rfl : u = t := name_injective (hof.1.symm.trans (htable.trans hx.1))
    have hsame : r.key = row.key := rowKey_injective (hof.2.1.symm.trans (hkey.trans hx.2.1))
    exact Table.get?_eq_none.mp hrow.fresh r hr hsame

/-! ## The writers -/

variable {sealedAt : UtcTime}

theorem insertAfter_ok {sealId : Nat} (hs : Inv H s)
    (hright : ∀ p ∈ prepared, p.Right H) (hid : sealId = s.seals.length) (hprev : prev = lastChain GENESIS s.seals)
    (h : insertAfter H sealedAt prepared sealId prev s = .ok s') : Inv H s' ∧ Written prepared s s' := by
  induction prepared generalizing s sealId prev with
  | nil =>
    cases h
    exact ⟨hs, .nil⟩
  | cons p rest ih =>
    obtain ⟨-, h⟩ := ite_error_ok h
    obtain ⟨s₁, hins, h⟩ := bind_ok h
    obtain ⟨row, hcells, hrow⟩ := insertRow_ok hins
    obtain ⟨hkey, hdigest⟩ := hright p List.mem_cons_self
    let x : SealRow := ⟨⟨sealId + 1, p.table.name, p.key, p.digest, prev, chainDigest H prev p.table.name p.key p.digest⟩, sealedAt⟩
    have hx : x.Of H p.table row := by
      rw [← hcells] at hkey hdigest
      exact ⟨rfl, hkey, hdigest⟩
    have hsealId : x.sealId = s.seals.length + 1 := congrArg (· + 1) hid
    have hinv := hs.seal hrow hx hsealId hprev rfl
    obtain ⟨hfinal, hwritten⟩ := ih hinv (fun q hq => hright q (List.mem_cons_of_mem _ hq))
      (by simp [hrow.seals, hid]) lastChain_concat.symm h
    exact ⟨hfinal, hwritten.cons hcells hrow rfl⟩

theorem insertPreparedInTx_ok (hs : Inv H s)
    (hright : ∀ p ∈ prepared, p.Right H) (h : insertPreparedInTx H prepared sealedAt s = .ok s') :
    Inv H s' ∧ Written prepared s s' := by
  unfold insertPreparedInTx at h
  rw [hs.fetchSeals] at h
  split at h
  · rename_i hnone
    exact insertAfter_ok hs hright (by rw [List.getLast?_eq_none_iff.mp hnone]; rfl) (by rw [lastChain, hnone]; rfl) h
  · rename_i last hlast
    refine insertAfter_ok hs hright ?_ (by rw [lastChain, hlast]; rfl) h
    have hids := ids_of_linked hs.linked
    obtain ⟨front, hfront⟩ := List.getLast?_eq_some_iff.mp hlast
    rw [hfront, List.map_append, List.length_append, List.length_singleton, List.range'_concat] at hids
    have hid : last.sealId = 1 + 1 * front.length := by
      simpa using (List.append_inj' hids rfl).2
    rw [hid, hfront, List.length_append, List.length_singleton]
    omega

def Call.items (s : Store F) : Call F → Except PyError (List (String × Mapping F))
  | .insertMany items _ => .ok items
  | .ingestMany [] _ _ => .ok []
  | .ingestMany ((name, row) :: rest) extend _ => do
    let extra ← extend.elim (.ok []) fun extend => extend s
    return (name, extra ++ row) :: rest

/-- What a call that ended well left. -/
def Effect (H : Host F) (s : Store F) (call : Call F) (s' : Store F) : IngestStatus → Prop
  | .DUPLICATE => s' = s
  | .INSERTED => ∃ items prepared, call.items s = .ok items ∧ prepareItems H items = .ok prepared ∧ Written prepared s s'

def AllOrNothing (H : Host F) (s : Store F) (call : Call F) : Prop :=
  match call.reply H s with
  | .error _ => call.step H s = s
  | .ok (status, _) => Effect H s call (call.step H s) status

variable {status : IngestStatus}

theorem ingestTx_ok (hs : Inv H s) {row : Mapping F} {rest : List (String × Mapping F)} {extend : Option (Extend F)}
    (h : ingestTx H t row rest extend sealedAt s = .ok (status, s')) :
    Inv H s' ∧ Effect H s (.ingestMany ((t.name, row) :: rest) extend sealedAt) s' status := by
  obtain ⟨params, -, h⟩ := bind_ok h
  obtain ⟨-, h⟩ := ite_error_ok h
  split at h
  · obtain ⟨known, hknown, heq⟩ := map_ok h
    obtain ⟨body, -, hknown⟩ := bind_ok hknown
    split at hknown
    · cases hknown
      cases heq
      exact ⟨hs, rfl⟩
    · cases hknown
  · obtain ⟨extra, hextra, h⟩ := bind_ok h
    obtain ⟨prepared, hprepared, h⟩ := bind_ok h
    obtain ⟨s₁, hins, h⟩ := bind_ok h
    cases h
    obtain ⟨hinv, hwritten⟩ := insertPreparedInTx_ok hs (prepareItems_ok hprepared) hins
    exact ⟨hinv, _, prepared, by rw [Call.items, hextra]; rfl, hprepared, hwritten⟩

theorem reply_ok (hs : Inv H s) {call : Call F} (h : call.reply H s = .ok (status, s')) :
    Inv H s' ∧ Effect H s call s' status := by
  cases call with
  | insertMany items sealedAt =>
    obtain ⟨s₁, hins, heq⟩ := map_ok h
    obtain ⟨prepared, hprepared, hins⟩ := bind_ok hins
    cases heq
    obtain ⟨hinv, hwritten⟩ := insertPreparedInTx_ok hs (prepareItems_ok hprepared) hins
    exact ⟨hinv, items, prepared, rfl, hprepared, hwritten⟩
  | ingestMany items extend sealedAt =>
    cases items with
    | nil => cases h
    | cons first rest =>
      obtain ⟨name, row⟩ := first
      change ingestSealedMany H ((name, row) :: rest) extend sealedAt s = .ok (status, s') at h
      unfold ingestSealedMany at h
      cases ht : SealedTable.ofName? name with
      | none =>
        simp only [ht] at h
        cases h
      | some t =>
        obtain rfl : t.name = name := by simpa using List.find?_some ht
        simp only [ht] at h
        split at h
        · cases h
        · exact ingestTx_ok hs h

theorem Inv.step (hs : Inv H s) (call : Call F) : Inv H (call.step H s) := by
  unfold Call.step
  split
  · rename_i h
    exact (reply_ok hs h).1
  · exact hs

theorem inv_run (H : Host F) (calls : List (Call F)) : Inv H (run H calls) := by
  have hfold : ∀ s, Inv H s → Inv H (calls.foldl (Call.step H) s) := by
    intro s hs
    induction calls generalizing s with
    | nil => exact hs
    | cons call calls ih => exact ih _ (hs.step call)
  exact hfold _ .empty

theorem allOrNothing (hs : Inv H s) (call : Call F) : AllOrNothing H s call := by
  unfold AllOrNothing Call.step
  cases hreply : call.reply H s with
  | error e => rfl
  | ok result => exact (reply_ok hs hreply).2

end MmrTrader.Scoreboard.SealedStore
