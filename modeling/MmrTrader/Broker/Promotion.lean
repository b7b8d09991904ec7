import MmrTrader.Broker.ApplySteps

/-!
# Promotion refines live application

* `applyLive` — observations applied one at a time, each in transactions of its own;
* `sweep_spec` — a pass that deletes rows one by one deletes exactly these.
-/

namespace MmrTrader.Broker

open MmrTrader.Lib
open MmrTrader.Journal (Work JournalState autocommit_bind autocommit_keeps mutateBatchWork mutateBatchWork_error
  readCurrentRevision readCurrentRevision_upsert run_autocommit run_consecutive Consecutive JournalError)



/-! ## Live application -/

/-- What an observation names: a position its key, an order the entity it resolves to. -/
def Observed.add (I : Ingest) (j : BrokerJournal) (named : Observed) : Observation → Observed
  | .position o => { named with positions := (o.accountId, o.conid) :: named.positions }
  | .order o => { named with orders := resolveNow I j o :: named.orders }
  | _ => named

/-- `_apply_record` for one observation after the other. -/
def applyLive (I : Ingest) : List Observation → Observed → BrokerJournal →
    Except (JournalError IngestError) (Observed × BrokerJournal)
  | [], named, j => .ok (named, j)
  | record :: rest, named, j =>
      match (applyRecord I record).autocommit j with
      | (.error e, _) => .error e
      | (.ok _, j') => applyLive I rest (named.add I j record) j'

variable {I : Ingest} {j j' : BrokerJournal}

theorem applyOrder_entity {obs : OrderObservation} {generation : Option Nat} {entity : String} {changed : Option BrokerOrderRow}
    (h : (applyOrder I obs generation).autocommit j = (.ok (entity, changed), j')) : entity = resolveNow I j obs := by
  simp only [applyOrder, bind, autocommit_bind] at h
  rcases recordOrder_spec I obs generation j with ⟨e, j1, heq, -⟩ | ⟨changed', j1, heq, -⟩
  · rw [heq] at h
    cases h
  · rw [heq] at h
    dsimp only at h
    split at h
    · cases h
      rfl
    · cases h

variable {l : BrokerJournal}
variable {β : Type}

/-- Related callbacks, the first with a result of its own. -/
theorem sim_return {α : Type} {work work' : IngestWork α} (hsim : work.Sim SameRows work')
    (hs : j.Same SameRows l) {f : α → β} {b : β} (h : (work.bind fun a => .done (f a)).autocommit j = (.ok b, j')) :
    ∃ a l', work.autocommit j = (.ok a, j') ∧ work'.autocommit l = (.ok a, l') ∧ j'.Same SameRows l' ∧ b = f a := by
  obtain ⟨hres, hst⟩ := hsim.autocommit hs
  rw [autocommit_bind] at h
  generalize work.autocommit j = r at h hres hst ⊢
  generalize work'.autocommit l = r' at hres hst ⊢
  obtain ⟨res, j1⟩ := r
  obtain ⟨res', l1⟩ := r'
  dsimp only at hres hst
  subst hres
  cases res with
  | error e => cases h
  | ok a =>
    cases h
    exact ⟨a, l1, rfl, rfl, hst, rfl⟩

variable {generationId : Nat} {named : Observed}
variable {named' : Observed}

theorem replayStaged_live {record : Observation} (hs : j.Same SameRows l)
    (h : (replayStaged I generationId named record).autocommit j = (.ok named', j')) :
    ∃ r l', (applyRecord I record).autocommit l = (.ok r, l') ∧ j'.Same SameRows l' ∧ named' = named.add I l record := by
  have hother : ∀ {record : Observation}, ((applyRecord I record).bind fun _ => .done named).autocommit j = (.ok named', j') →
      ∃ r l', (applyRecord I record).autocommit l = (.ok r, l') ∧ j'.Same SameRows l' ∧ named' = named := by
    intro record h
    obtain ⟨r, l', -, hl, hst, heq⟩ := sim_return (applyRecord_sim I record) hs h
    exact ⟨r, l', hl, hst, heq⟩
  cases record with
  | position o =>
    obtain ⟨u, l', -, hl, hst, heq⟩ := sim_return (applyPosition_sim I o) hs h
    refine ⟨none, l', ?_, hst, heq⟩
    simp only [applyRecord, bind, autocommit_bind, hl]
    rfl
  | order o =>
    obtain ⟨⟨entity, changed⟩, l', hj, hl, hst, heq⟩ := sim_return (applyOrder_sim I o (some generationId) none) hs h
    refine ⟨changed, l', ?_, hst, ?_⟩
    · simp only [applyRecord, bind, autocommit_bind, hl]
      rfl
    · have hrows : j.tables.own.rows = l.tables.own.rows := hs.tables.own
      have hentity : entity = resolveNow I l o := by
        rw [applyOrder_entity hj, resolveNow, resolveNow, hrows]
      rw [heq, hentity, Observed.add]
  | accountValue o => exact hother h
  | pnl o => exact hother h
  | fill o => exact hother h
  | commission o => exact hother h

def stagedObservation (row : StagedRow PyValue) : Option Observation := decodeObservation row.recordKind row.recordJson

/-- **Replaying staged rows is applying their observations live.** -/
theorem replayAll_live (rows : List (StagedRow PyValue)) (hs : j.Same SameRows l)
    (h : (replayAll I generationId rows named).autocommit j = (.ok named', j')) :
    ∃ records l', rows.map stagedObservation = records.map some ∧ applyLive I records named l = .ok (named', l') ∧
      j'.Same SameRows l' := by
  induction rows generalizing named j l with
  | nil =>
    cases h
    exact ⟨[], l, rfl, rfl, hs⟩
  | cons row rest ih =>
    rw [replayAll] at h
    split at h
    · cases h
    · rename_i record hdecode
      simp only [bind, autocommit_bind] at h
      split at h
      · rename_i named1 j1 heq
        obtain ⟨res, l1, hl, hst, rfl⟩ := replayStaged_live hs heq
        obtain ⟨records, l', hrows, hlive, hst'⟩ := ih hst h
        refine ⟨record :: records, l', ?_, ?_, hst'⟩
        · rw [List.map_cons, List.map_cons, hrows, stagedObservation, hdecode]
        · simp only [applyLive, hl, hlive]
      · cases h

/-! ## Deleting rows one by one -/

section Sweep

variable {ρ κ : Type} [DecidableEq κ] {key : ρ → κ} {f : ρ → IngestWork Unit} {table : BrokerDb PyValue → Table key}
  {tombstone : Nat → ρ → ρ} {entity : κ → String × String} {P : ρ → Prop}

/-- `f` turns a row with `P` into its tombstone, under the next revision of the row's entity. -/
def Deletes (P : ρ → Prop) (f : ρ → IngestWork Unit) (table : BrokerDb PyValue → Table key) (tombstone : Nat → ρ → ρ)
    (entity : κ → String × String) : Prop :=
  ∀ row j j', P row → (table j.tables.own).get? (key row) = some row → (f row).autocommit j = (.ok (), j') →
    (∀ k, (table j'.tables.own).get? k = if key row = k then
      some (tombstone (readCurrentRevision j'.tables.materialized (entity (key row))) row)
      else (table j.tables.own).get? k) ∧
    ∀ e, entity (key row) ≠ e → readCurrentRevision j'.tables.materialized e = readCurrentRevision j.tables.materialized e

/-- **A pass deletes exactly its rows.** -/
theorem sweep_spec (hf : Deletes P f table tombstone entity) {rows : List ρ} {j j' : BrokerJournal}
    (hkeys : (rows.map key).Nodup) (hentity : ∀ row ∈ rows, ∀ row' ∈ rows, entity (key row) = entity (key row') →
      key row = key row')
    (hrows : ∀ row ∈ rows, P row ∧ (table j.tables.own).get? (key row) = some row)
    (h : (each f rows).autocommit j = (.ok (), j')) :
    (∀ k, (table j'.tables.own).get? k = if k ∈ rows.map key then
      ((table j.tables.own).get? k).map (tombstone (readCurrentRevision j'.tables.materialized (entity k)))
      else (table j.tables.own).get? k) ∧
    ∀ e, e ∉ rows.map (fun row => entity (key row)) →
      readCurrentRevision j'.tables.materialized e = readCurrentRevision j.tables.materialized e := by
  induction rows generalizing j with
  | nil =>
    cases h
    exact ⟨fun k => by simp, fun e _ => rfl⟩
  | cons row rest ih =>
    rw [List.map_cons, List.nodup_cons] at hkeys
    simp only [each, bind, autocommit_bind] at h
    split at h
    · rename_i u j1 heq
      obtain ⟨hp, hget⟩ := hrows row List.mem_cons_self
      obtain ⟨hone, hrev⟩ := hf row j j1 hp hget heq
      have hne : ∀ row' ∈ rest, key row ≠ key row' := fun row' hr heq =>
        hkeys.1 (heq ▸ List.mem_map.mpr ⟨row', hr, rfl⟩)
      obtain ⟨hall, hrevs⟩ := ih hkeys.2
        (fun r hr r' hr' => hentity r (List.mem_cons_of_mem _ hr) r' (List.mem_cons_of_mem _ hr'))
        (fun r hr => ⟨(hrows r (List.mem_cons_of_mem _ hr)).1, by
          rw [hone, if_neg (hne r hr)]
          exact (hrows r (List.mem_cons_of_mem _ hr)).2⟩) h
      refine ⟨fun k => ?_, fun e he => ?_⟩
      · rw [hall]
        by_cases hk : key row = k
        · subst hk
          have hlast : readCurrentRevision j'.tables.materialized (entity (key row)) =
              readCurrentRevision j1.tables.materialized (entity (key row)) := by
            refine hrevs _ fun hmem => ?_
            obtain ⟨row', hr, heq'⟩ := List.mem_map.mp hmem
            exact hne row' hr (hentity row List.mem_cons_self row' (List.mem_cons_of_mem _ hr) heq'.symm)
          rw [if_neg hkeys.1, hone, if_pos rfl, if_pos (by simp), hget, hlast]
          rfl
        · rw [hone, if_neg hk]
          by_cases hmem : k ∈ rest.map key
          · rw [if_pos hmem, if_pos (by simp [hmem])]
          · rw [if_neg hmem, if_neg (by simp [hmem, Ne.symm hk])]
      · rw [List.map_cons, List.mem_cons, not_or] at he
        rw [hrevs e he.2, hrev e (Ne.symm he.1)]
    · cases h

end Sweep

/-! ## Absent rows -/

def BrokerPositionRow.tombstone (now : Int) (revision : Nat) (row : BrokerPositionRow) : BrokerPositionRow :=
  { row with
    quantity := 0
    deleted := true
    revision := revision
    sourceTimestamp := now }

def BrokerOrderRow.tombstone (now : Int) (revision : Nat) (row : BrokerOrderRow) : BrokerOrderRow :=
  { row with
    deleted := true
    revision := revision
    sourceTimestamp := now }

def positionEntity (key : String × Int) : String × String := ("position", positionEntityId key.1 key.2)

def orderEntity (orderEntityId : String) : String × String := ("order", orderEntityId)

variable {db : BrokerRows}

theorem tombstonePosition_get? {row : BrokerPositionRow}
    (h : db.getPosition row.accountId row.conid = some row) (revision : Nat) (now : Int) (k : String × Int) :
    (db.tombstonePosition row.accountId row.conid revision now).positions.get? k =
      if row.key = k then some (row.tombstone now revision) else db.positions.get? k := by
  simp only [BrokerRows.tombstonePosition, h, BrokerRows.upsertPosition, Table.get?_upsert]
  rfl

theorem tombstoneOrder_get? {row : BrokerOrderRow} (h : db.getOrder row.orderEntityId = some row)
    (revision : Nat) (now : Int) (k : String) : (db.tombstoneOrder row.orderEntityId revision now).orders.get? k =
      if row.orderEntityId = k then some (row.tombstone now revision) else db.orders.get? k := by
  simp only [BrokerRows.tombstoneOrder, h, BrokerRows.upsertOrder, Table.get?_upsert]
  rfl

theorem flatPosition_deletes (I : Ingest) : Deletes (fun row : BrokerPositionRow => row.deleted = false)
    (fun row => applyPosition I (flatPosition row I.clock)) (fun db => db.rows.positions)
    (BrokerPositionRow.tombstone I.clock.instant) positionEntity := by
  intro row j j' hdel hget h
  have hpos : j.tables.own.rows.getPosition row.accountId row.conid = some row := hget
  simp only [applyPosition, readDb, bind, Work.bind, Work.autocommit, flatPosition, hpos, if_true, Option.all_some, hdel,
    Bool.false_eq_true, if_false] at h
  have ht := emit_ok I h
  rw [ht]
  refine ⟨fun k => ?_, fun e he => ?_⟩
  · dsimp only [Journal.Tables.appended]
    rw [tombstonePosition_get? hpos, readCurrentRevision_upsert]
    exact if_congr Iff.rfl (by rw [if_pos]; rfl) rfl
  · rw [Journal.Tables.appended, readCurrentRevision_upsert]
    exact if_neg he

theorem tombstoneOrder_deletes (I : Ingest) : Deletes (fun _ : BrokerOrderRow => True)
    (tombstoneOrder I I.clock.instant) (fun db => db.rows.orders) (BrokerOrderRow.tombstone I.clock.instant) orderEntity := by
  intro row j j' _ hget h
  have hord : j.tables.own.rows.getOrder row.orderEntityId = some row := hget
  unfold tombstoneOrder emitRows at h
  have ht := emit_ok I h
  rw [ht]
  refine ⟨fun k => ?_, fun e he => ?_⟩
  · dsimp only [Journal.Tables.appended]
    rw [tombstoneOrder_get? hord, readCurrentRevision_upsert]
    exact if_congr Iff.rfl (by rw [if_pos]; rfl) rfl
  · rw [Journal.Tables.appended, readCurrentRevision_upsert]
    exact if_neg he

theorem applyPosition_keeps (I : Ingest) (obs : PositionObservation) : (applyPosition I obs).Keeps fun db =>
    (db.rows.accounts, db.rows.orders, db.rows.fills, db.rows.aliases, db.staging) := by
  have hemit : ∀ m (write : BrokerRows → Nat → BrokerRows),
      (∀ rows revision, ∃ positions, write rows revision = { rows with positions := positions }) →
      (emitRows I m write).Keeps fun db => (db.rows.accounts, db.rows.orders, db.rows.fills, db.rows.aliases, db.staging) := by
    intro m write hw
    refine .read fun _ => .append (fun t revision own h => ?_) fun _ => .done ()
    cases h
    obtain ⟨positions, heq⟩ := hw t.own.rows revision
    simp only [heq]
  refine .read fun _ => ?_
  simp only [Work.bind]
  split
  · split
    · exact .done ()
    · refine hemit _ _ fun rows revision => ?_
      unfold BrokerRows.tombstonePosition
      split
      · exact ⟨rows.positions, rfl⟩
      · exact ⟨_, rfl⟩
  · split
    · exact .done ()
    · exact hemit _ _ fun rows revision => ⟨_, rfl⟩

theorem tombstoneOrder_keeps (I : Ingest) (row : BrokerOrderRow) : (tombstoneOrder I I.clock.instant row).Keeps fun db =>
    (db.rows.accounts, db.rows.positions, db.rows.fills, db.rows.aliases, db.staging) := by
  refine .read fun _ => .append (fun t revision own h => ?_) fun _ => .done ()
  cases h
  simp only [BrokerRows.tombstoneOrder]
  split <;> rfl

theorem each_keeps {γ : Type} {f : β → IngestWork Unit} {g : BrokerDb PyValue → γ} (h : ∀ x, (f x).Keeps g)
    (xs : List β) : (each f xs).Keeps g := by
  induction xs with
  | nil => exact .done ()
  | cons x xs ih => exact (h x).bind fun _ => ih

/-- An active position of the ingest's account that no observation named. -/
def Ingest.absentPosition (I : Ingest) (named : Observed) (row : BrokerPositionRow) : Bool :=
  !row.deleted && (row.accountId == I.accountId && !named.positions.contains row.key)

/-- A working order of the ingest's account that no observation named. -/
def Ingest.absentOrder (I : Ingest) (named : Observed) (row : BrokerOrderRow) : Bool :=
  row.working && (row.accountId == I.accountId && !named.orders.contains row.orderEntityId)

/-- `after` is `live` with exactly the absent rows deleted, each under its entity's revision. -/
structure AbsentDeleted (I : Ingest) (named : Observed) (live after : BrokerTables) : Prop where
  accounts : after.own.rows.accounts = live.own.rows.accounts
  positions : ∀ k, after.own.rows.positions.get? k = (live.own.rows.positions.get? k).map fun row =>
    if I.absentPosition named row then
      row.tombstone I.clock.instant (readCurrentRevision after.materialized (positionEntity k))
    else row
  orders : ∀ k, after.own.rows.orders.get? k = (live.own.rows.orders.get? k).map fun row =>
    if I.absentOrder named row then row.tombstone I.clock.instant (readCurrentRevision after.materialized (orderEntity k))
    else row
  fills : after.own.rows.fills = live.own.rows.fills
  aliases : after.own.rows.aliases = live.own.rows.aliases

/-- The rows a pass went over, as a condition on the row under the key. -/
theorem swept_eq_map {ρ κ : Type} [DecidableEq κ] {key : ρ → κ} {t : Table key} {rows : List ρ} {p : ρ → Bool}
    (hrows : ∀ row, row ∈ rows ↔ row ∈ t.rows ∧ p row = true) (g : ρ → ρ) (k : κ) :
    (if k ∈ rows.map key then (t.get? k).map g else t.get? k) =
      (t.get? k).map fun row => if p row then g row else row := by
  cases hget : t.get? k with
  | none => simp
  | some row =>
    obtain ⟨hmem, rfl⟩ := Table.get?_eq_some.mp hget
    by_cases hp : p row = true
    · rw [if_pos (List.mem_map.mpr ⟨row, (hrows row).mpr ⟨hmem, hp⟩, rfl⟩)]
      simp [hp]
    · have hno : key row ∉ rows.map key := by
        intro hk
        obtain ⟨row', hr, heq⟩ := List.mem_map.mp hk
        obtain ⟨hmem', hp'⟩ := (hrows row').mp hr
        exact hp (t.eq_of_key hmem' hmem heq ▸ hp')
      rw [if_neg hno]
      simp [hp]

theorem mem_absentPositions (I : Ingest) (named : Observed) (db : BrokerRows) (row : BrokerPositionRow) :
    row ∈ db.selectActivePositions.filter (fun row => row.accountId == I.accountId && !named.positions.contains row.key) ↔
      row ∈ db.positions.rows ∧ I.absentPosition named row = true := by
  rw [List.mem_filter, BrokerRows.selectActivePositions, List.mem_insertionSort, List.mem_filter, and_assoc,
    Ingest.absentPosition]
  simp only [Bool.and_eq_true]

theorem mem_absentOrders (I : Ingest) (named : Observed) (db : BrokerRows) (row : BrokerOrderRow) :
    row ∈ db.selectWorkingOrders.filter (fun row => row.accountId == I.accountId && !named.orders.contains row.orderEntityId) ↔
      row ∈ db.orders.rows ∧ I.absentOrder named row = true := by
  rw [List.mem_filter, BrokerRows.selectWorkingOrders, List.mem_insertionSort, List.mem_filter, and_assoc,
    Ingest.absentOrder]
  simp only [Bool.and_eq_true]

theorem selected_nodup {ρ κ : Type} {key : ρ → κ} (t : Table key) (p q : ρ → Bool) (r : ρ → ρ → Prop) [DecidableRel r] :
    ((((t.rows.filter p).insertionSort r).filter q).map key).Nodup := by
  refine List.Nodup.sublist (List.filter_sublist.map key) ?_
  rw [((List.perm_insertionSort r (t.rows.filter p)).map key).nodup_iff]
  exact t.nodup.sublist (List.filter_sublist.map key)

theorem positionEntity_inj {a : String} {c c' : Int} (h : positionEntity (a, c) = positionEntity (a, c')) : c = c' := by
  have htext : toString c = toString c' := by
    simpa [positionEntity, positionEntityId] using h
  rw [← parseInt_toString c, htext, parseInt_toString]

/-- **The absence checks delete exactly the absent rows.** -/
theorem tombstoneAbsent_spec (h : (tombstoneAbsent I named).autocommit j = (.ok (), j')) :
    AbsentDeleted I named j.tables j'.tables ∧ j'.tables.own.staging = j.tables.own.staging := by
  simp only [tombstoneAbsent, readDb, bind, Work.bind, Work.autocommit, autocommit_bind] at h
  split at h
  · rename_i u j1 heq
    have hkeep1 := autocommit_keeps (each_keeps (fun row => applyPosition_keeps I (flatPosition row I.clock))
      (j.tables.own.rows.selectActivePositions.filter fun row =>
        row.accountId == I.accountId && !named.positions.contains row.key)) j
    rw [heq] at hkeep1
    have hkeep2 := autocommit_keeps (each_keeps (tombstoneOrder_keeps I)
      (j1.tables.own.rows.selectWorkingOrders.filter fun row =>
        row.accountId == I.accountId && !named.orders.contains row.orderEntityId)) j1
    rw [h] at hkeep2
    simp only [Prod.mk.injEq] at hkeep1 hkeep2
    obtain ⟨hacc1, hord1, hfill1, hal1, hst1⟩ := hkeep1
    obtain ⟨hacc2, hpos2, hfill2, hal2, hst2⟩ := hkeep2
    obtain ⟨hpos, -⟩ := sweep_spec (flatPosition_deletes I) (selected_nodup _ _ _ _) (by
        intro row hr row' hr' hent
        have hacc := ((mem_absentPositions I named _ row).mp hr).2
        have hacc' := ((mem_absentPositions I named _ row').mp hr').2
        simp only [Ingest.absentPosition, Bool.and_eq_true, beq_iff_eq] at hacc hacc'
        have hsame : row.accountId = row'.accountId := hacc.2.1.trans hacc'.2.1.symm
        rw [BrokerPositionRow.key, BrokerPositionRow.key, hsame] at hent ⊢
        rw [positionEntity_inj hent]) (by
        intro row hr
        obtain ⟨hmem, habs⟩ := (mem_absentPositions I named _ row).mp hr
        simp only [Ingest.absentPosition, Bool.and_eq_true, Bool.not_eq_true'] at habs
        exact ⟨habs.1, Table.get?_of_mem hmem⟩) heq
    obtain ⟨hord, hrevs⟩ := sweep_spec (tombstoneOrder_deletes I) (selected_nodup _ _ _ _) (by
        intro row _ row' _ hent
        simpa [orderEntity] using hent) (by
        intro row hr
        obtain ⟨hmem, -⟩ := (mem_absentOrders I named _ row).mp hr
        exact ⟨trivial, Table.get?_of_mem hmem⟩) h
    refine ⟨⟨hacc2.trans hacc1, fun k => ?_, fun k => ?_, hfill2.trans hfill1, hal2.trans hal1⟩, hst2.trans hst1⟩
    · rw [hpos2, hpos k, hrevs]
      · exact swept_eq_map (mem_absentPositions I named j.tables.own.rows) _ k
      intro hmem
      obtain ⟨row, -, hent⟩ := List.mem_map.mp hmem
      simp [orderEntity, positionEntity] at hent
    · rw [hord k, ← hord1]
      exact swept_eq_map (mem_absentOrders I named j1.tables.own.rows) _ k
  · cases h

/-! ## The promotion transaction -/

/-- What a committed promotion did. -/
structure PromotedLive (I : Ingest) (generationId : Nat) (records : List Observation) (j j' : BrokerJournal) : Prop where
  /-- The observations applied live, then the absent rows deleted. -/
  rows : ∃ named live, applyLive I records ⟨[], []⟩ j = .ok (named, live) ∧ AbsentDeleted I named live.tables j'.tables
  unstaged : ∀ r ∈ j'.tables.own.staging.rows, r.generationId ≠ generationId
  revisions : Consecutive j.tables j'.tables

variable {cursor : Nat}

theorem promote_observations (heq : mutateBatchWork j (promoteInTransaction I generationId) = (.ok cursor, j')) :
    ∃ records, (j.tables.own.stagedRows generationId).map stagedObservation = records.map some ∧
      PromotedLive I generationId records j j' := by
  unfold mutateBatchWork at heq
  split at heq
  · cases heq
  · rename_i a tx hrun
    cases heq
    obtain ⟨jp, hauto, htables, -⟩ := run_autocommit hrun
    simp only [promoteInTransaction, readDb, bind, Work.bind, Work.autocommit, autocommit_bind] at hauto
    split at hauto
    · rename_i named j1 hreplay
      obtain ⟨records, live, hrecords, hlive, hsame⟩ := replayAll_live _ (l := j) ⟨⟨rfl, rfl, rfl, rfl⟩, rfl⟩ hreplay
      split at hauto
      · rename_i u j2 habsent
        obtain ⟨⟨hacc, hpos, hord, hfill, hal⟩, -⟩ := tombstoneAbsent_spec habsent
        cases hauto
        have hrows : j1.tables.own.rows = live.tables.own.rows := hsame.tables.own
        rw [hrows] at hacc hpos hord hfill hal
        refine ⟨records, hrecords, ⟨named, live, hlive, ?_⟩, ?_, run_consecutive _ hrun⟩
        · rw [← htables]
          exact ⟨hacc, hpos, hord, hfill, hal⟩
        · intro r hr
          rw [← htables] at hr
          have hout := (Table.mem_deleteWhere.mp hr).2
          simpa using hout
      · cases hauto
    · cases hauto

/-- The same, for staged rows that hold `records`. -/
theorem promote_live {records : List (Nat × Observation)}
    (hstaged : j.tables.own.stagedRows generationId = records.map fun r => stagedRow generationId r.1 r.2)
    (heq : mutateBatchWork j (promoteInTransaction I generationId) = (.ok cursor, j')) :
    PromotedLive I generationId (records.map Prod.snd) j j' := by
  obtain ⟨observations, hrows, hpromoted⟩ := promote_observations heq
  have hsome : (records.map Prod.snd).map some = observations.map some := by
    rw [← hrows, hstaged, List.map_map, List.map_map]
    refine List.map_congr_left fun r _ => ?_
    exact (decode_encode r.2).symm
  rwa [List.map_injective_iff.mpr (Option.some_injective _) hsome]

/-- **Promotion refines live application.**  The staged rows of the generation, in `ingest_seq` order,
    hold `records`. -/
theorem promotion_refines_live (I : Ingest) (generationId : Nat) (j : BrokerJournal) (records : List (Nat × Observation))
    (hstaged : j.tables.own.stagedRows generationId = records.map fun r => stagedRow generationId r.1 r.2) :
    (∀ r : Observation, decodeObservation r.kind (encodeObservation r) = some r) ∧
      match mutateBatchWork j (promoteInTransaction I generationId) with
      | (.error _, j') => j'.tables = j.tables
      | (.ok _, j') => PromotedLive I generationId (records.map Prod.snd) j j' := by
  refine ⟨decode_encode, ?_⟩
  split
  · rename_i e j' heq
    have hfailed : (mutateBatchWork j (promoteInTransaction I generationId)).1 = .error e := by rw [heq]
    have herr := mutateBatchWork_error hfailed
    rw [heq] at herr
    exact herr.1
  · rename_i cursor j' heq
    exact promote_live hstaged heq

/-- A position staged for the first generation of a new database. -/
def stagedPosition : PositionObservation :=
  ⟨"DU1", 265598, "AAPL", "STK", none, "USD", 10, some 100, none, none, none, none, none, demoTime⟩

def stagedJournal : BrokerJournal :=
  JournalState.empty { BrokerDb.empty PyValue with staging := Table.empty.upsert (stagedRow 1 1 (.position stagedPosition)) }

theorem promotion_refines_live_position :
    (∀ r : Observation, decodeObservation r.kind (encodeObservation r) = some r) ∧
      match mutateBatchWork stagedJournal (promoteInTransaction (longIngest demoTime) 1) with
      | (.error _, j') => j'.tables = stagedJournal.tables
      | (.ok _, j') => PromotedLive (longIngest demoTime) 1 [.position stagedPosition] stagedJournal j' :=
  promotion_refines_live (longIngest demoTime) 1 stagedJournal [(1, .position stagedPosition)] rfl

end MmrTrader.Broker
