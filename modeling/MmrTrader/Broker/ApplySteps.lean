import MmrTrader.Broker.Apply
import MmrTrader.Journal.Autocommit

/-!
# What one application does

* `emit_ok`, `emit_lawful` — one journal mutation with its write;
* `recordOrder_spec` — an order observation: the entity it resolves to and the aliases it binds;
* `applyRecord_sim`, `applyOrder_sim` — an application reads and writes nothing but the broker rows
  and the journal; the generation of an order's status event matters to nothing else;
* `applyRecord_keepsSync` — and it leaves the generations and the staging alone.
-/

namespace MmrTrader.Broker

open MmrTrader.Lib
open MmrTrader.Journal (DomainMutation Work JournalState Tables autocommit_bind autocommit_keeps append_cases append_fresh
  append_revisions mutateBatchWork readCurrentRevision SameWrite)

/-! ## Decimal texts -/

theorem parseInt_toString (n : Int) : parseInt (toString n) = n := by
  rw [Int.toString_eq_repr, Int.repr_eq_if]
  split
  · rename_i hn
    unfold parseInt
    rw [Nat.toList_repr]
    split
    · -- a digit is not a sign
      rename_i digits heq
      have hd : '-'.isDigit = true :=
        Nat.isDigit_of_mem_toDigits (b := 10) (n := n.toNat) (by decide) (by decide) (by rw [heq]; exact List.mem_cons_self)
      exact absurd hd (by decide)
    · rw [Nat.ofDigitChars_ten_toDigits]
      omega
  · rename_i hn
    have htext : ("-" ++ (-n).toNat.repr).toList = '-' :: Nat.toDigits 10 (-n).toNat := by
      simp [String.toList_append]
    simp only [parseInt, htext, Nat.ofDigitChars_ten_toDigits]
    omega

/-! ## Fresh texts -/

def longerText (texts : List String) : String :=
  String.ofList (List.replicate ((texts.map String.length).foldr max 0 + 1) 'x')

variable {texts : List String} {t : String}

theorem length_le_longest (h : t ∈ texts) : t.length ≤ (texts.map String.length).foldr max 0 := by
  induction texts with
  | nil => cases h
  | cons a texts ih =>
    rw [List.map_cons, List.foldr_cons]
    rcases List.mem_cons.mp h with rfl | h
    · exact Nat.le_max_left _ _
    · exact (ih h).trans (Nat.le_max_right _ _)

theorem longerText_fresh (h : t ∈ texts) (s : String) : t ≠ s ++ longerText texts := by
  intro heq
  have hle := length_le_longest h
  have hlen := congrArg String.length heq
  simp [longerText] at hlen
  omega

def demoTime : DateTime := ⟨⟨2026, 1, 2, 15, 0, 0, 0⟩, ⟨false, 0, 0, 0, 0⟩, by decide, by decide⟩

def longIngest (clock : DateTime) : Ingest where
  accountId := "DU1"
  accountMode := "paper"
  sessionEpoch := "s1"
  float := fun _ => none
  clock := clock
  uuid4 rows := longerText (rows.aliases.rows.map (·.orderEntityId))
  eventId journal := longerText (journal.map (·.eventId))
  utcnow _ := 0
  uuid4_fresh rows r hr := by
    have hmem : r.orderEntityId ∈ rows.aliases.rows.map (·.orderEntityId) := List.mem_map.mpr ⟨r, hr, rfl⟩
    rw [externalOrderEntityId]
    exact longerText_fresh hmem "ext:"
  eventId_fresh journal r hr := by
    have hmem : r.eventId ∈ journal.map (·.eventId) := List.mem_map.mpr ⟨r, hr, rfl⟩
    have h := longerText_fresh hmem ""
    rwa [String.empty_append] at h

/-! ## One mutation -/

theorem emit_spec (I : Ingest) (m : Journal.DomainMutation Cell) (write : BrokerDb PyValue → Nat → BrokerDb PyValue)
    (j : JournalState Cell (BrokerDb PyValue)) :
    (∃ e j', (emit I m write).autocommit j = (.error e, j') ∧ j'.tables = j.tables) ∨
      ∃ revision j', (emit I m write).autocommit j = (.ok (), j') ∧ j'.tables.own = write j.tables.own revision := by
  unfold emit
  simp only [Work.autocommit]
  rcases append_cases (E := IngestError) j m (fun t revision => .ok (write t.own revision)) (I.eventId j.tables.journal)
      (I.utcnow j.tables.journal) with ⟨e, j', heq, ht⟩ | ⟨event, j', heq, ⟨-, hold⟩ | ⟨own, hown, ht⟩⟩
  · rw [heq]
    exact Or.inl ⟨e, j', rfl, ht⟩
  · -- the event id was drawn for this event
    obtain ⟨row, hrow⟩ := Option.isSome_iff_exists.mp hold
    obtain ⟨hmem, hid⟩ := Journal.selectJournalRow_some hrow
    exact absurd hid (I.eventId_fresh j.tables.journal row hmem)
  · cases hown
    rw [heq]
    exact Or.inr ⟨_, j', rfl, ht⟩

variable {write : BrokerDb PyValue → Nat → BrokerDb PyValue} {j : JournalState Cell (BrokerDb PyValue)}

theorem emit_ok (I : Ingest) {m : DomainMutation Cell}
    {j' : JournalState Cell (BrokerDb PyValue)} (h : (emit I m write).autocommit j = (.ok (), j')) :
    j'.tables = j.tables.appended j.seq m (I.eventId j.tables.journal) (I.utcnow j.tables.journal)
      (write j.tables.own (readCurrentRevision j.tables.materialized m.entity + 1)) := by
  unfold emit at h
  simp only [Work.autocommit, mutateBatchWork, Work.run] at h
  cases happ : Journal.append ⟨j.tables, j.seq, []⟩ m (fun t revision => .ok (write t.own revision) :
      Journal.WriteMaterialized Cell (BrokerDb PyValue) IngestError) (I.eventId j.tables.journal)
      (I.utcnow j.tables.journal) with
  | error e =>
    rw [happ] at h
    cases h
  | ok r =>
    obtain ⟨event, tx'⟩ := r
    rw [happ] at h
    cases h
    rcases append_revisions happ with ⟨hold, -⟩ | ⟨own, hown, ht⟩
    · -- the event id was drawn for this event
      obtain ⟨row, hrow⟩ := Option.isSome_iff_exists.mp hold
      obtain ⟨hmem, hid⟩ := Journal.selectJournalRow_some hrow
      exact absurd hid (I.eventId_fresh j.tables.journal row hmem)
    · cases hown
      exact ht

theorem emit_lawful (I : Ingest) (m : DomainMutation Cell) (write : BrokerDb PyValue → Nat → BrokerDb PyValue)
    (hj : j.Lawful) : ∃ j', (emit I m write).autocommit j = (.ok (), j') := by
  obtain ⟨hist, hl⟩ := hj
  obtain ⟨event, tx', happ, -⟩ := append_fresh (E := IngestError) (x := ⟨j.tables, j.seq, []⟩) hl (m := m)
    (w := fun t revision => .ok (write t.own revision)) (I.utcnow j.tables.journal) (I.eventId_fresh j.tables.journal) rfl
  unfold emit
  simp only [Work.autocommit, mutateBatchWork, Work.run, happ]
  exact ⟨_, rfl⟩

/-! ## Orders -/

def resolveNow (I : Ingest) (j : JournalState Cell (BrokerDb PyValue)) (obs : OrderObservation) : String :=
  resolve I.sessionEpoch (I.uuid4 j.tables.own.rows) j.tables.own.rows obs

/-- **What applying one order observation does to the aliases.** -/
theorem recordOrder_spec (I : Ingest) (obs : OrderObservation) (generation : Option Nat)
    (j : JournalState Cell (BrokerDb PyValue)) :
    (∃ e j', (recordOrder I obs generation).autocommit j = (.error e, j') ∧ j'.tables = j.tables) ∨
      ∃ changed j', (recordOrder I obs generation).autocommit j = (.ok (resolveNow I j obs, changed), j') ∧
        j'.tables.own.rows.aliases =
          (bindAliases I.sessionEpoch j.tables.own.rows (resolveNow I j obs) obs).aliases := by
  unfold recordOrder
  simp only [Work.autocommit]
  split
  · right
    exact ⟨none, _, rfl, rfl⟩
  · simp only [bind, autocommit_bind]
    rcases emit_spec I _ (writeOrder I obs generation _) j with ⟨e, j', heq, ht⟩ | ⟨revision, j', heq, ht⟩
    · left
      rw [heq]
      exact ⟨e, j', rfl, ht⟩
    · right
      rw [heq]
      exact ⟨_, j', rfl, congrArg (·.rows.aliases) ht⟩

/-! ## What the appliers leave alone -/

/-- The generations and the staging, which no application writes. -/
def syncTables (db : BrokerDb PyValue) : Table GenerationRow.generationId × Nat × Table (StagedRow.key (S := PyValue)) :=
  (db.generations, db.generationSeq, db.staging)

/-- What only an order's own write changes, with the generations and the staging. -/
def orderTables (db : BrokerDb PyValue) := (db.rows.orders, db.rows.aliases, syncTables db)

theorem emitRows_keepsOrders (I : Ingest) (m : DomainMutation Cell) {write : BrokerRows → Nat → BrokerRows}
    (hw : ∀ rows revision, (write rows revision).orders = rows.orders ∧ (write rows revision).aliases = rows.aliases) :
    (emitRows I m write).Keeps orderTables := by
  refine .read fun _ => .append (fun t revision own h => ?_) fun _ => .done ()
  cases h
  rw [orderTables, (hw t.own.rows revision).1, (hw t.own.rows revision).2]
  rfl

theorem applyAccountValue_keepsOrders (I : Ingest) (obs : AccountValueObservation) :
    (applyAccountValue I obs).Keeps orderTables := by
  refine .read fun _ => ?_
  simp only [Work.bind]
  split
  · exact .done ()
  · exact emitRows_keepsOrders I _ fun _ _ => ⟨rfl, rfl⟩

theorem applyPosition_keepsOrders (I : Ingest) (obs : PositionObservation) : (applyPosition I obs).Keeps orderTables := by
  refine .read fun _ => ?_
  simp only [Work.bind]
  split
  · split
    · exact .done ()
    · refine emitRows_keepsOrders I _ fun _ _ => ?_
      unfold BrokerRows.tombstonePosition
      split <;> exact ⟨rfl, rfl⟩
  · split
    · exact .done ()
    · exact emitRows_keepsOrders I _ fun _ _ => ⟨rfl, rfl⟩

theorem applyPnl_keepsOrders (I : Ingest) (obs : PnLObservation) : (applyPnl I obs).Keeps orderTables := by
  refine .read fun _ => ?_
  simp only [Work.bind]
  split
  · exact .done ()
  · split
    · exact .done ()
    · split
      · exact .done ()
      · exact emitRows_keepsOrders I _ fun _ _ => ⟨rfl, rfl⟩

theorem emitFill_keepsOrders (I : Ingest) (eventType : String) (row : BrokerFillRow) :
    (emitFill I eventType row).Keeps orderTables := emitRows_keepsOrders I _ fun _ _ => ⟨rfl, rfl⟩

theorem applyFill_keepsOrders (I : Ingest) (obs : FillObservation) : (applyFill I obs).Keeps orderTables := by
  refine .read fun _ => ?_
  simp only [Work.bind]
  split
  · exact .done ()
  · exact emitFill_keepsOrders I _ _

theorem applyCommission_keepsOrders (I : Ingest) (obs : CommissionObservation) : (applyCommission I obs).Keeps orderTables := by
  refine .bind (applyFill_keepsOrders I obs.fill) fun _ => .read fun _ => ?_
  simp only [Work.bind]
  split
  · exact .fail _
  · split
    · exact .done ()
    · exact emitFill_keepsOrders I _ _

theorem resolveUnboundFills_keepsOrders (I : Ingest) (obs : OrderObservation) (entity : String) :
    (resolveUnboundFills I obs entity).Keeps orderTables := by
  have hbind : ∀ fills, (bindFills I obs entity fills).Keeps orderTables := by
    intro fills
    induction fills with
    | nil => exact .done ()
    | cons fill rest ih =>
      simp only [bindFills]
      split
      · exact (emitFill_keepsOrders I _ _).bind fun _ => ih
      · exact ih
  exact .read fun _ => hbind _

theorem resolveUnboundFills_keeps (I : Ingest) (obs : OrderObservation) (entity : String) :
    (resolveUnboundFills I obs entity).Keeps fun db => db.rows.aliases :=
  (resolveUnboundFills_keepsOrders I obs entity).mono fun _ _ h => congrArg (·.2.1) h

theorem applyOrder_keepsSync (I : Ingest) (obs : OrderObservation) (generation : Option Nat) :
    (applyOrder I obs generation).Keeps syncTables := by
  have hrecord : (recordOrder I obs generation).Keeps syncTables := by
    refine .read fun t => ?_
    dsimp only
    split
    · exact .writeOwn (fun own own' h => by cases h; rfl) (.done _)
    · refine .bind (.read fun _ => .append (fun t revision own h => ?_) fun _ => .done ()) fun _ => .done _
      cases h
      rfl
  exact hrecord.bind fun recorded =>
    .bind ((resolveUnboundFills_keepsOrders I obs recorded.1).mono fun _ _ h => congrArg (·.2.2) h) fun _ => .done recorded

/-- **No application writes the generations or the staging.** -/
theorem applyRecord_keepsSync (I : Ingest) (record : Observation) : (applyRecord I record).Keeps syncTables := by
  have hother : ∀ {work : IngestWork Unit}, work.Keeps orderTables →
      (work.bind fun _ => .done (none : Option BrokerOrderRow)).Keeps syncTables := fun h =>
    .bind (h.mono fun _ _ h => congrArg (·.2.2) h) fun _ => .done _
  cases record with
  | accountValue o => exact hother (applyAccountValue_keepsOrders I o)
  | position o => exact hother (applyPosition_keepsOrders I o)
  | pnl o => exact hother (applyPnl_keepsOrders I o)
  | order o => exact (applyOrder_keepsSync I o none).bind fun _ => .done _
  | fill o => exact hother (applyFill_keepsOrders I o)
  | commission o => exact hother (applyCommission_keepsOrders I o)

/-! ## Reads and writes -/

/-- The same broker rows; the status history, the generations and the staging may differ. -/
def SameRows (db db' : BrokerDb PyValue) : Prop := db.rows = db'.rows

theorem emit_sim (I : Ingest) (m : DomainMutation Cell) {write' : BrokerDb PyValue → Nat → BrokerDb PyValue}
    (hw : ∀ db db' revision, SameRows db db' → SameRows (write db revision) (write' db' revision)) :
    (emit I m write).Sim SameRows (emit I m write') := by
  refine .read fun t t' hs => ?_
  rw [hs.journal]
  exact .append (fun t t' revision hs => .ok (hw _ _ _ hs.own)) fun _ => .done ()

theorem emitRows_sim (I : Ingest) (m : DomainMutation Cell) (write : BrokerRows → Nat → BrokerRows) :
    (emitRows I m write).Sim SameRows (emitRows I m write) :=
  emit_sim I m fun _ _ revision hs => congrArg (write · revision) hs

theorem readDb_sim {α : Type} {k : BrokerDb PyValue → IngestWork α}
    (h : ∀ db db', SameRows db db' → (k db).Sim SameRows (k db')) : (readDb.bind k).Sim SameRows (readDb.bind k) :=
  .read fun _ _ hs => h _ _ hs.own

theorem applyAccountValue_sim (I : Ingest) (obs : AccountValueObservation) :
    (applyAccountValue I obs).Sim SameRows (applyAccountValue I obs) := by
  refine readDb_sim fun db db' hs => ?_
  rw [hs]
  dsimp only
  split
  · exact .done ()
  · exact emitRows_sim I _ _

theorem applyPosition_sim (I : Ingest) (obs : PositionObservation) :
    (applyPosition I obs).Sim SameRows (applyPosition I obs) := by
  refine readDb_sim fun db db' hs => ?_
  rw [hs]
  dsimp only
  split
  · split
    · exact .done ()
    · exact emitRows_sim I _ _
  · split
    · exact .done ()
    · exact emitRows_sim I _ _

theorem applyPnl_sim (I : Ingest) (obs : PnLObservation) : (applyPnl I obs).Sim SameRows (applyPnl I obs) := by
  refine readDb_sim fun db db' hs => ?_
  rw [hs]
  dsimp only
  split
  · exact .done ()
  · split
    · exact .done ()
    · split
      · exact .done ()
      · exact emitRows_sim I _ _

theorem applyFill_sim (I : Ingest) (obs : FillObservation) : (applyFill I obs).Sim SameRows (applyFill I obs) := by
  refine readDb_sim fun db db' hs => ?_
  rw [hs]
  split
  · exact .done ()
  · exact emitRows_sim I _ _

theorem applyCommission_sim (I : Ingest) (obs : CommissionObservation) :
    (applyCommission I obs).Sim SameRows (applyCommission I obs) := by
  refine (applyFill_sim I obs.fill).bind fun _ => readDb_sim fun db db' hs => ?_
  rw [hs]
  dsimp only
  split
  · exact .fail _
  · split
    · exact .done ()
    · exact emitRows_sim I _ _

theorem bindFills_sim (I : Ingest) (obs : OrderObservation) (entity : String) (fills : List BrokerFillRow) :
    (bindFills I obs entity fills).Sim SameRows (bindFills I obs entity fills) := by
  induction fills with
  | nil => exact .done ()
  | cons fill rest ih =>
    simp only [bindFills]
    split
    · exact (emitRows_sim I _ _).bind fun _ => ih
    · exact ih

theorem resolveUnboundFills_sim (I : Ingest) (obs : OrderObservation) (entity : String) :
    (resolveUnboundFills I obs entity).Sim SameRows (resolveUnboundFills I obs entity) := by
  refine readDb_sim fun db db' hs => ?_
  rw [hs]
  exact bindFills_sim I obs entity _

/-- **The generation of the status event is the only difference.** -/
theorem applyOrder_sim (I : Ingest) (obs : OrderObservation) (generation generation' : Option Nat) :
    (applyOrder I obs generation).Sim SameRows (applyOrder I obs generation') := by
  have hrecord : (recordOrder I obs generation).Sim SameRows (recordOrder I obs generation') := by
    refine .read fun t t' hs => ?_
    have hrows : t.own.rows = t'.own.rows := hs.own
    rw [hrows]
    dsimp only
    split
    · exact .writeOwn (fun db db' h => .ok (congrArg (bindAliases I.sessionEpoch · _ obs) h)) (.done _)
    · refine (emit_sim I _ fun db db' revision h => ?_).bind fun _ => .done _
      exact congrArg (fun rows => (bindAliases I.sessionEpoch rows _ obs).upsertOrder _) h
  exact hrecord.bind fun recorded => (resolveUnboundFills_sim I obs recorded.1).bind fun _ => .done recorded

theorem applyRecord_sim (I : Ingest) (record : Observation) :
    (applyRecord I record).Sim SameRows (applyRecord I record) := by
  cases record with
  | accountValue o => exact (applyAccountValue_sim I o).bind fun _ => .done _
  | position o => exact (applyPosition_sim I o).bind fun _ => .done _
  | pnl o => exact (applyPnl_sim I o).bind fun _ => .done _
  | order o => exact (applyOrder_sim I o none none).bind fun _ => .done _
  | fill o => exact (applyFill_sim I o).bind fun _ => .done _
  | commission o => exact (applyCommission_sim I o).bind fun _ => .done _

end MmrTrader.Broker
