import Mathlib.Data.List.Sort
import MmrTrader.Lib.Table

/-!
# The domain journal: atomic append, materialized ledger, compaction

Executable model of `DomainJournal` (`trader/data/domain_journal.py`).

* `Tables` — the journal rows, the materialized-entity ledger, the snapshot checkpoints and the
  producer's own tables `W`, all of which live in the one database file.
* `Work` — the `work` callback of `mutate_batch_work`: it may read what the transaction has
  written so far, write its own tables, append events and raise at any point.  No producer of
  the repository catches an error of `append` inside its callback, so neither does `Work`.
* `append` — idempotent retry by `event_id` **before** anything is written: an equal mutation
  returns the recorded event without calling `write_materialized`, a different one raises.
* `mutateBatchWork` — `BEGIN`, `work`, `COMMIT` or `ROLLBACK`, then the commit signal.
  A rollback restores the tables but not the cursor sequence (`nextval` burns values).
* `Work.autocommit` — the same callback with one `mutate` for each append.
* `compact` — the retention sweep; `broker_generation` is carried forward.

A batch holds `_write_lock` and `fenced_read_lock` from `BEGIN` to `COMMIT`, so batches and
compactions are atomic with respect to each other.  Timestamps are UTC instants (`Int`).
-/

set_option autoImplicit false

namespace MmrTrader.Journal

open MmrTrader.Lib

inductive Operation where
  | upsert
  | delete
  deriving DecidableEq

/-- A JSON object in insertion order; `V` is the type of its values. -/
abbrev Payload (V : Type) := List (String × V)

/-- JSON values, as far as the journal looks into them
    (`_is_missing_strategy_metadata`: `None`, `""`, `[]` or `{}`). -/
class JsonValue (V : Type) where
  isMissing : V → Bool

/-- `DomainMutation`; the last field is `__post_init__`. -/
structure DomainMutation (V : Type) where
  eventType : String
  entityType : String
  entityId : String
  operation : Operation
  accountId : Option String
  source : String
  sourceTimestamp : Int
  correlationId : Option String
  payload : Option (Payload V)
  payload_iff_upsert : payload.isSome = (operation == .upsert)
  deriving DecidableEq

/-- One row of `domain_event_journal`; the mutation's columns are kept together. -/
structure JournalRow (V : Type) where
  sourceCursor : Nat
  eventId : String
  entityRevision : Nat
  mutation : DomainMutation V
  receivedTimestamp : Int
  deriving DecidableEq

/-- `DomainEvent`: a journal row without its arrival time. -/
structure DomainEvent (V : Type) where
  eventId : String
  sourceCursor : Nat
  entityRevision : Nat
  mutation : DomainMutation V
  deriving DecidableEq

/-- One row of `domain_materialized_entities`. -/
structure MaterializedRow (V : Type) where
  entityType : String
  entityId : String
  accountId : Option String
  entityRevision : Nat
  deleted : Bool
  payload : Option (Payload V)
  updatedAt : Int
  deriving DecidableEq

/-- `PRIMARY KEY (entity_type, entity_id)`. -/
def MaterializedRow.entity {V : Type} (row : MaterializedRow V) : String × String :=
  (row.entityType, row.entityId)

def JournalRow.entity {V : Type} (row : JournalRow V) : String × String :=
  (row.mutation.entityType, row.mutation.entityId)

def DomainMutation.entity {V : Type} (m : DomainMutation V) : String × String :=
  (m.entityType, m.entityId)

abbrev MaterializedTable (V : Type) := Table (MaterializedRow.entity (V := V))

/-- One row of `domain_snapshot_checkpoints`, newest last. -/
structure CheckpointRecord where
  createdAt : Int
  newestCursor : Nat
  oldestRetainedCursor : Nat
  brokerGeneration : Nat
  deriving DecidableEq

structure Tables (V W : Type) where
  journal : List (JournalRow V)
  materialized : MaterializedTable V
  checkpoints : List CheckpointRecord
  own : W

/-- What a batch can raise: the journal's own errors, or an error `E` of the producer. -/
inductive JournalError (E : Type) where
  | eventIdentityConflict (eventId : String)
  | constraint
  | producer (e : E)
  deriving DecidableEq

variable {V W E α : Type}

/-! ## Rows -/

def JournalRow.toEvent (row : JournalRow V) : DomainEvent V :=
  ⟨row.eventId, row.sourceCursor, row.entityRevision, row.mutation⟩

/-- `_canonical_payload`: sorted keys, so that key order does not matter. -/
def canonicalPayload (payload : Option (Payload V)) : Option (Payload V) :=
  payload.map fun p => p.insertionSort fun a b => a.1 ≤ b.1

def JournalRow.matches [DecidableEq V] (existing : JournalRow V) (m : DomainMutation V) : Bool :=
  existing.mutation.eventType == m.eventType &&
  existing.mutation.entityType == m.entityType &&
  existing.mutation.entityId == m.entityId &&
  existing.mutation.operation == m.operation &&
  existing.mutation.accountId == m.accountId &&
  existing.mutation.source == m.source &&
  existing.mutation.sourceTimestamp == m.sourceTimestamp &&
  existing.mutation.correlationId == m.correlationId &&
  canonicalPayload existing.mutation.payload == canonicalPayload m.payload

def selectJournalRow (journal : List (JournalRow V)) (eventId : String) : Option (JournalRow V) :=
  journal.find? (·.eventId == eventId)

/-- `_read_current_revision`: a delete tombstone still occupies the revision stream. -/
def readCurrentRevision (rows : MaterializedTable V) (entity : String × String) : Nat :=
  match rows.get? entity with
  | some row => row.entityRevision
  | none => 0

def STRATEGY_RUNTIME_METADATA_FIELDS : List String :=
  ["class_name", "bar_size", "conids", "universe", "params", "module", "display_name",
   "historical_days_prior"]

/-- `{**previous, **incoming}`. -/
def mergeDict (previous incoming : Payload V) : Payload V :=
  previous.map (fun kv => (kv.1, (incoming.lookup kv.1).getD kv.2)) ++
    incoming.filter (fun kv => (previous.lookup kv.1).isNone)

def setField (p : Payload V) (field : String) (value : V) : Payload V :=
  p.map (fun kv => if kv.1 = field then (kv.1, value) else kv)

/-- One turn of the loop over the metadata fields: a field the receipt left out, or sent empty,
    keeps its previous value. -/
def keepMetadata [JsonValue V] (previous incoming : Payload V) (merged : Payload V)
    (field : String) : Payload V :=
  let absent := match incoming.lookup field with
    | none => true
    | some value => JsonValue.isMissing value
  match previous.lookup field with
  | some value => if absent then setField merged field value else merged
  | none => merged

/-- `_materialized_payload`: merge receipt-only strategy updates into the snapshot source. -/
def materializedPayload [JsonValue V] (rows : MaterializedTable V) (m : DomainMutation V) :
    Option (Payload V) :=
  if m.entityType ≠ "strategy" ∨ m.operation = .delete then m.payload else
  match m.payload, rows.get? m.entity with
  | some incoming, some ⟨_, _, _, _, false, some previous, _⟩ =>
      some (STRATEGY_RUNTIME_METADATA_FIELDS.foldl (keepMetadata previous incoming)
        (mergeDict previous incoming))
  | payload, _ => payload

def upsertMaterialized [JsonValue V] (rows : MaterializedTable V) (m : DomainMutation V)
    (revision : Nat) (updatedAt : Int) : MaterializedTable V :=
  rows.upsert ⟨m.entityType, m.entityId, m.accountId, revision, m.operation == .delete,
    materializedPayload rows m, updatedAt⟩

/-! ## One transaction -/

/-- An open transaction: its view of the tables, the cursor sequence and the events so far. -/
structure Tx (V W : Type) where
  tables : Tables V W
  seq : Nat
  events : List (DomainEvent V)

/-- The `write_materialized(conn, revision)` callback: reads anything, writes its own tables. -/
abbrev WriteMaterialized (V W E : Type) := Tables V W → Nat → Except E W

/-- `_insert_journal_row`: `UNIQUE(entity_type, entity_id, entity_revision)`, then `nextval`. -/
def insertJournalRow (tx : Tx V W) (eventId : String) (m : DomainMutation V) (revision : Nat)
    (receivedTs : Int) : Except (JournalError E × Nat) (DomainEvent V × Tx V W) :=
  if tx.tables.journal.any (fun r => r.entity == m.entity && r.entityRevision == revision) then
    .error (.constraint, tx.seq)
  else
    let row : JournalRow V := ⟨tx.seq + 1, eventId, revision, m, receivedTs⟩
    .ok (row.toEvent, { tables := { tx.tables with journal := tx.tables.journal ++ [row] }
                        seq := tx.seq + 1
                        events := tx.events ++ [row.toEvent] })

/-- The `append` closure of `mutate_batch_work`.  An error carries the sequence value: the
    cursors already taken are not given back. -/
def append [DecidableEq V] [JsonValue V] (tx : Tx V W) (m : DomainMutation V)
    (write : WriteMaterialized V W E) (eventId : String) (receivedTs : Int) :
    Except (JournalError E × Nat) (DomainEvent V × Tx V W) :=
  match selectJournalRow tx.tables.journal eventId with
  | some existing =>
      if existing.matches m then
        .ok (existing.toEvent, { tx with events := tx.events ++ [existing.toEvent] })
      else .error (.eventIdentityConflict eventId, tx.seq)
  | none =>
      let nextRevision := readCurrentRevision tx.tables.materialized m.entity + 1
      match write tx.tables nextRevision with
      | .error e => .error (.producer e, tx.seq)
      | .ok own =>
          let tables := { tx.tables with
            own := own
            materialized := upsertMaterialized tx.tables.materialized m nextRevision receivedTs }
          insertJournalRow { tx with tables := tables } eventId m nextRevision receivedTs

/-- The `work` callback.  `append` is given the mutation, the writer, the event id (the caller's
    or a fresh `uuid4`) and the arrival time the journal stamps. -/
inductive Work (V W E : Type) (α : Type) : Type where
  | done (result : α)
  | fail (e : E)
  | read (next : Tables V W → Work V W E α)
  | writeOwn (write : W → Except E W) (next : Work V W E α)
  | append (m : DomainMutation V) (write : WriteMaterialized V W E) (eventId : String)
      (receivedTs : Int) (next : DomainEvent V → Work V W E α)

/-- Run the callback inside an open transaction. -/
def Work.run [DecidableEq V] [JsonValue V] :
    Work V W E α → Tx V W → Except (JournalError E × Nat) (α × Tx V W)
  | .done a, tx => .ok (a, tx)
  | .fail e, tx => .error (.producer e, tx.seq)
  | .read next, tx => (next tx.tables).run tx
  | .writeOwn write next, tx =>
      match write tx.tables.own with
      | .error e => .error (.producer e, tx.seq)
      | .ok own => next.run { tx with tables := { tx.tables with own := own } }
  | .append m write eventId receivedTs next, tx =>
      match Journal.append tx m write eventId receivedTs with
      | .error e => .error e
      | .ok (event, tx') => (next event).run tx'

/-- One callback after another. -/
def Work.bind {β : Type} : Work V W E α → (α → Work V W E β) → Work V W E β
  | .done a, k => k a
  | .fail e, _ => .fail e
  | .read next, k => .read fun t => (next t).bind k
  | .writeOwn write next, k => .writeOwn write (next.bind k)
  | .append m write eventId receivedTs next, k => .append m write eventId receivedTs fun event => (next event).bind k

instance : Monad (Work V W E) where
  pure := .done
  bind := Work.bind

/-! ## The journal -/

/-- The durable tables, the cursor sequence and the in-memory commit signal. -/
structure JournalState (V W : Type) where
  tables : Tables V W
  seq : Nat
  latestCommittedCursor : Nat

def JournalState.empty (own : W) : JournalState V W :=
  ⟨⟨[], Table.empty, [], own⟩, 0, 0⟩

def signalCommit (latest sourceCursor : Nat) : Nat :=
  if sourceCursor > latest then sourceCursor else latest

/-- The highest cursor of a batch's events; `0` when it appended none. -/
def maxCursor (events : List (DomainEvent V)) : Nat :=
  events.foldl (fun c e => max c e.sourceCursor) 0

/-- `mutate_batch_work`.  A failed `COMMIT` rolls back like a `work` that raises last. -/
def mutateBatchWork [DecidableEq V] [JsonValue V] (j : JournalState V W) (work : Work V W E α) :
    Except (JournalError E) α × JournalState V W :=
  match work.run ⟨j.tables, j.seq, []⟩ with
  | .error (e, seq) => (.error e, { j with seq := seq })
  | .ok (a, tx) =>
      (.ok a, { tables := tx.tables
                seq := tx.seq
                latestCommittedCursor :=
                  if tx.events.isEmpty then j.latestCommittedCursor
                  else signalCommit j.latestCommittedCursor (maxCursor tx.events) })

/-- The callback of `mutate_batch`: the mutations in order, results collected. -/
def batchWork : List (DomainMutation V × WriteMaterialized V W E × String × Int) →
    List (DomainEvent V) → Work V W E (List (DomainEvent V))
  | [], events => .done events
  | (m, write, eventId, receivedTs) :: rest, events =>
      .append m write eventId receivedTs fun event => batchWork rest (events ++ [event])

/-- `mutate`: a batch of one. -/
def mutate [DecidableEq V] [JsonValue V] (j : JournalState V W) (m : DomainMutation V)
    (write : WriteMaterialized V W E) (eventId : String) (receivedTs : Int) :
    Except (JournalError E) (List (DomainEvent V)) × JournalState V W :=
  mutateBatchWork j (batchWork [(m, write, eventId, receivedTs)] [])

/-- The same callback on a connection without an open transaction: every append is a `mutate` of its
    own and every other write commits by itself. -/
def Work.autocommit [DecidableEq V] [JsonValue V] :
    Work V W E α → JournalState V W → Except (JournalError E) α × JournalState V W
  | .done a, j => (.ok a, j)
  | .fail e, j => (.error (.producer e), j)
  | .read next, j => (next j.tables).autocommit j
  | .writeOwn write next, j =>
      match write j.tables.own with
      | .error e => (.error (.producer e), j)
      | .ok own => next.autocommit { j with tables := { j.tables with own := own } }
  | .append m write eventId receivedTs next, j =>
      match mutateBatchWork j (.append m write eventId receivedTs .done) with
      | (.ok event, j') => (next event).autocommit j'
      | (.error e, j') => (.error e, j')

/-! ## Compaction -/

/-- `RETENTION_FLOOR`, in seconds. -/
def RETENTION_FLOOR : Int := 30 * 24 * 60 * 60

def readLatestBrokerGeneration (checkpoints : List CheckpointRecord) : Nat :=
  match checkpoints.getLast? with
  | some c => c.brokerGeneration
  | none => 0

/-- `SELECT COALESCE(MAX(source_cursor), 0)`. -/
def newestCursor (journal : List (JournalRow V)) : Nat :=
  journal.foldl (fun c r => max c r.sourceCursor) 0

/-- `SELECT MIN(source_cursor)` of the rows that satisfy `p`. -/
def minCursorWhere (journal : List (JournalRow V)) (p : JournalRow V → Bool) : Option Nat :=
  ((journal.filter p).map (·.sourceCursor)).min?

/-- The retention point: the oldest row inside the time floor, or the newest row when all are
    stale.  `active_cursors` never changes it. -/
def timeFloorCursor (journal : List (JournalRow V)) (now : Int) : Nat :=
  (minCursorWhere journal fun r => now - RETENTION_FLOOR ≤ r.receivedTimestamp).getD (newestCursor journal)

def compactTables (t : Tables V W) (now completedAt : Int) : Tables V W :=
  let oldest := timeFloorCursor t.journal now
  { t with
    journal := t.journal.filter fun r => oldest ≤ r.sourceCursor
    checkpoints := t.checkpoints ++
      [⟨completedAt, newestCursor t.journal, oldest, readLatestBrokerGeneration t.checkpoints⟩] }

/-- `compact`.  `commits` is false when its transaction fails and rolls back; an error of the
    trailing `CHECKPOINT` comes after the commit and changes no row. -/
def compact (j : JournalState V W) (now completedAt : Int) (commits : Bool) : JournalState V W :=
  if commits then { j with tables := compactTables j.tables now completedAt } else j

end MmrTrader.Journal

/-!
## Reading a merged payload

A strategy's payload is merged into the one before it.

* `lookup_mergeDict` — a field of `{**previous, **incoming}`.
* `lookup_materializedPayload` — a field that the mutation carries, and that is no runtime metadata, is the mutation's.
-/

namespace MmrTrader.Journal

open MmrTrader.Lib

variable {V : Type}

theorem lookup_map_value (f : String → V → V) (p : Payload V) (k : String) :
    (p.map fun kv => (kv.1, f kv.1 kv.2)).lookup k = (p.lookup k).map (f k) := by
  induction p with
  | nil => rfl
  | cons kv p ih =>
    obtain ⟨name, v⟩ := kv
    rw [List.map_cons, List.lookup_cons, List.lookup_cons, ih]
    cases h : k == name with
    | true =>
      rw [eq_of_beq h]
      rfl
    | false => rfl

variable {k : String}

theorem lookup_filter {g : String × V → Bool} (hg : ∀ v, g (k, v) = true) (p : Payload V) :
    List.lookup k (p.filter g) = p.lookup k := by
  induction p with
  | nil => rfl
  | cons kv p ih =>
    obtain ⟨name, v⟩ := kv
    cases h : k == name with
    | true =>
      rw [eq_of_beq h] at hg
      rw [List.filter_cons_of_pos (hg v), List.lookup_cons, List.lookup_cons, h]
    | false =>
      rw [List.lookup_cons, h, ← ih, List.filter_cons]
      split
      · rw [List.lookup_cons, h]
      · rfl

theorem lookup_mergeDict (previous incoming : Payload V) (k : String) :
    (mergeDict previous incoming).lookup k = (incoming.lookup k).or (previous.lookup k) := by
  unfold mergeDict
  rw [List.lookup_append, lookup_map_value (fun name v => (incoming.lookup name).getD v)]
  cases hp : previous.lookup k with
  | some v => cases incoming.lookup k <;> rfl
  | none =>
    rw [Option.map_none, Option.none_or, Option.or_none]
    exact lookup_filter (fun _ => by rw [hp]; rfl) incoming

theorem lookup_setField_ne {field : String} (hk : k ≠ field) (value : V) (p : Payload V) :
    (setField p field value).lookup k = p.lookup k := by
  induction p with
  | nil => rfl
  | cons kv p ih =>
    obtain ⟨name, v⟩ := kv
    unfold setField at ih ⊢
    rw [List.map_cons, List.lookup_cons]
    by_cases hname : name = field
    · subst hname
      rw [if_pos rfl, List.lookup_cons, beq_eq_false_iff_ne.mpr hk]
      exact ih
    · rw [if_neg hname, List.lookup_cons, ih]

theorem lookup_keepMetadata [JsonValue V] (previous incoming : Payload V) {fields : List String}
    (hk : k ∉ fields) (merged : Payload V) :
    (fields.foldl (keepMetadata previous incoming) merged).lookup k = merged.lookup k := by
  induction fields generalizing merged with
  | nil => rfl
  | cons field fields ih =>
    rw [List.foldl_cons, ih (fun h => hk (List.mem_cons_of_mem _ h))]
    have hne : k ≠ field := fun h => hk (by rw [h]; exact List.mem_cons_self)
    unfold keepMetadata
    cases previous.lookup field with
    | none => rfl
    | some value =>
      dsimp only
      cases incoming.lookup field with
      | none => exact lookup_setField_ne hne value merged
      | some new =>
        dsimp only
        split
        · exact lookup_setField_ne hne value merged
        · rfl

theorem lookup_materializedPayload [JsonValue V] (rows : MaterializedTable V) {m : DomainMutation V} {incoming : Payload V}
    (hm : m.payload = some incoming) {v : V} (hv : incoming.lookup k = some v) (hk : k ∉ STRATEGY_RUNTIME_METADATA_FIELDS) :
    ∃ p, materializedPayload rows m = some p ∧ p.lookup k = some v := by
  unfold materializedPayload
  split
  · exact ⟨incoming, hm, hv⟩
  · split
    · rename_i incoming' previous hincoming _
      obtain rfl := Option.some.inj (hm.symm.trans hincoming)
      refine ⟨_, rfl, ?_⟩
      rw [lookup_keepMetadata _ _ hk, lookup_mergeDict, hv, Option.some_or]
    · rename_i payload _ _
      exact ⟨incoming, hm, hv⟩

end MmrTrader.Journal
