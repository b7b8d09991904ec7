import Mathlib.Logic.Function.Basic
import MmrTrader.Broker.Apply
import MmrTrader.Journal.Autocommit
import MmrTrader.Saga.Model

/-!
# Broker syncs, live batches and held changes

Executable model of the threads of `BrokerIngest` (`trader/trading/broker_ingest.py`): the callbacks
that enqueue, the drain thread, the promote threads of `run_broker_sync`, and the callers of
`begin_generation`, `mark_source_complete`, `abandon_generation` and `hold_changes`.

* `SyncState` — the committed tables, the queue, the in-memory generation, the two locks and where
  each thread stands;
* `SyncAction`, `syncStep` — every interleaving.  What runs under the apply lock in one transaction
  is one action; a live record is applied one transaction at a time, and a promotion transaction
  begins and ends in actions of its own.

Transactions are snapshot isolated: a promotion reads the tables of its `BEGIN`, and of two
transactions that wrote one generation row the later commit fails.  Journal batches, and so a
promotion from its `BEGIN` on, hold the journal's write lock.  Any transaction may also fail; that a
lock is not free in time is an action that is not taken.
`Trace` is a ghost: it says which observation went where.  The saga is a parameter (`SagaPort`).
-/

set_option autoImplicit false

namespace MmrTrader.Broker

open MmrTrader.Lib
open MmrTrader.Journal (JournalState mutateBatchWork)

/-- A queued observation; `id` counts the observations enqueued before it. -/
structure Queued where
  id : Nat
  obs : Observation

structure Generation where
  generationId : Nat
  required : List String
  complete : List String

/-- `set(required) - complete` is empty. -/
def Generation.isComplete (g : Generation) : Bool := g.required.all g.complete.contains

/-- The protective saga, as the ingest calls it. -/
structure SagaPort (σ : Type) where
  onBrokerEvent : σ → BrokerOrderRow → OrderObservation → σ
  reconcileTerminalEntries : σ → BrokerTables → σ

/-- Where a thread stands; thread `0` is the drain thread, the others are promote threads. -/
inductive Phase where
  | idle
  /-- Emptying the queue. -/
  | collecting (batch : List Queued)
  /-- Waiting for the apply lock. -/
  | waiting (batch : List Queued)
  /-- In `_apply_batch`, between two records. -/
  | applying (batch : List Queued)
  /-- In `_apply_record`. -/
  | recording (record : Queued) (work : IngestWork (Option BrokerOrderRow)) (batch : List Queued)
  | drained
  /-- `promote_generation` has checked and captured the generation. -/
  | captured (generationId : Nat)
  /-- Inside the promotion transaction, with the tables of its `BEGIN`, the row version it saw and
      the staged records it reads. -/
  | promoting (generationId : Nat) (ingest : Ingest) (snapshot : BrokerJournal) (version : Nat)
      (records : List (Nat × Queued))
  /-- The transaction is over. -/
  | promoted (generationId : Nat) (committed : Bool)
  | reconciling

inductive LockHolder where
  | thread (i : Nat)
  | hold
  deriving DecidableEq

structure Promotion where
  generationId : Nat
  ingest : Ingest
  before : BrokerJournal
  after : BrokerJournal
  records : List (Nat × Queued)

/-- What happened to records: one was applied live, or a generation's were applied by a promotion. -/
inductive Outcome where
  | live (record : Queued)
  | promotion (p : Promotion)

def Outcome.records : Outcome → List Queued
  | .live record => [record]
  | .promotion p => p.records.map Prod.snd

structure Trace where
  sent : List Queued
  /-- How many observations were enqueued when the generation began. -/
  began : Nat → Nat
  /-- How many were enqueued when a source of it was last marked. -/
  marked : Nat → Nat
  /-- The records staged into each generation, with their `ingest_seq`. -/
  staged : Nat → List (Nat × Queued)
  /-- The generations whose staged rows a promotion has read. -/
  read : List Nat
  /-- Records that were staged into such a generation afterwards. -/
  late : List Queued
  done : List Outcome
  raised : Bool

def Trace.empty : Trace := ⟨[], fun _ => 0, fun _ => 0, fun _ => [], [], [], [], false⟩

structure SyncState (σ : Type) where
  db : BrokerJournal
  /-- How often each generation row was written. -/
  version : Nat → Nat
  queue : List Queued
  ingestSeq : Nat
  generation : Option Generation
  suppress : Bool
  lock : Option LockHolder
  /-- The promote thread that holds the journal's write lock. -/
  writer : Option Nat
  threads : Nat → Phase
  saga : σ
  trace : Trace

/-- A database that an ingest can be started on: generation ids come from the sequence. -/
structure StoredDb where
  journal : BrokerJournal
  generations_le : ∀ r ∈ journal.tables.own.generations.rows, r.generationId ≤ journal.tables.own.generationSeq
  staging_le : ∀ r ∈ journal.tables.own.staging.rows, r.generationId ≤ journal.tables.own.generationSeq

def StoredDb.empty : StoredDb :=
  ⟨JournalState.empty (BrokerDb.empty PyValue), fun r hr => (by cases hr), fun r hr => (by cases hr)⟩

section

variable {σ : Type}

/-- A new ingest on a database. -/
def SyncState.start (stored : StoredDb) (saga : σ) : SyncState σ where
  db := stored.journal
  version := fun _ => 0
  queue := []
  ingestSeq := 0
  generation := none
  suppress := false
  lock := none
  writer := none
  threads := fun _ => .idle
  saga := saga
  trace := .empty

def SyncState.own (s : SyncState σ) : BrokerDb PyValue := s.db.tables.own

def SyncState.setPhase (s : SyncState σ) (i : Nat) (p : Phase) : SyncState σ :=
  { s with threads := Function.update s.threads i p }

def SyncState.setOwn (s : SyncState σ) (own : BrokerDb PyValue) : SyncState σ :=
  { s with db := { s.db with tables := { s.db.tables with own := own } } }

def SyncState.touch (s : SyncState σ) (generationId : Nat) : SyncState σ :=
  { s with version := Function.update s.version generationId (s.version generationId + 1) }

/-! ## Calls under the apply lock -/

/-- A broker callback. -/
def enqueue (s : SyncState σ) (obs : Observation) : SyncState σ :=
  let record : Queued := ⟨s.trace.sent.length, obs⟩
  { s with
    queue := s.queue ++ [record]
    trace := { s.trace with sent := s.trace.sent ++ [record] } }

def beginGeneration (s : SyncState σ) (required : List String) (now : Int) : SyncState σ :=
  if s.lock.isSome ∨ s.generation.isSome ∨ required = [] ∨ ¬ required.Nodup then s else
  let opened := s.own.openGeneration required now
  let s := (s.setOwn opened.2).touch opened.1
  { s with
    generation := some ⟨opened.1, required, []⟩
    trace := { s.trace with
      began := Function.update s.trace.began opened.1 s.trace.sent.length
      marked := Function.update s.trace.marked opened.1 s.trace.sent.length } }

def markSourceComplete (s : SyncState σ) (source : String) : SyncState σ :=
  if s.lock.isSome then s else
  match s.generation with
  | none => s
  | some g =>
      if source ∉ g.required then s else
      match s.own.markSourceComplete g.generationId source with
      | none => s
      | some own =>
          let s := (s.setOwn own).touch g.generationId
          { s with
            generation := some { g with complete := source :: g.complete }
            trace := { s.trace with marked := Function.update s.trace.marked g.generationId s.trace.sent.length } }

def abandonGeneration (s : SyncState σ) (reason : String) (now : Int) : SyncState σ :=
  if s.lock.isSome then s else
  match s.generation with
  | none => s
  | some g =>
      let own := (s.own.markGenerationAbandoned g.generationId reason now).purgeStaging g.generationId
      { (s.setOwn own).touch g.generationId with generation := none }

/-- The entry of a `hold_changes` block. -/
def holdEnter (s : SyncState σ) : SyncState σ :=
  if s.lock.isSome ∨ s.generation.isSome then s else { s with lock := some .hold }

def holdExit (s : SyncState σ) : SyncState σ := if s.lock = some .hold then { s with lock := none } else s

/-! ## Batches -/

/-- `first = self._queue.get(…)` of the drain loop. -/
def takeFirst (s : SyncState σ) : SyncState σ :=
  match s.threads 0, s.queue with
  | .idle, first :: rest => { s with queue := rest }.setPhase 0 (.collecting [first])
  | _, _ => s

/-- A promote thread starts `drain_once`. -/
def startPromote (s : SyncState σ) (i : Nat) : SyncState σ :=
  match s.threads i with
  | .idle => if i = 0 then s else s.setPhase i (.collecting [])
  | _ => s

/-- `get_nowait`. -/
def pop (s : SyncState σ) (i : Nat) : SyncState σ :=
  match s.threads i, s.queue with
  | .collecting batch, first :: rest => { s with queue := rest }.setPhase i (.collecting (batch ++ [first]))
  | _, _ => s

def afterBatch (i : Nat) : Phase := if i = 0 then .idle else .drained

/-- `get_nowait` raises `Empty`. -/
def queueEmpty (s : SyncState σ) (i : Nat) : SyncState σ :=
  match s.threads i, s.queue with
  | .collecting [], [] => s.setPhase i (afterBatch i)
  | .collecting batch, [] => s.setPhase i (.waiting batch)
  | _, _ => s

/-- `_apply_batch` takes the apply lock. -/
def acquire (s : SyncState σ) (i : Nat) : SyncState σ :=
  match s.threads i with
  | .waiting batch => if s.lock.isSome then s else { s with lock := some (.thread i) }.setPhase i (.applying batch)
  | _ => s

/-- The batch raises: the rest of it is dropped, and a promote thread ends. -/
def raiseBatch (s : SyncState σ) (i : Nat) : SyncState σ :=
  { s with
    lock := none
    trace := { s.trace with raised := true } }.setPhase i .idle

/-- The next record of the batch: staged, or its live application starts. -/
def nextRecord (s : SyncState σ) (i : Nat) (ingest : Ingest) : SyncState σ :=
  match s.threads i with
  | .applying (record :: batch) =>
      let s := { s with ingestSeq := s.ingestSeq + 1 }
      match s.generation with
      | none => s.setPhase i (.recording record (applyRecord ingest record.obs) batch)
      | some g =>
          match s.own.stage (stagedRow g.generationId s.ingestSeq record.obs) with
          | none => raiseBatch s i
          | some own =>
              { s.setOwn own with
                trace := { s.trace with
                  staged := Function.update s.trace.staged g.generationId
                    (s.trace.staged g.generationId ++ [(s.ingestSeq, record)])
                  late := if g.generationId ∈ s.trace.read then s.trace.late ++ [record] else s.trace.late } }.setPhase i
                (.applying batch)
  | .applying [] => { s with lock := none }.setPhase i (afterBatch i)
  | _ => s

/-- `_notify_protective_saga`, for a live record that wrote an order. -/
def notifySaga (port : SagaPort σ) (s : SyncState σ) (obs : Observation) (changed : Option BrokerOrderRow) : SyncState σ :=
  match obs, changed with
  | .order o, some row => if s.suppress then s else { s with saga := port.onBrokerEvent s.saga row o }
  | _, _ => s

def continueRecord (port : SagaPort σ) (s : SyncState σ) (i : Nat) : SyncState σ :=
  match s.threads i with
  | .recording record work batch =>
      match work with
      | .done changed =>
          let s := notifySaga port s record.obs changed
          { s with trace := { s.trace with done := s.trace.done ++ [Outcome.live record] } }.setPhase i (.applying batch)
      | .fail _ => raiseBatch s i
      | .read next => s.setPhase i (.recording record (next s.db.tables) batch)
      | .writeOwn write next =>
          match write s.own with
          | .error _ => raiseBatch s i
          | .ok own => (s.setOwn own).setPhase i (.recording record next batch)
      | .append m write eventId receivedTs next =>
          -- the journal's write lock
          if s.writer.isSome then s else
          match mutateBatchWork s.db (.append m write eventId receivedTs .done) with
          | (.error _, db) => raiseBatch { s with db := db } i
          | (.ok event, db) => { s with db := db }.setPhase i (.recording record (next event) batch)
  | _ => s

/-- A database error in a batch. -/
def failBatch (s : SyncState σ) (i : Nat) : SyncState σ :=
  match s.threads i with
  | .applying (_ :: _) => raiseBatch s i
  | .recording _ _ _ => raiseBatch s i
  | _ => s

/-! ## Promotion -/

/-- The checks of `promote_generation` under the apply lock. -/
def capture (s : SyncState σ) (i : Nat) : SyncState σ :=
  match s.threads i with
  | .drained =>
      if s.lock.isSome then s else
      match s.generation with
      | none => s.setPhase i .idle
      | some g =>
          if g.isComplete then { s with suppress := true }.setPhase i (.captured g.generationId) else s.setPhase i .idle
  | _ => s

def beginPromotion (s : SyncState σ) (i : Nat) (ingest : Ingest) : SyncState σ :=
  match s.threads i with
  | .captured g =>
      if s.writer.isSome then s else
      { s with
        writer := some i
        trace := { s.trace with read := g :: s.trace.read } }.setPhase i
          (.promoting g ingest s.db (s.version g) (s.trace.staged g))
  | _ => s

/-- The aliases a transaction inserted, next to those committed since its `BEGIN`. -/
def mergeAliases (snapshot current after : Table AliasRow.key) : Option (Table AliasRow.key) :=
  (after.rows.filter fun r => (snapshot.get? r.key).isNone).foldlM (fun t r => t.insert? r) current

/-- The tables after the commit of a promotion whose own view ends as `after`. -/
def promotedTables (s : SyncState σ) (generationId : Nat) (now : Int) (cursor : Nat) (snapshot after : BrokerTables) :
    Option BrokerTables :=
  (mergeAliases snapshot.own.rows.aliases s.own.rows.aliases after.own.rows.aliases).map fun aliases =>
    { journal := after.journal
      materialized := after.materialized
      checkpoints := s.db.tables.checkpoints
      own :=
        { rows := { after.own.rows with aliases := aliases }
          orderEvents := after.own.orderEvents
          generations := (s.own.markGenerationPromoted generationId cursor now).generations
          generationSeq := s.own.generationSeq
          staging := s.own.staging.deleteWhere fun r =>
            r.generationId == generationId && (snapshot.own.staging.get? r.key).isSome } }

/-- The transaction is rolled back. -/
def rollbackPromotion (s : SyncState σ) (i : Nat) (generationId seq : Nat) : SyncState σ :=
  { s with
    db := { s.db with seq := seq }
    writer := none }.setPhase i (.promoted generationId false)

/-- The `COMMIT`: it fails when the generation's row was written since `BEGIN`. -/
def commitPromotion (s : SyncState σ) (i : Nat) : SyncState σ :=
  match s.threads i with
  | .promoting g ingest snapshot version records =>
      match mutateBatchWork snapshot (promoteInTransaction ingest g) with
      | (.error _, after) => rollbackPromotion s i g after.seq
      | (.ok cursor, after) =>
          if s.version g ≠ version then rollbackPromotion s i g after.seq else
          match promotedTables s g ingest.clock.instant cursor snapshot.tables after.tables with
          | none => rollbackPromotion s i g after.seq
          | some tables =>
              let db : BrokerJournal := ⟨tables, after.seq, after.latestCommittedCursor⟩
              let promotion : Promotion := ⟨g, ingest, snapshot, after, records⟩
              { s.touch g with
                db := db
                writer := none
                trace := { s.trace with done := s.trace.done ++ [Outcome.promotion promotion] } }.setPhase i (.promoted g true)
  | _ => s

def failPromotion (s : SyncState σ) (i : Nat) : SyncState σ :=
  match s.threads i with
  | .promoting g _ _ _ _ => rollbackPromotion s i g s.db.seq
  | _ => s

/-- The `finally` of `promote_generation`. -/
def clearGeneration (s : SyncState σ) (i : Nat) : SyncState σ :=
  match s.threads i with
  | .promoted g committed =>
      if s.lock.isSome then s else
      { s with
        suppress := false
        generation := if s.generation.map Generation.generationId = some g then none else s.generation }.setPhase i
          (if committed then .reconciling else .idle)
  | _ => s

def reconcileSaga (port : SagaPort σ) (s : SyncState σ) (i : Nat) : SyncState σ :=
  match s.threads i with
  | .reconciling => { s with saga := port.reconcileTerminalEntries s.saga s.db.tables }.setPhase i .idle
  | _ => s

/-! ## Interleavings -/

inductive SyncAction where
  | enqueue (obs : Observation)
  | beginGeneration (required : List String) (now : Int)
  | markSourceComplete (source : String)
  | abandonGeneration (reason : String) (now : Int)
  | holdEnter
  | holdExit
  | takeFirst
  | startPromote (i : Nat)
  | pop (i : Nat)
  | queueEmpty (i : Nat)
  | acquire (i : Nat)
  | nextRecord (i : Nat) (ingest : Ingest)
  | continueRecord (i : Nat)
  | failBatch (i : Nat)
  | capture (i : Nat)
  | beginPromotion (i : Nat) (ingest : Ingest)
  | commitPromotion (i : Nat)
  | failPromotion (i : Nat)
  | clearGeneration (i : Nat)
  | reconcileSaga (i : Nat)

def syncStep (port : SagaPort σ) (s : SyncState σ) : SyncAction → SyncState σ
  | .enqueue obs => enqueue s obs
  | .beginGeneration required now => beginGeneration s required now
  | .markSourceComplete source => markSourceComplete s source
  | .abandonGeneration reason now => abandonGeneration s reason now
  | .holdEnter => holdEnter s
  | .holdExit => holdExit s
  | .takeFirst => takeFirst s
  | .startPromote i => startPromote s i
  | .pop i => pop s i
  | .queueEmpty i => queueEmpty s i
  | .acquire i => acquire s i
  | .nextRecord i ingest => nextRecord s i ingest
  | .continueRecord i => continueRecord port s i
  | .failBatch i => failBatch s i
  | .capture i => capture s i
  | .beginPromotion i ingest => beginPromotion s i ingest
  | .commitPromotion i => commitPromotion s i
  | .failPromotion i => failPromotion s i
  | .clearGeneration i => clearGeneration s i
  | .reconcileSaga i => reconcileSaga port s i

end

end MmrTrader.Broker

/-!
## The tables of the protective saga

* `SagaTables` — `automated_order_sagas` with `automated_order_saga_groups`
  (`trader/automation/protective_order_saga.py`).

Nothing else writes a saga in these runs, so no attempt meets a revision conflict.
-/

namespace MmrTrader.Broker

open MmrTrader.Lib
open MmrTrader.Saga (SagaState)

structure SagaTables where
  sagas : List SagaState
  /-- The command and the protection generation of each group, the newest first. -/
  groups : List (String × String × Nat)

/-- The join of `load_by_group`. -/
def SagaTables.byGroupRow (t : SagaTables) (group : String) : Option (SagaState × Nat) :=
  (t.groups.lookup group).bind fun (commandId, generation) =>
    (t.sagas.find? fun s => s.commandId == commandId).map (·, generation)

def SagaTables.loadByGroup (t : SagaTables) (group : String) : Option (SagaState × Nat) :=
  match t.byGroupRow group with
  | some found => some found
  | none => (t.sagas.find? fun s => s.orderGroupId == group).map (·, 0)

/-- `save_in_tx`, for a stored row. -/
def SagaTables.save (t : SagaTables) (new : SagaState) : SagaTables where
  sagas := t.sagas.map fun s => if s.commandId = new.commandId then new else s
  groups := new.pendingGroups.map (·, new.commandId, new.protectionGeneration + 1) ++
    new.activeGroups.map (·, new.commandId, new.protectionGeneration) ++ t.groups

end MmrTrader.Broker
