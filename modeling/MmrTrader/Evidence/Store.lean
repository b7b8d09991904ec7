import MmrTrader.Evidence.Payload
import MmrTrader.Journal.Autocommit
import MmrTrader.Lib.Interleaving
import MmrTrader.Lib.PyJsonReads

/-!
# The evidence store

Executable model of `EvidenceStore` (`trader/promotion/evidence_store.py`).  Its calls run interleaved on one journal; each
`SELECT` and each transaction is a step.

* `EvidenceDb`, `store` — the journal with the appends committed so far; calls and retention sweeps in any order.
-/

set_option autoImplicit false

namespace MmrTrader.Evidence

open Lib PyJson Journal
open Lib.Interleaving (Prog System World Label)

def CORRECTION_SCOPES : List String := ["code", "config", "allowlist", "risk", "data"]

def EventKind.name : EventKind → String
  | .session => "session"
  | .roundTrip => "round_trip"
  | .instrument => "instrument"
  | .correction => "correction"
  | .breakerTrip => "breaker_trip"
  | .costBreach => "cost_breach"
  | .drawdownBreach => "drawdown_breach"
  | .divergence => "divergence"
  | .duplicate => "duplicate"
  | .unresolvedAlert => "unresolved_alert"
  | .missedFlat => "missed_flat"
  | .replayMismatch => "replay_mismatch"

/-- The scope of a payload is one of `CORRECTION_SCOPES`. -/
def InScope {F : Type} (payload : Dict F) : Prop := ∃ scope ∈ CORRECTION_SCOPES, get? (text "scope") payload = some (.str (text scope))

/-- `EvidenceEvent`; the last fields are `__post_init__`. -/
structure EvidenceEvent (F : Type) where
  sourceEventId : String
  strategyId : String
  eventKind : EventKind
  payload : Dict F
  sourceTimestamp : Timestamp
  sourceEventId_required : sourceEventId ≠ ""
  strategyId_required : strategyId ≠ ""
  correction_scope : eventKind = .correction → InScope payload

/-- A row of `promotion_evidence_events`, as it is stored. -/
structure StoredRow where
  evidenceKey : String
  strategyId : String
  eventKind : EventKind
  payload : String
  sourceTimestamp : Timestamp
  recordedAt : Timestamp

/-- `promotion_evidence_events`. -/
abbrev EvidenceTable := Table StoredRow.evidenceKey

inductive EvidenceError where
  | dump (e : DumpError)
  | constraint
  | commit
  /-- What the outside raises in a call. -/
  | fault
  deriving DecidableEq

variable {F : Type}

/-- `_is_missing_strategy_metadata`. -/
instance : JsonValue (Value F) where
  isMissing
    | .null => true
    | .str [] => true
    | .array .nil => true
    | .object .empty => true
    | _ => false

def column (t : Text) : String := String.ofList (chars t)

section
variable [PyFloat F]

/-- The row of an event; `json.dumps` may raise. -/
def EvidenceEvent.row (limit : Nat) (event : EvidenceEvent F) (now : Timestamp) : Except DumpError StoredRow :=
  match dumpsWith spaced (sortKeys (.object event.payload)) limit [] with
  | .ok payload => .ok ⟨event.sourceEventId, event.strategyId, event.eventKind, column payload, event.sourceTimestamp, now⟩
  | .error e => .error e

/-! ## Reading -/

/-- `json.loads` of a row; `none` is an exception, or a payload that is no object. -/
def readRow (limit : Nat) (row : StoredRow) : Option (EvidenceRow F) :=
  match decode (E := Empty) plainObject limit (text row.payload) with
  | .ok (.object payload) =>
    some ⟨row.evidenceKey, row.strategyId, row.eventKind, payload, row.sourceTimestamp, row.recordedAt⟩
  | _ => none

end

/-! ## Writing -/

/-- The journal, and the events whose transaction committed with the time of each, first one first.  No call reads the
latter. -/
structure EvidenceDb (F : Type) where
  journal : JournalState (Value F) EvidenceTable
  committed : List (EvidenceEvent F × Timestamp)

def EvidenceDb.rows (db : EvidenceDb F) : EvidenceTable := db.journal.tables.own

def EvidenceDb.empty : EvidenceDb F := ⟨.empty .empty, []⟩

/-- What a step is told: the clocks, and whether the `COMMIT` succeeds. -/
structure Answer where
  now : Timestamp
  receivedTs : Int
  commits : Bool

abbrev Call (F : Type) (α : Type) := Prog (EvidenceDb F) Answer (JournalError EvidenceError) α

def str (s : String) : Value F := .str (text s)

/-- `journal.mutate`, with a `COMMIT` that may fail. -/
def mutateWork (m : DomainMutation (Value F)) (write : WriteMaterialized (Value F) EvidenceTable EvidenceError)
    (eventId : String) (answer : Answer) : Work (Value F) EvidenceTable EvidenceError Unit :=
  .append m write eventId answer.receivedTs fun _ => if answer.commits then .done () else .fail .commit

def appendMutation (event : EvidenceEvent F) : DomainMutation (Value F) where
  eventType := "promotion.evidence_appended"
  entityType := "promotion_evidence"
  entityId := event.sourceEventId
  operation := .upsert
  accountId := none
  source := "trader_service"
  sourceTimestamp := event.sourceTimestamp.micros
  correlationId := some event.strategyId
  payload := some [("source_event_id", str event.sourceEventId), ("strategy_id", str event.strategyId),
    ("event_kind", str event.eventKind.name), ("payload", .object event.payload)]
  payload_iff_upsert := rfl

section
variable [PyFloat F]

/-- The `write` of `append`: the row is looked for again inside the transaction. -/
def writeEvent (limit : Nat) (event : EvidenceEvent F) (now : Timestamp) :
    WriteMaterialized (Value F) EvidenceTable EvidenceError := fun t _ =>
  match t.own.get? event.sourceEventId with
  | some _ => .ok t.own
  | none =>
    match event.row limit now with
    | .error e => .error (.dump e)
    | .ok row =>
      match t.own.insert? row with
      | some rows => .ok rows
      | none => .error .constraint

variable [DecidableEq (Value F)]

/-- The transaction of `append`; it returns `inserted["ok"]`. -/
def commitEvent (limit : Nat) (event : EvidenceEvent F) (answer : Answer) :
    EStateM (JournalError EvidenceError) (EvidenceDb F) Bool := fun db =>
  match mutateBatchWork db.journal
      (mutateWork (appendMutation event) (writeEvent limit event answer.now) ("promo-ev:" ++ event.sourceEventId) answer) with
  | (.ok _, journal) =>
    let db' : EvidenceDb F := ⟨journal, db.committed ++ [(event, answer.now)]⟩
    .ok ((db.rows.get? event.sourceEventId).isNone && (db'.rows.get? event.sourceEventId).isSome) db'
  | (.error e, journal) => .error e { db with journal := journal }

def appendEvent (limit : Nat) (event : EvidenceEvent F) : Call F Bool := do
  let existing ← Prog.read fun _ (db : EvidenceDb F) => .ok (db.rows.get? event.sourceEventId).isSome
  if existing then pure false else Prog.atomic (commitEvent limit event)

/-! ## The calls together -/

/-- A retention sweep of the journal. -/
structure Sweep where
  now : Int
  completedAt : Int
  commits : Bool

/-- The calls of `append`, with the journal's retention beside them. -/
def store (limit : Nat) : System (EvidenceDb F) Answer (JournalError EvidenceError) Bool (EvidenceEvent F) Sweep where
  main := appendEvent limit
  env sweep db := { db with journal := compact db.journal sweep.now sweep.completedAt sweep.commits }

def runStore (limit : Nat) (schedule : List (Label Answer (JournalError EvidenceError) (EvidenceEvent F) Sweep)) : EvidenceDb F :=
  ((store limit).run ⟨EvidenceDb.empty, fun _ => none⟩ schedule).shared

end

end MmrTrader.Evidence
