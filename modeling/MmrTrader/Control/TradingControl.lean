import MmrTrader.Journal.Model
import MmrTrader.Lib.Snapshot

/-!
# The pause gate

Executable model of `TradingControlStore` (`trader/trading/trading_control.py`).

* `Key`, `Rows` — the rows a transaction of the gate reads and writes: `trading_control_state`, the
  journal's `domain_materialized_entities` and `domain_event_journal` with its `UNIQUE` indexes,
  and the rows `R` of every other table.
* `Txn`, `gate` — the transactions: `seed` and `set` own their `BEGIN` and `COMMIT`, the claim of a
  risk-increasing command is a journal batch and holds the journal's write lock.

The rest of a claim (the proposal or AI-decision rows, the `VALIDATED -> SUBMITTING` row of the
command ledger and their journal events) is any work on rows that are not the gate's own.
Instants are UTC (`Int`); an instant without a zone does not exist here.
-/

set_option autoImplicit false

namespace MmrTrader.Control

open MmrTrader.Journal (DomainMutation MaterializedRow JournalRow Payload)
open MmrTrader.Lib.Snapshot

structure TradingControlState where
  accountId : String
  newExposurePaused : Bool
  revision : Nat
  updatedAt : Int
  updatedByCommandId : String
  updatedReason : String
  deriving DecidableEq

/-- The JSON values of a `trading_control.updated` payload. -/
inductive Scalar where
  | str (s : String)
  | bool (b : Bool)
  | int (n : Nat)
  deriving DecidableEq

/-- Primary keys, and the two `UNIQUE` indexes of the journal. -/
inductive Key (R : Type) where
  | control (accountId : String)
  | materialized (entityType entityId : String)
  | journal (entityType entityId : String) (entityRevision : Nat)
  | eventId (eventId : String)
  | other (row : R)
  deriving DecidableEq

abbrev ControlRow (accountId : String) := { state : TradingControlState // state.accountId = accountId }

@[reducible] def Rows {R : Type} (D : R → Type) : Key R → Type
  | .control accountId => ControlRow accountId
  | .materialized _ _ => MaterializedRow Scalar
  | .journal _ _ _ => JournalRow Scalar
  | .eventId _ => Unit
  | .other row => D row

variable {R : Type} [DecidableEq R] {D : R → Type}

abbrev GateConn (D : R → Type) := Conn (Key R) (Rows D)

inductive ControlError where
  | pauseStateUnavailable (accountId : String)
  | pauseRevisionConflict (accountId : String) (currentRevision : Nat)
  | tradingPaused (accountId : String)
  | constraint
  deriving DecidableEq

def ENTITY_TYPE : String := "trading_control"

/-! ## Reads -/

def getInTx (conn : GateConn D) (accountId : String) : Option (ControlRow accountId) :=
  conn.view (.control accountId)

def requireUnpausedInTx (conn : GateConn D) (accountId : String) : Except ControlError Unit :=
  match getInTx conn accountId with
  | none => .error (.pauseStateUnavailable accountId)
  | some state => if state.1.newExposurePaused then .error (.tradingPaused accountId) else .ok ()

/-! ## Journaling -/

/-- The mutation of `_journal_in_tx`. -/
def controlMutation (state : TradingControlState) (correlationId : String) : DomainMutation Scalar where
  eventType := "trading_control.updated"
  entityType := ENTITY_TYPE
  entityId := state.accountId
  operation := .upsert
  accountId := some state.accountId
  source := "trader_service"
  sourceTimestamp := state.updatedAt
  correlationId := some correlationId
  payload := some [("account_id", .str state.accountId), ("new_exposure_paused", .bool state.newExposurePaused),
    ("revision", .int state.revision), ("updated_by_command_id", .str state.updatedByCommandId),
    ("updated_reason", .str state.updatedReason)]
  payload_iff_upsert := rfl

def readCurrentRevision (conn : GateConn D) (entityType entityId : String) : Nat :=
  match conn.view (.materialized entityType entityId) with
  | some row => row.entityRevision
  | none => 0

/-- `DomainJournal._upsert_materialized`, for an entity that is no strategy. -/
def upsertMaterialized (conn : GateConn D) (m : DomainMutation Scalar) (revision : Nat) (updatedAt : Int) :
    GateConn D :=
  conn.put (.materialized m.entityType m.entityId)
    ⟨m.entityType, m.entityId, m.accountId, revision, m.operation == .delete, m.payload, updatedAt⟩

/-- `DomainJournal._insert_journal_row`; `sourceCursor` is what `nextval` gave. -/
def insertJournalRow (conn : GateConn D) (sourceCursor : Nat) (eventId : String) (m : DomainMutation Scalar)
    (revision : Nat) (receivedTs : Int) : Except ControlError (GateConn D) :=
  if (conn.view (.journal m.entityType m.entityId revision)).isSome || (conn.view (.eventId eventId)).isSome then
    .error .constraint
  else
    .ok ((conn.put (.journal m.entityType m.entityId revision) ⟨sourceCursor, eventId, revision, m, receivedTs⟩).put
      (.eventId eventId) ())

/-- `_journal_in_tx`: exactly one `trading_control.updated` event. -/
def journalInTx (conn : GateConn D) (sourceCursor : Nat) (state : TradingControlState)
    (correlationId eventId : String) : Except ControlError (GateConn D) :=
  let mutation := controlMutation state correlationId
  let nextRevision := readCurrentRevision conn mutation.entityType mutation.entityId + 1
  insertJournalRow (upsertMaterialized conn mutation nextRevision state.updatedAt) sourceCursor eventId mutation
    nextRevision state.updatedAt

def controlEventId (state : TradingControlState) : String :=
  "trading_control:" ++ state.accountId ++ ":" ++ toString state.revision

/-! ## Bootstrap -/

/-- `"live"` or `"paper"`. -/
inductive AccountMode where
  | live
  | paper
  deriving DecidableEq

/-- The row `seed_in_tx` inserts: live accounts start paused. -/
def seedRow (accountId : String) (mode : AccountMode) (now : Int) : ControlRow accountId :=
  ⟨⟨accountId, mode == .live, 1, now, "system:bootstrap", "account initialization"⟩, rfl⟩

/-- `seed_in_tx`: only the accounts that have no row yet.  Each account comes with the cursor its
    event gets. -/
def seedInTx (now : Int) : List (String × AccountMode × Nat) → GateConn D → Except ControlError (GateConn D)
  | [], conn => .ok conn
  | (accountId, mode, cursor) :: rest, conn =>
      match getInTx conn accountId with
      | some _ => seedInTx now rest conn
      | none => do
          let state := seedRow accountId mode now
          let conn ← journalInTx (conn.put (.control accountId) state) cursor state.1
            ("system:bootstrap:" ++ accountId) (controlEventId state.1)
          seedInTx now rest conn

/-! ## Pause and resume -/

/-- The arguments of `set`; `cursor` is the value the journal's sequence gives its event. -/
structure SetPause where
  accountId : String
  paused : Bool
  expectedRevision : Option Int
  commandId : String
  reason : String
  now : Int
  cursor : Nat

/-- The row the `UPDATE` of `set_pause_in_tx` writes. -/
def SetPause.row (p : SetPause) (current : ControlRow p.accountId) : ControlRow p.accountId :=
  ⟨{ current.1 with
      newExposurePaused := p.paused
      revision := current.1.revision + 1
      updatedAt := p.now
      updatedByCommandId := p.commandId
      updatedReason := p.reason }, current.2⟩

def setPauseInTx (conn : GateConn D) (p : SetPause) : Except ControlError (TradingControlState × GateConn D) :=
  match getInTx conn p.accountId with
  | none => .error (.pauseStateUnavailable p.accountId)
  | some current =>
      if current.1.newExposurePaused = p.paused then .ok (current.1, conn)
      -- resume is risk-increasing
      else if p.paused = false ∧ p.expectedRevision ≠ some (current.1.revision : Int) then
        .error (.pauseRevisionConflict p.accountId current.1.revision)
      else do
        let state := p.row current
        let conn ← journalInTx (conn.put (.control p.accountId) state) p.cursor state.1 p.commandId
          (controlEventId state.1)
        return (state.1, conn)

/-! ## Transactions -/

/-- A key that is not the gate's own. -/
def Key.foreign : Key R → Prop
  | .control _ => False
  | .materialized entityType _ => entityType ≠ ENTITY_TYPE
  | .journal entityType _ _ => entityType ≠ ENTITY_TYPE
  | .eventId _ => True
  | .other _ => True

/-- The claim transaction of a risk-increasing command: the pause check, then any work that
    raises (`none`) or writes rows that are not the gate's. -/
structure ClaimTx (D : R → Type) where
  commandId : String
  accountId : String
  work : Store (Key R) (Rows D) → Option (List ((k : Key R) × Rows D k))
  foreign : ∀ {s : Store (Key R) (Rows D)} {ws : List ((k : Key R) × Rows D k)}, work s = some ws → ∀ w ∈ ws, w.1.foreign

def putAll (conn : GateConn D) (ws : List ((k : Key R) × Rows D k)) : GateConn D :=
  ws.foldl (fun c w => c.put w.1 w.2) conn

/-- The `work` callback of a claim. -/
def claimWork (conn : GateConn D) (c : ClaimTx D) : Except ControlError (Option (GateConn D)) := do
  requireUnpausedInTx conn c.accountId
  return (c.work conn.view).map (putAll conn)

/-- The transactions on the journal file that touch the gate. -/
inductive Txn (D : R → Type) where
  | seed (accounts : List (String × AccountMode × Nat)) (now : Int)
  | set (p : SetPause)
  | claim (c : ClaimTx D)

/-- What a transaction does on its connection; `none` when it raises and rolls back. -/
def Txn.body : Txn D → GateConn D → Option (GateConn D)
  | .seed accounts now, conn => (seedInTx now accounts conn).toOption
  | .set p, conn => (setPauseInTx conn p).toOption.map (·.2)
  | .claim c, conn => (claimWork conn c).toOption.bind id

/-- Journal batches hold `_write_lock`; `set` and the bootstrap do not. -/
def Txn.locked : Txn D → Bool
  | .claim _ => true
  | _ => false

end MmrTrader.Control
