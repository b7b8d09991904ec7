import MmrTrader.Lib.Interleaving
import MmrTrader.Command.Ledger

/-!
# The broker's book as the commands see it

* `Broker` — the book, and the copy of it that the last promoted generation shows.
* `Outside`, `Broker.step` — what happens at the broker on its own: orders are placed, filled and die, and
  enumerations of the book are promoted later.
* `Book.held`, `Book.reductions` — the position, and what the reducing orders of one side may still fill.

The gateway and the trader's loop are outside the trader's tables: an order waits on the loop (`placed = false`)
until it is placed or refused, and whoever waits for it may give up before.
-/

set_option autoImplicit false

namespace MmrTrader.Command

open MmrTrader.Lib MmrTrader.Dispatch
open MmrTrader.Saga (Side OrderStatus)

/-- An order handed to the trader's loop, with the direction it was approved under. -/
structure SentOrder where
  orderGroupId : String
  conid : Int
  side : Side
  quantity : ℚ
  direction : RiskDirection
  placed : Bool
  filled : ℚ
  dead : Bool
  deriving DecidableEq

/-- What may still be filled. -/
def SentOrder.unfilled (o : SentOrder) : ℚ := if o.dead then 0 else max 0 (o.quantity - o.filled)

structure Book where
  positions : Table BrokerPositionRow.conid
  orders : List SentOrder
  netLiquidation : ℚ

def Book.held (b : Book) (conid : Int) : ℚ :=
  match b.positions.get? conid with
  | some row => row.quantity
  | none => 0

/-- What the reducing orders of one instrument and side may still fill. -/
def SentOrder.share (conid : Int) (side : Side) (o : SentOrder) : ℚ :=
  if o.conid = conid ∧ o.side = side ∧ o.direction = .REDUCING then o.unfilled else 0

def Book.reductions (b : Book) (conid : Int) (side : Side) : ℚ := (b.orders.map (SentOrder.share conid side)).sum

/-- `staged` is a copy an enumeration took; `shown` is what the tables of the last promoted generation hold. -/
structure Broker where
  book : Book
  staged : Option Book
  shown : Book
  generation : Nat

inductive Outside where
  | place (k : Nat)
  | fill (k : Nat) (quantity : ℚ)
  | die (k : Nat)
  | enumerate
  | promote
  | otherOrder (conid : Int) (delta : ℚ)

def Book.move (b : Book) (conid : Int) (delta : ℚ) : Book :=
  { b with
    positions := b.positions.upsert
      { conid := conid, quantity := b.held conid + delta, marketValue := none, deleted := false } }

/-- A BUY adds to the position. -/
def signed (side : Side) (quantity : ℚ) : ℚ :=
  match side with
  | .BUY => quantity
  | .SELL => -quantity

def Book.fill (b : Book) (k : Nat) (quantity : ℚ) : Book :=
  match b.orders[k]? with
  | some o =>
    if o.placed ∧ 0 < quantity ∧ quantity ≤ o.unfilled then
      { b.move o.conid (signed o.side quantity) with
        orders := b.orders.set k { o with filled := o.filled + quantity } }
    else b
  | none => b

def Book.alter (b : Book) (k : Nat) (f : SentOrder → SentOrder) : Book := { b with orders := b.orders.modify k f }

def Broker.step (s : Broker) : Outside → Broker
  | .place k => { s with book := s.book.alter k fun o => if o.dead then o else { o with placed := true } }
  | .fill k quantity => { s with book := s.book.fill k quantity }
  | .die k => { s with book := s.book.alter k fun o => { o with dead := true } }
  | .enumerate => { s with staged := some s.book }
  | .promote =>
    match s.staged with
    | some book => { s with staged := none, shown := book, generation := s.generation + 1 }
    | none => s
  | .otherOrder conid delta => { s with book := s.book.move conid delta }

def Broker.send (s : Broker) (o : SentOrder) : Broker := { s with book := { s.book with orders := s.book.orders ++ [o] } }

/-- The row a snapshot shows of a placed order. -/
def SentOrder.row (o : SentOrder) : BrokerOrderRow where
  orderEntityId := o.orderGroupId ++ ":entry"
  conid := o.conid
  orderGroupId := some o.orderGroupId
  leg := some .entry
  action := o.side
  totalQuantity := o.quantity
  filledQuantity := o.filled
  limitPrice := none
  stopPrice := none
  status := .Submitted
  deleted := false

/-- `capture`: the promoted generation. -/
def Broker.capture (s : Broker) (accountId : String) (accountMode : AccountMode) : BrokerRiskSnapshot where
  generationId := s.generation
  sourceCursor := s.generation
  accountId := accountId
  accountMode := accountMode
  netLiquidation := s.shown.netLiquidation
  positions := s.shown.positions.rows
  workingOrders := (s.shown.orders.filter fun o => o.placed ∧ ¬ o.dead).map SentOrder.row
  generationStartedAt := none

end MmrTrader.Command

/-!
## The command coordinator

`TradingCommandCoordinator` (`trader/trading/command_coordinator.py`) as programs whose transactions may interleave
with those of any other call.

* `Shared` — the journal's file, the broker and what the process keeps in memory.
* `Answers` — what the ports answer at one step; `fault` is what the step raises instead.
* `batch`, `readTables`, `transitionCommand` — the steps that sagas are made of.
* `execute` — the exact-retry lookup, the claim with its nonce and its audit row, the handler, the last transition.

The receipts leave out `retryable` and the correlation id, which is the command id.
-/

namespace MmrTrader.Command

open MmrTrader.Lib MmrTrader.Lib.Interleaving MmrTrader.Journal MmrTrader.Dispatch
open MmrTrader.Saga (Side)

/-- What the process keeps in memory: the reconciler's schedule and the RECEIVED rows read at its start. -/
structure Process where
  plans : List String
  receivedAtStart : List LedgerRow

structure Shared where
  journal : JournalState Json CommandTables
  broker : Broker
  process : Process

abbrev Shared.tables (s : Shared) : CommandTables := s.journal.tables.own

/-- How long the caller waits for the trader's loop, and what it then learns. -/
inductive DispatchAnswer where
  | timeout
  | success (orderIds : List Int)
  | rejected (reason : String)
  deriving DecidableEq

structure ExecutableQuote where
  side : String
  price : ℚ
  feedLive : Bool
  continuous : Bool
  marketTimestamp : Int
  deriving DecidableEq

/-- The ports at one step. -/
structure Answers where
  now : Int
  fault : Option CommandError := none
  captureProblem : Option String := none
  riskApproved : Bool := true
  quote : Option ExecutableQuote := none
  readings : Option GuardReadings := none
  dispatch : DispatchAnswer := .timeout

/-- The wiring of the process. -/
structure Setup where
  requestHash : RequestIdentity → String
  accountId : String
  accountMode : AccountMode
  guard : Option GuardConfig
  outsideSessionLimitEnabled : Bool
  paperMaxQuoteAgeSeconds : Option Int
  dispatchPolicy : Option (Option ℚ)

/-- `canonical_request_hash`. -/
def Setup.hash (P : Setup) (request : CommandRequest) : String := P.requestHash request.identity

structure CommandReceipt where
  commandId : String
  state : CommandState
  outcome : Option Json
  errorCode : Option String
  deriving DecidableEq

abbrev Call := Prog Shared Answers CommandError

/-- A callback of the journal's transactions. -/
abbrev TxWork := Work Json CommandTables CommandError

/-! ## Inside a transaction -/

namespace TxWork

def look {α : Type} (f : CommandTables → α) : TxWork α := Work.read fun t => Work.done (f t.own)

def put (t : CommandTables) : TxWork Unit := Work.writeOwn (fun _ => .ok t) (Work.done ())

def exec (f : Statement) : TxWork Unit := Work.writeOwn f (Work.done ())

def raise {α : Type} (e : CommandError) : TxWork α := Work.fail e

/-- `append` with the statement that its `write_materialized` runs. -/
def append (m : DomainMutation Json) (write : Statement) (eventId : String) (now : Int) : TxWork Unit :=
  Work.append m (fun t _ => write t.own) eventId now fun _ => Work.done ()

/-- `append` with `_noop_write`. -/
def note (m : DomainMutation Json) (eventId : String) (now : Int) : TxWork Unit := append m .ok eventId now

/-- `append` with `_assert_proposal_revision`. -/
def noteProposal (record : ProposalRecord) (correlationId : String) (now : Int) : TxWork Unit :=
  Work.append (proposalUpdated record correlationId)
    (fun t revision => if (revision : Int) = record.revision then .ok t.own else .error .concurrentProposalChange)
    (proposalEventId record) now fun _ => Work.done ()

def unjournaled (eventId : String) : TxWork Bool :=
  Work.read fun t => Work.done (selectJournalRow t.journal eventId).isNone

end TxWork

/-! ## Steps -/

def ofJournalError : JournalError CommandError → CommandError
  | .eventIdentityConflict eventId => .eventIdentityConflict eventId
  | .constraint => .raised "constraint"
  | .producer e => e

def commitWith {α : Type} (fault : Option CommandError) (work : TxWork α) : TxWork α :=
  match fault with
  | none => work
  | some e => work.bind fun _ => .fail e

/-- `mutate_batch_work`. -/
def batch {α : Type} (work : Answers → Shared → TxWork α) : Call α :=
  Prog.atomic fun a s =>
    match mutateBatchWork s.journal (commitWith a.fault (work a s)) with
    | (.ok v, j) => .ok v { s with journal := j }
    | (.error e, j) => .error (ofJournalError e) { s with journal := j }

/-- A read of a port or of the tables, which may raise. -/
def look {α : Type} (f : Answers → Shared → Except CommandError α) : Call α :=
  Prog.read fun a s =>
    match a.fault with
    | none => f a s
    | some e => .error e

def readTables {α : Type} (f : CommandTables → α) : Call α := look fun _ s => .ok (f s.tables)

/-- A port call that writes nothing the commands read. -/
def publish : Call Unit := look fun _ _ => .ok ()

def schedule (commandId : String) : Call Unit :=
  Prog.atomic fun _ s =>
    .ok () { s with process := { s.process with
      plans := if commandId ∈ s.process.plans then s.process.plans else s.process.plans ++ [commandId] } }

def transitionCommand (request : CommandRequest) (fromState toState : CommandState) (outcome : Option Json)
    (errorCode : Option String) : Call Unit :=
  batch fun a _ => TxWork.append (request.updated toState outcome errorCode a.now)
    (transition request.commandId fromState toState outcome errorCode a.now)
    (commandEventId request.commandId toState) a.now

/-! ## The coordinator -/

def rowToReceipt (row : LedgerRow) : CommandReceipt := ⟨row.commandId, row.state, row.outcome, row.errorCode⟩

def conflictReceipt (commandId : String) : CommandReceipt := ⟨commandId, .REJECTED, none, some "COMMAND_CONFLICT"⟩

/-- `claim_or_replay_in_tx`: the receipt of a command the ledger holds. -/
def claimOrReplay (P : Setup) (request : CommandRequest) (t : CommandTables) : Option CommandReceipt :=
  (t.ledger.get? request.commandId).map fun row =>
    if row.requestHash = P.hash request then rowToReceipt row else conflictReceipt request.commandId

inductive Handler where
  | saga (run : CommandRequest → Call CommandReceipt)
  | singleStep (run : CommandRequest → Call Json)

structure Registration where
  requiresPreflight : Bool
  handler : Handler

def writeReceived (P : Setup) (requiresPreflight : Bool) (request : CommandRequest) (now : Int) : Statement := fun t =>
  if requiresPreflight then
    match consume request (P.hash request) now t with
    | none => .error (.commandValidation "PREFLIGHT_REQUIRED" "missing, expired, or already-consumed preflight nonce")
    | some t' => insertReceived request (P.hash request) now t'
  else insertReceived request (P.hash request) now t

def receive (P : Setup) (requiresPreflight : Bool) (request : CommandRequest) : Call Bool :=
  batch fun a _ => do
    let inserted ← TxWork.unjournaled (commandEventId request.commandId .RECEIVED)
    TxWork.append (request.receivedEvent a.now) (writeReceived P requiresPreflight request a.now)
      (commandEventId request.commandId .RECEIVED) a.now
    return inserted

def losingClaimReceipt (P : Setup) (request : CommandRequest) : Call CommandReceipt := do
  match ← readTables (claimOrReplay P request) with
  | some receipt => return receipt
  | none => Prog.raise (.raised "journal/ledger atomicity violated")

/-- `_transition` of the coordinator: the row it wrote, if it wrote one. -/
def coordinatorTransition (request : CommandRequest) (fromState toState : CommandState) (outcome : Option Json)
    (errorCode : Option String) : Call LedgerRow := do
  let row ← batch fun a _ => do
    let written ← TxWork.unjournaled (commandEventId request.commandId toState)
    TxWork.append (request.updated toState outcome errorCode a.now)
      (transition request.commandId fromState toState outcome errorCode a.now)
      (commandEventId request.commandId toState) a.now
    TxWork.look fun t => if written then t.ledger.get? request.commandId else none
  match row with
  | some row => return row
  | none => Prog.raise (.raised "list index out of range")

/-- The body of the `try` in `_fallback_outcome_unknown`. -/
def parkFromCurrent (request : CommandRequest) : Call Bool := do
  match ← readTables (·.ledger.get? request.commandId) with
  | none => return false
  | some current =>
    if current.state.Terminal ∨ current.state = .OUTCOME_UNKNOWN then return false
    else do
      let _ ← coordinatorTransition request current.state .OUTCOME_UNKNOWN none (some "INTERNAL_ERROR")
      return true

def fallbackOutcomeUnknown (request : CommandRequest) : Call Unit := do
  match ← (parkFromCurrent request).attempt with
  | .ok true => schedule request.commandId
  | _ => return

/-- A handler that drives its own transitions. -/
def runSaga (run : CommandRequest → Call CommandReceipt) (request : CommandRequest) : Call CommandReceipt := do
  match ← (run request).attempt with
  | .ok receipt => return receipt
  | .error e => do
    fallbackOutcomeUnknown request
    Prog.raise e

/-- What follows a single-step handler that raised something else than a validation error. -/
def parkReceived (request : CommandRequest) : Call Unit := do
  match ← (coordinatorTransition request .RECEIVED .OUTCOME_UNKNOWN none (some "INTERNAL_ERROR")).attempt with
  | .ok _ => schedule request.commandId
  | .error _ => return

def runSingleStep (run : CommandRequest → Call Json) (request : CommandRequest) : Call CommandReceipt := do
  match ← (run request).attempt with
  | .ok outcome => do
    let row ← coordinatorTransition request .RECEIVED .RESOLVED (some outcome) none
    return rowToReceipt row
  | .error (.commandValidation code message) => do
    let row ← coordinatorTransition request .RECEIVED .REJECTED (some (.object [("message", .text message)])) (some code)
    return rowToReceipt row
  | .error e => do
    parkReceived request
    Prog.raise e

def runHandler (handler : Handler) (request : CommandRequest) : Call CommandReceipt :=
  match handler with
  | .saga run => runSaga run request
  | .singleStep run => runSingleStep run request

/-- `execute`, for a registered action. -/
def execute (P : Setup) (registration : Registration) (request : CommandRequest) : Call CommandReceipt := do
  match ← readTables (claimOrReplay P request) with
  | some receipt => return receipt
  | none =>
    match ← (receive P registration.requiresPreflight request).attempt with
    | .ok true => runHandler registration.handler request
    | .ok false => losingClaimReceipt P request
    | .error (.commandValidation code _) => return ⟨request.commandId, .REJECTED, none, some code⟩
    | .error (.eventIdentityConflict _) => losingClaimReceipt P request
    | .error _ => return ⟨request.commandId, .REJECTED, none, some "AUDIT_UNAVAILABLE"⟩

end MmrTrader.Command
