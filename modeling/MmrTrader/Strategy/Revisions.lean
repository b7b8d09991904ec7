import MmrTrader.Command.Ledger

/-!
# Strategy revisions, receipts and the acknowledgement outbox

Executable model of `trader/strategy/strategy_revisions.py` and of what `StrategyRuntime` writes through it.

* `RevisionStore` — the revisions, the receipts and the outbox; `bumpState` appends the outbox row of a new state
  revision.
* `commit` — the transaction at the end of `apply_control_command`.
-/

set_option autoImplicit false

namespace MmrTrader.Strategy

open Lib Journal
open Command (Json)

/-! ## Strategies -/

inductive StrategyState where
  | NOT_INSTALLED
  | INSTALLED
  | WAITING_HISTORICAL_DATA
  | RUNNING
  | DISABLED
  | ERROR
  deriving DecidableEq

def StrategyState.text : StrategyState → String
  | .NOT_INSTALLED => "NOT_INSTALLED"
  | .INSTALLED => "INSTALLED"
  | .WAITING_HISTORICAL_DATA => "WAITING_HISTORICAL_DATA"
  | .RUNNING => "RUNNING"
  | .DISABLED => "DISABLED"
  | .ERROR => "ERROR"

/-- A loaded strategy; `metadata` holds what else its payload carries. -/
structure LoadedStrategy where
  name : String
  state : StrategyState
  metadata : Payload Json
  deriving DecidableEq

def getStrategy (loaded : List LoadedStrategy) (name : String) : Option LoadedStrategy := loaded.find? fun s => s.name = name

def stateName (loaded : List LoadedStrategy) (name : String) : String :=
  match getStrategy loaded name with
  | some s => s.state.text
  | none => "UNKNOWN"

def statePayload (loaded : List LoadedStrategy) (name : String) (control : Nat) : Payload Json :=
  [("strategy_name", .text name), ("strategy_state", .text (stateName loaded name)), ("state", .text (stateName loaded name)),
    ("control_revision", .ofInt control)] ++ (getStrategy loaded name).elim [] LoadedStrategy.metadata

/-- `enable` or `disable` of the first strategy of that name. -/
def setState (name : String) (state : StrategyState) : List LoadedStrategy → List LoadedStrategy
  | [] => []
  | s :: rest => if s.name = name then { s with state := state } :: rest else s :: setState name state rest

/-! ## The store -/

/-- A row of `strategy_revisions`; a strategy without one has `(0, 0)`. -/
structure Revisions where
  state : Nat
  control : Nat
  deriving DecidableEq

structure OutboxRow where
  ackId : Nat
  strategyName : String
  stateRevision : Nat
  controlRevision : Nat
  payload : Payload Json
  acknowledged : Bool
  deriving DecidableEq

inductive ControlAction where
  | enable_strategy
  | disable_strategy
  | update_strategy_params
  deriving DecidableEq

def ControlAction.text : ControlAction → String
  | .enable_strategy => "enable_strategy"
  | .disable_strategy => "disable_strategy"
  | .update_strategy_params => "update_strategy_params"

inductive ReceiptState where
  | COMMITTED
  | ROLLED_BACK
  | ROLLBACK_FAILED
  deriving DecidableEq

def ReceiptState.text : ReceiptState → String
  | .COMMITTED => "COMMITTED"
  | .ROLLED_BACK => "ROLLED_BACK"
  | .ROLLBACK_FAILED => "ROLLBACK_FAILED"

structure StrategyCommandReceipt where
  commandId : String
  strategyName : String
  action : ControlAction
  state : ReceiptState
  controlRevision : Nat
  stateRevision : Nat
  error : Option String
  deriving DecidableEq

structure RevisionStore where
  revisions : String → Revisions
  receipts : Table StrategyCommandReceipt.commandId
  /-- In the order of `ack_id`, which a sequence draws. -/
  outbox : List OutboxRow

namespace RevisionStore

def empty : RevisionStore := ⟨fun _ => ⟨0, 0⟩, Table.empty, []⟩

def controlRevision (s : RevisionStore) (name : String) : Nat := (s.revisions name).control

def stateRevision (s : RevisionStore) (name : String) : Nat := (s.revisions name).state

def bumpControl (s : RevisionStore) (name : String) : RevisionStore :=
  { s with revisions := Function.update s.revisions name { s.revisions name with control := s.controlRevision name + 1 } }

/-- The row that `bump_state_revision_in_tx` inserts. -/
def newRow (s : RevisionStore) (name : String) (payload : Payload Json) : OutboxRow where
  ackId := s.outbox.length + 1
  strategyName := name
  stateRevision := s.stateRevision name + 1
  controlRevision := s.controlRevision name
  payload := payload
  acknowledged := false

def bumpState (s : RevisionStore) (name : String) (payload : Payload Json) : RevisionStore :=
  { s with
    revisions := Function.update s.revisions name { s.revisions name with state := s.stateRevision name + 1 }
    outbox := s.outbox ++ [s.newRow name payload] }

def recordReceipt (s : RevisionStore) (r : StrategyCommandReceipt) : Option RevisionStore :=
  (s.receipts.insert? r).map fun receipts => { s with receipts := receipts }

def unacknowledgedOutbox (s : RevisionStore) (limit : Nat) : List OutboxRow :=
  (s.outbox.filter fun row => !row.acknowledged).take limit

def markAcknowledged (s : RevisionStore) (ackId : Nat) : RevisionStore :=
  { s with outbox := s.outbox.map fun row => if row.ackId = ackId then { row with acknowledged := true } else row }

def payloadOf (s : RevisionStore) (name : String) (stateRevision : Nat) : Option (Payload Json) :=
  (s.outbox.find? fun row => row.strategyName = name ∧ row.stateRevision = stateRevision).map (·.payload)

end RevisionStore

/-! ## Receipts on the wire -/

/-- A forwarded command; what its new parameters do to the loaded strategies is an input of the step that swaps them. -/
structure ControlCommand where
  commandId : String
  strategyName : String
  action : ControlAction
  expectedControlRevision : Nat
  deriving DecidableEq

structure WireReceipt where
  receipt : StrategyCommandReceipt
  observableState : Option String
  observablePayload : Option (Payload Json)
  deriving DecidableEq

/-- A text that is not empty: what `or` takes for true. -/
def textOf : Option Json → Option String
  | some (.text s) => if s = "" then none else some s
  | _ => none

/-- `payload.get('strategy_state') or payload.get('state')`. -/
def observed (payload : Payload Json) : Option String :=
  (textOf (payload.lookup "strategy_state")).or (textOf (payload.lookup "state"))

/-- `_commit` of `apply_control_command`; `none` when the command has a receipt by now. -/
def commit (s : RevisionStore) (loaded : List LoadedStrategy) (c : ControlCommand) : Option (WireReceipt × RevisionStore) :=
  let s := s.bumpControl c.strategyName
  let payload := statePayload loaded c.strategyName (s.controlRevision c.strategyName)
  let s := s.bumpState c.strategyName payload
  let receipt : StrategyCommandReceipt :=
    ⟨c.commandId, c.strategyName, c.action, .COMMITTED, s.controlRevision c.strategyName, s.stateRevision c.strategyName, none⟩
  (s.recordReceipt receipt).map fun s => (⟨receipt, observed payload, some payload⟩, s)

/-- `_receipt_with_observable_state`, of a receipt read from the store. -/
def withObservableState (s : RevisionStore) (loaded : List LoadedStrategy) (r : StrategyCommandReceipt) : WireReceipt :=
  if r.stateRevision = 0 then ⟨r, none, none⟩
  else
    let stored := (s.payloadOf r.strategyName r.stateRevision).getD []
    let payload :=
      if stored = [] ∧ r.state = .COMMITTED then statePayload loaded r.strategyName r.controlRevision else stored
    if observed payload = none ∧ payload = [] then ⟨r, none, none⟩
    else ⟨r, observed payload, if payload = [] then none else some payload⟩

end MmrTrader.Strategy
