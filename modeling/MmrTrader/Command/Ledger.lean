import MmrTrader.Journal.Autocommit
import MmrTrader.Control.TradingControl
import MmrTrader.Dispatch.Guard

/-!
# The command ledger

Executable model of `CommandLedger`, `CommandAudit` and `PreflightNonceGate`
(`trader/trading/command_coordinator.py`, `trader/trading/preflight_nonce.py`) and of the status transitions of
`ProposalRepository` (`trader/data/proposal_repository.py`).  All their tables live in the journal's file.

* `CommandTables` — the tables that the journal's transactions write.
* `insertReceived`, `transition`, `consume`, `claimForApproval`, `markOrderSubmitted` … — the `_in_tx` functions.
* `commandUpdated`, `proposalUpdated` — the events.

An UPDATE that matches no row changes nothing and returns none.
-/

set_option autoImplicit false

namespace MmrTrader.Command

open MmrTrader.Lib MmrTrader.Journal MmrTrader.Dispatch
open MmrTrader.Control (TradingControlState)
open MmrTrader.Saga (Side)

/-! ## JSON -/

/-- JSON values: an array is a chain of items without names. -/
inductive Json where
  | null
  | bool (b : Bool)
  | number (q : ℚ)
  | text (s : String)
  | empty
  | item (name : String) (value rest : Json)
  deriving DecidableEq

instance : JsonValue Json where
  isMissing
    | .null => true
    | .text s => s = ""
    | .empty => true
    | _ => false

def Json.object (fields : List (String × Json)) : Json := fields.foldr (fun f rest => .item f.1 f.2 rest) .empty

def Json.array (values : List Json) : Json := Json.object (values.map fun v => ("", v))

def Json.ofText (s : Option String) : Json := (s.map Json.text).getD .null

def Json.ofInt (i : Int) : Json := .number i

/-! ## Commands -/

inductive CommandState where
  | RECEIVED
  | VALIDATED
  | SUBMITTING
  | SUBMITTED
  | REJECTED
  | OUTCOME_UNKNOWN
  | RESOLVED
  deriving DecidableEq

def CommandState.text : CommandState → String
  | .RECEIVED => "RECEIVED"
  | .VALIDATED => "VALIDATED"
  | .SUBMITTING => "SUBMITTING"
  | .SUBMITTED => "SUBMITTED"
  | .REJECTED => "REJECTED"
  | .OUTCOME_UNKNOWN => "OUTCOME_UNKNOWN"
  | .RESOLVED => "RESOLVED"

/-- `to_state.lower()`. -/
def CommandState.lower : CommandState → String
  | .RECEIVED => "received"
  | .VALIDATED => "validated"
  | .SUBMITTING => "submitting"
  | .SUBMITTED => "submitted"
  | .REJECTED => "rejected"
  | .OUTCOME_UNKNOWN => "outcome_unknown"
  | .RESOLVED => "resolved"

def CommandState.Terminal (s : CommandState) : Prop := s = .RESOLVED ∨ s = .REJECTED

instance (s : CommandState) : Decidable s.Terminal := inferInstanceAs (Decidable (_ ∨ _))

/-- The registered actions this module and the reconciler tell apart. -/
inductive Action where
  | approveProposal
  | createProposal
  | rejectProposal
  | cancelOrder
  | cancelOrders
  | pauseTrading
  | resumeTrading
  | enableStrategy
  | disableStrategy
  | updateStrategyParams
  | executeAutomatedIntent
  | submitAiPaperDecision
  | liquidateAccount
  | publishAiRiskPolicy
  | registerAiDeployment
  | withdrawAiDeployment
  | startExperiment
  | pauseExperiment
  | resumeExperiment
  | stopExperiment
  | settleUnknownCommand
  | resetCircuitBreaker
  | activateLiveCanary
  | deactivateLiveCanary
  | activateAllocation
  | suspendAllocation
  | activatePaperAutomation
  | deactivatePaperAutomation
  | registerDiscretionaryDeployment
  | acceptanceMarkStart
  | other (name : String)
  deriving DecidableEq

def Action.text : Action → String
  | .approveProposal => "approve_proposal"
  | .createProposal => "create_proposal"
  | .rejectProposal => "reject_proposal"
  | .cancelOrder => "cancel_order"
  | .cancelOrders => "cancel_orders"
  | .pauseTrading => "pause_trading"
  | .resumeTrading => "resume_trading"
  | .enableStrategy => "enable_strategy"
  | .disableStrategy => "disable_strategy"
  | .updateStrategyParams => "update_strategy_params"
  | .executeAutomatedIntent => "execute_automated_intent"
  | .submitAiPaperDecision => "submit_ai_paper_decision"
  | .liquidateAccount => "liquidate_account"
  | .publishAiRiskPolicy => "publish_ai_risk_policy"
  | .registerAiDeployment => "register_ai_deployment"
  | .withdrawAiDeployment => "withdraw_ai_deployment"
  | .startExperiment => "start_experiment"
  | .pauseExperiment => "pause_experiment"
  | .resumeExperiment => "resume_experiment"
  | .stopExperiment => "stop_experiment"
  | .settleUnknownCommand => "settle_unknown_command"
  | .resetCircuitBreaker => "reset_circuit_breaker"
  | .activateLiveCanary => "activate_live_canary"
  | .deactivateLiveCanary => "deactivate_live_canary"
  | .activateAllocation => "activate_allocation"
  | .suspendAllocation => "suspend_allocation"
  | .activatePaperAutomation => "activate_paper_automation"
  | .deactivatePaperAutomation => "deactivate_paper_automation"
  | .registerDiscretionaryDeployment => "register_discretionary_deployment"
  | .acceptanceMarkStart => "acceptance_mark_start"
  | .other name => name

/-- What the handlers read of a request body. -/
inductive Body where
  | proposal (proposalId : Int)
  | order (orderEntityId : String)
  | orders (orderEntityIds : List String)
  | strategy (strategyName : Option String)
  | other (fields : Json)
  deriving DecidableEq

/-- `CommandRequest`; the last field is `__post_init__`. -/
structure CommandRequest where
  commandId : String
  action : Action
  accountId : Option String
  targetType : String
  targetId : String
  expectedVersion : Option Int
  body : Body
  source : String
  preflightNonce : Option String := none
  parentCommandId : Option String := none
  sessionFingerprint : Option String := none
  principal : Option String := none
  colonFree : ':' ∉ commandId.toList
  deriving DecidableEq

/-- `correlation_id`; an empty parent counts as none. -/
def CommandRequest.correlationId (request : CommandRequest) : String :=
  match request.parentCommandId with
  | some parent => if parent = "" then request.commandId else parent
  | none => request.commandId

/-- What `canonical_request_hash` hashes. -/
structure RequestIdentity where
  action : Action
  accountId : Option String
  targetType : String
  targetId : String
  expectedVersion : Option Int
  body : Body
  deriving DecidableEq

def CommandRequest.identity (request : CommandRequest) : RequestIdentity where
  action := request.action
  accountId := request.accountId
  targetType := request.targetType
  targetId := request.targetId
  expectedVersion := request.expectedVersion
  body := request.body

structure LedgerRow where
  commandId : String
  requestHash : String
  accountId : Option String
  action : Action
  targetType : String
  targetId : String
  expectedVersion : Option Int
  state : CommandState
  outcome : Option Json
  errorCode : Option String
  source : String
  createdAt : Int
  updatedAt : Int
  deriving DecidableEq

structure AuditRow where
  commandId : String
  correlationId : String
  action : Action
  targetType : String
  targetId : String
  expectedVersion : Option Int
  redactedInputs : Body
  createdAt : Int
  deriving DecidableEq

structure NonceRow where
  nonce : String
  commandId : String
  accountId : Option String
  sessionFingerprint : String
  requestHash : String
  expiresAt : Int
  consumed : Bool
  deriving DecidableEq

/-! ## Proposals -/

inductive ProposalStatus where
  | PENDING
  | APPROVED
  | REJECTED
  | EXPIRED
  | EXECUTED
  | FAILED
  deriving DecidableEq

def ProposalStatus.text : ProposalStatus → String
  | .PENDING => "PENDING"
  | .APPROVED => "APPROVED"
  | .REJECTED => "REJECTED"
  | .EXPIRED => "EXPIRED"
  | .EXECUTED => "EXECUTED"
  | .FAILED => "FAILED"

/-- `ProposalRecord`: the columns the commands read or write.  `legacyExpiry` says that the row keeps its expiry
in the metadata only. -/
structure ProposalRecord where
  id : Int
  action : Side
  quantity : Option ℚ
  limitOrder : Bool
  source : String
  status : ProposalStatus
  updatedAt : Int
  orderIds : List Int
  rejectionReason : String
  accountId : Option String
  accountMode : Option AccountMode
  conid : Int
  referencePrice : ℚ
  maxPriceDriftBps : ℚ
  expiresAt : Option Int
  legacyExpiry : Bool
  liveApprovalEligible : Bool
  revision : Int
  orderGroupId : Option String
  deriving DecidableEq

/-! ## Tables -/

structure CommandTables where
  ledger : Table LedgerRow.commandId
  audit : List AuditRow
  nonces : Table NonceRow.nonce
  proposals : Table ProposalRecord.id
  controls : Table TradingControlState.accountId

inductive CommandError where
  | illegalCommandTransition (commandId : String)
  | commandValidation (code message : String)
  | tradingPaused
  | pauseStateUnavailable
  | approvalClaimFailed (code : String)
  | concurrentProposalChange
  | dispatchGuard (code : String)
  | brokerRejected (reason : String)
  | eventIdentityConflict (eventId : String)
  | remote (code : String)
  | raised (what : String)
  deriving DecidableEq

abbrev Statement := CommandTables → Except CommandError CommandTables

/-! ## The ledger -/

def unresolvedForTarget (t : CommandTables) (targetType targetId : String) : List LedgerRow :=
  t.ledger.rows.filter fun row => row.targetType = targetType ∧ row.targetId = targetId ∧ ¬ row.state.Terminal

/-- `insert_received_in_tx` and `record_in_tx`. -/
def insertReceived (request : CommandRequest) (requestHash : String) (now : Int) : Statement := fun t =>
  let row : LedgerRow :=
    { commandId := request.commandId
      requestHash := requestHash
      accountId := request.accountId
      action := request.action
      targetType := request.targetType
      targetId := request.targetId
      expectedVersion := request.expectedVersion
      state := .RECEIVED
      outcome := none
      errorCode := none
      source := request.source
      createdAt := now
      updatedAt := now }
  let audit : AuditRow :=
    { commandId := request.commandId
      correlationId := request.correlationId
      action := request.action
      targetType := request.targetType
      targetId := request.targetId
      expectedVersion := request.expectedVersion
      redactedInputs := request.body
      createdAt := now }
  match t.ledger.insert? row with
  | none => .error (.raised "constraint")
  | some ledger => .ok { t with ledger := ledger, audit := t.audit ++ [audit] }

/-- What `transition_in_tx` sets. -/
def LedgerRow.moved (row : LedgerRow) (toState : CommandState) (outcome : Option Json) (errorCode : Option String)
    (now : Int) : LedgerRow :=
  { row with state := toState, outcome := outcome, errorCode := errorCode, updatedAt := now }

def transition (commandId : String) (fromState toState : CommandState) (outcome : Option Json)
    (errorCode : Option String) (now : Int) : Statement := fun t =>
  match t.ledger.get? commandId with
  | some row =>
    if row.state = fromState then
      .ok { t with
        ledger := t.ledger.updateWhere (fun r => r.commandId = commandId)
          (fun r => r.moved toState outcome errorCode now) fun _ => rfl }
    else .error (.illegalCommandTransition commandId)
  | none => .error (.illegalCommandTransition commandId)

/-! ## Nonces -/

/-- The checks of `consume_in_tx`. -/
def NonceRow.Fits (row : NonceRow) (request : CommandRequest) (requestHash : String) (now : Int) : Prop :=
  row.consumed = false ∧ now ≤ row.expiresAt ∧ row.commandId = request.commandId ∧
    row.accountId = request.accountId ∧ row.requestHash = requestHash ∧
    row.sessionFingerprint = request.sessionFingerprint.getD ""

instance (row : NonceRow) (request : CommandRequest) (requestHash : String) (now : Int) :
    Decidable (row.Fits request requestHash now) := by
  unfold NonceRow.Fits
  infer_instance

/-- `consume_in_tx`; none is `False`. -/
def consume (request : CommandRequest) (requestHash : String) (now : Int) (t : CommandTables) : Option CommandTables :=
  match request.preflightNonce with
  | none => none
  | some nonce =>
    match t.nonces.get? nonce with
    | none => none
    | some row =>
      if nonce ≠ "" ∧ row.Fits request requestHash now then
        some { t with
          nonces := t.nonces.updateWhere (fun r => r.nonce = nonce) (fun r => { r with consumed := true }) fun _ => rfl }
      else none

/-! ## Proposal transitions -/

/-- An UPDATE of one proposal under `WHERE id = ? AND status = ? AND revision = ?`, with the row it returns. -/
def updateProposal (t : CommandTables) (proposalId : Int) (status : ProposalStatus) (revision : Int)
    (f : ProposalRecord → ProposalRecord) (hf : ∀ r, (f r).id = r.id) : Option (ProposalRecord × CommandTables) :=
  match t.proposals.get? proposalId with
  | some row =>
    if row.status = status ∧ row.revision = revision then
      some (f row, { t with proposals := t.proposals.updateWhere (fun r => r.id = proposalId) f hf })
    else none
  | none => none

def ProposalRecord.claimed (row : ProposalRecord) (now : Int) : ProposalRecord :=
  let expired := match row.expiresAt with
    | none => row.legacyExpiry
    | some expiresAt => decide (expiresAt ≤ now)
  { row with status := if expired then .EXPIRED else .APPROVED, updatedAt := now, revision := row.revision + 1 }

/-- `ApprovalClaimOutcome`: the row claimed or expired, or the code of a claim that wrote nothing. -/
inductive ApprovalClaim where
  | claimed (row : ProposalRecord)
  | expired (row : ProposalRecord)
  | failed (code : String)
  deriving DecidableEq

def claimProblem (t : CommandTables) (proposalId : Int) (accountId : String) : String :=
  match t.proposals.get? proposalId with
  | none => "PROPOSAL_NOT_FOUND"
  | some row =>
    if row.accountId ≠ some accountId then "WRONG_ACCOUNT"
    else if row.status ≠ .PENDING then "NOT_PENDING"
    else "REVISION_MISMATCH"

/-- The row of a PENDING proposal of the account, at the expected revision. -/
def claimable (t : CommandTables) (proposalId : Int) (expectedRevision : Option Int) (accountId : String) :
    Option ProposalRecord :=
  (t.proposals.get? proposalId).filter fun row =>
    row.status = .PENDING ∧ expectedRevision = some row.revision ∧ row.accountId = some accountId

def claimForApproval (t : CommandTables) (proposalId : Int) (expectedRevision : Option Int) (accountId : String)
    (now : Int) : ApprovalClaim × CommandTables :=
  match claimable t proposalId expectedRevision accountId with
  | some row =>
    let claimed := row.claimed now
    (if claimed.status = .APPROVED then .claimed claimed else .expired claimed,
      { t with
        proposals := t.proposals.updateWhere (fun r => r.id = proposalId) (fun r => r.claimed now) fun _ => rfl })
  | none => (.failed (claimProblem t proposalId accountId), t)

def linkOrderGroup (t : CommandTables) (proposalId : Int) (orderGroupId : String) : CommandTables :=
  { t with
    proposals := t.proposals.updateWhere (fun r => r.id = proposalId ∧ r.status = .APPROVED)
      (fun r => { r with orderGroupId := some orderGroupId }) fun _ => rfl }

def markOrderSubmitted (t : CommandTables) (proposalId : Int) (orderIds : List Int) (expectedRevision : Int) (now : Int) :
    Option (ProposalRecord × CommandTables) :=
  updateProposal t proposalId .APPROVED expectedRevision
    (fun r => { r with status := .EXECUTED, orderIds := orderIds, updatedAt := now, revision := r.revision + 1 })
    fun _ => rfl

def markFailed (t : CommandTables) (proposalId : Int) (reason : String) (expectedRevision : Int) (now : Int) :
    Option (ProposalRecord × CommandTables) :=
  updateProposal t proposalId .APPROVED expectedRevision
    (fun r => { r with status := .FAILED, rejectionReason := reason, updatedAt := now, revision := r.revision + 1 })
    fun _ => rfl

/-! ## Events -/

def commandEntityId (commandId : String) : String := commandId

/-- The mutation of `_command_updated_mutation` and of `_command_mutation`, on the command's own stream. -/
def commandUpdated (commandId : String) (accountId : Option String) (correlationId : String) (state : CommandState)
    (action : Action) (targetType targetId : String) (result : List (String × Json)) (now : Int) :
    DomainMutation Json where
  eventType := "command.updated"
  entityType := "command"
  entityId := commandEntityId commandId
  operation := .upsert
  accountId := accountId
  source := "trader_service"
  sourceTimestamp := now
  correlationId := some correlationId
  payload := some ([("state", .text state.text), ("action", .text action.text), ("target_type", .text targetType),
    ("target_id", .text targetId)] ++ result)
  payload_iff_upsert := rfl

/-- The `outcome` and `error_code` entries. -/
def resultFields (outcome : Option Json) (errorCode : Option String) : List (String × Json) :=
  [("outcome", outcome.getD .null), ("error_code", Json.ofText errorCode)]

def CommandRequest.updated (request : CommandRequest) (state : CommandState) (outcome : Option Json)
    (errorCode : Option String) (now : Int) : DomainMutation Json :=
  commandUpdated request.commandId request.accountId request.correlationId state request.action request.targetType
    request.targetId (resultFields outcome errorCode) now

def CommandRequest.receivedEvent (request : CommandRequest) (now : Int) : DomainMutation Json :=
  commandUpdated request.commandId request.accountId request.correlationId .RECEIVED request.action
    request.targetType request.targetId [] now

def commandEventId (commandId : String) (state : CommandState) : String :=
  "command:" ++ commandId ++ ":" ++ state.lower

/-- `mutation_for`, with the columns of `ProposalRecord`. -/
def proposalUpdated (record : ProposalRecord) (correlationId : String) : DomainMutation Json where
  eventType := "proposal.updated"
  entityType := "proposal"
  entityId := toString record.id
  operation := .upsert
  accountId := record.accountId
  source := "trader_service"
  sourceTimestamp := record.updatedAt
  correlationId := some correlationId
  payload := some [("id", .ofInt record.id), ("action", .text (if record.action = .BUY then "BUY" else "SELL")),
    ("quantity", (record.quantity.map Json.number).getD .null), ("source", .text record.source),
    ("status", .text record.status.text), ("order_ids", .array (record.orderIds.map .ofInt)),
    ("rejection_reason", .text record.rejectionReason), ("account_id", .ofText record.accountId),
    ("conid", .ofInt record.conid), ("reference_price", .number record.referencePrice),
    ("max_price_drift_bps", .number record.maxPriceDriftBps),
    ("expires_at", (record.expiresAt.map Json.ofInt).getD .null),
    ("live_approval_eligible", .bool record.liveApprovalEligible), ("revision", .ofInt record.revision),
    ("order_group_id", .ofText record.orderGroupId)]
  payload_iff_upsert := rfl

def proposalEventId (record : ProposalRecord) : String :=
  "proposal:" ++ toString record.id ++ ":" ++ toString record.revision

end MmrTrader.Command
