import MmrTrader.Command.Coordinator

/-!
# Approving a proposal

`ApprovalCommandService` (`trader/trading/command_coordinator.py`) with `TradingRuntimeOrderDispatch.submit`
(`trader/trading/trading_runtime.py`).

* `validate` — the checks before the claim; it captures the broker's state.
* `claimWork` — the transaction that claims the proposal and moves the command to SUBMITTING.
* `revalidate`, `submit` — the dispatch guard and the real order.
* `approve` — the saga; `approveProposal` registers it.
-/

set_option autoImplicit false

namespace MmrTrader.Command

open MmrTrader.Lib MmrTrader.Lib.Interleaving MmrTrader.Journal MmrTrader.Dispatch
open MmrTrader.Saga (Side)

/-! ## Guards -/

def classifyRiskDirection (action : Side) (heldQuantity orderQuantity : ℚ) : RiskDirection :=
  if action = .SELL ∧ 0 < heldQuantity ∧ orderQuantity ≤ heldQuantity then .REDUCING
  else if action = .BUY ∧ heldQuantity < 0 ∧ orderQuantity ≤ -heldQuantity then .REDUCING
  else .INCREASING

def quoteAge (quote : ExecutableQuote) (now limit : Int) : Option String :=
  if now - quote.marketTimestamp > limit then some "QUOTE_STALE"
  else if now - quote.marketTimestamp < -MAX_SOURCE_CLOCK_SKEW_SECONDS then some "SOURCE_CLOCK_SKEW"
  else none

def quoteProblem (P : Setup) (record : ProposalRecord) (quote : ExecutableQuote) (now : Int) : Option String :=
  match P.accountMode, P.paperMaxQuoteAgeSeconds with
  | .live, _ =>
    if quote.feedLive = false then some "FEED_NOT_LIVE"
    else if quote.continuous = false ∧ (record.limitOrder = false ∨ P.outsideSessionLimitEnabled = false) then
      some "SESSION_INCOMPATIBLE"
    else quoteAge quote now MAX_QUOTE_AGE_SECONDS
  | .paper, some limit => quoteAge quote now limit
  | .paper, none => none

def checkExposureIncreasingGuards (P : Setup) (record : ProposalRecord) (quote : Option ExecutableQuote) (now : Int) :
    Except CommandError (Option String) :=
  match quote with
  | none => .ok (some "EXECUTABLE_QUOTE_MISSING")
  | some quote =>
    if quote.side ≠ (if record.action = .BUY then "ask" else "bid") ∨ quote.price ≤ 0 then
      .ok (some "EXECUTABLE_QUOTE_MISSING")
    else
      match quoteProblem P record quote now with
      | some code => .ok (some code)
      | none =>
        if record.referencePrice = 0 then .error (.raised "float division by zero")
        else if |quote.price - record.referencePrice| / record.referencePrice * 10000 > record.maxPriceDriftBps then
          .ok (some "PRICE_DRIFT_EXCEEDED")
        else .ok none

/-! ## Validation -/

/-- The command goes on, or is rejected with a code. -/
inductive Verdict where
  | refused (code : String)
  | approved (record : ProposalRecord) (context : ApprovalContext)

/-- The checks of the row, before anything is captured. -/
def rowProblem (P : Setup) (request : CommandRequest) (record : ProposalRecord) : Option String :=
  if record.status ≠ .PENDING then some "NOT_PENDING"
  else if request.expectedVersion.isSome ∧ request.expectedVersion ≠ some record.revision then some "REVISION_MISMATCH"
  else if record.accountId ≠ some P.accountId then some "WRONG_ACCOUNT"
  else if P.accountMode = .live ∧ record.liveApprovalEligible = false then some "LIVE_INELIGIBLE"
  else if P.accountMode = .live ∧ request.principal ≠ some "dashboard" then some "LLM_LIVE_APPROVE_FORBIDDEN"
  else none

def commandInFlight (request : CommandRequest) (proposalId : Int) (t : CommandTables) : Bool :=
  (unresolvedForTarget t "proposal" (toString proposalId)).any fun row => row.commandId ≠ request.commandId

/-- `self._broker.capture`, with the code of what it raises. -/
def capture (P : Setup) (a : Answers) (s : Shared) : Except String BrokerRiskSnapshot :=
  match a.captureProblem with
  | some code => .error code
  | none =>
    if s.broker.generation = 0 then .error "BROKER_UNAVAILABLE"
    else .ok (s.broker.capture P.accountId P.accountMode)

/-- The `ApprovalContext` of a record. -/
def contextOf (record : ProposalRecord) (direction : RiskDirection) (broker : BrokerRiskSnapshot) : ApprovalContext where
  conid := record.conid
  side := record.action
  quantity := record.quantity.getD 0
  referencePrice := record.referencePrice
  maxDriftBps := record.maxPriceDriftBps
  riskDirection := direction
  broker := broker
  allocation := none

/-- `dispatch_guard.revalidate`, with the capture of the moment. -/
def guardCheck (P : Setup) (cfg : GuardConfig) (request : CommandRequest) (context : ApprovalContext) (a : Answers)
    (s : Shared) : Except CommandError Unit :=
  match request.accountId, a.readings with
  | none, _ => .error (.dispatchGuard "ACCOUNT_MISMATCH")
  | _, none => .error (.raised "guard port")
  | some accountId, some readings =>
    match Dispatch.revalidate cfg context ⟨accountId, false, false⟩ { readings with capture := capture P a s } a.now with
    | .ok _ => .ok ()
    | .error code => .error (.dispatchGuard code)

/-- `revalidate`; without a guard nothing is checked. -/
def revalidate (P : Setup) (request : CommandRequest) (context : ApprovalContext) : Call Unit :=
  look fun a s =>
    match P.guard with
    | none => .ok ()
    | some cfg => guardCheck P cfg request context a s

/-- The rest of `_validate` for a new exposure. -/
def validateIncreasing (P : Setup) (request : CommandRequest) (record : ProposalRecord) (broker : BrokerRiskSnapshot) :
    Call Verdict := do
  let context := contextOf record .INCREASING broker
  match ← look (fun a _ => checkExposureIncreasingGuards P record a.quote a.now) with
  | some code => return .refused code
  | none =>
    match ← (revalidate P request context).attempt with
    | .ok _ => return .approved record context
    | .error (.dispatchGuard code) => return .refused code
    | .error e => Prog.raise e

/-- `_validate` after the snapshot was captured and the risk gate approved. -/
def validateCaptured (P : Setup) (request : CommandRequest) (record : ProposalRecord) (broker : BrokerRiskSnapshot) :
    Call Verdict :=
  let held := broker.reducibleQuantity record.conid
  let quantity := record.quantity.getD 0
  if record.action = .SELL ∧ 0 < held ∧ quantity > held then return .refused "REDUCIBLE_QUANTITY_EXCEEDED"
  else
    match classifyRiskDirection record.action held quantity with
    | .REDUCING => return .approved record (contextOf record .REDUCING broker)
    | .INCREASING => validateIncreasing P request record broker

def validate (P : Setup) (request : CommandRequest) (record : Option ProposalRecord) : Call Verdict := do
  match record with
  | none => return .refused "PROPOSAL_NOT_FOUND"
  | some record =>
    match rowProblem P request record with
    | some code => return .refused code
    | none =>
      if ← readTables (commandInFlight request record.id) then return .refused "COMMAND_IN_FLIGHT"
      else
        match ← look (fun a s => .ok (capture P a s)) with
        | .error code => return .refused code
        | .ok broker =>
          if ← look (fun a _ => .ok a.riskApproved) then validateCaptured P request record broker
          else return .refused "RISK_REJECTED"

/-! ## The claim -/

def requireUnpaused (accountId : Option String) (t : CommandTables) : Except CommandError CommandTables :=
  match accountId.bind t.controls.get? with
  | none => .error .pauseStateUnavailable
  | some state => if state.newExposurePaused then .error .tradingPaused else .ok t

def orderGroupIdOf (request : CommandRequest) : String := "og-" ++ request.commandId

/-- `work` of `approve`: the claimed row, or none when it had expired. -/
def claimWork (P : Setup) (request : CommandRequest) (record : ProposalRecord) (direction : RiskDirection) (now : Int) :
    TxWork (Option ProposalRecord) := do
  TxWork.exec fun t => if direction = .INCREASING then requireUnpaused record.accountId t else .ok t
  let (claim, t) ← TxWork.look fun t => claimForApproval t record.id request.expectedVersion P.accountId now
  match claim with
  | .claimed row => do
    let linked := { row with orderGroupId := some (orderGroupIdOf request) }
    TxWork.put (linkOrderGroup t record.id (orderGroupIdOf request))
    TxWork.noteProposal linked request.commandId now
    TxWork.exec (transition request.commandId .VALIDATED .SUBMITTING none none now)
    TxWork.note (request.updated .SUBMITTING none none now) (commandEventId request.commandId .SUBMITTING) now
    return some linked
  | .expired row => do
    TxWork.put t
    TxWork.noteProposal row request.commandId now
    return none
  | .failed code => TxWork.raise (.approvalClaimFailed code)

/-! ## The dispatch -/

/-- What `submit` refuses before anything is sent. -/
def dispatchProblem (P : Setup) (record : ProposalRecord) : Option String :=
  match P.dispatchPolicy with
  | none => none
  | some maxOrderNotional =>
    if record.accountId ≠ some P.accountId then some "proposal account does not match trader account"
    else if record.accountMode ≠ some P.accountMode then some "proposal account mode does not match trader mode"
    else
      match record.quantity with
      | none => some "order notional is invalid"
      | some quantity =>
        if maxOrderNotional.any (fun ceiling => |quantity * record.referencePrice| > ceiling) then
          some "order notional exceeds trader policy"
        else none

/-- The order that goes to the trader's loop. -/
def sentOrderOf (record : ProposalRecord) (direction : RiskDirection) : SentOrder where
  orderGroupId := record.orderGroupId.getD ""
  conid := record.conid
  side := record.action
  quantity := record.quantity.getD 0
  direction := direction
  placed := false
  filled := 0
  dead := false

/-- `run_coroutine_threadsafe`: the place of the order in the book. -/
def sendOrder (o : SentOrder) : Call Nat :=
  Prog.atomic fun a s =>
    match a.fault with
    | some e => .error e s
    | none => .ok s.broker.book.orders.length { s with broker := s.broker.send o }

/-- `future.result`: an order that is not decided in time counts as ambiguous. -/
def awaitOrder (k : Nat) : Call (List Int) :=
  look fun a s =>
    match a.dispatch, s.broker.book.orders[k]? with
    | .success orderIds, some o => if o.placed then .ok orderIds else .error (.raised "timeout")
    | .rejected reason, some o =>
      if o.dead ∧ o.filled = 0 then .error (.brokerRejected reason) else .error (.raised "timeout")
    | _, _ => .error (.raised "timeout")

/-- `TradingRuntimeOrderDispatch.submit`. -/
def submit (P : Setup) (record : ProposalRecord) (direction : RiskDirection) : Call (List Int) :=
  match dispatchProblem P record with
  | some reason => Prog.raise (.brokerRejected reason)
  | none => do
    let k ← sendOrder (sentOrderOf record direction)
    awaitOrder k

def failAfterBrokerRejection (request : CommandRequest) (record : ProposalRecord) (reason errorCode : String) :
    Call Unit :=
  batch fun a _ => do
    match ← TxWork.look (fun t => markFailed t record.id reason record.revision a.now) with
    | none => TxWork.raise .concurrentProposalChange
    | some (row, t) => do
      TxWork.put t
      TxWork.noteProposal row request.commandId a.now
      TxWork.exec (transition request.commandId .SUBMITTING .REJECTED none (some errorCode) a.now)
      TxWork.note (request.updated .REJECTED none (some errorCode) a.now) (commandEventId request.commandId .REJECTED) a.now

def outcomePayload (request : CommandRequest) (orderIds : List Int) : Json :=
  .object [("order_ids", .array (orderIds.map .ofInt)), ("order_group_id", .text (orderGroupIdOf request))]

def finishWork (request : CommandRequest) (record : ProposalRecord) (orderIds : List Int) (now : Int) : TxWork Unit := do
  match ← TxWork.look (fun t => markOrderSubmitted t record.id orderIds record.revision now) with
  | none => TxWork.raise .concurrentProposalChange
  | some (row, t) => do
    TxWork.put t
    TxWork.noteProposal row request.commandId now
    let outcome := some (outcomePayload request orderIds)
    TxWork.exec (transition request.commandId .SUBMITTING .SUBMITTED outcome none now)
    TxWork.note (request.updated .SUBMITTED outcome none now) (commandEventId request.commandId .SUBMITTED) now

/-- An ambiguous dispatch is parked for the reconciler, never retried. -/
def parkAmbiguous (request : CommandRequest) (outcome : Option Json) : Call CommandReceipt := do
  transitionCommand request .SUBMITTING .OUTCOME_UNKNOWN outcome (some "DISPATCH_AMBIGUOUS")
  schedule request.commandId
  return ⟨request.commandId, .OUTCOME_UNKNOWN, outcome, some "DISPATCH_AMBIGUOUS"⟩

/-- What follows the guard. -/
def submitAndFinish (P : Setup) (request : CommandRequest) (record : ProposalRecord) (direction : RiskDirection) :
    Call CommandReceipt := do
  match ← (submit P record direction).attempt with
  | .error (.brokerRejected reason) => do
    failAfterBrokerRejection request record reason "BROKER_REJECTED"
    return ⟨request.commandId, .REJECTED, none, some "BROKER_REJECTED"⟩
  | .error _ => parkAmbiguous request none
  | .ok orderIds => do
    let outcome := some (outcomePayload request orderIds)
    match ← (batch fun a _ => finishWork request record orderIds a.now).attempt with
    | .error _ => parkAmbiguous request outcome
    | .ok _ => return ⟨request.commandId, .SUBMITTED, outcome, none⟩

/-- From the claim to the end: the guard, the irreversible boundary, the last transaction. -/
def dispatch (P : Setup) (request : CommandRequest) (record : ProposalRecord) (context : ApprovalContext) :
    Call CommandReceipt := do
  match ← (revalidate P request context).attempt with
  | .error (.dispatchGuard code) => do
    publish
    failAfterBrokerRejection request record ("pre-dispatch validation: " ++ code) code
    return ⟨request.commandId, .REJECTED, none, some code⟩
  | .error e => Prog.raise e
  | .ok _ => do
    Prog.onlyIf (P.guard.isSome = true) publish
    submitAndFinish P request record context.riskDirection

/-- A command that ends before its claim committed. -/
def rejectFrom (request : CommandRequest) (fromState : CommandState) (code : String) : Call CommandReceipt := do
  transitionCommand request fromState .REJECTED none (some code)
  return ⟨request.commandId, .REJECTED, none, some code⟩

def claimAndDispatch (P : Setup) (request : CommandRequest) (record : ProposalRecord) (context : ApprovalContext) :
    Call CommandReceipt := do
  match ← (batch fun a _ => claimWork P request record context.riskDirection a.now).attempt with
  | .error .tradingPaused => rejectFrom request .VALIDATED "TRADING_PAUSED"
  | .error .pauseStateUnavailable => rejectFrom request .VALIDATED "TRADING_PAUSED"
  | .error (.approvalClaimFailed code) => rejectFrom request .VALIDATED code
  | .error e => Prog.raise e
  | .ok none => rejectFrom request .VALIDATED "PROPOSAL_EXPIRED"
  | .ok (some claimed) => dispatch P request claimed context

def approve (P : Setup) (request : CommandRequest) : Call CommandReceipt := do
  match request.body with
  | .proposal proposalId => do
    let record ← readTables (·.proposals.get? proposalId)
    let verdict ← validate P request record
    publish
    match verdict with
    | .refused code => rejectFrom request .RECEIVED code
    | .approved record context => do
      transitionCommand request .RECEIVED .VALIDATED none none
      claimAndDispatch P request record context
  | _ => Prog.raise (.raised "KeyError: proposal_id")

/-- The registration of `approve_proposal`: a live account needs the preflight nonce. -/
def approveProposal (P : Setup) : Registration where
  requiresPreflight := P.accountMode = .live
  handler := .saga (approve P)

end MmrTrader.Command
