import Mathlib.Data.Rat.Defs
import Mathlib.Algebra.Order.Ring.Rat
import Mathlib.Data.List.Sort
import Mathlib.Data.List.Dedup

/-!
# The protective order saga: one row and the broker events

Executable model of the row functions of `trader/automation/protective_order_saga.py`.

* `SagaState` — the durable row (its payload);
* `applyEntryLeg`, `applyEvent` — what a broker event does to the fields and the state;
* `applyBrokerEvent` — the routing of `_apply_broker_event`: the row it persists, or `none`
  when it returns the stored row without a write;
* `own`, `released`, … — the rows that the close-ownership operations build.

Decimal quantities are rationals and timestamps are instants.  A row that turns `SAFETY_FAILED`
also trips the breaker and starts a liquidation after its commit (`tripsAndLiquidates`).
-/

set_option autoImplicit false

namespace MmrTrader.Saga

inductive SagaStateName where
  | VALIDATED
  | SUBMITTING
  | ENTRY_WORKING
  | PARTIALLY_FILLED
  | PROTECTED
  | EXITING
  | CLOSED
  | OUTCOME_UNKNOWN
  | SAFETY_FAILED
  | CLOSE_OWNED
  | NOT_SENT
  deriving DecidableEq

/-- Broker order statuses; any text the saga does not know is `other`. -/
inductive OrderStatus where
  | PendingSubmit
  | PreSubmitted
  | Submitted
  | ApiPending
  | PendingCancel
  | Filled
  | Cancelled
  | ApiCancelled
  | Inactive
  | Rejected
  | other (text : String)
  deriving DecidableEq

/-- `_WORKING_STATUSES`. -/
def OrderStatus.isWorking : OrderStatus → Bool
  | .PendingSubmit | .PreSubmitted | .Submitted | .ApiPending | .PendingCancel => true
  | _ => false

def OrderStatus.isFilled : OrderStatus → Bool
  | .Filled => true
  | _ => false

def OrderStatus.isCancelled : OrderStatus → Bool
  | .Cancelled | .ApiCancelled => true
  | _ => false

def OrderStatus.isRejected : OrderStatus → Bool
  | .Inactive | .Rejected => true
  | _ => false

def OrderStatus.isReleaseStop : OrderStatus → Bool
  | .PreSubmitted | .Submitted | .Filled => true
  | _ => false

inductive Leg where
  | entry
  | stop
  | takeProfit
  | other (text : String)
  deriving DecidableEq

inductive Side where
  | BUY
  | SELL
  deriving DecidableEq

structure BrokerOrderEvent where
  orderGroupId : String
  leg : Leg
  status : OrderStatus
  filledQuantity : ℚ
  totalQuantity : ℚ
  orderId : Int
  eventId : String
  sourceTimestamp : Int
  orderEntityId : Option String
  deriving DecidableEq

structure BracketLegPlan where
  role : String
  action : Side
  orderType : String
  quantity : ℚ
  limitPrice : Option ℚ
  stopPrice : Option ℚ
  parentRole : Option String
  transmit : Bool
  ocaGroup : Option String
  orderRef : String
  deriving DecidableEq

structure BracketPlan where
  orderGroupId : String
  orderRef : String
  legs : List BracketLegPlan
  exitType : String
  ocaGroup : String
  deriving DecidableEq

structure SagaState where
  commandId : String
  orderGroupId : String
  orderRef : String
  state : SagaStateName
  accountId : String
  conid : Int
  side : Side
  requestedQuantity : ℚ
  filledQuantity : ℚ := 0
  protectionQuantity : ℚ := 0
  protectionWorking : Bool := false
  protectionAdjusted : Bool := false
  entryWorking : Bool := false
  stopWorking : Bool := false
  targetWorking : Bool := false
  stopFilled : Bool := false
  targetFilled : Bool := false
  entryCancelled : Bool := false
  stopRejected : Bool := false
  targetRejected : Bool := false
  submittedOrderIds : List Int := []
  seenEventIds : List String := []
  revision : Nat := 0
  errorCode : Option String := none
  planJson : Option BracketPlan := none
  closeRootId : Option String := none
  expectedCancelIds : List String := []
  handoverGeneration : Option Nat := none
  protectionGeneration : Nat := 0
  activeGroups : List String := []
  pendingGroups : List String := []
  pendingProtectionLost : Bool := false
  flattenRequested : Bool := false
  filledAt : Option Int := none
  baselinePosition : Option ℚ := none
  sendGenerationId : Option Nat := none
  sendAttemptedAt : Option Int := none
  sendReturnedAt : Option Int := none
  deriving DecidableEq

def SagaStateName.isTerminal : SagaStateName → Bool
  | .CLOSED | .SAFETY_FAILED | .NOT_SENT => true
  | _ => false

def SagaState.currentGroups (s : SagaState) : List String :=
  if s.activeGroups.isEmpty then [s.orderGroupId] else s.activeGroups

/-! ## Broker events -/

/-- The working / cancelled part of `_apply_entry_leg`. -/
def entryFlags (s : SagaState) (status : OrderStatus) : SagaState :=
  let s := if status.isWorking then { s with entryWorking := true } else s
  if status.isCancelled || status.isRejected then { s with entryCancelled := true, entryWorking := false }
  else s

/-- The fill part of `_apply_entry_leg`. -/
def entryFill (s : SagaState) (status : OrderStatus) (filled : ℚ) : SagaState :=
  let s := if filled > s.filledQuantity then
      { s with
        filledQuantity := filled
        protectionQuantity := filled
        protectionAdjusted := decide (filled < s.requestedQuantity) }
    else s
  if status.isFilled then
    let qty := max (max filled s.filledQuantity) s.requestedQuantity
    { s with filledQuantity := qty, protectionQuantity := qty, entryWorking := false }
  else s

def applyEntryLeg (s : SagaState) (e : BrokerOrderEvent) : SagaState :=
  let next := entryFill (entryFlags s e.status) e.status e.filledQuantity
  if next.filledQuantity > s.filledQuantity then { next with filledAt := some e.sourceTimestamp } else next

def entryFillGrows (s : SagaState) (e : BrokerOrderEvent) : Bool :=
  e.leg == .entry && (decide (e.filledQuantity > s.filledQuantity) ||
    (e.status.isFilled && decide (s.filledQuantity < s.requestedQuantity)))

def closeOwnedOnce (s : SagaState) : Bool := s.handoverGeneration.isSome || decide (s.protectionGeneration > 0)

def protectionConfirmed (s : SagaState) : Bool := s.stopWorking || s.stopFilled

def isFlat (s : SagaState) : Bool :=
  (s.stopFilled && (s.targetFilled || !s.targetWorking)) ||
  (s.targetFilled && (s.stopFilled || !s.stopWorking))

def applyStopLeg (s : SagaState) (status : OrderStatus) : SagaState :=
  let s := if status.isWorking then { s with stopWorking := true, stopRejected := false } else s
  let s := if status.isRejected then { s with stopWorking := false, stopRejected := true }
    else if status.isCancelled then
      -- an OCA cancel after the target filled is expected
      if s.targetFilled then { s with stopWorking := false }
      else { s with stopWorking := false, stopRejected := true }
    else s
  if status.isFilled then { s with stopFilled := true, stopWorking := false } else s

/-- The take-profit branch of `_apply_event`. -/
def applyTargetLeg (s : SagaState) (status : OrderStatus) : SagaState :=
  let s := if status.isWorking then { s with targetWorking := true, targetRejected := false } else s
  let s := if status.isRejected then { s with targetWorking := false, targetRejected := true }
    else if status.isCancelled then { s with targetWorking := false }
    else s
  if status.isFilled then { s with targetFilled := true, targetWorking := false } else s

/-- The field updates of `_apply_event`, before it picks the next state. -/
def applyLeg (s : SagaState) (e : BrokerOrderEvent) : SagaState :=
  match e.leg with
  | .entry => applyEntryLeg s e
  | .stop => applyStopLeg s e.status
  | .takeProfit => applyTargetLeg s e.status
  | .other _ => s

/-- The tail of `_apply_event`: the next state from the updated fields. -/
def chooseState (s : SagaState) (e : BrokerOrderEvent) : SagaState :=
  let protectionWorking := protectionConfirmed s
  let s := { s with protectionWorking := protectionWorking }
  let fullyFilled := decide (s.filledQuantity ≥ s.requestedQuantity) && decide (s.requestedQuantity > 0)
  let partiallyFilled := decide (s.filledQuantity > 0) && decide (s.filledQuantity < s.requestedQuantity)
  if s.entryCancelled && decide (s.filledQuantity ≤ 0) then { s with state := .CLOSED, errorCode := none }
  else if s.stopFilled || s.targetFilled then
    if isFlat s then { s with state := .CLOSED } else { s with state := .EXITING }
  else if decide (s.filledQuantity > 0) && !protectionWorking &&
      (fullyFilled || s.stopRejected || (e.leg == .entry && e.status.isFilled)) then
    { s with state := .SAFETY_FAILED, errorCode := some "MISSING_PROTECTION" }
  else if fullyFilled && protectionWorking then { s with state := .PROTECTED }
  else if partiallyFilled then { s with state := .PARTIALLY_FILLED }
  else if s.entryWorking || s.stopWorking || s.targetWorking then { s with state := .ENTRY_WORKING }
  else s

/-- `_apply_event`.  A rejected parent closes the saga before its protection is judged. -/
def applyEvent (s : SagaState) (e : BrokerOrderEvent) : SagaState :=
  let next := applyLeg s e
  if e.leg == .entry && e.status.isRejected then
    { next with state := .CLOSED, errorCode := some "PARENT_REJECTED" }
  else chooseState next e

def recordEvent (before updated : SagaState) (e : BrokerOrderEvent) : SagaState :=
  { updated with seenEventIds := before.seenEventIds ++ [e.eventId], revision := before.revision + 1 }

/-- `_lost`: only a cancel of a ref the close asked to cancel is expected. -/
def isLost (s : SagaState) (e : BrokerOrderEvent) : Bool :=
  let expected := match e.orderEntityId with
    | some id => s.expectedCancelIds.contains id
    | none => false
  e.status.isRejected || (e.status.isCancelled && !expected)

def ownedBookkeeping (s : SagaState) (e : BrokerOrderEvent) : SagaState :=
  match e.leg with
  | .entry => applyEntryLeg s e
  | .stop => { s with stopWorking := e.status.isWorking, stopFilled := s.stopFilled || e.status.isFilled }
  | .takeProfit =>
      { s with targetWorking := e.status.isWorking, targetFilled := s.targetFilled || e.status.isFilled }
  | .other _ => s

def onOwnedEvent (s : SagaState) (e : BrokerOrderEvent) : SagaState :=
  if isLost s e then
    recordEvent s { s with
      state := .SAFETY_FAILED
      errorCode := some "PROTECTION_LOST_DURING_CLOSE"
      flattenRequested := true } e
  else recordEvent s (ownedBookkeeping s e) e

def onPendingEvent (s : SagaState) (e : BrokerOrderEvent) : SagaState :=
  let lost := s.state == .CLOSE_OWNED && isLost s e
  recordEvent s { s with pendingProtectionLost := s.pendingProtectionLost || lost } e

def reopenTerminalRow (s : SagaState) (e : BrokerOrderEvent) : SagaState :=
  let reopened := applyEvent { s with state := .OUTCOME_UNKNOWN, errorCode := some "ORPHAN_ORDER_FOUND" } e
  let reopened := if reopened.filledQuantity > 0 then
      { reopened with
        state := .SAFETY_FAILED
        errorCode := some "ORPHAN_ORDER_FILLED"
        flattenRequested := true }
    else reopened
  recordEvent s reopened e

def recordEntryAfterSafetyFailure (s : SagaState) (e : BrokerOrderEvent) : SagaState :=
  recordEvent s (applyEntryLeg s e) e

/-- The last part of `_apply_broker_event`: an event of live, unowned protection. -/
def onLiveEvent (s : SagaState) (e : BrokerOrderEvent) : SagaState :=
  let updated := applyEvent s e
  let updated := if updated.state = .SAFETY_FAILED ∧ s.state ≠ .SAFETY_FAILED then
      { updated with flattenRequested := true }
    else updated
  recordEvent s updated e

/-- `_apply_broker_event` on the row `load_by_group` found with `groupGeneration`: the row it
    persists, `none` when it returns the stored row. -/
def applyBrokerEvent (s : SagaState) (groupGeneration : Nat) (e : BrokerOrderEvent) : Option SagaState :=
  if s.seenEventIds.contains e.eventId then none
  else if s.state = .SAFETY_FAILED ∧ e.leg = .entry then some (recordEntryAfterSafetyFailure s e)
  else if s.state = .NOT_SENT then some (reopenTerminalRow s e)
  else if s.state = .CLOSED ∧ closeOwnedOnce s = false ∧ entryFillGrows s e = true then
    some (reopenTerminalRow s e)
  else if s.state.isTerminal then none
  else if groupGeneration > s.protectionGeneration then some (onPendingEvent s e)
  else if groupGeneration < s.protectionGeneration then some (recordEvent s s e)
  else if s.state = .CLOSE_OWNED then some (onOwnedEvent s e)
  else some (onLiveEvent s e)

/-- When `_trip_and_liquidate` runs after a write. -/
def tripsAndLiquidates (before after : SagaState) : Bool :=
  after.state == .SAFETY_FAILED && before.state != .SAFETY_FAILED

/-! ## Close ownership -/

/-- One cancel a close announces: the broker ref and its order group. -/
structure ExpectedCancel where
  orderEntityId : String
  orderGroupId : String
  deriving DecidableEq

/-- `expected` of `_own`: sorted, without repeats. -/
def mergedCancels (s : SagaState) (cancels : List ExpectedCancel) : List String :=
  let groups := s.currentGroups ++ s.pendingGroups
  let mine := (cancels.filter fun c => groups.contains c.orderGroupId).map (·.orderEntityId)
  (s.expectedCancelIds ++ mine).dedup.insertionSort (· ≤ ·)

/-- `_own` for one row; `none` when it is already handed over with these refs. -/
def own (s : SagaState) (closeRootId : String) (cancels : List ExpectedCancel) (generation : Nat) :
    Option SagaState :=
  let expected := mergedCancels s cancels
  if s.state = .CLOSE_OWNED ∧ s.closeRootId = some closeRootId ∧ s.expectedCancelIds = expected then none
  else some { s with
    state := .CLOSE_OWNED
    closeRootId := some closeRootId
    expectedCancelIds := expected
    handoverGeneration := some generation
    revision := s.revision + 1 }

/-- Is the row in `load_by_close_root`? -/
def ownedBy (s : SagaState) (closeRootId : String) : Bool :=
  s.state == .CLOSE_OWNED && s.closeRootId == some closeRootId

/-- What a release is told about the replacement legs. -/
structure Release where
  closeRootId : String
  remainingQuantity : ℚ
  stopGroup : String
  stopStatus : OrderStatus
  target : Option (String × Option OrderStatus)
  protectionProblem : Bool
  now : Int
  deriving DecidableEq

/-- The keeper's row of `release_after_partial`, reset to the remainder. -/
def releaseBase (s : SagaState) (r : Release) : SagaState :=
  { s with
    state := .PROTECTED
    closeRootId := none
    expectedCancelIds := []
    handoverGeneration := none
    protectionGeneration := s.protectionGeneration + 1
    activeGroups := r.stopGroup :: (r.target.map (·.1)).toList
    pendingGroups := []
    pendingProtectionLost := false
    requestedQuantity := r.remainingQuantity
    filledQuantity := r.remainingQuantity
    protectionQuantity := r.remainingQuantity
    protectionWorking := false
    stopWorking := false
    targetWorking := false
    stopFilled := false
    targetFilled := false
    stopRejected := false
    targetRejected := false
    entryWorking := false
    entryCancelled := false
    errorCode := none
    revision := s.revision + 1 }

def releaseEvent (r : Release) (group : String) (leg : Leg) (name : String) (status : OrderStatus) :
    BrokerOrderEvent :=
  ⟨group, leg, status, 0, r.remainingQuantity, 0, "release:" ++ r.closeRootId ++ ":" ++ name, r.now, none⟩

/-- The keeper's row after `release_after_partial`. -/
def releaseKeeper (s : SagaState) (r : Release) : SagaState :=
  let released := applyEvent (releaseBase s r) (releaseEvent r r.stopGroup .stop "stop" r.stopStatus)
  let released := match r.target with
    | some (group, status) =>
        applyEvent released (releaseEvent r group .takeProfit "target" (status.getD (.other "Unknown")))
    | none => released
  if r.protectionProblem || s.pendingProtectionLost || !r.stopStatus.isReleaseStop ||
      !(released.state == .PROTECTED || released.state == .EXITING || released.state == .CLOSED) then
    { released with
      state := .SAFETY_FAILED
      flattenRequested := true
      errorCode := some (released.errorCode.getD "PROTECTION_LOST_DURING_CLOSE") }
  else released

/-- A row merged into the keeper. -/
def releaseMerged (s : SagaState) : SagaState :=
  { s with
    state := .CLOSED
    closeRootId := none
    errorCode := some "PROTECTION_MERGED"
    revision := s.revision + 1 }

def closeAfterFullRow (s : SagaState) : SagaState :=
  { s with
    state := .CLOSED
    errorCode := none
    closeRootId := none
    stopWorking := false
    targetWorking := false
    revision := s.revision + 1 }

end MmrTrader.Saga
