import Mathlib.Data.Rat.Defs
import MmrTrader.Ai.Budget

/-!
# The attempt journal and the cost events

Executable model of `trader/ai/journal.py`, and of the transactions of `trader/ai/gateway.py`.

* `AttemptRow`, `CostEventRow`, `AiDb` — the tables, with those of the budget.
* `beginInTx`, `finishSuccessInTx`, `finishFailureInTx`, `markStartedAsUnknownInTx`, `reconcileLateUsageInTx`,
  `addCostEventInTx` — the journal.
* `beginTx`, `successTx`, `failureTx`, `recoverTx`, `lateTx` — what commits together.
-/

set_option autoImplicit false

namespace MmrTrader.Ai

open Lib

/-! ## Tables -/

inductive AttemptStatus where
  | STARTED
  | SUCCEEDED
  | NOT_SENT
  | REJECTED
  | UNKNOWN
  | COST_UNKNOWN
  | RECONCILED
  deriving DecidableEq

/-- A row of `ai_model_attempts`. -/
structure AttemptRow where
  attemptKey : String
  requestKey : String
  attemptNo : Nat
  role : String
  backend : String
  model : String
  status : AttemptStatus
  reservationId : String
  responseText : Option String
  inputTokens : Option Nat
  outputTokens : Option Nat
  errorCode : Option String
  deriving DecidableEq

inductive CostKind where
  | CONFIRMED
  | ESTIMATED_UNKNOWN
  | NONE
  | CORRECTION
  deriving DecidableEq

def CostKind.text : CostKind → String
  | .CONFIRMED => "CONFIRMED"
  | .ESTIMATED_UNKNOWN => "ESTIMATED_UNKNOWN"
  | .NONE => "NONE"
  | .CORRECTION => "CORRECTION"

structure Usage where
  inputTokens : Nat
  outputTokens : Nat
  deriving DecidableEq

/-- A row of `ai_cost_events`, in the order of `event_seq`. -/
structure CostEventRow where
  eventId : String
  attemptKey : String
  role : String
  backend : String
  model : String
  kind : CostKind
  costMicros : Int
  usage : Option Usage
  deriving DecidableEq

structure AiDb where
  budget : BudgetDb
  attempts : Table AttemptRow.attemptKey
  events : Table CostEventRow.eventId

def AiDb.empty : AiDb := ⟨BudgetDb.empty, Table.empty, Table.empty⟩

inductive GatewayError where
  | budget (e : BudgetError)
  | attemptUnknown
  | attemptState
  | outcomeInvalid
  | lateUsageConflict
  | priceUnavailable
  | duplicateKey
  /-- The COMMIT or the connection. -/
  | database
  deriving DecidableEq

abbrev AiTx := EStateM GatewayError AiDb

/-- A statement on the budget's tables. -/
def onBudget {α : Type} (x : BudgetTx α) : AiTx α := fun db =>
  match x db.budget with
  | .ok a budget => .ok a { db with budget := budget }
  | .error e budget => .error (.budget e) { db with budget := budget }

/-- `UPDATE ai_model_attempts SET … WHERE p`. -/
def AiDb.updateAttempts (db : AiDb) (p : AttemptRow → Bool) (f : AttemptRow → AttemptRow)
    (hf : ∀ a, (f a).attemptKey = a.attemptKey) : AiDb :=
  { db with attempts := db.attempts.updateWhere p f hf }

/-! ## The journal -/

structure ModelRequest where
  requestKey : String
  /-- `estimate_input_tokens` of its messages. -/
  inputTokens : Nat
  maxOutputTokens : Nat
  deriving DecidableEq

structure ModelResponse where
  text : String
  usage : Usage
  deriving DecidableEq

/-- `COALESCE(MAX(attempt_no), 0)`. -/
def AiDb.topAttempt (db : AiDb) (requestKey : String) : Nat :=
  ((db.attempts.rows.filter fun a => a.requestKey = requestKey).map AttemptRow.attemptNo).foldl Nat.max 0

def attemptKeyOf (requestKey : String) (attemptNo : Nat) : String := requestKey ++ "#" ++ toString attemptNo

def beginInTx (request : ModelRequest) (role backend model reservationId : String) : AiTx AttemptRow := do
  let db ← get
  let attemptNo := db.topAttempt request.requestKey + 1
  let row : AttemptRow :=
    ⟨attemptKeyOf request.requestKey attemptNo, request.requestKey, attemptNo, role, backend, model, .STARTED, reservationId,
      none, none, none, none⟩
  match db.attempts.insert? row with
  | none => throw .duplicateKey
  | some attempts =>
    set { db with attempts := attempts }
    return row

def requireStatus (attemptKey : String) (allowed : AttemptStatus → Bool) : AiTx AttemptRow := do
  match (← get).attempts.get? attemptKey with
  | none => throw .attemptUnknown
  | some row =>
    Tx.refuseIf (!allowed row.status) .attemptState
    return row

def finishSuccessInTx (attemptKey : String) (response : ModelResponse) : AiTx Unit := do
  let _ ← requireStatus attemptKey fun s => s == .STARTED
  modify fun db => db.updateAttempts (fun a => a.attemptKey == attemptKey)
    (fun a => { a with
      status := .SUCCEEDED
      responseText := some response.text
      inputTokens := some response.usage.inputTokens
      outputTokens := some response.usage.outputTokens }) fun _ => rfl

def isFailure : AttemptStatus → Bool
  | .NOT_SENT | .REJECTED | .UNKNOWN | .COST_UNKNOWN => true
  | _ => false

def finishFailureInTx (attemptKey : String) (outcome : AttemptStatus) (errorCode : String) : AiTx Unit := do
  Tx.refuseIf (!isFailure outcome) .outcomeInvalid
  let _ ← requireStatus attemptKey fun s => s == .STARTED
  modify fun db => db.updateAttempts (fun a => a.attemptKey == attemptKey)
    (fun a => { a with status := outcome, errorCode := some errorCode }) fun _ => rfl

def markStartedAsUnknownInTx : AiTx (List AttemptRow) := do
  let db ← get
  set (db.updateAttempts (fun a => a.status == .STARTED)
    (fun a => { a with status := .UNKNOWN, errorCode := some "PROCESS_RESTARTED" }) fun _ => rfl)
  return (db.attempts.rows.filter fun a => a.status == .STARTED).map fun a =>
    { a with status := .UNKNOWN, errorCode := some "PROCESS_RESTARTED" }

/-- `LATE_USAGE_STATUSES`, or RECONCILED. -/
def mayReconcile : AttemptStatus → Bool
  | .UNKNOWN | .COST_UNKNOWN | .RECONCILED => true
  | _ => false

def reconcileLateUsageInTx (attemptKey : String) (usage : Usage) : AiTx Bool := do
  let row ← requireStatus attemptKey mayReconcile
  if row.status = .RECONCILED then
    if row.inputTokens = some usage.inputTokens ∧ row.outputTokens = some usage.outputTokens then return false
    else throw .lateUsageConflict
  else
    modify fun db => db.updateAttempts (fun a => a.attemptKey == attemptKey)
      (fun a => { a with
        status := .RECONCILED
        inputTokens := some usage.inputTokens
        outputTokens := some usage.outputTokens }) fun _ => rfl
    return true

def addCostEventInTx (attempt : AttemptRow) (kind : CostKind) (costMicros : Int) (usage : Option Usage) : AiTx Unit := do
  let db ← get
  match db.events.insert? ⟨attempt.attemptKey ++ ":" ++ kind.text, attempt.attemptKey, attempt.role, attempt.backend,
      attempt.model, kind, costMicros, usage⟩ with
  | none => throw .duplicateKey
  | some events => set { db with events := events }

/-! ## What commits together -/

/-- `ModelPrice`: USD per million tokens. -/
structure ModelPrice where
  inputUsdPerMillion : ℚ
  outputUsdPerMillion : ℚ

def ModelPrice.costMicros (p : ModelPrice) (usage : Usage) : Int :=
  Rat.ceil (usage.inputTokens * p.inputUsdPerMillion + usage.outputTokens * p.outputUsdPerMillion)

structure RoleConfig where
  backend : String
  model : String
  maxInputTokens : Nat
  maxOutputTokens : Nat
  deriving DecidableEq

structure Begun where
  reservationId : String
  reservedMicros : Int
  attempt : AttemptRow
  deriving DecidableEq

structure CallError where
  outcome : AttemptStatus
  code : String
  deriving DecidableEq

def beginTx (B : Budget) (role : String) (config : RoleConfig) (request : ModelRequest) (worstCase : Int)
    (reservationId : String) (now : Int) : AiTx Begun := do
  let reservation ← onBudget (B.reserveInTx reservationId worstCase now)
  let attempt ← beginInTx request role config.backend config.model reservationId
  return ⟨reservationId, reservation.reservedMicros, attempt⟩

def successTx (price : ModelPrice) (begun : Begun) (response : ModelResponse) : AiTx Unit := do
  let cost := price.costMicros response.usage
  finishSuccessInTx begun.attempt.attemptKey response
  discard (onBudget (Budget.settleInTx begun.reservationId cost false))
  addCostEventInTx begun.attempt .CONFIRMED cost (some response.usage)

def failureTx (begun : Begun) (error : CallError) : AiTx Unit := do
  finishFailureInTx begun.attempt.attemptKey error.outcome error.code
  if error.outcome = .NOT_SENT ∨ error.outcome = .REJECTED then
    onBudget (Budget.releaseInTx begun.reservationId (if error.outcome = .NOT_SENT then .notSent else .rejected))
    addCostEventInTx begun.attempt .NONE 0 none
  else
    onBudget (Budget.markUnknownInTx begun.reservationId)
    addCostEventInTx begun.attempt .ESTIMATED_UNKNOWN begun.reservedMicros none

/-- The loop of `recover_after_restart`. -/
def estimateAll : List AttemptRow → AiTx Unit
  | [] => pure ()
  | attempt :: rest => do
    let row ← onBudget (Budget.getInTx attempt.reservationId)
    addCostEventInTx attempt .ESTIMATED_UNKNOWN row.reservedMicros none
    estimateAll rest

/-- `recover_after_restart`. -/
def recoverTx : AiTx Unit := do
  estimateAll (← markStartedAsUnknownInTx)
  discard (onBudget Budget.recoverOpenInTx)

/-- `report_late_usage`. -/
def lateTx (priceFor : String → String → Option ModelPrice) (attemptKey : String) (usage : Usage) : AiTx Bool := do
  match (← get).attempts.get? attemptKey with
  | none => throw .attemptUnknown
  | some attempt =>
    match priceFor attempt.backend attempt.model with
    | none => throw .priceUnavailable
    | some price =>
      if ← reconcileLateUsageInTx attemptKey usage then
        let cost := price.costMicros usage
        discard (onBudget (Budget.settleInTx attempt.reservationId cost true))
        addCostEventInTx attempt .CORRECTION cost (some usage)
        return true
      else return false

end MmrTrader.Ai
