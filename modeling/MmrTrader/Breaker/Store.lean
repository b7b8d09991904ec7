import MmrTrader.Authority.Ledger
import MmrTrader.Command.Ledger

/-!
# The circuit breaker

Executable model of `CircuitBreakerStore` (`trader/data/circuit_breaker_store.py`) and of the checks of
`CircuitBreaker` (`trader/trading/circuit_breaker.py`).

* `tripReason` — immediate, rolling and disconnect rules, read inside the transaction that stores the incident.
* `applySignal`, `reset` — the two journal callbacks; `resetAllowed` — the session check of a reset.

SHA-256 and the text of a timestamp are parameters; instants are UTC (`Int`, microseconds).
-/

set_option autoImplicit false

namespace MmrTrader.Breaker

open Lib Journal
open Command (Json)
open Authority (strip)

inductive SignalKind where
  | DAILY_LOSS_BREACH
  | PROTECTIVE_ORDER_FAILURE
  | RECONCILIATION_DIVERGENCE
  | LIQUIDATION_FAILED
  | ACCOUNT_MISMATCH
  | INSTRUMENT_HALT
  | DRAWDOWN_BREACH
  | MISSED_FLAT_DEADLINE
  | DUPLICATE_SUBMISSION
  | UNEXPLAINED_POSITION
  | QUOTE_FAILURE
  | AMBIGUOUS_OUTCOME
  | RUNTIME_EXCEPTION
  | BROKER_DISCONNECTED
  | BROKER_RECONNECTED
  deriving DecidableEq

def SignalKind.name : SignalKind → String
  | .DAILY_LOSS_BREACH => "DAILY_LOSS_BREACH"
  | .PROTECTIVE_ORDER_FAILURE => "PROTECTIVE_ORDER_FAILURE"
  | .RECONCILIATION_DIVERGENCE => "RECONCILIATION_DIVERGENCE"
  | .LIQUIDATION_FAILED => "LIQUIDATION_FAILED"
  | .ACCOUNT_MISMATCH => "ACCOUNT_MISMATCH"
  | .INSTRUMENT_HALT => "INSTRUMENT_HALT"
  | .DRAWDOWN_BREACH => "DRAWDOWN_BREACH"
  | .MISSED_FLAT_DEADLINE => "MISSED_FLAT_DEADLINE"
  | .DUPLICATE_SUBMISSION => "DUPLICATE_SUBMISSION"
  | .UNEXPLAINED_POSITION => "UNEXPLAINED_POSITION"
  | .QUOTE_FAILURE => "QUOTE_FAILURE"
  | .AMBIGUOUS_OUTCOME => "AMBIGUOUS_OUTCOME"
  | .RUNTIME_EXCEPTION => "RUNTIME_EXCEPTION"
  | .BROKER_DISCONNECTED => "BROKER_DISCONNECTED"
  | .BROKER_RECONNECTED => "BROKER_RECONNECTED"

def IMMEDIATE : List SignalKind :=
  [.DAILY_LOSS_BREACH, .PROTECTIVE_ORDER_FAILURE, .RECONCILIATION_DIVERGENCE, .LIQUIDATION_FAILED, .ACCOUNT_MISMATCH,
    .INSTRUMENT_HALT, .DRAWDOWN_BREACH, .MISSED_FLAT_DEADLINE, .DUPLICATE_SUBMISSION, .UNEXPLAINED_POSITION]

structure RollingRule where
  threshold : Nat
  window : Int
  text : String

def minute : Int := 60 * 1000000

def SignalKind.rolling : SignalKind → Option RollingRule
  | .QUOTE_FAILURE => some ⟨3, 5 * minute, "0:05:00"⟩
  | .AMBIGUOUS_OUTCOME => some ⟨3, 5 * minute, "0:05:00"⟩
  | .RUNTIME_EXCEPTION => some ⟨5, 10 * minute, "0:10:00"⟩
  | _ => none

def KNOWN : List SignalKind :=
  IMMEDIATE ++ [.QUOTE_FAILURE, .AMBIGUOUS_OUTCOME, .RUNTIME_EXCEPTION] ++ [.BROKER_DISCONNECTED, .BROKER_RECONNECTED]

def SignalKind.ofName (name : String) : Option SignalKind := KNOWN.find? (·.name == name)

structure BreakerSignal where
  kind : String
  occurredAt : Int
  detail : String
  key : String
  deriving DecidableEq

inductive Status where
  | CLEAR
  | TRIPPED
  deriving DecidableEq

/-- One `automation_circuit_breaker` row. -/
structure BreakerState where
  accountId : String
  state : Status
  reasonCode : Option SignalKind
  reason : Option String
  revision : Nat
  trippedAt : Option Int
  resetAt : Option Int
  resetCommandId : Option String
  deriving DecidableEq

structure Incident where
  incidentId : String
  accountId : String
  signalKind : SignalKind
  detail : String
  occurredAt : Int
  recordedAt : Int
  deriving DecidableEq

structure BreakerTables where
  breaker : Table BreakerState.accountId
  incidents : Table Incident.incidentId
  deriving DecidableEq

inductive BreakerError where
  | unknownSignal (kind : String)
  | notSeeded
  | constraint
  | refused (message : String)
  deriving DecidableEq

/-- What the breaker of one account is built with: its ports and the two functions it takes from the libraries. -/
structure CircuitBreaker where
  accountId : String
  sha256 : String → String
  isoformat : Int → String
  /-- `session_key`: the exchange session in force, the last one before it outside a session. -/
  sessionKey : Int → Int
  session_mono : ∀ a b, a ≤ b → sessionKey a ≤ sessionKey b
  disconnectGrace : Int

abbrev BreakerJournal := JournalState Json BreakerTables

abbrev BreakerWork := Work Json BreakerTables BreakerError BreakerState

namespace CircuitBreaker

variable (B : CircuitBreaker)

/-! ## Reads -/

def row (own : BreakerTables) : Option BreakerState := own.breaker.get? B.accountId

def countSince (own : BreakerTables) (kind : SignalKind) (since : Int) : Nat :=
  (own.incidents.rows.filter fun d => d.accountId = B.accountId ∧ d.signalKind = kind ∧ since ≤ d.occurredAt).length

/-- `disconnect_started`: the first disconnect after the last reconnect. -/
def disconnectStarted (own : BreakerTables) : Option Int :=
  let times (kind : SignalKind) :=
    (own.incidents.rows.filter fun d => d.accountId = B.accountId ∧ d.signalKind = kind).map (·.occurredAt)
  match (times .BROKER_RECONNECTED).max? with
  | none => (times .BROKER_DISCONNECTED).min?
  | some reconnected => ((times .BROKER_DISCONNECTED).filter (reconnected < ·)).min?

def incidentId (kind : SignalKind) (occurredAt : Int) (key : String) : String :=
  B.sha256 (B.accountId ++ "|" ++ kind.name ++ "|" ++ (if key = "" then B.isoformat occurredAt else key))

/-- `signal.kind.lower()`. -/
def lowerName (kind : SignalKind) : String := String.ofList (kind.name.toList.map Char.toLower)

/-- `signal.kind.replace("_", " ").lower()`. -/
def spokenName (kind : SignalKind) : String :=
  String.ofList (kind.name.toList.map fun c => if c = '_' then ' ' else c.toLower)

def tripReason (kind : SignalKind) (signal : BreakerSignal) (now : Int) (own : BreakerTables) : Option (SignalKind × String) :=
  if kind ∈ IMMEDIATE then some (kind, if signal.detail = "" then spokenName kind else signal.detail)
  else
    match kind.rolling with
    | some rule =>
      if rule.threshold ≤ B.countSince own kind (now - rule.window) then
        some (kind, toString rule.threshold ++ " " ++ lowerName kind ++ " signals within " ++ rule.text)
      else none
    | none =>
      if kind = .BROKER_DISCONNECTED then
        match B.disconnectStarted own with
        | some started =>
          if B.disconnectGrace ≤ now - started then
            some (.BROKER_DISCONNECTED, "broker disconnect exceeded grace period")
          else none
        | none => none
      else none

/-! ## Payloads -/

def isoOrNull (t : Option Int) : Json := (t.map fun t => Json.text (B.isoformat t)).getD .null

def statusText : Status → String
  | .CLEAR => "CLEAR"
  | .TRIPPED => "TRIPPED"

def toPayload (s : BreakerState) : Payload Json :=
  [("account_id", .text s.accountId), ("state", .text (statusText s.state)),
    ("reason_code", .ofText (s.reasonCode.map SignalKind.name)), ("reason", .ofText s.reason),
    ("revision", .ofInt s.revision), ("tripped_at", B.isoOrNull s.trippedAt), ("reset_at", B.isoOrNull s.resetAt),
    ("reset_command_id", .ofText s.resetCommandId)]

def mutation (eventType : String) (sourceTimestamp : Int) (correlationId : String) (payload : Payload Json) :
    DomainMutation Json where
  eventType := eventType
  entityType := "automation_breaker"
  entityId := B.accountId
  operation := .upsert
  accountId := some B.accountId
  source := "trader_service"
  sourceTimestamp := sourceTimestamp
  correlationId := some correlationId
  payload := some payload
  payload_iff_upsert := rfl

/-! ## Transactions -/

def insertIncident (incident : Incident) (own : BreakerTables) : Except BreakerError BreakerTables :=
  match own.incidents.insert? incident with
  | some incidents => .ok { own with incidents := incidents }
  | none => .error .constraint

def update (f : BreakerState → BreakerState) (hf : ∀ s, (f s).accountId = s.accountId) (own : BreakerTables) : BreakerTables :=
  { own with breaker := own.breaker.updateWhere (fun s => s.accountId = B.accountId) f hf }

/-- `UPDATE … SET state='TRIPPED'`. -/
def trip (code : SignalKind) (message : String) (recordedAt : Int) (own : BreakerTables) : BreakerTables :=
  B.update (fun s => { s with
    state := .TRIPPED, reasonCode := some code, reason := some message, revision := s.revision + 1,
    trippedAt := some recordedAt, resetAt := none, resetCommandId := none }) (fun _ => rfl) own

/-- `UPDATE … SET state='CLEAR'`. -/
def clear (commandId reason : String) (now : Int) (own : BreakerTables) : BreakerTables :=
  B.update (fun s => { s with
    state := .CLEAR, reasonCode := none, reason := some reason, revision := s.revision + 1, resetAt := some now,
    resetCommandId := some commandId }) (fun _ => rfl) own

/-- The write of a new incident: a trip of a clear breaker, or none. -/
def react (current : BreakerState) (reason : Option (SignalKind × String)) (recordedAt : Int) (own : BreakerTables) : BreakerTables :=
  match current.state, reason with
  | .CLEAR, some (code, message) => B.trip code message recordedAt own
  | _, _ => own

def incident (kind : SignalKind) (signal : BreakerSignal) (recordedAt : Int) : Incident :=
  ⟨B.incidentId kind signal.occurredAt signal.key, B.accountId, kind, signal.detail, signal.occurredAt, recordedAt⟩

/-- The callback of `apply_signal`; `receivedTs` is the arrival time the journal stamps. -/
def applySignal (kind : SignalKind) (signal : BreakerSignal) (recordedAt receivedTs : Int) : BreakerWork :=
  let id := B.incidentId kind signal.occurredAt signal.key
  .read fun t =>
  match t.own.incidents.get? id with
  | some _ =>
    match B.row t.own with
    | some state => .done state
    | none => .fail .notSeeded
  | none =>
    .writeOwn (insertIncident (B.incident kind signal recordedAt)) <|
    .read fun t =>
    match B.row t.own with
    | none => .fail .notSeeded
    | some current =>
      let reason := B.tripReason kind signal recordedAt t.own
      .writeOwn (fun own => .ok (B.react current reason recordedAt own)) <|
      .read fun t =>
      match B.row t.own with
      | none => .fail .notSeeded
      | some result =>
        let payload := [("incident_id", Json.text id), ("signal_kind", .text kind.name)] ++ B.toPayload result
        .append (B.mutation "automation.incident" recordedAt id payload) (fun t _ => .ok t.own) id receivedTs fun _ =>
        .done result

/-- The callback of the store's `reset`. -/
def reset (commandId reason : String) (now receivedTs : Int) : BreakerWork :=
  .read fun t =>
  match B.row t.own with
  | none => .fail .notSeeded
  | some state =>
    match state.state with
    | .CLEAR => .done state
    | .TRIPPED =>
      .writeOwn (fun own => .ok (B.clear commandId reason now own)) <|
      .read fun t =>
      match B.row t.own with
      | none => .fail .notSeeded
      | some updated =>
        .append (B.mutation "automation.reset" now commandId (B.toPayload updated)) (fun t _ => .ok t.own)
          ("breaker-reset:" ++ commandId) receivedTs fun _ =>
        .done updated

def seedRow : BreakerState := ⟨B.accountId, .CLEAR, none, none, 1, none, none, none⟩

/-- `seed`: a plain transaction, not a journal batch. -/
def seed (own : BreakerTables) : BreakerTables :=
  match own.breaker.insert? B.seedRow with
  | some breaker => { own with breaker := breaker }
  | none => own

/-- The check of `CircuitBreaker.reset` on the state it has read: a daily loss holds for its session. -/
def sameSessionLoss (current : BreakerState) (now : Int) : Bool :=
  current.reasonCode = some .DAILY_LOSS_BREACH &&
    match current.trippedAt with
    | some trippedAt => B.sessionKey trippedAt = B.sessionKey now
    | none => false

end CircuitBreaker

end MmrTrader.Breaker
