import Mathlib.Data.Rat.Defs
import MmrTrader.Lib.Table
import MmrTrader.Lib.Transaction

/-!
# Ingestion of model costs and simulated decisions

Executable model of `AiIngest` (`trader/scoreboard/ingest.py`) and `ingest_sealed_many` (`trader/scoreboard/store.py`).

* `CostRequest`, `SimulatedRequest` — the two commands, as their validators pass them.
* `ingestSealedMany` — insert or recognise.
* `costChecks`, `simulatedChecks`, `recordCost`, `recordSimulated` — the commands and their replies.

What the trader knows of experiments and decisions is `Facts`; trips and sizes are read anew each time.
-/

set_option autoImplicit false

namespace MmrTrader.Scoreboard

open Lib

/-! ## Requests -/

inductive CostStatus where
  | unknown
  | estimated
  | confirmed
  deriving DecidableEq

def CostStatus.rank : CostStatus → Nat
  | .unknown => 0
  | .estimated => 1
  | .confirmed => 2

structure CostRequest where
  recordId : String
  experimentId : String
  role : String
  provider : String
  model : String
  attemptId : String
  inputTokens : Option Nat
  outputTokens : Option Nat
  costUsd : Option ℚ
  costStatus : CostStatus
  calledAt : Int
  servedKind : String
  servedId : String
  decisionId : Option String
  correctsRecordId : Option String
  deriving DecidableEq

structure SimulatedRequest where
  recordId : String
  experimentId : String
  baselineId : String
  cohort : String
  opportunityId : String
  conid : Option Int
  side : Option String
  quantity : Option Nat
  referencePrice : Option ℚ
  stopPrice : Option ℚ
  targetPrice : Option ℚ
  decidedAt : Int
  linkedDecisionId : Option String
  linkedRoundTripId : Option String
  deploymentDigest : Option String
  incompleteReason : Option String
  deriving DecidableEq

/-! ## Tables -/

structure CostRow extends CostRequest where
  correctionSeq : Nat
  bodyDigest : String
  recordedAt : Int
  deriving DecidableEq

structure SimulatedRow extends SimulatedRequest where
  sessionDate : Int
  quantitySource : Option String
  sizing : Option String
  bodyDigest : String
  recordedAt : Int
  deriving DecidableEq

structure OutcomeRow where
  recordId : String
  experimentId : String
  baselineId : String
  cohort : String
  sessionDate : Int
  status : String
  reason : Option String
  pnlUsd : Option ℚ
  trades : Option Nat
  computedAt : Int
  deriving DecidableEq

structure Seal where
  sealId : Nat
  tableName : String
  rowKey : String
  rowDigest : String
  prevChain : String
  chain : String
  deriving DecidableEq

structure ScoreboardDb where
  costs : Table (fun r : CostRow => r.recordId)
  decisions : Table (fun r : SimulatedRow => r.recordId)
  outcomes : Table OutcomeRow.recordId
  seals : List Seal

def ScoreboardDb.empty : ScoreboardDb := ⟨Table.empty, Table.empty, Table.empty, []⟩

/-! ## Refusals -/

inductive RefusalCode where
  | EXPERIMENT_UNKNOWN
  | CALL_OUTSIDE_EXPERIMENT
  | DECIDED_OUTSIDE_EXPERIMENT
  | DECISION_LINK_UNKNOWN
  | DECISION_LINK_WRONG_ACCOUNT
  | DECISION_LINK_OTHER_EXPERIMENT
  | DECISION_LINK_OUTSIDE_EXPERIMENT
  | DECISION_LINK_NOT_ENTER
  | DECISION_LINK_CONID_MISMATCH
  | CORRECTION_TARGET_UNKNOWN
  | CORRECTION_OF_CORRECTION
  | CORRECTION_IDENTITY_MISMATCH
  | CORRECTION_DOWNGRADE
  | UNKNOWN_BASELINE
  | COHORT_NOT_ALLOWED
  | DECIDED_OUTSIDE_ENTRY_WINDOW
  | MATCHED_ENTRY_TRIP_UNKNOWN
  | MATCHED_CLOSE_INVALID
  | MATCHED_ENTRY_TRIP_MISMATCH
  | CONFLICTING_DUPLICATE
  deriving DecidableEq

def RefusalCode.text : RefusalCode → String
  | .EXPERIMENT_UNKNOWN => "EXPERIMENT_UNKNOWN"
  | .CALL_OUTSIDE_EXPERIMENT => "CALL_OUTSIDE_EXPERIMENT"
  | .DECIDED_OUTSIDE_EXPERIMENT => "DECIDED_OUTSIDE_EXPERIMENT"
  | .DECISION_LINK_UNKNOWN => "DECISION_LINK_UNKNOWN"
  | .DECISION_LINK_WRONG_ACCOUNT => "DECISION_LINK_WRONG_ACCOUNT"
  | .DECISION_LINK_OTHER_EXPERIMENT => "DECISION_LINK_OTHER_EXPERIMENT"
  | .DECISION_LINK_OUTSIDE_EXPERIMENT => "DECISION_LINK_OUTSIDE_EXPERIMENT"
  | .DECISION_LINK_NOT_ENTER => "DECISION_LINK_NOT_ENTER"
  | .DECISION_LINK_CONID_MISMATCH => "DECISION_LINK_CONID_MISMATCH"
  | .CORRECTION_TARGET_UNKNOWN => "CORRECTION_TARGET_UNKNOWN"
  | .CORRECTION_OF_CORRECTION => "CORRECTION_OF_CORRECTION"
  | .CORRECTION_IDENTITY_MISMATCH => "CORRECTION_IDENTITY_MISMATCH"
  | .CORRECTION_DOWNGRADE => "CORRECTION_DOWNGRADE"
  | .UNKNOWN_BASELINE => "UNKNOWN_BASELINE"
  | .COHORT_NOT_ALLOWED => "COHORT_NOT_ALLOWED"
  | .DECIDED_OUTSIDE_ENTRY_WINDOW => "DECIDED_OUTSIDE_ENTRY_WINDOW"
  | .MATCHED_ENTRY_TRIP_UNKNOWN => "MATCHED_ENTRY_TRIP_UNKNOWN"
  | .MATCHED_CLOSE_INVALID => "MATCHED_CLOSE_INVALID"
  | .MATCHED_ENTRY_TRIP_MISMATCH => "MATCHED_ENTRY_TRIP_MISMATCH"
  | .CONFLICTING_DUPLICATE => "CONFLICTING_DUPLICATE"

inductive IngestError where
  /-- `IngestRefused`. -/
  | refused (code : RefusalCode) (retryable : Bool)
  /-- `ScoreboardConflict`. -/
  | conflict
  /-- Anything else. -/
  | raised
  deriving DecidableEq

abbrev ScoreboardTx := EStateM IngestError ScoreboardDb

/-! ## Sealed inserts -/

/-- `row_digest` and `chain_digest`, and the digest of a request. -/
structure Digests where
  cost : CostRequest → String
  simulated : SimulatedRequest → String
  costRow : CostRow → String
  simulatedRow : SimulatedRow → String
  outcomeRow : OutcomeRow → String
  chain : String → String → String → String → String

def GENESIS : String := "0000000000000000000000000000000000000000000000000000000000000000"

def addSeal (D : Digests) (seals : List Seal) (tableName rowKey rowDigest : String) : List Seal :=
  let last := seals.getLast?
  let prev := last.elim GENESIS Seal.chain
  seals ++ [⟨last.elim 1 (fun s => s.sealId + 1), tableName, rowKey, rowDigest, prev, D.chain prev tableName rowKey rowDigest⟩]

/-- `_insert_prepared_in_tx`, for one row of each table. -/
def insertCost (D : Digests) (row : CostRow) : ScoreboardTx Unit := do
  let db ← get
  match db.costs.insert? row with
  | none => throw .conflict
  | some costs => set { db with costs := costs, seals := addSeal D db.seals "ai_costs" row.recordId (D.costRow row) }

def insertDecision (D : Digests) (row : SimulatedRow) : ScoreboardTx Unit := do
  let db ← get
  match db.decisions.insert? row with
  | none => throw .conflict
  | some decisions =>
    set { db with
      decisions := decisions
      seals := addSeal D db.seals "simulated_decisions" row.recordId (D.simulatedRow row) }

def insertOutcome (D : Digests) (row : OutcomeRow) : ScoreboardTx Unit := do
  let db ← get
  match db.outcomes.insert? row with
  | none => throw .conflict
  | some outcomes =>
    set { db with
      outcomes := outcomes
      seals := addSeal D db.seals "simulated_outcomes" row.recordId (D.outcomeRow row) }

inductive IngestStatus where
  | INSERTED
  | DUPLICATE
  deriving DecidableEq

/-- `ingest_sealed_many`: the digest of the row with the same key, and what to check and insert without one. -/
def ingestSealedMany (found : ScoreboardDb → Option String) (bodyDigest : String) (insert : ScoreboardTx Unit) :
    ScoreboardTx IngestStatus := do
  match found (← get) with
  | some digest => if digest = bodyDigest then return .DUPLICATE else throw .conflict
  | none =>
    insert
    return .INSERTED

/-! ## What the trader knows -/

/-- What `_inside` and `_decision_link` read of an `ExperimentRecord`. -/
structure Experiment where
  experimentId : String
  accountId : String
  startedAt : Int
  stoppedAt : Option Int
  deriving DecidableEq

structure DecisionFact where
  decisionId : String
  accountId : String
  experimentId : Option String
  conid : Option Int
  action : Option String
  receivedAt : Int
  entryQuantity : Option Nat
  deriving DecidableEq

structure Facts where
  experiments : String → Option Experiment
  decisions : String → Option DecisionFact
  /-- The calendar: the opening and the start of the flatten of the session of a moment. -/
  resolve : Int → Option (Int × Int)
  sessionDateEt : Int → Int
  digests : Digests

def Facts.experiment (F : Facts) (experimentId : String) : Except IngestError Experiment :=
  match F.experiments experimentId with
  | none => .error (.refused .EXPERIMENT_UNKNOWN false)
  | some experiment => .ok experiment

def Experiment.inside (e : Experiment) (moment : Int) (code : RefusalCode) (upperBound : Bool) : Except IngestError Unit :=
  if moment < e.startedAt ∨ upperBound = true ∧ e.stoppedAt.any (· < moment) then .error (.refused code false) else .ok ()

def Facts.decisionLink (F : Facts) (decisionId : String) (e : Experiment) (conid : Option Int) (mustEnter : Bool) :
    Except IngestError DecisionFact :=
  match F.decisions decisionId with
  | none => .error (.refused .DECISION_LINK_UNKNOWN true)
  | some fact =>
    if fact.accountId ≠ e.accountId then .error (.refused .DECISION_LINK_WRONG_ACCOUNT false)
    else if fact.experimentId ≠ some e.experimentId then .error (.refused .DECISION_LINK_OTHER_EXPERIMENT false)
    else if fact.receivedAt < e.startedAt then .error (.refused .DECISION_LINK_OUTSIDE_EXPERIMENT false)
    else if mustEnter = true ∧ fact.action ≠ some "ENTER" then .error (.refused .DECISION_LINK_NOT_ENTER false)
    else if conid.isSome ∧ fact.conid ≠ conid then .error (.refused .DECISION_LINK_CONID_MISMATCH false)
    else .ok fact

/-! ## Costs -/

/-- `_cost`, up to the transaction. -/
def costAllowed (F : Facts) (req : CostRequest) : Except IngestError Unit := do
  let experiment ← F.experiment req.experimentId
  experiment.inside req.calledAt .CALL_OUTSIDE_EXPERIMENT false
  match req.decisionId with
  | none => return ()
  | some decisionId => discard (F.decisionLink decisionId experiment none false)

/-- The record `target` and its corrections. -/
def ScoreboardDb.recordsOf (db : ScoreboardDb) (target : String) : List CostRow :=
  db.costs.rows.filter fun r => r.recordId = target ∨ r.correctsRecordId = some target

/-- `ORDER BY correction_seq DESC LIMIT 1`. -/
def latestOf (rows : List CostRow) : Option CostRow :=
  rows.foldl (fun best r =>
    match best with
    | none => some r
    | some b => if b.correctionSeq < r.correctionSeq then some r else some b) none

/-- `_cost_checks`: the number of the record. -/
def costChecks (req : CostRequest) : ScoreboardTx Nat := do
  let db ← get
  match req.correctsRecordId with
  | none =>
    Tx.refuseIf (∃ r ∈ db.costs.rows, r.experimentId = req.experimentId ∧ r.attemptId = req.attemptId ∧
      r.correctsRecordId = none) .conflict
    return 0
  | some target =>
    match db.costs.get? target with
    | none => throw (.refused .CORRECTION_TARGET_UNKNOWN true)
    | some original =>
      Tx.refuseIf (original.correctsRecordId.isSome = true) (.refused .CORRECTION_OF_CORRECTION false)
      Tx.refuseIf ((original.experimentId, original.role, original.provider, original.model, original.attemptId,
          original.calledAt) ≠ (req.experimentId, req.role, req.provider, req.model, req.attemptId, req.calledAt))
        (.refused .CORRECTION_IDENTITY_MISMATCH false)
      match latestOf (db.recordsOf target) with
      | none => throw .raised
      | some latest =>
        Tx.refuseIf (req.costStatus.rank < latest.costStatus.rank) (.refused .CORRECTION_DOWNGRADE false)
        return latest.correctionSeq + 1

def costTx (D : Digests) (req : CostRequest) (now : Int) : ScoreboardTx IngestStatus :=
  ingestSealedMany (fun db => (db.costs.get? req.recordId).map CostRow.bodyDigest) (D.cost req) do
    let seq ← costChecks req
    insertCost D { req with correctionSeq := seq, bodyDigest := D.cost req, recordedAt := now }

/-! ## Replies -/

inductive Reply where
  | done (status : IngestStatus) (recordId : String)
  | REFUSED (recordId : String) (code : RefusalCode) (retryable : Bool)
  deriving DecidableEq

def Reply.recordId : Reply → String
  | .done _ recordId => recordId
  | .REFUSED recordId _ _ => recordId

/-- The reply to what is raised; an error that `_guarded` does not catch goes to the RPC layer, as `none`. -/
def IngestError.reply (recordId : String) : IngestError → Option Reply
  | .refused code retryable => some (.REFUSED recordId code retryable)
  | .conflict => some (.REFUSED recordId .CONFLICTING_DUPLICATE false)
  | .raised => none

def guarded (recordId : String) (allowed : Except IngestError Unit) (commit : Option IngestError)
    (tx : ScoreboardTx IngestStatus) (db : ScoreboardDb) : Option Reply × ScoreboardDb :=
  match allowed with
  | .error e => (e.reply recordId, db)
  | .ok _ =>
    match transaction commit tx db with
    | .ok status db' => (some (.done status recordId), db')
    | .error e db' => (e.reply recordId, db')

def recordCost (F : Facts) (req : CostRequest) (now : Int) (commit : Option IngestError) :
    ScoreboardDb → Option Reply × ScoreboardDb :=
  guarded req.recordId (costAllowed F req) commit (costTx F.digests req now)

/-! ## Simulated decisions -/

/-- `BASELINES`. -/
def cohortOf : String → Option String
  | "follow_signal.v1" => some "strategy_signal"
  | "fixed_rule.v1" => some "self_found"
  | "no_trade.v1" => some "self_found"
  | "matched_entry_bracket_exit.v1" => some "model_close"
  | _ => none

def NO_TRADE : String := "no_trade.v1"

def MATCHED_ENTRY : String := "matched_entry_bracket_exit.v1"

def traderSized (baselineId : String) : Bool := baselineId == "follow_signal.v1" || baselineId == "fixed_rule.v1"

structure Trip where
  roundTripId : String
  openedAt : Int
  deriving DecidableEq

/-- The size of a baseline: a quantity, or the reason there is none. -/
structure Sized where
  quantity : Option Nat
  sizing : String
  incompleteReason : Option String
  deriving DecidableEq

/-- What is read anew for a simulated decision. -/
structure SimulatedInput where
  now : Int
  /-- `opened_by` of an ENTER. -/
  openedBy : String → Option Trip
  /-- `_size`. -/
  sized : Sized
  /-- `LINKED_ENTER`, as JSON. -/
  linkedEnter : String

def verifiedTrip (F : Facts) (req : SimulatedRequest) (e : Experiment) (input : SimulatedInput) (entry : DecisionFact) :
    Except IngestError String :=
  match F.decisions req.opportunityId with
  | none => .error (.refused .DECISION_LINK_UNKNOWN true)
  | some close =>
    if entry.accountId ≠ e.accountId ∨ close.accountId ≠ e.accountId then
      .error (.refused .DECISION_LINK_WRONG_ACCOUNT false)
    else
      match input.openedBy entry.decisionId with
      | none => .error (.refused .MATCHED_ENTRY_TRIP_UNKNOWN true)
      | some trip =>
        if close.action ≠ some "CLOSE" ∧ close.action ≠ some "PARTIAL_CLOSE" ∨ close.experimentId ≠ some e.experimentId ∨
            close.conid ≠ entry.conid ∨ close.receivedAt < trip.openedAt then
          .error (.refused .MATCHED_CLOSE_INVALID false)
        else if req.linkedRoundTripId.isSome ∧ req.linkedRoundTripId ≠ some trip.roundTripId then
          .error (.refused .MATCHED_ENTRY_TRIP_MISMATCH false)
        else .ok trip.roundTripId

/-- `_incomplete_matched_links`: the decision and the trip that the row keeps. -/
def incompleteMatchedLinks (F : Facts) (req : SimulatedRequest) (e : Experiment) (input : SimulatedInput) :
    Except IngestError (Option String × Option String) :=
  match req.linkedDecisionId with
  | none => .ok (none, none)
  | some decisionId =>
    match F.decisionLink decisionId e req.conid true with
    | .error (.refused .DECISION_LINK_UNKNOWN _) => .ok (none, none)
    | .error error => .error error
    | .ok entry =>
      match verifiedTrip F req e input entry with
      | .error (.refused .MATCHED_ENTRY_TRIP_UNKNOWN _) => .ok (some entry.decisionId, none)
      | .error error => .error error
      | .ok trip => .ok (some entry.decisionId, some trip)

/-- The links of the row, and the ENTER that the baseline is linked to. -/
def simulatedLinks (F : Facts) (req : SimulatedRequest) (e : Experiment) (input : SimulatedInput) :
    Except IngestError (Option DecisionFact × Option String × Option String) := do
  if req.baselineId = MATCHED_ENTRY ∧ req.incompleteReason.isSome then
    return (none, ← incompleteMatchedLinks F req e input)
  else
    let linked ← match req.linkedDecisionId with
      | none => pure none
      | some decisionId => some <$> F.decisionLink decisionId e req.conid true
    if req.baselineId = MATCHED_ENTRY then
      match linked with
      | none => throw .raised
      | some entry => return (linked, req.linkedDecisionId, some (← verifiedTrip F req e input entry))
    else return (linked, req.linkedDecisionId, req.linkedRoundTripId)

/-- The size of the row, with its source, its text and the reason it is incomplete. -/
def simulatedSize (req : SimulatedRequest) (input : SimulatedInput) (linked : Option DecisionFact) (known : Bool) :
    Option Nat × Option String × Option String × Option String :=
  if req.incompleteReason = none ∧ traderSized req.baselineId = true ∧ known = false then
    match linked.bind DecisionFact.entryQuantity with
    | some quantity => (some quantity, some "linked_entry", some input.linkedEnter, none)
    | none =>
      match input.sized.quantity with
      | some quantity => (some quantity, some "trader_sizing", some input.sized.sizing, none)
      | none =>
        (req.quantity, req.quantity.map fun _ => "client", some input.sized.sizing, input.sized.incompleteReason)
  else (req.quantity, req.quantity.map fun _ => "client", none, req.incompleteReason)

def simulatedAllowed (F : Facts) (req : SimulatedRequest) (e : Experiment) : Except IngestError Unit :=
  match cohortOf req.baselineId with
  | none => .error (.refused .UNKNOWN_BASELINE false)
  | some cohort =>
    if req.cohort ≠ cohort then .error (.refused .COHORT_NOT_ALLOWED false)
    else do
      e.inside req.decidedAt .DECIDED_OUTSIDE_EXPERIMENT true
      if req.baselineId = NO_TRADE ∨
          (F.resolve req.decidedAt).any (fun w => w.1 ≤ req.decidedAt ∧ req.decidedAt < w.2) = true then return ()
      else throw (.refused .DECIDED_OUTSIDE_ENTRY_WINDOW false)

/-- `_outcome`, of a baseline that nothing has to be computed for. -/
def simulatedOutcome (F : Facts) (req : SimulatedRequest) (now : Int) (incompleteReason : Option String) : Option OutcomeRow :=
  let outcome := fun (status : String) (reason : Option String) (pnlUsd : Option ℚ) (trades : Option Nat) =>
    some ⟨req.recordId, req.experimentId, req.baselineId, req.cohort, F.sessionDateEt req.decidedAt, status, reason, pnlUsd,
      trades, now⟩
  if req.baselineId = NO_TRADE then outcome "COMPLETE" none (some 0) (some 0)
  else if incompleteReason.isSome then outcome "INCOMPLETE" incompleteReason none none
  else none

/-- `_simulated`, up to the transaction: the row and its outcome. -/
def simulatedRows (F : Facts) (req : SimulatedRequest) (input : SimulatedInput) (known : Bool) :
    Except IngestError (SimulatedRow × Option OutcomeRow) := do
  let experiment ← F.experiment req.experimentId
  simulatedAllowed F req experiment
  let (linked, linkedDecisionId, linkedRoundTripId) ← simulatedLinks F req experiment input
  let (quantity, quantitySource, sizing, incompleteReason) := simulatedSize req input linked known
  return (
    { { req with linkedDecisionId := linkedDecisionId, linkedRoundTripId := linkedRoundTripId, quantity := quantity } with
      sessionDate := F.sessionDateEt req.decidedAt
      quantitySource := quantitySource
      sizing := sizing
      bodyDigest := F.digests.simulated req
      recordedAt := input.now },
    simulatedOutcome F req input.now incompleteReason)

def opportunityCheck (req : SimulatedRequest) : ScoreboardTx Unit := do
  Tx.refuseIf (∃ r ∈ (← get).decisions.rows, r.experimentId = req.experimentId ∧ r.baselineId = req.baselineId ∧
    r.opportunityId = req.opportunityId) .conflict

def simulatedTx (D : Digests) (req : SimulatedRequest) (row : SimulatedRow) (outcome : Option OutcomeRow) :
    ScoreboardTx IngestStatus :=
  ingestSealedMany (fun db => (db.decisions.get? req.recordId).map SimulatedRow.bodyDigest) (D.simulated req) do
    opportunityCheck req
    insertDecision D row
    match outcome with
    | none => return ()
    | some outcome => insertOutcome D outcome

def recordSimulated (F : Facts) (req : SimulatedRequest) (input : SimulatedInput) (commit : Option IngestError)
    (db : ScoreboardDb) : Option Reply × ScoreboardDb :=
  match simulatedRows F req input (db.decisions.get? req.recordId).isSome with
  | .error e => guarded req.recordId (.error e) commit (throw .raised) db
  | .ok (row, outcome) => guarded req.recordId (.ok ()) commit (simulatedTx F.digests req row outcome) db

end MmrTrader.Scoreboard
