import MmrTrader.Ai.Journal
import MmrTrader.Scoreboard.Ingest
import MmrTrader.Submit.Parties

/-!
# The reporting outbox and the trader

Executable model of `ReportingOutbox` (`trader/ai/outbox.py`) and of the trader it reports to.

* `Ids`, `costBody`, `simulatedBody` — what a record is called and says.
* `OutboxRow`, `enqueueSimulatedInTx`, `releaseWaiting` — the rows and how they become due.
* `Pump`, `Delivery` — where a call of `pump_costs` and of `deliver_due` stands.
* `Reporting`, `ReportingAct`, `Reporting.step` — both parties, the requests and the replies between them.

A request may reach the trader late, more than once or never, and so may a reply reach the outbox.
-/

set_option autoImplicit false

namespace MmrTrader.Ai

open Lib Scoreboard

/-! ## Records -/

/-- `trader/ai/ids.py`, without collisions. -/
structure Ids where
  costRecordId : String → String
  attemptRef : String → String
  simulatedRecordId : String → String → String → String
  cost_inj : ∀ a b, costRecordId a = costRecordId b → a = b
  cost_ne_simulated : ∀ a x b o, costRecordId a ≠ simulatedRecordId x b o

/-- A row of `ai_cost_events`, with its number. -/
structure CostEvent extends CostEventRow where
  eventSeq : Nat
  deriving DecidableEq

/-- What the outbox reads of an attempt. -/
structure AttemptStart where
  attemptKey : String
  requestKey : String
  startedAt : Int
  deriving DecidableEq

structure CallContext where
  contextKey : String
  experimentId : String
  servedKind : String
  servedId : String
  deriving DecidableEq

structure SimulatedBaseline where
  baselineId : String
  cohort : String
  opportunityId : String
  decidedAt : Int
  conid : Option Int
  side : Option String
  quantity : Option Nat
  referencePrice : Option ℚ
  stopPrice : Option ℚ
  targetPrice : Option ℚ
  linkedDecisionId : Option String
  linkedRoundTripId : Option String
  deploymentDigest : Option String
  incompleteReason : Option String
  deriving DecidableEq

def costStatus : CostKind → CostStatus
  | .ESTIMATED_UNKNOWN => .estimated
  | .CONFIRMED | .NONE | .CORRECTION => .confirmed

def microsToUsd (micros : Int) : ℚ := micros / 1000000

def costBody (I : Ids) (event : CostEvent) (attempt : AttemptStart) (context : CallContext) : CostRequest where
  recordId := I.costRecordId event.eventId
  experimentId := context.experimentId
  role := event.role
  provider := event.backend
  model := event.model
  attemptId := I.attemptRef event.attemptKey
  inputTokens := event.usage.map Usage.inputTokens
  outputTokens := event.usage.map Usage.outputTokens
  costUsd := some (microsToUsd event.costMicros)
  costStatus := costStatus event.kind
  calledAt := attempt.startedAt
  servedKind := context.servedKind
  servedId := context.servedId
  decisionId := none
  correctsRecordId :=
    if event.kind = .CORRECTION then some (I.costRecordId (event.attemptKey ++ ":" ++ CostKind.ESTIMATED_UNKNOWN.text))
    else none

def simulatedBody (I : Ids) (experimentId : String) (b : SimulatedBaseline) : SimulatedRequest where
  recordId := I.simulatedRecordId experimentId b.baselineId b.opportunityId
  experimentId := experimentId
  baselineId := b.baselineId
  cohort := b.cohort
  opportunityId := b.opportunityId
  conid := b.conid
  side := b.side
  quantity := b.quantity
  referencePrice := b.referencePrice
  stopPrice := b.stopPrice
  targetPrice := b.targetPrice
  decidedAt := b.decidedAt
  linkedDecisionId := b.linkedDecisionId
  linkedRoundTripId := b.linkedRoundTripId
  deploymentDigest := b.deploymentDigest
  incompleteReason := b.incompleteReason

/-! ## Rows -/

inductive OutboxState where
  | WAITING
  | PENDING
  | DELIVERED
  | DEAD
  | DROPPED
  deriving DecidableEq

/-- A body; its constructor is the kind of the row. -/
inductive Body where
  | cost (req : CostRequest)
  | simulated (req : SimulatedRequest)
  /-- A cost event without a call context. -/
  | eventOnly (eventId : String)
  deriving DecidableEq

def Body.recordId? : Body → Option String
  | .cost req => some req.recordId
  | .simulated req => some req.recordId
  | .eventOnly _ => none

def Body.correctsRecordId : Body → Option String
  | .cost req => req.correctsRecordId
  | _ => none

/-- A row of `ai_outbox`, in the order of `created_seq`. -/
structure OutboxRow where
  recordId : String
  sourceRef : String
  attemptKey : Option String
  body : Body
  state : OutboxState
  waitForDecisionId : Option String
  attempts : Nat
  nextTryAt : Int
  lastCode : Option String
  deliveredStatus : Option IngestStatus
  deriving DecidableEq

abbrev OutboxTable := Table OutboxRow.recordId

/-- `INSERT … ON CONFLICT DO NOTHING`. -/
def insertIgnore {R K : Type} {key : R → K} [DecidableEq K] (t : Table key) (row : R) : Table key :=
  (t.insert? row).getD t

def enqueueSimulatedInTx (I : Ids) (experimentId : String) (b : SimulatedBaseline) (waitForDecisionId : Option String)
    (now : Int) (outbox : OutboxTable) : OutboxTable :=
  let body := simulatedBody I experimentId b
  insertIgnore outbox
    ⟨body.recordId, b.baselineId ++ "|" ++ b.opportunityId, none, .simulated body,
      if waitForDecisionId.isSome then .WAITING else .PENDING, waitForDecisionId, 0, now, none, none⟩

inductive Verdict where
  | WAIT
  | DROP
  | LINK
  | UNLINKED
  deriving DecidableEq

def releaseVerdict (ownClose : Bool) (submission : Option (Submit.SubmissionState × Option String)) : Verdict :=
  let neverAdmitted := match submission with
    | none => true
    | some (.ABANDONED, _) | some (.NOT_ADMITTED, _) | some (.FAILED, _) => true
    | some (.FINAL, receipt) => receipt != some "RESOLVED"
    | some _ => false
  match ownClose, neverAdmitted, submission with
  | true, true, _ => .DROP
  | true, false, some (.FINAL, _) => .LINK
  | true, false, _ => .WAIT
  | false, true, _ => .UNLINKED
  | false, false, some (.ACCEPTED, _) | false, false, some (.FINAL, _) => .LINK
  | false, false, _ => .WAIT

/-- What `release_waiting` makes of a waiting row. -/
def OutboxRow.release (row : OutboxRow) (submissions : String → Option (Submit.SubmissionState × Option String)) :
    OutboxRow :=
  match row.body with
  | .simulated req =>
    let ownClose := req.baselineId == MATCHED_ENTRY
    match releaseVerdict ownClose (row.waitForDecisionId.bind submissions) with
    | .WAIT => row
    | .DROP => { row with state := .DROPPED }
    | .LINK =>
      { row with
        body := .simulated (if ownClose then req else { req with linkedDecisionId := row.waitForDecisionId })
        state := .PENDING }
    | .UNLINKED =>
      { row with body := .simulated (if ownClose then req else { req with linkedDecisionId := none }), state := .PENDING }
  | _ => row

theorem OutboxRow.release_recordId (row : OutboxRow)
    (submissions : String → Option (Submit.SubmissionState × Option String)) :
    (row.release submissions).recordId = row.recordId := by
  unfold OutboxRow.release
  split
  · dsimp only
    split <;> rfl
  · rfl

def releaseWaiting (submissions : String → Option (Submit.SubmissionState × Option String)) (outbox : OutboxTable) :
    OutboxTable :=
  outbox.updateWhere (fun r => r.state == .WAITING) (fun r => r.release submissions) fun r => r.release_recordId submissions

/-! ## Calls under way -/

structure PreparedEvent where
  event : CostEvent
  found : Option (AttemptStart × CallContext)

/-- Where a call of `pump_costs` stands. -/
inductive Pump where
  | cursor
  | events (cursor : Nat)
  /-- The attempt of the first event is to be read. -/
  | attempt (done : List PreparedEvent) (event : CostEvent) (rest : List CostEvent)
  /-- Its context is to be read. -/
  | context (done : List PreparedEvent) (event : CostEvent) (attempt : AttemptStart) (rest : List CostEvent)
  | write (done : List PreparedEvent)
  | ended

/-- What `deliver_due` reads of a row. -/
structure Outgoing where
  recordId : String
  body : Body
  attempts : Nat

inductive Mark where
  | delivered (status : IngestStatus)
  | retry (attempts : Nat) (code : String) (nextTryAt : Int)
  | dead (code : String)

def Mark.apply : Mark → OutboxRow → OutboxRow
  | .delivered status, row => { row with state := .DELIVERED, deliveredStatus := some status }
  | .retry attempts code nextTryAt, row =>
    { row with attempts := attempts, lastCode := some code, nextTryAt := nextTryAt }
  | .dead code, row => { row with state := .DEAD, lastCode := some code }

theorem Mark.apply_recordId (m : Mark) (row : OutboxRow) : (m.apply row).recordId = row.recordId := by
  cases m <;> rfl

def markRow (recordId : String) (m : Mark) (outbox : OutboxTable) : OutboxTable :=
  outbox.updateWhere (fun r => r.recordId == recordId) m.apply m.apply_recordId

/-- Where a call of `deliver_due` stands. -/
inductive Delivery where
  | release
  | select
  | rows (todo : List Outgoing)
  | send (row : Outgoing) (rest : List Outgoing)
  | awaiting (row : Outgoing) (rest : List Outgoing)
  /-- The rows left are `none` when the trader is away. -/
  | marking (row : Outgoing) (mark : Mark) (rest : Option (List Outgoing))
  | ended

/-- How a call of the trader ends. -/
inductive Answer where
  /-- `RpcNotSent`, `RpcOutcomeUnknown`. -/
  | away (code : String)
  /-- `RpcRefused`. -/
  | refused (code : String)
  /-- The reply number `k`. -/
  | reply (k : Nat)
  | malformed

def deadCode (code : String) : Bool :=
  code == "VALIDATION_ERROR" || code == "PERMISSION_DENIED" || code == "METHOD_NOT_ALLOWED"

/-- `_retry`; a second has 1000000 microseconds. -/
def retryMark (row : Outgoing) (code : String) (now : Int) : Mark :=
  .retry (row.attempts + 1) code (now + (Nat.min (5 * Nat.pow 2 row.attempts) 300 : Nat) * 1000000)

def replyMark (row : Outgoing) (now : Int) : Reply → Mark
  | .done status _ => .delivered status
  | .REFUSED _ code retryable => if retryable then retryMark row code.text now else .dead code.text

/-! ## Both parties -/

structure Reporting where
  nextSeq : Nat
  events : List CostEvent
  attempts : Table AttemptStart.attemptKey
  contexts : Table CallContext.contextKey
  cursor : Nat
  outbox : OutboxTable
  pumps : List Pump
  deliveries : List Delivery
  trader : ScoreboardDb
  /-- What was sent. -/
  requests : List Body
  replies : List Reply

/-- What a step reads. -/
structure ReportingInput where
  now : Int
  limit : Nat
  submissions : String → Option (Submit.SubmissionState × Option String)
  answer : Answer

inductive ReportingAct where
  /-- The gateway begins an attempt. -/
  | begin (a : AttemptStart)
  /-- `register_context_in_tx`. -/
  | register (c : CallContext)
  /-- The gateway commits a cost event; numbers can be skipped. -/
  | costEvent (e : CostEventRow) (skipped : Nat)
  | enqueueSimulated (experimentId : String) (b : SimulatedBaseline) (waitForDecisionId : Option String) (now : Int)
  | pumpCosts
  | pump (i : Nat) (a : ReportingInput)
  | releaseWaiting (submissions : String → Option (Submit.SubmissionState × Option String))
  | deliverDue
  | deliver (i : Nat) (a : ReportingInput)
  /-- The trader handles the request number `k`. -/
  | handle (k : Nat) (input : SimulatedInput) (commit : Option IngestError)
  /-- The process of the outbox dies. -/
  | crash

namespace Reporting

def init : Reporting := ⟨1, [], Table.empty, Table.empty, 0, Table.empty, [], [], ScoreboardDb.empty, [], []⟩

def contextKeyOf (requestKey : String) : String := String.ofList (requestKey.toList.takeWhile fun c => c != '/')

def costOutboxRow (I : Ids) (p : PreparedEvent) (now : Int) : OutboxRow :=
  let (body, state, code) := match p.found with
    | none => (Body.eventOnly p.event.eventId, OutboxState.DEAD, some "CONTEXT_MISSING")
    | some (attempt, context) => (.cost (costBody I p.event attempt context), .PENDING, none)
  ⟨I.costRecordId p.event.eventId, p.event.eventId, some p.event.attemptKey, body, state, none, 0, now, code, none⟩

/-- The transaction of `pump_costs`, unless `micros_to_usd` raises in it. -/
def writeCosts (I : Ids) (done : List PreparedEvent) (now : Int) (w : Reporting) : Reporting :=
  if done.any (fun p => p.found.isSome && decide (p.event.costMicros < 0)) then w
  else
    { w with
      outbox := done.foldl (fun t p => insertIgnore t (costOutboxRow I p now)) w.outbox
      cursor := (done.getLast?).elim w.cursor fun p => p.event.eventSeq }

/-- The next event, or the transaction. -/
def prepared (w : Reporting) (i : Nat) (done : List PreparedEvent) : List CostEvent → Reporting
  | [] => { w with pumps := w.pumps.set i (.write done) }
  | e :: rest => { w with pumps := w.pumps.set i (.attempt done e rest) }

/-- A call of `pump_costs` goes on. -/
def pump (I : Ids) (w : Reporting) (i : Nat) (a : ReportingInput) : Pump → Reporting
  | .cursor => { w with pumps := w.pumps.set i (.events w.cursor) }
  | .events cursor =>
    match (w.events.filter fun e => cursor < e.eventSeq).take a.limit with
    | [] => { w with pumps := w.pumps.set i .ended }
    | e :: rest => { w with pumps := w.pumps.set i (.attempt [] e rest) }
  | .attempt done e rest =>
    match w.attempts.get? e.attemptKey with
    | none => w.prepared i (done ++ [⟨e, none⟩]) rest
    | some attempt => { w with pumps := w.pumps.set i (.context done e attempt rest) }
  | .context done e attempt rest =>
    w.prepared i (done ++ [⟨e, (w.contexts.get? (contextKeyOf attempt.requestKey)).map fun c => (attempt, c)⟩]) rest
  | .write done => { writeCosts I done a.now w with pumps := w.pumps.set i .ended }
  | .ended => w

def deliveryAt (w : Reporting) (i : Nat) (d : Delivery) : Reporting := { w with deliveries := w.deliveries.set i d }

/-- `_predecessor_delivered`: may the row be sent, is it dead, or must it wait? -/
def predecessor (w : Reporting) (correctsRecordId : Option String) : Option OutboxState :=
  match correctsRecordId with
  | none => some .DELIVERED
  | some id =>
    match w.outbox.get? id with
    | none => some .DELIVERED
    | some row => if row.state = .DEAD ∨ row.state = .DELIVERED then some row.state else none

/-- A call of `deliver_due` goes on. -/
def deliver (w : Reporting) (i : Nat) (a : ReportingInput) : Delivery → Reporting
  | .release => { w with outbox := Ai.releaseWaiting a.submissions w.outbox }.deliveryAt i .select
  | .select =>
    w.deliveryAt i (.rows (((w.outbox.rows.filter fun r => r.state == .PENDING && decide (r.nextTryAt ≤ a.now)).take
      a.limit).map fun r => ⟨r.recordId, r.body, r.attempts⟩))
  | .rows [] => w.deliveryAt i .ended
  | .rows (row :: rest) =>
    match w.predecessor row.body.correctsRecordId with
    | some .DEAD => w.deliveryAt i (.marking row (.dead "CORRECTED_RECORD_DEAD") (some rest))
    | some _ => w.deliveryAt i (.send row rest)
    | none => w.deliveryAt i (.rows rest)
  | .send row rest => { w with requests := w.requests ++ [row.body] }.deliveryAt i (.awaiting row rest)
  | .awaiting row rest =>
    match a.answer with
    | .away code => w.deliveryAt i (.marking row (retryMark row code a.now) none)
    | .refused code =>
      w.deliveryAt i (.marking row (if deadCode code then .dead code else retryMark row code a.now) (some rest))
    | .malformed => w.deliveryAt i (.marking row (.dead "REPLY_MALFORMED") (some rest))
    | .reply k =>
      match w.replies[k]? with
      | none => w
      | some reply =>
        if reply.recordId = row.recordId then w.deliveryAt i (.marking row (replyMark row a.now reply) (some rest)) else w
  | .marking row mark rest =>
    { w with outbox := markRow row.recordId mark w.outbox }.deliveryAt i (rest.elim .ended .rows)
  | .ended => w

def handle (F : Facts) (w : Reporting) (input : SimulatedInput) (commit : Option IngestError) : Body → Reporting
  | .cost req =>
    let r := recordCost F req input.now commit w.trader
    { w with trader := r.2, replies := w.replies ++ r.1.toList }
  | .simulated req =>
    let r := recordSimulated F req input commit w.trader
    { w with trader := r.2, replies := w.replies ++ r.1.toList }
  | .eventOnly _ => w

def step (I : Ids) (F : Facts) (w : Reporting) : ReportingAct → Reporting
  | .begin a => { w with attempts := insertIgnore w.attempts a }
  | .register c => { w with contexts := insertIgnore w.contexts c }
  | .costEvent e skipped =>
    if ∃ x ∈ w.events, x.eventId = e.eventId then w
    else
      { w with
        events := w.events ++ [{ e with eventSeq := w.nextSeq + skipped }]
        nextSeq := w.nextSeq + skipped + 1 }
  | .enqueueSimulated experimentId b waitForDecisionId now =>
    { w with outbox := enqueueSimulatedInTx I experimentId b waitForDecisionId now w.outbox }
  | .pumpCosts => { w with pumps := w.pumps ++ [.cursor] }
  | .pump i a => (w.pumps[i]?).elim w fun p => w.pump I i a p
  | .releaseWaiting submissions => { w with outbox := Ai.releaseWaiting submissions w.outbox }
  | .deliverDue => { w with deliveries := w.deliveries ++ [.release] }
  | .deliver i a => (w.deliveries[i]?).elim w fun d => w.deliver i a d
  | .handle k input commit => (w.requests[k]?).elim w fun body => w.handle F input commit body
  | .crash => { w with pumps := [], deliveries := [] }

def run (I : Ids) (F : Facts) (acts : List ReportingAct) : Reporting := acts.foldl (step I F) init

end Reporting

end MmrTrader.Ai
