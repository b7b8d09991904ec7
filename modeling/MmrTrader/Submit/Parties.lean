import MmrTrader.Lib.Table
import MmrTrader.Rpc.Envelope

/-!
# Rows of ai submissions

`trader/ai/submitter.py`: the row of a decision, what `insert_in_tx` stores and when a row may be sent.

* `insertInTx` — the exact body and id, once; `gate` — to send, to wait or to abandon.
* `CallResult` — how a call of the trader can end; `EPOCH_REFUSALS`, `BROKEN_REQUEST`, … — the refusals.

SHA-256 and `isoformat` are parameters; instants are microseconds in UTC.
-/

set_option autoImplicit false

namespace MmrTrader.Submit

open Lib Lib.CanonicalJson Rpc

/-! ## Rows -/

inductive Action where
  | ENTER
  | CLOSE
  | PARTIAL_CLOSE
  deriving DecidableEq

def Action.text : Action → String
  | .ENTER => "ENTER"
  | .CLOSE => "CLOSE"
  | .PARTIAL_CLOSE => "PARTIAL_CLOSE"

structure ProposedDecision (F : Type) where
  actionKey : String
  action : Action
  conid : Int
  side : String
  decider : String
  evidenceDigest : String
  deploymentDigest : Option String
  policyRevision : Option Int
  stopPrice : Option F
  targetPrice : Option F
  quantity : Option Int
  deploymentVersion : Option String
  sourceDigest : Option String

inductive SubmissionState where
  | PENDING
  | SENDING
  | UNKNOWN
  | ACCEPTED
  | FINAL
  | ABANDONED
  | NOT_ADMITTED
  | FAILED
  deriving DecidableEq

def SOURCE_KINDS : List String := ["entry_signal", "exit_signal", "entry_cycle", "position_cycle"]

structure Submission where
  decisionId : String
  commandId : String
  sourceKind : String
  sourceId : String
  actionKey : String
  action : Action
  bodyJson : String
  bodySha256 : String
  expiresAt : Int
  createdEpoch : Int
  state : SubmissionState
  attempts : Nat
  lastEpoch : Option Int
  lastSentAt : Option Int
  nextTryAt : Int
  receiptState : Option String
  closeRootId : Option String
  errorCode : Option String
  deriving DecidableEq

abbrev Submissions := Table Submission.decisionId

/-! ## Persistence -/

structure Config where
  sha256 : String → String
  isoformat : Int → String
  /-- `not_found_settle_seconds`. -/
  settle : Int

def seconds (n : Int) : Int := 1000000 * n

def SEND_MARGIN : Int := seconds 5

/-- The trader's `MAX_EXPIRY_AHEAD`. -/
def MAX_TTL : Int := seconds (15 * 60)

section
variable {F : Type}

def jsonText (text : Option String) : Json (PyNumber F) :=
  match text with
  | none => .null
  | some text => .str text

def jsonFloat (value : Option F) : Json (PyNumber F) :=
  match value with
  | none => .null
  | some value => .num (.float value)

def jsonInt (value : Option Int) : Json (PyNumber F) :=
  match value with
  | none => .null
  | some value => .num (.int value)

def deriveDecisionId (C : Config) (sourceId actionKey : String) : String :=
  "dec-" ++ String.ofList ((C.sha256 (sourceId ++ "|" ++ actionKey)).toList.take 32)

def commandIdFor (decisionId : String) : String := "aip-" ++ decisionId

def buildBody (C : Config) (decision : ProposedDecision F) (decisionId : String) (expiresAt : Int) : Json (PyNumber F) :=
  .object (fields
    [("decision_id", .str decisionId), ("deployment_digest", jsonText decision.deploymentDigest),
      ("decider", .str decision.decider), ("action", .str decision.action.text), ("conid", jsonInt (some decision.conid)),
      ("side", .str decision.side), ("stop_price", jsonFloat decision.stopPrice),
      ("target_price", jsonFloat decision.targetPrice), ("quantity", jsonInt decision.quantity),
      ("policy_revision", jsonInt decision.policyRevision), ("evidence_digest", .str decision.evidenceDigest),
      ("deployment_version", jsonText decision.deploymentVersion), ("source_digest", jsonText decision.sourceDigest),
      ("expires_at", .str (C.isoformat expiresAt))])

variable [PyFloat F]

/-- The row that `insert_in_tx` writes. -/
def newSubmission (C : Config) (sourceKind sourceId : String) (decision : ProposedDecision F) (expiresAt epoch now : Int) :
    Submission :=
  let decisionId := deriveDecisionId C sourceId decision.actionKey
  let bodyJson := canonical (buildBody C decision decisionId expiresAt)
  { decisionId := decisionId
    commandId := commandIdFor decisionId
    sourceKind := sourceKind
    sourceId := sourceId
    actionKey := decision.actionKey
    action := decision.action
    bodyJson := bodyJson
    bodySha256 := C.sha256 bodyJson
    expiresAt := expiresAt
    createdEpoch := epoch
    state := .PENDING
    attempts := 0
    lastEpoch := none
    lastSentAt := none
    nextTryAt := now
    receiptState := none
    closeRootId := none
    errorCode := none }

/-- `insert_in_tx`; `none` raises. -/
def insertInTx (C : Config) (rows : Submissions) (sourceKind sourceId : String) (decision : ProposedDecision F)
    (expiresAt epoch now : Int) : Option Submissions :=
  if sourceKind ∉ SOURCE_KINDS ∨ epoch < 1 ∨ ¬ (now < expiresAt ∧ expiresAt ≤ now + MAX_TTL) then none
  else
    let row := newSubmission C sourceKind sourceId decision expiresAt epoch now
    match rows.get? row.decisionId with
    | some existing => if existing.bodySha256 ≠ row.bodySha256 then none else some rows
    | none => rows.insert? row

end

/-- `UPDATE ai_submissions SET … WHERE decision_id = …`. -/
def setRow (rows : Submissions) (decisionId : String) (f : Submission → Submission)
    (hf : ∀ r, (f r).decisionId = r.decisionId) : Submissions :=
  rows.updateWhere (fun r => r.decisionId = decisionId) f hf

/-! ## The gate -/

inductive ExperimentState where
  | ARMED
  | STOPPED
  | other (name : String)
  deriving DecidableEq

inductive Verdict where
  | send
  | wait
  | abandon (code : String)
  deriving DecidableEq

/-- `_gate`; `entryWindowOpen` is the answer of the session calendar at `now`. -/
def gate (row : Submission) (now : Int) (experiment : Option ExperimentState) (entryWindowOpen resend : Bool) : Verdict :=
  let unsent (code : String) : Verdict := if resend then .wait else .abandon code
  if row.expiresAt - SEND_MARGIN ≤ now then unsent "EXPIRED_UNSENT"
  else if row.action = .ENTER then
    if entryWindowOpen = false then unsent "OUTSIDE_ENTRY_WINDOW"
    else if experiment = some .ARMED then .send
    else .wait
  else if experiment = some .STOPPED then unsent "EXPERIMENT_STOPPED"
  else if experiment ≠ none then .send
  else .wait

/-! ## Results of a call -/

/-- A receipt of the trader; a reply without a state is malformed. -/
structure Receipt where
  state : Option String
  errorCode : Option String
  deriving DecidableEq

inductive CallResult where
  | notSent (code : String)
  | outcomeUnknown (code : String)
  | refused (code : String)
  | reply (receipt : Receipt)
  deriving DecidableEq

def TRADER_FINAL_STATES : List String := ["RESOLVED", "REJECTED"]

def EPOCH_REFUSALS : List String := ["CONTROLLER_EPOCH_MISSING", "CONTROLLER_EPOCH_STALE"]

def REFUSED_BEFORE_ANY_HANDLER : List String := ["AUTHENTICATION_ERROR", "REPLAY_ERROR"]

def BROKEN_REQUEST : List String := ["VALIDATION_ERROR", "PERMISSION_DENIED", "METHOD_NOT_ALLOWED"]

def backoff (attempts : Nat) : Int := seconds (min (Nat.pow 2 attempts) 30 : Nat)

/-- `_refused`: what the row becomes. -/
def refused (row : Submission) (code : String) (notSentState : SubmissionState) (now : Int) (r : Submission) : Submission :=
  if code ∈ EPOCH_REFUSALS then { r with state := notSentState, errorCode := some code }
  else if code ∈ REFUSED_BEFORE_ANY_HANDLER then
    { r with state := notSentState, errorCode := some code, nextTryAt := now + backoff (row.attempts + 1) }
  else if code ∈ BROKEN_REQUEST then
    { r with state := if notSentState = .UNKNOWN then .UNKNOWN else .FAILED, errorCode := some code }
  else { r with state := .UNKNOWN, errorCode := some code }

/-- `_apply_receipt`: what the row becomes. -/
def applyReceipt (receipt : Receipt) (closeRootId : Option String) (r : Submission) : Submission :=
  match receipt.state with
  | none => { r with state := .UNKNOWN, errorCode := some "RECEIPT_MALFORMED" }
  | some state =>
    { r with
      state := if state ∈ TRADER_FINAL_STATES then .FINAL else .ACCEPTED
      receiptState := some state
      errorCode := receipt.errorCode
      closeRootId := closeRootId }

/-- The end of `_try_send`: what the row becomes; `now` is when the send began. -/
def settleSend (row : Submission) (resend : Bool) (now : Int) (result : CallResult) (r : Submission) : Submission :=
  let notSentState := if resend then SubmissionState.UNKNOWN else .PENDING
  match result with
  | .notSent code =>
    { r with state := notSentState, errorCode := some code, nextTryAt := now + backoff (row.attempts + 1) }
  | .outcomeUnknown code => { r with state := .UNKNOWN, errorCode := some code }
  | .refused code => refused row code notSentState now r
  | .reply receipt => applyReceipt receipt none r

theorem refused_decisionId (row : Submission) (code : String) (notSentState : SubmissionState) (now : Int)
    (r : Submission) : (refused row code notSentState now r).decisionId = r.decisionId := by
  unfold refused
  split_ifs <;> rfl

theorem applyReceipt_decisionId (receipt : Receipt) (closeRootId : Option String) (r : Submission) :
    (applyReceipt receipt closeRootId r).decisionId = r.decisionId := by
  unfold applyReceipt
  split <;> rfl

theorem settleSend_decisionId (row : Submission) (resend : Bool) (now : Int) (result : CallResult) (r : Submission) :
    (settleSend row resend now result r).decisionId = r.decisionId := by
  unfold settleSend
  cases result with
  | notSent code => rfl
  | outcomeUnknown code => rfl
  | refused code => exact refused_decisionId row code _ now r
  | reply receipt => exact applyReceipt_decisionId receipt none r

end MmrTrader.Submit

/-!
## The controller and the trader

The submitter of `trader/ai/submitter.py`, the trader, and the messages between them.

* `Request`, `LedgerRow` — what leaves the controller and what the trader commits.
* `Phase` — where the submitter stands: it holds one lock, so one send or reconcile step at a time.
* `step` — its steps, each ending with a committed write, an await or a call; a crash anywhere; the trader handling a
  request, refusing it or never seeing it; the reading of a decision and its late answer.

A clock reading and the write that uses it are one step.  Of the trader: it takes a request within `SKEW` of its signing
and before it expires, keeps one row for each command, and gives a refusal made before any handler only then; a request
is signed within `SIGN_WITHIN` of the row's `last_sent_at`.
-/

namespace MmrTrader.Submit

open Lib Lib.CanonicalJson Rpc

/-- The allowed difference between a request's signing time and the trader's clock. -/
def SKEW : Int := seconds 30

def SIGN_WITHIN : Int := seconds 60

/-! ## Messages -/

structure Request where
  id : Nat
  decisionId : String
  bodyJson : String
  epoch : Int
  signedAt : Int
  expiresAt : Int
  deriving DecidableEq

/-- A row of the trader's command ledger. -/
structure LedgerRow where
  decisionId : String
  bodyJson : String
  acceptedAt : Int
  receipt : Receipt
  deriving DecidableEq

/-- What the trader answers to a request. -/
inductive Answer where
  | admitted (receipt : Receipt)
  /-- A refusal before any handler. -/
  | refusedBefore (code : String)
  /-- Any other refusal: the handler may have started. -/
  | failed (code : String)
  deriving DecidableEq

def Answer.result : Answer → CallResult
  | .admitted receipt => .reply receipt
  | .refusedBefore code => .refused code
  | .failed code => .refused code

def BEFORE_ANY_HANDLER : List String := EPOCH_REFUSALS ++ REFUSED_BEFORE_ANY_HANDLER ++ BROKEN_REQUEST

/-- How the trader takes a request. -/
inductive Handling where
  /-- It commits a row, or finds the one of the same command, and answers its receipt. -/
  | admission (receipt : Receipt)
  | refuse (code : String)
  /-- It fails with another code, after the row was committed or before. -/
  | fail (code : String) (started : Bool)
  deriving DecidableEq

/-! ## The submitter -/

inductive Job where
  | send
  | reconcile
  deriving DecidableEq

inductive Phase where
  | idle
  /-- Between two rows of a pass. -/
  | loop (job : Job) (rest : List Submission)
  /-- SENDING is committed; nothing has left. -/
  | calling (row : Submission) (sentAt : Int) (epoch : Int) (job : Job) (rest : List Submission)
  | waiting (row : Submission) (sentAt : Int) (request : Nat) (job : Job) (rest : List Submission)
  /-- `get_ai_paper_decision` has been called. -/
  | asking (row : Submission) (rest : List Submission)
  /-- The trader has read its rows at `readAt`; the answer is under way. -/
  | viewed (row : Submission) (found : Option (Receipt × Option String)) (readAt : Int) (rest : List Submission)
  deriving DecidableEq

structure World where
  now : Int
  rows : Submissions
  phase : Phase
  held : Option Int
  /-- Every request that ever left. -/
  sent : List Request
  flight : List Request
  answers : Nat → Option Answer
  ledger : List LedgerRow

inductive Act (F : Type) where
  | tick (micros : Nat)
  | hold (epoch : Option Int)
  | insert (sourceKind sourceId : String) (decision : ProposedDecision F) (expiresAt epoch : Int)
  | recover
  /-- The process dies. -/
  | crash
  | sendDue
  | reconcileOnce
  /-- The next row of the pass. -/
  | next (experiment : Option ExperimentState) (entryWindowOpen : Bool)
  /-- The request is signed and leaves. -/
  | sign
  /-- The call ends; `some` is a failure on this side: not sent, or an unknown outcome. -/
  | result (failure : Option CallResult)
  | handle (request : Nat) (handling : Handling)
  | lose (request : Nat)
  /-- The trader reads its rows for `get_ai_paper_decision`. -/
  | read (closeRootId : Option String)
  /-- The answer arrives. -/
  | view (experiment : Option ExperimentState) (entryWindowOpen : Bool)
  /-- The reading fails: a refusal, or the trader is away. -/
  | viewFails (result : CallResult)

namespace World

def start (now : Int) : World := ⟨now, Table.empty, .idle, none, [], [], fun _ => none, []⟩

/-- `_set`, and on with the pass. -/
def settle (w : World) (decisionId : String) (f : Submission → Submission) (hf : ∀ r, (f r).decisionId = r.decisionId)
    (phase : Phase) : World :=
  { w with rows := setRow w.rows decisionId f hf, phase := phase }

/-- `_try_send`, up to the call. -/
def trySend (w : World) (row : Submission) (experiment : Option ExperimentState) (entryWindowOpen : Bool) (job : Job)
    (rest : List Submission) : World :=
  match gate row w.now experiment entryWindowOpen (decide (job = .reconcile)) with
  | .wait => { w with phase := .loop job rest }
  | .abandon code =>
    w.settle row.decisionId (fun r => { r with state := .ABANDONED, errorCode := some code }) (fun _ => rfl)
      (.loop job rest)
  | .send =>
    match w.held with
    | none => { w with phase := .loop job rest }
    | some epoch =>
      w.settle row.decisionId
        (fun r => { r with
          state := .SENDING
          attempts := row.attempts + 1
          lastEpoch := some epoch
          lastSentAt := some w.now })
        (fun _ => rfl) (.calling row w.now epoch job rest)

/-- `on_stale` for the refusals of the epoch. -/
def onStale (w : World) (code : Option String) : World :=
  if code.any fun c => EPOCH_REFUSALS.contains c then { w with held := none } else w

def recoverRows (rows : Submissions) : Submissions :=
  rows.updateWhere (fun r => r.state = .SENDING)
    (fun r => { r with state := .UNKNOWN, errorCode := some "PROCESS_RESTARTED" }) (fun _ => rfl)

def staleCode : CallResult → Option String
  | .refused code => some code
  | .reply receipt => receipt.errorCode
  | _ => none

def endSend (w : World) (row : Submission) (sentAt : Int) (job : Job) (rest : List Submission) (result : CallResult) :
    World :=
  (w.settle row.decisionId (settleSend row (decide (job = .reconcile)) sentAt result)
    (settleSend_decisionId row _ sentAt result) (.loop job rest)).onStale (staleCode result)

def unknownNotFound (C : Config) (w : World) (row : Submission) (experiment : Option ExperimentState)
    (entryWindowOpen : Bool) (rest : List Submission) : World :=
  if row.lastSentAt.any fun sent => w.now < sent + C.settle then { w with phase := .loop .reconcile rest }
  else if w.now < row.expiresAt - SEND_MARGIN then w.trySend row experiment entryWindowOpen .reconcile rest
  else
    w.settle row.decisionId
      (fun r => { r with state := .NOT_ADMITTED, errorCode := some "NOT_FOUND_AFTER_EXPIRY" }) (fun _ => rfl)
      (.loop .reconcile rest)

/-- The answer of `get_ai_paper_decision` is there. -/
def takeView (C : Config) (w : World) (row : Submission) (found : Option (Receipt × Option String))
    (experiment : Option ExperimentState) (entryWindowOpen : Bool) (rest : List Submission) : World :=
  match found with
  | some (receipt, closeRootId) =>
    (w.settle row.decisionId (applyReceipt receipt closeRootId) (applyReceipt_decisionId receipt closeRootId)
      (.loop .reconcile rest)).onStale receipt.errorCode
  | none =>
    if row.state = .UNKNOWN then w.unknownNotFound C row experiment entryWindowOpen rest
    else { w with phase := .loop .reconcile rest }

/-! ## The trader -/

/-- The trader still takes the request. -/
def Admissible (w : World) (q : Request) : Prop := w.now ≤ q.signedAt + SKEW ∧ w.now < q.expiresAt

instance (w : World) (q : Request) : Decidable (w.Admissible q) := inferInstanceAs (Decidable (_ ∧ _))

/-- One row for each command. -/
def admissionRows (w : World) (q : Request) (receipt : Receipt) : List LedgerRow :=
  if w.ledger.any fun l => l.decisionId = q.decisionId then w.ledger
  else w.ledger ++ [⟨q.decisionId, q.bodyJson, w.now, receipt⟩]

def answer (w : World) (q : Request) (ledger : List LedgerRow) (a : Answer) : World :=
  { w with
    flight := w.flight.filter fun p => p.id ≠ q.id
    answers := Function.update w.answers q.id (some a)
    ledger := ledger }

def handle (w : World) (q : Request) : Handling → World
  | .admission receipt =>
    if w.Admissible q then
      let stored := ((w.ledger.find? fun l => l.decisionId = q.decisionId).map (·.receipt)).getD receipt
      w.answer q (w.admissionRows q receipt) (.admitted stored)
    else w
  | .refuse code => if code ∈ BEFORE_ANY_HANDLER then w.answer q w.ledger (.refusedBefore code) else w
  | .fail code started =>
    if code ∈ BEFORE_ANY_HANDLER then w
    else if started ∧ w.Admissible q then w.answer q (w.admissionRows q ⟨none, none⟩) (.failed code)
    else w.answer q w.ledger (.failed code)

/-! ## Steps -/

variable {F : Type} [PyFloat F]

def due (w : World) : List Submission := w.rows.rows.filter fun r => decide (r.state = .PENDING) && decide (r.nextTryAt ≤ w.now)

def unsettled (w : World) : List Submission :=
  w.rows.rows.filter fun r => decide (r.state = .UNKNOWN) || decide (r.state = .ACCEPTED)

def step (C : Config) (w : World) : Act F → World
  | .tick micros => { w with now := w.now + micros }
  | .hold epoch => { w with held := epoch }
  | .insert sourceKind sourceId decision expiresAt epoch =>
    match insertInTx C w.rows sourceKind sourceId decision expiresAt epoch w.now with
    | none => w
    | some rows => { w with rows := rows }
  | .recover => { w with rows := recoverRows w.rows }
  | .crash => { w with phase := .idle, held := none }
  | .sendDue =>
    match w.phase with
    | .idle => { w with phase := .loop .send w.due }
    | _ => w
  | .reconcileOnce =>
    match w.phase with
    | .idle => { w with phase := .loop .reconcile w.unsettled }
    | _ => w
  | .next experiment entryWindowOpen =>
    match w.phase with
    | .loop _ [] => { w with phase := .idle }
    | .loop .send (row :: rest) => w.trySend row experiment entryWindowOpen .send rest
    | .loop .reconcile (row :: rest) =>
      if w.held = none then { w with phase := .idle } else { w with phase := .asking row rest }
    | _ => w
  | .sign =>
    match w.phase with
    | .calling row sentAt epoch job rest =>
      if w.now ≤ sentAt + SIGN_WITHIN then
        let q : Request := ⟨w.sent.length, row.decisionId, row.bodyJson, epoch, w.now, row.expiresAt⟩
        { w with sent := w.sent ++ [q], flight := w.flight ++ [q], phase := .waiting row sentAt q.id job rest }
      else w
    | _ => w
  | .result failure =>
    match w.phase, failure with
    | .calling row sentAt _ job rest, some (.notSent code) => w.endSend row sentAt job rest (.notSent code)
    | .calling row sentAt _ job rest, some (.outcomeUnknown code) => w.endSend row sentAt job rest (.outcomeUnknown code)
    | .waiting row sentAt _ job rest, some (.outcomeUnknown code) =>
      w.endSend row sentAt job rest (.outcomeUnknown code)
    | .waiting row sentAt request job rest, none =>
      match w.answers request with
      | some a => w.endSend row sentAt job rest a.result
      | none => w
    | _, _ => w
  | .handle request handling =>
    match w.flight.find? fun q => q.id = request with
    | some q => w.handle q handling
    | none => w
  | .lose request => { w with flight := w.flight.filter fun p => p.id ≠ request }
  | .read closeRootId =>
    match w.phase with
    | .asking row rest =>
      let found := (w.ledger.find? fun l => l.decisionId = row.decisionId).map fun l => (l.receipt, closeRootId)
      { w with phase := .viewed row found w.now rest }
    | _ => w
  | .view experiment entryWindowOpen =>
    match w.phase with
    | .viewed row found _ rest => w.takeView C row found experiment entryWindowOpen rest
    | _ => w
  | .viewFails result =>
    let rest? : Option (List Submission) := match w.phase with
      | .asking _ rest => some rest
      | .viewed _ _ _ rest => some rest
      | _ => none
    match rest?, result with
    | some rest, .refused code =>
      if code ∈ EPOCH_REFUSALS then { w with phase := .idle, held := none }
      else { w with phase := .loop .reconcile rest }
    | some _, .notSent _ => { w with phase := .idle }
    | some _, .outcomeUnknown _ => { w with phase := .idle }
    | _, _ => w

end World

end MmrTrader.Submit
