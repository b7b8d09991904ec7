import MmrTrader.Evaluation.Request
import MmrTrader.Lib.Table
import MmrTrader.Lib.Transaction

/-!
# Evaluation claims and judgments

Executable model of `EvaluationClaims` (`trader/automation/evaluation_claims.py`) and `BacktestJudgments.record`
(`trader/automation/backtest_judgments.py`).

* `JudgeDb` — the tables `evaluation_claims`, `backtest_judgments` and `renewal_judgments`, with their keys.
* `claimInTx`, `update`, `insertInTx` — the three transactions.
* `existingReply`, `checkAgainstCase` — what `record` does before its transaction.

The store of authored strategies, the XNYS sessions, SHA-256 and the ISO texts are parameters.  What a transaction body
raises is a `Fault`; the texts of the refusals are left out.
-/

set_option autoImplicit false

namespace MmrTrader.Evaluation

open Lib Lib.CanonicalJson Rpc

variable {F A : Type}

/-! ## Tables -/

inductive ClaimState where
  | QUEUED
  | RUNNING
  | DONE
  | FAILED
  deriving DecidableEq

def ClaimState.rank : ClaimState → Nat
  | .QUEUED => 0
  | .RUNNING => 1
  | .DONE => 2
  | .FAILED => 2

/-- A row; `body_json` is the canonical text of the body. -/
structure EvaluationClaim (F : Type) where
  requestId : String
  body : EvaluationRequestBody F
  strategyKey : String
  nyDay : Int
  state : ClaimState
  principal : String
  claimedAt : Int
  updatedAt : Int

structure Binding (F : Type) where
  caseDigest : String
  kind : JudgmentKind
  stage : String
  requestId : Option String
  strategyKey : String
  strategyPath : String
  className : String
  strategyFileHash : String
  params : Option (Dict F)
  conids : List Int
  barSize : String
  familyId : Option String
  selectedTrialId : Option String
  artifactId : Option String
  eligibilityDecisionDigest : Option String
  priorDeploymentVersion : Option String

structure BacktestJudgment (F : Type) where
  judgmentId : String
  caseDigest : String
  requestId : Option String
  kind : JudgmentKind
  verdict : Verdict
  strategyKey : String
  body : JsonValue F
  binding : Binding F
  cooldownUntilSession : Option Int
  recordedAt : Int

structure JudgmentRow (F : Type) where
  judgment : BacktestJudgment F
  bodyDigest : String
  recordDigest : String

def JudgmentRow.judgmentId (row : JudgmentRow F) : String := row.judgment.judgmentId

structure RenewalRow where
  priorVersion : String
  judgmentId : String
  recordedAt : Int
  deriving DecidableEq

/-- `A` is what the store of authored strategies keeps in the same database. -/
structure JudgeDb (F A : Type) where
  claims : Table (EvaluationClaim.requestId (F := F))
  judgments : Table (JudgmentRow.judgmentId (F := F))
  renewals : Table RenewalRow.priorVersion
  authored : A

def JudgeDb.empty (authored : A) : JudgeDb F A := ⟨Table.empty, Table.empty, Table.empty, authored⟩

/-! ## Ports -/

/-- `ClaimRefused` and `JudgmentRefused`, or any other exception. -/
inductive Fault where
  | refused (code : String) (retryable : Bool)
  | raised (what : String)
  deriving DecidableEq

structure BacktestJudgeConfig where
  evaluationsPerDay : Nat
  familyCooldownSessions : Nat
  maxCohortPoints : Nat
  strategyAllowlist : List String
  deriving DecidableEq

def BacktestJudgeConfig.allows (config : BacktestJudgeConfig) (strategyKey : String) : Bool :=
  config.strategyAllowlist.contains strategyKey

/-- The two calls of `AuthoredStrategyStore` inside the transactions; they write tables of its own only. -/
structure AuthoredStrategyStore (F A : Type) where
  claimInTx : String → EvaluationRequestBody F → Int → A → Except Fault A
  afterJudgmentInTx : BacktestJudgment F → Int → A → Except Fault A

structure Env (F A : Type) where
  config : BacktestJudgeConfig
  newYork : Zone
  sha256 : String → String
  /-- `date.isoformat`. -/
  isoDay : Int → String
  /-- `isoformat` of an instant in UTC. -/
  isoTime : Int → String
  /-- The XNYS sessions of a range of days, in order; `none` outside the calendar. -/
  sessionsInRange : Int → Int → Option (List Int)
  /-- The digest of the paper-v1 rules. -/
  paperV1 : String
  authored : Option (AuthoredStrategyStore F A)

abbrev JudgeTx (F A : Type) := EStateM Fault (JudgeDb F A)

/-- `ClaimRefused` and `JudgmentRefused`, not retryable. -/
def refusal (code : String) : Fault := .refused code false

/-! ## Claims -/

inductive ClaimStatus where
  | ACCEPTED
  | EXISTING
  | UPDATED
  | UNCHANGED
  deriving DecidableEq

structure ClaimResult (F : Type) where
  status : ClaimStatus
  claim : EvaluationClaim F

def JudgeDb.coolingUntil (db : JudgeDb F A) (strategyKey : String) (today : Int) : Option Int :=
  let rejected := db.judgments.rows.filter fun r =>
    decide (r.judgment.strategyKey = strategyKey) && decide (r.judgment.verdict = .REJECT)
  (rejected.filterMap fun r => r.judgment.cooldownUntilSession).max?.filter fun until_ => today ≤ until_

def JudgeDb.claimedOn (db : JudgeDb F A) (day : Int) : Nat := (db.claims.rows.filter fun c => c.nyDay = day).length

section
variable [PyFloat F] (E : Env F A)

def checkConfig (body : EvaluationRequestBody F) : Except Fault Unit :=
  if isAuthoredKey body.strategyKey ∧ E.authored.isNone then .error (refusal "STRATEGY_NOT_ALLOWED")
  else if ¬ isAuthoredKey body.strategyKey ∧ ¬ E.config.allows body.strategyKey then
    .error (refusal "STRATEGY_NOT_ALLOWED")
  else if E.config.maxCohortPoints < body.cohort.length then .error (refusal "COHORT_TOO_LARGE")
  else .ok ()

def claimAuthored (requestId : String) (body : EvaluationRequestBody F) (now : Int) : JudgeTx F A Unit := do
  let db ← get
  match isAuthoredKey body.strategyKey, E.authored with
  | true, some store =>
    let authored ← Tx.check (store.claimInTx requestId body now db.authored)
    set { db with authored := authored }
  | true, none => throw (.raised "AttributeError")
  | false, _ => pure ()

def insertClaim (claim : EvaluationClaim F) : JudgeTx F A Unit := do
  let db ← get
  match db.claims.insert? claim with
  | none => throw (.raised "ConstraintException")
  | some claims => set { db with claims := claims }

def newClaim (requestId : String) (body : EvaluationRequestBody F) (principal : String) (now : Int) :
    EvaluationClaim F :=
  ⟨requestId, body, body.strategyKey, E.newYork.date now, .QUEUED, principal, now, now⟩

def newClaimInTx (requestId : String) (body : EvaluationRequestBody F) (principal : String) (now : Int) :
    JudgeTx F A (ClaimResult F) := do
  let db ← get
  let day := E.newYork.date now
  Tx.refuseIf (requestId ≠ evaluationRequestId E.sha256 body) (refusal "EVALUATION_REQUEST_ID_MISMATCH")
  Tx.check (checkConfig E body)
  Tx.refuseIf (db.coolingUntil body.strategyKey day ≠ none) (refusal "FAMILY_COOLING_DOWN")
  Tx.refuseIf (E.config.evaluationsPerDay ≤ db.claimedOn day) (refusal "EVALUATION_LIMIT_REACHED")
  claimAuthored E requestId body now
  insertClaim (newClaim E requestId body principal now)
  return ⟨.ACCEPTED, newClaim E requestId body principal now⟩

def claimInTx (requestId : String) (body : EvaluationRequestBody F) (principal : String) (now : Int) :
    JudgeTx F A (ClaimResult F) := do
  let db ← get
  match db.claims.get? requestId with
  | some existing =>
    Tx.refuseIf (canonicalRequestJson existing.body ≠ canonicalRequestJson body) (refusal "EVALUATION_REQUEST_CONFLICT")
    return ⟨.EXISTING, existing⟩
  | none => newClaimInTx E requestId body principal now

end

theorem EvaluationClaim.requestId_moved (state : ClaimState) (now : Int) (c : EvaluationClaim F) :
    ({ c with state := state, updatedAt := now } : EvaluationClaim F).requestId = c.requestId := rfl

def moveClaim (requestId : String) (state : ClaimState) (now : Int) : JudgeTx F A Unit :=
  modify fun db =>
    { db with
      claims := db.claims.updateWhere (fun c => c.requestId = requestId)
        (fun c => { c with state := state, updatedAt := now }) (EvaluationClaim.requestId_moved state now) }

def updateClaimInTx (claim : EvaluationClaim F) (state : ClaimState) (now : Int) : JudgeTx F A (ClaimResult F) := do
  if claim.state = state then return ⟨.UNCHANGED, claim⟩
  Tx.refuseIf (state.rank ≤ claim.state.rank) (refusal "CLAIM_STATE_BACKWARD")
  moveClaim claim.requestId state now
  return ⟨.UPDATED, { claim with state := state, updatedAt := now }⟩

def updateInTx (requestId : String) (state : ClaimState) (now : Int) : JudgeTx F A (ClaimResult F) := do
  let db ← get
  match db.claims.get? requestId with
  | none => throw (refusal "CLAIM_UNKNOWN")
  | some claim => updateClaimInTx claim state now

/-- `update`, the state checked. -/
def update (requestId : String) (state : ClaimState) (now : Int) : JudgeTx F A (ClaimResult F) := do
  Tx.refuseIf (state = .QUEUED) (.raised "ValueError")
  updateInTx requestId state now

/-! ## Judgments -/

/-- `record_backtest_judgment`; `decided_at` is the instant it names. -/
structure JudgmentRequest where
  judgmentId : String
  caseDigest : String
  kind : JudgmentKind
  renewalOfVersion : Option String
  verdict : Verdict
  menu : List Verdict
  jevModel : String
  jevAttemptRef : Option String
  decidedAt : Int
  /-- The eight narrative texts, by their names. -/
  narrative : Option (List (String × String))
  deriving DecidableEq

structure RenewalStatus where
  refusalCode : Option String
  deployBlockCode : Option String
  deriving DecidableEq

inductive JudgmentStatus where
  | RECORDED
  | EXISTING
  deriving DecidableEq

structure Receipt where
  status : JudgmentStatus
  judgmentId : String
  verdict : Verdict
  cooldown : Option Int
  deriving DecidableEq

def JUDGMENT_DOMAIN : String := "mmr.backtest-judgment.v1"

def JUDGMENT_BODY_DOMAIN : String := "mmr.backtest-judgment-body.v1"

def MAX_DECIDED_AHEAD : Int := 5 * 60 * 1000000

def Binding.json (b : Binding F) : JsonValue F :=
  .object (fields
    [("case_digest", .str b.caseDigest), ("kind", .str b.kind.text), ("stage", .str b.stage),
      ("request_id", jsonOptional b.requestId), ("strategy_key", .str b.strategyKey),
      ("strategy_path", .str b.strategyPath), ("class_name", .str b.className),
      ("strategy_file_hash", .str b.strategyFileHash), ("params", paramsJson b.params),
      ("conids", conidsJson b.conids), ("bar_size", .str b.barSize), ("family_id", jsonOptional b.familyId),
      ("selected_trial_id", jsonOptional b.selectedTrialId), ("artifact_id", jsonOptional b.artifactId),
      ("eligibility_decision_digest", jsonOptional b.eligibilityDecisionDigest),
      ("prior_deployment_version", jsonOptional b.priorDeploymentVersion)])

def bindingOf (case : EvaluationCase F) (digest : String) : Binding F where
  caseDigest := digest
  kind := case.subject.kind
  stage := case.subject.stage
  requestId := case.subject.requestId
  strategyKey := case.strategyKey
  strategyPath := (splitEvaluationKey case.strategyKey).1
  className := (splitEvaluationKey case.strategyKey).2
  strategyFileHash := case.strategyFileHash
  params := case.selectedParams
  conids := case.conids
  barSize := case.barSize
  familyId := case.familyId
  selectedTrialId := case.selectedTrialId
  artifactId := case.artifactId
  eligibilityDecisionDigest := case.eligibilityDecisionDigest
  priorDeploymentVersion := case.subject.facts.map (·.priorDeploymentVersion)

section
variable (E : Env F A)

def digestBody (request : JudgmentRequest) : JsonValue F :=
  .object (fields
    [("judgment_id", .str request.judgmentId), ("case_digest", .str request.caseDigest),
      ("kind", .str request.kind.text), ("renewal_of_version", jsonOptional request.renewalOfVersion),
      ("verdict", .str request.verdict.text), ("menu", jsonList (request.menu.map fun v => .str v.text)),
      ("jev_model", .str request.jevModel), ("jev_attempt_ref", jsonOptional request.jevAttemptRef),
      ("decided_at", .str (E.isoTime request.decidedAt)),
      ("narrative", match request.narrative with
        | none => .null
        | some texts => .object (fields (texts.map fun t => (t.1, .str t.2))))])

def isoOrNone (day : Option Int) : Option String := day.map E.isoDay

/-- `to_json` with the digest of the body. -/
def sealedJson (judgment : BacktestJudgment F) (bodyDigest : String) : JsonValue F :=
  .object (fields
    [("judgment_id", .str judgment.judgmentId), ("case_digest", .str judgment.caseDigest),
      ("request_id", jsonOptional judgment.requestId), ("kind", .str judgment.kind.text),
      ("verdict", .str judgment.verdict.text), ("strategy_key", .str judgment.strategyKey), ("body", judgment.body),
      ("binding", judgment.binding.json), ("cooldown_until_session", jsonOptional (isoOrNone E judgment.cooldownUntilSession)),
      ("recorded_at", .str (E.isoTime judgment.recordedAt)), ("body_digest", .str bodyDigest)])

variable [PyFloat F]

def judgmentBodyDigest (request : JudgmentRequest) : String :=
  sha256Digest E.sha256 JUDGMENT_BODY_DOMAIN (digestBody E request)

def recordDigest (judgment : BacktestJudgment F) (bodyDigest : String) : String :=
  "sha256:" ++ sha256Digest E.sha256 JUDGMENT_DOMAIN (sealedJson E judgment bodyDigest)

/-- `_sealed_judgment` and the rest of `_existing_receipt`. -/
def existingReceipt (row : JudgmentRow F) (bodyDigest : String) : Except Fault Receipt :=
  if recordDigest E row.judgment row.bodyDigest ≠ row.recordDigest then .error (refusal "JUDGMENT_TAMPERED")
  else if row.bodyDigest ≠ bodyDigest then .error (refusal "JUDGMENT_CONFLICT")
  else .ok ⟨.EXISTING, row.judgmentId, row.judgment.verdict, row.judgment.cooldownUntilSession⟩

def existingReply (db : JudgeDb F A) (request : JudgmentRequest) : Except Fault (Option Receipt) :=
  match db.judgments.get? request.judgmentId with
  | none => .ok none
  | some row => (existingReceipt E row (judgmentBodyDigest E request)).map some

/-- `_check_renewal`; `status` is what the renewal checks answer. -/
def checkRenewal (request : JudgmentRequest) (case : EvaluationCase F) (status : RenewalStatus) : Except Fault Unit :=
  if request.renewalOfVersion ≠ case.subject.facts.map (·.priorDeploymentVersion) then
    .error (refusal "RENEWAL_VERSION_MISMATCH")
  else
    match status.refusalCode with
    | some code => .error (refusal code)
    | none =>
      if request.verdict = .DEPLOY then
        match status.deployBlockCode with
        | some code => .error (refusal code)
        | none => if renewalForwardComplete case then .ok () else .error (refusal "DEPLOY_NOT_ALLOWED")
      else .ok ()

def checkAgainstCase (request : JudgmentRequest) (case : EvaluationCase F) (now : Int) (status : RenewalStatus) :
    Except Fault Unit :=
  if request.kind ≠ case.subject.kind then .error (refusal "JUDGMENT_KIND_MISMATCH")
  else if now + MAX_DECIDED_AHEAD < request.decidedAt then .error (refusal "DECIDED_IN_FUTURE")
  else if request.menu ≠ offeredMenu E.paperV1 case then .error (refusal "JUDGMENT_MENU_MISMATCH")
  else
    match case.subject.kind with
    | .RENEWAL => checkRenewal request case status
    | .INITIAL =>
      if request.verdict = .DEPLOY ∧ ¬ initialDeployAllowed E.paperV1 case then .error (refusal "DEPLOY_NOT_ALLOWED")
      else .ok ()

def nthSessionAfter (day : Int) (sessions : Nat) : Except Fault Int :=
  if sessions < 1 then .error (.raised "ValueError")
  else
    match E.sessionsInRange (day + 1) (day + (2 * sessions + 14)) with
    | none => .error (refusal "COOLDOWN_CALENDAR_UNAVAILABLE")
    | some found =>
      match found[sessions - 1]? with
      | none => .error (refusal "COOLDOWN_CALENDAR_UNAVAILABLE")
      | some session => .ok session

def cooldownUntil (verdict : Verdict) (now : Int) : Except Fault (Option Int) :=
  if verdict = .REJECT then (nthSessionAfter E (E.newYork.date now) E.config.familyCooldownSessions).map some
  else .ok none

def checkClaim (db : JudgeDb F A) (case : EvaluationCase F) (requestId claimDay : String) (stage : InitialStage)
    (decidedAt : Int) : Except Fault Unit :=
  match db.claims.get? requestId with
  | none => .error (refusal "CASE_CLAIM_UNKNOWN")
  | some claim =>
    if claim.state ≠ .DONE ∧ claim.state ≠ .FAILED then .error (.refused "CASE_CLAIM_NOT_FINISHED" true)
    else if claim.state ≠ (if stage = .FAILED then .FAILED else .DONE) then .error (refusal "CASE_CLAIM_MISMATCH")
    else if claim.strategyKey ≠ case.strategyKey ∨ E.isoDay claim.nyDay ≠ claimDay ∨
        evaluatedText claim.body.cohort claim.body.conids claim.body.barSize ≠
          evaluatedText case.cohort case.conids case.barSize then .error (refusal "CASE_CLAIM_MISMATCH")
    else if decidedAt < claim.claimedAt then .error (refusal "DECIDED_BEFORE_CLAIM")
    else .ok ()

def claimRenewal (prior judgmentId : String) (recordedAt : Int) : JudgeTx F A Unit := do
  let db ← get
  Tx.refuseIf (db.renewals.get? prior ≠ none) (refusal "RENEWAL_ALREADY_JUDGED")
  -- `judgment_id` is UNIQUE
  Tx.refuseIf (db.renewals.rows.any fun r => r.judgmentId == judgmentId) (.raised "ConstraintException")
  match db.renewals.insert? ⟨prior, judgmentId, recordedAt⟩ with
  | none => throw (.raised "ConstraintException")
  | some renewals => set { db with renewals := renewals }

/-- What the kind of the case asks of the tables. -/
def claimSubject (request : JudgmentRequest) (case : EvaluationCase F) (recordedAt : Int) : JudgeTx F A Unit := do
  let db ← get
  match case.subject with
  | .initial requestId claimDay stage =>
    Tx.refuseIf (db.judgments.rows.any fun r => r.judgment.requestId == some requestId) (refusal "JUDGMENT_CONFLICT")
    Tx.check (checkClaim E db case requestId claimDay stage request.decidedAt)
  | .renewal _ facts => claimRenewal facts.priorDeploymentVersion request.judgmentId recordedAt

def insertJudgment (row : JudgmentRow F) : JudgeTx F A Unit := do
  let db ← get
  match db.judgments.insert? row with
  | none => throw (.raised "ConstraintException")
  | some judgments => set { db with judgments := judgments }

/-- `_authored_judged_in_tx`, for an authored key. -/
def authoredJudged (judgment : BacktestJudgment F) (recordedAt : Int) : JudgeTx F A Unit := do
  let db ← get
  match isAuthoredKey judgment.strategyKey, E.authored with
  | true, some store =>
    let authored ← Tx.check (store.afterJudgmentInTx judgment recordedAt db.authored)
    set { db with authored := authored }
  | true, none => throw (refusal "AUTHORED_STRATEGIES_DISABLED")
  | false, _ => pure ()

def judgmentRow (request : JudgmentRequest) (case : EvaluationCase F) (cooldown : Option Int) (recordedAt : Int) :
    JudgmentRow F :=
  let judgment : BacktestJudgment F := ⟨request.judgmentId, request.caseDigest, case.subject.requestId,
    case.subject.kind, request.verdict, case.strategyKey, digestBody E request, bindingOf case request.caseDigest,
    cooldown, recordedAt⟩
  ⟨judgment, judgmentBodyDigest E request, recordDigest E judgment (judgmentBodyDigest E request)⟩

def newJudgmentInTx (request : JudgmentRequest) (case : EvaluationCase F) (recordedAt : Int) :
    JudgeTx F A Receipt := do
  let db ← get
  Tx.refuseIf (db.judgments.rows.any fun r => r.judgment.caseDigest == request.caseDigest) (refusal "JUDGMENT_CONFLICT")
  claimSubject E request case recordedAt
  let cooldown ← Tx.check (cooldownUntil E request.verdict recordedAt)
  let row := judgmentRow E request case cooldown recordedAt
  insertJudgment row
  authoredJudged E row.judgment recordedAt
  return ⟨.RECORDED, request.judgmentId, request.verdict, cooldown⟩

def insertInTx (request : JudgmentRequest) (case : EvaluationCase F) (recordedAt : Int) : JudgeTx F A Receipt := do
  let db ← get
  match db.judgments.get? request.judgmentId with
  | some row => Tx.check (existingReceipt E row (judgmentBodyDigest E request))
  | none => newJudgmentInTx E request case recordedAt

end

end MmrTrader.Evaluation
