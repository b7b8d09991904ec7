import MmrTrader.Lib.Zone
import MmrTrader.Rpc.Envelope

/-!
# Evaluation requests and cases

`trader/research/evaluation_request.py`, `evaluation_case.py` and `strategy_key.py`.

* `EvaluationRequestBody` — a request; its id is the digest of its canonical text.
* `EvaluationCase` — a signed case that passed its validator; what depends on the kind is in `CaseSubject`.
* `offeredMenu` — DEPLOY is offered only to a case that qualifies.
* `loadVerifiedCase` — a case file read by its digest.

SHA-256 is a parameter; a `dict` is a chain of fields; a case file is decoded.
-/

set_option autoImplicit false

namespace MmrTrader.Evaluation

open Lib Lib.CanonicalJson Rpc

variable {F : Type}

/-! ## JSON -/

/-- `dict[str, ParamValue]`, and every other `dict`. -/
abbrev Dict (F : Type) := Node (PyNumber F) .fields

abbrev JsonValue (F : Type) := Json (PyNumber F)

def jsonList (values : List (JsonValue F)) : JsonValue F := .array (items values)

def jsonInt (n : Int) : JsonValue F := .num (.int n)

def jsonOptional (text : Option String) : JsonValue F :=
  match text with
  | none => .null
  | some text => .str text

def sha256Digest [PyFloat F] (sha256 : String → String) (domain : String) (value : JsonValue F) : String :=
  sha256 (domain ++ "\n" ++ canonical value)

/-! ## Strategy keys -/

def isLowerHexDigit (c : Char) : Bool := c.isDigit || ('a' ≤ c && c ≤ 'f')

/-- `[A-Za-z_][A-Za-z0-9_]{0,63}`. -/
def isClassName : List Char → Bool
  | [] => false
  | c :: rest => (c.isAlpha || c = '_') && decide (rest.length ≤ 63) && rest.all fun d => d.isAlphanum || d = '_'

/-- `authored:sha256:<64 hex>:<Class>`. -/
def isAuthoredKey (key : String) : Bool :=
  let text := key.toList
  let digest := (text.drop 16).take 64
  decide (text.take 16 = "authored:sha256:".toList) && decide (digest.length = 64) && digest.all isLowerHexDigit &&
    decide ((text.drop 80).take 1 = [':']) && isClassName (text.drop 81)

/-- `split_evaluation_key`: the path and the class of a valid key. -/
def splitEvaluationKey (key : String) : String × String :=
  if isAuthoredKey key then (String.ofList (key.toList.take 80), String.ofList (key.toList.drop 81))
  else (String.ofList (key.toList.takeWhile (· ≠ ':')), String.ofList ((key.toList.dropWhile (· ≠ ':')).drop 1))

/-! ## Requests -/

structure EvaluationRequestBody (F : Type) where
  strategyKey : String
  cohort : List (Dict F)
  conids : List Int
  barSize : String
  researchDay : String

def cohortJson (cohort : List (Dict F)) : JsonValue F := jsonList (cohort.map .object)

def conidsJson (conids : List Int) : JsonValue F := jsonList (conids.map jsonInt)

def EvaluationRequestBody.modelDump (body : EvaluationRequestBody F) : JsonValue F :=
  .object (fields
    [("strategy_key", .str body.strategyKey), ("cohort", cohortJson body.cohort), ("conids", conidsJson body.conids),
      ("bar_size", .str body.barSize), ("research_day", .str body.researchDay)])

/-- Two bodies with one canonical text. -/
def EvaluationRequestBody.Same (body body' : EvaluationRequestBody F) : Prop :=
  sortKeys body.modelDump = sortKeys body'.modelDump

section
variable [PyFloat F]

def canonicalRequestJson (body : EvaluationRequestBody F) : String := canonical body.modelDump

def EVALUATION_REQUEST_DOMAIN : String := "mmr.research.evaluation-request.v1"

def evaluationRequestId (sha256 : String → String) (body : EvaluationRequestBody F) : String :=
  "sha256:" ++ sha256Digest sha256 EVALUATION_REQUEST_DOMAIN body.modelDump

theorem canonicalRequestJson_eq {body body' : EvaluationRequestBody F} :
    canonicalRequestJson body = canonicalRequestJson body' ↔ body.Same body' := by
  constructor
  · exact canonical_injective
  · intro h
    unfold canonicalRequestJson canonical
    rw [show sortKeys body.modelDump = sortKeys body'.modelDump from h]

/-- `_text([cohort, conids, bar_size])`. -/
def evaluatedText (cohort : List (Dict F)) (conids : List Int) (barSize : String) : String :=
  canonical (jsonList [cohortJson cohort, conidsJson conids, .str barSize])

end

/-! ## Cases -/

inductive JudgmentKind where
  | INITIAL
  | RENEWAL
  deriving DecidableEq

def JudgmentKind.text : JudgmentKind → String
  | .INITIAL => "INITIAL"
  | .RENEWAL => "RENEWAL"

inductive Verdict where
  | DEPLOY
  | SHADOW
  | REJECT
  | NO_VERDICT
  deriving DecidableEq

def Verdict.text : Verdict → String
  | .DEPLOY => "DEPLOY"
  | .SHADOW => "SHADOW"
  | .REJECT => "REJECT"
  | .NO_VERDICT => "NO_VERDICT"

inductive InitialStage where
  | PRE_HOLDOUT_FAILED
  | HOLDOUT_FAILED
  | COMPLETE
  | FAILED
  deriving DecidableEq

inductive RenewalStage where
  | FORWARD_COMPLETE
  | FORWARD_INCOMPLETE
  deriving DecidableEq

structure RenewalFacts where
  priorDeploymentVersion : String
  forwardSessions : Nat
  incompleteSessions : Nat
  deriving DecidableEq

structure RuleOutcome where
  code : String
  passed : Bool
  deriving DecidableEq

/-- What the kind of a valid case decides: only an INITIAL case has a claim, only a RENEWAL case has forward facts. -/
inductive CaseSubject where
  | initial (requestId claimDay : String) (stage : InitialStage)
  | renewal (stage : RenewalStage) (facts : RenewalFacts)
  deriving DecidableEq

structure EvaluationCase (F : Type) where
  subject : CaseSubject
  strategyKey : String
  strategyFileHash : String
  cohort : List (Dict F)
  conids : List Int
  barSize : String
  selectedParams : Option (Dict F)
  familyId : Option String
  selectedTrialId : Option String
  artifactId : Option String
  eligibilityDecisionDigest : Option String
  decisionState : Option String
  rulesetDigest : Option String
  finalRuleResults : List RuleOutcome
  createdAt : String
  evidence : Dict F

namespace CaseSubject

def kind : CaseSubject → JudgmentKind
  | .initial .. => .INITIAL
  | .renewal .. => .RENEWAL

def requestId : CaseSubject → Option String
  | .initial requestId _ _ => some requestId
  | .renewal .. => none

def claimDay : CaseSubject → Option String
  | .initial _ claimDay _ => some claimDay
  | .renewal .. => none

def stage : CaseSubject → String
  | .initial _ _ .PRE_HOLDOUT_FAILED => "PRE_HOLDOUT_FAILED"
  | .initial _ _ .HOLDOUT_FAILED => "HOLDOUT_FAILED"
  | .initial _ _ .COMPLETE => "COMPLETE"
  | .initial _ _ .FAILED => "FAILED"
  | .renewal .FORWARD_COMPLETE _ => "FORWARD_COMPLETE"
  | .renewal .FORWARD_INCOMPLETE _ => "FORWARD_INCOMPLETE"

def facts : CaseSubject → Option RenewalFacts
  | .initial .. => none
  | .renewal _ facts => some facts

/-- `holdout_passed`, as the validator forces it. -/
def holdoutPassed : CaseSubject → Option Bool
  | .initial _ _ .COMPLETE => some true
  | .initial _ _ .HOLDOUT_FAILED => some false
  | _ => none

end CaseSubject

def jsonNat (n : Nat) : JsonValue F := jsonInt n

def paramsJson (params : Option (Dict F)) : JsonValue F :=
  match params with
  | none => .null
  | some params => .object params

def EvaluationCase.modelDump (case : EvaluationCase F) : JsonValue F :=
  .object (fields
    [("schema_version", .str "mmr.research.evaluation-case.v1"), ("kind", .str case.subject.kind.text),
      ("request_id", jsonOptional case.subject.requestId), ("claim_day", jsonOptional case.subject.claimDay),
      ("strategy_key", .str case.strategyKey), ("strategy_file_hash", .str case.strategyFileHash),
      ("cohort", cohortJson case.cohort), ("conids", conidsJson case.conids), ("bar_size", .str case.barSize),
      ("stage", .str case.subject.stage), ("selected_params", paramsJson case.selectedParams),
      ("family_id", jsonOptional case.familyId), ("selected_trial_id", jsonOptional case.selectedTrialId),
      ("artifact_id", jsonOptional case.artifactId),
      ("eligibility_decision_digest", jsonOptional case.eligibilityDecisionDigest),
      ("decision_state", jsonOptional case.decisionState), ("ruleset_digest", jsonOptional case.rulesetDigest),
      ("holdout_passed", match case.subject.holdoutPassed with
        | none => .null
        | some passed => .bool passed),
      ("final_rule_results", jsonList (case.finalRuleResults.map fun r =>
        .object (fields [("code", .str r.code), ("passed", .bool r.passed)]))),
      ("renewal", match case.subject.facts with
        | none => .null
        | some facts => .object (fields
            [("prior_deployment_version", .str facts.priorDeploymentVersion),
              ("forward_sessions", jsonNat facts.forwardSessions),
              ("incomplete_sessions", jsonNat facts.incompleteSessions)])),
      ("created_at", .str case.createdAt), ("evidence", .object case.evidence)])

def CASE_DOMAIN : String := "mmr.research.evaluation-case.v1"

def caseDigest [PyFloat F] (sha256 : String → String) (case : EvaluationCase F) : String :=
  "sha256:" ++ sha256Digest sha256 CASE_DOMAIN case.modelDump

/-! ## Menus -/

def PAPER_V1_CODES : List String :=
  ["min_round_trips", "min_instruments", "expectancy_baseline_positive", "expectancy_stress_1_5x_positive",
    "expectancy_stress_2x_nonneg", "selection_adjusted_confidence", "annualized_sharpe_lower_bound_positive",
    "profit_factor_after_costs", "walk_forward_positive_folds", "month_profit_concentration",
    "instrument_profit_concentration", "holdout_drawdown_within_canary", "parameter_neighborhood_robust",
    "liquidity_capacity_envelope", "deterministic_replay", "holdout_opened_once", "benchmark_relative_drawdown",
    "regime_positive_expectancy_fraction", "regime_loss_tolerance", "regime_transition_stability"]

/-- Rules first; `paperV1` is the digest of the paper-v1 rules. -/
def initialDeployAllowed (paperV1 : String) (case : EvaluationCase F) : Bool :=
  match case.subject with
  | .initial _ _ .COMPLETE =>
    decide (case.decisionState = some "PAPER_ELIGIBLE") && decide (case.rulesetDigest = some paperV1) &&
      decide (case.finalRuleResults.length = PAPER_V1_CODES.length) &&
      (case.finalRuleResults.all fun r => PAPER_V1_CODES.contains r.code) &&
      (PAPER_V1_CODES.all fun code => case.finalRuleResults.any fun r => r.code = code) &&
      case.finalRuleResults.all fun r => r.passed
  | _ => false

def renewalForwardComplete (case : EvaluationCase F) : Bool :=
  match case.subject with
  | .renewal .FORWARD_COMPLETE facts => decide (1 ≤ facts.forwardSessions) && decide (facts.incompleteSessions = 0)
  | _ => false

def FULL_MENU : List Verdict := [.DEPLOY, .SHADOW, .REJECT]

def NO_DEPLOY_MENU : List Verdict := [.SHADOW, .REJECT]

def offeredMenu (paperV1 : String) (case : EvaluationCase F) : List Verdict :=
  let qualifies := match case.subject.kind with
    | .INITIAL => initialDeployAllowed paperV1 case
    | .RENEWAL => renewalForwardComplete case
  if qualifies then FULL_MENU else NO_DEPLOY_MENU

/-! ## Case files -/

/-- A decoded case file, and what the keys say of its signature. -/
structure CaseFile (F : Type) where
  case : EvaluationCase F
  caseDigest : String
  keyKnown : Bool
  signatureVerifies : Bool

/-- `load_verified_case`; a file that is not there or does not decode is a code. -/
def loadVerifiedCase [PyFloat F] (sha256 : String → String) (file : Except String (CaseFile F)) (digest : String) :
    Except String (EvaluationCase F) :=
  match file with
  | .error code => .error code
  | .ok file =>
    if caseDigest sha256 file.case ≠ digest ∨ file.caseDigest ≠ digest then .error "CASE_DIGEST_MISMATCH"
    else if file.keyKnown = false then .error "CASE_KEY_UNKNOWN"
    else if file.signatureVerifies = false then .error "CASE_SIGNATURE_INVALID"
    else .ok file.case

theorem loadVerifiedCase_digest [PyFloat F] {sha256 : String → String} {file : Except String (CaseFile F)}
    {digest : String} {case : EvaluationCase F} (h : loadVerifiedCase sha256 file digest = .ok case) :
    caseDigest sha256 case = digest := by
  unfold loadVerifiedCase at h
  cases file with
  | error code => cases h
  | ok file =>
    dsimp only at h
    split at h
    · cases h
    · rename_i hdigest
      split at h
      · cases h
      · split at h
        · cases h
        · cases h
          exact not_not.mp (not_or.mp hdigest).1

end MmrTrader.Evaluation
