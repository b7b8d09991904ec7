import Mathlib.Algebra.Order.Ring.Rat
import MmrTrader.Broker.OrderNames

/-!
# Decisions of the paper supervisor

Executable model of `AiPaperDecision` (`trader/automation/ai_paper_decision.py`).

* `checkFields`, `checkShape`, `fromBody` — the checks, in the order of the source.
* `decision_entry_taken_for_exit` — a decision that the checks accept and whose entry bracket is taken for the reduce
  of a close.

`datetime.fromisoformat` is a parameter: `none` is a `ValueError`, `some none` a naive time.
-/

set_option autoImplicit false

namespace MmrTrader.AiPaper

open Lib

/-! ## Data -/

/-- A value of a body; `other` is a list or an object, `nonFinite` a NaN or an infinity. -/
inductive BodyValue where
  | null
  | bool (b : Bool)
  | int (n : Int)
  | float (q : ℚ)
  | nonFinite
  | text (s : String)
  | other
  deriving DecidableEq

inductive DecisionAction where
  | ENTER
  | CLOSE
  | PARTIAL_CLOSE
  deriving DecidableEq

def DecisionAction.text : DecisionAction → String
  | .ENTER => "ENTER"
  | .CLOSE => "CLOSE"
  | .PARTIAL_CLOSE => "PARTIAL_CLOSE"

inductive DecisionSide where
  | BUY
  | SELL
  deriving DecidableEq

structure AiPaperDecision where
  decisionId : String
  deploymentDigest : Option String
  decider : String
  action : DecisionAction
  conid : Int
  side : DecisionSide
  stopPrice : Option ℚ
  targetPrice : Option ℚ
  quantity : Option Int
  policyRevision : Option Int
  evidenceDigest : String
  expiresAt : DateTime
  deploymentVersion : Option String
  sourceDigest : Option String
  deriving DecidableEq

abbrev DecisionInvalid := String

def KEYS : List String :=
  ["decision_id", "deployment_digest", "decider", "action", "conid", "side", "stop_price", "target_price", "quantity",
   "policy_revision", "evidence_digest", "expires_at", "deployment_version", "source_digest"]

def COMMAND_PREFIX : String := "aip-"

def commandIdFor (decisionId : String) : String := COMMAND_PREFIX ++ decisionId

/-! ## Texts -/

/-- The text that an anchored pattern has to cover: `$` also matches before a final newline. -/
def anchored (s : String) : List Char :=
  match s.toList.reverse with
  | '\n' :: rest => rest.reverse
  | _ => s.toList

def decisionIdMatches (s : String) : Bool :=
  let t := anchored s
  8 ≤ t.length && t.length ≤ 64 && t.all fun c => c.isAlphanum || c = '_' || c = '-'

def deciderMatches (s : String) : Bool :=
  match anchored s with
  | c :: rest => c.isLower && rest.length ≤ 63 &&
      rest.all fun c => c.isLower || c.isDigit || c = '_' || c = '.' || c = '-'
  | [] => false

def sha256Matches (s : String) : Bool :=
  match "sha256:".toList.isPrefixOf? (anchored s) with
  | some hex => hex.length = 64 && hex.all fun c => c.isDigit || ('a' ≤ c && c ≤ 'f')
  | none => false

/-! ## The checks -/

def field (body : List (String × BodyValue)) (name : String) : BodyValue := (body.lookup name).getD .null

def textField (v : BodyValue) (ok : String → Bool) (detail : DecisionInvalid) : Except DecisionInvalid String :=
  match v with
  | .text s => if ok s then .ok s else .error detail
  | _ => .error detail

def optionalText (v : BodyValue) (ok : String → Bool) (detail : DecisionInvalid) : Except DecisionInvalid (Option String) :=
  match v with
  | .null => .ok none
  | v => (textField v ok detail).map some

def optionalPrice (name : String) (v : BodyValue) : Except DecisionInvalid (Option ℚ) :=
  match v with
  | .null => .ok none
  | .int n => if 0 < n then .ok (some n) else .error (name ++ " must be null or a finite number > 0")
  | .float q => if 0 < q then .ok (some q) else .error (name ++ " must be null or a finite number > 0")
  | _ => .error (name ++ " must be null or a finite number > 0")

def optionalCount (name : String) (v : BodyValue) : Except DecisionInvalid (Option Int) :=
  match v with
  | .null => .ok none
  | .int n => if 1 ≤ n then .ok (some n) else .error (name ++ " must be null or a JSON integer >= 1")
  | _ => .error (name ++ " must be null or a JSON integer >= 1")

def actionField (v : BodyValue) : Except DecisionInvalid DecisionAction :=
  match [DecisionAction.ENTER, .CLOSE, .PARTIAL_CLOSE].find? fun a => v = .text a.text with
  | some a => .ok a
  | none => .error "action must be one of ('ENTER', 'CLOSE', 'PARTIAL_CLOSE')"

/-- `side not in ("BUY", "SELL")`. -/
def sideField (v : BodyValue) : Except DecisionInvalid DecisionSide :=
  if v = .text "BUY" then .ok .BUY else if v = .text "SELL" then .ok .SELL else .error "side must be BUY or SELL"

/-- `conid`: an integer above zero. -/
def conidField (v : BodyValue) : Except DecisionInvalid Int :=
  match v with
  | .int n => if 0 < n then .ok n else .error "conid must be a JSON integer > 0"
  | _ => .error "conid must be a JSON integer > 0"

def parseExpiry (fromisoformat : String → Option (Option DateTime)) (v : BodyValue) : Except DecisionInvalid DateTime :=
  match v with
  | .text s =>
    match fromisoformat s with
    | none => .error "expires_at must be an ISO-8601 string with an offset"
    | some none => .error "expires_at must carry a UTC offset"
    | some (some t) => .ok t
  | _ => .error "expires_at must be an ISO-8601 string with an offset"

/-- `_check_fields`, which also gives every field its type. -/
def checkFields (body : List (String × BodyValue)) (expiresAt : DateTime) : Except DecisionInvalid AiPaperDecision := do
  let decisionId ← textField (field body "decision_id") decisionIdMatches
    "decision_id must match ^[A-Za-z0-9_-]\x7b8,64\x7d$"
  let deploymentDigest ← optionalText (field body "deployment_digest") sha256Matches
    "deployment_digest must be null or sha256:<64 hex>"
  let decider ← textField (field body "decider") deciderMatches "decider must match ^[a-z][a-z0-9_.-]\x7b0,63\x7d$"
  let action ← actionField (field body "action")
  let conid ← conidField (field body "conid")
  let side ← sideField (field body "side")
  let stopPrice ← optionalPrice "stop_price" (field body "stop_price")
  let targetPrice ← optionalPrice "target_price" (field body "target_price")
  let quantity ← optionalCount "quantity" (field body "quantity")
  let policyRevision ← optionalCount "policy_revision" (field body "policy_revision")
  let evidenceDigest ← textField (field body "evidence_digest") sha256Matches "evidence_digest must be sha256:<64 hex>"
  let deploymentVersion ← optionalText (field body "deployment_version") sha256Matches
    "deployment_version must be null or sha256:<64 hex>"
  let sourceDigest ← optionalText (field body "source_digest") sha256Matches "source_digest must be null or sha256:<64 hex>"
  if deploymentVersion.isNone ≠ sourceDigest.isNone then
    throw "deployment_version and source_digest come together"
  return ⟨decisionId, deploymentDigest, decider, action, conid, side, stopPrice, targetPrice, quantity, policyRevision,
    evidenceDigest, expiresAt, deploymentVersion, sourceDigest⟩

def checkShape (d : AiPaperDecision) : Except DecisionInvalid Unit :=
  if d.action = .ENTER then
    if d.deploymentDigest = none ∨ d.policyRevision = none ∨ d.stopPrice = none then
      .error "ENTER needs deployment_digest, policy_revision and stop_price"
    else if ∃ target ∈ d.targetPrice, ∃ stop ∈ d.stopPrice, target ≤ stop then
      .error "target_price must be above stop_price"
    else .ok ()
  else if d.deploymentDigest ≠ none ∨ d.policyRevision ≠ none then
    .error (d.action.text ++ " must not carry deployment_digest or policy_revision")
  else if d.deploymentVersion ≠ none ∨ d.sourceDigest ≠ none then
    .error (d.action.text ++ " carries no deployment binding")
  else if d.action = .CLOSE then
    if d.stopPrice ≠ none ∨ d.targetPrice ≠ none ∨ d.quantity ≠ none then
      .error "CLOSE takes no quantity, stop_price or target_price"
    else .ok ()
  else if d.quantity = none then .error "PARTIAL_CLOSE needs a quantity"
  else if d.stopPrice ≠ none ∨ d.targetPrice ≠ none then
    .error "PARTIAL_CLOSE keeps the existing stop and target; stop_price and target_price must be null"
  else .ok ()

def fromBody (fromisoformat : String → Option (Option DateTime)) (body : List (String × BodyValue)) :
    Except DecisionInvalid AiPaperDecision := do
  if ¬ ((∀ name ∈ KEYS, name ∈ body.map (·.1)) ∧ ∀ name ∈ body.map (·.1), name ∈ KEYS) then
    throw ("decision must have exactly the keys (" ++ ", ".intercalate (KEYS.map fun k => "'" ++ k ++ "'") ++ ")")
  let expiresAt ← parseExpiry fromisoformat (field body "expires_at")
  let d ← checkFields body expiresAt
  checkShape d
  return d

/-! ## A decision whose entry is taken for an exit -/

/-- `sha256:` and sixty-four zeros. -/
def sampleSha256 : String := "sha256:0000000000000000000000000000000000000000000000000000000000000000"

def childLikeBody : List (String × BodyValue) :=
  [("decision_id", .text "abcdefgh-reduce-1-1"), ("deployment_digest", .text sampleSha256), ("decider", .text "claude"),
   ("action", .text "ENTER"), ("conid", .int 265598), ("side", .text "BUY"), ("stop_price", .int 150),
   ("target_price", .int 170), ("quantity", .int 1), ("policy_revision", .int 1), ("evidence_digest", .text sampleSha256),
   ("expires_at", .text "2026-07-18T14:30:00+00:00"), ("deployment_version", .null), ("source_digest", .null)]

/-- The order that carries the decision's id is accepted and classified as the reduce of a close. -/
theorem decision_entry_taken_for_exit :
    (fromBody (fun s => (fromIsoformat s.toList).map some) childLikeBody).toOption.map (fun d => commandIdFor d.decisionId) =
        some "aip-abcdefgh-reduce-1-1" ∧
      Broker.commandIdAccepted "aip-abcdefgh-reduce-1-1" = true ∧
      Broker.classifyLeg "LMT" 0 7 (some (Broker.entryGroup "aip-abcdefgh-reduce-1-1")) = "exit" ∧
      ¬ ∀ commandId, Broker.commandIdAccepted commandId = true → Broker.EntryBracket commandId := by
  have haccepted : Broker.commandIdAccepted "aip-abcdefgh-reduce-1-1" = true := by decide +kernel
  have hleg : Broker.classifyLeg "LMT" 0 7 (some (Broker.entryGroup "aip-abcdefgh-reduce-1-1")) = "exit" := by
    decide +kernel
  refine ⟨by decide +kernel, haccepted, hleg, fun h => ?_⟩
  have hentry := (h _ haccepted).2 "LMT" 7
  rw [hleg] at hentry
  exact absurd hentry (by decide)

end MmrTrader.AiPaper
