import MmrTrader.Lib.Interleaving
import MmrTrader.Deployment.Version

/-!
# Registering and withdrawing a deployment

`AiDeploymentRegistrar.register`, `AiDeploymentVersionStore.withdraw` and `DeploymentActivity.statuses` as
programs whose reads and transactions may interleave with those of any other call.

* `Shared` — the trader's tables, the durable judgments and the clock.
* `register`, `withdraw`, `statuses` — the calls, one step for each read or transaction.
* `deployments` — the system: any number of these calls, while the clock goes on, judgments are recorded and
  the authored store moves its own records.

What the bundle reader answers includes the differences `binding_differences` finds.
-/

set_option autoImplicit false

namespace MmrTrader.Deployment

open MmrTrader.Lib MmrTrader.Lib.Interleaving

structure JudgmentFacts where
  judgmentId : String
  verdict : Verdict
  kind : VersionKind
  renewsVersion : Option Digest
  artifactId : Option String
  deriving DecidableEq

structure Shared where
  db : VersionDb
  judgments : Table JudgmentFacts.judgmentId
  clock : Int

/-- `BundleFacts.expires_at`, and the problems `binding_differences` lists. -/
structure BundleFacts where
  expiresAt : Int
  problems : List String

/-- The ports at one step.  `authored` is what the switch, the shadow window and the proofs refuse, `commit`
what a COMMIT raises, `inFlight` the entries of a version being sent. -/
structure Answers where
  authored : Option DeployError := none
  manifestArtifactId : Except DeployError (Option String) := .error (.raised "bundle")
  bundle : Except DeployError BundleFacts := .error (.raised "bundle")
  cooling : String → Int → Bool := fun _ _ => false
  inFlight : List String := []
  commit : Option DeployError := none

abbrev Call := Prog Shared Answers DeployError

/-- A computation on the tables, as one on the shared state. -/
def onDb {α : Type} (f : Shared → Tx VersionDb α) : Tx Shared α := fun s =>
  match f s s.db with
  | .ok a db => .ok a { s with db := db }
  | .error e db => .error e { s with db := db }

/-! ## Reads -/

def clock : Call Int := Prog.read fun _ s => .ok s.clock

def judgmentOf (judgmentId : String) : Call (Option JudgmentFacts) :=
  Prog.read fun _ s => .ok (s.judgments.get? judgmentId)

def verdictsOn (judgments : List JudgmentFacts) (digest : Digest) : List Verdict :=
  (judgments.filter fun j => j.kind = .RENEWAL ∧ j.renewsVersion = some digest).map (·.verdict)

def renewalVerdicts (digest : Digest) : Call (List Verdict) :=
  Prog.read fun _ s => .ok (verdictsOn s.judgments.rows digest)

variable (P : Setup)

def boundToJudgment (judgmentId : String) : Call (Option SealedVersion) := Prog.read fun _ s => boundTo P s.db judgmentId

def readSealed : Call (List SealedVersion) := Prog.read fun _ s => sealedIn P s.db

def readWithdrawn : Call (List Digest) := Prog.read fun _ s => .ok s.db.withdrawnIds

/-! ## Judgments that stand -/

/-- `stands_for`: a version's own judgment, and then the renewals that name it. -/
def standsFor (skip : List Digest) : List SealedVersion → Call (List (Digest × Bool))
  | [] => pure []
  | s :: rest =>
    if s.digest ∈ skip then standsFor skip rest
    else do
      let facts ← judgmentOf s.version.judgmentId
      if facts.map (·.verdict) = some .DEPLOY then do
        let verdicts ← renewalVerdicts s.digest
        let others ← standsFor skip rest
        return (s.digest, verdicts.all (· = .DEPLOY)) :: others
      else do
        let others ← standsFor skip rest
        return (s.digest, false) :: others

/-! ## The outcome of a registration -/

structure Outcome where
  digest : Digest
  versionDigest : Digest
  kind : VersionKind
  firstSession : Date
  expirySession : Date
  created : Bool
  strategyDigestProvenance : String := "CLAIMED_NOT_VERIFIED"
  deriving DecidableEq

def outcome (digest : Digest) (version : DeploymentVersion) (created : Bool) : Outcome where
  digest := version.baseDigest
  versionDigest := digest
  kind := version.kind
  firstSession := version.firstSession
  expirySession := version.expirySession
  created := created

def existingOutcome (bound : SealedVersion) (digestOfRequest : Digest) : Except DeployError Outcome :=
  if bound.requestDigest ≠ digestOfRequest then
    .error (.refused "JUDGMENT_ALREADY_BOUND" ("judgment " ++ bound.version.judgmentId ++ " has a version"))
  else .ok (outcome bound.digest bound.version false)

/-! ## What a registration reads before its transaction -/

def deployJudgment (judgmentId : String) : Call JudgmentFacts := do
  match ← judgmentOf judgmentId with
  | none => Prog.raise (.refused "JUDGMENT_MISSING" ("no durable judgment " ++ judgmentId))
  | some judgment =>
    if judgment.verdict ≠ .DEPLOY then
      Prog.raise (.refused "JUDGMENT_NOT_DEPLOY" ("judgment " ++ judgmentId ++ " is not DEPLOY"))
    else return judgment

/-- `except DeploymentRefused as refused: if refused.code != code: raise`, then another refusal. -/
def insteadOf {α : Type} (code : String) (e : DeployError) (x : Except DeployError α) : Except DeployError α :=
  match x with
  | .error (.refused c m) => if c = code then .error e else .error (.refused c m)
  | r => r

/-- `_sealed_version`: the version, and how many are sealed. -/
def sealedVersion (digest : Digest) : Call (DeploymentVersion × Nat) :=
  Prog.read fun _ s => (insteadOf "DEPLOYMENT_VERSION_UNKNOWN"
    (.refused "RENEWAL_PRIOR_INVALID" "the renewal names no sealed version") (get P s.db digest)).map
      fun version => (version, s.db.versions.rows.length)

/-- The loop of `_initial_judgment`, for at most `fuel` versions of the line. -/
def firstOfLine : Nat → DeploymentVersion → Call DeploymentVersion
  | 0, _ => Prog.raise (.raised "endless line")
  | fuel + 1, first =>
    match first.priorVersion with
    | none => return first
    | some prior => do
      let earlier ← Prog.read fun _ s => insteadOf "DEPLOYMENT_VERSION_UNKNOWN"
        (tampered ("the chain names " ++ prior ++ ", which is gone")) (get P s.db prior)
      firstOfLine fuel earlier

def initialJudgment (fuel : Nat) (version : DeploymentVersion) : Call JudgmentFacts := do
  let first ← firstOfLine P fuel version
  match ← judgmentOf first.judgmentId with
  | none => Prog.raise (.refused "JUDGMENT_TAMPERED" ("the INITIAL judgment " ++ first.judgmentId ++ " is gone"))
  | some judgment =>
    if judgment.verdict ≠ .DEPLOY then
      Prog.raise (.refused "JUDGMENT_NOT_DEPLOY" ("judgment " ++ first.judgmentId ++ " is not DEPLOY"))
    else return judgment

/-- `_line`: the prior version, and the INITIAL judgment of the line. -/
def line (judgment : JudgmentFacts) (deployment : AiDeployment) : Call (Option Digest × JudgmentFacts) :=
  match judgment.kind, judgment.renewsVersion with
  | .INITIAL, _ => return (none, judgment)
  | .RENEWAL, none => Prog.raise (.refused "RENEWAL_PRIOR_INVALID" "the renewal names no sealed version")
  | .RENEWAL, some prior => do
    let (version, count) ← sealedVersion P prior
    Prog.refuseIf (version.baseDigest ≠ P.deploymentDigest deployment)
      (.refused "RENEWAL_PRIOR_INVALID" "a renewal must keep the prior base deployment")
    let withdrawn ← readWithdrawn
    Prog.refuseIf (prior ∈ withdrawn) (.refused "RENEWAL_PRIOR_INVALID" "the prior version was withdrawn")
    let versions ← readSealed P
    Prog.refuseIf (prior ∈ renewed versions)
      (.refused "RENEWAL_PRIOR_INVALID" "the prior version was already renewed")
    let initial ← initialJudgment P count version
    return (some prior, initial)

/-- `deployment_sessions`; what the calendar raises is `CALENDAR_UNAVAILABLE`. -/
def deploymentSessions (registeredAt bundleExpiresAt : Int) : Except DeployError (Date × Date) :=
  let start := P.nyDate registeredAt + 1
  let unavailable := DeployError.refused "DEPLOYMENT_CALENDAR_UNAVAILABLE" "the session calendar cannot serve"
  if P.expirySessions < 1 then .error unavailable
  else
    match P.sessionsInRange start (start + (P.expirySessions * 2 + 14)) with
    | none => .error unavailable
    | some days =>
      if days.length < P.expirySessions then .error unavailable
      else
        let allowed := (days.take P.expirySessions).filter fun day => day ≤ P.nyDate bundleExpiresAt - 1
        match days.head?, allowed.getLast? with
        | some first, some last => .ok (first, last)
        | _, _ => .error (.refused "BUNDLE_EXPIRED" "the bundle expires before the first session")

def strategyKey (strategyPath className : String) : String := strategyPath ++ ":" ++ className

/-- `_authored_gate().registration_refusal`. -/
def registrationRefusal (deployment : AiDeployment) (judgmentId : String) (kind : VersionKind) : Call Unit :=
  Prog.read fun a s =>
    let digest := authoredDigestOfPath deployment.strategyPath
    if digest ≠ deployment.strategyDigest then
      .error (.refused "JUDGMENT_MISMATCH" "the authored path names another file than strategy_digest")
    else
      match s.db.authored.get? digest with
      | none => .error (.refused "AUTHORED_STRATEGY_UNKNOWN" ("no authored strategy has digest " ++ digest))
      | some record =>
        if record.mayRegister judgmentId deployment.className kind = false then
          .error (authoredConflict "the record does not wait for this registration")
        else
          match a.authored with
          | some e => .error e
          | none => .ok ()

/-- The bundle and the fields it must agree on; its expiry. -/
def checkBundle (initial : JudgmentFacts) : Call Int := do
  let artifactId ← Prog.read fun a _ => a.manifestArtifactId
  Prog.refuseIf (artifactId ≠ initial.artifactId)
    (.refused "JUDGMENT_MISMATCH" "the bundle names another evaluation's artifact")
  let bundle ← Prog.read fun a _ => a.bundle
  Prog.refuseIf (bundle.problems ≠ []) (.refused "JUDGMENT_MISMATCH" ("; ".intercalate bundle.problems))
  return bundle.expiresAt

def coolingDown : DeployError := .refused "FAMILY_COOLING_DOWN" "the strategy key is cooling down"

/-! ## The transaction of a registration -/

def requireRoomInTx (stands : List (Digest × Bool)) (today : Date) (excluding : Option Digest) : Tx VersionDb Unit := do
  let db ← MonadState.get
  let versions ← Tx.check (sealedIn P db)
  let statuses := classify versions db.withdrawnIds (fun d => stands.lookup d) today 1000000 true
  let standing := statuses.filter fun entry =>
    decide ((entry.2 = .ACTIVE ∨ entry.2 = .NOT_STARTED) ∧ some entry.1 ≠ excluding)
  Tx.refuseIf (P.maxActive ≤ standing.length)
    (.refused "DEPLOY_CAP_REACHED" (toString standing.length ++ " AI deployments already stand"))

/-- What the transaction of a registration was prepared with. -/
structure Prepared where
  body : Body
  judgment : JudgmentFacts
  prior : Option Digest
  version : DeploymentVersion
  stands : List (Digest × Bool)
  now : Int
  principal : String
  commandId : String

def writeTx (r : Prepared) (a : Answers) (clock : Int) : Tx VersionDb Outcome := do
  let db ← MonadState.get
  let raced ← Tx.check (boundTo P db r.body.judgmentId)
  match raced with
  | some bound => Tx.check (existingOutcome bound (P.requestDigest r.body))
  | none =>
    Tx.refuseIf (∃ p ∈ r.prior, isWithdrawn db p) (.refused "RENEWAL_PRIOR_INVALID" "the prior version was withdrawn")
    Tx.refuseIf (a.cooling (strategyKey r.body.deployment.strategyPath r.body.deployment.className) clock = true) coolingDown
    requireRoomInTx P r.stands (P.nyDate r.now) r.prior
    registerInTx P r.body.deployment r.principal r.commandId clock
    Tx.onlyIf (isAuthoredPath r.body.deployment.strategyPath = true)
      (requireRegistrableInTx r.body.deployment r.body.judgmentId r.judgment.kind a.authored)
    let (digest, created) ← sealInTx P r.version (P.requestDigest r.body) r.principal r.commandId clock
    Tx.onlyIf (isAuthoredPath r.body.deployment.strategyPath = true ∧ created = true ∧ r.judgment.kind = .INITIAL)
      (markDeployedInTx r.body.deployment r.body.judgmentId digest clock)
    return outcome digest r.version created

def write (r : Prepared) : Call Outcome :=
  Prog.atomic fun a => onDb fun s => transaction a.commit (writeTx P r a s.clock)

/-! ## The calls -/

def registerUnbound (body : Body) (principal commandId : String) (judgment : JudgmentFacts) : Call Outcome := do
  Prog.onlyIf (isAuthoredPath body.deployment.strategyPath = true)
    (registrationRefusal body.deployment body.judgmentId judgment.kind)
  let (prior, initial) ← line P judgment body.deployment
  let now ← clock
  let expiresAt ← checkBundle initial
  let cooling ← Prog.read fun a _ =>
    .ok (a.cooling (strategyKey body.deployment.strategyPath body.deployment.className) now)
  Prog.refuseIf (cooling = true) coolingDown
  let (first, expiry) ← Prog.check (deploymentSessions P now expiresAt)
  let version ← Prog.check (DeploymentVersion.make
    { baseDigest := P.deploymentDigest body.deployment, judgmentId := body.judgmentId, kind := judgment.kind,
      priorVersion := prior, firstSession := first, expirySession := expiry })
  let versions ← readSealed P
  let withdrawn ← readWithdrawn
  let stands ← standsFor (withdrawn ++ renewed versions) versions
  write P { body := body, judgment := judgment, prior := prior, version := version, stands := stands, now := now,
            principal := principal, commandId := commandId }

def register (body : Body) (principal commandId : String) : Call Outcome := do
  let judgment ← deployJudgment body.judgmentId
  match ← boundToJudgment P body.judgmentId with
  | some bound => Prog.check (existingOutcome bound (P.requestDigest body))
  | none => registerUnbound P body principal commandId judgment

def withdraw (digest : Digest) (reason principal commandId : String) : Call Bool := do
  let now ← clock
  Prog.atomic fun a => onDb fun _ => transaction a.commit (withdrawInTx digest reason principal commandId now a.inFlight)

/-- `DeploymentActivity.statuses`. -/
def statuses : Call (List (Digest × VersionStatus)) := do
  let versions ← readSealed P
  let withdrawn ← readWithdrawn
  let stands ← standsFor (withdrawn ++ renewed versions) versions
  let now ← clock
  return classify versions withdrawn (fun d => stands.lookup d) (P.nyDate now) P.maxActive false

/-! ## The system -/

inductive Request where
  | register (body : Body) (principal commandId : String)
  | withdraw (digest : Digest) (reason principal commandId : String)
  | statuses

inductive Result where
  | registered (o : Outcome)
  | withdrawn (newly : Bool)
  | statuses (l : List (Digest × VersionStatus))
  deriving DecidableEq

def Request.program : Request → Call Result
  | .register body principal commandId => do return .registered (← Deployment.register P body principal commandId)
  | .withdraw digest reason principal commandId => do
    return .withdrawn (← Deployment.withdraw digest reason principal commandId)
  | .statuses => do return .statuses (← Deployment.statuses P)

/-- What goes on around the calls: the clock never goes back, and a judgment is recorded once. -/
inductive Event where
  | tick (now : Int)
  | judge (facts : JudgmentFacts)
  | authored (records : Table AuthoredRecord.digest)

def Shared.event (s : Shared) : Event → Shared
  | .tick now => { s with clock := max s.clock now }
  | .judge facts =>
    match s.judgments.insert? facts with
    | none => s
    | some judgments => { s with judgments := judgments }
  | .authored records => { s with db := { s.db with authored := records } }

def deployments : System Shared Answers DeployError Result Request Event where
  main := Request.program P
  env e s := s.event e

/-- No version yet, some judgments, some authored records, some base deployments. -/
def start (judgments : Table JudgmentFacts.judgmentId) (bases : Table DeploymentRow.digest)
    (authored : Table AuthoredRecord.digest) (clock : Int) : World Shared Answers DeployError Result where
  shared := ⟨⟨.empty, .empty, bases, authored⟩, judgments, clock⟩
  threads _ := none

end MmrTrader.Deployment
