import Mathlib.Order.Monotone.Basic
import Mathlib.Data.List.Sort
import MmrTrader.Lib.Table
import MmrTrader.Lib.Transaction

/-!
# Deployment versions

Tables, records and reads of `ai_deployment_versions.py`, and `classify` of `ai_deployment_activity.py`.

* `DeploymentVersion` — a checked version: a value that breaks a rule of `__post_init__` cannot be built.
* `VersionDb` — `ai_deployment_versions`, `ai_deployment_withdrawals`, `ai_deployments` and
  `authored_strategies`.
* `parse`, `get`, `sealedIn` — the reads; each recomputes the digest and compares the lookup columns.
* `sealInTx`, `withdrawInTx` — the writers.
* `classify` — the status of every sealed version.

Digests are functions of the records (`Setup`).  Records are kept as values, not as JSON text.
-/

set_option autoImplicit false

namespace MmrTrader.Deployment

open MmrTrader.Lib

abbrev Digest := String

/-- A calendar day, counted from some fixed day. -/
abbrev Date := Int

inductive VersionKind where
  | INITIAL
  | RENEWAL
  deriving DecidableEq

inductive Verdict where
  | DEPLOY
  | SHADOW
  | REJECT
  | NO_VERDICT
  deriving DecidableEq

/-- `DeploymentRefused`, or what the database or a port raises. -/
inductive DeployError where
  | refused (code message : String)
  /-- A PRIMARY KEY or UNIQUE violation. -/
  | constraint
  | raised (what : String)
  deriving DecidableEq

abbrev Tx := EStateM DeployError

/-! ## Versions -/

def isHex (c : Char) : Bool := ('0' ≤ c && c ≤ '9') || ('a' ≤ c && c ≤ 'f')

/-- `^sha256:[0-9a-f]{64}$`; the `$` admits one closing newline. -/
def isSha256 (s : String) : Bool :=
  let cs := if s.toList.getLast? = some '\n' then s.toList.dropLast else s.toList
  cs.take 7 = "sha256:".toList && (cs.drop 7).length = 64 && (cs.drop 7).all isHex

/-- `[A-Za-z0-9_.:-]{1,128}`. -/
def isJudgmentId (s : String) : Bool :=
  decide (1 ≤ s.toList.length ∧ s.toList.length ≤ 128) &&
    s.toList.all fun c => c.isAlphanum || c = '_' || c = '.' || c = ':' || c = '-'

structure VersionFields where
  baseDigest : Digest
  judgmentId : String
  kind : VersionKind
  priorVersion : Option Digest
  firstSession : Date
  expirySession : Date
  deriving DecidableEq

/-- The first rule of `__post_init__` that is broken. -/
def VersionFields.problem (v : VersionFields) : Option String :=
  if isSha256 v.baseDigest = false then some "base_digest must be sha256:<64 hex>"
  else if isJudgmentId v.judgmentId = false then some "judgment_id must match ^[A-Za-z0-9_.:-]\x7b1,128\x7d$"
  else if ¬ (v.kind = .INITIAL ↔ v.priorVersion = none) then
    some "an INITIAL version has no prior version; a RENEWAL names one"
  else if (v.priorVersion.map isSha256).getD true = false then some "prior_version must be sha256:<64 hex>"
  else if v.expirySession < v.firstSession then some "expiry_session is before first_session"
  else none

structure DeploymentVersion extends VersionFields where
  checked : toVersionFields.problem = none
  deriving DecidableEq

/-- The constructor: `_invalid(rule)` for a broken rule. -/
def DeploymentVersion.make (v : VersionFields) : Except DeployError DeploymentVersion :=
  match h : v.problem with
  | none => .ok ⟨v, h⟩
  | some rule => .error (.refused "DEPLOYMENT_VERSION_INVALID" rule)

theorem DeploymentVersion.make_ok {f : VersionFields} {v : DeploymentVersion} (h : DeploymentVersion.make f = .ok v) :
    v.toVersionFields = f := by
  unfold DeploymentVersion.make at h
  split at h
  · cases h
    rfl
  · cases h

theorem DeploymentVersion.initial_iff (v : DeploymentVersion) : v.kind = .INITIAL ↔ v.priorVersion = none := by
  have h := v.checked
  unfold VersionFields.problem at h
  split at h
  · cases h
  split at h
  · cases h
  split at h
  · cases h
  · rename_i hkind
    exact not_not.mp hkind

structure SealedVersion where
  digest : Digest
  version : DeploymentVersion
  requestDigest : Digest
  sealedAt : Int
  deriving DecidableEq

/-! ## Tables -/

structure VersionRow where
  digest : Digest
  judgmentId : String
  baseDigest : Digest
  priorVersion : Option Digest
  record : DeploymentVersion
  requestDigest : Digest
  principal : String
  commandId : String
  sealedAt : Int
  deriving DecidableEq

structure WithdrawalRow where
  versionDigest : Digest
  reason : String
  principal : String
  commandId : String
  withdrawnAt : Int
  deriving DecidableEq

/-- `AiDeployment`; `recordJson` stands for its canonical JSON. -/
structure AiDeployment where
  strategyPath : String
  strategyDigest : Digest
  className : String
  recordJson : String
  deriving DecidableEq

structure DeploymentRow where
  digest : Digest
  record : AiDeployment
  principal : String
  commandId : String
  sealedAt : Int
  deriving DecidableEq

inductive AuthoredState where
  | STORED
  | EVALUATING
  | SHADOW
  | DEPLOYED
  | REJECTED
  | RETIRED
  | EXPIRED
  | FAILED
  deriving DecidableEq

structure AuthoredRecord where
  digest : Digest
  className : String
  state : AuthoredState
  verdict : Option Verdict
  judgmentId : Option String
  deploymentVersion : Option Digest
  stateChangedAt : Int
  deriving DecidableEq

structure VersionDb where
  versions : Table VersionRow.digest
  withdrawals : Table WithdrawalRow.versionDigest
  deployments : Table DeploymentRow.digest
  authored : Table AuthoredRecord.digest

/-- The requests, the digests and the configuration of one trader. -/
structure Body where
  judgmentId : String
  bundleDigest : Digest
  deployment : AiDeployment
  deriving DecidableEq

/-- `sessions_in_range` raises when the calendar cannot serve.  `max_active_deploys` is between 1 and 20. -/
structure Setup where
  versionDigest : DeploymentVersion → Digest
  deploymentDigest : AiDeployment → Digest
  requestDigest : Body → Digest
  nyDate : Int → Date
  nyDate_mono {a b : Int} (h : a ≤ b) : nyDate a ≤ nyDate b
  sessionsInRange : Date → Date → Option (List Date)
  expirySessions : Nat
  maxActive : Nat
  maxActive_le : 1 ≤ maxActive ∧ maxActive ≤ 20

namespace VersionDb

def withdrawnIds (db : VersionDb) : List Digest := db.withdrawals.rows.map (·.versionDigest)

/-- `SELECT … WHERE judgment_id = ?`. -/
def ofJudgment (db : VersionDb) (judgmentId : String) : Option VersionRow :=
  db.versions.rows.find? fun r => r.judgmentId = judgmentId

/-- `SELECT … WHERE prior_version = ?`. -/
def successor (db : VersionDb) (prior : Digest) : Option VersionRow :=
  db.versions.rows.find? fun r => r.priorVersion = some prior

end VersionDb

/-! ## Reads -/

def tampered (message : String) : DeployError := .refused "DEPLOYMENT_VERSION_TAMPERED" message

def VersionRow.sealed (row : VersionRow) : SealedVersion := ⟨row.digest, row.record, row.requestDigest, row.sealedAt⟩

def parse (P : Setup) (row : VersionRow) : Except DeployError SealedVersion :=
  if P.versionDigest row.record ≠ row.digest then .error (tampered (row.digest ++ " does not match its record"))
  else if (row.judgmentId, row.baseDigest, row.priorVersion) ≠
      (row.record.judgmentId, row.record.baseDigest, row.record.priorVersion) then
    .error (tampered (row.digest ++ " columns differ from its record"))
  else .ok row.sealed

/-- `bound_to_judgment` and `bound_in_tx`. -/
def boundTo (P : Setup) (db : VersionDb) (judgmentId : String) : Except DeployError (Option SealedVersion) :=
  match db.ofJudgment judgmentId with
  | none => .ok none
  | some row => (parse P row).map some

def get (P : Setup) (db : VersionDb) (digest : Digest) : Except DeployError DeploymentVersion :=
  if isSha256 digest = false then
    .error (.refused "DEPLOYMENT_VERSION_UNKNOWN" "not a deployment version digest")
  else
    match db.versions.get? digest with
    | none => .error (.refused "DEPLOYMENT_VERSION_UNKNOWN" "no sealed version has this digest")
    | some row => (parse P row).map (·.version)

/-- `ORDER BY sealed_at, digest`. -/
def sealedBefore (r s : VersionRow) : Prop := r.sealedAt < s.sealedAt ∨ (r.sealedAt = s.sealedAt ∧ r.digest ≤ s.digest)

instance : DecidableRel sealedBefore := fun _ _ => inferInstanceAs (Decidable (_ ∨ _))

def sealedIn (P : Setup) (db : VersionDb) : Except DeployError (List SealedVersion) :=
  (db.versions.rows.insertionSort sealedBefore).mapM (parse P)

/-- `SELECT 1 FROM ai_deployment_withdrawals WHERE version_digest = ?`. -/
def isWithdrawn (db : VersionDb) (digest : Digest) : Prop := digest ∈ db.withdrawnIds

instance (db : VersionDb) (digest : Digest) : Decidable (isWithdrawn db digest) := inferInstanceAs (Decidable (_ ∈ _))

/-! ## Writers -/

/-- The `INSERT` of a version: three keys are unique. -/
def insertVersion (row : VersionRow) : Tx VersionDb Unit := do
  let db ← MonadState.get
  Tx.refuseIf ((db.ofJudgment row.judgmentId).isSome) .constraint
  Tx.refuseIf ((row.priorVersion.bind db.successor).isSome) .constraint
  match db.versions.insert? row with
  | none => throw .constraint
  | some rows => set { db with versions := rows }

/-- The row `seal_in_tx` inserts for a version. -/
def DeploymentVersion.row (P : Setup) (version : DeploymentVersion) (requestDigest : Digest) (principal commandId : String)
    (now : Int) : VersionRow where
  digest := P.versionDigest version
  judgmentId := version.judgmentId
  baseDigest := version.baseDigest
  priorVersion := version.priorVersion
  record := version
  requestDigest := requestDigest
  principal := principal
  commandId := commandId
  sealedAt := now

def sealInTx (P : Setup) (version : DeploymentVersion) (requestDigest : Digest) (principal commandId : String)
    (now : Int) : Tx VersionDb (Digest × Bool) := do
  let db ← MonadState.get
  match db.ofJudgment version.judgmentId with
  | some bound =>
    if bound.requestDigest = requestDigest then return (bound.digest, false)
    else throw (.refused "JUDGMENT_ALREADY_BOUND" ("judgment " ++ version.judgmentId ++ " has a version"))
  | none =>
    Tx.refuseIf ((version.priorVersion.bind db.successor).isSome)
      (.refused "RENEWAL_PRIOR_INVALID" "the prior version was already renewed")
    let row := version.row P requestDigest principal commandId now
    insertVersion row
    return (row.digest, true)

def insertWithdrawal (row : WithdrawalRow) : Tx VersionDb Unit := do
  let db ← MonadState.get
  match db.withdrawals.insert? row with
  | none => throw .constraint
  | some rows => set { db with withdrawals := rows }

/-- The body of `withdraw`.  `inFlight` is what `entries_being_sent_in_tx` finds. -/
def withdrawInTx (digest : Digest) (reason principal commandId : String) (now : Int) (inFlight : List String) :
    Tx VersionDb Bool := do
  let db ← MonadState.get
  Tx.refuseIf (db.versions.get? digest = none)
    (.refused "DEPLOYMENT_VERSION_UNKNOWN" "no sealed version has this digest")
  if isWithdrawn db digest then return false
  else
    match db.successor digest with
    | some successor =>
      throw (.refused "VERSION_SUPERSEDED"
        (digest ++ " is superseded by " ++ successor.digest ++ "; withdraw that version"))
    | none =>
      Tx.refuseIf (inFlight ≠ []) (.refused "WITHDRAWAL_ENTRY_IN_FLIGHT"
        ("an entry of this version is being sent (" ++ ", ".intercalate inFlight ++
          "); retry after the entry's send returns"))
      insertWithdrawal ⟨digest, reason, principal, commandId, now⟩
      return true

/-- `register_in_tx`: the base row, unless it is there. -/
def registerInTx (P : Setup) (deployment : AiDeployment) (principal commandId : String) (now : Int) :
    Tx VersionDb Unit := do
  let db ← MonadState.get
  let row := ⟨P.deploymentDigest deployment, deployment, principal, commandId, now⟩
  match db.deployments.insert? row with
  | none => pure ()
  | some rows => set { db with deployments := rows }

/-! ## The authored record of a deployment -/

/-- `^authored:sha256:[0-9a-f]{64}$`, matched whole. -/
def isAuthoredPath (path : String) : Bool :=
  let cs := path.toList
  cs.take 16 = "authored:sha256:".toList && (cs.drop 16).length = 64 && (cs.drop 16).all isHex

def authoredDigestOfPath (path : String) : Digest := String.ofList (path.toList.drop 9)

def AuthoredRecord.mayRegister (record : AuthoredRecord) (judgmentId className : String) (kind : VersionKind) : Bool :=
  if record.className ≠ className then false
  else
    match kind with
    | .RENEWAL => record.state = .DEPLOYED
    | .INITIAL => record.state = .SHADOW ∧ record.verdict = some .DEPLOY ∧ record.judgmentId = some judgmentId

def authoredConflict (message : String) : DeployError := .refused "AUTHORED_STATE_CONFLICT" message

/-- `require_registrable_in_tx`.  `unproven` is what the switch, the shadow window and the proofs refuse. -/
def requireRegistrableInTx (deployment : AiDeployment) (judgmentId : String) (kind : VersionKind)
    (unproven : Option DeployError) : Tx VersionDb Unit := do
  let db ← MonadState.get
  let record := db.authored.get? (authoredDigestOfPath deployment.strategyPath)
  Tx.refuseIf ((record.map fun r => r.mayRegister judgmentId deployment.className kind).getD false = false)
    (authoredConflict "the authored record moved since the preflight")
  match unproven with
  | some e => throw e
  | none => pure ()

/-- `mark_deployed_in_tx`: SHADOW to DEPLOYED. -/
def markDeployedInTx (deployment : AiDeployment) (judgmentId : String) (versionDigest : Digest) (now : Int) :
    Tx VersionDb Unit := do
  let db ← MonadState.get
  let digest := authoredDigestOfPath deployment.strategyPath
  Tx.refuseIf (((db.authored.get? digest).map fun r =>
      r.mayRegister judgmentId deployment.className .INITIAL).getD false = false)
    (authoredConflict "the authored record moved before the seal")
  set { db with
    authored := db.authored.updateWhere (fun r => r.digest = digest)
      (fun r => { r with state := .DEPLOYED, deploymentVersion := some versionDigest, stateChangedAt := now })
      fun _ => rfl }

/-! ## Status -/

inductive VersionStatus where
  | ACTIVE
  | NOT_STARTED
  | EXPIRED
  | WITHDRAWN
  | SUPERSEDED
  | JUDGMENT_ENDED
  | OVER_CAP
  deriving DecidableEq

/-- `{s.version.prior_version for s in sealed …}`. -/
def renewed (versions : List SealedVersion) : List Digest := versions.filterMap (·.version.priorVersion)

/-- What `classify` decides without ranking. -/
def decided (versions : List SealedVersion) (withdrawn : List Digest) (stands : Digest → Bool) (today : Date)
    (s : SealedVersion) : Option VersionStatus :=
  if s.digest ∈ withdrawn then some .WITHDRAWN
  else if s.digest ∈ renewed versions then some .SUPERSEDED
  else if stands s.digest = false then some .JUDGMENT_ENDED
  else if s.version.expirySession < today then some .EXPIRED
  else none

/-- The sort key `(first_session, sealed_at, digest)`. -/
def rankedBefore (s t : SealedVersion) : Prop :=
  s.version.firstSession < t.version.firstSession ∨
    (s.version.firstSession = t.version.firstSession ∧
      (s.sealedAt < t.sealedAt ∨ (s.sealedAt = t.sealedAt ∧ s.digest ≤ t.digest)))

instance : DecidableRel rankedBefore := fun _ _ => inferInstanceAs (Decidable (_ ∨ _))

/-- The versions `classify` ranks. -/
def standing (versions : List SealedVersion) (withdrawn : List Digest) (stands : Digest → Bool) (today : Date) :
    List SealedVersion :=
  versions.filter fun s => decided versions withdrawn stands today s = none

def rankStatus (maxActive : Nat) (today : Date) (s : SealedVersion) (rank : Nat) : Digest × VersionStatus :=
  (s.digest,
    if maxActive ≤ rank then .OVER_CAP
    else if s.version.firstSession ≤ today then .ACTIVE else .NOT_STARTED)

/-- The status of each version: the decided ones in order, then the standing ones by rank. -/
def classify (versions : List SealedVersion) (withdrawn : List Digest) (stands : Digest → Option Bool) (today : Date)
    (maxActive : Nat) (unknownStands : Bool) : List (Digest × VersionStatus) :=
  let stands := fun d => (stands d).getD unknownStands
  versions.filterMap (fun s => (decided versions withdrawn stands today s).map fun status => (s.digest, status)) ++
    ((standing versions withdrawn stands today).insertionSort rankedBefore).mapIdx fun rank s =>
      rankStatus maxActive today s rank

end MmrTrader.Deployment
