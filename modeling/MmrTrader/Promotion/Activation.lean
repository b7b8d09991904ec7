import MmrTrader.Authority.Ledger
import MmrTrader.Lib.KeyedLog
import MmrTrader.Promotion.Stage

/-!
# Activation of live authorities

Executable model of `CanaryActivationService`, `AllocationActivationService` and `LiveActivationAuthorityStore` of
`trader/promotion/controller.py`, over the promotion stages and the ledger of allocation authorities.

* `AllocationRecording` — those of the ledger of allocation authorities.
* `Services.step` — calls that interleave: every read and every transaction is a step of its own.

A digest covers its attestation, so `Config` gives the attestation of a digest.  What the checks before the
revocation check answer (wire format, preflight, bindings, signature, policy, expiry) is an argument of a call.
-/

set_option autoImplicit false

namespace MmrTrader.Promotion.Live

open Lib
open Authority (AuthorityRecord AuthorityEvent Attested Gross Ledger judge overrideRow strip validateOverrideReduction)
open Dispatch (AllocationStage)

/-! ## The ledger of canary authorities -/

inductive CanaryEvent where
  | ISSUED
  | ACTIVATED
  | DEACTIVATED
  | REVOKED
  deriving DecidableEq

/-- What a canary attestation says; every row of its digest carries it. -/
structure CanaryAttested where
  strategyId : String
  accountId : String
  accountMode : String
  artifactDigest : String
  allowlistDigest : String
  rulesetDigest : String
  maxGross : Gross
  permittedInstruments : List String
  publicKeyId : String
  operator : String
  issuedAt : Int
  expiresAt : Int
  deriving DecidableEq

/-- A row; its `entry_id` is its position. -/
structure AuthorityLedgerEntry where
  authorityDigest : String
  attested : CanaryAttested
  reason : String
  event : CanaryEvent
  commandId : Option String
  deriving DecidableEq

/-- What an allocation attestation says. -/
structure AllocationAttested where
  attested : Attested
  accountId : String
  artifactDigest : String
  stage : AllocationStage
  maxGross : Gross
  expiresAt : Int
  deriving DecidableEq

/-- The attestation of each digest, and `isoformat`. -/
structure Config where
  canary : String → CanaryAttested
  allocation : String → AllocationAttested
  isoformat : Int → String

/-- What a `record_*` call does after it has read the newest row of its digest. -/
inductive Reading (R : Type) where
  | raises
  | nothing
  | appends (row : R)
  deriving DecidableEq

/-- A copy of the newest row; without one the call raises. -/
def Reading.copy {R : Type} (base : Option R) (f : R → R) : Reading R :=
  match base with
  | none => .raises
  | some base => .appends (f base)

/-- `record_issued`: nothing for a digest that has a row. -/
def Reading.issue {R : Type} (base : Option R) (row : R) : Reading R :=
  match base with
  | none => .appends row
  | some _ => .nothing

inductive CanaryRecording where
  | issued (digest reason : String)
  | activated (digest commandId : String)
  | deactivated (digest commandId reason : String)
  | revoked (digest reason : String)
  deriving DecidableEq

namespace AuthorityLedgerEntry

def latest (rows : List AuthorityLedgerEntry) (digest : String) : Option AuthorityLedgerEntry :=
  lastOf authorityDigest rows digest

def revoked (row : AuthorityLedgerEntry) : Bool := row.event = .REVOKED

def activated (row : AuthorityLedgerEntry) : Bool := row.event = .ACTIVATED

def deactivated (row : AuthorityLedgerEntry) : Bool := row.event = .DEACTIVATED

def isRevoked (rows : List AuthorityLedgerEntry) (digest : String) : Bool := (latest rows digest).any revoked

/-- The candidates of `revoked_digests`. -/
def everRevoked (rows : List AuthorityLedgerEntry) : List String :=
  ((rows.filter revoked).map authorityDigest).eraseDups

end AuthorityLedgerEntry

open AuthorityLedgerEntry (latest isRevoked everRevoked)

def CanaryRecording.read (C : Config) (rows : List AuthorityLedgerEntry) : CanaryRecording → Reading AuthorityLedgerEntry
  | .issued digest reason =>
    .issue (latest rows digest)
      { authorityDigest := digest, attested := C.canary digest, reason := reason, event := .ISSUED, commandId := none }
  | .activated digest commandId =>
    .copy (latest rows digest) fun base => { base with event := .ACTIVATED, commandId := some commandId }
  | .deactivated digest commandId reason =>
    .copy (latest rows digest) fun base =>
      { base with event := .DEACTIVATED, reason := reason, commandId := some commandId }
  | .revoked digest reason =>
    .copy (latest rows digest) fun base => { base with event := .REVOKED, reason := reason, commandId := none }

/-! ## The ledger of allocation authorities -/

inductive AllocationRecording where
  | issued (digest reason : String)
  | activated (digest commandId : String)
  | deactivated (digest commandId reason : String)
  | revoked (digest reason : String)
  | superseded (digest supersededBy reason : String)
  deriving DecidableEq

def AllocationRecording.read (C : Config) (l : Ledger) : AllocationRecording → Reading AuthorityRecord
  | .issued digest reason =>
    .issue (l.latest digest)
      { entryId := 0
        authorityDigest := digest
        attested := (C.allocation digest).attested
        accountId := (C.allocation digest).accountId
        artifactDigest := (C.allocation digest).artifactDigest
        stage := (C.allocation digest).stage
        maxGross := (C.allocation digest).maxGross
        reason := reason
        expiresAt := (C.allocation digest).expiresAt
        event := .ISSUED
        supersededBy := none
        commandId := none }
  | .activated digest commandId =>
    .copy (l.latest digest) fun base => Authority.transition base .ACTIVATED base.reason none (some commandId)
  | .deactivated digest commandId reason =>
    .copy (l.latest digest) fun base => Authority.transition base .DEACTIVATED reason none (some commandId)
  | .revoked digest reason =>
    .copy (l.latest digest) fun base => Authority.transition base .REVOKED reason none none
  | .superseded digest supersededBy reason =>
    .copy (l.latest digest) fun base => Authority.transition base .SUPERSEDED reason (some supersededBy) none

def revokedRow (row : AuthorityRecord) : Bool := row.event = .REVOKED

def allocationRevoked (l : Ledger) (digest : String) : Bool := (l.latest digest).any revokedRow

def candidatesForAccount (l : Ledger) (accountId : String) : List String :=
  ((l.rows.filter fun r => r.accountId == accountId).reverse.map AuthorityRecord.authorityDigest).eraseDups

/-! ## Calls -/

variable {D : Type} [DecidableEq D]

/-- The body of an activation, once it has passed the checks before the revocation check. -/
structure Activation (D : Type) where
  digest : String
  reason : String
  commandId : String
  source : String
  now : Int
  /-- What the evidence store projects when the call authorizes. -/
  projected : Option (EvidenceWindow D)

def REQUIRED_ACTIVATION_SOURCE : String := "operator"

inductive Call (D : Type) where
  /-- `CanaryActivationService.activate`; `passes` is what the checks before revocation answer. -/
  | activateCanary (a : Activation D) (passes : Bool)
  | deactivateCanary (strategyId reason commandId source : String) (now : Int)
  /-- `AllocationActivationService.activate`. -/
  | activateAllocation (a : Activation D) (passes : Bool)
  | suspendAllocation (accountId reason commandId source : String) (now : Int)
  | recordCanary (r : CanaryRecording)
  | recordAllocation (r : AllocationRecording)
  | applyOverride (accountId artifactDigest : String) (newStage : AllocationStage) (newMaxGross : Gross) (reason : String)
      (now : Int)
  | activeFor (accountId artifactDigest : String) (now : Int)
  | activeForAccount (accountId : String) (now : Int)
  | authorityForDispatch (accountId artifactDigest : String) (now : Int)
  /-- A transition that another caller asks the stage machine for. -/
  | transition (args : TransitionArgs D)

/-- What follows a row of the canary ledger or a transition. -/
inductive Next (D : Type) where
  | authorize (a : Activation D) (fromStage : Stage)
  | activate (a : Activation D)
  | recordActivated (a : Activation D)
  | activated (a : Activation D)
  | recordDeactivated (commandId reason : String)
  | deactivated (digest : String)
  | recorded

/-- What a search of the allocation ledger is for. -/
inductive Goal (D : Type) where
  | activate (a : Activation D)
  | suspend (commandId reason : String)
  | override (newStage : AllocationStage) (newMaxGross : Gross) (reason : String)
  | active
  | dispatch

/-- What a call returned.  `mark` is the number of rows of its ledger when it began, of `found` when it looked. -/
inductive Returned where
  | canaryActivated (mark : Nat) (digest : String)
  | canaryDeactivated (digest : Option String)
  | allocationActivated (mark : Nat) (digest : String)
  | allocationSuspended (digest : String)
  | found (mark : Nat) (digest : String)
  | recorded
  deriving DecidableEq

inductive Phase (D : Type) where
  /-- `revoked_digests`, with the candidates that are left. -/
  | revokedDigests (a : Activation D) (rest : List String) (revoked : Bool)
  | isRevoked (a : Activation D)
  | currentStage (a : Activation D)
  | currentActive (strategyId reason commandId source : String) (now : Int)
  | recording (r : CanaryRecording) (next : Next D)
  | writing (row : AuthorityLedgerEntry) (next : Next D)
  | load (args : TransitionArgs D) (next : Next D)
  | persist (next : Next D)
  | allocationRevoked (a : Activation D)
  | searching (goal : Goal D) (now : Int) (rest : List String)
  | allocating (r : AllocationRecording) (rest : List AllocationRecording) (result : Returned)
  | allocationWriting (row : AuthorityRecord) (rest : List AllocationRecording) (result : Returned)

structure Task (D : Type) where
  canaryMark : Nat
  allocationMark : Nat
  phase : Phase D

structure Services (D : Type) where
  stage : World D
  canary : List AuthorityLedgerEntry
  allocation : Ledger
  tasks : Nat → Option (Task D)
  returned : List Returned

inductive Act (D : Type) where
  | begin (i : Nat) (call : Call D)
  /-- The next step; a transaction fails when `commits` is false. -/
  | next (i : Nat) (receivedTs : Int) (commits : Bool)
  /-- The call raises, or its thread or the process dies. -/
  | die (i : Nat)

/-! ## Transitions of the services -/

def Activation.authorizeArgs (C : Config) (a : Activation D) : TransitionArgs D where
  strategyId := (C.canary a.digest).strategyId
  toStage := "CANARY_AUTHORIZED"
  reason := a.reason
  actor := a.source
  now := a.now
  projected := a.projected
  evidenceWindow := none
  authorityRef := some a.digest
  authorityExpiry := some (C.canary a.digest).expiresAt
  evidenceDigest := none

def Activation.activateArgs (C : Config) (a : Activation D) : TransitionArgs D where
  strategyId := (C.canary a.digest).strategyId
  toStage := "CANARY_ACTIVE"
  reason := a.reason
  actor := a.source
  now := a.now
  projected := none
  evidenceWindow := none
  authorityRef := some a.digest
  authorityExpiry := some (C.canary a.digest).expiresAt
  evidenceDigest := none

def suspendArgs (strategyId reason source : String) (now : Int) : TransitionArgs D where
  strategyId := strategyId
  toStage := "CANARY_SUSPENDED"
  reason := reason
  actor := source
  now := now
  projected := none
  evidenceWindow := none
  authorityRef := none
  authorityExpiry := none
  evidenceDigest := none

/-! ## Steps -/

/-- The first phase of a call; `none` when it raises. -/
def Call.begin (canary : List AuthorityLedgerEntry) (l : Ledger) : Call D → Option (Phase D)
  | .activateCanary a passes =>
    if strip a.reason = "" ∨ a.source ≠ REQUIRED_ACTIVATION_SOURCE ∨ passes = false then none
    else some (.revokedDigests { a with reason := strip a.reason } (everRevoked canary) false)
  | .deactivateCanary strategyId reason commandId source now =>
    if strip reason = "" ∨ strategyId = "" then none
    else some (.currentActive strategyId (strip reason) commandId source now)
  | .activateAllocation a passes =>
    if strip a.reason = "" ∨ a.source ≠ REQUIRED_ACTIVATION_SOURCE ∨ passes = false then none
    else some (.allocationRevoked { a with reason := strip a.reason })
  | .suspendAllocation accountId reason commandId source now =>
    if strip reason = "" ∨ source ≠ REQUIRED_ACTIVATION_SOURCE ∨ accountId = "" then none
    else some (.searching (.suspend commandId (strip reason)) now (candidatesForAccount l accountId))
  | .recordCanary r => some (.recording r .recorded)
  | .recordAllocation r => some (.allocating r [] .recorded)
  | .applyOverride accountId artifactDigest newStage newMaxGross reason now =>
    if strip reason = "" then none
    else some (.searching (.override newStage newMaxGross (strip reason)) now (l.candidates accountId artifactDigest))
  | .activeFor accountId artifactDigest now => some (.searching .active now (l.candidates accountId artifactDigest))
  | .activeForAccount accountId now => some (.searching .active now (candidatesForAccount l accountId))
  | .authorityForDispatch accountId artifactDigest now =>
    some (.searching .dispatch now (l.candidates accountId artifactDigest))
  | .transition args =>
    -- only the canary service asks for these stages
    if args.toStage = "CANARY_AUTHORIZED" ∨ args.toStage = "CANARY_ACTIVE" then none
    else some (.load args .recorded)

def Goal.includeSuspended : Goal D → Bool
  | .dispatch => true
  | _ => false

namespace Services

omit [DecidableEq D] in
def start : Services D := ⟨World.start, [], ⟨[], List.Pairwise.nil, by simp⟩, fun _ => none, []⟩

def goOn (s : Services D) (i : Nat) (t : Task D) (p : Phase D) : Services D :=
  { s with tasks := Function.update s.tasks i (some { t with phase := p }) }

def raise (s : Services D) (i : Nat) : Services D := { s with tasks := Function.update s.tasks i none }

def finish (s : Services D) (i : Nat) (r : Returned) : Services D :=
  { s with tasks := Function.update s.tasks i none, returned := s.returned ++ [r] }

/-- After a row of the canary ledger, or a transition that wrote `record`. -/
def resume (C : Config) (s : Services D) (i : Nat) (t : Task D) (record : Option StageRecord) : Next D → Services D
  | .authorize a fromStage =>
    if fromStage = .PAPER_PASSED ∨ fromStage = .CANARY_SUSPENDED then
      s.goOn i t (.load (a.authorizeArgs C) (.activate a))
    else s.goOn i t (.load (a.activateArgs C) (.recordActivated a))
  | .activate a => s.goOn i t (.load (a.activateArgs C) (.recordActivated a))
  | .recordActivated a => s.goOn i t (.recording (.activated a.digest a.commandId) (.activated a))
  | .activated a => s.finish i (.canaryActivated t.canaryMark a.digest)
  | .recordDeactivated commandId reason =>
    match record.bind (·.authorityRef) with
    | none => s.finish i (.canaryDeactivated none)
    | some digest => s.goOn i t (.recording (.deactivated digest commandId reason) (.deactivated digest))
  | .deactivated digest => s.finish i (.canaryDeactivated (some digest))
  | .recorded => s.finish i .recorded

/-- The `record_*` calls that are left of a call on the allocation ledger. -/
def allocate (s : Services D) (i : Nat) (t : Task D) (result : Returned) : List AllocationRecording → Services D
  | [] => s.finish i result
  | r :: rest => s.goOn i t (.allocating r rest result)

/-- The records of an activation, given what `active_for` returned. -/
def activationRecords (a : Activation D) (prior : Option AuthorityRecord) : List AllocationRecording :=
  let supersede : List AllocationRecording :=
    match prior with
    | some prior =>
      if prior.authorityDigest = a.digest then [] else [.superseded prior.authorityDigest a.digest a.reason]
    | none => []
  supersede ++ [.issued a.digest a.reason, .activated a.digest a.commandId]

/-- A search ends without an authority. -/
def exhausted (s : Services D) (i : Nat) (t : Task D) : Goal D → Services D
  | .activate a => s.allocate i t (.allocationActivated t.allocationMark a.digest) (activationRecords a none)
  | _ => s.raise i

/-- A search returns an authority. -/
def found (s : Services D) (i : Nat) (t : Task D) (base : AuthorityRecord) : Goal D → Services D
  | .activate a => s.allocate i t (.allocationActivated t.allocationMark a.digest) (activationRecords a (some base))
  | .suspend commandId reason =>
    s.goOn i t (.allocating (.deactivated base.authorityDigest commandId reason) [] (.allocationSuspended base.authorityDigest))
  | .override newStage newMaxGross reason =>
    match validateOverrideReduction base newStage newMaxGross with
    | .ok _ => s.goOn i t (.allocationWriting (overrideRow base newStage newMaxGross reason) [] .recorded)
    | .error _ => s.raise i
  | .active => s.raise i
  | .dispatch => s.raise i

def look (s : Services D) (i : Nat) (t : Task D) (goal : Goal D) (now : Int) (digest : String) (rest : List String) :
    Services D :=
  match (s.allocation.latest digest).bind (judge goal.includeSuspended now) with
  | none => s.goOn i t (.searching goal now rest)
  | some base =>
    { s with returned := s.returned ++ [Returned.found s.allocation.rows.length base.authorityDigest] }.found i t base goal

/-- A transition reads the row of its strategy. -/
def loadStage (C : Config) (s : Services D) (i : Nat) (t : Task D) (args : TransitionArgs D) (next : Next D) : Services D :=
  let s' := { s with stage := s.stage.step C.isoformat (.load i args) }
  if (s'.stage.calls i).isSome then s'.goOn i t (.persist next) else s'.raise i

/-- The transaction of a transition. -/
def persistStage (C : Config) (s : Services D) (i : Nat) (t : Task D) (next : Next D) (receivedTs : Int) (commits : Bool) :
    Services D :=
  let s' := { s with stage := s.stage.step C.isoformat (.persist i receivedTs commits) }
  match s.stage.calls i with
  | none => s'.raise i
  | some c =>
    match (Promotion.persist C.isoformat s.stage.db c.record receivedTs commits).1 with
    | .ok _ => s'.resume C i t (some c.record) next
    | .error _ => s'.raise i

/-- The next step of a call. -/
def next (C : Config) (s : Services D) (i : Nat) (t : Task D) (receivedTs : Int) (commits : Bool) : Services D :=
  match t.phase with
  | .revokedDigests a [] revoked => if revoked then s.raise i else s.goOn i t (.isRevoked a)
  | .revokedDigests a (digest :: rest) revoked =>
    s.goOn i t (.revokedDigests a rest (revoked || (digest == a.digest && isRevoked s.canary digest)))
  | .isRevoked a => if isRevoked s.canary a.digest then s.raise i else s.goOn i t (.currentStage a)
  | .currentStage a =>
    match (s.stage.current (C.canary a.digest).strategyId).map StageRecord.stage with
    | some .PAPER_PASSED => s.goOn i t (.recording (.issued a.digest a.reason) (.authorize a .PAPER_PASSED))
    | some .CANARY_SUSPENDED => s.goOn i t (.recording (.issued a.digest a.reason) (.authorize a .CANARY_SUSPENDED))
    | some .CANARY_AUTHORIZED => s.goOn i t (.recording (.issued a.digest a.reason) (.authorize a .CANARY_AUTHORIZED))
    | _ => s.raise i
  | .currentActive strategyId reason commandId source now =>
    if (s.stage.current strategyId).map StageRecord.stage = some .CANARY_ACTIVE then
      s.goOn i t (.load (suspendArgs strategyId reason source now) (.recordDeactivated commandId reason))
    else s.raise i
  | .recording r next =>
    match r.read C s.canary with
    | .raises => s.raise i
    | .nothing => s.resume C i t none next
    | .appends row => s.goOn i t (.writing row next)
  | .writing row next =>
    if commits then { s with canary := s.canary ++ [row] }.resume C i t none next else s.raise i
  | .load args next => s.loadStage C i t args next
  | .persist next => s.persistStage C i t next receivedTs commits
  | .allocationRevoked a =>
    if Live.allocationRevoked s.allocation a.digest then s.raise i
    else
      s.goOn i t (.searching (.activate a) a.now
        (s.allocation.candidates (C.allocation a.digest).accountId (C.allocation a.digest).artifactDigest))
  | .searching goal _ [] => s.exhausted i t goal
  | .searching goal now (digest :: rest) => s.look i t goal now digest rest
  | .allocating r rest result =>
    match r.read C s.allocation with
    | .raises => s.raise i
    | .nothing => s.allocate i t result rest
    | .appends row => s.goOn i t (.allocationWriting row rest result)
  | .allocationWriting row rest result =>
    if commits then { s with allocation := s.allocation.append row }.allocate i t result rest else s.raise i

def step (C : Config) (s : Services D) : Act D → Services D
  | .begin i call =>
    match s.tasks i, call.begin s.canary s.allocation with
    | none, some p => s.goOn i ⟨s.canary.length, s.allocation.rows.length, p⟩ p
    | _, _ => s
  | .next i receivedTs commits =>
    match s.tasks i with
    | none => s
    | some t => s.next C i t receivedTs commits
  | .die i => { s with stage := s.stage.step C.isoformat (.die i) }.raise i

end Services

end MmrTrader.Promotion.Live
