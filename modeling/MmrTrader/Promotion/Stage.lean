import Mathlib.Algebra.Order.Ring.Rat
import MmrTrader.Command.Ledger

/-!
# The paper evidence gate

Executable model of `EvidenceWindow` (`trader/promotion/evidence_store.py`) and of `PaperGate.evaluate`
(`trader/promotion/paper_gate.py`).

* `EvidenceWindow`, `isClean` — a projection of the evidence store; `D` is the type of an incident's payload.
* `windowMatchesProjection` — the fields a caller's window is compared on.

Calendar days are day numbers, instants are microseconds in UTC, amounts are exact.
-/

set_option autoImplicit false

namespace MmrTrader.Promotion

/-- What the gate reads of a round trip: `pnl_after_cost` when it is a decimal, and the instrument id or conid. -/
structure RoundTrip where
  pnlAfterCost : Option ℚ
  instrumentKey : Option String
  deriving DecidableEq

structure EvidenceWindow (D : Type) where
  strategyId : String
  asOf : Int
  windowResetAt : Option Int
  firstEventAt : Option Int
  lastEventAt : Option Int
  /-- The days of the sessions, sorted. -/
  calendarDays : List Int
  sessionIds : List String
  roundTripIds : List String
  instrumentIds : List String
  corrections : List D
  breakerTrips : List D
  costBreaches : List D
  drawdownBreaches : List D
  stale : Bool
  eventCount : Nat
  divergences : List D
  duplicates : List D
  unresolvedAlerts : List D
  missedFlats : List D
  replayMismatches : List D
  roundTripRecords : List RoundTrip
  deriving DecidableEq

variable {D : Type}

namespace EvidenceWindow

def elapsedCalendarDays (w : EvidenceWindow D) : Int :=
  match w.calendarDays.head?, w.calendarDays.getLast? with
  | some first, some last => last - first + 1
  | _, _ => 0

def isClean (w : EvidenceWindow D) : Bool :=
  !w.stale && w.breakerTrips.isEmpty && w.costBreaches.isEmpty && w.drawdownBreaches.isEmpty

end EvidenceWindow

/-- `_window_matches_projection`: every field of `_WINDOW_COMPARISON_FIELDS` is the same. -/
def windowMatchesProjection [DecidableEq D] (window projected : EvidenceWindow D) : Bool :=
  window.strategyId == projected.strategyId &&
  window.windowResetAt == projected.windowResetAt &&
  window.firstEventAt == projected.firstEventAt &&
  window.lastEventAt == projected.lastEventAt &&
  window.calendarDays == projected.calendarDays &&
  window.sessionIds == projected.sessionIds &&
  window.roundTripIds == projected.roundTripIds &&
  window.instrumentIds == projected.instrumentIds &&
  window.corrections == projected.corrections &&
  window.breakerTrips == projected.breakerTrips &&
  window.costBreaches == projected.costBreaches &&
  window.drawdownBreaches == projected.drawdownBreaches &&
  window.stale == projected.stale &&
  window.eventCount == projected.eventCount

/-! ## The gate -/

def FLOOR_CALENDAR_DAYS : Int := 30

def FLOOR_SESSIONS : Int := 20

def FLOOR_ROUND_TRIPS : Int := 50

def FLOOR_INSTRUMENTS : Int := 5

def MAX_INSTRUMENT_CONCENTRATION : ℚ := 2 / 5

structure FloorStatus where
  name : String
  required : Int
  observed : Int
  deriving DecidableEq

def FloorStatus.met (f : FloorStatus) : Bool := decide (f.required ≤ f.observed)

def floors (w : EvidenceWindow D) : List FloorStatus :=
  [⟨"calendar_days", FLOOR_CALENDAR_DAYS, w.elapsedCalendarDays⟩, ⟨"sessions", FLOOR_SESSIONS, w.sessionIds.length⟩,
    ⟨"round_trips", FLOOR_ROUND_TRIPS, w.roundTripIds.length⟩, ⟨"instruments", FLOOR_INSTRUMENTS, w.instrumentIds.length⟩]

def maxConcentration (records : List RoundTrip) : Option ℚ :=
  let keys := records.filterMap (·.instrumentKey)
  match (keys.map fun key => keys.count key).max? with
  | some largest => some (largest / keys.length)
  | none => none

/-- `_expectancy_and_concentration`: its blockers. -/
def economicBlockers (records : List RoundTrip) (maximum : ℚ) : List String :=
  let pnls := records.filterMap (·.pnlAfterCost)
  let economic :=
    if records ≠ [] ∧ pnls = [] then ["missing_economic_evidence"]
    else if pnls ≠ [] ∧ pnls.foldl (· + ·) (0 : ℚ) / pnls.length ≤ 0 then ["negative_expectancy"]
    else []
  let diversification :=
    match maxConcentration records with
    | none => if records ≠ [] then ["missing_instrument_evidence"] else []
    | some observed => if maximum < observed then ["concentration"] else []
  economic ++ diversification

def blockers (w : EvidenceWindow D) : List String :=
  let incident (present : Bool) (name : String) : List String := if present then [name] else []
  incident w.stale "stale_evidence" ++
  incident (!w.breakerTrips.isEmpty) "breaker_trip" ++
  incident (!w.drawdownBreaches.isEmpty) "drawdown_breach" ++
  incident (!w.costBreaches.isEmpty) "stressed_cost_breach" ++
  incident (!w.divergences.isEmpty) "divergence" ++
  incident (!w.duplicates.isEmpty) "duplicate" ++
  incident (!w.unresolvedAlerts.isEmpty) "unresolved_alert" ++
  incident (!w.missedFlats.isEmpty) "missed_flat" ++
  incident (!w.replayMismatches.isEmpty) "replay_mismatch" ++
  economicBlockers w.roundTripRecords MAX_INSTRUMENT_CONCENTRATION

/-- What `_require_clean_evidence` reads of a `PromotionDecision`. -/
structure PromotionDecision where
  passed : Bool
  floors : List FloorStatus
  blockers : List String
  deriving DecidableEq

def PaperGate.evaluate (w : EvidenceWindow D) : PromotionDecision :=
  let floorsMet := (Promotion.floors w).all (·.met)
  ⟨floorsMet && (Promotion.blockers w).isEmpty, Promotion.floors w, Promotion.blockers w⟩

end MmrTrader.Promotion

/-!
## The promotion stages

Executable model of `trader/promotion/stage.py` over the domain journal.

* `TransitionArgs`, `transitionRecord` — a call of `transition`: the record that it persists after the row it read.
* `persist` — the journal transaction: the row is deleted and inserted, and the event's id names the revision.
* `World`, `Act`, `step` — calls that interleave: each reads the row before its own transaction.

What `evidence_store.project` returns to the call is one of its arguments.  Instants are microseconds in UTC, and
`isoformat` is a parameter.
-/

namespace MmrTrader.Promotion

open Lib Journal
open Command (Json)

inductive Stage where
  | PAPER_COLLECTING
  | PAPER_FAILED
  | PAPER_PASSED
  | CANARY_AUTHORIZED
  | CANARY_ACTIVE
  | CANARY_SUSPENDED
  | CANARY_PASSED
  deriving DecidableEq

def Stage.text : Stage → String
  | .PAPER_COLLECTING => "PAPER_COLLECTING"
  | .PAPER_FAILED => "PAPER_FAILED"
  | .PAPER_PASSED => "PAPER_PASSED"
  | .CANARY_AUTHORIZED => "CANARY_AUTHORIZED"
  | .CANARY_ACTIVE => "CANARY_ACTIVE"
  | .CANARY_SUSPENDED => "CANARY_SUSPENDED"
  | .CANARY_PASSED => "CANARY_PASSED"

def STAGES : List Stage :=
  [.PAPER_COLLECTING, .PAPER_FAILED, .PAPER_PASSED, .CANARY_AUTHORIZED, .CANARY_ACTIVE, .CANARY_SUSPENDED,
    .CANARY_PASSED]

def Stage.ofText? (text : String) : Option Stage := STAGES.find? fun s => s.text = text

def allowedEdges : Option Stage → List Stage
  | none => [.PAPER_COLLECTING]
  | some .PAPER_COLLECTING => [.PAPER_FAILED, .PAPER_PASSED]
  | some .PAPER_FAILED => [.PAPER_COLLECTING]
  | some .PAPER_PASSED => [.CANARY_AUTHORIZED]
  | some .CANARY_AUTHORIZED => [.CANARY_ACTIVE, .PAPER_PASSED]
  | some .CANARY_ACTIVE => [.CANARY_SUSPENDED, .CANARY_PASSED]
  | some .CANARY_SUSPENDED => [.CANARY_AUTHORIZED]
  | some .CANARY_PASSED => []

def REQUIRES_CLEAN_EVIDENCE : List Stage := [.PAPER_PASSED, .CANARY_AUTHORIZED, .CANARY_PASSED]

structure StageRecord where
  strategyId : String
  stage : Stage
  priorStage : Option Stage
  reason : String
  actor : String
  authorityRef : Option String
  authorityExpiry : Option Int
  evidenceDigest : Option String
  revision : Nat
  updatedAt : Int
  deriving DecidableEq

/-- `strategy_promotion_state`. -/
abbrev StageRows := Table StageRecord.strategyId

/-! ## A call -/

structure TransitionArgs (D : Type) where
  strategyId : String
  toStage : String
  reason : String
  actor : String
  /-- The argument, or the reading of the clock. -/
  now : Int
  /-- What the evidence store projects for the strategy; `none` without a store. -/
  projected : Option (EvidenceWindow D)
  evidenceWindow : Option (EvidenceWindow D)
  authorityRef : Option String
  authorityExpiry : Option Int
  evidenceDigest : Option String
  deriving DecidableEq

inductive TransitionError where
  | unknownStage
  | reasonRequired
  | actorRequired
  | illegalStageTransition (fromStage : Option Stage) (toStage : Stage)
  | evidenceNotClean (reasons : List String)
  | authorityRequired
  | authorityMismatch
  | authorityExpired (expiry now : Int)
  | eventIdentityConflict
  | storage
  deriving DecidableEq

variable {D : Type} [DecidableEq D]

/-- The reasons of `_require_clean_evidence`, before duplicates are dropped. -/
def evidenceReasons (toStage : Stage) (projected evidenceWindow : Option (EvidenceWindow D)) : List String :=
  match projected with
  | none => ["missing_evidence_store"]
  | some projected =>
    let reason (present : Bool) (name : String) : List String := if present then [name] else []
    let gate : List String :=
      if toStage = .PAPER_PASSED then
        let decision := PaperGate.evaluate projected
        if decision.passed then []
        else ((decision.floors.filter fun f => !f.met).map fun f => "floor_" ++ f.name) ++ decision.blockers
      else []
    reason (evidenceWindow.any fun window => !windowMatchesProjection window projected) "evidence_window_mismatch" ++
    reason projected.stale "stale_evidence" ++
    reason (!projected.breakerTrips.isEmpty) "breaker_trip" ++
    reason (!projected.costBreaches.isEmpty) "cost_breach" ++
    reason (!projected.drawdownBreaches.isEmpty) "drawdown_breach" ++
    gate

/-- `_require_clean_evidence`, for the stages that need it. -/
def requireCleanEvidence (toStage : Stage) (projected evidenceWindow : Option (EvidenceWindow D)) :
    Except TransitionError Unit :=
  if toStage ∈ REQUIRES_CLEAN_EVIDENCE then
    match evidenceReasons toStage projected evidenceWindow with
    | [] => .ok ()
    | reasons => .error (.evidenceNotClean reasons.eraseDups)
  else .ok ()

def recordAuthority (authorityRef : Option String) (authorityExpiry : Option Int) :
    Except TransitionError (Option String × Option Int) :=
  match authorityRef, authorityExpiry with
  | some ref, some expiry => .ok (some ref, some expiry)
  | _, _ => .error .authorityRequired

def verifyAuthorityForActivation (current : Option StageRecord) (authorityRef : Option String)
    (authorityExpiry : Option Int) (now : Int) : Except TransitionError (Option String × Option Int) :=
  match current.bind (·.authorityRef), current.bind (·.authorityExpiry), authorityRef, authorityExpiry with
  | some storedRef, some storedExpiry, some ref, some expiry =>
    if ref ≠ storedRef ∨ expiry ≠ storedExpiry then .error .authorityMismatch
    else if storedExpiry ≤ now then .error (.authorityExpired storedExpiry now)
    else .ok (some storedRef, some storedExpiry)
  | _, _, _, _ => .error .authorityRequired

def nextAuthority (args : TransitionArgs D) (current : Option StageRecord) :
    Stage → Except TransitionError (Option String × Option Int)
  | .CANARY_AUTHORIZED => recordAuthority args.authorityRef args.authorityExpiry
  | .CANARY_ACTIVE => verifyAuthorityForActivation current args.authorityRef args.authorityExpiry args.now
  | .PAPER_COLLECTING | .PAPER_FAILED | .PAPER_PASSED => .ok (none, none)
  | .CANARY_SUSPENDED | .CANARY_PASSED => .ok (current.bind (·.authorityRef), current.bind (·.authorityExpiry))

/-- `transition`, up to `_persist`. -/
def transitionRecord (args : TransitionArgs D) (current : Option StageRecord) : Except TransitionError StageRecord := do
  match Stage.ofText? args.toStage with
  | none => .error .unknownStage
  | some toStage =>
    if args.reason = "" then .error .reasonRequired
    else if args.actor = "" then .error .actorRequired
    else
      let fromStage := current.map (·.stage)
      if toStage ∉ allowedEdges fromStage then .error (.illegalStageTransition fromStage toStage)
      else
        requireCleanEvidence toStage args.projected args.evidenceWindow
        let authority ← nextAuthority args current toStage
        .ok
          { strategyId := args.strategyId
            stage := toStage
            priorStage := fromStage
            reason := args.reason
            actor := args.actor
            authorityRef := authority.1
            authorityExpiry := authority.2
            evidenceDigest := args.evidenceDigest
            revision := (current.map (·.revision)).getD 0 + 1
            updatedAt := args.now }

/-! ## The transaction -/

abbrev StageDb := JournalState Json StageRows

def StageRecord.toPayload (isoformat : Int → String) (r : StageRecord) : Payload Json :=
  [("strategy_id", .text r.strategyId), ("stage", .text r.stage.text), ("prior_stage", .ofText (r.priorStage.map Stage.text)),
    ("reason", .text r.reason), ("actor", .text r.actor), ("authority_ref", .ofText r.authorityRef),
    ("authority_expiry", .ofText (r.authorityExpiry.map isoformat)), ("evidence_digest", .ofText r.evidenceDigest),
    ("revision", .ofInt r.revision), ("updated_at", .text (isoformat r.updatedAt))]

def StageRecord.mutation (isoformat : Int → String) (r : StageRecord) : DomainMutation Json where
  eventType := "promotion.stage_transitioned"
  entityType := "strategy_promotion_state"
  entityId := r.strategyId
  operation := .upsert
  accountId := none
  source := "trader_service"
  sourceTimestamp := r.updatedAt
  correlationId := some r.strategyId
  payload := some (r.toPayload isoformat)
  payload_iff_upsert := rfl

/-- `promo-stage:{strategy_id}:{revision}`. -/
def StageRecord.eventId (r : StageRecord) : String :=
  "promo-stage:" ++ r.strategyId ++ ":" ++ String.ofList (Nat.toDigits 10 r.revision)

/-- `save_in_tx`: `DELETE`, then `INSERT`. -/
def saveInTx (rows : StageRows) (r : StageRecord) : Except TransitionError StageRows :=
  match (rows.deleteWhere fun s => s.strategyId = r.strategyId).insert? r with
  | some rows => .ok rows
  | none => .error .storage

/-- `_persist`; `commits` is false when the transaction fails for another reason. -/
def persist (isoformat : Int → String) (db : StageDb) (r : StageRecord) (receivedTs : Int) (commits : Bool) :
    Except (JournalError TransitionError) (List (DomainEvent Json)) × StageDb :=
  mutate db (r.mutation isoformat) (fun t _ => if commits then saveInTx t.own r else .error .storage) r.eventId receivedTs

/-! ## Calls that interleave -/

/-- A transition that was committed: the call, the row it started from and the row it wrote. -/
structure Commit (D : Type) where
  args : TransitionArgs D
  current : Option StageRecord
  record : StageRecord
  deriving DecidableEq

inductive Outcome where
  | returned (record : StageRecord)
  | raised (error : TransitionError)
  deriving DecidableEq

structure World (D : Type) where
  db : StageDb
  /-- Calls that have read the row and made their record. -/
  calls : Nat → Option (Commit D)
  outcomes : List (Nat × Outcome)
  /-- Every committed transition; a ghost. -/
  committed : List (Commit D)

inductive Act (D : Type) where
  /-- The call reads the row and checks its arguments. -/
  | load (call : Nat) (args : TransitionArgs D)
  /-- Its transaction. -/
  | persist (call : Nat) (receivedTs : Int) (commits : Bool)
  /-- The thread or the process dies. -/
  | die (call : Nat)

def journalError : JournalError TransitionError → TransitionError
  | .eventIdentityConflict _ => .eventIdentityConflict
  | .constraint => .storage
  | .producer e => e

namespace World

omit [DecidableEq D] in
def start : World D := ⟨JournalState.empty Table.empty, fun _ => none, [], []⟩

def current (w : World D) (strategyId : String) : Option StageRecord := w.db.tables.own.get? strategyId

def setCall (w : World D) (call : Nat) (c : Option (Commit D)) : World D :=
  { w with calls := Function.update w.calls call c }

def finish (w : World D) (call : Nat) (outcome : Outcome) : World D :=
  { w with calls := Function.update w.calls call none, outcomes := w.outcomes ++ [(call, outcome)] }

/-- The transaction wrote the row: its event was not in the journal. -/
def writes (w : World D) (r : StageRecord) : Bool := (selectJournalRow w.db.tables.journal r.eventId).isNone

def step (isoformat : Int → String) (w : World D) : Act D → World D
  | .load call args =>
    match transitionRecord args (w.current args.strategyId) with
    | .ok record => w.setCall call (some ⟨args, w.current args.strategyId, record⟩)
    | .error e => w.finish call (.raised e)
  | .persist call receivedTs commits =>
    match w.calls call with
    | none => w
    | some c =>
      match persist isoformat w.db c.record receivedTs commits with
      | (.ok _, db) =>
        { w.finish call (.returned c.record) with
          db := db
          committed := if w.writes c.record then w.committed ++ [c] else w.committed }
      | (.error e, db) => { w.finish call (.raised (journalError e)) with db := db }
  | .die call => w.setCall call none

end World

end MmrTrader.Promotion
