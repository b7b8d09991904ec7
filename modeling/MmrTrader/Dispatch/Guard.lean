import MmrTrader.Dispatch.Allocation
import MmrTrader.Lib.Table

/-!
# The dispatch guard

Executable model of `trader/trading/dispatch_guard.py`: the last checks before an entry is sent.

* `unseenInFlightNotional` — the part of the committed entries that the snapshot does not show yet;
* `recheckAllocation` — the gross re-check;
* `revalidate` — all the checks in order; a refusal is its error code;
* `revalidate_entry` — an entry that passes was checked for gross against the captured snapshot.

What the guard reads from its ports at one call is a `GuardReadings`; a port that raises is `none`.
-/

set_option autoImplicit false

namespace MmrTrader.Dispatch

open MmrTrader.Saga (Side Leg OrderStatus)
open MmrTrader.Lib (bind_ok)

structure InFlightEntry where
  orderGroupId : String
  conid : Int
  unfilledQuantity : ℚ
  filledQuantity : ℚ
  limitPrice : ℚ
  filledAt : Option Int
  baselinePosition : Option ℚ
  deriving DecidableEq

structure AllocationDispatchEvidence where
  artifactDigest : String
  artifactMaxGross : ℚ
  authorityDigest : Option String
  effectiveGrossCeiling : ℚ
  entryLimitPrice : ℚ
  inFlightEntries : List InFlightEntry
  deriving DecidableEq

inductive RiskDirection where
  | INCREASING
  | REDUCING
  deriving DecidableEq

/-- `ApprovalContext`: the fields the guard reads. -/
structure ApprovalContext where
  conid : Int
  side : Side
  quantity : ℚ
  referencePrice : ℚ
  maxDriftBps : ℚ
  riskDirection : RiskDirection
  broker : BrokerRiskSnapshot
  allocation : Option AllocationDispatchEvidence
  deriving DecidableEq

structure Quote where
  conid : Int
  side : String
  price : ℚ
  bid : Option ℚ
  ask : Option ℚ
  bidSize : Option ℚ
  askSize : Option ℚ
  acceptedFeed : Bool
  continuous : Bool
  marketTimestamp : Option Int
  deriving DecidableEq

/-- The answer of the margin what-if. -/
inductive WhatIf where
  | unavailable
  | invalid
  | valid (leverageApproved : Bool)
  deriving DecidableEq

/-- The guard's fixed wiring; `live` is none on a paper account. -/
structure GuardConfig where
  accountId : String
  accountMode : AccountMode
  liveEnabled : Bool
  liveAccountId : Option String
  maxDriftBps : ℚ
  maxOrderNotional : Option ℚ

/-- The request's action, as far as the guard tells actions apart. -/
structure GuardRequest where
  accountId : String
  automated : Bool
  strictMargin : Bool
  deriving DecidableEq

/-- What the ports answer at one call.  The outer `none` of a gate is an exception. -/
structure GuardReadings where
  experimentGate : Option (Option String)
  capture : Except String BrokerRiskSnapshot
  quote : Option Quote
  unpaused : Bool
  whatIf : WhatIf
  riskLimitsGross : Option ℚ
  authority : Option (Option AllocationAuthority)
  entryLimits : Option String
  aiEntryGate : Option (Option String)

/-- Quote ages in seconds: `MAX_QUOTE_AGE_SECONDS`. -/
def MAX_QUOTE_AGE_SECONDS : Int := 5

def MAX_SOURCE_CLOCK_SKEW_SECONDS : Int := 30

def MAX_SPREAD_BPS : ℚ := 15

/-! ## The reservation of entries the snapshot does not show -/

def brokerCountedEntryQuantity (entry : InFlightEntry) (snapshot : BrokerRiskSnapshot) : ℚ :=
  ((snapshot.workingOrders.filter fun row =>
    !row.deleted && row.orderGroupId == some entry.orderGroupId && row.leg == some .entry &&
      row.action == .BUY).map (·.remaining)).sum

def enumeratedAfterFill (entry : InFlightEntry) (snapshot : BrokerRiskSnapshot) : Bool :=
  match snapshot.generationStartedAt, entry.filledAt with
  | some startedAt, some filledAt => decide (filledAt < startedAt)
  | _, _ => false

/-- The groups proven so far, and the shares of growth they claim, by conid. -/
structure ProvenFills where
  groups : List String
  claimed : Int → ℚ

def ProvenFills.add (p : ProvenFills) (entry : InFlightEntry) : ProvenFills :=
  { groups := entry.orderGroupId :: p.groups
    claimed := Function.update p.claimed entry.conid (p.claimed entry.conid + entry.filledQuantity) }

/-- The first loop of `_fills_in_snapshot`. -/
def proveByEnumeration (snapshot : BrokerRiskSnapshot) (p : ProvenFills) (entry : InFlightEntry) : ProvenFills :=
  if enumeratedAfterFill entry snapshot then p.add entry else p

/-- The second loop: the position grew by the fill from the quantity at send time. -/
def proveByGrowth (snapshot : BrokerRiskSnapshot) (p : ProvenFills) (entry : InFlightEntry) : ProvenFills :=
  match entry.baselinePosition with
  | some baseline =>
      if snapshot.reducibleQuantity entry.conid - baseline - p.claimed entry.conid ≥ entry.filledQuantity then
        p.add entry
      else p
  | none => p

def fillsInSnapshot (entries : List InFlightEntry) (snapshot : BrokerRiskSnapshot) : List String :=
  let filled := entries.filter fun entry => decide (0 < entry.filledQuantity)
  let proven := filled.foldl (proveByEnumeration snapshot) ⟨[], fun _ => 0⟩
  let byBaseline := (filled.filter fun entry =>
    !proven.groups.contains entry.orderGroupId && entry.baselinePosition.isSome).insertionSort
      fun a b => a.baselinePosition.getD 0 ≤ b.baselinePosition.getD 0
  (byBaseline.foldl (proveByGrowth snapshot) proven).groups

def unseenQuantity (entry : InFlightEntry) (provenFills : List String) (snapshot : BrokerRiskSnapshot) : ℚ :=
  max 0 (entry.unfilledQuantity - brokerCountedEntryQuantity entry snapshot) +
    (if provenFills.contains entry.orderGroupId then 0 else entry.filledQuantity)

def unseenInFlightNotional (entries : List InFlightEntry) (snapshot : BrokerRiskSnapshot) : ℚ :=
  (entries.map fun entry => unseenQuantity entry (fillsInSnapshot entries snapshot) snapshot * entry.limitPrice).sum

/-! ## The checks -/

/-- `raise DispatchGuardError(code)` under a condition. -/
def refuseIf (c : Prop) [Decidable c] (code : String) : Except String Unit :=
  if c then .error code else .ok ()

/-- The code a gate refuses with; `unavailable` when it raises. -/
def runGate (gate : Option (Option String)) (unavailable : String) : Except String Unit :=
  match gate with
  | none => .error unavailable
  | some (some code) => .error code
  | some none => .ok ()

/-- The code of a check that found something. -/
def raiseCode : Option String → Except String Unit
  | some code => .error code
  | none => .ok ()

def workingOrderFingerprint (snapshot : BrokerRiskSnapshot) : List (String × OrderStatus × ℚ × ℚ) :=
  snapshot.workingOrders.map fun row => (row.orderEntityId, row.status, row.totalQuantity, row.filledQuantity)

/-- The account, fence and fingerprint checks on the captured snapshot. -/
def checkSnapshot (cfg : GuardConfig) (approved : ApprovalContext) (current : BrokerRiskSnapshot) :
    Except String Unit := do
  refuseIf (current.accountId ≠ cfg.accountId) "ACCOUNT_MISMATCH"
  refuseIf (current.accountMode ≠ cfg.accountMode) "ACCOUNT_MODE_MISMATCH"
  refuseIf (current.generationId < approved.broker.generationId ∨
    current.sourceCursor < approved.broker.sourceCursor) "GENERATION_REGRESSION"
  refuseIf (current.reducibleQuantity approved.conid ≠ approved.broker.reducibleQuantity approved.conid ∨
    workingOrderFingerprint current ≠ workingOrderFingerprint approved.broker) "BROKER_STATE_CHANGED"

def checkReduction (approved : ApprovalContext) (current : BrokerRiskSnapshot) : Except String Unit :=
  let held := current.reducibleQuantity approved.conid
  let quantity := |approved.quantity|
  refuseIf (¬ ((approved.side = .SELL ∧ held > 0 ∧ quantity ≤ held) ∨
    (approved.side = .BUY ∧ held < 0 ∧ quantity ≤ -held))) "REDUCTION_NOT_MONOTONIC"

def checkLivePolicy (cfg : GuardConfig) : Except String Unit :=
  match cfg.accountMode with
  | .paper => .ok ()
  | .live => do
      refuseIf (cfg.liveEnabled = false) "LIVE_TRADING_DISABLED"
      refuseIf (cfg.liveAccountId ≠ some cfg.accountId) "WRONG_LIVE_ACCOUNT"

def checkSpreadAndDepth (approved : ApprovalContext) (quote : Quote) : Except String Unit :=
  match quote.bid, quote.ask with
  | some bid, some ask => do
      refuseIf ((ask - bid) / quote.price * 10000 > MAX_SPREAD_BPS) "SPREAD_BPS"
      match (if approved.side = .BUY then quote.askSize else quote.bidSize) with
      | some depth => refuseIf (depth < |approved.quantity|) "DEPTH_EXCEEDED"
      | none => .error "DEPTH_EXCEEDED"
  | _, _ => .error "EXECUTABLE_QUOTE_INVALID"

/-- Feed, session, age, spread and depth of the quote of an automated or live entry. -/
def checkExecutable (approved : ApprovalContext) (quote : Quote) (now : Int) : Except String Unit := do
  refuseIf (quote.acceptedFeed = false) "FEED_NOT_LIVE"
  refuseIf (quote.continuous = false) "SESSION_INCOMPATIBLE"
  match quote.marketTimestamp with
  | none => .error "EXECUTABLE_QUOTE_INVALID"
  | some timestamp => do
      refuseIf (now - timestamp > MAX_QUOTE_AGE_SECONDS) "QUOTE_STALE"
      refuseIf (now - timestamp < -MAX_SOURCE_CLOCK_SKEW_SECONDS) "SOURCE_CLOCK_SKEW"
      checkSpreadAndDepth approved quote

/-- Manual paper proposals may use a delayed reference; every other entry needs executable evidence. -/
def checkEntryQuote (cfg : GuardConfig) (request : GuardRequest) (approved : ApprovalContext) (quote : Quote)
    (now : Int) : Except String Unit :=
  if cfg.accountMode = .live ∨ request.automated = true then checkExecutable approved quote now else .ok ()

/-- A two-sided market must be positive and not crossed. -/
def checkBook (quote : Quote) : Except String Unit :=
  match quote.bid, quote.ask with
  | some bid, some ask => do
      refuseIf (bid ≤ 0 ∨ ask ≤ 0) "EXECUTABLE_QUOTE_INVALID"
      refuseIf (bid > ask) "CROSSED_MARKET"
  | _, _ => .ok ()

def readQuote (approved : ApprovalContext) (readings : GuardReadings) : Except String Quote :=
  let side := if approved.side = .BUY then "ask" else "bid"
  match readings.quote with
  | none => .error "EXECUTABLE_QUOTE_MISSING"
  | some quote => do
      refuseIf (quote.price ≤ 0 ∨ quote.conid ≠ approved.conid) "EXECUTABLE_QUOTE_INVALID"
      refuseIf (quote.side ≠ side) "EXECUTABLE_QUOTE_INVALID"
      checkBook quote
      return quote

def checkDrift (cfg : GuardConfig) (approved : ApprovalContext) (price : ℚ) : Except String Unit := do
  refuseIf (approved.referencePrice ≤ 0) "REFERENCE_PRICE_INVALID"
  refuseIf (cfg.accountMode ≠ .live ∧ approved.maxDriftBps ≤ 0) "PRICE_DRIFT_INVALID"
  let limit := if cfg.accountMode = .live then cfg.maxDriftBps else min cfg.maxDriftBps approved.maxDriftBps
  refuseIf (|price - approved.referencePrice| / approved.referencePrice * 10000 > limit) "PRICE_DRIFT_EXCEEDED"

def checkNotional (cfg : GuardConfig) (approved : ApprovalContext) (price : ℚ) : Except String Unit :=
  refuseIf (|approved.quantity| ≤ 0 ∨ cfg.maxOrderNotional.any (fun cap => |approved.quantity| * price > cap))
    "ORDER_NOTIONAL_LIMIT"

/-- The margin what-if: a live account and a strict action need a valid one. -/
def checkMargin (cfg : GuardConfig) (request : GuardRequest) (whatIf : WhatIf) : Except String Unit := do
  match whatIf with
  | .unavailable => do
      refuseIf (cfg.accountMode = .live) "WHAT_IF_UNAVAILABLE"
      refuseIf (request.strictMargin = true) "MARGIN_UNAVAILABLE"
  | .invalid => do
      refuseIf (cfg.accountMode = .live) "WHAT_IF_INVALID"
      refuseIf (request.strictMargin = true) "MARGIN_INVALID"
  | .valid leverageApproved => refuseIf (leverageApproved = false) "LEVERAGE_REJECTED"

/-- `_ApprovedCeilingAuthority`: the ceiling frozen at approval. -/
def approvedCeilingAuthority (accountId : String) (evidence : AllocationDispatchEvidence) : AllocationAuthority :=
  { authorityDigest := none
    accountId := accountId
    artifactDigest := evidence.artifactDigest
    maxGrossAllocation := evidence.effectiveGrossCeiling
    expiresAt := 4070908800
    stage := .CANARY }

/-- `_active_authority`, from what the lookup found. -/
def activeAuthority (cfg : GuardConfig) (accountId : String) (evidence : AllocationDispatchEvidence)
    (found : Option AllocationAuthority) : Option AllocationAuthority :=
  match found, cfg.accountMode with
  | none, .paper => some (approvedCeilingAuthority accountId evidence)
  | authority, _ => authority

/-- The arguments `_recheck_allocation` passes to the policy. -/
def dispatchCheck (cfg : GuardConfig) (approved : ApprovalContext) (evidence : AllocationDispatchEvidence)
    (current : BrokerRiskSnapshot) (price : ℚ) (found : Option AllocationAuthority) (riskLimitsGross : ℚ) :
    DispatchCheck :=
  { broker := current
    approvedBroker := approved.broker
    conid := approved.conid
    side := approved.side
    quantity := |approved.quantity|
    entryPrice := max price evidence.entryLimitPrice
    authority := activeAuthority cfg current.accountId evidence found
    artifactMaxGross := evidence.artifactMaxGross
    artifactDigest := evidence.artifactDigest
    authorityDigest := evidence.authorityDigest
    effectiveGrossCeiling := evidence.effectiveGrossCeiling
    inFlightNotional := unseenInFlightNotional evidence.inFlightEntries current
    riskLimitsGross := some riskLimitsGross }

def recheckAllocation (cfg : GuardConfig) (approved : ApprovalContext) (request : GuardRequest)
    (current : BrokerRiskSnapshot) (price : ℚ) (readings : GuardReadings) (now : Int) : Except String Unit :=
  match approved.allocation with
  | none => refuseIf (request.automated = true) "ALLOCATION_EVIDENCE_MISSING"
  | some evidence =>
      match readings.riskLimitsGross with
      | none => .error "LIMITS_UNAVAILABLE"
      | some gross =>
          match readings.authority with
          | none => .error "ALLOCATION_EVIDENCE_UNAVAILABLE"
          | some found =>
              match revalidateDispatch (dispatchCheck cfg approved evidence current price found gross) now with
              | none => .error "ALLOCATION_EVIDENCE_UNAVAILABLE"
              | some decision =>
                  if decision.approved then .ok ()
                  else .error (decision.reasonCodes.head?.getD "GROSS_EXPOSURE")

/-- The checks of new exposure, after the reductions returned. -/
def revalidateExposure (cfg : GuardConfig) (approved : ApprovalContext) (request : GuardRequest)
    (current : BrokerRiskSnapshot) (readings : GuardReadings) (now : Int) : Except String Unit := do
  checkLivePolicy cfg
  let quote ← readQuote approved readings
  checkEntryQuote cfg request approved quote now
  checkDrift cfg approved quote.price
  checkNotional cfg approved quote.price
  refuseIf (readings.unpaused = false) "TRADING_PAUSED"
  checkMargin cfg request readings.whatIf
  recheckAllocation cfg approved request current quote.price readings now
  raiseCode readings.entryLimits
  runGate readings.aiEntryGate "AI_ENTRY_GATE_UNAVAILABLE"

/-- `revalidate`; the permit's fields are not read by the saga. -/
def revalidate (cfg : GuardConfig) (approved : ApprovalContext) (request : GuardRequest)
    (readings : GuardReadings) (now : Int) : Except String Unit := do
  refuseIf (request.accountId ≠ cfg.accountId) "ACCOUNT_MISMATCH"
  runGate readings.experimentGate "EXPERIMENT_STATE_UNAVAILABLE"
  let current ← readings.capture
  checkSnapshot cfg approved current
  match approved.riskDirection with
  | .REDUCING => checkReduction approved current
  | .INCREASING => revalidateExposure cfg approved request current readings now

/-! ## What a pass means -/

variable {approved : ApprovalContext} {readings : GuardReadings}

theorem readQuote_spec {quote : Quote}
    (h : readQuote approved readings = .ok quote) : readings.quote = some quote ∧ 0 < quote.price := by
  unfold readQuote at h
  dsimp only at h
  split at h
  · cases h
  · rename_i q hq
    obtain ⟨_, hprice, h⟩ := bind_ok h
    obtain ⟨_, -, h⟩ := bind_ok h
    obtain ⟨_, -, h⟩ := bind_ok h
    cases h
    refine ⟨hq, ?_⟩
    unfold refuseIf at hprice
    split at hprice
    · cases hprice
    · rename_i hn
      push Not at hn
      exact hn.1

variable {cfg : GuardConfig} {request : GuardRequest} {now : Int}

/-- **What a passed gross re-check says.**  The evidence is there, and the policy approved it. -/
theorem recheckAllocation_spec {current : BrokerRiskSnapshot} {price : ℚ}
    (hauto : request.automated = true) (hside : approved.side = .BUY)
    (h : recheckAllocation cfg approved request current price readings now = .ok ()) :
    ∃ evidence gross found, approved.allocation = some evidence ∧ readings.riskLimitsGross = some gross ∧
      readings.authority = some found ∧
      (dispatchCheck cfg approved evidence current price found gross).Fits now := by
  unfold recheckAllocation at h
  split at h
  · simp [refuseIf, hauto] at h
  rename_i evidence hev
  split at h
  · cases h
  rename_i gross hgross
  split at h
  · cases h
  rename_i found hfound
  split at h
  · cases h
  rename_i decision hdec
  split at h
  · rename_i happ
    exact ⟨evidence, gross, found, hev, hgross, hfound, revalidateDispatch_approved hside hdec happ⟩
  · cases h

/-- **An entry that passes the guard was checked for gross** on the captured snapshot, at the quote it
    is sent against. -/
theorem revalidate_entry (hdir : approved.riskDirection = .INCREASING)
    (hauto : request.automated = true) (hside : approved.side = .BUY)
    (h : revalidate cfg approved request readings now = .ok ()) :
    ∃ current quote evidence gross found, readings.capture = .ok current ∧ readings.quote = some quote ∧
      approved.allocation = some evidence ∧ readings.riskLimitsGross = some gross ∧
      readings.authority = some found ∧
      (dispatchCheck cfg approved evidence current quote.price found gross).Fits now := by
  unfold revalidate at h
  obtain ⟨-, -, h⟩ := bind_ok h
  obtain ⟨-, -, h⟩ := bind_ok h
  obtain ⟨current, hcap, h⟩ := bind_ok h
  obtain ⟨-, -, h⟩ := bind_ok h
  rw [hdir] at h
  change revalidateExposure cfg approved request current readings now = .ok () at h
  unfold revalidateExposure at h
  obtain ⟨-, -, h⟩ := bind_ok h
  obtain ⟨quote, hquote, h⟩ := bind_ok h
  obtain ⟨-, -, h⟩ := bind_ok h
  obtain ⟨-, -, h⟩ := bind_ok h
  obtain ⟨-, -, h⟩ := bind_ok h
  obtain ⟨-, -, h⟩ := bind_ok h
  obtain ⟨-, -, h⟩ := bind_ok h
  obtain ⟨u, halloc, -⟩ := bind_ok h
  obtain ⟨evidence, gross, found, hev, hgross, hfound, hfits⟩ := recheckAllocation_spec hauto hside halloc
  exact ⟨current, quote, evidence, gross, found, hcap, (readQuote_spec hquote).1, hev, hgross, hfound, hfits⟩

end MmrTrader.Dispatch
