import MmrTrader.Saga.Model

/-!
# The gross ceiling at dispatch

Executable model of `trader/promotion/allocation_policy.py` as the dispatch guard uses it, over
exact rationals.

* `resolveEffectiveGrossCeiling` — the lowest of the ceilings that apply;
* `computeGrossNotional` — positions and unfilled BUY orders of a broker snapshot;
* `revalidateDispatch` — the re-check before a send;
* `revalidateDispatch_approved` — what an approval of it means.
-/

set_option autoImplicit false

namespace MmrTrader.Dispatch

open MmrTrader.Saga (Side Leg OrderStatus)

inductive AccountMode where
  | paper
  | live
  deriving DecidableEq

/-- `STAGE_MAX_CEILING` has the first four. -/
inductive AllocationStage where
  | CANARY
  | SCALE_1
  | SCALE_2
  | STEADY
  | other (text : String)
  deriving DecidableEq

def AllocationStage.maxCeiling : AllocationStage → Option ℚ
  | .CANARY => some (6 / 100)
  | .SCALE_1 => some (9 / 100)
  | .SCALE_2 => some (135 / 1000)
  | .STEADY => some (15 / 100)
  | .other _ => none

/-- `stage.lower()`. -/
def AllocationStage.lower : AllocationStage → String
  | .CANARY => "canary"
  | .SCALE_1 => "scale_1"
  | .SCALE_2 => "scale_2"
  | .STEADY => "steady"
  | .other text => text.toLower

def STEADY_MAX_GROSS_FRACTION : ℚ := 15 / 100

/-- The `1e-15` of every ceiling comparison. -/
def TOLERANCE : ℚ := 1 / 10 ^ 15

/-- `BrokerPositionRow`: the fields gross and the reservations read. -/
structure BrokerPositionRow where
  conid : Int
  quantity : ℚ
  marketValue : Option ℚ
  deleted : Bool
  deriving DecidableEq

/-- `BrokerOrderRow`, likewise. -/
structure BrokerOrderRow where
  orderEntityId : String
  conid : Int
  orderGroupId : Option String
  leg : Option Leg
  action : Side
  totalQuantity : ℚ
  filledQuantity : ℚ
  limitPrice : Option ℚ
  stopPrice : Option ℚ
  status : OrderStatus
  deleted : Bool
  deriving DecidableEq

structure BrokerRiskSnapshot where
  generationId : Nat
  sourceCursor : Nat
  accountId : String
  accountMode : AccountMode
  netLiquidation : ℚ
  positions : List BrokerPositionRow
  workingOrders : List BrokerOrderRow
  generationStartedAt : Option Int
  deriving DecidableEq

def BrokerRiskSnapshot.reducibleQuantity (broker : BrokerRiskSnapshot) (conid : Int) : ℚ :=
  ((broker.positions.filter (·.conid = conid)).map (·.quantity)).sum

/-- The fields `_authority_fields` reads. -/
structure AllocationAuthority where
  authorityDigest : Option String
  accountId : String
  artifactDigest : String
  maxGrossAllocation : ℚ
  expiresAt : Int
  stage : AllocationStage
  deriving DecidableEq

structure AllocationLimitCandidate where
  name : String
  maxGrossFraction : ℚ
  deriving DecidableEq

structure AllocationDecision where
  approved : Bool
  reasonCodes : List String
  effectiveGrossCeiling : ℚ
  authorityDigest : Option String
  limitCandidates : List AllocationLimitCandidate
  currentGrossFraction : ℚ
  projectedGrossFraction : Option ℚ
  brokerGenerationId : Nat
  brokerSourceCursor : Nat
  deriving DecidableEq

/-- `reasons.append(code)` under a condition. -/
def reasonIf (c : Prop) [Decidable c] (code : String) : List String := if c then [code] else []

@[simp] theorem reasonIf_eq_nil {c : Prop} [Decidable c] {code : String} : reasonIf c code = [] ↔ ¬ c := by
  unfold reasonIf
  split <;> simp_all

/-- The ceilings that apply before the authority. -/
def baseCandidates (artifactMaxGross : ℚ) (riskLimitsGross : Option ℚ) : List AllocationLimitCandidate :=
  [⟨"trader_steady_cap", STEADY_MAX_GROSS_FRACTION⟩, ⟨"artifact", artifactMaxGross⟩] ++
    (riskLimitsGross.map (⟨"risk_limits", ·⟩)).toList

/-- The ceilings of an authority: a live account also has its stage's. -/
def authorityCandidates (accountMode : AccountMode) (auth : AllocationAuthority) :
    List AllocationLimitCandidate :=
  ⟨"signed_authority", auth.maxGrossAllocation⟩ ::
    (match accountMode with
      | .live => [⟨"stage_" ++ auth.stage.lower, auth.stage.maxCeiling.getD auth.maxGrossAllocation⟩]
      | .paper => [])

def authorityReasons (accountMode : AccountMode) (authority : Option AllocationAuthority)
    (accountId artifactDigest : String) (now : Int) : List String :=
  match accountMode, authority with
  | .paper, _ => []
  | .live, none => ["ALLOCATION_AUTHORITY_ABSENT"]
  | .live, some auth =>
      reasonIf (auth.accountId ≠ accountId) "ALLOCATION_AUTHORITY_MISMATCH" ++
      reasonIf (auth.artifactDigest ≠ artifactDigest) "ALLOCATION_AUTHORITY_MISMATCH" ++
      reasonIf (auth.expiresAt ≤ now) "ALLOCATION_AUTHORITY_EXPIRED"

structure EffectiveCeiling where
  effective : ℚ
  candidates : List AllocationLimitCandidate
  authorityDigest : Option String
  reasons : List String
  deriving DecidableEq

def resolveEffectiveGrossCeiling (artifactMaxGross : ℚ) (authority : Option AllocationAuthority)
    (accountMode : AccountMode) (accountId artifactDigest : String) (now : Int) (riskLimitsGross : Option ℚ) :
    EffectiveCeiling :=
  let candidates := baseCandidates artifactMaxGross riskLimitsGross ++
    (match authority with
      | some auth => authorityCandidates accountMode auth
      | none => [])
  let effective := candidates.foldl (fun low c => min low c.maxGrossFraction) STEADY_MAX_GROSS_FRACTION
  { effective := if effective ≤ 0 then 0 else effective
    candidates := candidates
    authorityDigest := authority.bind (·.authorityDigest)
    reasons := authorityReasons accountMode authority accountId artifactDigest now ++
      reasonIf (effective ≤ 0) "GROSS_CEILING_INVALID" }

def positivePrice (price : Option ℚ) : Option ℚ := price.filter (0 < ·)

def orderReferencePrice (order : BrokerOrderRow) (quotePrices : Int → Option ℚ) : Option ℚ :=
  (positivePrice order.limitPrice).or ((positivePrice order.stopPrice).or (quotePrices order.conid))

def computePositionGrossNotional (broker : BrokerRiskSnapshot) : ℚ :=
  ((broker.positions.filter (!·.deleted)).map fun row => |row.marketValue.getD 0|).sum

/-- `max(0, total − filled)`. -/
def BrokerOrderRow.remaining (order : BrokerOrderRow) : ℚ := max 0 (order.totalQuantity - order.filledQuantity)

/-- The orders `compute_working_entry_notional` counts. -/
def pendingEntries (broker : BrokerRiskSnapshot) : List BrokerOrderRow :=
  broker.workingOrders.filter fun order =>
    !order.deleted && decide (0 < order.remaining) && order.action == .BUY

def computeWorkingEntryNotional (broker : BrokerRiskSnapshot) (quotePrices : Int → Option ℚ) :
    ℚ × List String :=
  (((pendingEntries broker).map fun order => order.remaining * (orderReferencePrice order quotePrices).getD 0).sum,
   ((pendingEntries broker).filter fun order => (orderReferencePrice order quotePrices).isNone).map
    fun _ => "WORKING_ORDER_PRICE_UNKNOWN")

def computeGrossNotional (broker : BrokerRiskSnapshot) (quotePrices : Int → Option ℚ) : ℚ × List String :=
  let pending := computeWorkingEntryNotional broker quotePrices
  (computePositionGrossNotional broker + pending.1, pending.2)

/-- The arguments of `revalidate_dispatch`. -/
structure DispatchCheck where
  broker : BrokerRiskSnapshot
  approvedBroker : BrokerRiskSnapshot
  conid : Int
  side : Side
  quantity : ℚ
  entryPrice : ℚ
  authority : Option AllocationAuthority
  artifactMaxGross : ℚ
  artifactDigest : String
  authorityDigest : Option String
  effectiveGrossCeiling : ℚ
  inFlightNotional : ℚ
  riskLimitsGross : Option ℚ

/-- `prices = {conid: entry_price}`. -/
def DispatchCheck.prices (k : DispatchCheck) (conid : Int) : Option ℚ :=
  if conid = k.conid then some k.entryPrice else none

def DispatchCheck.resolved (k : DispatchCheck) (now : Int) : EffectiveCeiling :=
  resolveEffectiveGrossCeiling k.artifactMaxGross k.authority k.broker.accountMode k.broker.accountId
    k.artifactDigest now k.riskLimitsGross

/-- `current_notional`: what the snapshot shows and what it does not show yet. -/
def DispatchCheck.currentNotional (k : DispatchCheck) : ℚ :=
  (computeGrossNotional k.broker k.prices).1 + k.inFlightNotional

def DispatchCheck.projectedNotional (k : DispatchCheck) : ℚ := k.currentNotional + |k.quantity| * k.entryPrice

/-- The reasons that do not need the equity. -/
def DispatchCheck.fenceReasons (k : DispatchCheck) (now : Int) : List String :=
  let c := k.resolved now
  reasonIf (k.broker.generationId < k.approvedBroker.generationId) "BROKER_GENERATION_STALE" ++
  reasonIf (k.broker.sourceCursor < k.approvedBroker.sourceCursor) "BROKER_CURSOR_STALE" ++ c.reasons ++
  reasonIf (k.authorityDigest.isSome ∧ c.authorityDigest ≠ k.authorityDigest) "ALLOCATION_AUTHORITY_CHANGED" ++
  reasonIf (c.effective > k.effectiveGrossCeiling + TOLERANCE) "ALLOCATION_CEILING_CHANGED"

def DispatchCheck.exposureCode (k : DispatchCheck) (effective : ℚ) : String :=
  let equity := k.broker.netLiquidation
  if effective + TOLERANCE < k.effectiveGrossCeiling ∧
      k.projectedNotional / equity ≤ k.effectiveGrossCeiling + TOLERANCE then
    "LIMIT_TIGHTENED_BEFORE_DISPATCH"
  else if (k.projectedNotional - k.inFlightNotional) / equity ≤ effective + TOLERANCE then
    "GROSS_EXPOSURE_IN_FLIGHT"
  else "GROSS_EXPOSURE"

def DispatchCheck.exposureReasons (k : DispatchCheck) (now : Int) : List String :=
  let effective := (k.resolved now).effective
  (computeGrossNotional k.broker k.prices).2 ++
  reasonIf (k.side = .BUY ∧ k.projectedNotional / k.broker.netLiquidation > effective + TOLERANCE)
    (k.exposureCode effective)

/-- `revalidate_dispatch`; `none` is its `ValueError`. -/
def revalidateDispatch (k : DispatchCheck) (now : Int) : Option AllocationDecision :=
  let c := k.resolved now
  let equity := k.broker.netLiquidation
  let decision (reasons : List String) (current : ℚ) (projected : Option ℚ) : AllocationDecision :=
    { approved := reasons.eraseDups.isEmpty
      reasonCodes := reasons.eraseDups
      effectiveGrossCeiling := c.effective
      authorityDigest := c.authorityDigest.or k.authorityDigest
      limitCandidates := c.candidates
      currentGrossFraction := current
      projectedGrossFraction := projected
      brokerGenerationId := k.broker.generationId
      brokerSourceCursor := k.broker.sourceCursor }
  if k.inFlightNotional < 0 then none
  else if equity ≤ 0 then some (decision (k.fenceReasons now ++ ["EQUITY_INVALID"]) 0 none)
  else
    some (decision (k.fenceReasons now ++ k.exposureReasons now) (k.currentNotional / equity)
      (if k.side = .BUY then some (k.projectedNotional / equity) else none))

/-! ## What the resolved ceiling is -/

theorem foldl_min_le (cs : List AllocationLimitCandidate) (low : ℚ) :
    cs.foldl (fun m c => min m c.maxGrossFraction) low ≤ low ∧
      ∀ c ∈ cs, cs.foldl (fun m c => min m c.maxGrossFraction) low ≤ c.maxGrossFraction := by
  induction cs generalizing low with
  | nil => exact ⟨le_refl low, by simp⟩
  | cons c cs ih =>
    obtain ⟨hlow, hall⟩ := ih (min low c.maxGrossFraction)
    refine ⟨hlow.trans (min_le_left _ _), ?_⟩
    intro d hd
    rcases List.mem_cons.mp hd with rfl | hd
    · exact hlow.trans (min_le_right _ _)
    · exact hall d hd

variable {now : Int}

/-- **The most restrictive ceiling wins.**  A ceiling without reasons is positive and below each
    candidate. -/
theorem resolved_le {artifactMaxGross : ℚ} {authority : Option AllocationAuthority} {mode : AccountMode}
    {accountId artifactDigest : String} {risk : Option ℚ}
    (h : (resolveEffectiveGrossCeiling artifactMaxGross authority mode accountId artifactDigest now risk).reasons
      = []) :
    let c := resolveEffectiveGrossCeiling artifactMaxGross authority mode accountId artifactDigest now risk
    0 < c.effective ∧ ∀ d ∈ c.candidates, c.effective ≤ d.maxGrossFraction := by
  simp only [resolveEffectiveGrossCeiling, List.append_eq_nil_iff, reasonIf_eq_nil, not_le] at h ⊢
  have hpos := h.2
  rw [if_neg (not_le.mpr hpos)]
  exact ⟨hpos, (foldl_min_le _ _).2⟩

/-! ## What an approval means -/

theorem eraseDups_isEmpty {l : List String} (h : l.eraseDups.isEmpty = true) : l = [] := by
  cases l with
  | nil => rfl
  | cons a l => simp [List.eraseDups_cons] at h

/-- **What an approved re-check says**: the ceiling did not loosen, every BUY order has a price, and the
    projected gross fits under the ceiling in force. -/
structure DispatchCheck.Fits (k : DispatchCheck) (now : Int) : Prop where
  equity : 0 < k.broker.netLiquidation
  inFlight : 0 ≤ k.inFlightNotional
  priced : (computeGrossNotional k.broker k.prices).2 = []
  ceiling : (k.resolved now).effective ≤ k.effectiveGrossCeiling + TOLERANCE
  authority : (k.resolved now).reasons = []
  gross : k.projectedNotional ≤ ((k.resolved now).effective + TOLERANCE) * k.broker.netLiquidation

theorem revalidateDispatch_approved {k : DispatchCheck} {d : AllocationDecision}
    (hside : k.side = .BUY) (h : revalidateDispatch k now = some d) (hd : d.approved = true) : k.Fits now := by
  unfold revalidateDispatch at h
  dsimp only at h
  split at h
  · cases h
  rename_i hinfl
  split at h
  · cases h
    have hnil := eraseDups_isEmpty hd
    simp at hnil
  · rename_i heq
    cases h
    have hnil := eraseDups_isEmpty hd
    obtain ⟨hfence, hexp⟩ := List.append_eq_nil_iff.mp hnil
    simp only [DispatchCheck.fenceReasons, List.append_eq_nil_iff, reasonIf_eq_nil] at hfence
    simp only [DispatchCheck.exposureReasons, List.append_eq_nil_iff, reasonIf_eq_nil, hside, true_and,
      not_lt] at hexp
    obtain ⟨⟨⟨-, hauth⟩, -⟩, hceil⟩ := hfence
    have hequity : 0 < k.broker.netLiquidation := not_le.mp heq
    refine ⟨hequity, not_lt.mp hinfl, hexp.1, not_lt.mp hceil, hauth, ?_⟩
    exact (div_le_iff₀ hequity).mp hexp.2

end MmrTrader.Dispatch
