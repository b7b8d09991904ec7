import Mathlib.Data.Rat.Floor
import Mathlib.Algebra.Order.Round

/-!
# The position sizer

* `PositionSizingConfig`, `PortfolioState`, `LiquidityInfo`, `VolatilityInfo` — what the sizer reads, over exact rationals.
* `Part`, `Warning` — the pieces of the reasoning and the warnings, with the numbers that they print.
* `Draft` — the locals of `compute`; the steps of `compute`, in its order.
* `PositionSizer.compute`, `sizedUsd` — the result, and the size before it is rounded to cents.
-/

set_option autoImplicit false

namespace MmrTrader.Sizing

structure VolatilityInfo where
  atr : ℚ
  price : ℚ
  deriving DecidableEq

def VolatilityInfo.atrPct (v : VolatilityInfo) : ℚ := if v.price > 0 ∧ v.atr > 0 then v.atr / v.price else 0

structure PositionSizingConfig where
  minPositionUsd : ℚ
  maxPositionUsd : ℚ
  maxPositionPct : ℚ
  maxTotalExposurePct : ℚ
  maxPositions : Int
  basePositionUsd : ℚ
  basePositionPct : ℚ
  riskLevel : String
  dailyLossLimitUsd : ℚ
  minConfidenceScale : ℚ
  volatilityAdjustment : Bool
  referenceAtrPct : ℚ
  volScaleMin : ℚ
  volScaleMax : ℚ
  maxAdvPct : ℚ
  spreadPenaltyThreshold : ℚ
  spreadPenaltyFactor : ℚ
  deriving DecidableEq

def PositionSizingConfig.default : PositionSizingConfig where
  minPositionUsd := 500
  maxPositionUsd := 25000
  maxPositionPct := 1 / 10
  maxTotalExposurePct := 8 / 10
  maxPositions := 20
  basePositionUsd := 5000
  basePositionPct := 0
  riskLevel := "moderate"
  dailyLossLimitUsd := 2000
  minConfidenceScale := 3 / 10
  volatilityAdjustment := true
  referenceAtrPct := 2 / 100
  volScaleMin := 1 / 4
  volScaleMax := 2
  maxAdvPct := 2 / 100
  spreadPenaltyThreshold := 5 / 1000
  spreadPenaltyFactor := 1 / 2

/-- What `compute` reads of the snapshot. -/
structure PortfolioState where
  netLiquidation : ℚ
  grossPositionValue : ℚ
  dailyPnl : ℚ
  positionCount : Int
  pendingProposalValue : ℚ
  deriving DecidableEq

/-- `PortfolioState()`. -/
def PortfolioState.empty : PortfolioState := ⟨0, 0, 0, 0, 0⟩

def PortfolioState.currentExposurePct (s : PortfolioState) : ℚ :=
  if s.netLiquidation ≤ 0 then 0 else s.grossPositionValue / s.netLiquidation

structure LiquidityInfo where
  avgDailyVolume : ℚ
  bid : ℚ
  ask : ℚ
  last : ℚ
  bidSize : ℚ
  askSize : ℚ
  deriving DecidableEq

def LiquidityInfo.spread (l : LiquidityInfo) : ℚ := if l.bid > 0 ∧ l.ask > 0 ∧ l.ask ≥ l.bid then l.ask - l.bid else 0

def LiquidityInfo.midPrice (l : LiquidityInfo) : ℚ := if l.bid > 0 ∧ l.ask > 0 then (l.bid + l.ask) / 2 else l.last

def LiquidityInfo.spreadPct (l : LiquidityInfo) : ℚ := if l.midPrice > 0 then l.spread / l.midPrice else 0

def LiquidityInfo.hasData (l : LiquidityInfo) : Prop := l.avgDailyVolume > 0 ∨ (l.bid > 0 ∧ l.ask > 0)

instance (l : LiquidityInfo) : Decidable l.hasData := inferInstanceAs (Decidable (_ ∨ _))

/-! ## The draft -/

/-- The pieces of the reasoning. -/
inductive Part where
  | base (usd : ℚ)
  | basePct (usd pct net : ℚ)
  | risk (level : String) (multiplier : ℚ)
  | confidence (confidence scale : ℚ)
  | volatility (atrPct multiplier : ℚ)
  | noVolatilityData
  | sized (usd : ℚ)
  | clampedToMin (usd : ℚ)
  | clampedToMax (usd : ℚ)
  | cappedByPct (pct usd : ℚ)
  | cappedByExposure (remaining : ℚ)
  | cappedByAdv (pct volume shares usd : ℚ)
  | spreadPenalty (penalty spreadPct threshold : ℚ)
  deriving DecidableEq

inductive Warning where
  | exposure (pct limit : ℚ)
  | positionLimit (count limit : Int)
  | dailyLoss (loss limit : ℚ)
  | dailyLossNear (loss limit : ℚ)
  | adv (pct limit : ℚ)
  | wideSpread (pct spread bid ask : ℚ)
  | bookDepth (shares book : ℚ)
  | belowMinimum (usd : ℚ)
  | priceTooHigh (price sized : ℚ)
  deriving DecidableEq

/-- The locals that the steps of `compute` change. -/
structure Draft where
  sized : ℚ
  cappedBy : String
  parts : List Part
  warnings : List Warning

def Draft.noted (d : Draft) (part : Part) : Draft := { d with parts := d.parts ++ [part] }

def Draft.warns (d : Draft) (warning : Warning) : Draft := { d with warnings := d.warnings ++ [warning] }

def Draft.capped (d : Draft) (usd : ℚ) (limit : String) : Draft := { d with sized := usd, cappedBy := limit }

@[simp] theorem Draft.noted_sized (d : Draft) (part : Part) : (d.noted part).sized = d.sized := rfl

@[simp] theorem Draft.warns_sized (d : Draft) (warning : Warning) : (d.warns warning).sized = d.sized := rfl

@[simp] theorem Draft.capped_sized (d : Draft) (usd : ℚ) (limit : String) : (d.capped usd limit).sized = usd := rfl

/-- `RISK_MULTIPLIERS.get(level, 1.0)`. -/
def riskMultiplier (level : String) : ℚ :=
  if level = "conservative" then 1 / 2 else if level = "moderate" then 1 else if level = "aggressive" then 3 / 2 else 1

namespace PositionSizer

section
variable (cfg : PositionSizingConfig)

/-! ## Steps 1 and 2: base, risk, confidence -/

def base (state : PortfolioState) : ℚ :=
  if cfg.basePositionPct > 0 ∧ state.netLiquidation > 0 then state.netLiquidation * cfg.basePositionPct else cfg.basePositionUsd

def clampConfidence (confidence : ℚ) : ℚ := max 0 (min 1 confidence)

def confidenceScale (confidence : ℚ) : ℚ := cfg.minConfidenceScale + (1 - cfg.minConfidenceScale) * clampConfidence confidence

def scaleByConfidence (state : PortfolioState) (confidence : ℚ) : Draft :=
  let usd := base cfg state
  let multiplier := riskMultiplier cfg.riskLevel
  let part := if cfg.basePositionPct > 0 ∧ state.netLiquidation > 0 then .basePct usd cfg.basePositionPct state.netLiquidation else .base usd
  let risk := if multiplier = 1 then [] else [.risk cfg.riskLevel multiplier]
  let scale := confidenceScale cfg confidence
  ⟨usd * multiplier * scale, "", part :: risk ++ [.confidence (clampConfidence confidence) scale], []⟩

/-! ## Step 2b: volatility -/

/-- The inverse of the ATR, between its bounds. -/
def volMultiplier (atrPct : ℚ) : ℚ :=
  max cfg.volScaleMin (min cfg.volScaleMax (cfg.referenceAtrPct / max atrPct (cfg.referenceAtrPct * (1 / 4))))

def adjustForVolatility (volatility : Option VolatilityInfo) (d : Draft) : Draft :=
  match volatility with
  | some vol =>
    if cfg.volatilityAdjustment ∧ vol.atrPct > 0 then
      { d with sized := d.sized * volMultiplier cfg vol.atrPct }.noted (.volatility vol.atrPct (volMultiplier cfg vol.atrPct))
    else if cfg.volatilityAdjustment ∧ vol.atrPct = 0 then d.noted .noVolatilityData
    else d
  | none => if cfg.volatilityAdjustment then d.noted .noVolatilityData else d

/-! ## Step 3: hard limits -/

def clampSized (d : Draft) : Draft :=
  if d.sized < cfg.minPositionUsd then (d.capped cfg.minPositionUsd "min_position_usd").noted (.clampedToMin cfg.minPositionUsd)
  else if d.sized > cfg.maxPositionUsd then (d.capped cfg.maxPositionUsd "max_position_usd").noted (.clampedToMax cfg.maxPositionUsd)
  else d

def clampToLimits (d : Draft) : Draft := clampSized cfg (d.noted (.sized d.sized))

/-! ## Steps 4 and 5: the portfolio -/

def maxByPct (state : PortfolioState) : ℚ := state.netLiquidation * cfg.maxPositionPct

/-- What the exposure limit leaves. -/
def remaining (state : PortfolioState) : ℚ :=
  max 0 (state.netLiquidation * cfg.maxTotalExposurePct - (state.grossPositionValue + state.pendingProposalValue))

def capByPct (state : PortfolioState) (d : Draft) : Draft :=
  if d.sized > maxByPct cfg state then
    (d.capped (maxByPct cfg state) "max_position_pct").noted (.cappedByPct cfg.maxPositionPct (maxByPct cfg state))
  else d

def capByExposure (state : PortfolioState) (d : Draft) : Draft :=
  if d.sized > remaining cfg state then
    (d.capped (max 0 (remaining cfg state)) "max_total_exposure_pct").noted (.cappedByExposure (remaining cfg state))
  else d

def warnExposure (state : PortfolioState) (d : Draft) : Draft :=
  if state.currentExposurePct ≥ cfg.maxTotalExposurePct * (9 / 10) then
    d.warns (.exposure state.currentExposurePct cfg.maxTotalExposurePct)
  else d

/-- The constraints that need portfolio data. -/
def capByPortfolio (state : PortfolioState) (d : Draft) : Draft :=
  if state.netLiquidation > 0 then warnExposure cfg state (capByExposure cfg state (capByPct cfg state d)) else d

def stopAtMaxPositions (state : PortfolioState) (d : Draft) : Draft :=
  if state.positionCount ≥ cfg.maxPositions then
    (d.capped 0 "max_positions").warns (.positionLimit state.positionCount cfg.maxPositions)
  else d

def stopAtDailyLoss (state : PortfolioState) (d : Draft) : Draft :=
  if state.dailyPnl < 0 ∧ |state.dailyPnl| ≥ cfg.dailyLossLimitUsd then
    (d.capped 0 "daily_loss_limit").warns (.dailyLoss |state.dailyPnl| cfg.dailyLossLimitUsd)
  else if state.dailyPnl < 0 ∧ |state.dailyPnl| ≥ cfg.dailyLossLimitUsd * (8 / 10) then
    d.warns (.dailyLossNear |state.dailyPnl| cfg.dailyLossLimitUsd)
  else d

/-! ## Step 6: liquidity -/

def effectivePrice (price : ℚ) (liquidity : Option LiquidityInfo) : ℚ :=
  match liquidity with
  | some liq => if price ≤ 0 ∧ liq.midPrice > 0 then liq.midPrice else price
  | none => price

def maxByAdv (liq : LiquidityInfo) (price : ℚ) : ℚ := liq.avgDailyVolume * cfg.maxAdvPct * price

def capByAdv (liq : LiquidityInfo) (price : ℚ) (d : Draft) : Draft :=
  if liq.avgDailyVolume > 0 ∧ price > 0 then
    if d.sized > maxByAdv cfg liq price then
      (d.capped (maxByAdv cfg liq price) "adv_liquidity").noted
        (.cappedByAdv cfg.maxAdvPct liq.avgDailyVolume (liq.avgDailyVolume * cfg.maxAdvPct) (maxByAdv cfg liq price))
    else if d.sized / price / liq.avgDailyVolume > cfg.maxAdvPct * (1 / 2) then
      d.warns (.adv (d.sized / price / liq.avgDailyVolume) cfg.maxAdvPct)
    else d
  else d

/-- From 0 at the threshold up to the factor at twice the threshold. -/
def spreadPenalty (spreadPct : ℚ) : ℚ :=
  min cfg.spreadPenaltyFactor (cfg.spreadPenaltyFactor * (spreadPct / cfg.spreadPenaltyThreshold - 1))

def penalizeSpread (liq : LiquidityInfo) (d : Draft) : Draft :=
  if liq.spreadPct > 0 ∧ liq.spreadPct > cfg.spreadPenaltyThreshold then
    (({ d with
        sized := d.sized * (1 - spreadPenalty cfg liq.spreadPct)
        cappedBy := if d.cappedBy = "" then "spread_penalty" else d.cappedBy }.noted
      (.spreadPenalty (spreadPenalty cfg liq.spreadPct) liq.spreadPct cfg.spreadPenaltyThreshold)).warns
      (.wideSpread liq.spreadPct liq.spread liq.bid liq.ask))
  else d

def warnBookDepth (liq : LiquidityInfo) (price : ℚ) (d : Draft) : Draft :=
  if price > 0 ∧ d.sized > 0 then
    let book := if liq.bidSize > 0 then liq.bidSize else liq.askSize
    if book > 0 ∧ d.sized / price > book then d.warns (.bookDepth (d.sized / price) book) else d
  else d

def constrainByLiquidity (liquidity : Option LiquidityInfo) (price : ℚ) (d : Draft) : Draft :=
  match liquidity with
  | some liq =>
    if liq.hasData ∧ d.sized > 0 then warnBookDepth liq price (penalizeSpread cfg liq (capByAdv cfg liq price d)) else d
  | none => d

/-! ## Step 7: the result -/

def dropBelowMinimum (d : Draft) : Draft :=
  if 0 < d.sized ∧ d.sized < cfg.minPositionUsd then
    (d.capped 0 "below_minimum_after_constraints").warns (.belowMinimum cfg.minPositionUsd)
  else d

/-- The steps of `compute` up to the result. -/
def draft (confidence : ℚ) (state : PortfolioState) (price : ℚ) (liquidity : Option LiquidityInfo)
    (volatility : Option VolatilityInfo) : Draft :=
  dropBelowMinimum cfg
    (constrainByLiquidity cfg liquidity (effectivePrice price liquidity)
      (stopAtDailyLoss cfg state
        (stopAtMaxPositions cfg state
          (capByPortfolio cfg state
            (clampToLimits cfg
              (adjustForVolatility cfg volatility (scaleByConfidence cfg state confidence)))))))

/-- `int(sized / price)`. -/
def quantity (sized price : ℚ) : Int := if price > 0 ∧ sized > 0 then ⌊sized / price⌋ else 0

def quantityPrice (price : ℚ) (liquidity : Option LiquidityInfo) : ℚ :=
  if effectivePrice price liquidity > 0 then effectivePrice price liquidity else price

/-- `round(sized, 2)`: half to even. -/
def roundCents (usd : ℚ) : ℚ :=
  let cents := usd * 100
  let down := ⌊cents⌋
  let nearest := if cents - down < 1 / 2 then down else if 1 / 2 < cents - down then down + 1 else if down % 2 = 0 then down else down + 1
  nearest / 100

end

structure SizingResult where
  amountUsd : ℚ
  quantity : Int
  reasoning : List Part
  warnings : List Warning
  cappedBy : String

/-- `PositionSizer(cfg).compute`. -/
def compute (cfg : PositionSizingConfig) (confidence : ℚ) (portfolioState : Option PortfolioState) (price : ℚ)
    (liquidity : Option LiquidityInfo) (volatility : Option VolatilityInfo) : SizingResult :=
  let d := draft cfg confidence (portfolioState.getD .empty) price liquidity volatility
  let shares := quantity d.sized (quantityPrice price liquidity)
  let warnings :=
    if quantityPrice price liquidity > 0 ∧ d.sized > 0 ∧ shares = 0 ∧ d.sized ≥ cfg.minPositionUsd then
      d.warnings ++ [.priceTooHigh (quantityPrice price liquidity) d.sized]
    else d.warnings
  ⟨roundCents d.sized, shares, d.parts, warnings, d.cappedBy⟩

/-- The size before it is rounded to cents. -/
def sizedUsd (cfg : PositionSizingConfig) (confidence : ℚ) (state : PortfolioState) (price : ℚ) (liquidity : Option LiquidityInfo)
    (volatility : Option VolatilityInfo) : ℚ := (draft cfg confidence state price liquidity volatility).sized

end PositionSizer

end MmrTrader.Sizing
