import MmrTrader.Sizing.PositionSizer
import Mathlib.Tactic.Linarith
import Mathlib.Tactic.Positivity
import Mathlib.Tactic.FieldSimp
import Mathlib.Tactic.NormNum

/-!
# A size respects every limit

* `Valid` — the configurations that the limits are meant for.
* `atrScale`, `limited`, `gated`, `thinned`, `cutOff` — what the steps do to the size alone.
* `sizedUsd_eq` — the size is these one after another.
* `limited_mul`, `thinned_mono`, `cutOff_mono` — none of them turns the order of two sizes around.
-/

namespace MmrTrader.Sizing

namespace PositionSizer

/-- The configurations that the limits are meant for. -/
structure Valid (cfg : PositionSizingConfig) : Prop where
  min_nonneg : 0 ≤ cfg.minPositionUsd
  min_le_max : cfg.minPositionUsd ≤ cfg.maxPositionUsd
  maxPositionPct : 0 ≤ cfg.maxPositionPct
  maxTotalExposurePct : 0 ≤ cfg.maxTotalExposurePct
  basePositionPct : 0 ≤ cfg.basePositionPct
  maxAdvPct : 0 ≤ cfg.maxAdvPct
  confidenceScale_nonneg : 0 ≤ cfg.minConfidenceScale
  confidenceScale_le_one : cfg.minConfidenceScale ≤ 1
  volScaleMin_pos : 0 < cfg.volScaleMin
  volScaleMin_le_max : cfg.volScaleMin ≤ cfg.volScaleMax
  referenceAtrPct : 0 < cfg.referenceAtrPct
  spreadPenaltyThreshold : 0 < cfg.spreadPenaltyThreshold
  spreadPenaltyFactor_nonneg : 0 ≤ cfg.spreadPenaltyFactor
  spreadPenaltyFactor_le_one : cfg.spreadPenaltyFactor ≤ 1

section
variable (cfg : PositionSizingConfig)

/-! ## What the steps do to the size -/

/-- The factor of the volatility step. -/
def atrScale (volatility : Option VolatilityInfo) : ℚ :=
  match volatility with
  | some vol => if cfg.volatilityAdjustment ∧ vol.atrPct > 0 then volMultiplier cfg vol.atrPct else 1
  | none => 1

/-- The size before any limit. -/
def raw (state : PortfolioState) : ℚ := base cfg state * riskMultiplier cfg.riskLevel

def limited (state : PortfolioState) (x : ℚ) : ℚ :=
  min (min (max cfg.minPositionUsd (min cfg.maxPositionUsd x)) (maxByPct cfg state)) (remaining cfg state)

def Stopped (state : PortfolioState) : Prop :=
  state.positionCount ≥ cfg.maxPositions ∨ (state.dailyPnl < 0 ∧ |state.dailyPnl| ≥ cfg.dailyLossLimitUsd)

instance (state : PortfolioState) : Decidable (Stopped cfg state) := inferInstanceAs (Decidable (_ ∨ _))

def gated (state : PortfolioState) (x : ℚ) : ℚ := if Stopped cfg state then 0 else x

def spreadScale (spreadPct : ℚ) : ℚ :=
  if spreadPct > 0 ∧ spreadPct > cfg.spreadPenaltyThreshold then 1 - spreadPenalty cfg spreadPct else 1

def thinned (liquidity : Option LiquidityInfo) (price x : ℚ) : ℚ :=
  match liquidity with
  | some liq =>
    (if liq.avgDailyVolume > 0 ∧ price > 0 then min x (maxByAdv cfg liq price) else x) * spreadScale cfg liq.spreadPct
  | none => x

def cutOff (x : ℚ) : ℚ := if 0 < x ∧ x < cfg.minPositionUsd then 0 else x

@[simp] theorem adjustForVolatility_sized (volatility : Option VolatilityInfo) (d : Draft) :
    (adjustForVolatility cfg volatility d).sized = d.sized * atrScale cfg volatility := by
  cases volatility with
  | none =>
    rw [adjustForVolatility, atrScale, mul_one]
    split <;> rfl
  | some vol =>
    rw [adjustForVolatility, atrScale]
    split
    · rfl
    · rw [mul_one]
      split <;> rfl

theorem clampSized_sized (hcfg : Valid cfg) (d : Draft) :
    (clampSized cfg d).sized = max cfg.minPositionUsd (min cfg.maxPositionUsd d.sized) := by
  have hle := hcfg.min_le_max
  rw [clampSized]
  split
  · rename_i hlow
    rw [min_eq_right (hlow.le.trans hle), max_eq_left hlow.le]
    rfl
  · rename_i hlow
    split
    · rename_i hhigh
      rw [min_eq_left hhigh.le, max_eq_right hle]
      rfl
    · rename_i hhigh
      rw [min_eq_right (not_lt.mp hhigh), max_eq_right (not_lt.mp hlow)]

theorem capByPortfolio_sized {state : PortfolioState} (hnet : 0 < state.netLiquidation) (d : Draft) :
    (capByPortfolio cfg state d).sized = min (min d.sized (maxByPct cfg state)) (remaining cfg state) := by
  have hremaining : 0 ≤ remaining cfg state := le_max_left _ _
  have hpct : (capByPct cfg state d).sized = min d.sized (maxByPct cfg state) := by
    rw [capByPct]
    split
    · rename_i hgt
      rw [min_eq_right hgt.le]
      rfl
    · rename_i hle
      rw [min_eq_left (not_lt.mp hle)]
  have hexposure : (capByExposure cfg state (capByPct cfg state d)).sized =
      min (capByPct cfg state d).sized (remaining cfg state) := by
    rw [capByExposure]
    split
    · rename_i hgt
      rw [min_eq_right hgt.le]
      exact max_eq_right hremaining
    · rename_i hle
      rw [min_eq_left (not_lt.mp hle)]
  have hwarn : ∀ d, (warnExposure cfg state d).sized = d.sized := by
    intro d
    rw [warnExposure]
    split <;> rfl
  rw [capByPortfolio, if_pos hnet, hwarn, hexposure, hpct]

theorem stops_sized (state : PortfolioState) (d : Draft) :
    (stopAtDailyLoss cfg state (stopAtMaxPositions cfg state d)).sized = gated cfg state d.sized := by
  have hpositions : (stopAtMaxPositions cfg state d).sized = if state.positionCount ≥ cfg.maxPositions then 0 else d.sized := by
    rw [stopAtMaxPositions]
    split <;> rfl
  rw [stopAtDailyLoss, gated]
  by_cases hloss : state.dailyPnl < 0 ∧ |state.dailyPnl| ≥ cfg.dailyLossLimitUsd
  · have hstopped : Stopped cfg state := .inr hloss
    rw [if_pos hloss, if_pos hstopped]
    rfl
  · rw [if_neg hloss]
    have hstopped : Stopped cfg state ↔ state.positionCount ≥ cfg.maxPositions := or_iff_left hloss
    simp only [hstopped]
    split <;> simpa using hpositions

theorem capByAdv_sized (liq : LiquidityInfo) (price : ℚ) (d : Draft) :
    (capByAdv cfg liq price d).sized =
      if liq.avgDailyVolume > 0 ∧ price > 0 then min d.sized (maxByAdv cfg liq price) else d.sized := by
  rw [capByAdv]
  split
  · split
    · rename_i hgt
      rw [min_eq_right hgt.le]
      rfl
    · rename_i hle
      rw [min_eq_left (not_lt.mp hle)]
      split <;> rfl
  · rfl

theorem penalizeSpread_sized (liq : LiquidityInfo) (d : Draft) :
    (penalizeSpread cfg liq d).sized = d.sized * spreadScale cfg liq.spreadPct := by
  rw [penalizeSpread, spreadScale]
  split
  · rfl
  · rw [mul_one]

theorem warnBookDepth_sized (liq : LiquidityInfo) (price : ℚ) (d : Draft) : (warnBookDepth liq price d).sized = d.sized := by
  have hwarn : ∀ book : ℚ, (if book > 0 ∧ d.sized / price > book then d.warns (.bookDepth (d.sized / price) book) else d).sized =
      d.sized := by
    intro book
    split <;> rfl
  rw [warnBookDepth]
  split
  · exact hwarn _
  · rfl

variable {liq : LiquidityInfo}

theorem spreadPct_of_no_data (h : ¬ liq.hasData) : liq.spreadPct = 0 := by
  have hquotes : ¬ (liq.bid > 0 ∧ liq.ask > 0 ∧ liq.ask ≥ liq.bid) := fun hq => h (.inr ⟨hq.1, hq.2.1⟩)
  rw [LiquidityInfo.spreadPct, LiquidityInfo.spread, if_neg hquotes, zero_div, ite_self]

theorem maxByAdv_nonneg (hcfg : Valid cfg) {price : ℚ} (h : liq.avgDailyVolume > 0 ∧ price > 0) : 0 ≤ maxByAdv cfg liq price :=
  mul_nonneg (mul_nonneg h.1.le hcfg.maxAdvPct) h.2.le

theorem constrainByLiquidity_sized (hcfg : Valid cfg) (liquidity : Option LiquidityInfo) (price : ℚ) {d : Draft} (hd : 0 ≤ d.sized) :
    (constrainByLiquidity cfg liquidity price d).sized = thinned cfg liquidity price d.sized := by
  cases liquidity with
  | none => rfl
  | some liq =>
    rw [constrainByLiquidity, thinned]
    by_cases hdata : liq.hasData
    · by_cases hpos : d.sized > 0
      · rw [if_pos ⟨hdata, hpos⟩, warnBookDepth_sized, penalizeSpread_sized, capByAdv_sized]
      · -- a size of zero stays zero
        have hzero : d.sized = 0 := le_antisymm (not_lt.mp hpos) hd
        rw [if_neg fun h => hpos h.2, hzero]
        split
        · rename_i hcap
          rw [min_eq_left (maxByAdv_nonneg cfg hcfg hcap), zero_mul]
        · rw [zero_mul]
    · have hvolume : ¬ (liq.avgDailyVolume > 0 ∧ price > 0) := fun h => hdata (.inl h.1)
      have hscale : spreadScale cfg 0 = 1 := if_neg fun h => absurd h.1 (lt_irrefl 0)
      rw [if_neg fun h => hdata h.1, if_neg hvolume, spreadPct_of_no_data hdata, hscale, mul_one]

theorem dropBelowMinimum_sized (d : Draft) : (dropBelowMinimum cfg d).sized = cutOff cfg d.sized := by
  rw [dropBelowMinimum, cutOff]
  split <;> rfl

/-! ## Bounds -/

theorem limited_nonneg (hcfg : Valid cfg) {state : PortfolioState} (hnet : 0 < state.netLiquidation) (x : ℚ) :
    0 ≤ limited cfg state x := by
  refine le_min (le_min ?_ ?_) (le_max_left _ _)
  · exact hcfg.min_nonneg.trans (le_max_left _ _)
  · exact mul_nonneg hnet.le hcfg.maxPositionPct

variable {x : ℚ}

theorem gated_nonneg {state : PortfolioState} (hx : 0 ≤ x) : 0 ≤ gated cfg state x := by
  rw [gated]
  split
  · exact le_refl 0
  · exact hx

theorem gated_le {state : PortfolioState} (hx : 0 ≤ x) : gated cfg state x ≤ x := by
  rw [gated]
  split
  · exact hx
  · exact le_refl x

/-- The penalty lies between zero and the factor. -/
theorem spreadScale_mem (hcfg : Valid cfg) (spreadPct : ℚ) : 0 ≤ spreadScale cfg spreadPct ∧ spreadScale cfg spreadPct ≤ 1 := by
  rw [spreadScale]
  split
  · rename_i h
    have hratio : 1 < spreadPct / cfg.spreadPenaltyThreshold := (one_lt_div hcfg.spreadPenaltyThreshold).mpr h.2
    have hfactor := hcfg.spreadPenaltyFactor_nonneg
    have hle : spreadPenalty cfg spreadPct ≤ cfg.spreadPenaltyFactor := min_le_left _ _
    have hnonneg : 0 ≤ spreadPenalty cfg spreadPct := le_min hfactor (mul_nonneg hfactor (by linarith))
    have hone := hcfg.spreadPenaltyFactor_le_one
    constructor <;> linarith
  · exact ⟨zero_le_one, le_refl 1⟩

theorem capped_nonneg (hcfg : Valid cfg) (liq : LiquidityInfo) (price : ℚ) (hx : 0 ≤ x) :
    0 ≤ if liq.avgDailyVolume > 0 ∧ price > 0 then min x (maxByAdv cfg liq price) else x := by
  split
  · rename_i h
    exact le_min hx (maxByAdv_nonneg cfg hcfg h)
  · exact hx

theorem thinned_nonneg (hcfg : Valid cfg) (liquidity : Option LiquidityInfo) (price : ℚ) (hx : 0 ≤ x) :
    0 ≤ thinned cfg liquidity price x := by
  cases liquidity with
  | none => exact hx
  | some liq => exact mul_nonneg (capped_nonneg cfg hcfg liq price hx) (spreadScale_mem cfg hcfg _).1

theorem thinned_le_capped (hcfg : Valid cfg) (liq : LiquidityInfo) (price : ℚ) (hx : 0 ≤ x) :
    thinned cfg (some liq) price x ≤ if liq.avgDailyVolume > 0 ∧ price > 0 then min x (maxByAdv cfg liq price) else x :=
  mul_le_of_le_one_right (capped_nonneg cfg hcfg liq price hx) (spreadScale_mem cfg hcfg _).2

theorem thinned_le (hcfg : Valid cfg) (liquidity : Option LiquidityInfo) (price : ℚ) (hx : 0 ≤ x) :
    thinned cfg liquidity price x ≤ x := by
  cases liquidity with
  | none => exact le_refl x
  | some liq =>
    refine (thinned_le_capped cfg hcfg liq price hx).trans ?_
    split
    · exact min_le_left _ _
    · exact le_refl x

theorem cutOff_le (hx : 0 ≤ x) : cutOff cfg x ≤ x := by
  rw [cutOff]
  split
  · exact hx
  · exact le_refl x

theorem cutOff_cases (hx : 0 ≤ x) : cutOff cfg x = 0 ∨ (cfg.minPositionUsd ≤ cutOff cfg x ∧ cutOff cfg x = x) := by
  rw [cutOff]
  split
  · exact .inl rfl
  · rename_i hnot
    rcases hx.eq_or_lt with hzero | hpos
    · exact .inl hzero.symm
    · exact .inr ⟨not_lt.mp fun hlt => hnot ⟨hpos, hlt⟩, rfl⟩

/-! ## The size -/

variable {cfg}

theorem sizedUsd_eq (hcfg : Valid cfg) {state : PortfolioState} (hnet : 0 < state.netLiquidation) (confidence price : ℚ)
    (liquidity : Option LiquidityInfo) (volatility : Option VolatilityInfo) :
    sizedUsd cfg confidence state price liquidity volatility =
      cutOff cfg (thinned cfg liquidity (effectivePrice price liquidity)
        (gated cfg state (limited cfg state (raw cfg state * (confidenceScale cfg confidence * atrScale cfg volatility))))) := by
  have hlimited : (capByPortfolio cfg state (clampToLimits cfg (adjustForVolatility cfg volatility (scaleByConfidence cfg state confidence)))).sized
      = limited cfg state (raw cfg state * (confidenceScale cfg confidence * atrScale cfg volatility)) := by
    rw [capByPortfolio_sized cfg hnet, clampToLimits, clampSized_sized cfg hcfg, Draft.noted_sized, adjustForVolatility_sized, scaleByConfidence, limited, raw]
    simp only [mul_assoc]
  have hnonneg : 0 ≤ gated cfg state _ := gated_nonneg cfg (limited_nonneg cfg hcfg hnet
    (raw cfg state * (confidenceScale cfg confidence * atrScale cfg volatility)))
  rw [← hlimited, ← stops_sized] at hnonneg
  rw [sizedUsd, draft, dropBelowMinimum_sized, constrainByLiquidity_sized cfg hcfg _ _ hnonneg, stops_sized, hlimited]

/-! ## No step turns the order of two sizes around -/

variable {a b : ℚ}

/-- A larger factor gives no smaller size; below zero both are the least position. -/
theorem limited_mul (hcfg : Valid cfg) (state : PortfolioState) {r : ℚ} (ha : 0 ≤ a) (hab : a ≤ b) :
    limited cfg state (r * a) ≤ limited cfg state (r * b) := by
  have hclamp : max cfg.minPositionUsd (min cfg.maxPositionUsd (r * a)) ≤ max cfg.minPositionUsd (min cfg.maxPositionUsd (r * b)) := by
    rcases le_total 0 r with hr | hr
    · exact max_le_max le_rfl (min_le_min le_rfl (mul_le_mul_of_nonneg_left hab hr))
    · have hnonpos : r * a ≤ 0 := mul_nonpos_of_nonpos_of_nonneg hr ha
      rw [max_eq_left ((min_le_right _ _).trans (hnonpos.trans hcfg.min_nonneg))]
      exact le_max_left _ _
  exact min_le_min (min_le_min hclamp le_rfl) le_rfl

variable {y : ℚ}

theorem gated_mono (state : PortfolioState) (hxy : x ≤ y) : gated cfg state x ≤ gated cfg state y := by
  rw [gated, gated]
  split
  · exact le_rfl
  · exact hxy

theorem thinned_mono (hcfg : Valid cfg) (liquidity : Option LiquidityInfo) (price : ℚ) (hxy : x ≤ y) :
    thinned cfg liquidity price x ≤ thinned cfg liquidity price y := by
  cases liquidity with
  | none => exact hxy
  | some liq =>
    refine mul_le_mul_of_nonneg_right ?_ (spreadScale_mem cfg hcfg _).1
    split
    · exact min_le_min hxy le_rfl
    · exact hxy

theorem cutOff_mono (hx : 0 ≤ x) (hxy : x ≤ y) : cutOff cfg x ≤ cutOff cfg y := by
  rcases cutOff_cases cfg (hx.trans hxy) with hzero | ⟨-, hy⟩
  · -- the larger size is dropped, so the smaller one is
    rw [hzero]
    rw [cutOff] at hzero ⊢
    split
    · exact le_rfl
    · rename_i hnot
      split at hzero
      · rename_i hdrop
        exact not_lt.mp fun hpos => hnot ⟨hpos, hxy.trans_lt hdrop.2⟩
      · exact hzero ▸ hxy
  · rw [hy]
    exact (cutOff_le cfg hx).trans hxy

theorem confidenceScale_nonneg (hcfg : Valid cfg) (confidence : ℚ) : 0 ≤ confidenceScale cfg confidence := by
  have hnonneg : 0 ≤ clampConfidence confidence := le_max_left _ _
  have hone := hcfg.confidenceScale_le_one
  exact add_nonneg hcfg.confidenceScale_nonneg (mul_nonneg (by linarith) hnonneg)

theorem confidenceScale_mono (hcfg : Valid cfg) {c c' : ℚ} (h : c ≤ c') : confidenceScale cfg c ≤ confidenceScale cfg c' := by
  have hclamp : clampConfidence c ≤ clampConfidence c' := max_le_max le_rfl (min_le_min le_rfl h)
  have hone := hcfg.confidenceScale_le_one
  have hmul : (1 - cfg.minConfidenceScale) * clampConfidence c ≤ (1 - cfg.minConfidenceScale) * clampConfidence c' :=
    mul_le_mul_of_nonneg_left hclamp (by linarith)
  rw [confidenceScale, confidenceScale]
  linarith

theorem volMultiplier_nonneg (hcfg : Valid cfg) (atrPct : ℚ) : 0 ≤ volMultiplier cfg atrPct :=
  hcfg.volScaleMin_pos.le.trans (le_max_left _ _)

theorem volMultiplier_antitone (hcfg : Valid cfg) (h : a ≤ b) : volMultiplier cfg b ≤ volMultiplier cfg a := by
  have hfloor : 0 < cfg.referenceAtrPct * (1 / 4) := mul_pos hcfg.referenceAtrPct (by norm_num)
  have hmax : max a (cfg.referenceAtrPct * (1 / 4)) ≤ max b (cfg.referenceAtrPct * (1 / 4)) := max_le_max h le_rfl
  have hdiv : cfg.referenceAtrPct / max b (cfg.referenceAtrPct * (1 / 4)) ≤ cfg.referenceAtrPct / max a (cfg.referenceAtrPct * (1 / 4)) :=
    div_le_div_of_nonneg_left hcfg.referenceAtrPct.le (hfloor.trans_le (le_max_right _ _)) hmax
  exact max_le_max le_rfl (min_le_min le_rfl hdiv)

theorem atrScale_nonneg (hcfg : Valid cfg) (volatility : Option VolatilityInfo) : 0 ≤ atrScale cfg volatility := by
  cases volatility with
  | none => exact zero_le_one
  | some vol =>
    rw [atrScale]
    split
    · exact volMultiplier_nonneg hcfg _
    · exact zero_le_one

theorem atrScale_antitone (hcfg : Valid cfg) {vol vol' : VolatilityInfo} (hprice : vol'.price = vol.price) (hatr : 0 < vol.atr)
    (hle : vol.atr ≤ vol'.atr) : atrScale cfg (some vol') ≤ atrScale cfg (some vol) := by
  by_cases hpos : vol.price > 0
  · have hpct : vol.atrPct = vol.atr / vol.price := if_pos ⟨hpos, hatr⟩
    have hpct' : vol'.atrPct = vol'.atr / vol.price := by
      rw [VolatilityInfo.atrPct, hprice, if_pos ⟨hpos, hatr.trans_le hle⟩]
    have hgt : vol.atrPct > 0 := hpct ▸ div_pos hatr hpos
    have hmono : vol.atrPct ≤ vol'.atrPct := by
      rw [hpct, hpct']
      exact div_le_div_of_nonneg_right hle hpos.le
    rw [atrScale, atrScale]
    by_cases hadjust : cfg.volatilityAdjustment = true
    · rw [if_pos ⟨hadjust, hgt.trans_le hmono⟩, if_pos ⟨hadjust, hgt⟩]
      exact volMultiplier_antitone hcfg hmono
    · rw [if_neg fun h => hadjust h.1, if_neg fun h => hadjust h.1]
  · have hpct : vol.atrPct = 0 := if_neg fun h => hpos h.1
    have hpct' : vol'.atrPct = 0 := if_neg fun h => hpos (hprice ▸ h.1)
    simp only [atrScale, hpct, hpct']
    exact le_rfl

theorem spreadScale_antitone (hcfg : Valid cfg) (h : a ≤ b) : spreadScale cfg b ≤ spreadScale cfg a := by
  by_cases ha : a > 0 ∧ a > cfg.spreadPenaltyThreshold
  · have hb : b > 0 ∧ b > cfg.spreadPenaltyThreshold := ⟨ha.1.trans_le h, ha.2.trans_le h⟩
    have hratio : a / cfg.spreadPenaltyThreshold ≤ b / cfg.spreadPenaltyThreshold :=
      div_le_div_of_nonneg_right h hcfg.spreadPenaltyThreshold.le
    have hpenalty : spreadPenalty cfg a ≤ spreadPenalty cfg b :=
      min_le_min le_rfl (mul_le_mul_of_nonneg_left (by linarith) hcfg.spreadPenaltyFactor_nonneg)
    rw [spreadScale, spreadScale, if_pos ha, if_pos hb]
    linarith
  · have hone : spreadScale cfg a = 1 := if_neg ha
    rw [hone]
    exact (spreadScale_mem cfg hcfg b).2

theorem spreadPct_mono {liq' : LiquidityInfo} (hmid : liq'.midPrice = liq.midPrice) (hspread : liq.spread ≤ liq'.spread) :
    liq.spreadPct ≤ liq'.spreadPct := by
  rw [LiquidityInfo.spreadPct, LiquidityInfo.spreadPct, hmid]
  split
  · rename_i hpos
    exact div_le_div_of_nonneg_right hspread hpos.le
  · exact le_rfl

/-! ## The limits -/

section
variable (cfg)
variable (state : PortfolioState) (confidence price : ℚ) (liquidity : Option LiquidityInfo) (volatility : Option VolatilityInfo)

structure RespectsLimits : Prop where
  range : sizedUsd cfg confidence state price liquidity volatility = 0 ∨
    (cfg.minPositionUsd ≤ sizedUsd cfg confidence state price liquidity volatility ∧
      sizedUsd cfg confidence state price liquidity volatility ≤ cfg.maxPositionUsd)
  pct : sizedUsd cfg confidence state price liquidity volatility ≤ cfg.maxPositionPct * state.netLiquidation
  exposure : sizedUsd cfg confidence state price liquidity volatility ≤
    max 0 (cfg.maxTotalExposurePct * state.netLiquidation - (state.grossPositionValue + state.pendingProposalValue))
  adv : ∀ liq, liquidity = some liq → 0 < liq.avgDailyVolume → 0 < effectivePrice price liquidity →
    sizedUsd cfg confidence state price liquidity volatility ≤ cfg.maxAdvPct * liq.avgDailyVolume * effectivePrice price liquidity
  positions : cfg.maxPositions ≤ state.positionCount → sizedUsd cfg confidence state price liquidity volatility = 0
  dailyLoss : state.dailyPnl < 0 → cfg.dailyLossLimitUsd ≤ -state.dailyPnl →
    sizedUsd cfg confidence state price liquidity volatility = 0
  quantity : (compute cfg confidence (some state) price liquidity volatility).quantity * quantityPrice price liquidity ≤
      sizedUsd cfg confidence state price liquidity volatility ∧
    (compute cfg confidence (some state) price liquidity volatility).quantity * price ≤
      sizedUsd cfg confidence state price liquidity volatility

/-- No input moves the size the wrong way; an ATR of zero is a missing one. -/
structure MovesTheRightWay : Prop where
  inConfidence : ∀ confidence', confidence ≤ confidence' →
    sizedUsd cfg confidence state price liquidity volatility ≤ sizedUsd cfg confidence' state price liquidity volatility
  inAtr : ∀ vol vol', volatility = some vol → vol'.price = vol.price → 0 < vol.atr → vol.atr ≤ vol'.atr →
    sizedUsd cfg confidence state price liquidity (some vol') ≤ sizedUsd cfg confidence state price liquidity volatility
  inExposure : ∀ gross pending, state.grossPositionValue ≤ gross → state.pendingProposalValue ≤ pending →
    sizedUsd cfg confidence { state with grossPositionValue := gross, pendingProposalValue := pending } price liquidity volatility ≤
      sizedUsd cfg confidence state price liquidity volatility
  inSpread : ∀ liq liq', liquidity = some liq → liq'.avgDailyVolume = liq.avgDailyVolume → liq'.midPrice = liq.midPrice →
    liq.spread ≤ liq'.spread →
    sizedUsd cfg confidence state price (some liq') volatility ≤ sizedUsd cfg confidence state price liquidity volatility

end

theorem quantity_mul_le {sized price : ℚ} (hsized : 0 ≤ sized) : (quantity sized price : ℚ) * price ≤ sized := by
  rw [quantity]
  split
  · rename_i h
    exact (le_div_iff₀ h.1).mp (Int.floor_le _)
  · simpa using hsized

theorem quantity_nonneg (sized price : ℚ) : 0 ≤ quantity sized price := by
  rw [quantity]
  split
  · rename_i h
    exact Int.floor_nonneg.mpr (div_pos h.2 h.1).le
  · exact le_rfl

theorem respectsLimits (hcfg : Valid cfg) {state : PortfolioState} (hnet : 0 < state.netLiquidation) (confidence price : ℚ)
    (liquidity : Option LiquidityInfo) (volatility : Option VolatilityInfo) :
    RespectsLimits cfg state confidence price liquidity volatility := by
  have heq := sizedUsd_eq hcfg hnet confidence price liquidity volatility
  generalize hx : raw cfg state * (confidenceScale cfg confidence * atrScale cfg volatility) = x at heq
  have hlimited := limited_nonneg cfg hcfg hnet x
  have hgated : 0 ≤ gated cfg state _ := gated_nonneg cfg hlimited
  have hthinned := thinned_nonneg cfg hcfg liquidity (effectivePrice price liquidity) hgated
  -- each step only lowers the size
  have hsize : sizedUsd cfg confidence state price liquidity volatility ≤ thinned cfg liquidity (effectivePrice price liquidity)
      (gated cfg state (limited cfg state x)) := heq ▸ cutOff_le cfg hthinned
  have hlow : sizedUsd cfg confidence state price liquidity volatility ≤ limited cfg state x :=
    hsize.trans ((thinned_le cfg hcfg _ _ hgated).trans (gated_le cfg hlimited))
  have hnonneg : 0 ≤ sizedUsd cfg confidence state price liquidity volatility := by
    rcases cutOff_cases cfg hthinned with hzero | ⟨-, hsame⟩
    · rw [heq, hzero]
    · rw [heq, hsame]
      exact hthinned
  have hstopped : Stopped cfg state → sizedUsd cfg confidence state price liquidity volatility = 0 := by
    intro hstop
    have hzero : gated cfg state (limited cfg state x) = 0 := if_pos hstop
    rw [hzero] at hsize
    exact le_antisymm (hsize.trans (thinned_le cfg hcfg _ _ le_rfl)) hnonneg
  constructor
  · rcases cutOff_cases cfg hthinned with hzero | ⟨hmin, -⟩
    · exact .inl (heq.trans hzero)
    · refine .inr ⟨heq ▸ hmin, hlow.trans ?_⟩
      exact (min_le_left _ _).trans ((min_le_left _ _).trans (max_le hcfg.min_le_max (min_le_left _ _)))
  · rw [mul_comm]
    exact hlow.trans ((min_le_left _ _).trans (min_le_right _ _))
  · rw [mul_comm cfg.maxTotalExposurePct]
    exact hlow.trans (min_le_right _ _)
  · rintro liq rfl hvolume hprice
    have hcap := thinned_le_capped cfg hcfg liq (effectivePrice price (some liq)) hgated
    rw [if_pos ⟨hvolume, hprice⟩] at hcap
    rw [mul_comm cfg.maxAdvPct]
    exact hsize.trans (hcap.trans (min_le_right _ _))
  · intro hcount
    exact hstopped (.inl hcount)
  · intro hloss hlimit
    refine hstopped (.inr ⟨hloss, ?_⟩)
    rw [abs_of_neg hloss]
    exact hlimit
  · refine ⟨quantity_mul_le hnonneg, ?_⟩
    by_cases hprice : price ≤ 0
    · exact (mul_nonpos_of_nonneg_of_nonpos (by exact_mod_cast quantity_nonneg _ _) hprice).trans hnonneg
    · have hsame : quantityPrice price liquidity = price := by
        have heffective : effectivePrice price liquidity = price := by
          cases liquidity with
          | none => rfl
          | some liq => exact if_neg fun h => hprice h.1
        rw [quantityPrice, heffective, if_pos (not_le.mp hprice)]
      have hquantity : quantity _ (quantityPrice price liquidity) * quantityPrice price liquidity ≤ _ := quantity_mul_le hnonneg
      rw [hsame] at hquantity
      show (quantity _ (quantityPrice price liquidity) : ℚ) * price ≤ _
      rw [hsame]
      exact hquantity

theorem steps_mono (hcfg : Valid cfg) (state : PortfolioState) (liquidity : Option LiquidityInfo) (price : ℚ)
    (hx : 0 ≤ x) (hxy : x ≤ y) :
    cutOff cfg (thinned cfg liquidity price (gated cfg state x)) ≤ cutOff cfg (thinned cfg liquidity price (gated cfg state y)) :=
  cutOff_mono (thinned_nonneg cfg hcfg _ _ (gated_nonneg cfg hx)) (thinned_mono hcfg _ _ (gated_mono state hxy))

theorem movesTheRightWay (hcfg : Valid cfg) {state : PortfolioState} (hnet : 0 < state.netLiquidation) (confidence price : ℚ)
    (liquidity : Option LiquidityInfo) (volatility : Option VolatilityInfo) :
    MovesTheRightWay cfg state confidence price liquidity volatility := by
  have hscale := confidenceScale_nonneg hcfg confidence
  constructor
  · intro confidence' hle
    rw [sizedUsd_eq hcfg hnet, sizedUsd_eq hcfg hnet]
    have hatr := atrScale_nonneg hcfg volatility
    refine steps_mono hcfg state liquidity _ (limited_nonneg cfg hcfg hnet _) ?_
    exact limited_mul hcfg state (mul_nonneg hscale hatr) (mul_le_mul_of_nonneg_right (confidenceScale_mono hcfg hle) hatr)
  · rintro vol vol' rfl hprice hatr hle
    rw [sizedUsd_eq hcfg hnet, sizedUsd_eq hcfg hnet]
    have hfactor := atrScale_antitone hcfg hprice hatr hle
    refine steps_mono hcfg state liquidity _ (limited_nonneg cfg hcfg hnet _) ?_
    exact limited_mul hcfg state (mul_nonneg hscale (atrScale_nonneg hcfg _)) (mul_le_mul_of_nonneg_left hfactor hscale)
  · intro gross pending hgross hpending
    have hnet' : 0 < { state with grossPositionValue := gross, pendingProposalValue := pending }.netLiquidation := hnet
    rw [sizedUsd_eq hcfg hnet, sizedUsd_eq hcfg hnet']
    refine steps_mono hcfg state liquidity _ (limited_nonneg cfg hcfg hnet' _) ?_
    -- only what the exposure limit leaves is different
    refine min_le_min le_rfl (max_le_max le_rfl ?_)
    show state.netLiquidation * cfg.maxTotalExposurePct - (gross + pending) ≤ _
    linarith
  · rintro liq liq' rfl hvolume hmid hspread
    rw [sizedUsd_eq hcfg hnet, sizedUsd_eq hcfg hnet]
    have hprice : effectivePrice price (some liq') = effectivePrice price (some liq) := by
      simp only [effectivePrice, hmid]
    have hcap : ∀ price, maxByAdv cfg liq' price = maxByAdv cfg liq price := by
      intro price
      rw [maxByAdv, maxByAdv, hvolume]
    rw [hprice]
    have hlimited : 0 ≤ gated cfg state _ := gated_nonneg cfg
      (limited_nonneg cfg hcfg hnet (raw cfg state * (confidenceScale cfg confidence * atrScale cfg volatility)))
    refine cutOff_mono (thinned_nonneg cfg hcfg _ _ hlimited) ?_
    simp only [thinned, hvolume, hcap]
    exact mul_le_mul_of_nonneg_left (spreadScale_antitone hcfg (spreadPct_mono hmid hspread)) (capped_nonneg cfg hcfg liq _ hlimited)

/-- **A computed size respects every limit at once and moves the right way.** -/
theorem sizing_respects_limits (cfg : PositionSizingConfig) (hcfg : Valid cfg) (state : PortfolioState) (hnet : 0 < state.netLiquidation)
    (confidence price : ℚ) (liquidity : Option LiquidityInfo) (volatility : Option VolatilityInfo) :
    RespectsLimits cfg state confidence price liquidity volatility ∧ MovesTheRightWay cfg state confidence price liquidity volatility :=
  ⟨respectsLimits hcfg hnet confidence price liquidity volatility, movesTheRightWay hcfg hnet confidence price liquidity volatility⟩

theorem valid_default : Valid .default := by
  constructor <;> norm_num [PositionSizingConfig.default]

theorem sizing_respects_limits_default :
    RespectsLimits .default ⟨100000, 70000, 0, 3, 0⟩ (9 / 10) 0 (some ⟨10000, 99, 101, 100, 5, 5⟩) (some ⟨1, 100⟩) ∧
      MovesTheRightWay .default ⟨100000, 70000, 0, 3, 0⟩ (9 / 10) 0 (some ⟨10000, 99, 101, 100, 5, 5⟩) (some ⟨1, 100⟩) :=
  sizing_respects_limits .default valid_default ⟨100000, 70000, 0, 3, 0⟩ (by norm_num) (9 / 10) 0
    (some ⟨10000, 99, 101, 100, 5, 5⟩) (some ⟨1, 100⟩)

/-- Without an ATR the size is not scaled, and a small ATR doubles it; a quote without a daily volume caps nothing. -/
theorem no_atr_is_no_low_atr :
    sizedUsd .default 1 ⟨1000000, 0, 0, 0, 0⟩ 100 none (some ⟨0, 100⟩) <
        sizedUsd .default 1 ⟨1000000, 0, 0, 0, 0⟩ 100 none (some ⟨1, 100⟩) ∧
      (⟨0, 100, 100, 100, 0, 0⟩ : LiquidityInfo).hasData ∧
      PositionSizingConfig.default.maxAdvPct * 0 * 100 <
        sizedUsd .default 1 ⟨1000000, 0, 0, 0, 0⟩ 100 (some ⟨0, 100, 100, 100, 0, 0⟩) none := by
  decide +kernel

end

end PositionSizer

end MmrTrader.Sizing
