import Mathlib.Algebra.Order.Ring.Rat
import Mathlib.Data.List.Basic
import MmrTrader.Lib.Revisions
import MmrTrader.Lib.Table
import MmrTrader.Lib.Transaction

/-!
# Risk limits

Executable model of `trader/automation/risk_limits.py`, over exact rationals.

* `RiskLimits` — two counts and five fractions, each checked when it is built.
* `RiskLimits.Within` — fieldwise at most; `tighter` is its infimum (`within_tighter`).
-/

set_option autoImplicit false

namespace MmrTrader.RiskPolicy

abbrev Count := { n : Nat // 1 ≤ n }

abbrev Fraction := { q : ℚ // 0 < q }

structure RiskLimits where
  maxPositions : Count
  positionFraction : Fraction
  grossFraction : Fraction
  tradeRiskFraction : Fraction
  dailyLossFraction : Fraction
  drawdownFraction : Fraction
  maxPendingEntryOrders : Count
  deriving DecidableEq

inductive LimitField where
  | max_positions
  | position_fraction
  | gross_fraction
  | trade_risk_fraction
  | daily_loss_fraction
  | drawdown_fraction
  | max_pending_entry_orders
  deriving DecidableEq

inductive StructuralProblem where
  | GROSS_ABOVE_ONE
  | POSITION_ABOVE_GROSS
  | DAILY_LOSS_NOT_BELOW_ONE
  | DRAWDOWN_NOT_BELOW_ONE
  deriving DecidableEq

namespace RiskLimits

def FIELDS : List LimitField :=
  [.max_positions, .position_fraction, .gross_fraction, .trade_risk_fraction, .daily_loss_fraction, .drawdown_fraction,
    .max_pending_entry_orders]

/-- `getattr`. -/
def value (l : RiskLimits) : LimitField → ℚ
  | .max_positions => l.maxPositions.val
  | .position_fraction => l.positionFraction.val
  | .gross_fraction => l.grossFraction.val
  | .trade_risk_fraction => l.tradeRiskFraction.val
  | .daily_loss_fraction => l.dailyLossFraction.val
  | .drawdown_fraction => l.drawdownFraction.val
  | .max_pending_entry_orders => l.maxPendingEntryOrders.val

def lowerCount (a b : Count) : Count := if a.val ≤ b.val then a else b

def lowerFraction (a b : Fraction) : Fraction := if a.val ≤ b.val then a else b

def tighter (a b : RiskLimits) : RiskLimits where
  maxPositions := lowerCount a.maxPositions b.maxPositions
  positionFraction := lowerFraction a.positionFraction b.positionFraction
  grossFraction := lowerFraction a.grossFraction b.grossFraction
  tradeRiskFraction := lowerFraction a.tradeRiskFraction b.tradeRiskFraction
  dailyLossFraction := lowerFraction a.dailyLossFraction b.dailyLossFraction
  drawdownFraction := lowerFraction a.drawdownFraction b.drawdownFraction
  maxPendingEntryOrders := lowerCount a.maxPendingEntryOrders b.maxPendingEntryOrders

def fieldsAbove (a b : RiskLimits) : List LimitField := FIELDS.filter fun f => decide (b.value f < a.value f)

def structuralProblems (l : RiskLimits) : List StructuralProblem :=
  ([(decide (l.grossFraction.val ≤ 1), .GROSS_ABOVE_ONE),
    (decide (l.positionFraction.val ≤ l.grossFraction.val), .POSITION_ABOVE_GROSS),
    (decide (l.dailyLossFraction.val < 1), .DAILY_LOSS_NOT_BELOW_ONE),
    (decide (l.drawdownFraction.val < 1), .DRAWDOWN_NOT_BELOW_ONE)].filter fun c => !c.1).map (·.2)

/-- Fieldwise at most. -/
def Within (a b : RiskLimits) : Prop := ∀ f, a.value f ≤ b.value f

instance (a b : RiskLimits) : Decidable (a.Within b) :=
  decidable_of_iff (∀ f ∈ FIELDS, a.value f ≤ b.value f)
    ⟨fun h f => h f (by cases f <;> simp [FIELDS]), fun h f _ => h f⟩

variable {a b c : RiskLimits}

theorem mem_FIELDS (f : LimitField) : f ∈ FIELDS := by cases f <;> simp [FIELDS]

theorem lowerFraction_val (x y : Fraction) : (lowerFraction x y).val = min x.val y.val := by
  unfold lowerFraction
  split
  · rw [min_eq_left ‹_›]
  · rw [min_eq_right (le_of_not_ge ‹_›)]

theorem lowerCount_val (x y : Count) : ((lowerCount x y).val : ℚ) = min (x.val : ℚ) (y.val : ℚ) := by
  unfold lowerCount
  split
  · rw [min_eq_left (by exact_mod_cast ‹_›)]
  · rw [min_eq_right (by exact_mod_cast le_of_not_ge ‹_›)]

/-- **Each field of `tighter` is the lower one.** -/
theorem value_tighter (a b : RiskLimits) (f : LimitField) : (a.tighter b).value f = min (a.value f) (b.value f) := by
  cases f with
  | max_positions => exact lowerCount_val _ _
  | max_pending_entry_orders => exact lowerCount_val _ _
  | _ => exact lowerFraction_val _ _

theorem Within.refl (a : RiskLimits) : a.Within a := fun _ => le_refl _

theorem Within.trans (h : a.Within b) (h' : b.Within c) : a.Within c := fun f => (h f).trans (h' f)

theorem tighter_within_left (a b : RiskLimits) : (a.tighter b).Within a := fun f => by
  rw [value_tighter]
  exact min_le_left _ _

theorem tighter_within_right (a b : RiskLimits) : (a.tighter b).Within b := fun f => by
  rw [value_tighter]
  exact min_le_right _ _

theorem within_tighter (ha : c.Within a) (hb : c.Within b) : c.Within (a.tighter b) := fun f => by
  rw [value_tighter]
  exact le_min (ha f) (hb f)

theorem fieldsAbove_eq_nil : a.fieldsAbove b = [] ↔ a.Within b := by
  unfold fieldsAbove Within
  rw [List.filter_eq_nil_iff]
  simp only [decide_eq_true_eq, not_lt]
  exact ⟨fun h f => h f (mem_FIELDS f), fun h f _ => h f⟩

theorem structuralProblems_eq_nil : a.structuralProblems = [] ↔
    a.value .gross_fraction ≤ 1 ∧ a.value .position_fraction ≤ a.value .gross_fraction ∧
      a.value .daily_loss_fraction < 1 ∧ a.value .drawdown_fraction < 1 := by
  unfold structuralProblems
  rw [List.map_eq_nil_iff, List.filter_eq_nil_iff]
  simp [value]

/-- **The tighter of two consistent limits is consistent.** -/
theorem structuralProblems_tighter (ha : a.structuralProblems = []) (hb : b.structuralProblems = []) :
    (a.tighter b).structuralProblems = [] := by
  rw [structuralProblems_eq_nil] at ha hb ⊢
  simp only [value_tighter]
  exact ⟨(min_le_left _ _).trans ha.1, min_le_min ha.2.1 hb.2.1, (min_le_left _ _).trans_lt ha.2.2.1,
    (min_le_left _ _).trans_lt ha.2.2.2⟩

end RiskLimits

end MmrTrader.RiskPolicy

/-!
## Published policies, sessions and effective limits

Executable model of `trader/automation/ai_risk_policy.py`.

* `PolicyDb` — the published revisions, the sessions and the effective limits of every account.
* `Service` — one process: its account, the ceiling it is configured with, and the calendar.
* `Service.publish`, `Service.ensureSession`, `Service.latch`, `Service.setCutoffCancelState` — the writers.
* `Service.viewInTx` — what admission reads.
-/

namespace MmrTrader.RiskPolicy

open Lib

structure PolicyRevision where
  accountId : String
  revision : Nat
  limits : RiskLimits
  reason : String
  principal : String
  commandId : String
  publishedAt : Int
  deriving DecidableEq

inductive CutoffCancelState where
  | ISSUED
  | AMBIGUOUS
  | DONE
  deriving DecidableEq

structure Latch where
  code : String
  detail : String
  latchedAt : Int
  deriving DecidableEq

structure SessionRow where
  accountId : String
  sessionDate : Int
  anchor : ℚ
  anchorGeneration : Int
  ceiling : RiskLimits
  startedAt : Int
  latch : Option Latch
  cutoffCancelState : Option CutoffCancelState
  cutoffCancelGeneration : Option Int
  deriving DecidableEq

inductive Cause where
  | first_policy
  | published_tighter
  | session_start
  | ceiling_tighter
  deriving DecidableEq

structure EffectiveRow where
  accountId : String
  sessionDate : Int
  revision : Nat
  limits : RiskLimits
  publishedRevision : Nat
  cause : Cause
  createdAt : Int
  deriving DecidableEq

def PolicyRevision.key (r : PolicyRevision) : String × Nat := (r.accountId, r.revision)

def SessionRow.key (r : SessionRow) : String × Int := (r.accountId, r.sessionDate)

def EffectiveRow.key (r : EffectiveRow) : String × Int × Nat := (r.accountId, r.sessionDate, r.revision)

structure PolicyDb where
  revisions : Table PolicyRevision.key
  sessions : Table SessionRow.key
  effective : Table EffectiveRow.key
  deriving DecidableEq

def PolicyDb.empty : PolicyDb := ⟨Table.empty, Table.empty, Table.empty⟩

/-- The codes of `PolicyRefused`, and the errors of the statements. -/
inductive PolicyError where
  | POLICY_INVALID (problems : List StructuralProblem)
  | POLICY_ABOVE_CEILING (fields : List LimitField)
  | REASON_INVALID
  | SESSION_EVIDENCE_INVALID
  | NO_SESSION
  | valueError
  | duplicateKey
  deriving DecidableEq

/-- The broker snapshot; an amount that is not a finite number is absent. -/
structure Broker where
  accountId : String
  accountMode : String
  generationId : Int
  netLiquidation : Option ℚ
  dailyPnl : Option ℚ
  deriving DecidableEq

structure PublishResult where
  revision : Nat
  appliedNow : List LimitField
  queued : List LimitField
  deriving DecidableEq

structure SessionView where
  sessionDate : Int
  anchor : ℚ
  ceiling : RiskLimits
  effective : Option RiskLimits
  effectiveRevision : Option Nat
  publishedRevision : Option Nat
  queued : List LimitField
  latchCode : Option String
  cutoffCancelState : Option CutoffCancelState
  cutoffCancelGeneration : Option Int
  deriving DecidableEq

structure Service where
  accountId : String
  ceiling : RiskLimits
  /-- The session date of the calendar, when there is a session. -/
  sessionDate : Int → Option Int

abbrev PolicyTx := EStateM PolicyError PolicyDb

def MAX_REASON_LENGTH : Nat := 500

namespace PolicyDb

def revisionsOf (db : PolicyDb) (account : String) : List PolicyRevision :=
  db.revisions.rows.filter fun r => r.accountId = account

def effectiveOf (db : PolicyDb) (account : String) (date : Int) : List EffectiveRow :=
  db.effective.rows.filter fun r => r.accountId = account ∧ r.sessionDate = date

def latestPublished (db : PolicyDb) (account : String) : Option PolicyRevision :=
  newest PolicyRevision.revision (db.revisionsOf account)

def effectiveNow (db : PolicyDb) (account : String) (date : Int) : Option EffectiveRow :=
  newest EffectiveRow.revision (db.effectiveOf account date)

def session (db : PolicyDb) (account : String) (date : Int) : Option SessionRow := db.sessions.get? (account, date)

end PolicyDb

def viewInTx (db : PolicyDb) (account : String) (date : Int) : Option SessionView :=
  (db.session account date).map fun session =>
    let current := db.effectiveNow account date
    { sessionDate := session.sessionDate
      anchor := session.anchor
      ceiling := session.ceiling
      effective := current.map EffectiveRow.limits
      effectiveRevision := current.map EffectiveRow.revision
      publishedRevision := current.map EffectiveRow.publishedRevision
      queued := match current, db.latestPublished account with
        | some c, some l => (l.limits.tighter session.ceiling).fieldsAbove c.limits
        | _, _ => []
      latchCode := session.latch.map Latch.code
      cutoffCancelState := session.cutoffCancelState
      cutoffCancelGeneration := session.cutoffCancelGeneration }

/-! ## The statements -/

def insertRevision (row : PolicyRevision) : PolicyTx Unit := do
  let db ← get
  -- `command_id` is UNIQUE over all accounts
  Tx.refuseIf (db.revisions.rows.any fun r => r.commandId == row.commandId) .duplicateKey
  match db.revisions.insert? row with
  | none => throw .duplicateKey
  | some t => set { db with revisions := t }

def appendEffectiveInTx (account : String) (date : Int) (limits : RiskLimits) (publishedRevision : Nat) (cause : Cause)
    (now : Int) : PolicyTx Unit := do
  let db ← get
  let row : EffectiveRow := ⟨account, date, nextRevision EffectiveRow.revision (db.effectiveOf account date), limits,
    publishedRevision, cause, now⟩
  match db.effective.insert? row with
  | none => throw .duplicateKey
  | some t => set { db with effective := t }

/-- `INSERT INTO ai_paper_sessions … ON CONFLICT DO NOTHING`. -/
def insertSession (row : SessionRow) : PolicyTx Unit := do
  let db ← get
  match db.sessions.insert? row with
  | none => pure ()
  | some t => set { db with sessions := t }

/-- `UPDATE ai_paper_sessions SET … WHERE account_id = … AND session_date = …`. -/
def PolicyDb.updateSession (db : PolicyDb) (account : String) (date : Int) (f : SessionRow → SessionRow)
    (hf : ∀ r, (f r).key = r.key) : PolicyDb :=
  { db with sessions := db.sessions.updateWhere (fun r => r.key == (account, date)) f hf }

/-! ## Checks -/

def isBlank (text : String) : Bool := text.toList.all Char.isWhitespace

namespace Service

variable (S : Service)

def checkPolicy (limits : RiskLimits) : Except PolicyError Unit :=
  if limits.structuralProblems ≠ [] then .error (.POLICY_INVALID limits.structuralProblems)
  else if limits.fieldsAbove S.ceiling ≠ [] then .error (.POLICY_ABOVE_CEILING (limits.fieldsAbove S.ceiling))
  else .ok ()

def checkReason (reason : String) : Except PolicyError Unit :=
  if isBlank reason ∨ MAX_REASON_LENGTH < reason.length then .error .REASON_INVALID else .ok ()

/-- The start-of-day anchor. -/
def checkBroker (broker : Broker) : Except PolicyError ℚ :=
  match broker.netLiquidation, broker.dailyPnl with
  | some net, some pnl =>
    if broker.accountId = S.accountId ∧ broker.accountMode = "paper" ∧ 0 < broker.generationId ∧ 0 < net - pnl then
      .ok (net - pnl)
    else .error .SESSION_EVIDENCE_INVALID
  | _, _ => .error .SESSION_EVIDENCE_INVALID

/-! ## Transactions -/

def applyPolicy (limits : RiskLimits) (revision : Nat) (date : Int) (session : SessionRow) (now : Int) :
    PolicyTx PublishResult := do
  let cap := session.ceiling.tighter S.ceiling
  match (← get).effectiveNow S.accountId date with
  | none =>
    -- the first policy of the session applies at once
    let new := limits.tighter cap
    appendEffectiveInTx S.accountId date new revision .first_policy now
    return ⟨revision, RiskLimits.FIELDS, (limits.tighter cap).fieldsAbove new⟩
  | some current =>
    let new := current.limits.tighter limits
    let applied := current.limits.fieldsAbove new
    if applied ≠ [] then
      appendEffectiveInTx S.accountId date new revision .published_tighter now
    return ⟨revision, applied, (limits.tighter cap).fieldsAbove new⟩

def publishInTx (limits : RiskLimits) (reason principal commandId : String) (now : Int) (date : Option Int) :
    PolicyTx PublishResult := do
  let revision := nextRevision PolicyRevision.revision ((← get).revisionsOf S.accountId)
  insertRevision ⟨S.accountId, revision, limits, reason, principal, commandId, now⟩
  match date with
  | none => return ⟨revision, [], []⟩
  | some date =>
    match (← get).session S.accountId date with
    | none => return ⟨revision, [], []⟩
    | some session => S.applyPolicy limits revision date session now

def publish (limits : RiskLimits) (reason principal commandId : String) (broker : Broker) (now : Int) :
    PolicyTx PublishResult := do
  Tx.check (S.checkPolicy limits)
  Tx.check (checkReason reason)
  let _ ← Tx.check (S.checkBroker broker)
  transaction none (S.publishInTx limits reason principal commandId now (S.sessionDate now))

/-- What the session's first decision, or a lowered ceiling, adds. -/
def refreshInTx (date : Int) (session : SessionRow) (now : Int) : PolicyTx Unit := do
  let db ← get
  match db.effectiveNow S.accountId date, db.latestPublished S.accountId with
  | none, some latest =>
    let cap := session.ceiling.tighter S.ceiling
    appendEffectiveInTx S.accountId date (latest.limits.tighter cap) latest.revision .session_start now
  | some current, _ =>
    -- a ceiling lowered in `trader.yaml` applies at the next decision
    if current.limits.fieldsAbove S.ceiling ≠ [] then
      appendEffectiveInTx S.accountId date (current.limits.tighter S.ceiling) current.publishedRevision .ceiling_tighter now
  | none, none => pure ()

def ensureInTx (date : Int) (anchor : ℚ) (generation now : Int) : PolicyTx (Option SessionView) := do
  if (← get).session S.accountId date = none then
    insertSession ⟨S.accountId, date, anchor, generation, S.ceiling, now, none, none, none⟩
  match (← get).session S.accountId date with
  | none => throw .NO_SESSION
  | some session =>
    S.refreshInTx date session now
    return viewInTx (← get) S.accountId date

def ensureSession (broker : Broker) (now : Int) : PolicyTx (Option SessionView) := do
  let anchor ← Tx.check (S.checkBroker broker)
  match S.sessionDate now with
  | none => return none
  | some date => transaction none (S.ensureInTx date anchor broker.generationId now)

/-- The first breach wins. -/
def latch (code detail : String) (now : Int) : PolicyTx Unit :=
  transaction none do
    match S.sessionDate now with
    | none => throw .NO_SESSION
    | some date =>
      Tx.refuseIf ((← get).session S.accountId date = none) .NO_SESSION
      modify fun db => db.updateSession S.accountId date
        (fun r => { r with latch := r.latch <|> some ⟨code, detail, now⟩ }) fun _ => rfl

end Service

def CutoffCancelState.rank : CutoffCancelState → Nat
  | .ISSUED => 0
  | .AMBIGUOUS => 1
  | .DONE => 2

/-- `None` is before all. -/
def cutoffRank : Option CutoffCancelState → Int
  | none => -1
  | some s => s.rank

namespace Service

variable (S : Service)

/-- Forward only. -/
def setCutoffCancelState (date : Int) (state : CutoffCancelState) (generation : Int) : PolicyTx Unit :=
  transaction none do
    match (← get).session S.accountId date with
    | none => throw .NO_SESSION
    | some row =>
      Tx.refuseIf (cutoffRank (some state) < cutoffRank row.cutoffCancelState) .valueError
      modify fun db => db.updateSession S.accountId date
        (fun r => { r with cutoffCancelState := some state, cutoffCancelGeneration := some generation }) fun _ => rfl

end Service

/-! ## Calls -/

inductive PolicyCall where
  | publish (limits : RiskLimits) (reason principal commandId : String) (broker : Broker)
  | ensureSession (broker : Broker)
  | latch (code detail : String)
  | setCutoffCancelState (date : Int) (state : CutoffCancelState) (generation : Int)

/-- A call, by the process that makes it, at a time. -/
structure Request where
  service : Service
  now : Int
  call : PolicyCall

def Request.exec (r : Request) : PolicyTx Unit :=
  match r.call with
  | .publish limits reason principal commandId broker =>
    discard (r.service.publish limits reason principal commandId broker r.now)
  | .ensureSession broker => discard (r.service.ensureSession broker r.now)
  | .latch code detail => r.service.latch code detail r.now
  | .setCutoffCancelState date state generation => r.service.setCutoffCancelState date state generation

def step (db : PolicyDb) (r : Request) : PolicyDb :=
  match r.exec db with
  | .ok _ db' => db'
  | .error _ db' => db'

def run (requests : List Request) : PolicyDb := requests.foldl step .empty

end MmrTrader.RiskPolicy
