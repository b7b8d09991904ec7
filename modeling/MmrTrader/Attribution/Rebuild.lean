import Mathlib.Algebra.BigOperators.Group.List.Basic
import Mathlib.Data.List.MinMax
import MmrTrader.Broker.State

/-!
# Trade attribution rebuilt from evidence

Executable model of `rebuild_attribution_from_evidence` (`trader/automation/attribution.py`) and of the rows that the
broker ingest appends to the ledger.

* `Evidence`, `EvidenceRow` — the evidence kinds with the payload fields that the rebuild reads.
* `notifyFill`, `notifyCommission`, `notifyPosition` — the rows of the ingest.
* `Rebuild`, `Rebuild.read`, `readAll` — the walk over the evidence in order of time.
* `entryFills`, `exitFillStates`, `unresolvedReasons`, `rebuildAttribution` — the derived trade.

`D` is the type of the payloads that are kept whole (policy decisions, rejections, breakers, operator actions).
-/

set_option autoImplicit false

namespace MmrTrader.Attribution

open Lib

/-! ## Evidence -/

/-- The payload of an evidence row, by its `event_kind`.  A correction may leave its quantity and its price out. -/
inductive Evidence (D : Type) where
  | artifact (artifactId datasetId : Option String)
  | dataset (datasetId : Option String)
  | signal (signalId : Option String)
  | intent (intentId commandId : Option String)
  | context (approvalContextId : Option String)
  | policy (payload : D)
  | command (commandId orderGroupId : Option String)
  | order (orderGroupId : Option String)
  | fill (execId : String) (leg side : Option String) (quantity price : Option ℚ) (orderEntityId : Option String)
  | fillCorrection (execId : String) (correctionSeq : Option Int) (leg side : Option String)
      (quantity price : Option (Option ℚ)) (orderEntityId : Option String)
  | commission (execId : String) (commission : Option ℚ)
  | position (quantity : Option ℚ)
  | mfeMaeSample (price : Option ℚ)
  | quoteTiming (quoteBid quoteAsk : Option ℚ) (signalTs fillTs : Option Int)
  | rejection (payload : D)
  | breaker (payload : D)
  | operator (payload : D)
  | other
  deriving DecidableEq

/-- `AttributionEvidenceEvent`; the timestamp is the text by which the rebuild sorts. -/
structure EvidenceRow (D : Type) where
  evidenceKey : String
  tradeId : String
  event : Evidence D
  sourceTimestamp : String
  deriving DecidableEq

/-- `a or b` for texts: an empty text counts as none. -/
def pyOr (a b : Option String) : Option String :=
  match a with
  | some s => if s = "" then b else some s
  | none => b

/-- `str(a or b)`, with a text to fall back on. -/
def pyOrText (a : Option String) (b : String) : String := (pyOr a (some b)).getD b

def dec (value : Option ℚ) : ℚ := value.getD 0

/-! ## What the broker ingest appends -/

section

variable {D : Type}

/-- `_notify_attribution_fill`, for the leg of the order that the fill is bound to; `stamp` is the text of its time. -/
def notifyFill (stamp tradeId : String) (orderLeg : Option String) (fill : Broker.BrokerFillRow) : EvidenceRow D where
  evidenceKey := "fill:" ++ fill.accountId ++ ":" ++ fill.execId
  tradeId := tradeId
  event := .fill fill.execId (some (pyOrText orderLeg "entry")) (some fill.side) (some fill.quantity) (some fill.price)
    fill.orderEntityId
  sourceTimestamp := stamp

/-- `_notify_attribution_commission`, of a fill of the account. -/
def notifyCommission (stamp tradeId accountId execId : String) (commission : ℚ) : EvidenceRow D where
  evidenceKey := "commission:" ++ accountId ++ ":" ++ execId
  tradeId := tradeId
  event := .commission execId (some commission)
  sourceTimestamp := stamp

end

/-! ## The walk -/

structure FillState where
  execId : String
  leg : String
  side : String
  quantity : ℚ
  price : ℚ
  orderEntityId : Option String
  correctionSeq : Int
  deriving DecidableEq

/-- The local variables of the walk. -/
structure Rebuild (D : Type) where
  artifactId : Option String := none
  datasetId : Option String := none
  signalId : Option String := none
  intentId : Option String := none
  commandId : Option String := none
  orderGroupId : Option String := none
  approvalContextId : Option String := none
  policyDecisions : List D := []
  rejectionRefs : List D := []
  breakerRefs : List D := []
  operatorActions : List D := []
  fillsByExec : Table FillState.execId := .empty
  commissions : Table (Prod.fst : String × ℚ → String) := .empty
  positionQty : Option ℚ := none
  samples : List ℚ := []
  quoteBid : Option ℚ := none
  quoteAsk : Option ℚ := none
  latencyMs : Option Int := none

section

variable {D : Type}

/-- A fill of an execution not seen before. -/
def firstFill (execId : String) (leg side : Option String) (quantity price : Option ℚ)
    (orderEntityId : Option String) : FillState :=
  ⟨execId, pyOrText leg "entry", side.getD "", dec quantity, dec price, orderEntityId, 0⟩

def correctedFill (current : Option FillState) (execId : String) (seq : Int) (leg side : Option String)
    (quantity price : Option (Option ℚ)) (orderEntityId : Option String) : FillState where
  execId := execId
  leg := pyOrText leg ((current.map (·.leg)).getD "entry")
  side := pyOrText side ((current.map (·.side)).getD "")
  quantity := (quantity.map dec).getD ((current.map (·.quantity)).getD 0)
  price := (price.map dec).getD ((current.map (·.price)).getD 0)
  orderEntityId := pyOr orderEntityId (current.bind (·.orderEntityId))
  correctionSeq := seq

/-- One evidence row.  The first fill and the first commission of an execution win; a correction replaces the state
unless a later one has been read. -/
def Rebuild.read (tradeId : String) (s : Rebuild D) : Evidence D → Rebuild D
  | .artifact artifactId datasetId =>
    { s with artifactId := pyOr artifactId s.artifactId, datasetId := pyOr datasetId s.datasetId }
  | .dataset datasetId => { s with datasetId := pyOr datasetId s.datasetId }
  | .signal signalId => { s with signalId := pyOr signalId s.signalId }
  | .intent intentId commandId =>
    { s with intentId := pyOr intentId s.intentId, commandId := pyOr commandId s.commandId }
  | .context approvalContextId => { s with approvalContextId := pyOr approvalContextId s.approvalContextId }
  | .policy payload => { s with policyDecisions := s.policyDecisions ++ [payload] }
  | .command commandId orderGroupId =>
    { s with commandId := pyOr commandId (pyOr s.commandId (some tradeId)),
             orderGroupId := pyOr orderGroupId s.orderGroupId }
  | .order orderGroupId => { s with orderGroupId := pyOr orderGroupId s.orderGroupId }
  | .fill execId leg side quantity price orderEntityId =>
    { s with fillsByExec := (s.fillsByExec.insert? (firstFill execId leg side quantity price orderEntityId)).getD s.fillsByExec }
  | .fillCorrection execId correctionSeq leg side quantity price orderEntityId =>
    let seq := correctionSeq.getD 0
    let current := s.fillsByExec.get? execId
    if ∀ f ∈ current, f.correctionSeq ≤ seq then
      { s with fillsByExec := s.fillsByExec.upsert (correctedFill current execId seq leg side quantity price orderEntityId) }
    else s
  | .commission execId commission => { s with commissions := (s.commissions.insert? (execId, dec commission)).getD s.commissions }
  | .position quantity => { s with positionQty := some (dec quantity) }
  | .mfeMaeSample price => { s with samples := s.samples ++ [dec price] }
  | .quoteTiming quoteBid quoteAsk signalTs fillTs =>
    { s with quoteBid := quoteBid, quoteAsk := quoteAsk,
             latencyMs := match signalTs, fillTs with
               | some signal, some fill => some ((fill - signal).tdiv 1000)
               | _, _ => s.latencyMs }
  | .rejection payload => { s with rejectionRefs := s.rejectionRefs ++ [payload] }
  | .breaker payload => { s with breakerRefs := s.breakerRefs ++ [payload] }
  | .operator payload => { s with operatorActions := s.operatorActions ++ [payload] }
  | .other => s

def rowOrder (a b : EvidenceRow D) : Prop :=
  a.sourceTimestamp < b.sourceTimestamp ∨ a.sourceTimestamp = b.sourceTimestamp ∧ a.evidenceKey ≤ b.evidenceKey

instance : DecidableRel (rowOrder (D := D)) := fun _ _ => inferInstanceAs (Decidable (_ ∨ _))

def ordered (evidence : List (EvidenceRow D)) : List (Evidence D) := (evidence.insertionSort rowOrder).map (·.event)

/-- The whole walk. -/
def readAll (tradeId : String) (evidence : List (EvidenceRow D)) : Rebuild D :=
  (ordered evidence).foldl (Rebuild.read tradeId) {}

end

/-! ## The derived trade -/

def exitLegs : List String := ["stop", "take_profit", "exit", "flatten"]

def entrySides : List String := ["BOT", "BUY", "bot", "buy"]

def exitSides : List String := ["SLD", "SELL", "sld", "sell"]

namespace FillState

abbrev Buys (f : FillState) : Prop := f.side ∈ entrySides

abbrev Sells (f : FillState) : Prop := f.side ∈ exitSides

abbrev IsEntry (f : FillState) : Prop := f.leg = "entry" ∨ f.Buys

abbrev OnExitLeg (f : FillState) : Prop := f.leg ∈ exitLegs

def value (f : FillState) : ℚ := f.price * f.quantity

end FillState

def entryFills (fills : List FillState) : List FillState := fills.filter fun f => f.IsEntry

/-- `exit_fill_states`: by the leg or by the side, without those that the side alone would count twice. -/
def exitFillStates (fills : List FillState) : List FillState :=
  (fills.filter fun f => f.OnExitLeg ∨ f.Sells).filter fun f =>
    f.OnExitLeg ∨ f.execId ∉ (entryFills fills).map (·.execId)

inductive UnresolvedReason where
  | missingEntryFill
  | missingExitFill
  | openPosition
  | missingCommission
  deriving DecidableEq

structure TradeAttribution (D : Type) where
  tradeId : String
  resolved : Bool
  artifactId : Option String
  datasetId : Option String
  signalId : Option String
  intentId : Option String
  commandId : String
  orderGroupId : Option String
  approvalContextId : Option String
  fills : List FillState
  exitFills : List FillState
  policyDecisions : List D
  rejectionRefs : List D
  breakerRefs : List D
  operatorActions : List D
  grossPnl : Option ℚ
  netPnl : Option ℚ
  totalCommission : ℚ
  spreadBps : Option ℚ
  slippageBps : Option ℚ
  latencyMs : Option Int
  mfe : Option ℚ
  mae : Option ℚ
  unresolvedReasons : List UnresolvedReason

namespace Rebuild

variable {D : Type} (s : Rebuild D)

/-- `entry_fills` of the walk. -/
def entries : List FillState := entryFills s.fillsByExec.rows

/-- `exit_fill_states` of the walk. -/
def exits : List FillState := exitFillStates s.fillsByExec.rows

abbrev FlatOrUnknown : Prop := s.positionQty = none ∨ s.positionQty = some 0

abbrev Closed : Prop := s.entries ≠ [] ∧ s.exits ≠ [] ∧ s.FlatOrUnknown

def missingCommissions : List String :=
  ((s.entries ++ s.exits).filter fun f => (s.commissions.get? f.execId).isNone).map (·.execId)

/-- `unresolved`, before the profit is known. -/
def openReasons : List UnresolvedReason :=
  (if s.entries = [] then [.missingEntryFill] else []) ++ (if s.exits = [] then [.missingExitFill] else []) ++
    (if s.FlatOrUnknown then [] else [.openPosition]) ++
    if s.Closed ∧ s.missingCommissions ≠ [] then [.missingCommission] else []

/-- The profit is computed. -/
abbrev Priced : Prop := s.Closed ∧ .missingCommission ∉ s.openReasons

/-- `unresolved`, as returned. -/
def unresolved : List UnresolvedReason :=
  if s.Priced then s.openReasons.filter fun r => r ∉ [.missingExitFill, .openPosition, .missingEntryFill]
  else s.openReasons

def totalCommission : ℚ := (s.commissions.rows.map (·.2)).sum

def grossPnl : Option ℚ :=
  if s.Priced then some ((s.exits.map (·.value)).sum - (s.entries.map (·.value)).sum) else none

def netPnl : Option ℚ := s.grossPnl.map (· - s.totalCommission)

def avgEntry : Option ℚ :=
  let quantity := (s.entries.map (·.quantity)).sum
  if s.entries ≠ [] ∧ 0 < quantity then some ((s.entries.map (·.value)).sum / quantity) else none

/-- The middle of the quotes, when the bid and the middle are above zero. -/
def quoteMid : Option (ℚ × ℚ × ℚ) := do
  let bid ← s.quoteBid
  let ask ← s.quoteAsk
  if 0 < bid ∧ 0 < (bid + ask) / 2 then some (bid, ask, (bid + ask) / 2) else none

def spreadBps : Option ℚ := s.quoteMid.map fun q => (q.2.1 - q.1) / q.2.2 * 10000

def slippageBps : Option ℚ := do
  let q ← s.quoteMid
  let average ← s.avgEntry
  return (average - q.2.2) / q.2.2 * 10000

def resolved : Bool := s.unresolved = [] ∧ s.grossPnl.isSome ∧ s.netPnl.isSome

end Rebuild

def byExecId (fills : List FillState) : List FillState := fills.insertionSort fun a b => a.execId ≤ b.execId

section

variable {D : Type}

def rebuildAttribution (tradeId : String) (evidence : List (EvidenceRow D)) : TradeAttribution D :=
  let s := readAll tradeId evidence
  { tradeId := tradeId
    resolved := s.resolved
    artifactId := s.artifactId
    datasetId := s.datasetId
    signalId := s.signalId
    intentId := s.intentId
    commandId := pyOrText s.commandId tradeId
    orderGroupId := s.orderGroupId
    approvalContextId := s.approvalContextId
    fills := byExecId s.fillsByExec.rows
    exitFills := byExecId s.exits
    policyDecisions := s.policyDecisions
    rejectionRefs := s.rejectionRefs
    breakerRefs := s.breakerRefs
    operatorActions := s.operatorActions
    grossPnl := s.grossPnl
    netPnl := s.netPnl
    totalCommission := s.totalCommission
    spreadBps := s.spreadBps
    slippageBps := s.slippageBps
    latencyMs := s.latencyMs
    mfe := s.samples.max?
    mae := s.samples.min?
    unresolvedReasons := s.unresolved }

end

end MmrTrader.Attribution
