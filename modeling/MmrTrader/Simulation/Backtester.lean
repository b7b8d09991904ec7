import Mathlib.Algebra.BigOperators.Group.List.Basic
import Mathlib.Algebra.Order.Floor.Ring
import Mathlib.Algebra.Order.Ring.Rat
import Mathlib.Data.List.Dedup
import Mathlib.Data.List.Sort
import Mathlib.Data.Rat.Floor
import Mathlib.Logic.Function.Basic
import MmrTrader.Lib.Table

/-!
# The timeline of a backtest

* `Bar`, `Data` — the bars of each instrument, as they were loaded.
* `combined` — all bars in one list, ordered by time and then by instrument with two stable sorts.
* `Rows`, `Group`, `timeline` — the bars of each moment, by instrument; `timeline_sorted`, `mem_timeline`.
-/

set_option autoImplicit false

namespace MmrTrader.Simulation

open Lib

/-- A row of a frame; `rest` has its other columns. -/
structure Bar (X : Type) where
  time : Int
  openPrice : ℚ
  close : ℚ
  rest : X
  deriving DecidableEq

variable {X : Type}

/-- `all_data`: the frame of each conid. -/
abbrev Data (X : Type) := Table (Prod.fst : Int × List (Bar X) → Int)

def Data.frame (data : Data X) (conid : Int) : List (Bar X) := ((data.get? conid).map Prod.snd).getD []

/-- `pd.concat`. -/
def concatenated (data : Data X) : List (Int × Bar X) := data.rows.flatMap fun frame => frame.2.map (Prod.mk frame.1)

/-- `sort_values('conid', kind='stable').sort_index(kind='stable')`. -/
def combined (data : Data X) : List (Int × Bar X) :=
  ((concatenated data).insertionSort fun a b => a.1 ≤ b.1).insertionSort fun a b => a.2.time ≤ b.2.time

/-- The bars of an instrument at one moment: one as a rule. -/
structure Rows (X : Type) where
  first : Bar X
  more : List (Bar X)
  deriving DecidableEq

def Rows.toList (rows : Rows X) : List (Bar X) := rows.first :: rows.more

def Rows.last (rows : Rows X) : Bar X := rows.more.getLastD rows.first

def Rows.ofList? : List (Bar X) → Option (Rows X)
  | [] => none
  | first :: more => some ⟨first, more⟩

/-- The bars of some rows, by conid; equal conids stand together. -/
def conidBars (rows : List (Int × Bar X)) : List (Int × Rows X) :=
  (rows.map Prod.fst).dedup.filterMap fun conid =>
    (Rows.ofList? ((rows.filter fun r => r.1 = conid).map Prod.snd)).map (Prod.mk conid)

theorem map_fst_filterMap {α β : Type} (f : α → Option β) (l : List α) :
    ((l.filterMap fun a => (f a).map (Prod.mk a)).map Prod.fst) = l.filter fun a => (f a).isSome := by
  induction l with
  | nil => rfl
  | cons a l ih => cases h : f a <;> simp [h, ih]

theorem nodup_conidBars (rows : List (Int × Bar X)) : ((conidBars rows).map Prod.fst).Nodup := by
  rw [conidBars, map_fst_filterMap]
  exact (List.nodup_dedup _).filter _

/-- `bars_this_ts`. -/
structure Group (X : Type) where
  time : Int
  bars : Table (Prod.fst : Int × Rows X → Int)
  deriving DecidableEq

def byConid (rows : List (Int × Bar X)) : Table (Prod.fst : Int × Rows X → Int) := ⟨conidBars rows, nodup_conidBars rows⟩

def Group.rows? (g : Group X) (conid : Int) : Option (Rows X) := (g.bars.get? conid).map Prod.snd

variable {conid : Int} {rows : Rows X}
variable {g : Group X}

theorem Group.rows?_eq_some : g.rows? conid = some rows ↔ (conid, rows) ∈ g.bars.rows := by
  constructor
  · intro h
    obtain ⟨⟨_, _⟩, hb, rfl⟩ := Option.map_eq_some_iff.mp h
    obtain ⟨hmem, rfl⟩ := Table.get?_eq_some.mp hb
    exact hmem
  · intro h
    rw [Group.rows?, Table.get?_of_mem h]
    rfl

/-- `combined.groupby(combined.index)`. -/
def groups (rows : List (Int × Bar X)) : List (Group X) :=
  ((rows.map fun r => r.2.time).dedup.insertionSort (· ≤ ·)).map fun time =>
    ⟨time, byConid (rows.filter fun r => r.2.time = time)⟩

def timeline (data : Data X) : List (Group X) := groups (combined data)

/-! ## What the timeline has -/

/-- The moments come in order, each of them once. -/
theorem timeline_sorted (data : Data X) : (timeline data).Pairwise fun g g' => g.time < g'.time := by
  rw [timeline, groups, List.pairwise_map]
  have hsorted := List.pairwise_insertionSort (· ≤ ·) ((combined data).map fun r => r.2.time).dedup
  have hnodup : (((combined data).map fun r => r.2.time).dedup.insertionSort (· ≤ ·)).Nodup :=
    (List.perm_insertionSort _ _).nodup_iff.mpr (List.nodup_dedup _)
  exact (hsorted.and hnodup).imp fun h => lt_of_le_of_ne h.1 h.2

variable {data : Data X}

theorem mem_combined {bar : Bar X} : (conid, bar) ∈ combined data ↔ ∃ frame ∈ data.rows, frame.1 = conid ∧ bar ∈ frame.2 := by
  rw [combined, (List.perm_insertionSort _ _).mem_iff, (List.perm_insertionSort _ _).mem_iff]
  simp only [concatenated, List.mem_flatMap, List.mem_map, Prod.mk.injEq]
  constructor
  · rintro ⟨frame, hframe, _, hbar, hconid, rfl⟩
    exact ⟨frame, hframe, hconid, hbar⟩
  · rintro ⟨frame, hframe, hconid, hbar⟩
    exact ⟨frame, hframe, bar, hbar, hconid, rfl⟩

theorem mem_ofList? {bars : List (Bar X)} (h : Rows.ofList? bars = some rows) : rows.toList = bars := by
  cases bars with
  | nil => cases h
  | cons bar bars =>
    cases h
    rfl

theorem mem_timeline (hg : g ∈ timeline data) (hrows : g.rows? conid = some rows) :
    ∀ bar ∈ rows.toList, bar.time = g.time ∧ ∃ frame ∈ data.rows, frame.1 = conid ∧ bar ∈ frame.2 := by
  obtain ⟨time, _, rfl⟩ := List.mem_map.mp hg
  intro bar hbar
  obtain ⟨c, _, hsome⟩ := List.mem_filterMap.mp (Group.rows?_eq_some.mp hrows)
  obtain ⟨rows', hrows', heq⟩ := Option.map_eq_some_iff.mp hsome
  cases heq
  rw [mem_ofList? hrows'] at hbar
  obtain ⟨⟨c', bar'⟩, hmem, rfl⟩ := List.mem_map.mp hbar
  obtain ⟨hmoment, hc⟩ := List.mem_filter.mp hmem
  obtain ⟨hloaded, htime⟩ := List.mem_filter.mp hmoment
  obtain rfl : c' = conid := by simpa using hc
  exact ⟨by simpa using htime, mem_combined.mp hloaded⟩

def Data.Priced (data : Data X) : Prop := ∀ frame ∈ data.rows, ∀ bar ∈ frame.2, 0 < bar.openPrice ∧ 0 < bar.close

theorem Rows.last_mem (rows : Rows X) : rows.last ∈ rows.toList := List.getLastD_mem_cons

end MmrTrader.Simulation

/-!
## The backtester

Executable model of `Backtester.run` (`trader/simulation/backtester.py`).

* `Signal`, `Costs`, `LiveRules`, `Strategy`, `Config` — what a run is given.
* `Account` — cash, positions and exit conditions, with what was recorded: `executeSignal`.
* `Loop` — the locals of the main loop; `flatten`, `fillPending`, `accumulate`, `checkExits`, `runStrategy`, `mark` are
  its parts, in order, and `Loop.bar` one turn.
* `run` — the loop over the timeline; `roundTripPnl` — the second pass, over the trades.

Money is exact.  A strategy may answer by all that it has been called with so far.
-/

namespace MmrTrader.Simulation

open Lib

/-! ## What a run is given -/

inductive Action where
  | BUY
  | SELL
  | NEUTRAL
  deriving DecidableEq

structure SignalBody where
  action : Action
  probability : ℚ
  risk : ℚ
  quantity : ℚ
  maxHoldBars : Option Int
  closeByTime : Option Int
  closeByTz : Option String
  deriving DecidableEq

inductive ExitReason where
  | maxHoldBars (bars : Int)
  | closeByTime (time : Int)
  deriving DecidableEq

/-- `source_name`; the last two are the signals that the backtester makes up itself. -/
inductive Source where
  | strategy (name : String)
  | flatten
  | timeExit (reason : ExitReason)
  deriving DecidableEq

structure Signal extends SignalBody where
  source : Source
  deriving DecidableEq

variable {X S R : Type}

structure Costs (X : Type) where
  fillPrice : (conid : Int) → (basis quantity : ℚ) → Action → (reference : Bar X) → ℚ
  commission : (conid : Int) → (quantity price : ℚ) → ℚ

/-- `PaperAutomationRules`, with its state. -/
structure LiveRules (R : Type) where
  reset : ℚ → R
  mark : R → (time : Int) → (equity : ℚ) → R
  flattenDue : R → (time : Int) → Bool
  entryBlockReason : R → (time conid : Int) → (orderNotional : ℚ) → (positionValues : List (Int × ℚ)) → (equity : ℚ) →
    Option String

/-- A strategy: `precompute` sees a whole frame, `on_bar` the bars so far; it may remember its calls. -/
structure Strategy (X S : Type) where
  precompute : List (Bar X) → S
  onBar : List (List (Bar X) × S) → Option (String × SignalBody)

structure Config (X R : Type) where
  initialCapital : ℚ
  costs : Costs X
  orderNotional : Option ℚ
  liveRules : Option (LiveRules R)
  fillPolicy : String
  tradingStart : Option Int
  /-- The time of day of an instant, in a time zone when one is named. -/
  timeOfDay : Option String → Int → Int

/-! ## The account -/

/-- The rules of an open position. -/
structure ExitCondition where
  conid : Int
  entryBarIndex : Int
  maxHoldBars : Option Int
  closeByTime : Option Int
  closeByTz : Option String
  pendingExit : Bool
  deriving DecidableEq

structure SignalEvent where
  timestamp : Int
  source : Source
  conid : Int
  action : Action
  probability : ℚ
  risk : ℚ
  deriving DecidableEq

structure Trade where
  timestamp : Int
  conid : Int
  action : Action
  quantity : ℚ
  price : ℚ
  commission : ℚ
  probability : ℚ
  risk : ℚ
  deriving DecidableEq

structure Fill (X : Type) where
  trade : Trade
  decidedAt : Int
  basis : ℚ
  reference : Bar X
  deriving DecidableEq

structure Account (X : Type) where
  cash : ℚ
  positions : Table (Prod.fst : Int × ℚ → Int)
  exitConditions : Table ExitCondition.conid
  signals : List SignalEvent
  fills : List (Fill X)
  /-- `live_rule_blocks`. -/
  blocks : String → Nat

def Account.held (a : Account X) (conid : Int) : ℚ := ((a.positions.get? conid).map Prod.snd).getD 0

def Account.trades (a : Account X) : List Trade := a.fills.map (·.trade)

/-- What a fill reads of the loop. -/
structure Market (R : Type) where
  lastPrices : Int → ℚ
  barIndex : Int → Int
  rules : Option R

def Account.quantityOf (cfg : Config X R) (a : Account X) (signal : Signal) (conid : Int) (basis : ℚ) : ℚ :=
  if 0 < signal.quantity then signal.quantity
  else
    match signal.action, cfg.orderNotional with
    | .SELL, _ => if 0 < a.held conid then a.held conid else 0
    | _, some notional => ⌊notional / basis⌋
    | _, none => ⌊a.cash * (1 / 10) / basis⌋

def Account.positionValues (a : Account X) (lastPrices : Int → ℚ) : List (Int × ℚ) :=
  a.positions.rows.map fun p => (p.1, p.2 * lastPrices p.1)

def Account.blockReason (cfg : Config X R) (market : Market R) (a : Account X) (barTime conid : Int) (notional : ℚ) : Option String :=
  match cfg.liveRules, market.rules with
  | some rules, some state =>
    rules.entryBlockReason state barTime conid notional (a.positionValues market.lastPrices)
      (a.cash + ((a.positionValues market.lastPrices).map Prod.snd).sum)
  | _, _ => none

/-- What a `BUY` leaves of the exit conditions. -/
def Account.boughtConditions (market : Market R) (a : Account X) (signal : Signal) (conid : Int) : Table ExitCondition.conid :=
  if signal.maxHoldBars ≠ none ∨ signal.closeByTime ≠ none then
    a.exitConditions.upsert ⟨conid, market.barIndex conid, signal.maxHoldBars, signal.closeByTime, signal.closeByTz, false⟩
  else a.exitConditions.deleteWhere fun c => c.conid = conid

def Account.buy (market : Market R) (a : Account X) (signal : Signal) (conid : Int) (quantity price commission : ℚ) : Account X :=
  { a with
    cash := a.cash - (quantity * price + commission)
    positions := a.positions.upsert (conid, a.held conid + quantity)
    exitConditions := a.boughtConditions market signal conid }

/-- `sell_qty` shares go; a position of none is dropped with its exit conditions. -/
def Account.sell (a : Account X) (conid : Int) (quantity price commission : ℚ) : Account X :=
  let cash := a.cash + (quantity * price - commission)
  if a.held conid - quantity = 0 then
    { a with
      cash := cash
      positions := a.positions.deleteWhere fun p => p.1 = conid
      exitConditions := a.exitConditions.deleteWhere fun c => c.conid = conid }
  else { a with cash := cash, positions := a.positions.upsert (conid, a.held conid - quantity) }

def Account.record (a : Account X) (signal : Signal) (conid decidedAt barTime : Int) (reference : Bar X)
    (basis quantity price commission : ℚ) : Account X :=
  { a with
    fills := a.fills ++ [⟨⟨barTime, conid, signal.action, quantity, price, commission, signal.probability, signal.risk⟩,
      decidedAt, basis, reference⟩] }

def Account.logSignal (a : Account X) (signal : Signal) (conid decidedAt : Int) : Account X :=
  { a with signals := a.signals ++ [⟨decidedAt, signal.source, conid, signal.action, signal.probability, signal.risk⟩] }

def executeSignal (cfg : Config X R) (market : Market R) (a : Account X) (signal : Signal) (conid decidedAt barTime : Int)
    (reference : Bar X) (basis : ℚ) : Account X :=
  let a := a.logSignal signal conid decidedAt
  let quantity := a.quantityOf cfg signal conid basis
  if basis ≤ 0 ∨ quantity ≤ 0 then a
  else
    let price := cfg.costs.fillPrice conid basis quantity signal.action reference
    let commission := cfg.costs.commission conid quantity price
    match signal.action with
    | .BUY =>
      match a.blockReason cfg market barTime conid (quantity * price) with
      | some reason => { a with blocks := Function.update a.blocks reason (a.blocks reason + 1) }
      | none =>
        if a.cash < quantity * price + commission then a
        else (a.buy market signal conid quantity price commission).record signal conid decidedAt barTime reference basis
          quantity price commission
    | .SELL =>
      if a.held conid ≤ 0 then a
      else
        let sold := min quantity (a.held conid)
        let commission := cfg.costs.commission conid sold price
        (a.sell conid sold price commission).record signal conid decidedAt barTime reference basis sold price commission
    | .NEUTRAL => a.record signal conid decidedAt barTime reference basis quantity price commission

/-! ## The loop -/

structure Pending where
  signal : Signal
  conid : Int
  decidedAt : Int
  deriving DecidableEq

/-- An exit has triggered; `trades` had been recorded before. -/
structure Triggered where
  time : Int
  conid : Int
  trades : Nat
  deriving DecidableEq

structure Loop (X S R : Type) where
  account : Account X
  rules : Option R
  accumulated : Int → List (Bar X)
  lastPrices : Int → ℚ
  barIndex : Int → Int
  pending : List Pending
  lastEquity : ℚ
  /-- `equity_timestamps` and `equity_values`. -/
  equity : List (Int × ℚ)
  barsInMarket : Nat
  warmupSignalsDropped : Nat
  /-- What the strategy has been called with. -/
  calls : List (List (Bar X) × S)
  triggered : List Triggered

def Loop.start (cfg : Config X R) : Loop X S R where
  account := ⟨cfg.initialCapital, .empty, .empty, [], [], fun _ => 0⟩
  rules := cfg.liveRules.map (·.reset cfg.initialCapital)
  accumulated _ := []
  lastPrices _ := 0
  barIndex _ := -1
  pending := []
  lastEquity := cfg.initialCapital
  equity := []
  barsInMarket := 0
  warmupSignalsDropped := 0
  calls := []
  triggered := []

def Loop.market (l : Loop X S R) : Market R := ⟨l.lastPrices, l.barIndex, l.rules⟩

/-- The last bar known before this moment; a conid that has a signal or a position has one. -/
def Loop.reference (l : Loop X S R) (conid : Int) (rows : Rows X) : Bar X := (l.accumulated conid).getLastD rows.first

def flattenSignal (quantity : ℚ) : Signal := { (⟨.SELL, 1, 0, quantity, none, none, none⟩ : SignalBody) with source := .flatten }

/-- The end-of-day `SELL` of one position. -/
def Loop.flattenOne (cfg : Config X R) (g : Group X) (l : Loop X S R) (conid : Int) : Loop X S R :=
  match g.rows? conid with
  | none => l
  | some rows =>
    if l.accumulated conid = [] then l
    else { l with
      account := executeSignal cfg l.market l.account (flattenSignal (l.account.held conid)) conid g.time g.time
        (l.reference conid rows) rows.first.openPrice }

def Loop.flatten (cfg : Config X R) (g : Group X) (l : Loop X S R) : Loop X S R :=
  match cfg.liveRules, l.rules with
  | some rules, some state =>
    let l := { l with rules := some (rules.mark state g.time l.lastEquity) }
    if l.account.positions.rows ≠ [] ∧ rules.flattenDue (rules.mark state g.time l.lastEquity) g.time = true then
      let l := (l.account.positions.rows.map Prod.fst).foldl (Loop.flattenOne cfg g) l
      { l with pending := l.pending.filter fun p => p.signal.action ≠ .BUY }
    else l
  | _, _ => l

/-- One queued signal: it is filled at the open, or waits for a bar of its conid. -/
def Loop.fillOne (cfg : Config X R) (g : Group X) (l : Loop X S R) (p : Pending) : Loop X S R :=
  match g.rows? p.conid with
  | none => { l with pending := l.pending ++ [p] }
  | some rows => { l with
      account := executeSignal cfg l.market l.account p.signal p.conid p.decidedAt g.time (l.reference p.conid rows)
        rows.first.openPrice }

/-- Part 1: the signals queued before. -/
def Loop.fillPending (cfg : Config X R) (g : Group X) (l : Loop X S R) : Loop X S R :=
  if cfg.fillPolicy = "next_open" then l.pending.foldl (Loop.fillOne cfg g) { l with pending := [] } else l

/-- Part 2: the bars of this moment. -/
def Loop.accumulateOne (l : Loop X S R) (bar : Int × Rows X) : Loop X S R :=
  { l with
    accumulated := Function.update l.accumulated bar.1 (l.accumulated bar.1 ++ bar.2.toList)
    lastPrices := Function.update l.lastPrices bar.1 bar.2.last.close
    barIndex := Function.update l.barIndex bar.1 (l.barIndex bar.1 + 1) }

def Loop.accumulate (g : Group X) (l : Loop X S R) : Loop X S R := g.bars.rows.foldl Loop.accumulateOne l

/-- Why a position is due to be closed. -/
def exitReason (cfg : Config X R) (cond : ExitCondition) (barIndex time : Int) : Option ExitReason :=
  match cond.maxHoldBars.filter fun bars => bars ≤ barIndex - cond.entryBarIndex with
  | some bars => some (.maxHoldBars bars)
  | none => (cond.closeByTime.filter fun time' => time' ≤ cfg.timeOfDay (cond.closeByTz.filter (· ≠ "")) time).map .closeByTime

def exitSignal (reason : ExitReason) (quantity : ℚ) : Signal :=
  { (⟨.SELL, 1, 0, quantity, none, none, none⟩ : SignalBody) with source := .timeExit reason }

/-- Queued for the next open, or filled at this close. -/
def Loop.take (cfg : Config X R) (g : Group X) (l : Loop X S R) (signal : Signal) (conid : Int) (rows : Rows X) : Loop X S R :=
  if cfg.fillPolicy = "same_close" then
    { l with
      account := executeSignal cfg l.market l.account signal conid g.time g.time (l.reference conid rows) (l.lastPrices conid) }
  else { l with pending := l.pending ++ [⟨signal, conid, g.time⟩] }

def Loop.checkExit (cfg : Config X R) (g : Group X) (l : Loop X S R) (conid : Int) : Loop X S R :=
  match l.account.exitConditions.get? conid with
  | none => l
  | some cond =>
    if l.account.held conid ≤ 0 then
      { l with account := { l.account with exitConditions := l.account.exitConditions.deleteWhere fun c => c.conid = conid } }
    else if cond.pendingExit then l
    else
      match g.rows? conid with
      | none => l
      | some rows =>
        match exitReason cfg cond (l.barIndex conid) rows.last.time with
        | none => l
        | some reason =>
          let account := { l.account with exitConditions := l.account.exitConditions.upsert { cond with pendingExit := true } }
          Loop.take cfg g { l with account := account, triggered := l.triggered ++ [⟨g.time, conid, l.account.trades.length⟩] }
            (exitSignal reason (l.account.held conid)) conid rows

def Loop.checkExits (cfg : Config X R) (g : Group X) (l : Loop X S R) : Loop X S R :=
  (l.account.exitConditions.rows.map (·.conid)).foldl (Loop.checkExit cfg g) l

def Loop.runOne (cfg : Config X R) (strategy : Strategy X S) (data : Data X) (warming : Bool) (g : Group X) (l : Loop X S R)
    (bar : Int × Rows X) : Loop X S R :=
  let frame := data.frame bar.1
  let l := { l with calls := l.calls ++ [(frame.take (l.barIndex bar.1 + 1).toNat, strategy.precompute frame)] }
  match strategy.onBar l.calls with
  | none => l
  | some (name, body) =>
    if warming then { l with warmupSignalsDropped := l.warmupSignalsDropped + 1 }
    else Loop.take cfg g l { body with source := .strategy name } bar.1 bar.2

def Loop.runStrategy (cfg : Config X R) (strategy : Strategy X S) (data : Data X) (warming : Bool) (g : Group X)
    (l : Loop X S R) : Loop X S R :=
  g.bars.rows.foldl (Loop.runOne cfg strategy data warming g) l

def Loop.portfolioValue (l : Loop X S R) : ℚ :=
  l.account.cash + (l.account.positions.rows.map fun p => p.2 * l.lastPrices p.1).sum

def Loop.mark (g : Group X) (l : Loop X S R) : Loop X S R :=
  { l with
    lastEquity := l.portfolioValue
    equity := l.equity ++ [(g.time, l.portfolioValue)]
    barsInMarket := l.barsInMarket + if l.account.positions.rows = [] then 0 else 1 }

def Config.warming (cfg : Config X R) (time : Int) : Bool :=
  match cfg.tradingStart with
  | some start => time < start
  | none => false

/-- One turn. -/
def Loop.bar (cfg : Config X R) (strategy : Strategy X S) (data : Data X) (l : Loop X S R) (g : Group X) : Loop X S R :=
  if cfg.warming g.time then
    (((l.accumulate g).checkExits cfg g).runStrategy cfg strategy data true g)
  else
    (((((l.flatten cfg g).fillPending cfg g).accumulate g).checkExits cfg g).runStrategy cfg strategy data false g).mark g

def runGroups (cfg : Config X R) (strategy : Strategy X S) (data : Data X) (gs : List (Group X)) : Loop X S R :=
  gs.foldl (Loop.bar cfg strategy data) (Loop.start cfg)

/-- `Backtester.run`, up to the metrics. -/
def run (cfg : Config X R) (strategy : Strategy X S) (data : Data X) : Loop X S R :=
  runGroups cfg strategy data (timeline data)

/-! ## Round trips -/

/-- The locals of the second pass; a conid without an entry counts as zero. -/
structure Averages where
  avgEntry : Int → ℚ
  avgQty : Int → ℚ
  avgBuyComm : Int → ℚ
  winningTrades : Nat
  sellTrades : Nat
  roundTripPnl : List ℚ
  roundTripNotional : List ℚ

def Averages.start : Averages := ⟨fun _ => 0, fun _ => 0, fun _ => 0, 0, 0, [], []⟩

def Averages.buy (v : Averages) (t : Trade) : Averages :=
  let newQty := v.avgQty t.conid + t.quantity
  if 0 < newQty then
    { v with
      avgEntry := Function.update v.avgEntry t.conid ((v.avgEntry t.conid * v.avgQty t.conid + t.price * t.quantity) / newQty)
      avgQty := Function.update v.avgQty t.conid newQty
      avgBuyComm := Function.update v.avgBuyComm t.conid ((v.avgBuyComm t.conid * v.avgQty t.conid + t.commission) / newQty) }
  else v

def Averages.sell (v : Averages) (t : Trade) : Averages :=
  let entry := v.avgEntry t.conid
  let pnl := (t.price - entry) * t.quantity - t.commission - v.avgBuyComm t.conid * t.quantity
  let remaining := v.avgQty t.conid - t.quantity
  let v := { v with
    sellTrades := v.sellTrades + 1
    roundTripPnl := v.roundTripPnl ++ [pnl]
    roundTripNotional := v.roundTripNotional ++ [entry * t.quantity]
    winningTrades := v.winningTrades + if 0 < entry ∧ entry < t.price then 1 else 0 }
  if remaining ≤ 0 then
    { v with
      avgEntry := Function.update v.avgEntry t.conid 0
      avgQty := Function.update v.avgQty t.conid 0
      avgBuyComm := Function.update v.avgBuyComm t.conid 0 }
  else { v with avgQty := Function.update v.avgQty t.conid remaining }

def Averages.trade (v : Averages) (t : Trade) : Averages :=
  match t.action with
  | .BUY => v.buy t
  | .SELL => v.sell t
  | .NEUTRAL => v

/-- The pass that rebuilds the round trips from the trades. -/
def averages (trades : List Trade) : Averages := trades.foldl Averages.trade .start

end MmrTrader.Simulation
