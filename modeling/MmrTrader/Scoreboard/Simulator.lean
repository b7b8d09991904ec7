import Mathlib.Algebra.Order.Ring.Rat
import Mathlib.Data.List.Sort
import Mathlib.Data.NNRat.Floor
import Mathlib.Data.Prod.Lex
import Mathlib.Data.String.Basic
import MmrTrader.Scoreboard.Ingest

/-!
# The bracket outcome of one long position

Executable model of `simulate_long_bracket` (`trader/scoreboard/simulator.py`), over rational prices.

* `Bar`, `SimInput`, `SimResult` — the data; instants are UTC microseconds, as the bar sources give them.
* `hit`, `scan`, `simulateLongBracket` — one bar, the loop over the bars before the flatten, and the whole.

How a moment and a price are written, and the SHA-256 of the rows, are parameters.
-/

set_option autoImplicit false

namespace MmrTrader.Scoreboard

def MINUTE : Int := 60 * 1000000

def MAX_BAR_GAP : Int := 30 * MINUTE

def FLATTEN_BAR_WINDOW : Int := 10 * MINUTE

structure Bar where
  start : Int
  openPrice : ℚ
  high : ℚ
  low : ℚ
  close : ℚ
  deriving DecidableEq

structure SimInput where
  conid : Int
  quantity : Int
  referencePrice : ℚ
  stopPrice : ℚ
  targetPrice : ℚ
  decidedAt : Int
  flattenStartUtc : Int
  deriving DecidableEq

inductive SimStatus where
  | COMPLETE
  | INCOMPLETE
  deriving DecidableEq

inductive ExitKind where
  | NONE
  | STOP
  | TARGET
  | FLATTEN
  deriving DecidableEq

structure SimResult where
  status : SimStatus
  reason : Option String
  exitKind : ExitKind
  exitAt : Option Int
  exitPrice : Option ℚ
  pnlUsd : Option ℚ
  trades : Option Nat
  barsDigest : Option String
  deriving DecidableEq

/-- `isoformat`, `repr`, and `sha256(json.dumps(rows))`. -/
structure BarText where
  isoformat : Int → String
  repr : ℚ → String
  sha256 : List (List String) → String

def incomplete (reason : String) : SimResult := ⟨.INCOMPLETE, some reason, .NONE, none, none, none, none, none⟩

/-- `_floor_minute`. -/
def floorMinute (moment : Int) : Int := moment / MINUTE * MINUTE

/-- `_is_valid`; a rational price is a finite number, and a UTC start has a zone. -/
def Bar.isValid (b : Bar) : Bool :=
  decide ((∀ p ∈ [b.openPrice, b.high, b.low, b.close], 0 < p) ∧ b.low ≤ min b.openPrice b.close ∧
    max b.openPrice b.close ≤ b.high)

def barsDigest (D : BarText) (bars : List Bar) : String :=
  D.sha256 (bars.map fun b => [D.isoformat b.start, D.repr b.openPrice, D.repr b.high, D.repr b.low, D.repr b.close])

def hit (trade : SimInput) (bar : Bar) : Option (ExitKind × ℚ) :=
  if bar.low ≤ trade.stopPrice then some (.STOP, min trade.stopPrice bar.openPrice)
  else if trade.targetPrice ≤ bar.high then some (.TARGET, trade.targetPrice)
  else none

def complete (D : BarText) (trade : SimInput) (kind : ExitKind) (at_ : Int) (price : ℚ) (used : List Bar) : SimResult :=
  ⟨.COMPLETE, none, kind, some at_, some price, some ((price - trade.referencePrice) * trade.quantity), some 1,
    some (barsDigest D used)⟩

def upTo (used : List Bar) (start : Int) : List Bar := used.filter fun b => b.start ≤ start

/-- The loop over the bars before the flatten: the result it returns, or the start that the next gap is measured from. -/
def scan (D : BarText) (trade : SimInput) (used : List Bar) : Int → List Bar → SimResult ⊕ Int
  | previousStart, [] => .inr previousStart
  | previousStart, bar :: rest =>
    if bar.start - previousStart > MAX_BAR_GAP then .inl (incomplete "BAR_GAP")
    else
      match hit trade bar with
      | some (kind, price) => .inl (complete D trade kind bar.start price (upTo used bar.start))
      | none => scan D trade used bar.start rest

def SimInput.firstStart (trade : SimInput) : Int := floorMinute trade.decidedAt + MINUTE

/-- The bars after the minute of the decision and before the end of the flatten window, in order. -/
def usedBars (trade : SimInput) (bars : List Bar) : List Bar :=
  (bars.filter fun b => trade.firstStart ≤ b.start ∧ b.start < trade.flattenStartUtc + FLATTEN_BAR_WINDOW).insertionSort
    fun a b => a.start ≤ b.start

def simulateUsed (D : BarText) (trade : SimInput) (used : List Bar) : SimResult :=
  match scan D trade used (floorMinute trade.decidedAt) (used.filter fun b => b.start < trade.flattenStartUtc) with
  | .inl result => result
  | .inr previousStart =>
    match used.find? fun b => trade.flattenStartUtc ≤ b.start with
    | none => incomplete "NO_FLATTEN_BAR"
    | some exitBar =>
      if exitBar.start - previousStart > MAX_BAR_GAP then incomplete "BAR_GAP"
      else complete D trade .FLATTEN exitBar.start exitBar.openPrice (upTo used exitBar.start)

def simulateLongBracket (D : BarText) (trade : SimInput) (bars : List Bar) : SimResult :=
  let used := usedBars trade bars
  if used = [] then incomplete "NO_BARS"
  else if ¬ (used.map Bar.start).Nodup then incomplete "DUPLICATE_BAR"
  else if ¬ used.all Bar.isValid then incomplete "BAD_BAR"
  else simulateUsed D trade used

end MmrTrader.Scoreboard

/-!
## The session simulator

Executable model of `SessionSimulator` (`trader/scoreboard/session_simulator.py`).

* `Decision`, `Outcome` — the two tables; a decision without an outcome has all the columns that are read of it.
* `Feed` — what each source has of each instrument throughout one run.
* `simulate` — `_simulate`, with the bars that the run has read already; `matchedQuantity` — `_matched_quantity`.
* `Run`, `World`, `World.step` — runs of `run_due` over a shared table, one statement of the database at a time.

A run that raises, or dies with its process, ends where it is.  `World.writes` is not the program's: it keeps what each
outcome was written from.
-/

namespace MmrTrader.Scoreboard.SessionSimulator

open Lib

/-! ## Tables -/

structure Decision where
  recordId : String
  experimentId : String
  baselineId : String
  cohort : String
  sessionDate : Int
  conid : Int
  quantity : Int
  referencePrice : ℚ
  stopPrice : ℚ
  targetPrice : ℚ
  decidedAt : Int
  opportunityId : String
  linkedRoundTripId : Option String
  recordedAt : Int
  deriving DecidableEq

structure Outcome where
  recordId : String
  experimentId : String
  baselineId : String
  cohort : String
  sessionDate : Int
  status : SimStatus
  reason : Option String
  exitKind : ExitKind
  exitAt : Option Int
  exitPrice : Option ℚ
  pnlUsd : Option ℚ
  trades : Option Nat
  quantity : Option Int
  barSource : String
  barsDigest : Option String
  computedAt : Int
  deriving DecidableEq

/-- What a simulator is built with, the decisions it finds, and the outcomes that were written together with their
decisions: those have no quantity. -/
structure Setup where
  text : BarText
  /-- The names of the sources, in order. -/
  sources : List String
  sources_nodup : sources.Nodup
  /-- `calendar.resolve`: the start of the flatten of a session. -/
  calendar : Int → Option Int
  dataReadyAt : Int → Int
  grace : Int
  retryAfter : Int
  decisions : Table Decision.recordId
  ingested : Table Outcome.recordId
  ingested_quantity : ∀ o ∈ ingested.rows, o.quantity = none

/-! ## Bars -/

/-- The bars that a source has of an instrument, or the code of its error. -/
abbrev Feed := String → Int → Except String (List Bar)

def Feed.bars (feed : Feed) (name : String) (conid start stop : Int) : Except String (List Bar) :=
  (feed name conid).map fun bars => bars.filter fun b => start ≤ b.start ∧ b.start < stop

/-- The key of the cache: a source, an instrument and a session. -/
abbrev CacheKey := String × Int × Int

abbrev Cache := List (CacheKey × List Bar)

def Decision.trade (row : Decision) (quantity flattenStart : Int) : SimInput :=
  ⟨row.conid, quantity, row.referencePrice, row.stopPrice, row.targetPrice, row.decidedAt, flattenStart⟩

/-- The bars of one source: those of the cache, or a read. -/
def readBars (feed : Feed) (row : Decision) (start stop : Int) (name : String) (cache : Cache) :
    Except String (List Bar) × Cache :=
  match cache.lookup (name, row.conid, row.sessionDate) with
  | some bars => (.ok bars, cache)
  | none =>
    match feed.bars name row.conid start stop with
    | .error code => (.error code, cache)
    | .ok bars => (.ok bars, ((name, row.conid, row.sessionDate), bars) :: cache)

/-- The outcome over the bars of one source. -/
def simulateBars (D : BarText) (trade : SimInput) (bars : List Bar) : SimResult :=
  if bars = [] then incomplete "NO_BARS" else simulateLongBracket D trade bars

def trySources (D : BarText) (feed : Feed) (row : Decision) (trade : SimInput) :
    List String → List String → Cache → (SimResult × String) × Cache
  | [], reasons, cache => ((incomplete ("; ".intercalate reasons), "none"), cache)
  | name :: rest, reasons, cache =>
    let (read, cache') := readBars feed row trade.firstStart (trade.flattenStartUtc + FLATTEN_BAR_WINDOW) name cache
    match read with
    | .error code => trySources D feed row trade rest (reasons ++ [name ++ ":" ++ code]) cache'
    | .ok bars =>
      let result := simulateBars D trade bars
      if result.status = .COMPLETE then ((result, name), cache')
      else trySources D feed row trade rest (reasons ++ [name ++ ":" ++ result.reason.getD "None"]) cache'

def simulate (S : Setup) (feed : Feed) (row : Decision) (quantity : Int) (cache : Cache) : (SimResult × String) × Cache :=
  match S.calendar row.sessionDate with
  | none => ((incomplete "NOT_A_SESSION", "none"), cache)
  | some flattenStart =>
    if S.sources = [] then ((incomplete "NO_BAR_SOURCE", "none"), cache)
    else trySources S.text feed row (row.trade quantity flattenStart) S.sources [] cache

/-! ## The matched quantity -/

def NO_SHARES : SimResult := ⟨.COMPLETE, some "CLOSE_REMOVED_NO_SHARES", .NONE, none, none, some 0, some 0, none⟩

def UNPROVEN : SimResult := incomplete "close_fill_unproven"

/-- `CloseFill`: the shares that a close is proven to have removed, if it is proven. -/
abbrev CloseFill := Option Int

/-- The other matched decisions of the trip, recorded before this one. -/
def Decision.Earlier (row d : Decision) : Prop :=
  d.experimentId = row.experimentId ∧ d.baselineId = MATCHED_ENTRY ∧ d.linkedRoundTripId = row.linkedRoundTripId ∧
    d.linkedRoundTripId ≠ none ∧ toLex (d.recordedAt, d.recordId) < toLex (row.recordedAt, row.recordId)

instance (row d : Decision) : Decidable (row.Earlier d) := inferInstanceAs (Decidable (_ ∧ _))

def Setup.earlier (S : Setup) (row : Decision) : List Decision := S.decisions.rows.filter fun d => row.Earlier d

def settledQuantity (outcomes : Table Outcome.recordId) (d : Decision) : Int :=
  match outcomes.get? d.recordId with
  | some o => if o.status = .COMPLETE then o.quantity.getD 0 else 0
  | none => 0

/-- The query of `_matched_quantity`: the shares that the earlier closes of the trip account for, or `none` while one of
them is open. -/
def countEarlier (S : Setup) (outcomes : Table Outcome.recordId) (row : Decision) : Option Int :=
  if ∃ d ∈ S.earlier row, outcomes.get? d.recordId = none then none
  else some ((S.earlier row).map (settledQuantity outcomes)).sum

/-- What follows the query: a quantity, or a final result.  `entryQty` is that of the trip, if the trip is found. -/
def matchedQuantity (row : Decision) (counted : Int) (entryQty : Option ℚ≥0) (fill : CloseFill) : SimResult ⊕ Int :=
  match entryQty, fill with
  | some entryQty, some shares =>
    if shares = 0 then .inl NO_SHARES
    else
      let quantity := min row.quantity (min shares ((⌊entryQty⌋₊ : Int) - counted))
      if 1 ≤ quantity then .inr quantity else .inl UNPROVEN
  | _, _ => .inl UNPROVEN

/-! ## Runs -/

/-- What an outcome is written from. -/
structure Write where
  row : Decision
  quantity : Int
  result : SimResult
  source : String
  now : Int
  feed : Feed
  /-- The shares that the close of a matched decision was proven to have removed. -/
  fill : CloseFill
  /-- Whether the bars decided. -/
  simulated : Bool

def Write.outcome (x : Write) : Outcome where
  recordId := x.row.recordId
  experimentId := x.row.experimentId
  baselineId := x.row.baselineId
  cohort := x.row.cohort
  sessionDate := x.row.sessionDate
  status := x.result.status
  reason := x.result.reason
  exitKind := x.result.exitKind
  exitAt := x.result.exitAt
  exitPrice := x.result.exitPrice
  pnlUsd := x.result.pnlUsd
  trades := x.result.trades
  quantity := if x.result.status = .COMPLETE ∧ x.result.trades.any (· ≠ 0) then some x.quantity else none
  barSource := x.source
  barsDigest := x.result.barsDigest
  computedAt := x.now

inductive Phase where
  | next
  /-- After the query of `_matched_quantity`. -/
  | matched (row : Decision) (counted : Int)
  | write (x : Write)

/-- A `run_due` under way: `now`, the rows of the query that are left, and the cache. -/
structure Run where
  now : Int
  feed : Feed
  rows : List Decision
  cache : Cache
  phase : Phase

/-- `ORDER BY d.session_date, d.decided_at, d.recorded_at, d.record_id`. -/
def Decision.sortKey (d : Decision) : Int ×ₗ Int ×ₗ Int ×ₗ String :=
  toLex (d.sessionDate, toLex (d.decidedAt, toLex (d.recordedAt, d.recordId)))

def pending (S : Setup) (outcomes : Table Outcome.recordId) : List Decision :=
  (S.decisions.rows.filter fun d => outcomes.get? d.recordId = none).insertionSort fun a b => a.sortKey ≤ b.sortKey

structure World where
  outcomes : Table Outcome.recordId
  /-- `entry_qty` of the round trips of an experiment. -/
  entryQty : String → String → ℚ≥0
  /-- `_last_try`. -/
  lastTry : String → Option Int
  runs : List Run
  writes : List Write

def World.start (S : Setup) (entryQty : String → String → ℚ≥0) : World := ⟨S.ingested, entryQty, fun _ => none, [], []⟩

/-- What a run is told at a step: whether the trip is found, and the fill of a close of a trip. -/
structure Answer where
  tripFound : Bool
  removed : Option String → String → CloseFill

def World.tripOf (w : World) (row : Decision) (a : Answer) : Option ℚ≥0 :=
  if a.tripFound then row.linkedRoundTripId.map (w.entryQty row.experimentId) else none

/-- A result of the bars: written, unless it may still become complete. -/
def Run.afterBars (S : Setup) (r : Run) (row : Decision) (quantity : Int) (fill : CloseFill) : Run :=
  let ((result, source), cache) := simulate S r.feed row quantity r.cache
  if result.status = .INCOMPLETE ∧ r.now < S.dataReadyAt row.sessionDate + S.grace then { r with cache := cache, phase := .next }
  else { r with cache := cache, phase := .write ⟨row, quantity, result, source, r.now, r.feed, fill, true⟩ }

/-- The next statement of a run; `none` is its end. -/
def Run.turn (S : Setup) (w : World) (r : Run) (a : Answer) : World × Option Run :=
  match r.phase with
  | .next =>
    match r.rows with
    | [] => (w, none)
    | row :: rest =>
      let r := { r with rows := rest }
      if r.now < S.dataReadyAt row.sessionDate then (w, some r)
      else if (w.lastTry row.recordId).any fun tried => r.now - tried < S.retryAfter then (w, some r)
      else
        let w := { w with lastTry := Function.update w.lastTry row.recordId (some r.now) }
        if row.baselineId = MATCHED_ENTRY then
          match countEarlier S w.outcomes row with
          | none => (w, some r)
          | some counted => (w, some { r with phase := .matched row counted })
        else (w, some (r.afterBars S row row.quantity none))
  | .matched row counted =>
    let fill := a.removed row.linkedRoundTripId row.opportunityId
    match matchedQuantity row counted (w.tripOf row a) fill with
    | .inl result =>
      if result = UNPROVEN ∧ r.now < S.dataReadyAt row.sessionDate + S.grace then (w, some { r with phase := .next })
      else (w, some { r with phase := .write ⟨row, row.quantity, result, "none", r.now, r.feed, fill, false⟩ })
    | .inr quantity => (w, some ({ r with phase := .next }.afterBars S row quantity fill))
  | .write x =>
    match w.outcomes.insert? x.outcome with
    | none => (w, some { r with phase := .next })
    | some outcomes =>
      ({ w with
          outcomes := outcomes
          lastTry := Function.update w.lastTry x.row.recordId none
          writes := w.writes ++ [x] }, some { r with phase := .next })

inductive Act where
  /-- A tick. -/
  | runDue (now : Int) (feed : Feed)
  | turn (i : Nat) (a : Answer)
  /-- A run raises. -/
  | raises (i : Nat)
  | restart
  /-- The round trips are projected again; no entry quantity falls. -/
  | project (entryQty : String → String → ℚ≥0)

def World.step (S : Setup) (w : World) : Act → World
  | .runDue now feed => { w with runs := w.runs ++ [⟨now, feed, pending S w.outcomes, [], .next⟩] }
  | .turn i a =>
    match w.runs[i]? with
    | none => w
    | some r =>
      match r.turn S w a with
      | (w', none) => { w' with runs := w'.runs.eraseIdx i }
      | (w', some r') => { w' with runs := w'.runs.set i r' }
  | .raises i => { w with runs := w.runs.eraseIdx i }
  | .restart => { w with runs := [], lastTry := fun _ => none }
  | .project entryQty => { w with entryQty := fun e t => max (w.entryQty e t) (entryQty e t) }

def World.run (S : Setup) (w : World) (acts : List Act) : World := acts.foldl (World.step S) w

end MmrTrader.Scoreboard.SessionSimulator
