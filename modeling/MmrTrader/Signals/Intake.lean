import Mathlib.Data.Rat.Defs
import MmrTrader.Lib.Revisions
import MmrTrader.Lib.Table

/-!
# The strategy signal record

Executable model of `StrategySignalRecord` (`trader/data/strategy_signal_record.py`).

* `SignalRecord` — the rows, the counter, the watermark and the generation of one record.
* `appendInTx`, `pruneInTx` — one append with its retention; `readInTx` — one page.

A transaction commits or leaves the record as it was; instants are UTC (`Int`, microseconds).
-/

set_option autoImplicit false

namespace MmrTrader.Signals

open Lib

structure SignalEntry where
  sourceEventId : String
  strategyName : String
  conid : Int
  action : String
  probability : Option ℚ
  signalTime : Int
  deploymentDigest : Option String
  deploymentVersion : Option String
  sourceDigest : Option String
  barSize : Option String
  deriving DecidableEq

structure RecordedSignal where
  cursor : Nat
  entry : SignalEntry
  recordedAt : Int
  deriving DecidableEq

/-- The tables of one record; the rows are in order of their cursors. -/
structure SignalRecord where
  rows : List RecordedSignal
  lastCursor : Nat
  retentionWatermark : Nat
  recordGeneration : String
  deriving DecidableEq

/-- `_create_in_tx` on an empty file. -/
def SignalRecord.create (generation : String) : SignalRecord := ⟨[], 0, 0, generation⟩

def newestExpired (retention : Int) (rows : List RecordedSignal) (now : Int) : Option Nat :=
  ((rows.filter fun r => r.recordedAt < now - retention).map (·.cursor)).max?

/-- `_prune_in_tx`: the rows left and the new watermark. -/
def pruneInTx (retention : Int) (rows : List RecordedSignal) (watermark : Nat) (now : Int) : List RecordedSignal × Nat :=
  match newestExpired retention rows now with
  | none => (rows, watermark)
  | some newest => if newest ≤ watermark then (rows, watermark) else (above RecordedSignal.cursor newest rows, newest)

def SignalRecord.appendInTx (rec : SignalRecord) (retention : Int) (entry : SignalEntry) (now : Int) : SignalRecord :=
  if rec.rows.any fun r => r.entry.sourceEventId = entry.sourceEventId then rec
  else
    let cursor := rec.lastCursor + 1
    let (rows, watermark) := pruneInTx retention (rec.rows ++ [⟨cursor, entry, now⟩]) rec.retentionWatermark now
    { rec with rows := rows, lastCursor := cursor, retentionWatermark := watermark }

structure SignalPage where
  signals : List RecordedSignal
  nextCursor : Nat
  oldestRetainedCursor : Nat
  gap : Bool
  recordGeneration : String
  deriving DecidableEq

/-- What `read_ai_signals` can refuse. -/
inductive ReadRefusal where
  | signalCursorAhead (afterCursor lastCursor : Nat)
  | other (code : String)
  deriving DecidableEq

def MAX_READ_LIMIT : Nat := 500

def SignalRecord.readInTx (rec : SignalRecord) (afterCursor limit : Nat) : Except ReadRefusal SignalPage :=
  if rec.lastCursor < afterCursor then .error (.signalCursorAhead afterCursor rec.lastCursor)
  else
    let signals := page RecordedSignal.cursor afterCursor limit rec.rows
    .ok {
      signals := signals
      nextCursor := match signals.getLast? with
        | some last => last.cursor
        | none => max afterCursor rec.retentionWatermark
      oldestRetainedCursor := ((rec.rows.map (·.cursor)).min?).getD (rec.retentionWatermark + 1)
      gap := afterCursor < rec.retentionWatermark
      recordGeneration := rec.recordGeneration }

/-- `read`, the limit checked. -/
def SignalRecord.read (rec : SignalRecord) (afterCursor limit : Nat) : Except ReadRefusal SignalPage :=
  if 1 ≤ limit ∧ limit ≤ MAX_READ_LIMIT then rec.readInTx afterCursor limit
  else .error (.other "VALIDATION_ERROR")

end MmrTrader.Signals

/-!
## The signal intake

Executable model of `SignalIntake.poll` (`trader/ai/signal_intake.py`) over the trader's signal record.

* `commitPage`, `recordReplacement`, `recordReset` — the three transactions that move the cursor.
* `World`, `World.step` — a record that strategies append to and that may be replaced, and the one poll in flight,
  which may raise or crash anywhere.

`strftime` to the second is a parameter.  `generations` and `history` tell which records there were and every row each
of them committed.
-/

namespace MmrTrader.Signals

open Lib

structure CursorRow where
  value : Nat
  updatedAt : Int
  generation : Option String
  deriving DecidableEq

/-- One `ai_opportunities` row, as it is inserted. -/
structure Opportunity where
  opportunityId : String
  signalCursor : Nat
  entry : SignalEntry
  recordedAt : Int
  createdAt : Int
  deriving DecidableEq

inductive GapKind where
  | RETENTION
  | CURSOR_AHEAD
  | GENERATION_CHANGED
  deriving DecidableEq

structure CoverageGap where
  gapId : String
  kind : GapKind
  afterCursor : Nat
  resumedCursor : Nat
  detectedAt : Int
  deriving DecidableEq

structure IntakeDb where
  cursor : Option CursorRow
  opportunities : Table Opportunity.opportunityId
  gaps : Table CoverageGap.gapId
  deriving DecidableEq

def IntakeDb.cursorValue (db : IntakeDb) : Nat := (db.cursor.map (·.value)).getD 0

def IntakeDb.cursorGeneration (db : IntakeDb) : Option String := db.cursor.bind (·.generation)

/-- `INSERT … ON CONFLICT (gap_id) DO NOTHING`. -/
def IntakeDb.insertGap (db : IntakeDb) (gap : CoverageGap) : IntakeDb :=
  { db with gaps := (db.gaps.insert? gap).getD db.gaps }

/-- One turn of the loop over the signals of a page: a redelivered one is not a new opportunity. -/
def IntakeDb.takeUp (now : Int) (db : IntakeDb) (s : RecordedSignal) : IntakeDb :=
  { db with opportunities :=
      (db.opportunities.insert? ⟨s.entry.sourceEventId, s.cursor, s.entry, s.recordedAt, now⟩).getD db.opportunities }

def IntakeDb.setCursor (db : IntakeDb) (value : Nat) (now : Int) (generation : Option String) : IntakeDb :=
  { db with cursor := some ⟨value, now, generation⟩ }

/-! ## Replies -/

def barSizes : List String :=
  ["1 secs", "5 secs", "10 secs", "15 secs", "30 secs", "1 min", "2 mins", "3 mins", "5 mins", "10 mins", "15 mins",
    "20 mins", "30 mins", "1 hour", "2 hours", "3 hours", "4 hours", "8 hours", "1 day", "1 week", "1 month"]

def isLowerHex (c : Char) : Bool := c.isDigit || ('a' ≤ c && c ≤ 'f')

/-- `^<label>-[0-9a-f]{<count>}$`. -/
def isHexId (label : String) (count : Nat) (text : String) : Bool :=
  match text.toList.drop label.length with
  | '-' :: digits => text.toList.take label.length = label.toList && digits.length = count && digits.all isLowerHex
  | _ => false

/-- `sha256:<64 hex>`. -/
def isDigest (text : String) : Bool :=
  match text.toList.drop 6 with
  | ':' :: digits => text.toList.take 6 = "sha256".toList && digits.length = 64 && digits.all isLowerHex
  | _ => false

/-- `_parse_signal` accepts the row. -/
def isSignal (s : RecordedSignal) : Bool :=
  let binding := [s.entry.deploymentDigest, s.entry.deploymentVersion, s.entry.sourceDigest]
  isHexId "sig" 32 s.entry.sourceEventId && (s.entry.action = "BUY" || s.entry.action = "SELL") &&
    decide (0 < s.entry.conid) && s.entry.strategyName ≠ "" &&
    (match s.entry.barSize with
      | none => true
      | some size => barSizes.contains size) &&
    (binding.all (·.isNone) || binding.all fun d => d.any isDigest)

/-- The checks of `poll` on a page; any bad signal, and nothing is committed. -/
def isPage (cursor : Nat) (page : SignalPage) : Bool :=
  page.signals.all isSignal && decide (cursor ≤ page.nextCursor) && isHexId "gen" 32 page.recordGeneration

/-! ## Transactions -/

def retentionGapId (cursor oldest : Nat) : String := "gap-r-" ++ toString cursor ++ "-" ++ toString oldest

def generationGapId (cursor : Nat) (generation : String) : String := "gap-g-" ++ toString cursor ++ "-" ++ generation

def aheadGapId (strftime : Int → String) (cursor : Nat) (now : Int) : String :=
  "gap-a-" ++ toString cursor ++ "-" ++ strftime now

def IntakeDb.commitPage (db : IntakeDb) (cursor : Nat) (page : SignalPage) (now : Int) : IntakeDb :=
  let db := if page.gap then
      db.insertGap ⟨retentionGapId cursor page.oldestRetainedCursor, .RETENTION, cursor, page.oldestRetainedCursor, now⟩
    else db
  (page.signals.foldl (IntakeDb.takeUp now) db).setCursor page.nextCursor now (some page.recordGeneration)

def IntakeDb.recordReplacement (db : IntakeDb) (cursor : Nat) (generation : String) (now : Int) : IntakeDb :=
  (db.insertGap ⟨generationGapId cursor generation, .GENERATION_CHANGED, cursor, 0, now⟩).setCursor 0 now (some generation)

def IntakeDb.recordReset (strftime : Int → String) (db : IntakeDb) (cursor : Nat) (now : Int) : IntakeDb :=
  (db.insertGap ⟨aheadGapId strftime cursor now, .CURSOR_AHEAD, cursor, 0, now⟩).setCursor 0 now none

/-! ## The world -/

/-- Where the poll stands. -/
inductive Phase where
  | idle
  /-- It has read the cursor and the generation. -/
  | started (cursor : Nat) (known : Option String)
  /-- The trader answers `SIGNAL_CURSOR_AHEAD`. -/
  | ahead (cursor : Nat)
  /-- A page has come and passed its checks. -/
  | answered (cursor : Nat) (known : Option String) (page : SignalPage)
  deriving DecidableEq

structure Config where
  retention : Int
  retention_pos : 0 ≤ retention
  pageLimit : Nat
  strftime : Int → String

structure World where
  record : SignalRecord
  intake : IntakeDb
  phase : Phase
  generations : List String
  history : String → List RecordedSignal

inductive Act where
  /-- A strategy records a signal, by a clock at `now`. -/
  | append (entry : SignalEntry) (now : Int)
  /-- Another record takes the place of this one; its generation is drawn with `uuid4`. -/
  | replace (generation : String)
  | start
  | call
  /-- The next transaction of the poll commits, by a clock at `now`. -/
  | commit (now : Int)
  /-- The poll raises or its process dies. -/
  | abort

namespace World

def recorded (w : World) (record : SignalRecord) (entry : SignalEntry) (now : Int) : String → List RecordedSignal :=
  if record.lastCursor = w.record.lastCursor then w.history
  else
    Function.update w.history w.record.recordGeneration
      (w.history w.record.recordGeneration ++ [⟨record.lastCursor, entry, now⟩])

/-- What the reply to `read_ai_signals` makes of the poll. -/
def answer (cursor : Nat) (known : Option String) : Except ReadRefusal SignalPage → Phase
  | .error (.signalCursorAhead _ _) => .ahead cursor
  | .error (.other _) => .idle
  | .ok page => if isPage cursor page then .answered cursor known page else .idle

def step (C : Config) (w : World) : Act → World
  | .append entry now =>
    let record := w.record.appendInTx C.retention entry now
    { w with record := record, history := w.recorded record entry now }
  | .replace generation =>
    -- a generation drawn before does not come again
    if generation ∈ w.generations then w
    else { w with record := .create generation, generations := generation :: w.generations }
  | .start =>
    match w.phase with
    | .idle => { w with phase := .started w.intake.cursorValue w.intake.cursorGeneration }
    | _ => w
  | .call =>
    match w.phase with
    | .started cursor known => { w with phase := answer cursor known (w.record.read cursor C.pageLimit) }
    | _ => w
  | .commit now =>
    match w.phase with
    | .ahead cursor => { w with intake := w.intake.recordReset C.strftime cursor now, phase := .idle }
    | .answered cursor known page =>
      if known ≠ none ∧ known ≠ some page.recordGeneration then
        { w with intake := w.intake.recordReplacement cursor page.recordGeneration now, phase := .idle }
      else { w with intake := w.intake.commitPage cursor page now, phase := .idle }
    | _ => w
  | .abort => { w with phase := .idle }

/-- An empty intake and the first record. -/
def start (generation : String) : World :=
  ⟨.create generation, ⟨none, Table.empty, Table.empty⟩, .idle, [generation], fun _ => []⟩

end World

end MmrTrader.Signals
