import Mathlib.Order.Monotone.Basic
import Mathlib.Data.List.Sort
import MmrTrader.Broker.Apply
import MmrTrader.Lib.Transaction

/-!
# The session controller

`SessionController` of `session_controller.py`: `recover`, `run_due` and `entries_allowed`.

* `Calendar`, `SessionSchedule` — `XNYSCalendarPolicy` as a map from dates to optional schedules.
* `World` — the stored rows, the controller's in-memory row, and a log of every port call.
* `Answers` — what the ports answer during one pass: each may return anything or raise.
* `recover`, `runDue` — the two calls; `emit` is where a process can die between two writes.
* `turn` — one call of the process that owns the controller.

Instants are UTC microseconds.  The entry-cutoff hook, the terminal listener and the journal event are left out:
what they raise is caught and they write none of these rows.
-/

set_option autoImplicit false

namespace MmrTrader.Session

open MmrTrader.Lib MmrTrader.Broker

/-- A calendar day, counted from some fixed day. -/
abbrev Date := Int

structure SessionSchedule where
  sessionDate : Date
  openUtc : Int
  closeUtc : Int
  entryCutoffUtc : Int
  cancelEntriesUtc : Int
  flattenStartUtc : Int
  flatDeadlineUtc : Int
  openingStabilizationEndUtc : Int
  isEarlyClose : Bool
  calendarName : String
  calendarVersion : String
  deriving DecidableEq

/-- `resolve` derives all four deadlines from the close, 30, 25, 15 and 5 minutes before it. -/
def SessionSchedule.Ordered (s : SessionSchedule) : Prop :=
  s.entryCutoffUtc ≤ s.cancelEntriesUtc ∧ s.cancelEntriesUtc ≤ s.flattenStartUtc ∧
    s.flattenStartUtc ≤ s.flatDeadlineUtc

instance (s : SessionSchedule) : Decidable s.Ordered := inferInstanceAs (Decidable (_ ∧ _))

/-- `XNYSCalendarPolicy`: the New York date of an instant, and the schedule of a session date. -/
structure Calendar where
  dateOf : Int → Date
  dateOf_mono {a b : Int} (h : a ≤ b) : dateOf a ≤ dateOf b
  sessions : Date → Option SessionSchedule
  sessions_date : ∀ d s, sessions d = some s → s.sessionDate = d
  sessions_ordered : ∀ d s, sessions d = some s → s.Ordered
  name : String
  version : String

def Calendar.resolve (cal : Calendar) (now : Int) : Option SessionSchedule := cal.sessions (cal.dateOf now)

def allowsNewEntry (now : Int) (s : SessionSchedule) : Bool :=
  if now < s.openingStabilizationEndUtc then false
  else if s.entryCutoffUtc ≤ now then false
  else if now < s.openUtc ∨ s.closeUtc ≤ now then false
  else true

inductive SessionState where
  | CLOSED
  | OPEN
  | ENTRY_CUTOFF
  | CANCELLING
  | FLATTENING
  | VERIFYING_FLAT
  | FLAT
  | INCIDENT
  deriving DecidableEq

def SessionState.isTerminal : SessionState → Bool
  | .FLAT => true
  | .INCIDENT => true
  | _ => false

structure SessionControllerState where
  accountId : String
  sessionDate : Date
  calendarName : String
  calendarVersion : String
  state : SessionState
  openUtc : Option Int
  closeUtc : Option Int
  entryCutoffUtc : Option Int
  cancelEntriesUtc : Option Int
  flattenStartUtc : Option Int
  flatDeadlineUtc : Option Int
  entryCutoffReached : Bool
  flattenCommandId : Option String
  flatGeneration : Option Int
  incident : Option String
  cancelIssued : Bool := false
  flattenIssued : Bool := false
  timeExits : List String := []
  deriving DecidableEq

/-! ## Ports -/

structure WorkingOrder where
  conid : Int
  isExternal : Bool
  leg : String
  orderGroupId : Option String
  totalQuantity : ℚ
  filledQuantity : ℚ
  deriving DecidableEq

structure HeldPosition where
  conid : Int
  quantity : ℚ
  deriving DecidableEq

structure Snapshot where
  workingOrders : List WorkingOrder
  positions : List HeldPosition
  deriving DecidableEq

/-- A liquidation receipt.  `generationId` is `error` when `int(...)` refuses it. -/
structure Receipt where
  state : String
  detail : String
  generationId : Except Unit (Option Int)

/-- What the capture before the oversized check gives: nothing, a snapshot, or one that cannot be read. -/
inductive CaptureAnswer where
  | raised
  | malformed
  | snapshot (s : Snapshot)

inductive StartAnswer where
  | raised
  | busy
  | returned (causeCommandId : Option String)

/-- What the ports answer during one pass over the deadlines. -/
structure Answers where
  cancelCapture : Except Unit Snapshot
  protectCapture : CaptureAnswer
  requestExit : Int → Except Unit Unit
  start : StartAnswer
  receipt : Except Unit (Option Receipt)

structure BreakerSignal where
  kind : String
  occurredAt : Int
  detail : String
  key : String
  deriving DecidableEq

/-- What a process leaves behind: its durable writes and its calls of the ports. -/
inductive Event where
  | saved (row : SessionControllerState)
  | cancelEntries (root : String) (orders : List WorkingOrder)
  | requestExit (commandId : String) (conid : Int) (quantity : ℚ) (side : String)
  /-- `liquidation.start` for the session's own flatten; `root` is what the session then follows. -/
  | start (date : Date) (at_ : Int) (cause : String) (deadline : Int) (root : Option String)
  | receipt (root : String) (state : String)
  | breaker (signal : BreakerSignal)

structure World where
  store : Table SessionControllerState.sessionDate
  log : List Event
  /-- `self._state`. -/
  memory : Option SessionControllerState
  /-- How many more events the process lives to see, when it dies. -/
  lives : Option Nat

inductive Raised where
  | port
  | noRoot
  | malformed
  | crashed
  deriving DecidableEq

abbrev Act (α : Type) := EStateM Raised World α

def World.note (w : World) (e : Event) : World := { w with log := w.log ++ [e], lives := w.lives.map (· - 1) }

/-- One durable write or port call; a process that dies here has not made it. -/
def emit (e : Event) : Act Unit := fun w =>
  if w.lives = some 0 then .error .crashed w else .ok () (w.note e)

def persist (state : SessionControllerState) : Act Unit := fun w =>
  if w.lives = some 0 then .error .crashed w
  else .ok () { w.note (.saved state) with store := w.store.upsert state, memory := some state }

/-! ## The controller -/

/-- `LATE_FLATTEN_WINDOW`: ten minutes. -/
def LATE_FLATTEN_WINDOW : Int := 600000000

structure Controller where
  accountId : String
  calendar : Calendar
  /-- `sha256_digest` of a domain and a payload. -/
  sha256Digest : String → List (String × String) → String
  isoDate : Date → String
  iso : Option Int → String

namespace Controller

variable (c : Controller)

def cancelCommandId (date : Date) : String :=
  "session-cancel-" ++ c.sha256Digest "session-cancel"
    [("account_id", c.accountId), ("session_date", c.isoDate date)]

def flattenCommandId (date : Date) : String :=
  "session-flatten-" ++ c.sha256Digest "session-flatten"
    [("account_id", c.accountId), ("session_date", c.isoDate date)]

def closedState (date : Date) : SessionControllerState where
  accountId := c.accountId
  sessionDate := date
  calendarName := c.calendar.name
  calendarVersion := c.calendar.version
  state := .CLOSED
  openUtc := none
  closeUtc := none
  entryCutoffUtc := none
  cancelEntriesUtc := none
  flattenStartUtc := none
  flatDeadlineUtc := none
  entryCutoffReached := false
  flattenCommandId := none
  flatGeneration := none
  incident := none

def fromSchedule (s : SessionSchedule) (state : SessionState) : SessionControllerState where
  accountId := c.accountId
  sessionDate := s.sessionDate
  calendarName := s.calendarName
  calendarVersion := s.calendarVersion
  state := state
  openUtc := some s.openUtc
  closeUtc := some s.closeUtc
  entryCutoffUtc := some s.entryCutoffUtc
  cancelEntriesUtc := some s.cancelEntriesUtc
  flattenStartUtc := some s.flattenStartUtc
  flatDeadlineUtc := some s.flatDeadlineUtc
  entryCutoffReached := false
  flattenCommandId := none
  flatGeneration := none
  incident := none

/-- `_kept_flat_deadline`: a late flatten's fresh window survives a restart. -/
def keptFlatDeadline (s : SessionSchedule) (existing : SessionControllerState) : Option Int :=
  match existing.flatDeadlineUtc with
  | some moved => if existing.flattenIssued ∧ s.flatDeadlineUtc < moved then some moved else some s.flatDeadlineUtc
  | none => some s.flatDeadlineUtc

/-- The schedule columns from the calendar, the sticky flags from the stored row. -/
def rebind (s : SessionSchedule) (existing : SessionControllerState) : SessionControllerState :=
  { c.fromSchedule s (if existing.state = .CLOSED then .OPEN else existing.state) with
    flatDeadlineUtc := keptFlatDeadline s existing
    entryCutoffReached := existing.entryCutoffReached
    flattenCommandId := existing.flattenCommandId
    flatGeneration := existing.flatGeneration
    incident := existing.incident
    cancelIssued := existing.cancelIssued
    flattenIssued := existing.flattenIssued
    timeExits := existing.timeExits }

/-! ### The steps of `run_due` -/

/-- `now_utc >= deadline`, for a deadline the row has. -/
def reached (deadline : Option Int) (now : Int) : Bool :=
  match deadline with
  | none => false
  | some d => d ≤ now

def entryCutoff (now : Int) (state : SessionControllerState) : Act SessionControllerState :=
  if reached state.entryCutoffUtc now ∧ state.entryCutoffReached = false then do
    let state := { state with
      entryCutoffReached := true, state := if state.state = .OPEN then .ENTRY_CUTOFF else state.state }
    persist state
    return state
  else return state

def isOwnEntry (o : WorkingOrder) : Bool :=
  o.leg = "entry" ∧ o.isExternal = false ∧ liquidationChildKind o.orderGroupId = none

/-- The cancel of our working entries; whatever it raises is caught. -/
def cancelWorkingEntries (a : Answers) (date : Date) : Act Unit :=
  match a.cancelCapture with
  | .error _ => pure ()
  | .ok snapshot =>
      let entries := snapshot.workingOrders.filter isOwnEntry
      Tx.onlyIf (entries ≠ []) (emit (.cancelEntries (c.cancelCommandId date) entries))

def issueCancel (a : Answers) (state : SessionControllerState) : Act SessionControllerState := do
  c.cancelWorkingEntries a state.sessionDate
  let state := { state with state := .CANCELLING, cancelIssued := true, entryCutoffReached := true }
  persist state
  return state

def cancelEntries (a : Answers) (now : Int) (state : SessionControllerState) : Act SessionControllerState :=
  if reached state.cancelEntriesUtc now ∧ state.cancelIssued = false then c.issueCancel a state
  else return state

def held (s : Snapshot) : List (Int × ℚ) :=
  ((s.positions.filter fun p => p.quantity ≠ 0).foldl
    (fun acc p => acc.filter (fun h => h.1 ≠ p.conid) ++ [(p.conid, p.quantity)]) []).insertionSort
    fun h k => h.1 ≤ k.1

/-- A working stop or target of the conid for more than the position. -/
def oversized (s : Snapshot) (conid : Int) (quantity : ℚ) : Bool :=
  s.workingOrders.any fun o =>
    o.conid = conid ∧ o.isExternal = false ∧ (o.leg = "stop" ∨ o.leg = "take_profit") ∧
      ¬ (o.orderGroupId.getD "").startsWith "og-aip-" ∧ |quantity| < o.totalQuantity - o.filledQuantity

def requestExit (a : Answers) (date : Date) (conid : Int) (quantity : ℚ) : Act Unit := do
  emit (.requestExit (c.cancelCommandId date ++ "-protect-" ++ toString conid) conid |quantity|
    (if 0 < quantity then "BUY" else "SELL"))
  match a.requestExit conid with
  | .ok () => pure ()
  | .error () => throw .port

def requestExits (a : Answers) (date : Date) (s : Snapshot) : List (Int × ℚ) → Act Unit
  | [] => pure ()
  | (conid, quantity) :: rest => do
      Tx.onlyIf (oversized s conid quantity) (c.requestExit a date conid quantity)
      requestExits a date s rest

def closeOversizedProtection (a : Answers) (date : Date) : Act Unit :=
  match a.protectCapture with
  | .raised => pure ()
  | .malformed => throw .malformed
  | .snapshot s => c.requestExits a date s (held s)

def protect (a : Answers) (state : SessionControllerState) : Act Unit :=
  Tx.onlyIf (state.cancelIssued = true ∧ state.flattenIssued = false ∧ state.state.isTerminal = false)
    (c.closeOversizedProtection a state.sessionDate)

def flattenDeadline (scheduled : Option Int) (now : Int) : Int :=
  match scheduled with
  | some deadline => if now < deadline then deadline else now + LATE_FLATTEN_WINDOW
  | none => now + LATE_FLATTEN_WINDOW

def startAccountFlatten (a : Answers) (date : Date) (now : Int) (cause : String) (deadline : Int) : Act String := do
  match a.start with
  | .busy =>
      emit (.start date now cause deadline (some cause))
      return cause
  | .raised =>
      emit (.start date now cause deadline none)
      throw .port
  | .returned root =>
      match root with
      | none =>
          emit (.start date now cause deadline none)
          throw .noRoot
      | some root =>
          if root = "" then
            emit (.start date now cause deadline none)
            throw .noRoot
          else
            emit (.start date now cause deadline (some root))
            return root

def issueFlatten (a : Answers) (now : Int) (state : SessionControllerState) : Act SessionControllerState := do
  let deadline := flattenDeadline state.flatDeadlineUtc now
  let root ← startAccountFlatten a state.sessionDate now (c.flattenCommandId state.sessionDate) deadline
  let state := { state with
    state := .FLATTENING, flattenCommandId := some root, flattenIssued := true, cancelIssued := true,
    entryCutoffReached := true, flatDeadlineUtc := some deadline }
  persist state
  return state

def flatten (a : Answers) (now : Int) (state : SessionControllerState) : Act SessionControllerState :=
  if reached state.flattenStartUtc now ∧ state.flattenIssued = false then c.issueFlatten a now state
  else return state

/-- The receipt of the followed root; whatever the rescan or the read raises leaves none. -/
def readReceipt (a : Answers) (state : SessionControllerState) : Option (String × Receipt) :=
  match state.flattenCommandId, a.receipt with
  | some root, .ok (some receipt) => if root = "" then none else some (root, receipt)
  | _, _ => none

def pollFlat (a : Answers) (now : Int) (state : SessionControllerState) : Act SessionControllerState := do
  match readReceipt a state with
  | none => return state
  | some (root, receipt) =>
      emit (.receipt root receipt.state)
      if receipt.state = "FAILED_SAFE" then
        let detail := "flatten root " ++ root ++ " ended FAILED_SAFE: " ++ receipt.detail
        emit (.breaker ⟨"LIQUIDATION_FAILED", now, detail, root⟩)
        let state := { state with state := .INCIDENT, incident := some detail }
        persist state
        return state
      else if receipt.state = "FLAT" then
        match receipt.generationId with
        | .error () => throw .malformed
        | .ok generation =>
            let state := { state with state := .FLAT, flatGeneration := generation }
            persist state
            return state
      else if state.state = .FLATTENING then
        let state := { state with state := .VERIFYING_FLAT }
        persist state
        return state
      else return state

def poll (a : Answers) (now : Int) (state : SessionControllerState) : Act SessionControllerState :=
  if state.flattenIssued = true ∧ state.state.isTerminal = false then pollFlat a now state
  else return state

def missedFlat (now : Int) (state : SessionControllerState) : Act SessionControllerState := do
  let detail := "session flat deadline " ++ c.iso state.flatDeadlineUtc ++
    " elapsed without broker-confirmed flat"
  emit (.breaker ⟨"MISSED_FLAT_DEADLINE", now, detail,
    (state.flattenCommandId.filter (· ≠ "")).getD (c.flattenCommandId state.sessionDate)⟩)
  let state := { state with state := .INCIDENT, incident := some detail }
  persist state
  return state

def missed (now : Int) (state : SessionControllerState) : Act SessionControllerState :=
  if state.state.isTerminal = false ∧ reached state.flatDeadlineUtc now then c.missedFlat now state
  else return state

/-- The five steps of `run_due`. -/
def deadlines (a : Answers) (now : Int) (state : SessionControllerState) : Act SessionControllerState := do
  let state ← entryCutoff now state
  let state ← c.cancelEntries a now state
  c.protect a state
  let state ← c.flatten a now state
  let state ← poll a now state
  c.missed now state

def runDueFrom (a : Answers) (now : Int) (state : SessionControllerState) : Act SessionControllerState :=
  if state.state.isTerminal ∨ state.closeUtc = none then return state
  else c.deadlines a now state

/-! ### The calls -/

/-- `self._state = state`. -/
def remember (state : SessionControllerState) : Act SessionControllerState := do
  modify fun w => { w with memory := some state }
  return state

/-- `recover` on a day with a session. -/
def resume (a : Answers) (now : Int) (state : SessionControllerState) : Act SessionControllerState := do
  persist state
  c.runDueFrom a now state

def recover (a : Answers) (now : Int) : Act SessionControllerState := do
  let w ← get
  match c.calendar.resolve now with
  | none =>
      match w.store.get? (c.calendar.dateOf now) with
      | some existing => remember existing
      | none =>
          persist (c.closedState (c.calendar.dateOf now))
          return c.closedState (c.calendar.dateOf now)
  | some schedule =>
      match w.store.get? schedule.sessionDate with
      | none => c.resume a now (c.fromSchedule schedule .OPEN)
      | some existing =>
          if existing.state = .INCIDENT then remember existing
          else c.resume a now (c.rebind schedule existing)

/-- `_require_state`; the nested `recover` gets its own answers. -/
def requireState (first : Answers) (now : Int) : Act SessionControllerState := do
  let w ← get
  match w.memory with
  | some state => return state
  | none => c.recover first now

def runDue (first a : Answers) (now : Int) : Act SessionControllerState := do
  let state ← c.requireState first now
  c.runDueFrom a now state

/-- The schedule `entries_allowed` rebuilds from the row: the opening stabilization ends at the open. -/
def scheduleOfRow (state : SessionControllerState) : Option SessionSchedule := do
  let openUtc ← state.openUtc
  let closeUtc ← state.closeUtc
  let entryCutoffUtc ← state.entryCutoffUtc
  let cancelEntriesUtc ← state.cancelEntriesUtc
  let flattenStartUtc ← state.flattenStartUtc
  let flatDeadlineUtc ← state.flatDeadlineUtc
  return { sessionDate := state.sessionDate, openUtc := openUtc, closeUtc := closeUtc,
           entryCutoffUtc := entryCutoffUtc, cancelEntriesUtc := cancelEntriesUtc,
           flattenStartUtc := flattenStartUtc, flatDeadlineUtc := flatDeadlineUtc,
           openingStabilizationEndUtc := openUtc, isEarlyClose := false,
           calendarName := state.calendarName, calendarVersion := state.calendarVersion }

def entriesAllowed (memory : Option SessionControllerState) (now : Int) : Bool :=
  match memory with
  | none =>
      match c.calendar.resolve now with
      | none => false
      | some schedule => allowsNewEntry now schedule
  | some state =>
      if state.entryCutoffReached then false
      else if state.state ≠ .OPEN then false
      else
        match scheduleOfRow state with
        | none => false
        | some schedule => allowsNewEntry now schedule

end Controller

/-! ## Turns -/

inductive Call where
  | recover
  | runDue
  deriving DecidableEq

/-- One call: its time, what the ports answer in the pass of a (nested) `recover` and in its own, and when the
process dies in it, if it does. -/
structure Turn where
  call : Call
  now : Int
  first : Answers
  second : Answers
  crash : Option Nat := none

def Turn.act (c : Controller) (t : Turn) : Act SessionControllerState :=
  match t.call with
  | .recover => c.recover t.first t.now
  | .runDue => c.runDue t.first t.second t.now

/-- The world after a call, whether it returned, raised, or took the process with it. -/
def turn (c : Controller) (w : World) (t : Turn) : World :=
  match t.act c { w with lives := t.crash } with
  | .ok _ w' => { w' with lives := none }
  | .error .crashed w' => { w' with lives := none, memory := none }
  | .error _ w' => { w' with lives := none }

def World.empty : World := ⟨Table.empty, [], none, none⟩

end MmrTrader.Session
