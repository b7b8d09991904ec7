import MmrTrader.Lib.Table

/-!
# Signals held for a retry

* `Signal`, `HeldSignal`, `DroppedSignals`, `Hold` — a queue of signals per `(conId, strategy)`.
* `Answers`, `FlushAnswers` — what the callbacks say while a signal, or a drop record, is settled.
* `settle` — `_settle` with `_why_blocked`, `_staleness` and `_write_blocked_gap`.
* `enqueue`, `settleInOrder`, `flushDropped` — the queue.
* `dispatch`, `retry`, `retryAll`, `noteDisabled` — the calls, and `run` over any sequence of them.

The trace notes what left the hold and what came in; it is kept newest first.
-/

set_option autoImplicit false

namespace MmrTrader.Strategy.SignalHold

open Lib

/-- `(conId, strategy name)`. -/
abbrev Key := Int × String

/-- Why a signal may not be dispatched; all but `STALE` can come from the runtime's `block_reason`. -/
inductive Reason where
  | STRATEGY_DISABLED
  | STRATEGY_UNLOADED
  | AUTHORED_UNPROVEN
  | STALE
  deriving DecidableEq

/-- What a caller hands over. -/
structure Fired where
  strategyName : String
  action : String
  conid : Int
  signalTime : Int
  deriving DecidableEq

/-- What of a `HeldSignal` never changes; `id` tells the objects apart. -/
structure Signal extends Fired where
  id : Nat
  disablesWhenHeld : Nat
  deriving DecidableEq

structure HeldSignal where
  signal : Signal
  /-- Once set the signal is never dispatched, only written down as a gap. -/
  blockReason : Option Reason
  /-- The newer completed bar that made the signal `STALE`. -/
  supersededBy : Option Int
  deriving DecidableEq

structure DroppedSignals where
  count : Nat
  firstSignalTime : Int
  lastSignalTime : Int
  sourceEventIds : List String
  deriving DecidableEq

structure Hold where
  signals : List HeldSignal
  dropped : Option DroppedSignals
  deriving DecidableEq

def Hold.empty : Hold := ⟨[], none⟩

def MAX_HELD_SIGNALS : Nat := 8

structure Config where
  capacity : Nat := MAX_HELD_SIGNALS
  sourceEventIdFor : String → Int → String → Int → String

def Config.sourceEventId (cfg : Config) (s : Signal) : String :=
  cfg.sourceEventIdFor s.strategyName s.conid s.action s.signalTime

/-- The metadata of a signal's own `SIGNAL_GAP`. -/
structure GapRow where
  strategyName : String
  conid : Int
  reason : Reason
  action : String
  signalTime : Int
  sourceEventId : String
  recorded : Bool
  latestBarTime : Option Int
  deriving DecidableEq

structure HoldFullRow where
  strategyName : String
  conid : Int
  count : Nat
  firstSignalTime : Int
  lastSignalTime : Int
  recordedCount : Nat
  deriving DecidableEq

inductive Event where
  /-- `dispatch` was called, with or without the count the signal was decided under. -/
  | handedOver (key : Key) (s : Signal) (disablesWhenDecided : Option Nat)
  | disabled (name : String)
  | blocked (s : Signal) (reason : Reason)
  /-- The dispatch callback returned; `block` and `latest` are what the checks before it read. -/
  | dispatched (key : Key) (s : Signal) (block : Option Reason) (latest : Option Int)
  | gap (key : Key) (s : Signal) (row : GapRow)
  | holdFull (key : Key) (row : HoldFullRow)
  deriving DecidableEq

/-! ## The disables and the trace -/

structure Core where
  disables : String → Nat
  trace : List Event
  nextId : Nat

def Core.log (core : Core) (e : Event) : Core := { core with trace := e :: core.trace }

def Core.noteDisabled (core : Core) (name : String) : Core :=
  { core with
    disables := Function.update core.disables name (core.disables name + 1)
    trace := .disabled name :: core.trace }

def Core.noteAll (core : Core) (names : List String) : Core := names.foldl Core.noteDisabled core

/-! ## Settling one signal -/

/-- Why a signal, or a drop record, stays for the next retry. -/
inductive NotSettled where
  | SignalRecordWriteFailed
  | SignalGapWriteFailed
  | LatestBarUnknown
  | RecordLookupFailed
  deriving DecidableEq

/-- What happens around one `_settle`. -/
structure Answers where
  /-- Disables of other threads, before the dispatch lock is taken. -/
  disabledBefore : List String
  /-- What `block_reason` says of the strategy. -/
  block : Option Reason
  /-- The newest completed bar, `none` when it cannot be read. -/
  latest : Option Int
  /-- The dispatch callback returns; otherwise it raises `SignalRecordWriteFailed`. -/
  recordWritten : Bool
  /-- Disables by the dispatch itself: the lock is reentrant. -/
  disabledWithin : List String
  /-- The ids the signal record holds, `none` when the lookup fails. -/
  recorded : Option (List String)
  gapWritten : Bool

/-- `_staleness`; a newer bar is noted on the signal. -/
def staleness (latest : Option Int) (held : HeldSignal) : Except NotSettled (Option Reason × HeldSignal) :=
  match latest with
  | none => .error .LatestBarUnknown
  | some latest =>
    if latest ≤ held.signal.signalTime then .ok (none, held)
    else .ok (some .STALE, { held with supersededBy := some latest })

def whyBlocked (core : Core) (a : Answers) (held : HeldSignal) : Except NotSettled (Option Reason × HeldSignal) :=
  if core.disables held.signal.strategyName ≠ held.signal.disablesWhenHeld then .ok (some .STRATEGY_DISABLED, held)
  else
    match a.block with
    | some reason => .ok (some reason, held)
    | none => staleness a.latest held

def gapRow (cfg : Config) (held : HeldSignal) (reason : Reason) (recorded : List String) : GapRow where
  strategyName := held.signal.strategyName
  conid := held.signal.conid
  reason := reason
  action := held.signal.action
  signalTime := held.signal.signalTime
  sourceEventId := cfg.sourceEventId held.signal
  recorded := decide (cfg.sourceEventId held.signal ∈ recorded)
  latestBarTime := held.supersededBy

/-- `_write_blocked_gap`: nothing is written unless the record can say whether it holds the signal. -/
def writeBlockedGap (cfg : Config) (key : Key) (core : Core) (a : Answers) (held : HeldSignal) (reason : Reason) :
    Core × Except NotSettled Unit :=
  match a.recorded with
  | none => (core, .error .RecordLookupFailed)
  | some recorded =>
    if a.gapWritten then (core.log (.gap key held.signal (gapRow cfg held reason recorded)), .ok ())
    else (core, .error .SignalGapWriteFailed)

/-- `_settle`: the checks and the dispatch under one lock, the gap after it. -/
def settle (cfg : Config) (key : Key) (core : Core) (a : Answers) (held : HeldSignal) :
    Core × HeldSignal × Except NotSettled Unit :=
  let core := core.noteAll a.disabledBefore
  match held.blockReason with
  | some reason =>
    let (core, result) := writeBlockedGap cfg key core a held reason
    (core, held, result)
  | none =>
    match whyBlocked core a held with
    | .error e => (core, held, .error e)
    | .ok (none, held) =>
      if a.recordWritten then
        ((core.log (.dispatched key held.signal a.block a.latest)).noteAll a.disabledWithin, held, .ok ())
      else (core.noteAll a.disabledWithin, held, .error .SignalRecordWriteFailed)
    | .ok (some reason, held) =>
      let held := { held with blockReason := some reason }
      let (core, result) := writeBlockedGap cfg key (core.log (.blocked held.signal reason)) a held reason
      (core, held, result)

/-! ## The queue -/

def addDropped (cfg : Config) (dropped : Option DroppedSignals) (evicted : HeldSignal) : DroppedSignals :=
  match dropped with
  | none => ⟨1, evicted.signal.signalTime, evicted.signal.signalTime, [cfg.sourceEventId evicted.signal]⟩
  | some d =>
    ⟨d.count + 1, d.firstSignalTime, evicted.signal.signalTime, d.sourceEventIds ++ [cfg.sourceEventId evicted.signal]⟩

/-- `_enqueue`: behind the held signals; when full, the oldest is evicted. -/
def enqueue (cfg : Config) (hold : Hold) (held : HeldSignal) : Hold :=
  match hold.signals with
  | [] => { hold with signals := [held] }
  | evicted :: rest =>
    if cfg.capacity ≤ hold.signals.length then
      ⟨rest ++ [held], some (addDropped cfg hold.dropped evicted)⟩
    else { hold with signals := hold.signals ++ [held] }

/-- `_settle_in_order`: from the oldest on, up to the first that cannot be settled. -/
def settleInOrder (cfg : Config) (key : Key) (answers : Nat → Answers) (core : Core) :
    List HeldSignal → Core × List HeldSignal
  | [] => (core, [])
  | held :: rest =>
    match settle cfg key core (answers 0) held with
    | (core, _, .ok ()) => settleInOrder cfg key (fun i => answers (i + 1)) core rest
    | (core, held, .error _) => (core, held :: rest)

structure FlushAnswers where
  recorded : Option (List String)
  gapWritten : Bool

def holdFullRow (key : Key) (d : DroppedSignals) (recorded : List String) : HoldFullRow where
  strategyName := key.2
  conid := key.1
  count := d.count
  firstSignalTime := d.firstSignalTime
  lastSignalTime := d.lastSignalTime
  recordedCount := recorded.dedup.length

/-- `_flush_dropped`: the evicted signals as one gap; `none` while it is not written. -/
def flushDropped (key : Key) (core : Core) (a : FlushAnswers) (dropped : Option DroppedSignals) : Option Core :=
  match dropped with
  | none => some core
  | some d =>
    match a.recorded with
    | none => none
    | some recorded => if a.gapWritten then some (core.log (.holdFull key (holdFullRow key d recorded))) else none

/-! ## The calls -/

abbrev Holds := Table (Prod.fst : Key × Hold → Key)

structure State where
  core : Core
  holds : Holds

def State.start : State := ⟨⟨fun _ => 0, [], 0⟩, .empty⟩

def State.holdOf (st : State) (key : Key) : Option Hold := (st.holds.get? key).map Prod.snd

/-- The queue of a key; without a hold it is empty. -/
def State.queue (st : State) (key : Key) : Hold := (st.holdOf key).getD .empty

/-- A signal as it enters, under the count it was decided under. -/
def Core.handOver (core : Core) (key : Key) (fired : Fired) (decided : Option Nat) : Core × HeldSignal :=
  let s : Signal := { fired with id := core.nextId, disablesWhenHeld := decided.getD (core.disables fired.strategyName) }
  ({ core with trace := .handedOver key s decided :: core.trace, nextId := core.nextId + 1 }, ⟨s, none, none⟩)

def dispatch (cfg : Config) (key : Key) (fired : Fired) (decided : Option Nat) (a : Answers) (st : State) : State :=
  let (core, held) := st.core.handOver key fired decided
  match st.holdOf key with
  | some hold => ⟨core, st.holds.upsert (key, enqueue cfg hold held)⟩
  | none =>
    match settle cfg key core a held with
    | (core, _, .ok ()) => ⟨core, st.holds⟩
    | (core, held, .error _) => ⟨core, st.holds.upsert (key, ⟨[held], none⟩)⟩

def retry (cfg : Config) (key : Key) (flush : FlushAnswers) (answers : Nat → Answers) (st : State) : State :=
  match st.holdOf key with
  | none => st
  | some hold =>
    match flushDropped key st.core flush hold.dropped with
    | none => st  -- the evicted signals are older: nothing acts before their gap
    | some core =>
      match settleInOrder cfg key answers core hold.signals with
      | (core, []) => ⟨core, st.holds.deleteWhere fun row => decide (row.1 = key)⟩
      | (core, signals) => ⟨core, st.holds.upsert (key, ⟨signals, none⟩)⟩

def retryAll (cfg : Config) (answers : Key → FlushAnswers × (Nat → Answers)) (st : State) : State :=
  (st.holds.rows.map Prod.fst).foldl (fun st key => retry cfg key (answers key).1 (answers key).2 st) st

inductive Call where
  | dispatch (key : Key) (fired : Fired) (disablesWhenDecided : Option Nat) (a : Answers)
  | retry (key : Key) (flush : FlushAnswers) (answers : Nat → Answers)
  | retryAll (answers : Key → FlushAnswers × (Nat → Answers))
  | noteDisabled (name : String)

def step (cfg : Config) (st : State) : Call → State
  | .dispatch key fired decided a => dispatch cfg key fired decided a st
  | .retry key flush answers => retry cfg key flush answers st
  | .retryAll answers => retryAll cfg answers st
  | .noteDisabled name => { st with core := st.core.noteDisabled name }

def run (cfg : Config) (calls : List Call) : State := calls.foldl (step cfg) .start

end MmrTrader.Strategy.SignalHold
