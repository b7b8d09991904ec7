import Mathlib.Tactic.Linarith
import MmrTrader.Experiment.Store
import MmrTrader.Lib.Restart

/-!
# The kill line

`trader/automation/kill_line.py` over exact rationals.

* `effectiveKillLine` — the tighter of the frozen and the configured percentage, on the frozen basis.
* `evaluateKillLine` — the drawdown from the anchor, or from the peak.
* `Reaches` — what the line means; `evaluateKillLine_ok` — that it is what the code decides.
-/

set_option autoImplicit false

namespace MmrTrader.Experiment

open MmrTrader.Lib

structure KillLine where
  pct : ℚ
  basis : KillBasis
  deriving DecidableEq

structure KillEvaluation where
  hit : Bool
  reference : ℚ
  netLiquidation : ℚ
  drawdownPct : ℚ
  deriving DecidableEq

/-- `effective_kill_line`; `config` is `experiment_kill_drawdown_pct` as loaded. -/
def effectiveKillLine (record : ExperimentStart) (config : Option Percent) : Option KillLine :=
  ([record.killDrawdownPct, config].reduceOption.map (·.val)).min?.map fun pct => ⟨pct, record.killBasis⟩

/-- One input of `evaluate_kill_line`: `KillLineInputError` names what cannot be trusted. -/
def trusted (name : String) (v : Value) : Except String ℚ :=
  match isNumber v with
  | some q => if 0 < q then .ok q else .error name
  | none => .error name

def evaluateKillLine (line : KillLine) (anchor peak netLiquidation : Value) : Except String KillEvaluation := do
  let anchor ← trusted "anchor" anchor
  let peak ← trusted "peak" peak
  let net ← trusted "net_liquidation" netLiquidation
  let reference := if line.basis = .start then anchor else max peak anchor
  let drawdown := (reference - net) / reference * 100
  return ⟨decide (line.pct ≤ drawdown), reference, net, drawdown⟩

/-! ## What the line means -/

/-- What the drawdown is taken from: the anchor, or the largest of the anchor and the equities known. -/
def reference (record : ExperimentStart) (known : List ℚ) : ℚ :=
  match record.killBasis with
  | .start => record.killAnchorNetLiquidation.val
  | .peak => known.foldl max record.killAnchorNetLiquidation.val

/-- The drawdown of `net` is at least the smaller percentage. -/
def Reaches (record : ExperimentStart) (config : Option Percent) (known : List ℚ) (net : ℚ) : Prop :=
  ∃ pct ∈ ([record.killDrawdownPct, config].reduceOption.map (·.val)).min?,
    pct ≤ (reference record known - net) / reference record known * 100

theorem le_foldl_max_self (known : List ℚ) (q : ℚ) : q ≤ known.foldl max q := by
  induction known generalizing q with
  | nil => exact le_refl q
  | cons x xs ih => exact (le_max_left q x).trans (ih (max q x))

theorem anchor_le_known (record : ExperimentStart) (known : List ℚ) :
    record.killAnchorNetLiquidation.val ≤ known.foldl max record.killAnchorNetLiquidation.val :=
  le_foldl_max_self known _

theorem reference_pos (record : ExperimentStart) (known : List ℚ) : 0 < reference record known := by
  have hanchor := record.killAnchorNetLiquidation.2
  unfold reference
  split
  · exact hanchor
  · exact lt_of_lt_of_le hanchor (anchor_le_known record known)

variable {v : Value}

theorem trusted_of_isNumber {name : String} {q : ℚ} (hv : isNumber v = some q) (h : 0 < q) : trusted name v = .ok q := by
  unfold trusted
  rw [hv]
  exact if_pos h

variable {record : ExperimentStart} {config : Option Percent} {net : ℚ}

/-- On trusted inputs `evaluate_kill_line` decides exactly whether the line is reached. -/
theorem evaluateKillLine_ok {line : KillLine} (known : List ℚ)
    (hline : effectiveKillLine record config = some line) (hv : isNumber v = some net) (hnet : 0 < net) :
    ∃ e, evaluateKillLine line (.float record.killAnchorNetLiquidation.val)
        (.float (known.foldl max record.killAnchorNetLiquidation.val)) v = .ok e ∧
      (e.hit = true ↔ Reaches record config known net) := by
  have hanchor := record.killAnchorNetLiquidation.2
  have hle := anchor_le_known record known
  obtain ⟨pct, hpct, rfl⟩ := Option.map_eq_some_iff.mp hline
  unfold evaluateKillLine
  rw [trusted_of_isNumber rfl hanchor, trusted_of_isNumber rfl (lt_of_lt_of_le hanchor hle),
    trusted_of_isNumber hv hnet]
  refine ⟨_, rfl, ?_⟩
  have href : (if record.killBasis = .start then record.killAnchorNetLiquidation.val
      else max (known.foldl max record.killAnchorNetLiquidation.val) record.killAnchorNetLiquidation.val) =
        reference record known := by
    unfold reference
    cases record.killBasis with
    | start => rfl
    | peak => exact max_eq_left hle
  show decide (pct ≤ ((if record.killBasis = .start then _ else _) - net) / _ * 100) = true ↔ _
  rw [decide_eq_true_iff, href]
  constructor
  · exact fun h => ⟨pct, hpct, h⟩
  · rintro ⟨pct', hpct', h⟩
    obtain rfl : pct' = pct := Option.some.inj ((Option.mem_def.mp hpct').symm.trans hpct)
    exact h

theorem Reaches.below {known : List ℚ}
    (h : Reaches record config (known ++ [net]) net) : net < known.foldl max record.killAnchorNetLiquidation.val := by
  obtain ⟨pct, hpct, h⟩ := h
  obtain ⟨p, -, rfl⟩ := List.mem_map.mp (List.min?_mem hpct)
  have hpos := p.2.1
  have hbelow : net < reference record (known ++ [net]) := by
    by_contra hnot
    push Not at hnot
    have hdraw := div_nonpos_of_nonpos_of_nonneg (sub_nonpos.mpr hnot) (reference_pos record (known ++ [net])).le
    linarith
  unfold reference at hbelow
  cases hb : record.killBasis with
  | start =>
    rw [hb] at hbelow
    exact lt_of_lt_of_le hbelow (anchor_le_known record known)
  | peak =>
    simp only [hb, List.foldl_append, List.foldl_cons, List.foldl_nil] at hbelow
    exact (lt_max_iff.mp hbelow).resolve_right (lt_irrefl _)

end MmrTrader.Experiment

/-!
## The kill monitor

`KillLineMonitor` (`trader/automation/kill_monitor.py`) and `ExperimentService.resume`, which asks it before it arms
again, as programs whose store transactions, port calls and accesses to the monitor's fields may interleave.

* `Memory` — the fields of the monitor, gone after a crash; `Shared` adds the tables and a history of what was done.
* `Answers` — what clock, COMMIT and ports answer at one step.
* `tick`, `recover`, `checkBeforeArming`, `kill`, `driveKill` and its five steps.
* `monitor` — the system: ticks, recoveries and resumes beside starts, pauses and stops of the experiment service.

Alert texts are left out, their event ids kept; the session end's date is left out.
-/

namespace MmrTrader.Experiment

open MmrTrader.Lib MmrTrader.Lib.Interleaving

def KILL_MONITOR_PRINCIPAL : String := "kill_monitor"

inductive Check where
  | CLEAR
  | HIT
  | UNKNOWN
  | NOT_READY
  deriving DecidableEq

/-- What `broker.capture` hands out; a field that is not there is `none`. -/
structure Capture where
  accountId : Option String
  accountMode : Option String
  netLiquidation : Value
  generationId : Value
  positions : List ℚ
  workingOrders : List String
  deriving DecidableEq

/-- `type(generation) is int`. -/
def Capture.generation (c : Capture) : Option Int :=
  match c.generationId with
  | .int g => some g
  | _ => none

def Capture.exposure (c : Capture) : Bool := c.positions.any (fun q => decide (q ≠ 0)) || !c.workingOrders.isEmpty

/-- What `liquidation.receipt_for` answers. -/
structure FlattenReceipt where
  state : String
  supersededBy : Option String
  generationId : Option Int
  deriving DecidableEq

def killRootId (experimentId : String) (killSeq killRound : Nat) : String :=
  "experiment-kill-" ++ experimentId ++ "-" ++ toString killSeq ++ "-" ++ toString killRound

inductive MonitorError where
  | store (e : StoreError)
  | refused (code : String)
  | port
  deriving DecidableEq

/-- What the monitor did, in order. -/
inductive Event where
  | booted
  /-- A capture was found usable. -/
  | accepted (capture : Capture)
  /-- `raise_peak` returned. -/
  | raised (record : ExperimentRecord) (capture : Capture) (peak : ℚ)
  /-- `_last_generation` was set. -/
  | good (generation : Option Int)
  /-- The evaluation ended CLEAR. -/
  | cleared (record : ExperimentRecord) (capture : Capture)
  /-- The KILLED transition returned. -/
  | killed (record : ExperimentRecord) (capture : Capture)
  /-- The KILLED transition raised. -/
  | notKilled (record : ExperimentRecord) (capture : Capture)
  /-- `flatten_account_now` was called. -/
  | flatten (record : ExperimentRecord) (root : Option String) (deadline : Int)
  /-- `update_kill_progress` returned. -/
  | progressed (record : ExperimentRecord)
  /-- The transition of an outage or of a resume returned. -/
  | moved (record : ExperimentRecord)
  deriving DecidableEq

/-- The fields of the monitor. -/
structure Memory where
  recovered : Bool := false
  lastGeneration : Option Int := none
  lastGoodAt : Option Int := none
  lastEvaluation : Option KillEvaluation := none
  unknownSince : Option Int := none
  unknownReason : Option String := none
  outageHandled : Bool := false
  deriving DecidableEq

structure Shared where
  db : ExperimentDb
  memory : Memory
  history : List Event

/-- Clock, COMMIT and ports at one step; `none` is a port that raises. -/
structure Answers where
  now : Int
  commit : Option StoreError := none
  entriesBeingSent : List String := []
  capture : Option Capture := none
  receipt : Option (Option FlattenReceipt) := none
  root : Option String := none
  safe : Option Bool := none
  delivered : Bool := true

structure Setup where
  accountId : String
  experimentKillDrawdownPct : Option Percent
  brokerOutagePauseSeconds : Int
  flattenSeconds : Int
  journal : Bool
  alerts : Bool
  sessionEnd : Bool

abbrev Monitor := Prog Shared Answers MonitorError

/-! ## Steps -/

def clock : Monitor Int := Prog.read fun a _ => .ok a.now

def recalled {α : Type} (f : Memory → α) : Monitor α := Prog.read fun _ s => .ok (f s.memory)

def remember (f : Memory → Memory) : Monitor Unit :=
  Prog.atomic fun _ s => .ok () { s with memory := f s.memory }

def ask {α : Type} (f : Answers → Option α) : Monitor α :=
  Prog.read fun a _ => match f a with
    | some v => .ok v
    | none => .error .port

/-- A port that only takes something in. -/
def deliver : Monitor Unit := Prog.read fun a _ => if a.delivered then .ok () else .error .port

/-- A writer of the store, and what of it goes into the history. -/
def store {α : Type} (P : Setup) (call : StoreEnv → Tx α) (note : Except StoreError α → List Event) : Monitor α :=
  Prog.atomic fun a s =>
    match call ⟨P.accountId, a.now, a.entriesBeingSent, a.commit⟩ s.db with
    | .ok v db => .ok v { s with db := db, history := s.history ++ note (.ok v) }
    | .error e db => .error (.store e) { s with db := db, history := s.history ++ note (.error e) }

/-- `store.active()`. -/
def active (P : Setup) : Monitor (Option ExperimentRecord) :=
  Prog.read fun a s => match a.commit with
    | none => .ok (s.db.activeOf P.accountId)
    | some e => .error (.store e)

def readBack : Option ExperimentRecord → Monitor ExperimentRecord
  | some record => pure record
  | none => Prog.raise .port

/-! ## Detection -/

/-- `_unusable_reason`, with `_last_generation`. -/
def unusableReason (accountId : String) (lastGeneration : Option Int) (c : Capture) : Option String :=
  if c.accountId ≠ some accountId then some "ACCOUNT_MISMATCH"
  else if c.accountMode ≠ some "paper" then some "ACCOUNT_NOT_PAPER"
  else match isNumber c.netLiquidation with
    | none => some "INVALID_NET_LIQUIDATION"
    | some q =>
        if q ≤ 0 then some "INVALID_NET_LIQUIDATION"
        else match c.generation with
          | none => some "INVALID_GENERATION"
          | some g =>
              match lastGeneration with
              | some last => if g < last then some "GENERATION_REGRESSION" else none
              | none => none

/-- The read of `_last_generation` that decides whether the capture is usable. -/
def inspect (P : Setup) (c : Capture) : Monitor (Option String) :=
  Prog.atomic fun _ s =>
    match unusableReason P.accountId s.memory.lastGeneration c with
    | none => .ok none { s with history := s.history ++ [.accepted c] }
    | some reason => .ok (some reason) s

def evaluableCapture (P : Setup) : Monitor (Option Capture) := do
  match ← (ask (·.capture)).attempt with
  | .error _ =>
      remember fun m => { m with unknownReason := some "RAISED" }
      return none
  | .ok c =>
      let reason ← inspect P c
      remember fun m => { m with unknownReason := reason }
      return if reason.isNone then some c else none

def incident (P : Setup) : Monitor Unit := do
  if P.journal then
    let _ ← deliver.attempt

/-- `_send_alert`: ENQUEUED, NO_OUTBOX, or none when the outbox failed. -/
def sendAlert (P : Setup) (_eventId _kind : String) : Monitor (Option String) := do
  if P.alerts then
    match ← deliver.attempt with
    | .ok _ => return some "ENQUEUED"
    | .error _ => return none
  else return some "NO_OUTBOX"

/-- `now - self._unknown_since`, a TypeError when the streak just ended. -/
def unknownFor (now : Int) : Monitor Int := do
  match ← recalled (·.unknownSince) with
  | some since => return now - since
  | none => Prog.raise .port

def SECOND : Int := 1000000

def outage (P : Setup) (record : ExperimentRecord) (now : Int) : Monitor Unit := do
  let seconds := (← unknownFor now).tdiv SECOND
  let last ← recalled (·.lastGeneration)
  let generation : Int := match last with
    | some g => g
    | none => record.startGenerationId
  let target ←
    if record.state = .ARMED then
      (store P (fun env => transition env record.experimentId.val ["ARMED"] "PAUSED" KILL_MONITOR_PRINCIPAL none
          ("broker data unavailable for " ++ toString seconds ++ " s")
          [("pause_cause", .text "BROKER_DATA_OUTAGE"), ("pause_generation_id", .int generation)])
        (fun r => match r with
          | .ok _ => [.moved record]
          | .error _ => [])).attempt
    else pure (.ok (some record))
  match target with
  | .error (.store (.experimentRefused _ _)) => return ()
  | .error e => Prog.raise e
  | .ok target =>
      let target ← readBack target
      let sent ← sendAlert P ("broker_outage:" ++ target.experimentId.val ++ ":" ++ toString target.revision)
        "broker_outage"
      remember fun m => { m with outageHandled := sent.isSome }

def onUnknown (P : Setup) (record : ExperimentRecord) : Monitor Unit := do
  let now ← clock
  if (← recalled (·.unknownSince)).isNone then
    remember fun m => { m with unknownSince := some now }
    remember fun m => { m with outageHandled := false }
    incident P
  if ← recalled (·.outageHandled) then return ()
  if P.brokerOutagePauseSeconds * SECOND ≤ (← unknownFor now) then
    outage P record now

/-! ## The kill -/

def ofText : Option String → Value
  | some s => .text s
  | none => .none

def progress (P : Setup) (record : ExperimentRecord) (changes : Changes) : Monitor ExperimentRecord := do
  readBack (← store P (fun env => updateKillProgress env record.experimentId.val "KILLED" changes)
    (fun r => match r with
      | .ok _ => [.progressed record]
      | .error _ => []))

def flattenAccountNow (record : ExperimentRecord) (root : Option String) (deadline : Int) : Monitor String :=
  Prog.atomic fun a s =>
    let s' := { s with history := s.history ++ [.flatten record root deadline] }
    match a.root with
    | some r => .ok r s'
    | none => .error .port s'

def receiptFor (_root : Option String) : Monitor (Option FlattenReceipt) := ask (·.receipt)

def ensureFlatten (P : Setup) (record : ExperimentRecord) : Monitor ExperimentRecord := do
  if record.killFlattenRoot.isSome then return record
  let killRoot := record.killRootId.map (·.val)
  let root ←
    if (← receiptFor killRoot).isSome then pure killRoot
    else do
      let now ← clock
      some <$> flattenAccountNow record killRoot (now + P.flattenSeconds * SECOND)
  progress P record [("kill_flatten_root", ofText root)]

def ensureAlert (P : Setup) (record : ExperimentRecord) : Monitor ExperimentRecord := do
  if record.killAlertState ≠ some .PENDING then return record
  match ← sendAlert P ("kill_started:" ++ record.experimentId.val ++ ":" ++ toString record.killSeq) "kill_started" with
  | none => return record
  | some state => progress P record [("kill_alert_state", .text state)]

def reconciliationSafe : Monitor Bool := do
  match ← (ask (·.safe)).attempt with
  | .ok safe => return safe
  | .error _ => return false

def proveFlat (P : Setup) (record : ExperimentRecord) : Monitor ExperimentRecord := do
  if record.killFlatState ≠ some .PENDING ∨ record.killFlattenRoot = none then return record
  match ← receiptFor (record.killFlattenRoot.map (·.val)) with
  | none => return record
  | some receipt =>
      if receipt.state = "SUPERSEDED" ∧ receipt.supersededBy.getD "" ≠ "" then
        progress P record [("kill_flatten_root", ofText receipt.supersededBy)]
      else if receipt.state = "FAILED_SAFE" ∨ receipt.state = "REDUCE_FAILED" then
        let now ← clock
        progress P record [("kill_flat_state", .text "FAILED_SAFE"), ("kill_flat_at", .moment now)]
      else if receipt.state ≠ "FLAT" ∧ receipt.state ≠ "CLOSED" ∧ receipt.state ≠ "DONE" then return record
      else
        let snapshot ← ask (·.capture)
        match snapshot.generation with
        | none => Prog.raise .port
        | some generation =>
            if generation < receipt.generationId.getD 0 ∨ snapshot.exposure then return record
            if ¬ (← reconciliationSafe) then return record
            let now ← clock
            progress P record [("kill_flat_state", .text "FLAT"), ("kill_flat_generation", .int generation),
              ("kill_flat_at", .moment now)]

def checkLateExposure (P : Setup) (record : ExperimentRecord) : Monitor ExperimentRecord := do
  if record.killFlatState ≠ some .FLAT then return record
  let snapshot ← ask (·.capture)
  if ¬ snapshot.exposure then return record
  let nextRound := record.killRound + 1
  progress P record [("kill_round", .int nextRound),
    ("kill_root_id", .text (killRootId record.experimentId.val record.killSeq nextRound)),
    ("kill_flatten_root", .none), ("kill_flat_state", .text "PENDING"), ("kill_flat_generation", .none),
    ("kill_flat_at", .none)]

def ensureSessionEnd (P : Setup) (record : ExperimentRecord) : Monitor ExperimentRecord := do
  if (record.killFlatState ≠ some .FLAT ∧ record.killFlatState ≠ some .FAILED_SAFE) ∨
      record.killSessionEndState ≠ some .PENDING then return record
  if ¬ P.sessionEnd then progress P record [("kill_session_end_state", .text "NO_SINK")]
  else do
    if record.killedAt = none then Prog.raise .port
    deliver
    progress P record [("kill_session_end_state", .text "RECORDED")]

/-- The loop of `_drive_kill`: a refused compare-and-set ends it, any other failure is retried by the next tick. -/
def drive (record : ExperimentRecord) : List (ExperimentRecord → Monitor ExperimentRecord) → Monitor Unit
  | [] => pure ()
  | step :: rest => do
      match ← (step record).attempt with
      | .ok record => drive record rest
      | .error (.store (.experimentRefused "EXPERIMENT_STATE_CHANGED" _)) => return ()
      | .error _ => drive record rest

def driveKill (P : Setup) (record : ExperimentRecord) : Monitor Unit :=
  drive record [ensureFlatten P, ensureAlert P, proveFlat P, checkLateExposure P, ensureSessionEnd P]

/-- The columns that `_kill` writes. -/
def killChanges (record : ExperimentRecord) (capture : Capture) (e : KillEvaluation) (killedAt : Int) : Changes :=
  [("killed_at", .moment killedAt), ("kill_seq", .int (record.killSeq + 1)), ("kill_round", .int 0),
    ("kill_root_id", .text (killRootId record.experimentId.val (record.killSeq + 1) 0)),
    ("kill_flatten_root", .none), ("kill_net_liquidation", .float e.netLiquidation),
    ("kill_observed_drawdown_pct", .float e.drawdownPct), ("kill_generation_id", capture.generationId),
    ("kill_flat_state", .text "PENDING"), ("kill_alert_state", .text "PENDING"),
    ("kill_session_end_state", .text "PENDING")]

def kill (P : Setup) (record : ExperimentRecord) (capture : Capture) (e : KillEvaluation) : Monitor Unit := do
  let killedAt ← clock
  let killed ← (store P (fun env => transition env record.experimentId.val ["ARMED", "PAUSED"] "KILLED"
      KILL_MONITOR_PRINCIPAL none "kill line hit" (killChanges record capture e killedAt))
    (fun r => match r with
      | .ok _ => [.killed record capture]
      | .error _ => [.notKilled record capture])).attempt
  match killed with
  | .error _ => return ()
  | .ok killed => driveKill P (← readBack killed)

def evaluate (P : Setup) (record : ExperimentRecord) (capture : Capture) : Monitor Check := do
  remember fun m => { m with unknownSince := none }
  remember fun m => { m with unknownReason := none }
  remember fun m => { m with outageHandled := false }
  let peak ← store P (fun env => raisePeak env record.experimentId.val capture.netLiquidation)
    (fun r => match r with
      | .ok peak => [.raised record capture peak]
      | .error _ => [])
  Prog.atomic fun _ s => .ok () { s with
    memory := { s.memory with lastGeneration := capture.generation }
    history := s.history ++ [.good capture.generation] }
  let now ← clock
  remember fun m => { m with lastGoodAt := some now }
  match effectiveKillLine record.toExperimentStart P.experimentKillDrawdownPct with
  | none =>
      clear none
      return .CLEAR
  | some line =>
      match evaluateKillLine line (.float record.killAnchorNetLiquidation.val) (.float peak) capture.netLiquidation with
      | .error _ =>
          remember fun m => { m with lastGoodAt := none }
          return .UNKNOWN
      | .ok e =>
          if ¬ e.hit then
            clear (some e)
            return .CLEAR
          remember fun m => { m with lastEvaluation := some e }
          kill P record capture e
          return .HIT
where
  /-- `_last_evaluation` of an evaluation that ends CLEAR. -/
  clear (e : Option KillEvaluation) : Monitor Unit :=
    Prog.atomic fun _ s => .ok () { s with
      memory := { s.memory with lastEvaluation := e }
      history := s.history ++ [.cleared record capture] }

/-! ## What the process calls -/

def recover (P : Setup) : Monitor Unit := do
  match ← active P with
  | some record => if record.state = .KILLED then driveKill P record
  | none => pure ()
  remember fun m => { m with recovered := true }

def tick (P : Setup) : Monitor Unit := do
  if ¬ (← recalled (·.recovered)) then recover P
  else
    match ← active P with
    | none => return ()
    | some record =>
        if record.state = .KILLED then driveKill P record
        else
          match ← evaluableCapture P with
          | none => onUnknown P record
          | some capture =>
              let _ ← evaluate P record capture

def checkBeforeArming (P : Setup) (record : ExperimentRecord) (capture : Capture) : Monitor Check := do
  if ¬ (← recalled (·.recovered)) then return .NOT_READY
  match ← inspect P capture with
  | some _ => return .UNKNOWN
  | none => evaluate P record capture

def serviceCapture (P : Setup) : Monitor Capture := do
  match ← (ask (·.capture)).attempt with
  | .error _ => Prog.raise (.refused "BROKER_SNAPSHOT_UNAVAILABLE")
  | .ok c =>
      match isNumber c.netLiquidation, c.generation with
      | some q, some _ =>
          Prog.refuseIf (q ≤ 0) (.refused "BROKER_SNAPSHOT_UNAVAILABLE")
          Prog.refuseIf (c.accountId ≠ some P.accountId) (.refused "BROKER_SNAPSHOT_UNAVAILABLE")
          Prog.refuseIf (c.accountMode ≠ some "paper") (.refused "ACCOUNT_NOT_PAPER")
          return c
      | _, _ => Prog.raise (.refused "BROKER_SNAPSHOT_UNAVAILABLE")

/-- `_read_bool`, and the refusal of `False`. -/
def requireBool (unreadable refused : String) : Monitor Unit := do
  match ← (ask (·.safe)).attempt with
  | .ok true => return ()
  | .ok false => Prog.raise (.refused refused)
  | .error _ => Prog.raise (.refused unreadable)

def requireFreshEvidence (P : Setup) (record : ExperimentRecord) : Monitor Capture := do
  requireBool "TRADER_NOT_READY" "TRADER_NOT_READY"
  let c ← serviceCapture P
  let floor : Int := (record.pauseGenerationId.getD record.startGenerationId : Nat)
  match c.generation with
  | none => Prog.raise .port
  | some g => Prog.refuseIf (g ≤ floor) (.refused "RESUME_EVIDENCE_STALE")
  requireBool "RECONCILIATION_INCOMPLETE" "RECONCILIATION_INCOMPLETE"
  return c

/-- `_require_kill_line_clear`; either code it refuses a hit with. -/
def requireKillLineClear (P : Setup) (record : ExperimentRecord) (capture : Capture) : Monitor Unit := do
  match ← (checkBeforeArming P record capture).attempt with
  | .error _ => Prog.raise (.refused "KILL_LINE_UNKNOWN")
  | .ok .CLEAR => return ()
  | .ok .NOT_READY => Prog.raise (.refused "EXPERIMENT_MONITOR_NOT_READY")
  | .ok .UNKNOWN => Prog.raise (.refused "KILL_LINE_UNKNOWN")
  | .ok .HIT =>
      match ← active P with
      | some current =>
          if current.state = .KILLED then Prog.raise (.refused "EXPERIMENT_KILLED")
          else Prog.raise (.refused "KILL_NOT_RECORDED")
      | none => Prog.raise (.refused "KILL_NOT_RECORDED")

def target (P : Setup) (experimentId : String) : Monitor ExperimentRecord := do
  match ← active P with
  | none =>
      let stopped ← Prog.read fun _ s => .ok (s.db.experiments.rows.any fun r => r.accountId.val = P.accountId)
      Prog.raise (.refused (if stopped then "EXPERIMENT_STOPPED" else "NO_EXPERIMENT"))
  | some record =>
      Prog.refuseIf (record.experimentId.val ≠ experimentId) (.refused "EXPERIMENT_MISMATCH")
      return record

/-- `ExperimentService.resume`, once the principal and the body are checked. -/
def resume (P : Setup) (experimentId principal commandId reason : String) : Monitor Unit := do
  let record ← target P experimentId
  Prog.refuseIf (record.state = .KILLED) (.refused "EXPERIMENT_KILLED")
  if record.state = .ARMED then return ()
  requireBool "AI_PAPER_CONFIG_UNREADABLE" "AI_PAPER_DISABLED"
  let capture ← if record.pauseCause = some .BROKER_DATA_OUTAGE then requireFreshEvidence P record else serviceCapture P
  requireKillLineClear P record capture
  let _ ← store P (fun env => transition env record.experimentId.val ["PAUSED"] "ARMED" principal (some commandId) reason
      [("pause_cause", .none), ("pause_generation_id", .none)])
    (fun r => match r with
      | .ok _ => [.moved record]
      | .error _ => [])

/-! ## The system -/

inductive Request where
  | recover
  | tick
  | resume (experimentId principal commandId reason : String)

/-- `_armed_record`: the start fixes anchor and peak. -/
def armedRecord (start : ExperimentStart) : ExperimentRecord :=
  { toExperimentStart := { start with killAnchorNetLiquidation := start.startNetLiquidation }
    toKillColumns := { peakNetLiquidation := start.startNetLiquidation }
    state := .ARMED, revision := 1, revision_pos := le_refl 1 }

inductive ServiceCall where
  | start (start : ExperimentStart) (principal reason : String)
  | pause (experimentId principal commandId reason : String)
  | stop (experimentId principal commandId reason : String)

def ServiceCall.call : ServiceCall → StoreCall
  | .start s principal reason => .insertArmed (armedRecord s) principal reason
  | .pause id principal commandId reason => .transition id ["ARMED"] "PAUSED" principal (some commandId) reason []
  | .stop id principal commandId reason =>
      .transition id ["ARMED", "PAUSED", "KILLED"] "STOPPED" principal (some commandId) reason []

def monitor (P : Setup) : System Shared Answers MonitorError Unit Request (StoreEnv × ServiceCall) where
  main
    | .recover => recover P
    | .tick => tick P
    | .resume experimentId principal commandId reason => resume P experimentId principal commandId reason
  env e s := { s with db := step s.db (e.1, e.2.call) }

/-- The next process starts with a fresh monitor. -/
def reboot (s : Shared) : Shared := { s with memory := {}, history := s.history ++ [.booted] }

/-- The world before the first run. -/
def initial : World Shared Answers MonitorError Unit := ⟨⟨.empty, {}, []⟩, fun _ => none⟩

/-- The state after the turns. -/
def monitored (P : Setup) (ts : List (Turn Answers MonitorError Request (StoreEnv × ServiceCall))) :
    World Shared Answers MonitorError Unit := (monitor P).lives reboot initial ts

end MmrTrader.Experiment
