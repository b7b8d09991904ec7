import Mathlib.Algebra.Order.Ring.Rat
import MmrTrader.Lib.Table
import MmrTrader.Lib.Transaction

/-!
# The experiment store

Tables, record and writers of `experiments.py`.

* `ExperimentRecord` — a checked record: the columns set once at insert (`ExperimentStart`), the
  columns of `KILL_COLUMNS` (`KillColumns`), and state, revision and `stopped_at`.
* `insertArmed`, `transition`, `updateKillProgress`, `raisePeak` — the writers; `run` takes one
  after the other, a refused one included.

Amounts are exact rationals, moments are UTC microseconds.
-/

set_option autoImplicit false

namespace MmrTrader.Experiment

open MmrTrader.Lib

inductive ExperimentState where
  | ARMED
  | PAUSED
  | KILLED
  | STOPPED
  deriving DecidableEq

def ExperimentState.text : ExperimentState → String
  | .ARMED => "ARMED"
  | .PAUSED => "PAUSED"
  | .KILLED => "KILLED"
  | .STOPPED => "STOPPED"

def STATES : List (String × ExperimentState) :=
  [("ARMED", .ARMED), ("PAUSED", .PAUSED), ("KILLED", .KILLED), ("STOPPED", .STOPPED)]

def ALLOWED_TRANSITIONS : List (ExperimentState × ExperimentState) :=
  [(.ARMED, .PAUSED), (.PAUSED, .ARMED), (.ARMED, .KILLED), (.PAUSED, .KILLED), (.ARMED, .STOPPED),
    (.PAUSED, .STOPPED), (.KILLED, .STOPPED)]

inductive FlatState where
  | PENDING
  | FLAT
  | FAILED_SAFE
  deriving DecidableEq

inductive AlertState where
  | PENDING
  | ENQUEUED
  | NO_OUTBOX
  deriving DecidableEq

inductive SessionEndState where
  | PENDING
  | RECORDED
  | NO_SINK
  deriving DecidableEq

inductive PauseCause where
  | BROKER_DATA_OUTAGE
  deriving DecidableEq

inductive FxSource where
  | base_is_usd
  | ib_account_values
  deriving DecidableEq

inductive KillBasis where
  | start
  | peak
  deriving DecidableEq

inductive Style where
  | intraday_long
  deriving DecidableEq

def FLAT_STATES : List (String × FlatState) :=
  [("PENDING", .PENDING), ("FLAT", .FLAT), ("FAILED_SAFE", .FAILED_SAFE)]

def ALERT_STATES : List (String × AlertState) :=
  [("PENDING", .PENDING), ("ENQUEUED", .ENQUEUED), ("NO_OUTBOX", .NO_OUTBOX)]

def SESSION_END_STATES : List (String × SessionEndState) :=
  [("PENDING", .PENDING), ("RECORDED", .RECORDED), ("NO_SINK", .NO_SINK)]

def PAUSE_CAUSES : List (String × PauseCause) := [("BROKER_DATA_OUTAGE", .BROKER_DATA_OUTAGE)]

/-! ## Checked values -/

/-- What a caller can pass for a column. -/
inductive Value where
  | none
  | int (n : Int)
  | float (q : ℚ)
  | notFinite
  | text (s : String)
  | moment (at_ : Int)
  | naiveMoment
  | other
  deriving DecidableEq

inductive StoreError where
  | experimentRefused (code message : String)
  | valueError (name : String)
  /-- A PRIMARY KEY or UNIQUE violation. -/
  | constraint
  | database
  deriving DecidableEq

/-- `[0-9a-f]`. -/
def isHex (c : Char) : Bool := ('0' ≤ c && c ≤ '9') || ('a' ≤ c && c ≤ 'f')

/-- `exp-[0-9a-f]{20}`. -/
def isExperimentId (s : String) : Bool :=
  s.toList.take 4 = ['e', 'x', 'p', '-'] && (s.toList.drop 4).length = 20 && (s.toList.drop 4).all isHex

/-- `[A-Z]{3}`. -/
def isCurrency (s : String) : Bool := s.toList.length = 3 && s.toList.all fun c => 'A' ≤ c && c ≤ 'Z'

abbrev ExperimentId := { s : String // isExperimentId s = true }

abbrev Text := { s : String // s ≠ "" }

abbrev Positive := { q : ℚ // 0 < q }

/-- A percent strictly between 0 and 100. -/
abbrev Percent := { q : ℚ // 0 < q ∧ q < 100 }

def isNumber : Value → Option ℚ
  | .int n => some n
  | .float q => some q
  | _ => none

def positive (name : String) (v : Value) : Except StoreError Positive :=
  match isNumber v with
  | some q => if h : 0 < q then .ok ⟨q, h⟩ else .error (.valueError name)
  | none => .error (.valueError name)

def number (name : String) (v : Value) : Except StoreError ℚ :=
  match isNumber v with
  | some q => .ok q
  | none => .error (.valueError name)

def count (name : String) : Value → Except StoreError Nat
  | .int n => if 0 ≤ n then .ok n.toNat else .error (.valueError name)
  | _ => .error (.valueError name)

def text (name : String) : Value → Except StoreError Text
  | .text s => if h : s ≠ "" then .ok ⟨s, h⟩ else .error (.valueError name)
  | _ => .error (.valueError name)

def moment (name : String) : Value → Except StoreError Int
  | .moment t => .ok t
  | _ => .error (.valueError name)

def member {T : Type} (allowed : List (String × T)) (name : String) : Value → Except StoreError T
  | .text s =>
      match allowed.find? fun a => a.1 = s with
      | some a => .ok a.2
      | none => .error (.valueError name)
  | _ => .error (.valueError name)

/-- `None`, or a checked value. -/
def optional {T : Type} (check : String → Value → Except StoreError T) (name : String) :
    Value → Except StoreError (Option T)
  | .none => .ok none
  | v => (check name v).map some

/-! ## The record -/

/-- The columns no writer changes after the insert. -/
structure ExperimentStart where
  experimentId : ExperimentId
  accountId : Text
  startCommandId : Text
  configDigest : Text
  startedAt : Int
  startNetLiquidation : Positive
  startUsdPerBase : Positive
  killAnchorNetLiquidation : Positive
  baseCurrency : { s : String // isCurrency s = true }
  startFxSource : FxSource
  styles : { l : List Style // l ≠ [] }
  killDrawdownPct : Option Percent
  killBasis : KillBasis
  startGenerationId : Nat
  deriving DecidableEq

structure KillColumns where
  peakNetLiquidation : Positive
  killSeq : Nat := 0
  killRound : Nat := 0
  killRootId : Option Text := none
  killFlattenRoot : Option Text := none
  killNetLiquidation : Option Positive := none
  killObservedDrawdownPct : Option ℚ := none
  killGenerationId : Option Nat := none
  killFlatGeneration : Option Nat := none
  pauseGenerationId : Option Nat := none
  killedAt : Option Int := none
  killFlatAt : Option Int := none
  killFlatState : Option FlatState := none
  killAlertState : Option AlertState := none
  killSessionEndState : Option SessionEndState := none
  pauseCause : Option PauseCause := none
  deriving DecidableEq

structure ExperimentRecord extends ExperimentStart, KillColumns where
  state : ExperimentState
  revision : Nat
  stoppedAt : Option Int := none
  revision_pos : 1 ≤ revision
  deriving DecidableEq

def KILL_COLUMNS : List String :=
  ["killed_at", "kill_seq", "kill_round", "kill_root_id", "kill_flatten_root", "kill_net_liquidation",
    "kill_observed_drawdown_pct", "kill_generation_id", "kill_flat_state", "kill_flat_generation", "kill_flat_at",
    "kill_alert_state", "kill_session_end_state", "peak_net_liquidation", "pause_cause", "pause_generation_id"]

/-- The `changes` mapping of a writer. -/
abbrev Changes := List (String × Value)

def checkChanges (changes : Changes) : Except StoreError Unit :=
  match changes.find? fun c => c.1 ∉ KILL_COLUMNS with
  | some c => .error (.valueError c.1)
  | none => .ok ()

/-- The new value of one column: checked when the mapping names it. -/
def changed {T : Type} (changes : Changes) (name : String) (current : T)
    (check : String → Value → Except StoreError T) : Except StoreError T :=
  match changes.find? fun c => c.1 = name with
  | some c => check name c.2
  | none => .ok current

/-- `dataclasses.replace` with the mapping, in the order in which `__post_init__` checks. -/
def KillColumns.replace (k : KillColumns) (changes : Changes) : Except StoreError KillColumns := do
  let peak ← changed changes "peak_net_liquidation" k.peakNetLiquidation positive
  let seq ← changed changes "kill_seq" k.killSeq count
  let round ← changed changes "kill_round" k.killRound count
  let root ← changed changes "kill_root_id" k.killRootId (optional text)
  let flattenRoot ← changed changes "kill_flatten_root" k.killFlattenRoot (optional text)
  let net ← changed changes "kill_net_liquidation" k.killNetLiquidation (optional positive)
  let drawdown ← changed changes "kill_observed_drawdown_pct" k.killObservedDrawdownPct (optional number)
  let generation ← changed changes "kill_generation_id" k.killGenerationId (optional count)
  let flatGeneration ← changed changes "kill_flat_generation" k.killFlatGeneration (optional count)
  let pauseGeneration ← changed changes "pause_generation_id" k.pauseGenerationId (optional count)
  let killedAt ← changed changes "killed_at" k.killedAt (optional moment)
  let flatAt ← changed changes "kill_flat_at" k.killFlatAt (optional moment)
  let flat ← changed changes "kill_flat_state" k.killFlatState (optional (member FLAT_STATES))
  let alert ← changed changes "kill_alert_state" k.killAlertState (optional (member ALERT_STATES))
  let sessionEnd ← changed changes "kill_session_end_state" k.killSessionEndState
    (optional (member SESSION_END_STATES))
  let cause ← changed changes "pause_cause" k.pauseCause (optional (member PAUSE_CAUSES))
  return { peakNetLiquidation := peak, killSeq := seq, killRound := round, killRootId := root,
           killFlattenRoot := flattenRoot, killNetLiquidation := net, killObservedDrawdownPct := drawdown,
           killGenerationId := generation, killFlatGeneration := flatGeneration,
           pauseGenerationId := pauseGeneration, killedAt := killedAt, killFlatAt := flatAt,
           killFlatState := flat, killAlertState := alert, killSessionEndState := sessionEnd, pauseCause := cause }

/-- The INTEGER and BIGINT columns hold the record's counts. -/
def ExperimentRecord.Fits (r : ExperimentRecord) : Prop :=
  (∀ n ∈ [r.revision, r.killSeq, r.killRound], n < 2 ^ 31) ∧
    ∀ n ∈ [some r.startGenerationId, r.killGenerationId, r.killFlatGeneration, r.pauseGenerationId].reduceOption,
      n < 2 ^ 63

instance (r : ExperimentRecord) : Decidable r.Fits := inferInstanceAs (Decidable (_ ∧ _))

/-! ## Tables -/

structure ExperimentRow extends ExperimentRecord where
  updatedAt : Int
  deriving DecidableEq

structure ActiveRow where
  accountId : String
  experimentId : String
  deriving DecidableEq

/-- What `detail_json` holds: the changes, and what a pause found still being sent. -/
structure TransitionDetail where
  changes : Changes
  entriesInFlight : Option (List String)
  deriving DecidableEq

structure TransitionRow where
  experimentId : String
  revision : Nat
  fromState : Option ExperimentState
  toState : ExperimentState
  principal : String
  commandId : Option String
  reason : String
  detail : TransitionDetail
  at_ : Int
  deriving DecidableEq

def ExperimentRow.id (r : ExperimentRow) : String := r.experimentId.val

def TransitionRow.key (t : TransitionRow) : String × Nat := (t.experimentId, t.revision)

structure ExperimentDb where
  experiments : Table ExperimentRow.id
  active : Table ActiveRow.accountId
  transitions : Table TransitionRow.key

/-- The tables as the migration creates them. -/
def ExperimentDb.empty : ExperimentDb := ⟨Table.empty, Table.empty, Table.empty⟩

abbrev Tx (α : Type) := EStateM StoreError ExperimentDb α

/-! ## Reads -/

/-- `get`: the experiment with this id. -/
def ExperimentDb.get (db : ExperimentDb) (experimentId : String) : Option ExperimentRecord :=
  (db.experiments.get? experimentId).map (·.toExperimentRecord)

/-- `active`: the experiment the account's `experiment_active` row names. -/
def ExperimentDb.activeOf (db : ExperimentDb) (accountId : String) : Option ExperimentRecord :=
  match db.active.get? accountId with
  | none => none
  | some row => db.get row.experimentId

/-- `transitions`: the experiment's rows, `ORDER BY revision`. -/
def ExperimentDb.transitionsOf (db : ExperimentDb) (experimentId : String) : List TransitionRow :=
  (db.transitions.rows.filter fun t => t.experimentId = experimentId).mergeSort fun t u => t.revision ≤ u.revision

/-! ## Statements -/

def insertExperiment (row : ExperimentRow) : Tx Unit := do
  let db ← get
  Tx.refuseIf (¬ row.Fits) .database
  Tx.refuseIf (∃ r ∈ db.experiments.rows, r.startCommandId = row.startCommandId) .constraint
  match db.experiments.insert? row with
  | none => throw .constraint
  | some rows => set { db with experiments := rows }

def insertActive (row : ActiveRow) : Tx Unit := do
  let db ← get
  Tx.refuseIf (∃ r ∈ db.active.rows, r.experimentId = row.experimentId) .constraint
  match db.active.insert? row with
  | none => throw .constraint
  | some rows => set { db with active := rows }

def append (row : TransitionRow) : Tx Unit := do
  let db ← get
  match db.transitions.insert? row with
  | none => throw .constraint
  | some rows => set { db with transitions := rows }

/-- `DELETE FROM experiment_active WHERE experiment_id = ?`. -/
def deleteActive (experimentId : String) : Tx Unit := do
  let db ← get
  set { db with active := db.active.deleteWhere fun r => r.experimentId = experimentId }

/-- The assignments of `_write_in_tx`: state, revision, `stopped_at` and the kill columns of `record`. -/
def ExperimentRow.assign (r : ExperimentRow) (record : ExperimentRecord) (now : Int) : ExperimentRow :=
  { r with
    state := record.state, revision := record.revision, revision_pos := record.revision_pos
    stoppedAt := record.stoppedAt, toKillColumns := record.toKillColumns, updatedAt := now }

def write (record : ExperimentRecord) (now : Int) (expectState : ExperimentState) (expectRevision : Nat) :
    Tx Unit := do
  let db ← get
  Tx.refuseIf (¬ record.Fits) .database
  let p := fun r : ExperimentRow =>
    decide (r.id = record.experimentId.val ∧ r.state = expectState ∧ r.revision = expectRevision)
  Tx.refuseIf (db.experiments.rows.filter p = [])
    (.experimentRefused "EXPERIMENT_STATE_CHANGED" ("experiment " ++ record.experimentId.val ++ " changed"))
  set { db with experiments := db.experiments.updateWhere p (fun r => r.assign record now) fun _ => rfl }

/-- `UPDATE experiments SET peak_net_liquidation = ? WHERE experiment_id = ?`. -/
def writePeak (experimentId : String) (value : Positive) (now : Int) : Tx Unit := do
  let db ← get
  set { db with
    experiments := db.experiments.updateWhere (fun r => r.id = experimentId)
      (fun r => { r with peakNetLiquidation := value, updatedAt := now }) fun _ => rfl }

/-! ## Writers -/

/-- What a call finds around it: the store's account, the clock, the account's entries being sent as the saga
tables show them, and what the COMMIT (or an earlier statement) raises. -/
structure StoreEnv where
  accountId : String
  now : Int
  entriesBeingSent : List String
  commit : Option StoreError

def require (env : StoreEnv) (experimentId : String) : Tx ExperimentRecord := do
  match (← get).get experimentId with
  | none => throw (.experimentRefused "NO_EXPERIMENT" ("no experiment " ++ experimentId))
  | some current =>
      if current.accountId.val ≠ env.accountId then
        throw (.experimentRefused "NO_EXPERIMENT" ("no experiment " ++ experimentId))
      else return current

def insertArmedTx (env : StoreEnv) (record : ExperimentRecord) (principal reason : String) :
    Tx (Option ExperimentRecord) := do
  let db ← get
  match db.get record.experimentId.val with
  | some own => return some own
  | none =>
      match db.active.get? record.accountId.val with
      | some active =>
          throw (.experimentRefused "EXPERIMENT_ACTIVE" ("experiment " ++ active.experimentId ++ " is not stopped"))
      | none =>
          insertExperiment { record with updatedAt := env.now }
          insertActive ⟨record.accountId.val, record.experimentId.val⟩
          append { experimentId := record.experimentId.val, revision := 1, fromState := none, toState := .ARMED,
                   principal := principal, commandId := some record.startCommandId.val, reason := reason,
                   detail := ⟨[], none⟩, at_ := env.now }
          return (← get).get record.experimentId.val

/-- A lost race on `experiment_active` is a refusal. -/
def armedFirst : StoreError → StoreError
  | .constraint => .experimentRefused "EXPERIMENT_ACTIVE" "another experiment was armed first"
  | e => e

def insertArmed (env : StoreEnv) (record : ExperimentRecord) (principal reason : String) :
    Tx (Option ExperimentRecord) :=
  if record.state ≠ .ARMED ∨ record.revision ≠ 1 ∨ record.accountId.val ≠ env.accountId then
    throw (.valueError "record")
  else (transaction env.commit (insertArmedTx env record principal reason)).adaptExcept armedFirst

def transitionTx (env : StoreEnv) (experimentId : String) (expected : List String) (toState : ExperimentState)
    (principal : String) (commandId : Option String) (reason : String) (changes : Changes) :
    Tx (Option ExperimentRecord) := do
  let current ← require env experimentId
  Tx.refuseIf (current.state.text ∉ expected)
    (.experimentRefused "EXPERIMENT_STATE_CHANGED"
      ("experiment " ++ experimentId ++ " is " ++ current.state.text))
  Tx.refuseIf ((current.state, toState) ∉ ALLOWED_TRANSITIONS)
    (.experimentRefused "ILLEGAL_TRANSITION"
      (current.state.text ++ " -> " ++ toState.text ++ " is not allowed"))
  let kill ← Tx.check (current.toKillColumns.replace changes)
  let updated : ExperimentRecord :=
    { current with
      state := toState, revision := current.revision + 1, revision_pos := Nat.le_add_left 1 _, toKillColumns := kill
      stoppedAt := if toState = .STOPPED then some env.now else current.stoppedAt }
  write updated env.now current.state current.revision
  Tx.onlyIf (toState = .STOPPED) (deleteActive experimentId)
  append { experimentId := experimentId, revision := updated.revision, fromState := some current.state,
           toState := toState, principal := principal, commandId := commandId, reason := reason,
           detail := ⟨changes, if toState = .PAUSED then some env.entriesBeingSent else none⟩, at_ := env.now }
  return (← get).get experimentId

def transition (env : StoreEnv) (experimentId : String) (expected : List String) (toState principal : String)
    (commandId : Option String) (reason : String) (changes : Changes) : Tx (Option ExperimentRecord) := do
  Tx.check (checkChanges changes)
  let toState ← Tx.check (member STATES "to" (.text toState))
  transaction env.commit (transitionTx env experimentId expected toState principal commandId reason changes)

def updateKillProgressTx (env : StoreEnv) (experimentId expectedState : String) (changes : Changes) :
    Tx (Option ExperimentRecord) := do
  let current ← require env experimentId
  Tx.refuseIf (current.state.text ≠ expectedState)
    (.experimentRefused "EXPERIMENT_STATE_CHANGED"
      ("experiment " ++ experimentId ++ " is " ++ current.state.text))
  let kill ← Tx.check (current.toKillColumns.replace changes)
  write { current with toKillColumns := kill } env.now current.state current.revision
  return (← get).get experimentId

def updateKillProgress (env : StoreEnv) (experimentId expectedState : String) (changes : Changes) :
    Tx (Option ExperimentRecord) := do
  Tx.check (checkChanges changes)
  transaction env.commit (updateKillProgressTx env experimentId expectedState changes)

def raisePeakTx (env : StoreEnv) (experimentId : String) (value : Positive) : Tx ℚ := do
  let current ← require env experimentId
  if current.peakNetLiquidation.val < value.val then
    writePeak experimentId value env.now
    return value.val
  else return current.peakNetLiquidation.val

def raisePeak (env : StoreEnv) (experimentId : String) (netLiquidation : Value) : Tx ℚ := do
  let value ← Tx.check (positive "net_liquidation" netLiquidation)
  transaction env.commit (raisePeakTx env experimentId value)

/-! ## Runs -/

inductive StoreCall where
  | insertArmed (record : ExperimentRecord) (principal reason : String)
  | transition (experimentId : String) (expected : List String) (toState principal : String)
      (commandId : Option String) (reason : String) (changes : Changes)
  | updateKillProgress (experimentId expectedState : String) (changes : Changes)
  | raisePeak (experimentId : String) (netLiquidation : Value)

inductive StoreAnswer where
  | record (r : Option ExperimentRecord)
  | value (q : ℚ)

def call (env : StoreEnv) : StoreCall → Tx StoreAnswer
  | .insertArmed record principal reason => .record <$> insertArmed env record principal reason
  | .transition id expected toState principal commandId reason changes =>
      .record <$> transition env id expected toState principal commandId reason changes
  | .updateKillProgress id expectedState changes => .record <$> updateKillProgress env id expectedState changes
  | .raisePeak id netLiquidation => .value <$> raisePeak env id netLiquidation

/-- The tables after a call, whether it returned or raised. -/
def step (db : ExperimentDb) (c : StoreEnv × StoreCall) : ExperimentDb :=
  match call c.1 c.2 db with
  | .ok _ db' => db'
  | .error _ db' => db'

/-- The tables after the calls, one after the other. -/
def run (calls : List (StoreEnv × StoreCall)) : ExperimentDb := calls.foldl step .empty

end MmrTrader.Experiment
