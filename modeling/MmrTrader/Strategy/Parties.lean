import MmrTrader.Strategy.Revisions
import MmrTrader.Lib.Digits

/-!
# The strategy service and the trader

* `acknowledgeStrategyState` — the trader journals a state revision under its own event id.
* `acknowledgedPayload` — what `_forward` journals of a receipt.
* `ServicePhase`, `World`, `Act`, `World.step` — the threads of the strategy service (commands, announcements, drains of
  the outbox), the trader's forwarded calls, and the messages between them.

A message stays in flight once sent: it can be delivered late, more than once or never.  The command ledger of the
trader is left out; every forwarded command is one that passed its checks.
-/

set_option autoImplicit false

namespace MmrTrader.Strategy

open Lib Journal
open Command (Json)

/-! ## The trader's journal -/

abbrev TraderDb := JournalState Json Unit

/-- `strategy:{name}:state:{state_revision}`. -/
def stateEventId (name : String) (stateRevision : Nat) : String :=
  "strategy:" ++ name ++ ":state:" ++ String.ofList (Nat.toDigits 10 stateRevision)

theorem payload_upsert (payload : Payload Json) : (some payload).isSome = (Operation.upsert == .upsert) := rfl

def strategyUpdated (name : String) (payload : Payload Json) (accountId : Option String) (correlationId : String)
    (now : Int) : DomainMutation Json where
  eventType := "strategy.updated"
  entityType := "strategy"
  entityId := name
  operation := .upsert
  accountId := accountId
  source := "trader_service"
  sourceTimestamp := now
  correlationId := some correlationId
  payload := some payload
  payload_iff_upsert := payload_upsert payload

/-- `get_entity`: the revision of the entity, if it is there. -/
def entityRevision (db : TraderDb) (name : String) : Option Nat :=
  (db.tables.materialized.get? ("strategy", name)).bind fun row => if row.deleted then none else some row.entityRevision

/-- What the trader is asked to acknowledge. -/
structure Acknowledgement where
  strategyName : String
  stateRevision : Nat
  payload : Payload Json
  accountId : Option String
  correlationId : String
  deriving DecidableEq

def Acknowledgement.mutation (a : Acknowledgement) (now : Int) : DomainMutation Json :=
  strategyUpdated a.strategyName a.payload a.accountId a.correlationId now

/-- `acknowledge_strategy_state`: the entity's revision, or `none` when it raises.  `_strategy_ack_write` only logs;
    `commits` is false when the transaction fails for another reason. -/
def acknowledgeStrategyState (db : TraderDb) (a : Acknowledgement) (now receivedTs : Int) (commits : Bool) :
    Option Nat × TraderDb :=
  let write : WriteMaterialized Json Unit Unit := fun _ _ => if commits then .ok () else .error ()
  match mutate db (a.mutation now) write (stateEventId a.strategyName a.stateRevision) receivedTs with
  | (.ok events, db) => (events.head?.map (·.entityRevision), db)
  | (.error (.eventIdentityConflict _), db) => (entityRevision db a.strategyName, db)
  | (.error _, db) => (none, db)

/-- The payload that `_forward` makes of a receipt. -/
def acknowledgedPayload (r : WireReceipt) : Payload Json :=
  mergeDict (r.observablePayload.getD [])
    [("strategy_name", .text r.receipt.strategyName), ("action", .text r.receipt.action.text),
      ("strategy_state", .text (r.observableState.getD r.receipt.state.text)), ("receipt_state", .text r.receipt.state.text),
      ("control_revision", .ofInt r.receipt.controlRevision), ("state_revision", .ofInt r.receipt.stateRevision),
      ("error", .ofText r.receipt.error), ("last_error", .ofText r.receipt.error)]

/-! ## Threads and messages -/

inductive ServicePhase where
  | getReceipt (c : ControlCommand)
  | checkRevision (c : ControlCommand)
  | apply (c : ControlCommand)
  | readState (c : ControlCommand) (state : ReceiptState) (error : String)
  | recordReceipt (r : StrategyCommandReceipt)
  /-- `_announce_strategy_states`, with the strategies left; a command goes on with its commit. -/
  | announcing (rest : List String) (next : Option ControlCommand)
  | announce (name state : String) (payload : Payload Json) (rest : List String) (next : Option ControlCommand)
  | committing (c : ControlCommand)
  | remember (r : WireReceipt)
  /-- `_drain_ack_outbox`, with the rows left. -/
  | draining (rest : List OutboxRow)
  | calling (call : Nat) (row : OutboxRow) (rest : List OutboxRow)
  | marking (row : OutboxRow) (rest : List OutboxRow)
  deriving DecidableEq

/-- A call of `forward` that the trader waits for. -/
structure Waiting where
  commandId : String
  correlationId : String
  accountId : Option String
  deriving DecidableEq

structure World where
  store : RevisionStore
  loaded : List LoadedStrategy
  announced : String → Option String
  threads : Nat → Option ServicePhase
  db : TraderDb
  waiting : List Waiting
  requests : List ControlCommand
  replies : List WireReceipt
  /-- Calls of `record_state_acknowledged`; a call's id is its position. -/
  ackRequests : List OutboxRow
  ackReplies : List (Nat × Bool)

inductive Act where
  /-- The trader forwards a command. -/
  | forward (c : ControlCommand) (correlationId : String) (accountId : Option String)
  /-- It stops waiting. -/
  | giveUp (commandId : String)
  /-- A reply arrives. -/
  | reply (r : WireReceipt) (now receivedTs : Int) (commits : Bool)
  /-- A call of `record_state_acknowledged` arrives. -/
  | acknowledge (call : Nat) (now receivedTs : Int) (commits : Bool)
  | restartTrader
  /-- A forwarded command arrives. -/
  | receive (i : Nat) (c : ControlCommand)
  | announceStates (i : Nat)
  | drain (i limit : Nat)
  /-- The next step of a thread; `swapped` is what new parameters do to the loaded strategies, or the error and whether
      the restore failed too. -/
  | next (i : Nat) (swapped : Except (Bool × String) (List LoadedStrategy)) (commits : Bool)
  | answer (i : Nat) (ok : Bool)
  /-- The call of a drain times out or loses its connection. -/
  | timeout (i : Nat)
  /-- It fails otherwise. -/
  | fail (i : Nat)
  | die (i : Nat)
  /-- Strategies are loaded, unloaded or change by themselves. -/
  | setLoaded (loaded : List LoadedStrategy)
  | restartService (loaded : List LoadedStrategy)

namespace World

def start : World :=
  ⟨RevisionStore.empty, [], fun _ => none, fun _ => none, JournalState.empty (), [], [], [], [], []⟩

def goOn (w : World) (i : Nat) (p : ServicePhase) : World := { w with threads := Function.update w.threads i (some p) }

def finish (w : World) (i : Nat) : World := { w with threads := Function.update w.threads i none }

/-- The announcement of an enable or a disable is over, or raised; the one of the reconcile loop just ends. -/
def announced' (w : World) (i : Nat) : Option ControlCommand → World
  | none => w.finish i
  | some c => w.goOn i (.committing c)

/-- The reply of a command. -/
def send (w : World) (i : Nat) (r : WireReceipt) : World := { w with replies := w.replies ++ [r] }.finish i

/-- `enable_strategy`, `disable_strategy`, or the staged swap of new parameters. -/
def applyAction (w : World) (i : Nat) (c : ControlCommand) (swapped : Except (Bool × String) (List LoadedStrategy)) : World :=
  match c.action with
  | .update_strategy_params =>
    match swapped with
    | .ok loaded => { w with loaded := loaded }.goOn i (.committing c)
    | .error (restored, error) => w.goOn i (.readState c (if restored then .ROLLED_BACK else .ROLLBACK_FAILED) error)
  | action =>
    if getStrategy w.loaded c.strategyName = none then w.finish i
    else
      let state := if action = .enable_strategy then StrategyState.RUNNING else .DISABLED
      let loaded := setState c.strategyName state w.loaded
      { w with loaded := loaded }.goOn i (.announcing (loaded.map LoadedStrategy.name) (some c))

/-- The next step of a thread. -/
def next (w : World) (i : Nat) (swapped : Except (Bool × String) (List LoadedStrategy)) (commits : Bool) : ServicePhase → World
  | .getReceipt c =>
    match w.store.receipts.get? c.commandId with
    | some r => w.send i (withObservableState w.store w.loaded r)
    | none => w.goOn i (.checkRevision c)
  | .checkRevision c =>
    if c.expectedControlRevision = w.store.controlRevision c.strategyName then w.goOn i (.apply c) else w.finish i
  | .apply c => w.applyAction i c swapped
  | .readState c state error =>
    w.goOn i (.recordReceipt ⟨c.commandId, c.strategyName, c.action, state, c.expectedControlRevision,
      w.store.stateRevision c.strategyName, some error⟩)
  | .recordReceipt r =>
    match (if commits then w.store.recordReceipt r else none) with
    | some store => { w with store := store }.send i ⟨r, none, none⟩
    | none => w.finish i
  | .announcing [] next => w.announced' i next
  | .announcing (name :: rest) next =>
    let state := stateName w.loaded name
    if w.announced name = some state then w.goOn i (.announcing rest next)
    else w.goOn i (.announce name state (statePayload w.loaded name (w.store.controlRevision name)) rest next)
  | .announce name state payload rest next =>
    if commits then
      { w with store := w.store.bumpState name payload, announced := Function.update w.announced name (some state) }.goOn i
        (.announcing rest next)
    else w.announced' i next
  | .committing c =>
    match (if commits then commit w.store w.loaded c else none) with
    | some (r, store) => { w with store := store }.goOn i (.remember r)
    | none => w.finish i
  | .remember r =>
    match r.observableState with
    | some state => { w with announced := Function.update w.announced r.receipt.strategyName (some state) }.send i r
    | none => w.send i r
  | .draining [] => w.finish i
  | .draining (row :: rest) =>
    { w with ackRequests := w.ackRequests ++ [row] }.goOn i (.calling w.ackRequests.length row rest)
  | .calling _ _ _ => w
  | .marking row rest =>
    if commits then { w with store := w.store.markAcknowledged row.ackId }.goOn i (.draining rest) else w.finish i

/-- The call of `_forward` that a reply ends. -/
def waitingFor (w : World) (r : WireReceipt) : Option Waiting :=
  if r ∈ w.replies then w.waiting.find? fun call => call.commandId = r.receipt.commandId else none

/-- What `_forward` acknowledges. -/
def acknowledgementOf (call : Waiting) (r : WireReceipt) : Acknowledgement :=
  ⟨r.receipt.strategyName, r.receipt.stateRevision, acknowledgedPayload r, call.accountId, call.correlationId⟩

def recordStateAcknowledged (row : OutboxRow) : Acknowledgement :=
  ⟨row.strategyName, row.stateRevision, row.payload, none, "strategy:" ++ row.strategyName ++ ":ack"⟩

def step (w : World) : Act → World
  | .forward c correlationId accountId =>
    { w with waiting := w.waiting ++ [⟨c.commandId, correlationId, accountId⟩], requests := w.requests ++ [c] }
  | .giveUp commandId => { w with waiting := w.waiting.filter fun call => call.commandId ≠ commandId }
  | .reply r now receivedTs commits =>
    match w.waitingFor r with
    | none => w
    | some call =>
      let w := { w with waiting := w.waiting.filter fun call => call.commandId ≠ r.receipt.commandId }
      if r.receipt.state = .COMMITTED then
        { w with db := (acknowledgeStrategyState w.db (acknowledgementOf call r) now receivedTs commits).2 }
      else w
  | .acknowledge call now receivedTs commits =>
    match w.ackRequests[call]? with
    | none => w
    | some row =>
      let result := acknowledgeStrategyState w.db (recordStateAcknowledged row) now receivedTs commits
      { w with db := result.2, ackReplies := w.ackReplies ++ [(call, result.1.isSome)] }
  | .restartTrader => { w with waiting := [] }
  | .receive i c => if c ∈ w.requests ∧ w.threads i = none then w.goOn i (.getReceipt c) else w
  | .announceStates i => if w.threads i = none then w.goOn i (.announcing (w.loaded.map LoadedStrategy.name) none) else w
  | .drain i limit => if w.threads i = none then w.goOn i (.draining (w.store.unacknowledgedOutbox limit)) else w
  | .next i swapped commits =>
    match w.threads i with
    | some p => w.next i swapped commits p
    | none => w
  | .answer i ok =>
    match w.threads i with
    | some (.calling call row rest) =>
      if (call, ok) ∈ w.ackReplies then w.goOn i (if ok then .marking row rest else .draining rest) else w
    | _ => w
  | .timeout i =>
    match w.threads i with
    | some (.calling _ _ _) => w.finish i
    | _ => w
  | .fail i =>
    match w.threads i with
    | some (.calling _ _ rest) => w.goOn i (.draining rest)
    | _ => w
  | .die i => w.finish i
  | .setLoaded loaded => { w with loaded := loaded }
  | .restartService loaded => { w with loaded := loaded, announced := fun _ => none, threads := fun _ => none }

end World

end MmrTrader.Strategy

/-!
## State revisions in the trader's journal

* `AcknowledgeCase` — an acknowledgement finds its event, changes nothing, or appends it.
* `Observes` — the state and the control revision that a payload carries; the trader's entity keeps them.
-/

namespace MmrTrader.Strategy

open Lib Journal
open Command (Json)

/-! ## Event ids -/

theorem colon_not_digit (n : Nat) : ':' ∉ Nat.toDigits 10 n := fun h =>
  absurd (Nat.isDigit_of_mem_toDigits (by decide) (by decide) h) (by decide)

variable {name : String}

theorem stateEventId_inj {name' : String} {n n' : Nat} (h : stateEventId name n = stateEventId name' n') :
    name = name' ∧ n = n' := by
  unfold stateEventId at h
  have hlist : ("strategy:".toList ++ name.toList ++ ":state".toList) ++ ':' :: Nat.toDigits 10 n =
      ("strategy:".toList ++ name'.toList ++ ":state".toList) ++ ':' :: Nat.toDigits 10 n' := by
    have htext := congrArg String.toList h
    simp only [String.toList_append, String.toList_ofList] at htext
    have hstate : ":state:".toList = ":state".toList ++ [':'] := by decide
    rw [hstate] at htext
    simpa only [List.append_assoc, List.singleton_append] using htext
  obtain ⟨hleft, hdigits⟩ := append_cons_inj_right (colon_not_digit n) (colon_not_digit n') hlist
  refine ⟨String.toList_injective (List.append_cancel_left (List.append_cancel_right hleft)), ?_⟩
  exact toDigits_injective hdigits

/-! ## An acknowledgement -/

def Journaled (db : TraderDb) (name : String) (stateRevision : Nat) : Prop :=
  ∃ r ∈ db.tables.journal, r.eventId = stateEventId name stateRevision

instance (db : TraderDb) (name : String) (stateRevision : Nat) : Decidable (Journaled db name stateRevision) :=
  inferInstanceAs (Decidable (∃ r ∈ db.tables.journal, r.eventId = stateEventId name stateRevision))

/-- It changes no table, or it appends the event of a revision that was not journaled. -/
inductive AcknowledgeCase (db : TraderDb) (a : Acknowledgement) (now receivedTs : Int) : Option Nat × TraderDb → Prop where
  | same (result : Option Nat) (db' : TraderDb) (h : db'.tables = db.tables)
      (hin : result.isSome = true → Journaled db a.strategyName a.stateRevision) : AcknowledgeCase db a now receivedTs (result, db')
  | wrote (result : Option Nat) (db' : TraderDb) (row : JournalRow Json)
      (hid : row.eventId = stateEventId a.strategyName a.stateRevision) (hm : row.mutation = a.mutation now)
      (hout : ¬ Journaled db a.strategyName a.stateRevision) (hj : db'.tables.journal = db.tables.journal ++ [row])
      (hrows : db'.tables.materialized = upsertMaterialized db.tables.materialized (a.mutation now) row.entityRevision receivedTs) :
      AcknowledgeCase db a now receivedTs (result, db')

theorem acknowledge_cases (db : TraderDb) (a : Acknowledgement) (now receivedTs : Int) (commits : Bool) :
    AcknowledgeCase db a now receivedTs (acknowledgeStrategyState db a now receivedTs commits) := by
  unfold acknowledgeStrategyState mutate mutateBatchWork batchWork Work.run
  cases hsel : selectJournalRow db.tables.journal (stateEventId a.strategyName a.stateRevision) with
  | some existing =>
    have hin : Journaled db a.strategyName a.stateRevision :=
      ⟨existing, (selectJournalRow_some hsel).1, (selectJournalRow_some hsel).2⟩
    simp only [append, hsel]
    by_cases hm : existing.matches (a.mutation now) = true
    · simp only [hm, if_true, batchWork, Work.run]
      exact .same _ _ rfl fun _ => hin
    · simp only [hm, Bool.false_eq_true, if_false]
      exact .same _ _ rfl fun _ => hin
  | none =>
    have hout : ¬ Journaled db a.strategyName a.stateRevision := by
      rintro ⟨r, hr, hid⟩
      exact selectJournalRow_none hsel r hr hid
    cases commits with
    | false =>
      simp only [append, hsel, Bool.false_eq_true, if_false]
      exact .same _ _ rfl fun h => by cases h
    | true =>
      cases hdup : db.tables.journal.any fun r => r.entity == (a.mutation now).entity &&
          r.entityRevision == readCurrentRevision db.tables.materialized (a.mutation now).entity + 1 with
      | true =>
        simp only [append, hsel, if_true, insertJournalRow, hdup]
        exact .same _ _ rfl fun h => by cases h
      | false =>
        simp only [append, hsel, if_true, insertJournalRow, hdup, Bool.false_eq_true, if_false, batchWork, Work.run]
        exact .wrote _ _ ⟨db.seq + 1, stateEventId a.strategyName a.stateRevision, _, a.mutation now, receivedTs⟩ rfl rfl hout
          rfl rfl

/-! ## What a payload says of a strategy -/

def Observes (p : Payload Json) (state control : Json) : Prop :=
  p.lookup "strategy_state" = some state ∧ p.lookup "control_revision" = some control

theorem Observes.unique {p : Payload Json} {s c s' c' : Json} (h : Observes p s c) (h' : Observes p s' c') : s = s' ∧ c = c' :=
  ⟨Option.some.inj (h.1.symm.trans h'.1), Option.some.inj (h.2.symm.trans h'.2)⟩

theorem statePayload_observes (loaded : List LoadedStrategy) (name : String) (control : Nat) :
    Observes (statePayload loaded name control) (.text (stateName loaded name)) (.ofInt control) := ⟨rfl, rfl⟩

/-- The entity of a strategy shows a state and a control revision. -/
def Shows (db : TraderDb) (name : String) (state control : Json) : Prop :=
  ∃ row p, db.tables.materialized.get? ("strategy", name) = some row ∧ row.deleted = false ∧ row.payload = some p ∧
    Observes p state control

variable {rows : MaterializedTable Json} {a : Acknowledgement} {now receivedTs : Int} {revision : Nat}

theorem shows_upsert {state control : Json} (h : Observes a.payload state control) :
    ∃ row p, (upsertMaterialized rows (a.mutation now) revision receivedTs).get? ("strategy", a.strategyName) = some row ∧
      row.deleted = false ∧ row.payload = some p ∧ Observes p state control := by
  obtain ⟨p, hp, hstate⟩ := lookup_materializedPayload rows (m := a.mutation now) rfl h.1 (by decide)
  obtain ⟨p', hp', hcontrol⟩ := lookup_materializedPayload rows (m := a.mutation now) rfl h.2 (by decide)
  obtain rfl := Option.some.inj (hp.symm.trans hp')
  refine ⟨⟨"strategy", a.strategyName, a.accountId, revision, false, materializedPayload rows (a.mutation now), receivedTs⟩, p,
    ?_, rfl, hp, hstate, hcontrol⟩
  unfold upsertMaterialized
  rw [Table.get?_upsert]
  exact if_pos rfl

/-- The entities of other strategies stay. -/
theorem get?_upsert_other (h : a.strategyName ≠ name) :
    (upsertMaterialized rows (a.mutation now) revision receivedTs).get? ("strategy", name) = rows.get? ("strategy", name) := by
  unfold upsertMaterialized
  rw [Table.get?_upsert, if_neg]
  exact fun heq => h (Prod.mk.inj heq).2

/-- What `_forward` journals of a committed receipt shows what the receipt carries. -/
theorem acknowledgedPayload_observes {r : WireReceipt} {state : String} (hstate : r.observableState = some state) :
    Observes (acknowledgedPayload r) (.text state) (.ofInt r.receipt.controlRevision) := by
  constructor
  · unfold acknowledgedPayload
    rw [lookup_mergeDict, hstate]
    rfl
  · unfold acknowledgedPayload
    rw [lookup_mergeDict]
    rfl

end MmrTrader.Strategy
