import MmrTrader.Strategy.Revisions

/-!
# Control commands in the strategy service

Executable model of `apply_control_command`, `recover_startup_config` and `_persist_enabled`
(`trader/strategy/strategy_runtime.py`).

* `ConfigEntry`, `configEntries`, `swapEntry` — the blocks of the config file, and a block with new parameters.
* `ControlPhase`, `Runtime`, `ControlAct`, `Runtime.step` — the service between two durable writes; its process may die at
  any of them.

One command is handled at a time.  A transaction and a rename happen whole or not at all.
-/

set_option autoImplicit false

namespace MmrTrader.Strategy

open Lib Journal
open Command (Json)

/-! ## The config file -/

/-- A strategy's block; `rest` holds its other fields. -/
structure ConfigEntry where
  name : String
  params : Option (Payload Json)
  rest : Payload Json
  deriving DecidableEq

def findEntry (yaml : List ConfigEntry) (name : String) : Option ConfigEntry := yaml.find? fun e => e.name = name

/-- `raw.strip() == ''`. -/
def isBlank : Json → Bool
  | .text s => s.toList.all Char.isWhitespace
  | _ => false

/-- One turn of the loop over the new parameters. -/
def mergeParam (coerce : Json → Json) (merged : Payload Json) (param : String × Json) : Payload Json :=
  if param.1 = "" then merged
  else if isBlank param.2 then merged.filter fun kv => kv.1 ≠ param.1
  else mergeDict merged [(param.1, coerce param.2)]

/-- `_config_entries`: the block as it stands, and with the new parameters. -/
def configEntries (coerce : Json → Json) (yaml : List ConfigEntry) (name : String) (params : Payload Json) :
    Option (ConfigEntry × ConfigEntry) :=
  (findEntry yaml name).map fun entry =>
    let merged := params.foldl (mergeParam coerce) (entry.params.getD [])
    (entry, { entry with params := if merged = [] then none else some merged })

/-- The file with a block swapped in, as `_stage_yaml` writes it. -/
def swapEntry (e : ConfigEntry) (yaml : List ConfigEntry) : List ConfigEntry :=
  yaml.map fun x => if x.name = e.name then e else x

inductive ConfigState where
  | PREPARED
  | COMMITTED
  | ROLLED_BACK
  deriving DecidableEq

structure ConfigRevision where
  revisionId : Nat
  strategyName : String
  expectedControlRevision : Nat
  priorConfig : ConfigEntry
  proposedConfig : ConfigEntry
  state : ConfigState
  commandId : String
  deriving DecidableEq

/-- `UPDATE strategy_config_revisions SET state = … WHERE revision_id = …`. -/
def markRevision (revisionId : Nat) (state : ConfigState) (configs : List ConfigRevision) : List ConfigRevision :=
  configs.map fun row => if row.revisionId = revisionId then { row with state := state } else row

def preparedIds (configs : List ConfigRevision) : List Nat :=
  (configs.filter fun row => row.state = .PREPARED).map ConfigRevision.revisionId

/-! ## The service -/

/-- A thread of `_schedule_persist_enabled`, with the command that started it. -/
structure PersistThread where
  name : String
  enabled : Bool
  commandId : String
  deriving DecidableEq

structure StagedSwap where
  command : ControlCommand
  revisionId : Nat
  prior : ConfigEntry
  proposed : ConfigEntry
  deriving DecidableEq

/-- Where the service stands. -/
inductive ControlPhase where
  | down
  /-- `recover_startup_config`, with the revisions left; `failed` when a restore failed. -/
  | recovering (rest : List Nat) (failed : Bool)
  | restoring (row : ConfigRevision) (rest : List Nat) (failed : Bool)
  | flipping (row : ConfigRevision) (rest : List Nat) (failed : Bool)
  /-- Recovery is over; `config_loader` comes next. -/
  | recovered
  | idle
  | getReceipt (c : ControlCommand) (params : Payload Json)
  | checkRevision (c : ControlCommand) (params : Payload Json)
  | readConfig (c : ControlCommand) (params : Payload Json)
  | prepare (c : ControlCommand) (prior proposed : ConfigEntry)
  | stage (s : StagedSwap)
  | swap (s : StagedSwap)
  | replace (s : StagedSwap)
  | markCommitted (s : StagedSwap)
  | restore (s : StagedSwap) (error : String)
  | unstage (s : StagedSwap) (error : String) (restoreError : Option String)
  | markRolledBack (s : StagedSwap) (error : String) (restoreError : Option String)
  | record (c : ControlCommand) (state : ReceiptState) (error : String)
  /-- `enable_strategy` or `disable_strategy`. -/
  | switch (c : ControlCommand)
  | announcing (rest : List String) (c : ControlCommand)
  | commit (c : ControlCommand)
  deriving DecidableEq

structure Runtime where
  store : RevisionStore
  configs : List ConfigRevision
  yaml : List ConfigEntry
  /-- The `.tmp` file. -/
  staged : Option (List ConfigEntry)
  /-- `strategy_state`. -/
  enabled : String → Option Bool
  loaded : List LoadedStrategy
  announced : String → Option String
  /-- The threads that have not run, in the order of their start. -/
  threads : List PersistThread
  phase : ControlPhase

/-- What the outside does at a step. -/
structure Outcome where
  /-- Writing or renaming the config file raises. -/
  raises : Option String
  /-- The replacement loads, with what else its payload carries. -/
  reload : Except String (Payload Json)
  /-- The strategies that `config_loader` loads. -/
  loads : List (String × Payload Json)

inductive ControlAct where
  | call (c : ControlCommand) (params : Payload Json)
  | next (o : Outcome)
  /-- A persist thread runs. -/
  | persist (i : Nat)
  | die
  | restart

def loadedState : Option Bool → StrategyState
  | some true => .RUNNING
  | some false => .DISABLED
  | none => .INSTALLED

namespace Runtime

def start (yaml : List ConfigEntry) : Runtime :=
  ⟨RevisionStore.empty, [], yaml, none, fun _ => none, [], fun _ => none, [], .down⟩

def goOn (w : Runtime) (p : ControlPhase) : Runtime := { w with phase := p }

/-- `load_strategy`, when it loads. -/
def load (w : Runtime) (name : String) (metadata : Payload Json) : LoadedStrategy :=
  ⟨name, loadedState (w.enabled name), metadata⟩

/-- `_swap_runtime`: the loaded strategies, without the old one and with the new one if it loads. -/
def swapRuntime (w : Runtime) (name : String) (reload : Except String (Payload Json)) : Runtime :=
  let rest := w.loaded.filter fun s => s.name ≠ name
  match reload with
  | .ok metadata => { w with loaded := rest ++ [w.load name metadata] }
  | .error _ => { w with loaded := rest }

/-- `prepare_config_revision`. -/
def prepareRow (w : Runtime) (c : ControlCommand) (prior proposed : ConfigEntry) : ConfigRevision where
  revisionId := w.configs.length + 1
  strategyName := c.strategyName
  expectedControlRevision := c.expectedControlRevision
  priorConfig := prior
  proposedConfig := proposed
  state := .PREPARED
  commandId := c.commandId

/-- The receipt of a command that was rolled back, outside the commit. -/
def recordRow (w : Runtime) (c : ControlCommand) (state : ReceiptState) (error : String) : StrategyCommandReceipt :=
  ⟨c.commandId, c.strategyName, c.action, state, c.expectedControlRevision, w.store.stateRevision c.strategyName, some error⟩

def unloadedError (error : String) (restoreError : Option String) : String :=
  "swap failed: " ++ error ++ "; restore failed: " ++ restoreError.getD "None" ++ "; strategy left unloaded"

def isEnable (c : ControlCommand) : Bool := c.action = .enable_strategy

/-- `enable_strategy`, `disable_strategy`: the flag in memory, and the thread that will persist it. -/
def switch (w : Runtime) (c : ControlCommand) : Runtime :=
  if getStrategy w.loaded c.strategyName = none then w.goOn .idle
  else
    let loaded := setState c.strategyName (if isEnable c then .RUNNING else .DISABLED) w.loaded
    { w with
      loaded := loaded
      threads := w.threads ++ [⟨c.strategyName, isEnable c, c.commandId⟩]
      phase := .announcing (loaded.map LoadedStrategy.name) c }

/-- `recover_startup_config` is over: a failed restore refuses to come up. -/
def recover (w : Runtime) : List Nat → Bool → Runtime
  | [], true => w.goOn .down
  | [], false => w.goOn .recovered
  | id :: rest, failed =>
    match w.configs.find? fun row => row.revisionId = id with
    | none => w.goOn (.recovering rest failed)
    | some row => { w with staged := some (swapEntry row.priorConfig w.yaml) }.goOn (.restoring row rest failed)

/-- `os.replace`. -/
def rename (w : Runtime) : Runtime := { w with yaml := w.staged.getD w.yaml, staged := none }

/-- The next step of the service. -/
def next (coerce : Json → Json) (w : Runtime) (o : Outcome) : ControlPhase → Runtime
  | .down => w
  | .recovering rest failed => w.recover rest failed
  | .restoring row rest failed =>
    match o.raises with
    | some _ => { w with staged := none }.goOn (.recovering rest true)
    | none => w.rename.goOn (.flipping row rest failed)
  | .flipping row rest failed =>
    { w with configs := markRevision row.revisionId .ROLLED_BACK w.configs }.goOn (.recovering rest failed)
  | .recovered => { w with loaded := o.loads.map fun l => w.load l.1 l.2, phase := .idle }
  | .idle => w
  | .getReceipt c params =>
    match w.store.receipts.get? c.commandId with
    | some _ => w.goOn .idle
    | none => w.goOn (.checkRevision c params)
  | .checkRevision c params =>
    if c.expectedControlRevision ≠ w.store.controlRevision c.strategyName then w.goOn .idle
    else if c.action = .update_strategy_params then w.goOn (.readConfig c params)
    else w.goOn (.switch c)
  | .readConfig c params =>
    match configEntries coerce w.yaml c.strategyName params with
    | none => w.goOn .idle
    | some (prior, proposed) => w.goOn (.prepare c prior proposed)
  | .prepare c prior proposed =>
    { w with configs := w.configs ++ [w.prepareRow c prior proposed] }.goOn
      (.stage ⟨c, w.configs.length + 1, prior, proposed⟩)
  | .stage s =>
    match o.raises with
    | some error => w.goOn (.restore s error)
    | none => { w with staged := some (swapEntry s.proposed w.yaml) }.goOn (.swap s)
  | .swap s =>
    match o.reload with
    | .error error => (w.swapRuntime s.command.strategyName o.reload).goOn (.restore s error)
    | .ok _ => (w.swapRuntime s.command.strategyName o.reload).goOn (.replace s)
  | .replace s =>
    match o.raises with
    | some error => w.goOn (.restore s error)
    | none => w.rename.goOn (.markCommitted s)
  | .markCommitted s =>
    { w with configs := markRevision s.revisionId .COMMITTED w.configs }.goOn (.commit s.command)
  | .restore s error =>
    match o.reload with
    | .error restoreError =>
      (w.swapRuntime s.command.strategyName o.reload).goOn (.unstage s error (some restoreError))
    | .ok _ => (w.swapRuntime s.command.strategyName o.reload).goOn (.unstage s error none)
  | .unstage s error restoreError => { w with staged := none }.goOn (.markRolledBack s error restoreError)
  | .markRolledBack s error restoreError =>
    { w with configs := markRevision s.revisionId .ROLLED_BACK w.configs }.goOn
      (if getStrategy w.loaded s.command.strategyName = none then
        .record s.command .ROLLBACK_FAILED (unloadedError error restoreError)
      else .record s.command .ROLLED_BACK error)
  | .record c state error =>
    match w.store.recordReceipt (w.recordRow c state error) with
    | some store => { w with store := store }.goOn .idle
    | none => w.goOn .idle
  | .switch c => w.switch c
  | .announcing [] c => w.goOn (.commit c)
  | .announcing (name :: rest) c =>
    let state := stateName w.loaded name
    if w.announced name = some state then w.goOn (.announcing rest c)
    else
      { w with
        store := w.store.bumpState name (statePayload w.loaded name (w.store.controlRevision name))
        announced := Function.update w.announced name (some state) }.goOn (.announcing rest c)
  | .commit c =>
    match Strategy.commit w.store w.loaded c with
    | some (r, store) =>
      { w with
        store := store
        announced := Function.update w.announced c.strategyName (r.observableState.or (w.announced c.strategyName)) }.goOn
        .idle
    | none => w.goOn .idle

def persist (w : Runtime) (i : Nat) : Runtime :=
  match w.threads[i]? with
  | none => w
  | some t => { w with enabled := Function.update w.enabled t.name (some t.enabled), threads := w.threads.eraseIdx i }

/-- What lives in memory is gone. -/
def die (w : Runtime) : Runtime :=
  { w with loaded := [], announced := fun _ => none, threads := [], phase := .down }

def step (coerce : Json → Json) (w : Runtime) : ControlAct → Runtime
  | .call c params => if w.phase = .idle then w.goOn (.getReceipt c params) else w
  | .next o => w.next coerce o w.phase
  | .persist i => w.persist i
  | .die => w.die
  | .restart => if w.phase = .down then w.goOn (.recovering (preparedIds w.configs) false) else w

def run (coerce : Json → Json) (w : Runtime) (acts : List ControlAct) : Runtime := acts.foldl (step coerce) w

end Runtime

end MmrTrader.Strategy

/-!
## Receipts and staged swaps

* `proposedOf`, `promisedEntry` — the block that a strategy's newest COMMITTED update left.
* `findEntry_swapEntry` — what a swapped-in block changes.
* `Pending` — the one PREPARED row; `Pending.mark` resolves it.
-/

namespace MmrTrader.Strategy

open Lib Journal
open Command (Json)

/-! ## Blocks -/

variable {yaml : List ConfigEntry}

theorem findEntry_name {n : String} {e : ConfigEntry} (h : findEntry yaml n = some e) :
    e.name = n := by simpa using List.find?_some h

theorem findEntry_swapEntry (e : ConfigEntry) (yaml : List ConfigEntry) (n : String) :
    findEntry (swapEntry e yaml) n = if n = e.name then (findEntry yaml n).map fun _ => e else findEntry yaml n := by
  induction yaml with
  | nil => simp [findEntry, swapEntry]
  | cons x rest ih =>
    simp only [findEntry, swapEntry, List.map_cons, List.find?_cons] at ih ⊢
    by_cases hx : x.name = e.name
    · by_cases hn : n = e.name
      · subst hn
        simp [hx]
      · have hne : ¬ e.name = n := fun h => hn h.symm
        have hnx : ¬ x.name = n := fun h => hn (h.symm.trans hx)
        simpa [hx, hne, hn] using ih
    · by_cases hxn : x.name = n
      · have hn : ¬ n = e.name := fun h => hx (hxn.trans h)
        simp [hxn, hn]
      · simpa [hx, hxn] using ih

variable {name : String}

/-- The blocks that `_config_entries` returns are of the strategy, and the first is the one in the file. -/
theorem configEntries_some {coerce : Json → Json} {params : Payload Json}
    {prior proposed : ConfigEntry} (h : configEntries coerce yaml name params = some (prior, proposed)) :
    findEntry yaml name = some prior ∧ prior.name = name ∧ proposed.name = name := by
  obtain ⟨entry, hentry, he⟩ := Option.map_eq_some_iff.mp h
  obtain ⟨rfl, rfl⟩ := Prod.mk.inj he
  have hname : entry.name = name := findEntry_name hentry
  exact ⟨hentry, hname, hname⟩

/-! ## Receipts -/

def RevisionStore.committed (s : RevisionStore) (name : String) (actions : ControlAction → Bool) :
    List StrategyCommandReceipt :=
  s.receipts.rows.filter fun r => r.strategyName = name ∧ r.state = .COMMITTED ∧ actions r.action

/-- The newest COMMITTED receipt of the strategy for such an action. -/
def RevisionStore.newestReceipt (s : RevisionStore) (name : String) (actions : ControlAction → Bool) :
    Option StrategyCommandReceipt := (s.committed name actions).getLast?

def isUpdate (a : ControlAction) : Bool := a = .update_strategy_params

def isSwitch (a : ControlAction) : Bool := a ≠ .update_strategy_params

def RevisionStore.lastSwitch (s : RevisionStore) (name : String) : Option ControlAction :=
  (s.newestReceipt name isSwitch).map (·.action)

variable {s : RevisionStore} {r : StrategyCommandReceipt}

theorem newestReceipt_mem {actions : ControlAction → Bool} (h : s.newestReceipt name actions = some r) : r ∈ s.receipts.rows :=
  (List.mem_filter.mp (List.mem_of_getLast? h)).1

/-- What a transaction with one more receipt leaves. -/
structure Recorded (s s' : RevisionStore) (r : StrategyCommandReceipt) : Prop where
  fresh : s.receipts.get? r.commandId = none
  rows : s'.receipts.rows = s.receipts.rows ++ [r]
  control : ∀ n, s'.controlRevision n = s.controlRevision n + if r.state = .COMMITTED ∧ n = r.strategyName then 1 else 0

variable {s' : RevisionStore}

theorem Recorded.committed (h : Recorded s s' r) (name : String) (actions : ControlAction → Bool) :
    s'.committed name actions = s.committed name actions ++
      if r.strategyName = name ∧ r.state = .COMMITTED ∧ actions r.action then [r] else [] := by
  unfold RevisionStore.committed
  rw [h.rows, List.filter_append]
  congr 1
  by_cases hr : r.strategyName = name ∧ r.state = .COMMITTED ∧ actions r.action = true
  · rw [if_pos hr]
    simp [hr]
  · rw [if_neg hr]
    simpa using hr

theorem Recorded.newestReceipt (h : Recorded s s' r) (name : String) (actions : ControlAction → Bool) :
    s'.newestReceipt name actions = if r.strategyName = name ∧ r.state = .COMMITTED ∧ actions r.action then some r
      else s.newestReceipt name actions := by
  unfold RevisionStore.newestReceipt
  rw [h.committed name actions]
  split
  · simp
  · simp

theorem Recorded.get? (h : Recorded s s' r) (commandId : String) :
    s'.receipts.get? commandId = if r.commandId = commandId then some r else s.receipts.get? commandId := by
  rw [Table.get?, h.rows, List.find?_append]
  by_cases hk : r.commandId = commandId
  · subst hk
    have : s.receipts.rows.find? (fun x => decide (x.commandId = r.commandId)) = none := h.fresh
    simp [this]
  · simp [hk, Table.get?]

theorem recorded_of_recordReceipt (h : s.recordReceipt r = some s') (hstate : r.state ≠ .COMMITTED) : Recorded s s' r := by
  obtain ⟨receipts, hins, rfl⟩ := Option.map_eq_some_iff.mp h
  obtain ⟨hnone, hrows⟩ := Table.insert?_eq_some hins
  exact ⟨hnone, hrows, fun n => by simp [hstate, RevisionStore.controlRevision]⟩

variable {c : ControlCommand}

theorem commit_some {loaded : List LoadedStrategy} {r : WireReceipt} (h : commit s loaded c = some (r, s')) :
    r.receipt.commandId = c.commandId ∧ r.receipt.strategyName = c.strategyName ∧ r.receipt.action = c.action ∧
      r.receipt.state = .COMMITTED ∧ Recorded s s' r.receipt := by
  obtain ⟨store, hrec, he⟩ := Option.map_eq_some_iff.mp h
  obtain ⟨rfl, rfl⟩ := Prod.mk.inj he
  obtain ⟨receipts, hins, rfl⟩ := Option.map_eq_some_iff.mp hrec
  obtain ⟨hnone, hrows⟩ := Table.insert?_eq_some hins
  refine ⟨rfl, rfl, rfl, rfl, hnone, hrows, fun n => ?_⟩
  by_cases hn : n = c.strategyName
  · subst hn
    simp [RevisionStore.controlRevision, RevisionStore.bumpState, RevisionStore.bumpControl]
  · simp [RevisionStore.controlRevision, RevisionStore.bumpState, RevisionStore.bumpControl, hn]

/-- A command without a receipt commits. -/
theorem commit_isSome (h : s.receipts.get? c.commandId = none)
    (loaded : List LoadedStrategy) : ∃ r s', commit s loaded c = some (r, s') := by
  unfold commit
  simp only [RevisionStore.recordReceipt]
  obtain ⟨t, ht⟩ := Table.insert?_isSome (t := s.receipts) (r := ⟨c.commandId, c.strategyName, c.action, .COMMITTED,
    ((s.bumpControl c.strategyName).bumpState c.strategyName (statePayload loaded c.strategyName
      ((s.bumpControl c.strategyName).controlRevision c.strategyName))).controlRevision c.strategyName,
    ((s.bumpControl c.strategyName).bumpState c.strategyName (statePayload loaded c.strategyName
      ((s.bumpControl c.strategyName).controlRevision c.strategyName))).stateRevision c.strategyName, none⟩) h
  exact ⟨_, _, by
    rw [show ((s.bumpControl c.strategyName).bumpState c.strategyName _).receipts = s.receipts from rfl, ht]
    rfl⟩

/-! ## Staged rows -/

/-- The block that a command's newest COMMITTED staged row proposed. -/
def proposedOf (configs : List ConfigRevision) (commandId : String) : Option ConfigEntry :=
  (configs.filter fun row => row.commandId = commandId ∧ row.state = .COMMITTED).getLast?.map (·.proposedConfig)

def preparedRows (configs : List ConfigRevision) : List ConfigRevision := configs.filter fun row => row.state = .PREPARED

/-- The block that a strategy's newest COMMITTED update left; before the first one, that of the initial file. -/
def promisedEntry (yaml₀ : List ConfigEntry) (s : RevisionStore) (configs : List ConfigRevision) (name : String) :
    Option ConfigEntry :=
  match s.newestReceipt name isUpdate with
  | some r => proposedOf configs r.commandId
  | none => findEntry yaml₀ name

/-- A row's id is its place. -/
def IdsOk (configs : List ConfigRevision) : Prop :=
  ∀ (i : Nat) (row : ConfigRevision), configs[i]? = some row → row.revisionId = i + 1

structure Pending (configs : List ConfigRevision) (row : ConfigRevision) : Prop where
  state : row.state = .PREPARED
  last : ∃ old, configs = old ++ [row] ∧ preparedRows old = [] ∧ ∀ r ∈ old, r.revisionId ≠ row.revisionId

theorem IdsOk.append {configs : List ConfigRevision} (h : IdsOk configs) {row : ConfigRevision}
    (hrow : row.revisionId = configs.length + 1) : IdsOk (configs ++ [row]) := by
  intro i r hr
  rw [List.getElem?_append] at hr
  split at hr
  · exact h i r hr
  · rename_i hi
    obtain ⟨hz, rfl⟩ : i - configs.length = 0 ∧ row = r := by
      cases hk : i - configs.length with
      | zero => rw [hk] at hr; exact ⟨rfl, Option.some.inj hr⟩
      | succ k => rw [hk] at hr; cases hr
    omega

theorem IdsOk.mark {configs : List ConfigRevision} (h : IdsOk configs) (id : Nat) (state : ConfigState) :
    IdsOk (markRevision id state configs) := by
  intro i r hr
  rw [markRevision, List.getElem?_map] at hr
  obtain ⟨x, hx, rfl⟩ := Option.map_eq_some_iff.mp hr
  have := h i x hx
  split
  · exact this
  · exact this

theorem Pending.prepare {configs : List ConfigRevision} (hids : IdsOk configs) (hnone : preparedRows configs = [])
    {row : ConfigRevision} (hstate : row.state = .PREPARED) (hrow : row.revisionId = configs.length + 1) :
    Pending (configs ++ [row]) row := by
  refine ⟨hstate, configs, rfl, hnone, fun r hr he => ?_⟩
  obtain ⟨i, hi⟩ := List.mem_iff_getElem?.mp hr
  have hlt := (List.getElem?_eq_some_iff.mp hi).1
  have := hids i r hi
  omega

section
variable {configs : List ConfigRevision} {row : ConfigRevision}

theorem Pending.preparedRows (h : Pending configs row) : preparedRows configs = [row] := by
  obtain ⟨old, rfl, hold, -⟩ := h.last
  rw [Strategy.preparedRows, List.filter_append]
  rw [Strategy.preparedRows] at hold
  simp [hold, h.state]

theorem Pending.preparedIds (h : Pending configs row) : preparedIds configs = [row.revisionId] := by
  rw [Strategy.preparedIds, show configs.filter _ = [row] from h.preparedRows]
  rfl

theorem Pending.find (h : Pending configs row) : configs.find? (fun r => r.revisionId = row.revisionId) = some row := by
  obtain ⟨old, rfl, -, hold⟩ := h.last
  have hnone : old.find? (fun r => r.revisionId = row.revisionId) = none :=
    List.find?_eq_none.mpr fun r hr => by simpa using hold r hr
  rw [List.find?_append, hnone]
  simp

/-- The row is resolved. -/
theorem Pending.mark (h : Pending configs row) (state : ConfigState) :
    ∃ old, configs = old ++ [row] ∧ markRevision row.revisionId state configs = old ++ [{ row with state := state }] ∧
      Strategy.preparedRows old = [] := by
  obtain ⟨old, rfl, hprep, hold⟩ := h.last
  refine ⟨old, rfl, ?_, hprep⟩
  have hsame : old.map (fun r => if r.revisionId = row.revisionId then { r with state := state } else r) = old := by
    refine (List.map_congr_left fun r hr => ?_).trans (List.map_id old)
    rw [if_neg (hold r hr)]
    rfl
  simp only [markRevision, List.map_append, hsame, List.map_cons, List.map_nil, if_true]

theorem Pending.preparedRows_mark (h : Pending configs row) (state : ConfigState) (hstate : state ≠ .PREPARED) :
    Strategy.preparedRows (markRevision row.revisionId state configs) = [] := by
  obtain ⟨old, -, hmark, hprep⟩ := h.mark state
  rw [hmark, Strategy.preparedRows, List.filter_append]
  rw [Strategy.preparedRows] at hprep
  simp [hprep, hstate]

theorem proposedOf_append (configs : List ConfigRevision) (row : ConfigRevision) (commandId : String) :
    proposedOf (configs ++ [row]) commandId =
      if row.commandId = commandId ∧ row.state = .COMMITTED then some row.proposedConfig else proposedOf configs commandId := by
  unfold proposedOf
  rw [List.filter_append]
  by_cases h : row.commandId = commandId ∧ row.state = .COMMITTED
  · rw [if_pos h]
    simp [h]
  · rw [if_neg h]
    have : [row].filter (fun row => decide (row.commandId = commandId ∧ row.state = .COMMITTED)) = [] := by
      simpa using h
    rw [this, List.append_nil]

theorem Pending.proposedOf_mark (h : Pending configs row) (state : ConfigState) (commandId : String) :
    proposedOf (markRevision row.revisionId state configs) commandId =
      if row.commandId = commandId ∧ state = .COMMITTED then some row.proposedConfig else proposedOf configs commandId := by
  obtain ⟨old, rfl, hmark, -⟩ := h.mark state
  rw [hmark, proposedOf_append, proposedOf_append]
  simp [h.state]

end

end MmrTrader.Strategy
