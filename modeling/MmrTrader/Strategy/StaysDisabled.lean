import MmrTrader.Lib.GuardedRun
import MmrTrader.Strategy.ControlRuntime

/-!
# A disabled strategy stays disabled

* `ControlPromise` — receipts, revisions, and what a restart finds in the config file and in `strategy_state`.
* `Uncut` — persist threads run in their order, and the process does not die between what a command made durable and its
  receipt.
* `YamlOk`, `SwitchOk`, `ControlInv` — what holds at each step.
* `stays_disabled` — every run whose steps are uncut keeps the promise; `forgotten_disable` — one that is not.
-/

namespace MmrTrader.Strategy

open Lib Journal
open Command (Json)

/-! ## The promise -/

structure ControlPromise (coerce : Json → Json) (yaml₀ : List ConfigEntry) (w : Runtime) : Prop where
  oneReceipt : (w.store.receipts.rows.map StrategyCommandReceipt.commandId).Nodup
  /-- A command with a receipt changes nothing. -/
  retry : ∀ c params o, w.phase = .idle → (w.store.receipts.get? c.commandId).isSome →
    w.run coerce [.call c params, .next o] = w
  /-- Nor does a command that is refused by the revision check. -/
  refused : ∀ c params o o', w.phase = .idle → w.store.receipts.get? c.commandId = none →
    c.expectedControlRevision ≠ w.store.controlRevision c.strategyName →
    w.run coerce [.call c params, .next o, .next o'] = w
  counted : ∀ name, w.store.controlRevision name = (w.store.committed name fun _ => true).length
  /-- After a restart the file holds what the newest COMMITTED update left. -/
  params : w.phase = .recovered → ∀ name,
    (findEntry w.yaml name).bind (·.params) = (promisedEntry yaml₀ w.store w.configs name).bind (·.params)
  /-- After a restart a strategy whose newest COMMITTED enable or disable is a disable is loaded as disabled. -/
  disabled : w.phase = .recovered → ∀ name, w.store.lastSwitch name = some .disable_strategy →
    loadedState (w.enabled name) = .DISABLED

/-- The enable or disable that has set its flag and has no receipt yet. -/
def ControlPhase.switching : ControlPhase → Option ControlCommand
  | .announcing _ c => some c
  | .commit c => if c.action = .update_strategy_params then none else some c
  | _ => none

/-- The command whose receipt comes next. -/
def ControlPhase.committing : ControlPhase → Option ControlCommand
  | .commit c => some c
  | _ => none

/-- A death cuts no command off from what it has made durable. -/
structure NothingCut (w : Runtime) : Prop where
  /-- No update is marked committed without a receipt. -/
  update : ∀ c ∈ w.phase.committing, c.action ≠ .update_strategy_params
  /-- No thread of a COMMITTED command waits for a strategy that was disabled last. -/
  threads : ∀ t ∈ w.threads, w.store.lastSwitch t.name = some .disable_strategy →
    w.store.receipts.get? t.commandId = none
  /-- No enable of such a strategy is persisted without a receipt. -/
  enable : ∀ c ∈ w.phase.switching, Runtime.isEnable c → w.store.lastSwitch c.strategyName = some .disable_strategy →
    ∃ t ∈ w.threads, t.commandId = c.commandId

instance (w : Runtime) : Decidable (NothingCut w) :=
  decidable_of_iff
    ((∀ c ∈ w.phase.committing, c.action ≠ .update_strategy_params) ∧
      (∀ t ∈ w.threads, w.store.lastSwitch t.name = some .disable_strategy →
        w.store.receipts.get? t.commandId = none) ∧
      ∀ c ∈ w.phase.switching, Runtime.isEnable c → w.store.lastSwitch c.strategyName = some .disable_strategy →
        ∃ t ∈ w.threads, t.commandId = c.commandId)
    ⟨fun h => ⟨h.1, h.2.1, h.2.2⟩, fun h => ⟨h.update, h.threads, h.enable⟩⟩

def Uncut (w : Runtime) : ControlAct → Prop
  | .persist i => ∀ t ∈ w.threads[i]?, ∀ t' ∈ w.threads.take i, t'.name ≠ t.name
  | .die => NothingCut w
  | _ => True

instance (w : Runtime) (act : ControlAct) : Decidable (Uncut w act) := by
  unfold Uncut
  split <;> infer_instance

/-! ## The config file -/

def Settled (promised : String → Option ConfigEntry) (yaml : List ConfigEntry) : Prop := ∀ n, findEntry yaml n = promised n

/-- The block of the pending row may be the proposed one; the prior one is what was promised. -/
structure SettledBut (promised : String → Option ConfigEntry) (yaml : List ConfigEntry) (prior : ConfigEntry) : Prop where
  others : ∀ n, n ≠ prior.name → findEntry yaml n = promised n
  there : (findEntry yaml prior.name).isSome
  prior : promised prior.name = some prior

def StagedSwap.row (s : StagedSwap) : ConfigRevision :=
  ⟨s.revisionId, s.command.strategyName, s.command.expectedControlRevision, s.prior, s.proposed, .PREPARED,
    s.command.commandId⟩

/-- A swap under way: its row is pending, and its prior block is the one that was promised. -/
structure SwapOk (promised : String → Option ConfigEntry) (configs : List ConfigRevision) (s : StagedSwap) : Prop where
  pending : Pending configs s.row
  prior : promised s.command.strategyName = some s.prior
  priorName : s.prior.name = s.command.strategyName
  proposedName : s.proposed.name = s.command.strategyName
  update : s.command.action = .update_strategy_params

/-- Before recovery is over. -/
def Interrupted (promised : String → Option ConfigEntry) (configs : List ConfigRevision) (yaml : List ConfigEntry) : Prop :=
  preparedRows configs = [] ∧ Settled promised yaml ∨
    ∃ row, Pending configs row ∧ SettledBut promised yaml row.priorConfig

def YamlOk (promised : String → Option ConfigEntry) (configs : List ConfigRevision) (yaml : List ConfigEntry)
    (staged : Option (List ConfigEntry)) : ControlPhase → Prop
  | .down => Interrupted promised configs yaml
  | .recovering rest failed =>
    Interrupted promised configs yaml ∧ (failed = false ∧ rest = preparedIds configs ∨ failed = true ∧ rest = [])
  | .restoring row rest failed =>
    Pending configs row ∧ SettledBut promised yaml row.priorConfig ∧ rest = [] ∧ failed = false ∧
      staged = some (swapEntry row.priorConfig yaml)
  | .flipping row rest failed => Pending configs row ∧ Settled promised yaml ∧ promised row.priorConfig.name = some row.priorConfig ∧
      rest = [] ∧ failed = false
  | .stage s | .restore s _ | .unstage s _ _ | .markRolledBack s _ _ => SwapOk promised configs s ∧ Settled promised yaml
  | .swap s | .replace s =>
    SwapOk promised configs s ∧ Settled promised yaml ∧ staged = some (swapEntry s.proposed yaml)
  | .markCommitted s =>
    SwapOk promised configs s ∧
      ∀ n, findEntry yaml n = if n = s.command.strategyName then some s.proposed else promised n
  | .commit c =>
    preparedRows configs = [] ∧ ∀ n, findEntry yaml n =
      if c.action = .update_strategy_params ∧ n = c.strategyName then proposedOf configs c.commandId else promised n
  | .prepare c prior proposed =>
    preparedRows configs = [] ∧ Settled promised yaml ∧ promised c.strategyName = some prior ∧
      prior.name = c.strategyName ∧ proposed.name = c.strategyName ∧ c.action = .update_strategy_params
  | .readConfig c _ => preparedRows configs = [] ∧ Settled promised yaml ∧ c.action = .update_strategy_params
  | .switch c | .announcing _ c =>
    preparedRows configs = [] ∧ Settled promised yaml ∧ c.action ≠ .update_strategy_params
  | .record _ state _ => preparedRows configs = [] ∧ Settled promised yaml ∧ state ≠ .COMMITTED
  | _ => preparedRows configs = [] ∧ Settled promised yaml

/-- The command under way, once it is known to have no receipt. -/
def ControlPhase.handling : ControlPhase → Option ControlCommand
  | .checkRevision c _ | .readConfig c _ | .prepare c _ _ | .record c _ _ | .switch c | .announcing _ c | .commit c => some c
  | .stage s | .swap s | .replace s | .markCommitted s | .restore s _ | .unstage s _ _ | .markRolledBack s _ _ =>
    some s.command
  | _ => none

/-- Commands are not handled yet. -/
def ControlPhase.starting : ControlPhase → Bool
  | .down | .recovering _ _ | .restoring _ _ _ | .flipping _ _ _ | .recovered => true
  | _ => false

/-! ## The persisted flags -/

def Runtime.committedThreads (w : Runtime) (name : String) : List PersistThread :=
  w.threads.filter fun t => t.name = name ∧ (w.store.receipts.get? t.commandId).isSome

/-- The flag once they have all run. -/
def Runtime.lastValue (w : Runtime) (name : String) : Option Bool :=
  ((w.committedThreads name).getLast?.map (·.enabled)).or (w.enabled name)

def Runtime.Ran (w : Runtime) (c : ControlCommand) : Prop := ∀ t ∈ w.threads, t.commandId ≠ c.commandId

structure SwitchOk (w : Runtime) : Prop where
  /-- A waiting thread without a receipt is that of the command under way, and is the last. -/
  uncommitted : ∀ t ∈ w.threads, w.store.receipts.get? t.commandId = none → ∃ c old, w.phase.switching = some c ∧
    t = ⟨c.strategyName, Runtime.isEnable c, c.commandId⟩ ∧ w.threads = old ++ [t] ∧
    ∀ t' ∈ old, (w.store.receipts.get? t'.commandId).isSome
  ran : ∀ c, w.phase.switching = some c → w.Ran c →
    w.committedThreads c.strategyName = [] ∧ w.enabled c.strategyName = some (Runtime.isEnable c)
  flag : ∀ name, w.store.lastSwitch name = some .disable_strategy →
    (∃ c, w.phase.switching = some c ∧ c.strategyName = name ∧ w.Ran c) ∨ w.lastValue name = some false
  starting : w.phase.starting → w.threads = []

structure ControlInv (yaml₀ : List ConfigEntry) (w : Runtime) : Prop where
  counted : ∀ name, w.store.controlRevision name = (w.store.committed name fun _ => true).length
  handled : ∀ c, w.phase.handling = some c → w.store.receipts.get? c.commandId = none
  ids : IdsOk w.configs
  yaml : YamlOk (promisedEntry yaml₀ w.store w.configs) w.configs w.yaml w.staged w.phase
  switches : SwitchOk w

/-! ## The promise from the invariant -/

section
variable {coerce : Json → Json} {yaml₀ : List ConfigEntry} {w w' : Runtime}
variable {name : String}

theorem SwitchOk.disabled (h : SwitchOk w) (hphase : w.phase = .recovered)
    (hlast : w.store.lastSwitch name = some .disable_strategy) : w.enabled name = some false := by
  have hnone : w.phase.switching = none := by rw [hphase]; rfl
  have hthreads : w.threads = [] := h.starting (by rw [hphase]; rfl)
  rcases h.flag name hlast with ⟨c, hc, -⟩ | hv
  · rw [hnone] at hc
    cases hc
  · simpa [Runtime.lastValue, Runtime.committedThreads, hthreads] using hv

theorem ControlInv.promise (h : ControlInv yaml₀ w) : ControlPromise coerce yaml₀ w where
  oneReceipt := w.store.receipts.nodup
  retry := fun c params o hidle hsome => by
    obtain ⟨r, hr⟩ := Option.isSome_iff_exists.mp hsome
    obtain ⟨store, configs, yaml, staged, enabled, loaded, announced, threads, phase⟩ := w
    cases hidle
    simp only at hr
    simp [Runtime.run, Runtime.step, Runtime.goOn, Runtime.next, hr]
  refused := fun c params o o' hidle hnone hne => by
    obtain ⟨store, configs, yaml, staged, enabled, loaded, announced, threads, phase⟩ := w
    cases hidle
    simp only at hnone hne
    simp [Runtime.run, Runtime.step, Runtime.goOn, Runtime.next, hnone, hne]
  counted := h.counted
  params := fun hphase name => by
    have hy := h.yaml
    rw [hphase] at hy
    rw [hy.2 name]
  disabled := fun hphase name hlast => by
    rw [h.switches.disabled hphase hlast]
    rfl

/-! ## Steps that leave the flags alone -/

variable {s s' : RevisionStore}

theorem promisedEntry_congr (h : s'.receipts = s.receipts) (configs : List ConfigRevision) :
    promisedEntry yaml₀ s' configs = promisedEntry yaml₀ s configs := by
  funext name
  simp only [promisedEntry, RevisionStore.newestReceipt, RevisionStore.committed, h]

theorem SwitchOk.keep (h : SwitchOk w) (hthreads : w'.threads = w.threads) (henabled : w'.enabled = w.enabled)
    (hreceipts : w'.store.receipts = w.store.receipts) (hswitching : w'.phase.switching = w.phase.switching)
    (hstarting : w'.phase.starting → w.phase.starting) : SwitchOk w' where
  uncommitted := by
    rw [hthreads, hreceipts, hswitching]
    exact h.uncommitted
  ran := by
    intro c hc hran
    have := h.ran c (hswitching ▸ hc) (by simpa only [Runtime.Ran, hthreads] using hran)
    simpa only [Runtime.committedThreads, hthreads, henabled, hreceipts] using this
  flag := by
    intro name hlast
    have hlast : w.store.lastSwitch name = some .disable_strategy := by
      simpa only [RevisionStore.lastSwitch, RevisionStore.newestReceipt, RevisionStore.committed, hreceipts] using hlast
    simpa only [Runtime.lastValue, Runtime.committedThreads, Runtime.Ran, hthreads, henabled, hreceipts, hswitching]
      using h.flag name hlast
  starting := fun hs => by rw [hthreads]; exact h.starting (hstarting hs)

variable {store : RevisionStore} {r : StrategyCommandReceipt}
variable {p : ControlPhase}

theorem SwitchOk.record (h : SwitchOk w)
    (hrec : Recorded w.store store r) (hr : r.state ≠ .COMMITTED ∨ r.action = .update_strategy_params)
    (hnone : w.phase.switching = none) (hp : p.switching = none) (hstarting : p.starting = false)
    (hthreads : w'.threads = w.threads) (henabled : w'.enabled = w.enabled) (hstore : w'.store = store)
    (hphase : w'.phase = p) : SwitchOk w' := by
  have hall : ∀ t ∈ w.threads, (w.store.receipts.get? t.commandId).isSome := by
    intro t ht
    by_contra hcon
    obtain ⟨c, -, hc, -⟩ := h.uncommitted t ht (by simpa using hcon)
    rw [hnone] at hc
    cases hc
  have hall' : ∀ t ∈ w.threads, (store.receipts.get? t.commandId).isSome := by
    intro t ht
    rw [hrec.get?]
    split
    · rfl
    · exact hall t ht
  have hcommitted : ∀ name, w'.committedThreads name = w.committedThreads name := by
    intro name
    unfold Runtime.committedThreads
    rw [hthreads, hstore]
    exact List.filter_congr fun t ht => by simp [hall t ht, hall' t ht]
  have hlast : ∀ name, store.lastSwitch name = w.store.lastSwitch name := by
    intro name
    unfold RevisionStore.lastSwitch
    rw [hrec.newestReceipt, if_neg]
    rintro ⟨-, hst, hact⟩
    rcases hr with hr | hr
    · exact hr hst
    · simp [isSwitch, hr] at hact
  constructor
  · intro t ht hget
    rw [hstore] at hget
    rw [hthreads] at ht
    have := hall' t ht
    rw [hget] at this
    cases this
  · intro c hc
    rw [hphase, hp] at hc
    cases hc
  · intro name hl
    rw [hstore, hlast] at hl
    right
    rcases h.flag name hl with ⟨c, hc, -⟩ | hv
    · rw [hnone] at hc
      cases hc
    · unfold Runtime.lastValue
      rw [hcommitted, henabled]
      exact hv
  · intro hs
    rw [hphase, hstarting] at hs
    cases hs

/-! ## Steps of an enable or a disable -/

variable {c : ControlCommand}

theorem SwitchOk.waiting (h : SwitchOk w) (hc : w.phase.switching = some c)
    (hnone : w.store.receipts.get? c.commandId = none) (hran : ¬ w.Ran c) :
    ∃ old, w.threads = old ++ [⟨c.strategyName, Runtime.isEnable c, c.commandId⟩] ∧
      ∀ t ∈ old, (w.store.receipts.get? t.commandId).isSome := by
  obtain ⟨t, ht, htc⟩ : ∃ t ∈ w.threads, t.commandId = c.commandId := by
    by_contra hcon
    exact hran fun t ht htc => hcon ⟨t, ht, htc⟩
  obtain ⟨c', old, hc', rfl, hthreads, hold⟩ := h.uncommitted t ht (htc ▸ hnone)
  rw [hc] at hc'
  cases hc'
  exact ⟨old, hthreads, hold⟩

theorem SwitchOk.commit (h : SwitchOk w)
    (hrec : Recorded w.store store r) (hid : r.commandId = c.commandId) (hname : r.strategyName = c.strategyName)
    (hstate : r.state = .COMMITTED) (haction : r.action = c.action) (hc : w.phase.switching = some c)
    (hact : c.action ≠ .update_strategy_params) (hthreads : w'.threads = w.threads) (henabled : w'.enabled = w.enabled)
    (hstore : w'.store = store) (hphase : w'.phase = .idle) : SwitchOk w' := by
  have hfresh : w.store.receipts.get? c.commandId = none := hid ▸ hrec.fresh
  have hget : ∀ id, (store.receipts.get? id).isSome ↔ id = c.commandId ∨ (w.store.receipts.get? id).isSome := by
    intro id
    rw [hrec.get?, hid]
    by_cases hk : c.commandId = id
    · simp [hk]
    · have hk' : ¬ id = c.commandId := fun e => hk e.symm
      simp [hk, hk']
  have hlast : ∀ name, store.lastSwitch name = if c.strategyName = name then some c.action else w.store.lastSwitch name := by
    intro name
    unfold RevisionStore.lastSwitch
    rw [hrec.newestReceipt, hname, hstate, haction]
    by_cases hn : c.strategyName = name
    · simp [hn, isSwitch, hact, haction]
    · simp [hn]
  have hother : ∀ name, name ≠ c.strategyName → w'.committedThreads name = w.committedThreads name := by
    intro name hne
    unfold Runtime.committedThreads
    rw [hthreads, hstore]
    refine List.filter_congr fun t ht => ?_
    by_cases htn : t.name = name
    · have htc : t.commandId ≠ c.commandId := by
        intro htc
        obtain ⟨c', old, hc', rfl, -⟩ := h.uncommitted t ht (htc ▸ hfresh)
        rw [hc] at hc'
        cases hc'
        exact hne htn.symm
      have := hget t.commandId
      simp only [htc, false_or] at this
      simp [htn, this]
    · simp [htn]
  -- the flag of the strategy itself ends at the command's value
  have hself : w'.lastValue c.strategyName = some (Runtime.isEnable c) := by
    by_cases hran : w.Ran c
    · obtain ⟨hempty, hval⟩ := h.ran c hc hran
      have : w'.committedThreads c.strategyName = w.committedThreads c.strategyName := by
        unfold Runtime.committedThreads
        rw [hthreads, hstore]
        refine List.filter_congr fun t ht => ?_
        have := hget t.commandId
        simp only [hran t ht, false_or] at this
        simp [this]
      unfold Runtime.lastValue
      rw [this, hempty, henabled, hval]
      rfl
    · obtain ⟨old, hold, -⟩ := h.waiting hc hfresh hran
      unfold Runtime.lastValue Runtime.committedThreads
      rw [hthreads, hstore, hold, List.filter_append]
      have hsome := (hget c.commandId).mpr (.inl rfl)
      simp [hsome]
  constructor
  · intro t ht hnone
    rw [hthreads] at ht
    rw [hstore] at hnone
    have hno : ¬ (store.receipts.get? t.commandId).isSome := by simp [hnone]
    rw [hget t.commandId] at hno
    obtain ⟨c', old, hc', rfl, -⟩ := h.uncommitted t ht (by simpa using fun e => hno (.inr e))
    rw [hc] at hc'
    cases hc'
    exact absurd (.inl rfl) hno
  · intro c' hc'
    rw [hphase] at hc'
    cases hc'
  · intro name hl
    right
    rw [hstore, hlast] at hl
    by_cases hn : c.strategyName = name
    · subst hn
      rw [if_pos rfl] at hl
      rw [hself]
      simp [Runtime.isEnable, Option.some.inj hl]
    · rw [if_neg hn] at hl
      have hsame : w'.lastValue name = w.lastValue name := by
        unfold Runtime.lastValue
        rw [hother name (Ne.symm hn), henabled]
      rw [hsame]
      rcases h.flag name hl with ⟨c', hc', hn', -⟩ | hv
      · rw [hc] at hc'
        cases hc'
        exact absurd hn' hn
      · exact hv
  · intro hs
    rw [hphase] at hs
    cases hs

theorem SwitchOk.switch (h : SwitchOk w) (hc : w.phase = .switch c)
    (hfresh : w.store.receipts.get? c.commandId = none) (rest : List String)
    (hthreads : w'.threads = w.threads ++ [⟨c.strategyName, Runtime.isEnable c, c.commandId⟩])
    (henabled : w'.enabled = w.enabled) (hstore : w'.store = w.store) (hphase : w'.phase = .announcing rest c) : SwitchOk w' := by
  have hnone : w.phase.switching = none := by rw [hc]; rfl
  have hall : ∀ t ∈ w.threads, (w.store.receipts.get? t.commandId).isSome := by
    intro t ht
    by_contra hcon
    obtain ⟨c', -, hc', -⟩ := h.uncommitted t ht (by simpa using hcon)
    rw [hnone] at hc'
    cases hc'
  have hcommitted : ∀ name, w'.committedThreads name = w.committedThreads name := by
    intro name
    unfold Runtime.committedThreads
    rw [hthreads, hstore, List.filter_append]
    simp [hfresh]
  constructor
  · intro t ht hget
    rw [hthreads] at ht
    rw [hstore] at hget
    rcases List.mem_append.mp ht with ht | ht
    · have := hall t ht
      rw [hget] at this
      cases this
    · obtain rfl := List.mem_singleton.mp ht
      exact ⟨c, w.threads, by rw [hphase]; rfl, rfl, hthreads, by rw [hstore]; exact hall⟩
  · intro c' hc' hran
    rw [hphase] at hc'
    cases hc'
    exact absurd rfl (hran ⟨c.strategyName, Runtime.isEnable c, c.commandId⟩ (by rw [hthreads]; simp))
  · intro name hl
    right
    rw [hstore] at hl
    unfold Runtime.lastValue
    rw [hcommitted, henabled]
    rcases h.flag name hl with ⟨c', hc', -⟩ | hv
    · rw [hnone] at hc'
      cases hc'
    · exact hv
  · intro hs
    rw [hphase] at hs
    cases hs

/-! ## A thread runs -/

variable {l : List PersistThread} {i : Nat} {t : PersistThread}

theorem eraseIdx_split (ht : l[i]? = some t) :
    l = l.take i ++ t :: l.drop (i + 1) ∧ l.eraseIdx i = l.take i ++ l.drop (i + 1) := by
  obtain ⟨hi, rfl⟩ := List.getElem?_eq_some_iff.mp ht
  refine ⟨?_, List.eraseIdx_eq_take_drop_succ ..⟩
  rw [← List.drop_eq_getElem_cons hi, List.take_append_drop]

variable {q : PersistThread → Bool}

theorem eraseIdx_filter (ht : l[i]? = some t) (hq : q t = false) : (l.eraseIdx i).filter q = l.filter q := by
  obtain ⟨hl, he⟩ := eraseIdx_split ht
  rw [he]
  conv_rhs => rw [hl]
  rw [List.filter_append, List.filter_append, List.filter_cons_of_neg (by simpa using hq)]

/-- The first waiting thread of its strategy leads the ones that satisfy `q`. -/
theorem eraseIdx_filter_first (ht : l[i]? = some t) (hfirst : ∀ t' ∈ l.take i, q t' = false) (hq : q t = true) :
    l.filter q = t :: (l.eraseIdx i).filter q := by
  obtain ⟨hl, he⟩ := eraseIdx_split ht
  have hnil : (l.take i).filter q = [] := List.filter_eq_nil_iff.mpr fun t' ht' => by simp [hfirst t' ht']
  rw [he]
  conv_lhs => rw [hl]
  rw [List.filter_append, List.filter_append, hnil, List.filter_cons_of_pos hq]
  rfl

theorem SwitchOk.persist (h : SwitchOk w) (ht : w.threads[i]? = some t)
    (hhandled : ∀ c, w.phase.switching = some c → w.store.receipts.get? c.commandId = none)
    (hfirst : ∀ t' ∈ w.threads.take i, t'.name ≠ t.name) (henabled : w'.enabled = Function.update w.enabled t.name (some t.enabled))
    (hthreads : w'.threads = w.threads.eraseIdx i) (hstore : w'.store = w.store) (hphase : w'.phase = w.phase) : SwitchOk w' := by
  have hmem : t ∈ w.threads := List.mem_of_getElem? ht
  have hsub : ∀ t' ∈ w'.threads, t' ∈ w.threads := fun t' ht' => List.mem_of_mem_eraseIdx (hthreads ▸ ht')
  have hother : ∀ name, name ≠ t.name → w'.committedThreads name = w.committedThreads name := by
    intro name hne
    unfold Runtime.committedThreads
    rw [hthreads, hstore]
    exact eraseIdx_filter ht (by simp [Ne.symm hne])
  have hothers : ∀ name, name ≠ t.name → w'.lastValue name = w.lastValue name := by
    intro name hne
    unfold Runtime.lastValue
    rw [hother name hne, henabled, Function.update_of_ne hne]
  by_cases hcom : (w.store.receipts.get? t.commandId).isSome
  · -- the thread of a command with a receipt: the oldest of its strategy
    have hlead : w.committedThreads t.name = t :: w'.committedThreads t.name := by
      unfold Runtime.committedThreads
      rw [hthreads, hstore]
      exact eraseIdx_filter_first ht (fun t' ht' => by simp [hfirst t' ht']) (by simp [hcom])
    have hvalue : w'.lastValue t.name = w.lastValue t.name := by
      unfold Runtime.lastValue
      rw [hlead, henabled, Function.update_self]
      cases hl : (w'.committedThreads t.name).getLast? with
      | none =>
        rw [List.getLast?_eq_none_iff] at hl
        simp [hl]
      | some x => simp [List.getLast?_cons, hl]
    have hran : ∀ c, w.phase.switching = some c → (w'.Ran c ↔ w.Ran c) := by
      intro c hc
      refine ⟨fun hr t' ht' htc => ?_, fun hr t' ht' => hr t' (hsub t' ht')⟩
      by_cases he : t' = t
      · subst he
        rw [htc, hhandled c hc] at hcom
        cases hcom
      · refine hr t' ?_ htc
        obtain ⟨hl, hera⟩ := eraseIdx_split ht
        rw [hthreads, hera]
        rw [hl] at ht'
        simp only [List.mem_append, List.mem_cons] at ht' ⊢
        rcases ht' with h1 | h1 | h1
        · exact .inl h1
        · exact absurd h1 he
        · exact .inr h1
    constructor
    · intro t' ht' hnone
      rw [hstore] at hnone
      obtain ⟨c, old, hc, rfl, hold, hsome⟩ := h.uncommitted t' (hsub t' ht') hnone
      refine ⟨c, old.eraseIdx i, by rw [hphase]; exact hc, rfl, ?_, fun x hx => ?_⟩
      · rw [hthreads, hold]
        refine List.eraseIdx_append_of_lt_length ?_ _
        by_contra hge
        have hlast : w.threads[old.length]? = some ⟨c.strategyName, Runtime.isEnable c, c.commandId⟩ := by
          rw [hold]
          simp
        have hi : i < w.threads.length := (List.getElem?_eq_some_iff.mp ht).1
        rw [hold] at hi
        simp only [List.length_append, List.length_singleton] at hi
        have : i = old.length := by omega
        subst this
        rw [hlast] at ht
        cases ht
        rw [hnone] at hcom
        cases hcom
      · rw [hstore]
        exact hsome x (List.mem_of_mem_eraseIdx hx)
    · intro c hc hr
      rw [hphase] at hc
      obtain ⟨hempty, hval⟩ := h.ran c hc ((hran c hc).mp hr)
      have hne : c.strategyName ≠ t.name := by
        intro he
        rw [he, hlead] at hempty
        cases hempty
      rw [hother _ hne, henabled, Function.update_of_ne hne]
      exact ⟨hempty, hval⟩
    · intro name hl
      rw [hstore] at hl
      rw [hphase]
      rcases h.flag name hl with ⟨c, hc, hn, hr⟩ | hv
      · exact .inl ⟨c, hc, hn, (hran c hc).mpr hr⟩
      · right
        by_cases hn : name = t.name
        · rw [hn, hvalue, ← hn]
          exact hv
        · rw [hothers name hn]
          exact hv
    · intro hs
      rw [hphase] at hs
      rw [hthreads, h.starting hs]
      rfl
  · -- the thread of the command under way: the last of all, and the oldest of its strategy
    have hnone : w.store.receipts.get? t.commandId = none := by simpa using hcom
    obtain ⟨c, old, hc, rfl, hold, hsome⟩ := h.uncommitted t hmem hnone
    have hself : w.committedThreads c.strategyName = [] := by
      refine List.filter_eq_nil_iff.mpr fun t' ht' => ?_
      obtain ⟨hl, -⟩ := eraseIdx_split ht
      by_cases htn : t'.name = c.strategyName
      · rcases List.mem_append.mp (hl ▸ ht') with h1 | h1
        · exact absurd htn (hfirst t' h1)
        · have hi : i = old.length := by
            have hilt : i < w.threads.length := (List.getElem?_eq_some_iff.mp ht).1
            rw [hold] at hilt
            simp only [List.length_append, List.length_singleton] at hilt
            by_contra hne
            have hlt : i < old.length := by omega
            have hin : (⟨c.strategyName, Runtime.isEnable c, c.commandId⟩ : PersistThread) ∈ old := by
              have := ht
              rw [hold, List.getElem?_append_left hlt] at this
              exact List.mem_of_getElem? this
            have := hsome _ hin
            rw [hnone] at this
            cases this
          have hdrop : w.threads.drop (i + 1) = [] := by
            rw [List.drop_eq_nil_iff, hold, hi]
            simp
          rw [hdrop] at h1
          obtain rfl := List.mem_singleton.mp h1
          simp [hnone]
      · simp [htn]
    have hself' : w'.committedThreads c.strategyName = [] := by
      refine List.filter_eq_nil_iff.mpr fun t' ht' hp => ?_
      rw [hstore] at hp
      exact List.filter_eq_nil_iff.mp hself t' (hsub t' ht') hp
    have hran : w'.Ran c := by
      intro t' ht' htc
      obtain ⟨hl, hera⟩ := eraseIdx_split ht
      rw [hthreads] at ht'
      have hin : t' ∈ w.threads := List.mem_of_mem_eraseIdx ht'
      obtain ⟨c', old', hc', he, hold', hsome'⟩ := h.uncommitted t' hin (by rw [htc]; exact hnone)
      rw [hc] at hc'
      cases hc'
      subst he
      have hno : ∀ x ∈ old, x ≠ ⟨c.strategyName, Runtime.isEnable c, c.commandId⟩ := by
        rintro x hx rfl
        have := hsome _ hx
        rw [hnone] at this
        cases this
      have hcount : w.threads.count ⟨c.strategyName, Runtime.isEnable c, c.commandId⟩ = 1 := by
        rw [hold, List.count_append, List.count_eq_zero.mpr fun hx => hno _ hx rfl]
        simp
      rw [hera] at ht'
      have hpos := List.count_pos_iff.mpr ht'
      rw [hl, List.count_append, List.count_cons_self] at hcount
      rw [List.count_append] at hpos
      omega
    constructor
    · intro t' ht' hn
      rw [hstore] at hn
      obtain ⟨c', old', hc', rfl, -⟩ := h.uncommitted t' (hsub t' ht') hn
      rw [hc] at hc'
      cases hc'
      exact absurd rfl (hran _ ht')
    · intro c' hc' hr
      rw [hphase, hc] at hc'
      cases hc'
      exact ⟨hself', by rw [henabled, Function.update_self]⟩
    · intro name hl
      rw [hstore] at hl
      rw [hphase]
      by_cases hn : name = c.strategyName
      · exact .inl ⟨c, hc, hn.symm, hran⟩
      · rcases h.flag name hl with ⟨c', hc', hn', -⟩ | hv
        · rw [hc] at hc'
          cases hc'
          exact absurd hn'.symm hn
        · exact .inr (by rw [hothers name hn]; exact hv)
    · intro hs
      rw [hphase] at hs
      rw [hthreads, h.starting hs]
      rfl

/-- The process dies without cutting a command off. -/
theorem SwitchOk.die (h : SwitchOk w) (hcut : NothingCut w) : SwitchOk w.die where
  uncommitted := fun t ht => (by cases ht)
  ran := fun c hc => (by cases hc)
  flag := fun name hl => by
    right
    have hempty : w.committedThreads name = [] := by
      refine List.filter_eq_nil_iff.mpr fun t ht hp => ?_
      simp only [decide_eq_true_eq] at hp
      have hnone := hcut.threads t ht (by rw [hp.1]; exact hl)
      rw [hnone] at hp
      cases hp.2
    have hval : w.enabled name = some false := by
      rcases h.flag name hl with ⟨c, hc, rfl, hran⟩ | hv
      · have hdis : Runtime.isEnable c = false := by
          by_contra hen
          obtain ⟨t, ht, htc⟩ := hcut.enable c hc (by simpa using hen) hl
          exact hran t ht htc
        rw [(h.ran c hc hran).2, hdis]
      · simpa [Runtime.lastValue, hempty] using hv
    simpa [Runtime.lastValue, Runtime.committedThreads, Runtime.die] using hval
  starting := fun _ => rfl

/-! ## What the promised blocks depend on -/

variable {configs : List ConfigRevision}

theorem promised_mark {row : ConfigRevision} {state : ConfigState}
    (hp : Pending configs row) (hstate : state = .COMMITTED → s.receipts.get? row.commandId = none) :
    promisedEntry yaml₀ s (markRevision row.revisionId state configs) = promisedEntry yaml₀ s configs := by
  funext name
  unfold promisedEntry
  split
  · rename_i r hr
    rw [hp.proposedOf_mark, if_neg]
    rintro ⟨hid, hst⟩
    have := Table.get?_eq_none.mp (hstate hst) r (newestReceipt_mem hr)
    exact this hid.symm
  · rfl

theorem promised_append {row : ConfigRevision}
    (hstate : row.state = .PREPARED) : promisedEntry yaml₀ s (configs ++ [row]) = promisedEntry yaml₀ s configs := by
  funext name
  unfold promisedEntry
  split
  · rw [proposedOf_append, if_neg (by simp [hstate])]
  · rfl

theorem promised_recorded (yaml₀ : List ConfigEntry) (hrec : Recorded s s' r) (configs : List ConfigRevision) (name : String) :
    promisedEntry yaml₀ s' configs name =
      if r.strategyName = name ∧ r.state = .COMMITTED ∧ r.action = .update_strategy_params then
        proposedOf configs r.commandId
      else promisedEntry yaml₀ s configs name := by
  unfold promisedEntry
  rw [hrec.newestReceipt]
  simp only [isUpdate, decide_eq_true_eq]
  split_ifs <;> rfl

theorem Recorded.counted (hrec : Recorded s s' r)
    (h : ∀ name, s.controlRevision name = (s.committed name fun _ => true).length) (name : String) :
    s'.controlRevision name = (s'.committed name fun _ => true).length := by
  rw [hrec.control, hrec.committed, h name, List.length_append]
  by_cases hr : r.state = .COMMITTED ∧ name = r.strategyName
  · rw [if_pos hr, if_pos ⟨hr.2.symm, hr.1, rfl⟩]
    rfl
  · rw [if_neg hr, if_neg fun e => hr ⟨e.2.1, e.1.symm⟩]
    rfl

/-! ## Kinds of step -/

theorem ControlInv.quiet (h : ControlInv yaml₀ w) (hreceipts : w'.store.receipts = w.store.receipts)
    (hcontrol : w'.store.controlRevision = w.store.controlRevision) (hconfigs : w'.configs = w.configs)
    (hthreads : w'.threads = w.threads) (henabled : w'.enabled = w.enabled)
    (hswitching : w'.phase.switching = w.phase.switching) (hstarting : w'.phase.starting → w.phase.starting)
    (hhandled : ∀ c, w'.phase.handling = some c → w.store.receipts.get? c.commandId = none)
    (hyaml : YamlOk (promisedEntry yaml₀ w.store w.configs) w.configs w'.yaml w'.staged w'.phase) :
    ControlInv yaml₀ w' where
  counted := fun name => by
    rw [hcontrol, h.counted name]
    simp only [RevisionStore.committed, hreceipts]
  handled := fun c hc => by rw [hreceipts]; exact hhandled c hc
  ids := by rw [hconfigs]; exact h.ids
  yaml := by rw [hconfigs, promisedEntry_congr hreceipts]; exact hyaml
  switches := h.switches.keep hthreads henabled hreceipts hswitching hstarting

theorem ControlInv.mark (h : ControlInv yaml₀ w) (row : ConfigRevision) (state : ConfigState)
    (hp : Pending w.configs row) (hstate : state = .COMMITTED → w.store.receipts.get? row.commandId = none)
    (hstore : w'.store = w.store) (hconfigs : w'.configs = markRevision row.revisionId state w.configs)
    (hthreads : w'.threads = w.threads) (henabled : w'.enabled = w.enabled)
    (hswitching : w'.phase.switching = w.phase.switching) (hstarting : w'.phase.starting → w.phase.starting)
    (hhandled : ∀ c, w'.phase.handling = some c → w.store.receipts.get? c.commandId = none)
    (hyaml : YamlOk (promisedEntry yaml₀ w.store w.configs) (markRevision row.revisionId state w.configs) w'.yaml w'.staged
      w'.phase) : ControlInv yaml₀ w' where
  counted := fun name => by rw [hstore]; exact h.counted name
  handled := fun c hc => by rw [hstore]; exact hhandled c hc
  ids := by rw [hconfigs]; exact h.ids.mark _ _
  yaml := by rw [hconfigs, hstore, promised_mark hp hstate]; exact hyaml
  switches := h.switches.keep hthreads henabled (by rw [hstore]) hswitching hstarting

/-! ## The steps of a command -/

variable {promised : String → Option ConfigEntry} {yaml : List ConfigEntry} {prior : ConfigEntry}

theorem Settled.swapped (h : Settled promised yaml)
    {e : ConfigEntry} (hname : e.name = name) (hprior : promised name = some prior) (n : String) :
    findEntry (swapEntry e yaml) n = if n = name then some e else promised n := by
  rw [findEntry_swapEntry, hname]
  by_cases hn : n = name
  · subst hn
    rw [if_pos rfl, if_pos rfl, h n, hprior]
    rfl
  · rw [if_neg hn, if_neg hn, h n]

theorem SettledBut.restored (h : SettledBut promised yaml prior) : Settled promised (swapEntry prior yaml) := by
  intro n
  rw [findEntry_swapEntry]
  by_cases hn : n = prior.name
  · obtain ⟨e, he⟩ := Option.isSome_iff_exists.mp h.there
    rw [if_pos hn, hn, he, h.prior]
    rfl
  · rw [if_neg hn, h.others n hn]

theorem Settled.but (h : Settled promised yaml) (hprior : promised prior.name = some prior) : SettledBut promised yaml prior :=
  ⟨fun n _ => h n, by rw [h prior.name, hprior]; rfl, hprior⟩

theorem SwapOk.priorEntry {s : StagedSwap} (h : SwapOk promised configs s) : promised s.prior.name = some s.prior := by
  rw [h.priorName]
  exact h.prior

/-- Wherever a command is, recovery will find its way back. -/
theorem YamlOk.interrupted {staged : Option (List ConfigEntry)}
    (h : YamlOk promised configs yaml staged p) (hcommit : ∀ c, p = .commit c → c.action ≠ .update_strategy_params) :
    Interrupted promised configs yaml := by
  cases p with
  | down => exact h
  | recovering rest failed => exact h.1
  | restoring row rest failed => exact .inr ⟨row, h.1, h.2.1⟩
  | flipping row rest failed => exact .inr ⟨row, h.1, h.2.1.but h.2.2.1⟩
  | stage s => exact .inr ⟨s.row, h.1.pending, h.2.but h.1.priorEntry⟩
  | restore s error => exact .inr ⟨s.row, h.1.pending, h.2.but h.1.priorEntry⟩
  | unstage s error restoreError => exact .inr ⟨s.row, h.1.pending, h.2.but h.1.priorEntry⟩
  | markRolledBack s error restoreError => exact .inr ⟨s.row, h.1.pending, h.2.but h.1.priorEntry⟩
  | swap s => exact .inr ⟨s.row, h.1.pending, h.2.1.but h.1.priorEntry⟩
  | replace s => exact .inr ⟨s.row, h.1.pending, h.2.1.but h.1.priorEntry⟩
  | markCommitted s =>
    refine .inr ⟨s.row, h.1.pending, fun n hn => ?_, ?_, h.1.priorEntry⟩
    · rw [h.2 n, if_neg fun e => hn (e.trans h.1.priorName.symm)]
    · change (findEntry yaml s.prior.name).isSome = true
      rw [h.2 s.prior.name, if_pos h.1.priorName]
      rfl
  | commit c =>
    refine .inl ⟨h.1, fun n => ?_⟩
    rw [h.2 n, if_neg fun e => hcommit c rfl e.1]
  | prepare c prior proposed => exact .inl ⟨h.1, h.2.1⟩
  | readConfig c params => exact .inl ⟨h.1, h.2.1⟩
  | switch c => exact .inl ⟨h.1, h.2.1⟩
  | announcing rest c => exact .inl ⟨h.1, h.2.1⟩
  | recovered => exact .inl h
  | idle => exact .inl h
  | getReceipt c params => exact .inl h
  | checkRevision c params => exact .inl h
  | record c state error => exact .inl ⟨h.1, h.2.1⟩

theorem ControlInv.prepare (h : ControlInv yaml₀ w) {proposed : ConfigEntry} (hphase : w.phase = .prepare c prior proposed) :
    ControlInv yaml₀ ({ w with configs := w.configs ++ [w.prepareRow c prior proposed] }.goOn
      (.stage ⟨c, w.configs.length + 1, prior, proposed⟩)) := by
  have hy := h.yaml
  rw [hphase] at hy
  obtain ⟨hnone, hsettled, hprior, hpn, hqn, hact⟩ := hy
  refine ⟨h.counted, fun c' hc' => ?_, h.ids.append rfl, ?_, h.switches.keep rfl rfl rfl (by rw [hphase]; rfl) nofun⟩
  · cases hc'
    exact h.handled c (by rw [hphase]; rfl)
  · simp only [Runtime.goOn]
    rw [promised_append rfl]
    exact ⟨⟨Pending.prepare h.ids hnone rfl rfl, hprior, hpn, hqn, hact⟩, hsettled⟩

theorem ControlInv.record (h : ControlInv yaml₀ w) {state : ReceiptState} {error : String}
    (hphase : w.phase = .record c state error) (hrec : w.store.recordReceipt (w.recordRow c state error) = some store) :
    ControlInv yaml₀ ({ w with store := store }.goOn .idle) := by
  have hy := h.yaml
  rw [hphase] at hy
  obtain ⟨hnone, hsettled, hstate⟩ := hy
  have hr := recorded_of_recordReceipt hrec hstate
  refine ⟨hr.counted h.counted, fun c' hc' => (by cases hc'), h.ids, ⟨hnone, fun n => ?_⟩,
    h.switches.record hr (.inl hstate) (by rw [hphase]; rfl) rfl rfl rfl rfl rfl rfl⟩
  have := promised_recorded yaml₀ hr w.configs n
  rw [if_neg fun e => hstate e.2.1] at this
  exact (hsettled n).trans this.symm

theorem ControlInv.commit (h : ControlInv yaml₀ w) (hphase : w.phase = .commit c) {r : WireReceipt}
    (hcommit : Strategy.commit w.store w.loaded c = some (r, store)) (announced : String → Option String) :
    ControlInv yaml₀ ({ w with store := store, announced := announced }.goOn .idle) := by
  obtain ⟨hid, hname, haction, hstate, hr⟩ := commit_some hcommit
  have hy := h.yaml
  rw [hphase] at hy
  refine ⟨hr.counted h.counted, fun c' hc' => (by cases hc'), h.ids, ⟨hy.1, fun n => ?_⟩, ?_⟩
  · have := promised_recorded yaml₀ hr w.configs n
    rw [hid, hname, haction, hstate] at this
    refine (hy.2 n).trans (Eq.trans ?_ this.symm)
    by_cases hn : c.action = .update_strategy_params ∧ n = c.strategyName
    · rw [if_pos hn, if_pos ⟨hn.2.symm, rfl, hn.1⟩]
    · rw [if_neg hn, if_neg fun e => hn ⟨e.2.2, e.1.symm⟩]
  · by_cases hact : c.action = .update_strategy_params
    · have hnone : w.phase.switching = none := by
        rw [hphase]
        simp [ControlPhase.switching, hact]
      exact h.switches.record hr (.inr (haction.trans hact)) hnone rfl rfl rfl rfl rfl rfl
    · have hc : w.phase.switching = some c := by
        rw [hphase]
        simp [ControlPhase.switching, hact]
      exact h.switches.commit hr hid hname hstate haction hc hact rfl rfl rfl rfl

/-! ## Every step -/

theorem preparedIds_nil (h : preparedRows configs = []) : preparedIds configs = [] := by
  rw [preparedIds, show configs.filter _ = [] from h]
  rfl

theorem ControlInv.recover (h : ControlInv yaml₀ w) {rest : List Nat} {failed : Bool}
    (hphase : w.phase = .recovering rest failed) : ControlInv yaml₀ (w.recover rest failed) := by
  have hy := h.yaml
  rw [hphase] at hy
  obtain ⟨hint, hcase⟩ := hy
  have hsw : ControlPhase.switching w.phase = none := by rw [hphase]; rfl
  have hst : w.phase.starting := by rw [hphase]; rfl
  rcases hcase with ⟨rfl, hrest⟩ | ⟨rfl, rfl⟩
  · rcases hint with ⟨hnone, hsettled⟩ | ⟨row, hpend, hbut⟩
    · obtain rfl : rest = [] := hrest.trans (preparedIds_nil hnone)
      exact h.quiet rfl rfl rfl rfl rfl hsw.symm (fun _ => hst) (fun c hc => by cases hc) ⟨hnone, hsettled⟩
    · obtain rfl : rest = [row.revisionId] := hrest.trans hpend.preparedIds
      simp only [Runtime.recover, hpend.find]
      exact h.quiet rfl rfl rfl rfl rfl hsw.symm (fun _ => hst) (fun c hc => by cases hc)
        ⟨hpend, hbut, rfl, rfl, rfl⟩
  · exact h.quiet rfl rfl rfl rfl rfl hsw.symm (fun _ => hst) (fun c hc => by cases hc) hint

theorem ControlInv.next (h : ControlInv yaml₀ w) (o : Outcome) : ControlInv yaml₀ (w.next coerce o w.phase) := by
  have hy := h.yaml
  have hh := h.handled
  cases hphase : w.phase with
  | down => exact h
  | idle => exact h
  | recovering rest failed => exact h.recover hphase
  | restoring row rest failed =>
    rw [hphase] at hy
    obtain ⟨hpend, hbut, rfl, rfl, hstaged⟩ := hy
    dsimp only [Runtime.next]
    split
    · exact h.quiet rfl rfl rfl rfl rfl (by rw [hphase]; rfl) (fun _ => by rw [hphase]; rfl) (fun c hc => by cases hc)
        ⟨.inr ⟨row, hpend, hbut⟩, .inr ⟨rfl, rfl⟩⟩
    · refine h.quiet rfl rfl rfl rfl rfl (by rw [hphase]; rfl) (fun _ => by rw [hphase]; rfl) (fun c hc => by cases hc)
        ⟨hpend, ?_, hbut.prior, rfl, rfl⟩
      simp only [Runtime.goOn, Runtime.rename, hstaged, Option.getD_some]
      exact hbut.restored
  | flipping row rest failed =>
    rw [hphase] at hy
    obtain ⟨hpend, hsettled, -, rfl, rfl⟩ := hy
    have hnone := hpend.preparedRows_mark .ROLLED_BACK nofun
    exact h.mark row .ROLLED_BACK hpend nofun rfl rfl rfl rfl (by rw [hphase]; rfl) (fun _ => by rw [hphase]; rfl)
      (fun c hc => by cases hc) ⟨.inl ⟨hnone, hsettled⟩, .inl ⟨rfl, (preparedIds_nil hnone).symm⟩⟩
  | recovered =>
    rw [hphase] at hy
    exact h.quiet rfl rfl rfl rfl rfl (by rw [hphase]; rfl) nofun (fun c hc => by cases hc) hy
  | getReceipt c params =>
    rw [hphase] at hy
    dsimp only [Runtime.next]
    split
    · exact h.quiet rfl rfl rfl rfl rfl (by rw [hphase]; rfl) nofun (fun c hc => by cases hc) hy
    · rename_i hget
      exact h.quiet rfl rfl rfl rfl rfl (by rw [hphase]; rfl) nofun (fun c hc => by cases hc; exact hget) hy
  | checkRevision c params =>
    rw [hphase] at hy
    have hfresh := hh c (by rw [hphase]; rfl)
    dsimp only [Runtime.next]
    split_ifs with hrev hact
    · exact h.quiet rfl rfl rfl rfl rfl (by rw [hphase]; rfl) nofun (fun c hc => by cases hc) hy
    · exact h.quiet rfl rfl rfl rfl rfl (by rw [hphase]; rfl) nofun (fun c hc => by cases hc; exact hfresh)
        ⟨hy.1, hy.2, hact⟩
    · exact h.quiet rfl rfl rfl rfl rfl (by rw [hphase]; rfl) nofun (fun c hc => by cases hc; exact hfresh)
        ⟨hy.1, hy.2, hact⟩
  | readConfig c params =>
    rw [hphase] at hy
    obtain ⟨hnone, hsettled, hact⟩ := hy
    have hfresh := hh c (by rw [hphase]; rfl)
    dsimp only [Runtime.next]
    split
    · exact h.quiet rfl rfl rfl rfl rfl (by rw [hphase]; rfl) nofun (fun c hc => by cases hc) ⟨hnone, hsettled⟩
    · rename_i prior proposed hentries
      obtain ⟨hfind, hpn, hqn⟩ := configEntries_some hentries
      exact h.quiet rfl rfl rfl rfl rfl (by rw [hphase]; rfl) nofun (fun c hc => by cases hc; exact hfresh)
        ⟨hnone, hsettled, (hsettled _).symm.trans hfind, hpn, hqn, hact⟩
  | prepare c prior proposed => exact h.prepare hphase
  | stage s =>
    rw [hphase] at hy
    have hfresh := hh s.command (by rw [hphase]; rfl)
    dsimp only [Runtime.next]
    split
    · exact h.quiet rfl rfl rfl rfl rfl (by rw [hphase]; rfl) nofun (fun c hc => by cases hc; exact hfresh) hy
    · exact h.quiet rfl rfl rfl rfl rfl (by rw [hphase]; rfl) nofun (fun c hc => by cases hc; exact hfresh)
        ⟨hy.1, hy.2, rfl⟩
  | swap s =>
    rw [hphase] at hy
    have hfresh := hh s.command (by rw [hphase]; rfl)
    dsimp only [Runtime.next, Runtime.swapRuntime]
    cases o.reload with
    | error e =>
      exact h.quiet rfl rfl rfl rfl rfl (by rw [hphase]; rfl) nofun (fun c hc => by cases hc; exact hfresh) ⟨hy.1, hy.2.1⟩
    | ok metadata =>
      exact h.quiet rfl rfl rfl rfl rfl (by rw [hphase]; rfl) nofun (fun c hc => by cases hc; exact hfresh) hy
  | replace s =>
    rw [hphase] at hy
    obtain ⟨hswap, hsettled, hstaged⟩ := hy
    have hfresh := hh s.command (by rw [hphase]; rfl)
    dsimp only [Runtime.next]
    split
    · exact h.quiet rfl rfl rfl rfl rfl (by rw [hphase]; rfl) nofun (fun c hc => by cases hc; exact hfresh)
        ⟨hswap, hsettled⟩
    · refine h.quiet rfl rfl rfl rfl rfl (by rw [hphase]; rfl) nofun (fun c hc => by cases hc; exact hfresh)
        ⟨hswap, fun n => ?_⟩
      simp only [Runtime.goOn, Runtime.rename, hstaged, Option.getD_some]
      exact hsettled.swapped hswap.proposedName hswap.prior n
  | markCommitted s =>
    rw [hphase] at hy
    obtain ⟨hswap, hyaml⟩ := hy
    have hfresh := hh s.command (by rw [hphase]; rfl)
    have hp := hswap.pending
    refine h.mark s.row .COMMITTED hp (fun _ => hfresh) rfl rfl rfl rfl ?_ nofun (fun c hc => by cases hc; exact hfresh)
      ⟨hp.preparedRows_mark .COMMITTED nofun, fun n => ?_⟩
    · rw [hphase]
      simp [Runtime.next, Runtime.goOn, ControlPhase.switching, hswap.update]
    · refine (hyaml n).trans ?_
      have hprop := hp.proposedOf_mark .COMMITTED s.command.commandId
      rw [if_pos ⟨rfl, rfl⟩] at hprop
      rw [hprop]
      by_cases hn : n = s.command.strategyName
      · rw [if_pos hn, if_pos ⟨hswap.update, hn⟩]
        rfl
      · rw [if_neg hn, if_neg fun e => hn e.2]
  | restore s error =>
    rw [hphase] at hy
    have hfresh := hh s.command (by rw [hphase]; rfl)
    dsimp only [Runtime.next, Runtime.swapRuntime]
    cases o.reload with
    | error e =>
      exact h.quiet rfl rfl rfl rfl rfl (by rw [hphase]; rfl) nofun (fun c hc => by cases hc; exact hfresh) hy
    | ok metadata =>
      exact h.quiet rfl rfl rfl rfl rfl (by rw [hphase]; rfl) nofun (fun c hc => by cases hc; exact hfresh) hy
  | unstage s error restoreError =>
    rw [hphase] at hy
    have hfresh := hh s.command (by rw [hphase]; rfl)
    exact h.quiet rfl rfl rfl rfl rfl (by rw [hphase]; rfl) nofun (fun c hc => by cases hc; exact hfresh) hy
  | markRolledBack s error restoreError =>
    rw [hphase] at hy
    obtain ⟨hswap, hsettled⟩ := hy
    have hfresh := hh s.command (by rw [hphase]; rfl)
    have hnone := hswap.pending.preparedRows_mark .ROLLED_BACK nofun
    dsimp only [Runtime.next]
    split
    · exact h.mark s.row .ROLLED_BACK hswap.pending nofun rfl rfl rfl rfl (by rw [hphase]; rfl) nofun
        (fun c hc => by cases hc; exact hfresh) ⟨hnone, hsettled, nofun⟩
    · exact h.mark s.row .ROLLED_BACK hswap.pending nofun rfl rfl rfl rfl (by rw [hphase]; rfl) nofun
        (fun c hc => by cases hc; exact hfresh) ⟨hnone, hsettled, nofun⟩
  | record c state error =>
    rw [hphase] at hy
    dsimp only [Runtime.next]
    split
    · rename_i store hrec
      exact h.record hphase hrec
    · exact h.quiet rfl rfl rfl rfl rfl (by rw [hphase]; rfl) nofun (fun c hc => by cases hc) ⟨hy.1, hy.2.1⟩
  | switch c =>
    rw [hphase] at hy
    have hfresh := hh c (by rw [hphase]; rfl)
    dsimp only [Runtime.next, Runtime.switch]
    by_cases hfound : getStrategy w.loaded c.strategyName = none
    · rw [if_pos hfound]
      exact h.quiet rfl rfl rfl rfl rfl (by rw [hphase]; rfl) nofun (fun c hc => by cases hc) ⟨hy.1, hy.2.1⟩
    · rw [if_neg hfound]
      exact ⟨h.counted, fun c' hc' => by cases hc'; exact hfresh, h.ids, hy,
        h.switches.switch hphase hfresh _ rfl rfl rfl rfl⟩
  | announcing rest c =>
    rw [hphase] at hy
    have hfresh := hh c (by rw [hphase]; rfl)
    cases rest with
    | nil =>
      refine h.quiet rfl rfl rfl rfl rfl ?_ nofun (fun c hc => by cases hc; exact hfresh) ⟨hy.1, fun n => ?_⟩
      · rw [hphase]
        simp [Runtime.next, Runtime.goOn, ControlPhase.switching, hy.2.2]
      · rw [if_neg fun e => hy.2.2 e.1]
        exact hy.2.1 n
    | cons name rest =>
      dsimp only [Runtime.next]
      split_ifs with hsame
      · exact h.quiet rfl rfl rfl rfl rfl (by rw [hphase]; rfl) nofun (fun c hc => by cases hc; exact hfresh) hy
      · refine h.quiet rfl (funext fun n => ?_) rfl rfl rfl (by rw [hphase]; rfl) nofun
          (fun c hc => by cases hc; exact hfresh) hy
        by_cases hn : n = name
        · subst hn
          simp [Runtime.goOn, RevisionStore.controlRevision, RevisionStore.bumpState]
        · simp [Runtime.goOn, RevisionStore.controlRevision, RevisionStore.bumpState, hn]
  | commit c =>
    obtain ⟨r, store, hcommit⟩ := commit_isSome (hh c (by rw [hphase]; rfl)) w.loaded
    simp only [Runtime.next, hcommit]
    exact h.commit hphase hcommit _

theorem ControlInv.step (h : ControlInv yaml₀ w) (act : ControlAct) (hcut : Uncut w act) :
    ControlInv yaml₀ (w.step coerce act) := by
  cases act with
  | call c params =>
    dsimp only [Runtime.step]
    split_ifs with hidle
    · have hy := h.yaml
      rw [hidle] at hy
      exact h.quiet rfl rfl rfl rfl rfl (by rw [hidle]; rfl) nofun (fun c hc => by cases hc) hy
    · exact h
  | next o => exact h.next o
  | persist i =>
    dsimp only [Runtime.step, Runtime.persist]
    split
    · exact h
    · rename_i t ht
      refine ⟨h.counted, h.handled, h.ids, h.yaml, h.switches.persist ht (fun c hc => h.handled c ?_) (hcut t ht) rfl rfl rfl rfl⟩
      cases hp : w.phase <;> rw [hp] at hc <;> simp_all [ControlPhase.switching, ControlPhase.handling]
  | die =>
    exact ⟨h.counted, fun c hc => (by cases hc), h.ids, h.yaml.interrupted (fun c hp => hcut.update c (by rw [hp]; rfl)), h.switches.die hcut⟩
  | restart =>
    dsimp only [Runtime.step]
    split_ifs with hdown
    · have hy := h.yaml
      rw [hdown] at hy
      exact h.quiet rfl rfl rfl rfl rfl (by rw [hdown]; rfl) (fun _ => by rw [hdown]; rfl) (fun c hc => by cases hc)
        ⟨hy, .inl ⟨rfl, rfl⟩⟩
    · exact h

theorem ControlInv.start (yaml : List ConfigEntry) : ControlInv yaml (Runtime.start yaml) where
  counted := fun _ => rfl
  handled := fun c hc => by cases hc
  ids := fun i row hr => by cases hr
  yaml := .inl ⟨rfl, fun _ => rfl⟩
  switches := ⟨fun t ht => (by cases ht), fun c hc => (by cases hc), fun name hl => (by cases hl), fun _ => rfl⟩

/-- **A disabled strategy stays disabled.**  In every run whose persist threads run in their order and whose deaths cut
    nothing off, every state keeps the promise. -/
theorem stays_disabled (coerce : Json → Json) (yaml₀ : List ConfigEntry) (acts : List ControlAct)
    (h : Meets (Runtime.step coerce) Uncut (Runtime.start yaml₀) acts) (pre : List ControlAct) (hpre : pre <+: acts) :
    ControlPromise coerce yaml₀ ((Runtime.start yaml₀).run coerce pre) :=
  ((h.of_prefix hpre).invariant (fun _ act hinv hcut => hinv.step act hcut) (ControlInv.start yaml₀)).promise

end

/-! ## Two runs -/

/-- Everything goes well, and the strategy loads. -/
def smooth : Outcome := ⟨none, .ok [], [("momentum", [])]⟩

def nexts (n : Nat) : List ControlAct := List.replicate n (.next smooth)

/-- The service comes up, and a strategy is enabled and its flag persisted. -/
def enabledRun : List ControlAct :=
  .restart :: nexts 2 ++ .call ⟨"c1", "momentum", .enable_strategy, 0⟩ [] :: nexts 6 ++ [.persist 0]

def disableCall : List ControlAct := .call ⟨"c2", "momentum", .disable_strategy, 1⟩ [] :: nexts 6

def sampleYaml : List ConfigEntry := [⟨"momentum", none, []⟩]

/-- The thread of the disable runs before the process dies. -/
theorem stays_disabled_persisted :
    ControlPromise id sampleYaml ((Runtime.start sampleYaml).run id
      (enabledRun ++ disableCall ++ [.persist 0, .die, .restart, .next smooth])) :=
  stays_disabled id sampleYaml (enabledRun ++ disableCall ++ [.persist 0, .die, .restart, .next smooth])
    (by decide +kernel) _ (List.prefix_refl _)

/-- The process dies after the receipt of a disable and before its thread runs: the restart loads the strategy as
    enabled. -/
theorem forgotten_disable :
    ¬ ∀ (coerce : Json → Json) (yaml₀ : List ConfigEntry) (acts : List ControlAct),
      ControlPromise coerce yaml₀ ((Runtime.start yaml₀).run coerce acts) := by
  intro hall
  have h := (hall id sampleYaml (enabledRun ++ disableCall ++ [.die, .restart, .next smooth])).disabled
    (by decide +kernel) "momentum" (by decide +kernel)
  revert h
  decide +kernel

end MmrTrader.Strategy
