import MmrTrader.Lib.GuardedRun
import MmrTrader.Strategy.OutboxLaws

/-!
# The newest strategy state

* `Promise` — a state revision is journaled at most once and in order, no row is acknowledged before, and a strategy
  whose rows are all acknowledged shows its newest one.
* `InOrder` — a reply is delivered once every earlier revision of its strategy is journaled, and a drain goes past a row
  whose call failed only when that row is journaled or no later row of its strategy is left.
* `newest_state` — every run whose steps are in order keeps the promise.
* `older_overwrites` — an enable whose own announcement is drained after its reply.
-/

namespace MmrTrader.Strategy

open Lib Journal
open Command (Json)

/-! ## The promise -/

structure Promise (w : World) : Prop where
  once : (w.db.tables.journal.map (·.eventId)).Nodup
  ordered : w.db.tables.journal.Pairwise fun a b => ∀ name n n', a.eventId = stateEventId name n →
    b.eventId = stateEventId name n' → n < n'
  acknowledged : ∀ row ∈ w.store.outbox, row.acknowledged = true → Journaled w.db row.strategyName row.stateRevision
  newest : ∀ row ∈ w.store.outbox,
    (∀ r ∈ w.store.outbox, r.strategyName = row.strategyName → r.acknowledged = true ∧ r.stateRevision ≤ row.stateRevision) →
    ∃ state control, Observes row.payload state control ∧ Shows w.db row.strategyName state control

/-! ## The condition -/

/-- The row whose call failed is journaled, or no later row of its strategy is left. -/
def NotOvertaken (w : World) (i : Nat) : Prop :=
  match w.threads i with
  | some (.calling _ row rest) =>
    Journaled w.db row.strategyName row.stateRevision ∨ ∀ r ∈ rest, r.strategyName ≠ row.strategyName
  | _ => True

instance (w : World) (i : Nat) : Decidable (NotOvertaken w i) := by
  unfold NotOvertaken
  split <;> infer_instance

/-- The rows of the receipt's strategy before its revision are journaled. -/
def EarlierJournaled (w : World) (r : StrategyCommandReceipt) : Prop :=
  ∀ row ∈ w.store.outbox, row.strategyName = r.strategyName → row.stateRevision < r.stateRevision →
    Journaled w.db row.strategyName row.stateRevision

instance (w : World) (r : StrategyCommandReceipt) : Decidable (EarlierJournaled w r) :=
  inferInstanceAs (Decidable (∀ row ∈ w.store.outbox, row.strategyName = r.strategyName → row.stateRevision < r.stateRevision →
    Journaled w.db row.strategyName row.stateRevision))

/-- **The condition of a step.** -/
def InOrder (w : World) : Act → Prop
  | .reply r _ _ _ => w.waitingFor r ≠ none → r.receipt.state = .COMMITTED → EarlierJournaled w r.receipt
  | .answer i false => NotOvertaken w i
  | .fail i => NotOvertaken w i
  | _ => True

instance (w : World) (a : Act) : Decidable (InOrder w a) := by
  unfold InOrder
  split <;> infer_instance

/-! ## What the trader has journaled -/

def Below (db : TraderDb) (name : String) (n : Nat) : Prop := ∀ m, 1 ≤ m → m < n → Journaled db name m

structure JournalOk (s : RevisionStore) (db : TraderDb) : Prop where
  known : ∀ r ∈ db.tables.journal, ∃ name n p, r.eventId = stateEventId name n ∧ Has s name n p
  once : (db.tables.journal.map (·.eventId)).Nodup
  ordered : db.tables.journal.Pairwise fun a b => ∀ name n n', a.eventId = stateEventId name n →
    b.eventId = stateEventId name n' → n < n'
  closed : ∀ name n, Journaled db name n → Below db name n
  acknowledged : ∀ row ∈ s.outbox, row.acknowledged = true → Journaled db row.strategyName row.stateRevision
  latest : ∀ name n p state control, Journaled db name n → ¬ Journaled db name (n + 1) → Has s name n p →
    Observes p state control → Shows db name state control

variable {s s' : RevisionStore} {db db' : TraderDb} {name : String} {n m : Nat} {p : Payload Json}

theorem JournalOk.has (h : JournalOk s db) (hj : Journaled db name n) : ∃ p, Has s name n p := by
  obtain ⟨r, hr, hid⟩ := hj
  obtain ⟨name', n', p, hid', hp⟩ := h.known r hr
  obtain ⟨rfl, rfl⟩ := stateEventId_inj (hid.symm.trans hid')
  exact ⟨p, hp⟩

theorem JournalOk.sameTables (h : JournalOk s db) (ht : db'.tables = db.tables) : JournalOk s db' := by
  have hj : ∀ name n, Journaled db' name n ↔ Journaled db name n := fun name n => by unfold Journaled; rw [ht]
  have hshow : ∀ name state control, Shows db' name state control ↔ Shows db name state control :=
    fun name state control => by unfold Shows; rw [ht]
  refine ⟨ht ▸ h.known, ht ▸ h.once, ht ▸ h.ordered, fun name n hn m h1 hm => ?_, fun row hrow hack => ?_,
    fun name n p state control hn hnext hp hobs => ?_⟩
  · exact (hj name m).mpr (h.closed name n ((hj name n).mp hn) m h1 hm)
  · exact (hj _ _).mpr (h.acknowledged row hrow hack)
  · exact (hshow _ _ _).mpr (h.latest name n p state control ((hj _ _).mp hn) (fun hx => hnext ((hj _ _).mpr hx)) hp hobs)

/-- The rows stay but for their marks. -/
theorem JournalOk.sameRows (h : JournalOk s db) (hhas : ∀ name n p, Has s' name n p ↔ Has s name n p)
    (hack : ∀ row ∈ s'.outbox, row.acknowledged = true → Journaled db row.strategyName row.stateRevision) : JournalOk s' db := by
  refine ⟨fun r hr => ?_, h.once, h.ordered, h.closed, hack, fun name n p state control hn hnext hp hobs =>
    h.latest name n p state control hn hnext ((hhas _ _ _).mp hp) hobs⟩
  obtain ⟨name, n, p, hid, hp⟩ := h.known r hr
  exact ⟨name, n, p, hid, (hhas _ _ _).mpr hp⟩

theorem JournalOk.bumpState (h : JournalOk s db) (hs : StoreOk s) (other : String) (payload : Payload Json) :
    JournalOk (s.bumpState other payload) db := by
  refine ⟨fun r hr => ?_, h.once, h.ordered, h.closed, fun row hrow hack => ?_, fun name n p state control hn hnext hp hobs => ?_⟩
  · obtain ⟨name, n, p, hid, hp⟩ := h.known r hr
    exact ⟨name, n, p, hid, hp.bumpState other payload⟩
  · rcases List.mem_append.mp hrow with hrow | hrow
    · exact h.acknowledged row hrow hack
    · rw [List.mem_singleton.mp hrow] at hack
      cases hack
  · -- a journaled revision is one of the rows that were there
    obtain ⟨q, hq⟩ := h.has hn
    obtain ⟨row, hrow, hname, hrev, hpay⟩ := hp
    rcases List.mem_append.mp hrow with hrow | hrow
    · exact h.latest name n p state control hn hnext ⟨row, hrow, hname, hrev, hpay⟩ hobs
    · rw [List.mem_singleton.mp hrow] at hname hrev
      have hbound := (hs.has_bounds hq).2
      have hnew : s.stateRevision other + 1 = n := hrev
      have hother : other = name := hname
      subst hother
      omega

variable {a : Acknowledgement}

theorem journaled_append {row : JournalRow Json}
    (hid : row.eventId = stateEventId a.strategyName a.stateRevision) (hj : db'.tables.journal = db.tables.journal ++ [row]) :
    Journaled db' name n ↔ Journaled db name n ∨ (a.strategyName = name ∧ a.stateRevision = n) := by
  unfold Journaled
  rw [hj]
  constructor
  · rintro ⟨r, hr, hrid⟩
    rcases List.mem_append.mp hr with hr | hr
    · exact Or.inl ⟨r, hr, hrid⟩
    · rw [List.mem_singleton.mp hr, hid] at hrid
      exact Or.inr (stateEventId_inj hrid)
  · rintro (⟨r, hr, hrid⟩ | ⟨rfl, rfl⟩)
    · exact ⟨r, List.mem_append_left _ hr, hrid⟩
    · exact ⟨row, List.mem_append_right _ (List.mem_singleton_self _), hid⟩

variable {now receivedTs : Int} {state control : Json}

/-- **A revision is journaled after all earlier ones.** -/
theorem JournalOk.write (h : JournalOk s db) (hs : StoreOk s) {row : JournalRow Json}
    (hid : row.eventId = stateEventId a.strategyName a.stateRevision)
    (hout : ¬ Journaled db a.strategyName a.stateRevision) (hj : db'.tables.journal = db.tables.journal ++ [row])
    (hrows : db'.tables.materialized = upsertMaterialized db.tables.materialized (a.mutation now) row.entityRevision receivedTs)
    (hbelow : Below db a.strategyName a.stateRevision) (hp : Has s a.strategyName a.stateRevision p)
    (hobs : Observes p state control) (hcarried : Observes a.payload state control) : JournalOk s db' := by
  have hnow : ∀ {name n}, Journaled db' name n ↔ Journaled db name n ∨ (a.strategyName = name ∧ a.stateRevision = n) :=
    journaled_append hid hj
  have hless : ∀ n, Journaled db a.strategyName n → n < a.stateRevision := by
    intro n hn
    by_contra hge
    rcases Nat.lt_or_eq_of_le (Nat.le_of_not_lt hge) with hlt | heq
    · exact hout (h.closed _ _ hn _ (hs.has_bounds hp).1 hlt)
    · exact hout (heq ▸ hn)
  refine ⟨?_, ?_, ?_, ?_, ?_, ?_⟩
  · intro r hr
    rw [hj] at hr
    rcases List.mem_append.mp hr with hr | hr
    · exact h.known r hr
    · exact ⟨_, _, p, List.mem_singleton.mp hr ▸ hid, hp⟩
  · rw [hj, List.map_append, List.map_singleton]
    refine List.nodup_append.mpr ⟨h.once, List.nodup_singleton _, ?_⟩
    rintro x hx y hy rfl
    obtain ⟨r, hr, hrid⟩ := List.mem_map.mp hx
    exact hout ⟨r, hr, (hrid.trans (List.mem_singleton.mp hy)).trans hid⟩
  · rw [hj]
    refine List.pairwise_append.mpr ⟨h.ordered, List.pairwise_singleton _ _, fun b hb c hc name n n' hbid hcid => ?_⟩
    rw [List.mem_singleton.mp hc, hid] at hcid
    obtain ⟨rfl, rfl⟩ := stateEventId_inj hcid
    exact hless n ⟨b, hb, hbid⟩
  · intro name n hn m h1 hm
    rcases hnow.mp hn with hn | ⟨rfl, rfl⟩
    · exact hnow.mpr (Or.inl (h.closed name n hn m h1 hm))
    · exact hnow.mpr (Or.inl (hbelow m h1 hm))
  · exact fun r hr hack => hnow.mpr (Or.inl (h.acknowledged r hr hack))
  · intro name n q state' control' hn hnext hq hqobs
    by_cases hname : a.strategyName = name
    · subst hname
      -- the revision just journaled is the highest
      have hn' : n = a.stateRevision := by
        rcases hnow.mp hn with hn | ⟨-, hn⟩
        · have hlt := hless n hn
          by_contra hne
          rcases Nat.lt_or_eq_of_le hlt with hlt | heq
          · exact hnext (hnow.mpr (Or.inl (hbelow (n + 1) (Nat.le_add_left _ _) hlt)))
          · exact hnext (hnow.mpr (Or.inr ⟨rfl, heq.symm⟩))
        · exact hn.symm
      subst hn'
      obtain rfl := hs.has_unique hp hq
      obtain ⟨rfl, rfl⟩ := hobs.unique hqobs
      unfold Shows
      rw [hrows]
      exact shows_upsert hcarried
    · have hold : ∀ k, Journaled db' name k → Journaled db name k := by
        intro k hk
        rcases hnow.mp hk with hk | ⟨heq, -⟩
        · exact hk
        · exact absurd heq hname
      have hshow := h.latest name n q state' control' (hold n hn) (fun hx => hnext (hnow.mpr (Or.inl hx))) hq hqobs
      unfold Shows at hshow ⊢
      rw [hrows, get?_upsert_other hname]
      exact hshow

variable {row : OutboxRow}

theorem JournalOk.shows (h : JournalOk s db) (hs : StoreOk s) (hrow : row ∈ s.outbox)
    (hj : Journaled db row.strategyName row.stateRevision)
    (hhigh : ∀ r ∈ s.outbox, r.strategyName = row.strategyName → r.stateRevision ≤ row.stateRevision) :
    ∃ state control, Observes row.payload state control ∧ Shows db row.strategyName state control := by
  obtain ⟨state, control, -, hobs⟩ := hs.carries row hrow
  refine ⟨_, _, hobs, h.latest _ _ row.payload _ _ hj (fun hnext => ?_) ⟨row, hrow, rfl, rfl, rfl⟩ hobs⟩
  obtain ⟨q, r, hr, hname, hrev, -⟩ := h.has hnext
  have := hhigh r hr hname
  omega

/-! ## Threads and messages -/

def Stored (s : RevisionStore) (row : OutboxRow) : Prop :=
  ∃ r ∈ s.outbox, r.ackId = row.ackId ∧ r.strategyName = row.strategyName ∧ r.stateRevision = row.stateRevision ∧
    r.payload = row.payload

/-- The earlier revisions of a row are journaled, or come before it. -/
def Ready (db : TraderDb) (rest : List OutboxRow) : Prop :=
  ∀ pre row suf, rest = pre ++ row :: suf → ∀ m, 1 ≤ m → m < row.stateRevision →
    Journaled db row.strategyName m ∨ ∃ r ∈ pre, r.strategyName = row.strategyName ∧ r.stateRevision = m

def RestOk (s : RevisionStore) (db : TraderDb) (rest : List OutboxRow) : Prop := (∀ row ∈ rest, Stored s row) ∧ Ready db rest

def ReplyOk (s : RevisionStore) (r : WireReceipt) : Prop :=
  r.receipt.state = .COMMITTED → ∃ p state, Has s r.receipt.strategyName r.receipt.stateRevision p ∧
    Carries p state r.receipt.controlRevision ∧ r.observableState = some state

def PhaseOk (s : RevisionStore) (db : TraderDb) (requests : List OutboxRow) : ServicePhase → Prop
  | .readState _ state _ => state ≠ .COMMITTED
  | .recordReceipt r => r.state ≠ .COMMITTED
  | .announce _ _ payload _ _ => ∃ state control, Carries payload state control
  | .remember r => ReplyOk s r
  | .draining rest => RestOk s db rest
  | .calling call row rest => requests[call]? = some row ∧ RestOk s db (row :: rest)
  | .marking row rest => Stored s row ∧ Journaled db row.strategyName row.stateRevision ∧ RestOk s db rest
  | _ => True

structure Inv (w : World) : Prop where
  store : StoreOk w.store
  journal : JournalOk w.store w.db
  threads : ∀ i p, w.threads i = some p → PhaseOk w.store w.db w.ackRequests p
  replies : ∀ r ∈ w.replies, ReplyOk w.store r
  requests : ∀ row ∈ w.ackRequests, Stored w.store row ∧ Below w.db row.strategyName row.stateRevision
  answers : ∀ call, (call, true) ∈ w.ackReplies → ∃ row, w.ackRequests[call]? = some row ∧
    Journaled w.db row.strategyName row.stateRevision

theorem Stored.has (h : Stored s row) : Has s row.strategyName row.stateRevision row.payload := by
  obtain ⟨r, hr, -, hname, hrev, hp⟩ := h
  exact ⟨r, hr, hname, hrev, hp⟩

/-! ## Later states -/

/-- What a step keeps for the threads and messages: rows, events and calls only come. -/
structure Later (w w' : World) : Prop where
  has : ∀ name n p, Has w.store name n p → Has w'.store name n p
  stored : ∀ row, Stored w.store row → Stored w'.store row
  journaled : ∀ name n, Journaled w.db name n → Journaled w'.db name n
  requests : w.ackRequests <+: w'.ackRequests

variable {w w' : World}
variable {rest : List OutboxRow}

theorem Ready.mono (h : Ready db rest) (hj : ∀ name n, Journaled db name n → Journaled db' name n) :
    Ready db' rest := fun pre row suf heq m h1 hm => (h pre row suf heq m h1 hm).imp (hj _ _) id

theorem RestOk.mono (h : RestOk w.store w.db rest) (hl : Later w w') : RestOk w'.store w'.db rest :=
  ⟨fun row hrow => hl.stored row (h.1 row hrow), h.2.mono hl.journaled⟩

variable {r : WireReceipt}

theorem ReplyOk.mono (h : ReplyOk w.store r) (hl : Later w w') : ReplyOk w'.store r := by
  intro hc
  obtain ⟨p, state, hp, hrest⟩ := h hc
  exact ⟨p, state, hl.has _ _ _ hp, hrest⟩

theorem getElem?_prefix_some {α : Type} {l l' : List α} {k : Nat} {a : α} (h : l <+: l') (hk : l[k]? = some a) : l'[k]? = some a := by
  obtain ⟨rest, rfl⟩ := h
  obtain ⟨hlt, rfl⟩ := List.getElem?_eq_some_iff.mp hk
  rw [List.getElem?_append_left hlt]
  exact List.getElem?_eq_getElem hlt

theorem PhaseOk.mono {ph : ServicePhase} (h : PhaseOk w.store w.db w.ackRequests ph) (hl : Later w w') :
    PhaseOk w'.store w'.db w'.ackRequests ph := by
  cases ph with
  | remember r => exact ReplyOk.mono h hl
  | draining rest => exact RestOk.mono h hl
  | calling call row rest => exact ⟨getElem?_prefix_some hl.requests h.1, h.2.mono hl⟩
  | marking row rest => exact ⟨hl.stored row h.1, hl.journaled _ _ h.2.1, h.2.2.mono hl⟩
  | _ => exact h

theorem Inv.later (h : Inv w) (hl : Later w w') (hs : StoreOk w'.store) (hj : JournalOk w'.store w'.db)
    (hthreads : w'.threads = w.threads) (hreplies : w'.replies = w.replies) (hrequests : w'.ackRequests = w.ackRequests)
    (hanswers : w'.ackReplies = w.ackReplies) : Inv w' := by
  refine ⟨hs, hj, fun i p hp => ?_, fun r hr => ?_, fun row hrow => ?_, fun call hcall => ?_⟩
  · exact (h.threads i p (hthreads ▸ hp)).mono hl
  · exact (h.replies r (hreplies ▸ hr)).mono hl
  · obtain ⟨hstored, hbelow⟩ := h.requests row (hrequests ▸ hrow)
    exact ⟨hl.stored row hstored, fun m h1 hm => hl.journaled _ _ (hbelow m h1 hm)⟩
  · obtain ⟨row, hrow, hjr⟩ := h.answers call (hanswers ▸ hcall)
    exact ⟨row, hrequests ▸ hrow, hl.journaled _ _ hjr⟩

theorem Inv.update (h : Inv w) (i : Nat) {q : Option ServicePhase}
    (hq : ∀ p, q = some p → PhaseOk w.store w.db w.ackRequests p) :
    Inv { w with threads := Function.update w.threads i q } := by
  refine ⟨h.store, h.journal, fun j p hp => ?_, h.replies, h.requests, h.answers⟩
  by_cases hj : j = i
  · subst hj
    exact hq p ((Function.update_self (f := w.threads) j q).symm.trans hp)
  · exact h.threads j p ((Function.update_of_ne hj _ _).symm.trans hp)

theorem Inv.goOn (h : Inv w) (i : Nat) {p : ServicePhase} (hp : PhaseOk w.store w.db w.ackRequests p) : Inv (w.goOn i p) :=
  h.update i fun p' hp' => by
    cases hp'
    exact hp

theorem Inv.finish (h : Inv w) (i : Nat) : Inv (w.finish i) := h.update i fun p hp => by cases hp

theorem Inv.announced' (h : Inv w) (i : Nat) (next : Option ControlCommand) : Inv (w.announced' i next) := by
  cases next with
  | none => exact h.finish i
  | some c => exact h.goOn i trivial

theorem Inv.send (h : Inv w) (i : Nat) (hr : ReplyOk w.store r) : Inv (w.send i r) := by
  have hsent : Inv { w with replies := w.replies ++ [r] } := by
    refine ⟨h.store, h.journal, h.threads, fun a ha => ?_, h.requests, h.answers⟩
    rcases List.mem_append.mp ha with ha | ha
    · exact h.replies a ha
    · rwa [List.mem_singleton.mp ha]
  exact hsent.finish i

/-! ## Writes -/

theorem Stored.bumpState (h : Stored s row) (other : String) (payload : Payload Json) :
    Stored (s.bumpState other payload) row := by
  obtain ⟨r, hr, hrest⟩ := h
  exact ⟨r, List.mem_append_left _ hr, hrest⟩

theorem Stored.markAcknowledged (h : Stored s row) (ackId : Nat) : Stored (s.markAcknowledged ackId) row := by
  obtain ⟨r, hr, hrest⟩ := h
  refine ⟨_, List.mem_map_of_mem hr, ?_⟩
  split <;> exact hrest

theorem Inv.bumpState (h : Inv w) (name : String) {payload : Payload Json} {state : String} {control : Nat}
    (hc : Carries payload state control) : Inv { w with store := w.store.bumpState name payload } :=
  h.later ⟨fun _ _ _ hp => hp.bumpState name payload, fun _ hr => hr.bumpState name payload, fun _ _ hj => hj,
    List.prefix_refl _⟩ (h.store.bumpState name hc) (h.journal.bumpState h.store name payload) rfl rfl rfl rfl

theorem Inv.bumpControl (h : Inv w) (name : String) : Inv { w with store := w.store.bumpControl name } :=
  h.later ⟨fun _ _ _ hp => hp, fun _ hr => hr, fun _ _ hj => hj, List.prefix_refl _⟩ (h.store.bumpControl name)
    (h.journal.sameRows (fun _ _ _ => Iff.rfl) h.journal.acknowledged) rfl rfl rfl rfl

theorem Inv.recordReceipt (h : Inv w) {r : StrategyCommandReceipt} {store : RevisionStore} (state : String)
    (hr : ReceiptOk w.store r state) (hs : w.store.recordReceipt r = some store) : Inv { w with store := store } := by
  have hrows : store.outbox = w.store.outbox := by
    unfold RevisionStore.recordReceipt at hs
    obtain ⟨receipts, -, rfl⟩ := Option.map_eq_some_iff.mp hs
    rfl
  have hhas : ∀ name n p, Has store name n p ↔ Has w.store name n p := fun name n p => by unfold Has; rw [hrows]
  have hstored : ∀ row, Stored w.store row → Stored store row := fun row hrow => by
    unfold Stored at hrow ⊢
    rwa [hrows]
  exact h.later ⟨fun _ _ _ hp => (hhas _ _ _).mpr hp, hstored, fun _ _ hj => hj, List.prefix_refl _⟩ (h.store.recordReceipt hr hs)
    (h.journal.sameRows hhas fun row hrow => h.journal.acknowledged row (hrows ▸ hrow)) rfl rfl rfl rfl

theorem Inv.markAcknowledged (h : Inv w) (hrow : Stored w.store row) (hj : Journaled w.db row.strategyName row.stateRevision) :
    Inv { w with store := w.store.markAcknowledged row.ackId } := by
  refine h.later ⟨fun _ _ _ hp => has_markAcknowledged.mpr hp, fun _ hr => hr.markAcknowledged _, fun _ _ hj => hj,
    List.prefix_refl _⟩ (h.store.markAcknowledged row.ackId) (h.journal.sameRows (fun _ _ _ => has_markAcknowledged) ?_)
    rfl rfl rfl rfl
  intro a ha hack
  obtain ⟨r, hr, rfl⟩ := List.mem_map.mp ha
  by_cases hid : r.ackId = row.ackId
  · -- the row of that id is the one that was sent
    obtain ⟨t, ht, htid, htname, htrev, -⟩ := hrow
    have hnodup : (w.store.outbox.map (·.ackId)).Nodup := by
      rw [h.store.ackIds]
      exact List.nodup_range'
    obtain rfl := List.inj_on_of_nodup_map hnodup hr ht (hid.trans htid.symm)
    rw [if_pos hid]
    change Journaled w.db r.strategyName r.stateRevision
    rwa [htname, htrev]
  · rw [if_neg hid] at hack ⊢
    exact h.journal.acknowledged r hr hack

theorem Inv.journal_same (h : Inv w) (ht : db'.tables = w.db.tables) : Inv { w with db := db' } := by
  have hj : ∀ name n, Journaled w.db name n → Journaled db' name n := fun name n hn => by unfold Journaled at hn ⊢; rwa [ht]
  exact h.later ⟨fun _ _ _ hp => hp, fun _ hr => hr, hj, List.prefix_refl _⟩ h.store (h.journal.sameTables ht) rfl rfl rfl rfl

theorem Inv.acknowledge (h : Inv w) (now receivedTs : Int) (commits : Bool)
    (hp : Has w.store a.strategyName a.stateRevision p) (hobs : Observes p state control)
    (hcarried : Observes a.payload state control) (hbelow : Below w.db a.strategyName a.stateRevision) :
    Inv { w with db := (acknowledgeStrategyState w.db a now receivedTs commits).2 } ∧
      ((acknowledgeStrategyState w.db a now receivedTs commits).1.isSome = true →
        Journaled (acknowledgeStrategyState w.db a now receivedTs commits).2 a.strategyName a.stateRevision) := by
  have hcase := acknowledge_cases w.db a now receivedTs commits
  generalize acknowledgeStrategyState w.db a now receivedTs commits = result at hcase
  cases hcase with
  | same result db' htables hin =>
    refine ⟨h.journal_same htables, fun hok => ?_⟩
    have hj := hin hok
    unfold Journaled at hj ⊢
    rwa [htables]
  | wrote result db' row hid hm hout hj hrows =>
    have hnow : ∀ {name n}, Journaled db' name n ↔ Journaled w.db name n ∨ (a.strategyName = name ∧ a.stateRevision = n) :=
      journaled_append hid hj
    refine ⟨h.later ⟨fun _ _ _ hp => hp, fun _ hr => hr, fun _ _ hj => hnow.mpr (Or.inl hj), List.prefix_refl _⟩ h.store
      (h.journal.write h.store hid hout hj hrows hbelow hp hobs hcarried) rfl rfl rfl rfl, fun _ => hnow.mpr (Or.inr ⟨rfl, rfl⟩)⟩

/-! ## What the service sends -/

theorem stateName_ne (loaded : List LoadedStrategy) (name : String) : stateName loaded name ≠ "" := by
  unfold stateName
  split
  · rename_i strategy _
    cases strategy.state <;> decide
  · decide

theorem statePayload_carries (loaded : List LoadedStrategy) (name : String) (control : Nat) :
    Carries (statePayload loaded name control) (stateName loaded name) control :=
  ⟨stateName_ne loaded name, statePayload_observes loaded name control⟩

theorem Carries.observed {p : Payload Json} {state : String} {control : Nat} (h : Carries p state control) :
    observed p = some state := by
  unfold Strategy.observed
  rw [h.2.1]
  simp only [textOf, if_neg h.1, Option.some_or]

theorem payloadOf_eq (hs : StoreOk s) (hp : Has s name n p) : s.payloadOf name n = some p := by
  unfold RevisionStore.payloadOf
  obtain ⟨row, hrow, hname, hrev, hpay⟩ := hp
  cases hfind : s.outbox.find? fun row => decide (row.strategyName = name ∧ row.stateRevision = n) with
  | none => exact absurd (decide_eq_true ⟨hname, hrev⟩) (List.find?_eq_none.mp hfind row hrow)
  | some r =>
    have hsome := List.find?_some hfind
    obtain ⟨hrn, hrr⟩ := of_decide_eq_true hsome
    rw [Option.map_some, ← hpay, hs.eq_of_revision (List.mem_of_find?_eq_some hfind) hrow (hrn.trans hname.symm)
      (hrr.trans hrev.symm)]

theorem withObservableState_ok (hs : StoreOk s) (loaded : List LoadedStrategy) {r : StrategyCommandReceipt} (hr : r ∈ s.receipts.rows) :
    ReplyOk s (withObservableState s loaded r) := by
  obtain ⟨state, hok⟩ := hs.receipts r hr
  have hsame : (withObservableState s loaded r).receipt = r := by
    unfold withObservableState
    dsimp only
    split_ifs <;> rfl
  intro hc
  rw [hsame] at hc ⊢
  obtain ⟨p, hp, hcarries⟩ := hok hc
  refine ⟨p, state, hp, hcarries, ?_⟩
  have hpos := (hs.has_bounds hp).1
  have hne : p ≠ [] := by
    rintro rfl
    cases hcarries.2.1
  unfold withObservableState
  rw [if_neg (by omega), payloadOf_eq hs hp]
  simp only [Option.getD_some, hne, false_and, and_false, if_false]
  exact hcarries.observed

theorem Inv.commit (h : Inv w) {c : ControlCommand} {r : WireReceipt} {store : RevisionStore}
    (hc : commit w.store w.loaded c = some (r, store)) : Inv { w with store := store } ∧ ReplyOk store r := by
  unfold Strategy.commit at hc
  dsimp only at hc
  obtain ⟨store', hrecord, heq⟩ := Option.map_eq_some_iff.mp hc
  obtain ⟨rfl, rfl⟩ := Prod.mk.inj heq
  have hcarries := statePayload_carries w.loaded c.strategyName
    ((w.store.bumpControl c.strategyName).controlRevision c.strategyName)
  have hbumped := (h.bumpControl c.strategyName).bumpState c.strategyName hcarries
  have hnew := has_newRow (w.store.bumpControl c.strategyName) c.strategyName
    (statePayload w.loaded c.strategyName ((w.store.bumpControl c.strategyName).controlRevision c.strategyName))
  have hcontrol : ((w.store.bumpControl c.strategyName).bumpState c.strategyName
      (statePayload w.loaded c.strategyName ((w.store.bumpControl c.strategyName).controlRevision c.strategyName))).controlRevision
        c.strategyName = (w.store.bumpControl c.strategyName).controlRevision c.strategyName := by
    unfold RevisionStore.bumpState
    generalize statePayload _ _ _ = payload
    unfold RevisionStore.controlRevision
    dsimp only
    rw [Function.update_self]
  rw [← stateRevision_bumpState_self] at hnew
  refine ⟨hbumped.recordReceipt (stateName w.loaded c.strategyName) (fun _ => ⟨_, hnew, ?_⟩) hrecord, fun _ =>
    ⟨statePayload w.loaded c.strategyName ((w.store.bumpControl c.strategyName).controlRevision c.strategyName),
      stateName w.loaded c.strategyName, ?_, ?_, hcarries.observed⟩⟩
  · rw [hcontrol]
    exact hcarries
  · unfold RevisionStore.recordReceipt at hrecord
    obtain ⟨receipts, -, rfl⟩ := Option.map_eq_some_iff.mp hrecord
    exact hnew
  · rw [hcontrol]
    exact hcarries

/-- The rows that a drain reads. -/
theorem unacknowledged_ok (hs : StoreOk s) (hj : JournalOk s db) (limit : Nat) : RestOk s db (s.unacknowledgedOutbox limit) := by
  constructor
  · intro row hrow
    have hmem := (List.mem_filter.mp (List.mem_of_mem_take hrow)).1
    exact ⟨row, hmem, rfl, rfl, rfl, rfl⟩
  · intro pre row suf heq m h1 hm
    have hrow : row ∈ s.outbox := by
      have hmem : row ∈ s.unacknowledgedOutbox limit := heq ▸ List.mem_append_right _ List.mem_cons_self
      exact (List.mem_filter.mp (List.mem_of_mem_take hmem)).1
    have hbound := hs.bounds hrow
    obtain ⟨r, hr, hname, hrev⟩ := hs.exists_row h1 (Nat.le_of_lt (hm.trans_le hbound.2))
    cases hack : r.acknowledged with
    | true =>
      left
      have := hj.acknowledged r hr hack
      rwa [hname, hrev] at this
    | false =>
      right
      refine ⟨r, ?_, hname, hrev⟩
      -- it is among the rows read, and before `row`
      have hsorted := hs.sorted.filter fun row => !row.acknowledged
      have hin : r ∈ s.outbox.filter fun row => !row.acknowledged := List.mem_filter.mpr ⟨hr, by rw [hack]; rfl⟩
      rw [← List.take_append_drop limit (s.outbox.filter fun row => !row.acknowledged)] at hsorted hin
      have htake : (s.outbox.filter fun row => !row.acknowledged).take limit = pre ++ row :: suf := heq
      rw [htake, List.append_assoc] at hsorted hin
      rcases List.mem_append.mp hin with hin | hin
      · exact hin
      · have hafter := (List.pairwise_append.mp hsorted).2.1
        rcases List.mem_cons.mp hin with rfl | hin
        · omega
        · have hlt := (List.pairwise_cons.mp hafter).1 r hin hname.symm
          omega

/-! ## Steps -/

theorem Inv.setLoaded (h : Inv w) (loaded : List LoadedStrategy) : Inv { w with loaded := loaded } :=
  ⟨h.store, h.journal, h.threads, h.replies, h.requests, h.answers⟩

theorem Inv.remember (h : Inv w) (announced : String → Option String) : Inv { w with announced := announced } :=
  ⟨h.store, h.journal, h.threads, h.replies, h.requests, h.answers⟩

theorem Inv.applyAction (h : Inv w) (i : Nat) (c : ControlCommand) (swapped : Except (Bool × String) (List LoadedStrategy)) :
    Inv (w.applyAction i c swapped) := by
  unfold World.applyAction
  split
  · split
    · exact (h.setLoaded _).goOn i trivial
    · rename_i restored error
      refine h.goOn i ?_
      cases restored <;> exact nofun
  · split
    · exact h.finish i
    · exact (h.setLoaded _).goOn i trivial

/-- The first row of a drain is sent. -/
theorem RestOk.head (h : RestOk s db (row :: rest)) : Stored s row ∧ Below db row.strategyName row.stateRevision := by
  refine ⟨h.1 row List.mem_cons_self, fun m h1 hm => ?_⟩
  rcases h.2 [] row rest rfl m h1 hm with hj | ⟨r, hr, -⟩
  · exact hj
  · exact absurd hr List.not_mem_nil

theorem RestOk.tail (h : RestOk s db (row :: rest))
    (hrow : Journaled db row.strategyName row.stateRevision ∨ ∀ r ∈ rest, r.strategyName ≠ row.strategyName) :
    RestOk s db rest := by
  refine ⟨fun r hr => h.1 r (List.mem_cons_of_mem _ hr), fun pre r suf heq m h1 hm => ?_⟩
  rcases h.2 (row :: pre) r suf (by rw [heq]; rfl) m h1 hm with hj | ⟨t, ht, hname, hrev⟩
  · exact Or.inl hj
  · rcases List.mem_cons.mp ht with rfl | ht
    · rcases hrow with hrow | hrow
      · exact Or.inl (hname ▸ hrev ▸ hrow)
      · exact absurd hname.symm (hrow r (heq ▸ List.mem_append_right _ List.mem_cons_self))
    · exact Or.inr ⟨t, ht, hname, hrev⟩

theorem Inv.call (h : Inv w) (i : Nat) {row : OutboxRow} {rest : List OutboxRow} (hrest : RestOk w.store w.db (row :: rest)) :
    Inv ({ w with ackRequests := w.ackRequests ++ [row] }.goOn i (.calling w.ackRequests.length row rest)) := by
  have hl : Later w { w with ackRequests := w.ackRequests ++ [row] } :=
    ⟨fun _ _ _ hp => hp, fun _ hr => hr, fun _ _ hj => hj, List.prefix_append _ _⟩
  have hsent : Inv { w with ackRequests := w.ackRequests ++ [row] } := by
    refine ⟨h.store, h.journal, fun j p hp => (h.threads j p hp).mono hl, h.replies, fun a ha => ?_, fun call hcall => ?_⟩
    · rcases List.mem_append.mp ha with ha | ha
      · exact h.requests a ha
      · rw [List.mem_singleton.mp ha]
        exact hrest.head
    · obtain ⟨a, ha, hj⟩ := h.answers call hcall
      exact ⟨a, getElem?_prefix_some hl.requests ha, hj⟩
  exact hsent.goOn i ⟨List.getElem?_concat_length, hrest⟩

theorem Inv.next (h : Inv w) {i : Nat} {ph : ServicePhase} (hi : w.threads i = some ph)
    (swapped : Except (Bool × String) (List LoadedStrategy)) (commits : Bool) : Inv (w.next i swapped commits ph) := by
  have hphase := h.threads i ph hi
  cases ph with
  | getReceipt c =>
    simp only [World.next]
    split
    · rename_i r hr
      exact h.send i (withObservableState_ok h.store w.loaded (Table.get?_eq_some.mp hr).1)
    · exact h.goOn i trivial
  | checkRevision c =>
    simp only [World.next]
    split
    · exact h.goOn i trivial
    · exact h.finish i
  | apply c => exact h.applyAction i c swapped
  | readState c state error => exact h.goOn i hphase
  | recordReceipt r =>
    simp only [World.next]
    split
    · rename_i store hstore
      split at hstore
      · exact (h.recordReceipt "" (fun hc => absurd hc hphase) hstore).send i fun hc => absurd hc hphase
      · cases hstore
    · exact h.finish i
  | announcing rest next =>
    cases rest with
    | nil => exact h.announced' i next
    | cons name rest =>
      simp only [World.next]
      split
      · exact h.goOn i trivial
      · exact h.goOn i ⟨_, _, statePayload_carries w.loaded name _⟩
  | announce name state payload rest next =>
    obtain ⟨st, control, hcarries⟩ := hphase
    simp only [World.next]
    split
    · exact ((h.bumpState name hcarries).remember _).goOn i trivial
    · exact h.announced' i next
  | committing c =>
    simp only [World.next]
    split
    · rename_i r store hstore
      split at hstore
      · obtain ⟨hinv, hreply⟩ := h.commit hstore
        exact hinv.goOn i hreply
      · cases hstore
    · exact h.finish i
  | remember r =>
    simp only [World.next]
    split
    · exact (h.remember _).send i hphase
    · exact h.send i hphase
  | draining rest =>
    cases rest with
    | nil => exact h.finish i
    | cons row rest => exact h.call i hphase
  | calling call row rest => exact h
  | marking row rest =>
    simp only [World.next]
    split
    · have hl : Later w { w with store := w.store.markAcknowledged row.ackId } :=
        ⟨fun _ _ _ hp => has_markAcknowledged.mpr hp, fun _ hr => hr.markAcknowledged _, fun _ _ hj => hj, List.prefix_refl _⟩
      exact (h.markAcknowledged hphase.1 hphase.2.1).goOn i (hphase.2.2.mono hl)
    · exact h.finish i

theorem Inv.reply (h : Inv w) {commits : Bool}
    (hcond : InOrder w (.reply r now receivedTs commits)) : Inv (w.step (.reply r now receivedTs commits)) := by
  simp only [World.step]
  cases hcall : w.waitingFor r with
  | none => exact h
  | some call =>
    have hmem : r ∈ w.replies := by
      unfold World.waitingFor at hcall
      by_contra hno
      rw [if_neg hno] at hcall
      cases hcall
    have hwaiting : Inv { w with waiting := w.waiting.filter fun call => call.commandId ≠ r.receipt.commandId } :=
      ⟨h.store, h.journal, h.threads, h.replies, h.requests, h.answers⟩
    dsimp only
    split
    · rename_i hcommitted
      obtain ⟨p, state, hp, hcarries, hstate⟩ := h.replies r hmem hcommitted
      have hearlier := hcond (by rw [hcall]; exact nofun) hcommitted
      have hbound := h.store.has_bounds hp
      refine (hwaiting.acknowledge (a := World.acknowledgementOf call r) now receivedTs commits hp hcarries.2
        (acknowledgedPayload_observes hstate) fun m h1 hm => ?_).1
      have hm : m < r.receipt.stateRevision := hm
      obtain ⟨row, hrow, hname, hrev⟩ := h.store.exists_row h1 (Nat.le_of_lt (hm.trans_le hbound.2))
      have := hearlier row hrow hname (hrev ▸ hm)
      rwa [hname, hrev] at this
    · exact hwaiting

theorem Inv.record (h : Inv w) (call : Nat) (now receivedTs : Int) (commits : Bool) :
    Inv (w.step (.acknowledge call now receivedTs commits)) := by
  simp only [World.step]
  cases hrow : w.ackRequests[call]? with
  | none => exact h
  | some row =>
    obtain ⟨hstored, hbelow⟩ := h.requests row (List.mem_of_getElem? hrow)
    obtain ⟨p, hp⟩ : ∃ p, p = row.payload := ⟨_, rfl⟩
    obtain ⟨t, ht, -, -, -, htp⟩ := hstored
    obtain ⟨state, control, hcarries⟩ := h.store.carries t ht
    have hobs : Observes row.payload (.text state) (.ofInt control) := htp ▸ hcarries.2
    obtain ⟨hinv, hdone⟩ := h.acknowledge (a := World.recordStateAcknowledged row) now receivedTs commits
      (h.requests row (List.mem_of_getElem? hrow)).1.has hobs hobs hbelow
    refine ⟨hinv.store, hinv.journal, hinv.threads, hinv.replies, hinv.requests, fun k hk => ?_⟩
    rcases List.mem_append.mp hk with hk | hk
    · exact hinv.answers k hk
    · obtain ⟨rfl, hok⟩ := Prod.mk.inj (List.mem_singleton.mp hk)
      exact ⟨row, hrow, hdone hok.symm⟩

theorem Inv.step (h : Inv w) (a : Act) (hcond : InOrder w a) : Inv (w.step a) := by
  cases a with
  | forward c correlationId accountId => exact ⟨h.store, h.journal, h.threads, h.replies, h.requests, h.answers⟩
  | giveUp commandId => exact ⟨h.store, h.journal, h.threads, h.replies, h.requests, h.answers⟩
  | reply r now receivedTs commits => exact h.reply hcond
  | acknowledge call now receivedTs commits => exact h.record call now receivedTs commits
  | restartTrader => exact ⟨h.store, h.journal, h.threads, h.replies, h.requests, h.answers⟩
  | receive i c =>
    simp only [World.step]
    split
    · exact h.goOn i trivial
    · exact h
  | announceStates i =>
    simp only [World.step]
    split
    · exact h.goOn i trivial
    · exact h
  | drain i limit =>
    simp only [World.step]
    split
    · exact h.goOn i (unacknowledged_ok h.store h.journal limit)
    · exact h
  | next i swapped commits =>
    simp only [World.step]
    cases hi : w.threads i with
    | none => exact h
    | some ph => exact h.next hi swapped commits
  | answer i ok =>
    simp only [World.step]
    split
    · rename_i call row rest hi
      have hphase := h.threads i _ hi
      split
      · rename_i hanswer
        cases ok with
        | true =>
          obtain ⟨row', hrow', hj⟩ := h.answers call hanswer
          obtain rfl := Option.some.inj (hphase.1.symm.trans hrow')
          exact h.goOn i ⟨hphase.2.1 row List.mem_cons_self, hj, hphase.2.tail (Or.inl hj)⟩
        | false =>
          have hcond : NotOvertaken w i := hcond
          unfold NotOvertaken at hcond
          rw [hi] at hcond
          exact h.goOn i (hphase.2.tail hcond)
      · exact h
    · exact h
  | timeout i =>
    simp only [World.step]
    split
    · exact h.finish i
    · exact h
  | fail i =>
    simp only [World.step]
    split
    · rename_i call row rest hi
      have hcond : NotOvertaken w i := hcond
      unfold NotOvertaken at hcond
      rw [hi] at hcond
      exact h.goOn i ((h.threads i _ hi).2.tail hcond)
    · exact h
  | die i => exact h.finish i
  | setLoaded loaded => exact h.setLoaded loaded
  | restartService loaded =>
    exact ⟨h.store, h.journal, fun _ _ hp => (by cases hp), h.replies, h.requests, h.answers⟩

theorem Inv.start : Inv World.start where
  store := ⟨fun _ => rfl, rfl, fun _ h => absurd h List.not_mem_nil, fun _ h => absurd h List.not_mem_nil⟩
  journal := ⟨fun _ h => absurd h List.not_mem_nil, List.nodup_nil, List.Pairwise.nil,
    fun _ _ ⟨_, h, _⟩ => absurd h List.not_mem_nil, fun _ h => absurd h List.not_mem_nil,
    fun _ _ _ _ _ ⟨_, h, _⟩ => absurd h List.not_mem_nil⟩
  threads _ _ h := by cases h
  replies _ h := absurd h List.not_mem_nil
  requests _ h := absurd h List.not_mem_nil
  answers _ h := absurd h List.not_mem_nil

theorem Inv.promise (h : Inv w) : Promise w where
  once := h.journal.once
  ordered := h.journal.ordered
  acknowledged := h.journal.acknowledged
  newest row hrow hall := h.journal.shows h.store hrow (h.journal.acknowledged row hrow (hall row hrow rfl).1)
    fun r hr hname => (hall r hr hname).2

/-- **The trader ends up with the newest strategy state.**  In every run whose steps are in order the promise holds in
    every state reached. -/
theorem newest_state {acts : List Act} (h : Meets World.step InOrder World.start acts) (pre : List Act) (hpre : pre <+: acts) :
    Promise (pre.foldl World.step World.start) :=
  ((h.of_prefix hpre).invariant (I := Inv) (fun _ a hs hc => hs.step a hc) Inv.start).promise

/-! ## Two runs -/

def sampleCommand : ControlCommand := ⟨"c", "s", .enable_strategy, 0⟩

/-- The receipt of the command: its state revision is 2, after the one of its announcement. -/
def sampleReply : WireReceipt :=
  ⟨⟨"c", "s", .enable_strategy, .COMMITTED, 1, 2, none⟩, some "RUNNING",
    some (statePayload [⟨"s", .RUNNING, []⟩] "s" 1)⟩

def steps (i k : Nat) : List Act := List.replicate k (.next i (.ok []) true)

def sampleEnable : List Act :=
  [.setLoaded [⟨"s", .DISABLED, []⟩], .forward sampleCommand "c" none, .receive 0 sampleCommand] ++ steps 0 8

/-- Both rows are sent, journaled and marked. -/
def sampleDrain : List Act :=
  [.drain 1 50] ++ steps 1 1 ++ [.acknowledge 0 2 2 true, .answer 1 true] ++ steps 1 2 ++
    [.acknowledge 1 3 3 true, .answer 1 true] ++ steps 1 2

def drainedFirst : List Act := sampleEnable ++ sampleDrain ++ [.reply sampleReply 4 4 true]

theorem newest_state_drained :
    Promise (drainedFirst.foldl World.step World.start) ∧
      (drainedFirst.foldl World.step World.start).store.outbox.map (fun row => (row.stateRevision, row.acknowledged)) =
        [(1, true), (2, true)] := by
  have horder : Meets World.step InOrder World.start drainedFirst := by decide +kernel
  exact ⟨newest_state horder drainedFirst (List.prefix_refl _), by decide +kernel⟩

/-- The reply arrives first, as it does, and the outbox is drained after it. -/
def replyFirst : List Act := sampleEnable ++ [.reply sampleReply 1 1 true] ++ sampleDrain

/-- The trader shows the control revision of the announcement, not of the command. -/
theorem older_overwrites : ¬ ∀ acts : List Act, Promise (acts.foldl World.step World.start) := by
  intro h
  have hpromise := h replyFirst
  have houtbox : (replyFirst.foldl World.step World.start).store.outbox.map
      (fun row => (row.strategyName, row.stateRevision, row.acknowledged, row.payload.lookup "control_revision")) =
        [("s", 1, true, some (.ofInt 0)), ("s", 2, true, some (.ofInt 1))] := by decide +kernel
  have hshown : ((replyFirst.foldl World.step World.start).db.tables.materialized.get? ("strategy", "s")).bind
      (fun row => row.payload.bind (·.lookup "control_revision")) = some (.ofInt 0) := by decide +kernel
  generalize replyFirst.foldl World.step World.start = w at hpromise houtbox hshown
  obtain ⟨a, rest, hrows, ha, hrest⟩ := List.map_eq_cons_iff.mp houtbox
  obtain ⟨b, rest', rfl, hb, hnil⟩ := List.map_eq_cons_iff.mp hrest
  obtain rfl := List.map_eq_nil_iff.mp hnil
  simp only [Prod.mk.injEq] at ha hb
  obtain ⟨ha1, ha2, ha3, -⟩ := ha
  obtain ⟨hb1, hb2, hb3, hb4⟩ := hb
  obtain ⟨state, control, hobs, row, p, hget, -, hp, hshows⟩ := hpromise.newest b
    (hrows ▸ List.mem_cons_of_mem _ List.mem_cons_self) (fun r hr _ => by
      rw [hrows] at hr
      rcases List.mem_cons.mp hr with rfl | hr
      · exact ⟨ha3, by omega⟩
      · rw [List.mem_singleton.mp hr]
        exact ⟨hb3, Nat.le_refl _⟩)
  rw [hb1] at hget
  rw [hget, Option.bind_some, hp, Option.bind_some, hshows.2] at hshown
  rw [hobs.2, hshown] at hb4
  cases hb4

end MmrTrader.Strategy
