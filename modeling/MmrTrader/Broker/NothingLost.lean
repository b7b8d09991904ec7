import MmrTrader.Broker.HoldChanges
import MmrTrader.Broker.Promotion

/-!
# No observation is lost in a sync

* `NothingLost` — what the claim says of one state: what was enqueued for a promoted generation was
  applied by its promotion, what came later was applied then or is still on its way;
* `CarefulSync` — the condition: a promotion reads the staged rows once, when no record of its
  generation is still in the queue or in a popped batch, and nothing is staged into a generation
  that has been read;
* `FlowInv` — where every record is, in every state of such a run; `FlowInv.step` keeps it;
* `nothing_lost` — the result; `late_batch_lost` — a batch that takes the lock after the promotion
  has read.
-/

namespace MmrTrader.Broker

open MmrTrader.Lib
open MmrTrader.Journal (JournalState mutateBatchWork)

variable {σ : Type} {port : SagaPort σ}

/-! ## Where a record is -/

/-- The records that a thread has in its hands. -/
def Phase.records : Phase → List Queued
  | .collecting batch | .waiting batch | .applying batch => batch
  | .recording record _ batch => record :: batch
  | _ => []

/-- In the queue or in a popped batch. -/
def SyncState.Pending (s : SyncState σ) (r : Queued) : Prop := r ∈ s.queue ∨ ∃ i, r ∈ (s.threads i).records

def Trace.stagedIn (t : Trace) (g : Nat) : List Queued := (t.staged g).map Prod.snd

/-- On its way: queued, popped, or staged into the active generation. -/
def SyncState.Waits (s : SyncState σ) (r : Queued) : Prop :=
  s.Pending r ∨ ∃ g, s.generation = some g ∧ r ∈ s.trace.stagedIn g.generationId

def Trace.Applied (t : Trace) (r : Queued) : Prop := ∃ o ∈ t.done, r ∈ o.records

/-! ## The claim -/

/-- A promotion deletes no position and no order that one of its records names. -/
def Promotion.SparesNamed (p : Promotion) : Prop :=
  ∃ named live, applyLive p.ingest (p.records.map (·.2.obs)) ⟨[], []⟩ p.before = .ok (named, live) ∧
    (∀ r ∈ p.records, ∀ o, r.2.obs = .position o → p.after.tables.own.rows.positions.get? (o.accountId, o.conid) =
      live.tables.own.rows.positions.get? (o.accountId, o.conid)) ∧
    ∀ first o rest, p.records.map (·.2.obs) = first ++ .order o :: rest → ∀ named' mid,
      applyLive p.ingest first ⟨[], []⟩ p.before = .ok (named', mid) →
        p.after.tables.own.rows.orders.get? (resolveNow p.ingest mid o) =
          live.tables.own.rows.orders.get? (resolveNow p.ingest mid o)

structure NothingLost (s : SyncState σ) : Prop where
  /-- What was enqueued after a promoted generation began and before its last source was marked was
      applied by its promotion. -/
  window : ∀ p, .promotion p ∈ s.trace.done → ∀ r ∈ s.trace.sent, s.trace.began p.generationId ≤ r.id →
    r.id < s.trace.marked p.generationId → r ∈ p.records.map Prod.snd
  /-- What was enqueued later was applied by it or after it, or is on its way. -/
  later : ∀ first p rest, s.trace.done = first ++ .promotion p :: rest → ∀ r ∈ s.trace.sent,
    s.trace.marked p.generationId ≤ r.id → (∃ o ∈ Outcome.promotion p :: rest, r ∈ o.records) ∨ s.Waits r
  spared : ∀ p, .promotion p ∈ s.trace.done → p.SparesNamed
  /-- No row was staged into a generation whose staged rows had been read. -/
  unread : s.trace.late = []

/-! ## The condition -/

/-- Giving up the generation would drop a staged record that was enqueued after another one was promoted. -/
def Trace.Drops (t : Trace) (g : Nat) : Prop :=
  ∃ r ∈ t.stagedIn g, ¬ t.Applied r ∧ ∃ p, .promotion p ∈ t.done ∧ t.marked p.generationId ≤ r.id

/-- The condition on a step. -/
def CarefulSync (s : SyncState σ) : SyncAction → Prop
  -- the promotion reads an active generation, once, when nothing of it is still pending
  | .beginPromotion i _ => ∀ g, s.threads i = .captured g → s.writer = none →
      s.generation.map Generation.generationId = some g ∧ g ∉ s.trace.read ∧
        ∀ r, s.Pending r → r.id < s.trace.began g ∨ s.trace.marked g ≤ r.id
  -- nothing is staged into it afterwards
  | .nextRecord i _ => ∀ g record batch, s.threads i = .applying (record :: batch) → s.generation = some g →
      g.generationId ∉ s.trace.read
  -- nor is a source of a promoted one marked again, with new records
  | .markSourceComplete source => ∀ g, s.lock = none → s.generation = some g → source ∈ g.required →
      (∃ p, .promotion p ∈ s.trace.done ∧ p.generationId = g.generationId) →
        s.trace.marked g.generationId = s.trace.sent.length
  -- and no generation is given up with records that count
  | .abandonGeneration _ _ => ∀ g, s.lock = none → s.generation = some g → ¬ s.trace.Drops g.generationId
  | .clearGeneration i => ∀ g, s.threads i = .promoted g false → s.lock = none →
      s.generation.map Generation.generationId = some g → ¬ s.trace.Drops g
  | _ => True

/-! ## The invariant -/

/-- The generation whose staged rows a thread has read. -/
def Phase.reads : Phase → Option Nat
  | .promoting g _ _ _ _ | .promoted g _ => some g
  | _ => none

def Phase.isRecording : Phase → Bool
  | .recording _ _ _ => true
  | _ => false

variable {p : Phase}

theorem Phase.holdsLock_of_isRecording (h : p.isRecording = true) : p.holdsLock = true := by
  cases p with
  | recording => rfl
  | _ => cases h

/-- Enqueued too early to count: staged into a generation that was given up. -/
def SyncState.Forgotten (s : SyncState σ) (r : Queued) : Prop :=
  (∀ p, .promotion p ∈ s.trace.done → r.id < s.trace.marked p.generationId) ∧
    ∀ g, s.generation = some g → r.id < s.trace.marked g.generationId

structure ReadAll (s : SyncState σ) (g : Nat) (snapshot : BrokerJournal) (version : Nat) (records : List (Nat × Queued)) :
    Prop where
  all : records = s.trace.staged g
  rows : snapshot.tables.own.stagedRows g = records.map fun r => stagedRow g r.1 r.2.obs
  window : s.version g = version → ∀ r ∈ s.trace.sent, s.trace.began g ≤ r.id → r.id < s.trace.marked g →
    r ∈ s.trace.stagedIn g
  older : version ≤ s.version g
  live : s.version g = version → s.generation.map Generation.generationId = some g
  first : ∀ p, .promotion p ∈ s.trace.done → p.generationId ≠ g

structure FlowInv (s : SyncState σ) : Prop where
  sent : ∀ r ∈ s.trace.sent, r.id < s.trace.sent.length
  known : ∀ r, s.Pending r ∨ (∃ g, r ∈ s.trace.stagedIn g) ∨ s.trace.Applied r → r.id < s.trace.sent.length
  located : ∀ r ∈ s.trace.sent, s.Waits r ∨ s.trace.Applied r ∨ s.Forgotten r
  began : ∀ g, s.trace.began g ≤ s.trace.marked g ∧ s.trace.marked g ≤ s.trace.sent.length
  order : ∀ first p rest, s.trace.done = first ++ .promotion p :: rest → ∀ o ∈ first, ∀ r ∈ o.records,
    r.id < s.trace.began p.generationId
  active : ∀ g, s.generation = some g → ∀ o ∈ s.trace.done,
    (∀ r ∈ o.records, r.id < s.trace.began g.generationId) ∨ ∃ p, o = .promotion p ∧ p.generationId = g.generationId
  staged : ∀ g, s.generation = some g → ∀ r ∈ s.trace.sent, s.trace.began g.generationId ≤ r.id →
    s.Pending r ∨ r ∈ s.trace.stagedIn g.generationId
  table : ∀ g, s.generation = some g → g.generationId ∉ s.trace.read →
    s.own.stagedRows g.generationId = (s.trace.staged g.generationId).map fun r => stagedRow g.generationId r.1 r.2.obs
  promoting : ∀ i g ingest snapshot version records, s.threads i = .promoting g ingest snapshot version records →
    ReadAll s g snapshot version records
  reader : ∀ i g, (s.threads i).reads = some g → g ∈ s.trace.read
  single : ∀ i j g, (s.threads i).reads = some g → (s.threads j).reads = some g → i = j
  recording : ∀ i, (s.threads i).isRecording = true → s.generation = none
  committed : ∀ i g, s.threads i = .promoted g true → ∃ p, .promotion p ∈ s.trace.done ∧ p.generationId = g
  promoted : ∀ p, .promotion p ∈ s.trace.done → p.generationId ∈ s.trace.read ∧
    p.records = s.trace.staged p.generationId ∧ p.SparesNamed ∧ ∀ r ∈ s.trace.sent,
      s.trace.began p.generationId ≤ r.id → r.id < s.trace.marked p.generationId → r ∈ s.trace.stagedIn p.generationId
  unread : s.trace.late = []
  seqs : ∀ g, ∀ x ∈ s.trace.staged g, x.1 ≤ s.ingestSeq
  unused : ∀ g, s.own.generationSeq < g → s.trace.staged g = [] ∧ g ∉ s.trace.read
  stagedRows : ∀ row ∈ s.own.staging.rows, row.generationId ≤ s.own.generationSeq

variable {s : SyncState σ}

/-- The invariant is what the claim needs. -/
theorem FlowInv.nothingLost (h : FlowInv s) : NothingLost s where
  window p hp r hr hb hm := by
    obtain ⟨-, hrecords, -, hwindow⟩ := h.promoted p hp
    rw [hrecords]
    exact hwindow r hr hb hm
  later first p rest hdone r hr hm := by
    have hp : Outcome.promotion p ∈ s.trace.done := by
      rw [hdone]
      simp
    rcases h.located r hr with hwait | ⟨o, ho, hro⟩ | ⟨hforgot, -⟩
    · exact Or.inr hwait
    · left
      rw [hdone] at ho
      rcases List.mem_append.mp ho with ho | ho
      · have hlt := h.order first p rest hdone o ho r hro
        have hbm := (h.began p.generationId).1
        omega
      · exact ⟨o, ho, hro⟩
    · exact absurd (hforgot p hp) (Nat.not_lt.mpr hm)
  spared p hp := (h.promoted p hp).2.2.1
  unread := h.unread

/-! ## Steps that move records and nothing else -/

variable {s' : SyncState σ} {i : Nat} {q : List Queued}

theorem pending_move (hmove : ∀ r, (r ∈ q ∨ r ∈ p.records) ↔ (r ∈ s.queue ∨ r ∈ (s.threads i).records)) (hq : s'.queue = q)
    (hth : s'.threads = Function.update s.threads i p) (r : Queued) : s'.Pending r ↔ s.Pending r := by
  have hthread : ∀ j, s'.threads j = if j = i then p else s.threads j := fun j => by
    rw [hth, Function.update_apply]
  constructor
  · rintro (hr | ⟨j, hr⟩)
    · rw [hq] at hr
      rcases (hmove r).mp (Or.inl hr) with hr | hr
      · exact Or.inl hr
      · exact Or.inr ⟨i, hr⟩
    · rw [hthread] at hr
      split at hr
      · rcases (hmove r).mp (Or.inr hr) with hr | hr
        · exact Or.inl hr
        · exact Or.inr ⟨i, hr⟩
      · exact Or.inr ⟨j, hr⟩
  · rintro (hr | ⟨j, hr⟩)
    · rcases (hmove r).mpr (Or.inl hr) with hr | hr
      · exact Or.inl (hq ▸ hr)
      · exact Or.inr ⟨i, by rw [hthread, if_pos rfl]; exact hr⟩
    · by_cases hj : j = i
      · subst hj
        rcases (hmove r).mpr (Or.inr hr) with hr | hr
        · exact Or.inl (hq ▸ hr)
        · exact Or.inr ⟨j, by rw [hthread, if_pos rfl]; exact hr⟩
      · exact Or.inr ⟨j, by rw [hthread, if_neg hj]; exact hr⟩

variable {record : Queued}

theorem pending_drop (hdrop : ∀ r, r ∈ (s.threads i).records ↔ r = record ∨ r ∈ p.records) (hq : s'.queue = s.queue)
    (hth : s'.threads = Function.update s.threads i p) (r : Queued) : s.Pending r ↔ s'.Pending r ∨ r = record := by
  have hthread : ∀ j, s'.threads j = if j = i then p else s.threads j := fun j => by
    rw [hth, Function.update_apply]
  constructor
  · rintro (hr | ⟨j, hr⟩)
    · exact Or.inl (Or.inl (hq ▸ hr))
    · by_cases hj : j = i
      · subst hj
        rcases (hdrop r).mp hr with rfl | hr
        · exact Or.inr rfl
        · exact Or.inl (Or.inr ⟨j, by rw [hthread, if_pos rfl]; exact hr⟩)
      · exact Or.inl (Or.inr ⟨j, by rw [hthread, if_neg hj]; exact hr⟩)
  · rintro ((hr | ⟨j, hr⟩) | rfl)
    · exact Or.inl (hq ▸ hr)
    · rw [hthread] at hr
      split at hr
      · exact Or.inr ⟨i, (hdrop r).mpr (Or.inr hr)⟩
      · exact Or.inr ⟨j, hr⟩
    · exact Or.inr ⟨i, (hdrop _).mpr (Or.inl rfl)⟩

theorem FlowInv.shift (h : FlowInv s) (hgen : s'.generation = s.generation) (htrace : s'.trace = s.trace)
    (hown : syncTables s'.own = syncTables s.own) (hversion : s'.version = s.version) (hseq : s.ingestSeq ≤ s'.ingestSeq)
    (hpend : ∀ r, s'.Pending r ↔ s.Pending r) (hreads : ∀ i g, (s'.threads i).reads = some g → (s.threads i).reads = some g)
    (hprom : ∀ i g ingest snapshot version records, s'.threads i = .promoting g ingest snapshot version records →
      s.threads i = .promoting g ingest snapshot version records)
    (hcom : ∀ i g, s'.threads i = .promoted g true → s.threads i = .promoted g true)
    (hrec : ∀ i, (s'.threads i).isRecording = true → s.generation = none) : FlowInv s' := by
  simp only [syncTables, Prod.mk.injEq] at hown
  obtain ⟨-, hgseq, hstaging⟩ := hown
  have hwaits : ∀ r, s'.Waits r ↔ s.Waits r := fun r => by
    rw [SyncState.Waits, SyncState.Waits, hpend, hgen, htrace]
  have hrows : ∀ g, s'.own.stagedRows g = s.own.stagedRows g := fun g => by
    rw [BrokerDb.stagedRows, hstaging, BrokerDb.stagedRows]
  refine
    { sent := by rw [htrace]; exact h.sent
      known := fun r hr => ?_
      located := fun r hr => ?_
      began := by rw [htrace]; exact h.began
      order := by rw [htrace]; exact h.order
      active := by rw [htrace, hgen]; exact h.active
      staged := fun g hg r hr hb => ?_
      table := fun g hg hread => ?_
      promoting := fun i g ingest snapshot version records hph => ?_
      reader := fun i g hi => ?_
      single := fun i j g hi hj => h.single i j g (hreads i g hi) (hreads j g hj)
      recording := fun i hi => ?_
      committed := fun i g hi => by rw [htrace]; exact h.committed i g (hcom i g hi)
      promoted := by rw [htrace]; exact h.promoted
      unread := by rw [htrace]; exact h.unread
      seqs := fun g x hx => ?_
      unused := fun g hg => ?_
      stagedRows := fun row hrow => ?_ }
  · rw [htrace] at hr ⊢
    rw [hpend] at hr
    exact h.known r hr
  · rw [htrace] at hr ⊢
    rw [hwaits, SyncState.Forgotten, htrace, hgen]
    exact h.located r hr
  · rw [htrace] at hr hb ⊢
    rw [hpend]
    exact h.staged g (hgen ▸ hg) r hr hb
  · rw [htrace] at hread ⊢
    rw [hrows]
    exact h.table g (hgen ▸ hg) hread
  · obtain ⟨hall, hsnap, hwindow, holder, hlive, hfirst⟩ :=
      h.promoting i g ingest snapshot version records (hprom _ _ _ _ _ _ hph)
    exact ⟨by rw [htrace]; exact hall, hsnap, by rw [htrace, hversion]; exact hwindow, by rw [hversion]; exact holder,
      by rw [hversion, hgen]; exact hlive, by rw [htrace]; exact hfirst⟩
  · rw [htrace]
    exact h.reader i g (hreads i g hi)
  · rw [hgen]
    exact hrec i hi
  · rw [htrace] at hx
    exact (h.seqs g x hx).trans hseq
  · rw [htrace]
    exact h.unused g (hgseq ▸ hg)
  · rw [hgseq]
    exact h.stagedRows row (hstaging ▸ hrow)

theorem FlowInv.move (h : FlowInv s)
    (hmove : ∀ r, (r ∈ q ∨ r ∈ p.records) ↔ (r ∈ s.queue ∨ r ∈ (s.threads i).records)) (hq : s'.queue = q)
    (hth : s'.threads = Function.update s.threads i p) (hgen : s'.generation = s.generation) (htrace : s'.trace = s.trace)
    (hown : syncTables s'.own = syncTables s.own) (hversion : s'.version = s.version) (hseq : s.ingestSeq ≤ s'.ingestSeq)
    (hreads : ∀ g, p.reads = some g → (s.threads i).reads = some g)
    (hprom : ∀ g ingest snapshot version records, p ≠ .promoting g ingest snapshot version records)
    (hcom : ∀ g, p ≠ .promoted g true) (hrec : p.isRecording = true → s.generation = none) : FlowInv s' := by
  have hthread : ∀ j, s'.threads j = if j = i then p else s.threads j := fun j => by
    rw [hth, Function.update_apply]
  refine h.shift hgen htrace hown hversion hseq (pending_move hmove hq hth) (fun j g hj => ?_)
    (fun j g ingest snapshot version records hj => ?_) (fun j g hj => ?_) (fun j hj => ?_)
  · rw [hthread] at hj
    split at hj
    · rename_i hji
      rw [hji]
      exact hreads g hj
    · exact hj
  · rw [hthread] at hj
    split at hj
    · exact absurd hj (hprom g ingest snapshot version records)
    · exact hj
  · rw [hthread] at hj
    split at hj
    · exact absurd hj (hcom g)
    · exact hj
  · rw [hthread] at hj
    split at hj
    · exact hrec hj
    · exact h.recording j hj

/-! ## The other steps -/

theorem FlowInv.enqueue {s : SyncState σ} (h : FlowInv s) (obs : Observation) : FlowInv (enqueue s obs) := by
  have hpend : ∀ r, (Broker.enqueue s obs).Pending r ↔ s.Pending r ∨ r = ⟨s.trace.sent.length, obs⟩ := by
    intro r
    simp only [SyncState.Pending, Broker.enqueue, List.mem_append, List.mem_singleton]
    tauto
  have hsent : ∀ r, r ∈ (Broker.enqueue s obs).trace.sent ↔ r ∈ s.trace.sent ∨ r = ⟨s.trace.sent.length, obs⟩ := by
    intro r
    simp only [Broker.enqueue, List.mem_append, List.mem_singleton]
  have hlen : (Broker.enqueue s obs).trace.sent.length = s.trace.sent.length + 1 := by
    simp [Broker.enqueue]
  -- the new record is past every mark
  have hwindow : ∀ g (T : Queued → Prop), (∀ r ∈ s.trace.sent, s.trace.began g ≤ r.id → r.id < s.trace.marked g → T r) →
      ∀ r ∈ (Broker.enqueue s obs).trace.sent, s.trace.began g ≤ r.id → r.id < s.trace.marked g → T r := by
    intro g T hT r hr hb hm
    rcases (hsent r).mp hr with hr | rfl
    · exact hT r hr hb hm
    · have hmax := (h.began g).2
      dsimp only at hm
      omega
  refine
    { h with
      sent := fun r hr => ?_
      known := fun r hr => ?_
      located := fun r hr => ?_
      began := fun g => ?_
      staged := fun g hg r hr hb => ?_
      promoting := fun i g ingest snapshot version records hph => ?_
      promoted := fun p hp => ?_ }
  · rw [hlen]
    rcases (hsent r).mp hr with hr | rfl
    · exact Nat.lt_succ_of_lt (h.sent r hr)
    · exact Nat.lt_succ_self _
  · rw [hlen]
    rcases hr with hr | hr
    · rcases (hpend r).mp hr with hr | rfl
      · exact Nat.lt_succ_of_lt (h.known r (Or.inl hr))
      · exact Nat.lt_succ_self _
    · exact Nat.lt_succ_of_lt (h.known r (Or.inr hr))
  · rcases (hsent r).mp hr with hr | rfl
    · rcases h.located r hr with (hwait | hwait) | hrest
      · exact Or.inl (Or.inl ((hpend r).mpr (Or.inl hwait)))
      · exact Or.inl (Or.inr hwait)
      · exact Or.inr hrest
    · exact Or.inl (Or.inl ((hpend _).mpr (Or.inr rfl)))
  · rw [hlen]
    exact ⟨(h.began g).1, (h.began g).2.trans (Nat.le_succ _)⟩
  · rcases (hsent r).mp hr with hr | rfl
    · rcases h.staged g hg r hr hb with hp | hst
      · exact Or.inl ((hpend r).mpr (Or.inl hp))
      · exact Or.inr hst
    · exact Or.inl ((hpend _).mpr (Or.inr rfl))
  · obtain ⟨hall, hsnap, hwin, holder, hlive, hfirst⟩ := h.promoting i g ingest snapshot version records hph
    exact ⟨hall, hsnap, fun hv => hwindow g (· ∈ s.trace.stagedIn g) (hwin hv), holder, hlive, hfirst⟩
  · obtain ⟨hread, hrecords, hspare, hwin⟩ := h.promoted p hp
    exact ⟨hread, hrecords, hspare, hwindow p.generationId (· ∈ s.trace.stagedIn p.generationId) hwin⟩

variable {g : Nat}

theorem FlowInv.fresh (h : FlowInv s) (hg : g ∈ s.trace.read) : g ≠ s.own.generationSeq + 1 := by
  rintro rfl
  exact (h.unused _ (Nat.lt_succ_self _)).2 hg

theorem FlowInv.step_began (h : FlowInv s) (hl : LockInv s) (required : List String) (now : Int)
    (hlock : s.lock = none) (hgen : s.generation = none) :
    FlowInv
      { (s.setOwn (s.own.openGeneration required now).2).touch (s.own.generationSeq + 1) with
        generation := some ⟨s.own.generationSeq + 1, required, []⟩
        trace := { s.trace with
          began := Function.update s.trace.began (s.own.generationSeq + 1) s.trace.sent.length
          marked := Function.update s.trace.marked (s.own.generationSeq + 1) s.trace.sent.length } } := by
  have hold : ∀ p, .promotion p ∈ s.trace.done → p.generationId ≠ s.own.generationSeq + 1 := fun p hp =>
    h.fresh (h.promoted p hp).1
  refine
    { h with
      located := fun r hr => ?_
      began := fun g => ?_
      order := fun first p rest hdone o ho r hr => ?_
      active := fun g hg o ho => Or.inl fun r hr => ?_
      staged := fun g hg r hr hb => ?_
      table := fun g hg hread => ?_
      promoting := fun i g ingest snapshot version records hph => ?_
      recording := fun i hi => ?_
      promoted := fun p hp => ?_
      unused := fun g hg => h.unused g (Nat.lt_of_succ_lt hg)
      stagedRows := fun row hrow => (h.stagedRows row hrow).trans (Nat.le_succ _) }
  · rcases h.located r hr with (hpend | ⟨g, hg, -⟩) | happ | ⟨hforgot, -⟩
    · exact Or.inl (Or.inl hpend)
    · rw [hgen] at hg
      cases hg
    · exact Or.inr (Or.inl happ)
    · refine Or.inr (Or.inr ⟨fun p hp => ?_, fun g hg => ?_⟩)
      · dsimp only
        rw [Function.update_of_ne (hold p hp)]
        exact hforgot p hp
      · cases hg
        dsimp only
        rw [Function.update_self]
        exact h.sent r hr
  · dsimp only
    by_cases hid : g = s.own.generationSeq + 1
    · subst hid
      rw [Function.update_self, Function.update_self]
      exact ⟨le_rfl, le_rfl⟩
    · rw [Function.update_of_ne hid, Function.update_of_ne hid]
      exact h.began g
  · have hp : Outcome.promotion p ∈ s.trace.done := by
      show Outcome.promotion p ∈ s.trace.done
      rw [show s.trace.done = first ++ .promotion p :: rest from hdone]
      simp
    dsimp only
    rw [Function.update_of_ne (hold p hp)]
    exact h.order first p rest hdone o ho r hr
  · cases hg
    dsimp only
    rw [Function.update_self]
    exact h.known r (Or.inr (Or.inr ⟨o, ho, hr⟩))
  · cases hg
    dsimp only at hb
    rw [Function.update_self] at hb
    exact absurd (h.sent r hr) (Nat.not_lt.mpr hb)
  · cases hg
    dsimp only
    rw [(h.unused _ (Nat.lt_succ_self _)).1]
    have hnone : s.own.staging.rows.filter (fun r => r.generationId == s.own.generationSeq + 1) = [] := by
      refine List.filter_eq_nil_iff.mpr fun row hrow hid => ?_
      have hle := h.stagedRows row hrow
      rw [beq_iff_eq] at hid
      omega
    show (s.own.staging.rows.filter fun r => r.generationId == s.own.generationSeq + 1).insertionSort _ = []
    rw [hnone]
    rfl
  · have hne := h.fresh (h.reader i g (by rw [show s.threads i = _ from hph]; rfl))
    obtain ⟨hall, hsnap, hwin, holder, hlive, hfirst⟩ := h.promoting i g ingest snapshot version records hph
    have hversion : Function.update s.version (s.own.generationSeq + 1) (s.version (s.own.generationSeq + 1) + 1) g =
        s.version g := Function.update_of_ne hne ..
    -- no generation was active, so its row was written since
    have hwrote : s.version g ≠ version := by
      intro hv
      have hact := hlive hv
      rw [hgen] at hact
      cases hact
    exact ⟨hall, hsnap, fun hv => absurd (hversion.symm.trans hv) hwrote, holder.trans hversion.ge,
      fun hv => absurd (hversion.symm.trans hv) hwrote, hfirst⟩
  · have hown := hl.owner i (Phase.holdsLock_of_isRecording hi)
    rw [hlock] at hown
    cases hown
  · obtain ⟨hread, hrecords, hspare, hwin⟩ := h.promoted p hp
    refine ⟨hread, hrecords, hspare, ?_⟩
    dsimp only
    rw [Function.update_of_ne (hold p hp), Function.update_of_ne (hold p hp)]
    exact hwin

variable {own : BrokerDb PyValue}

theorem FlowInv.step_marked (h : FlowInv s) {source : String} {g : Generation}
    (hgen : s.generation = some g) (hown : s.own.markSourceComplete g.generationId source = some own)
    (hc : (∃ p, .promotion p ∈ s.trace.done ∧ p.generationId = g.generationId) →
      s.trace.marked g.generationId = s.trace.sent.length) :
    FlowInv
      { (s.setOwn own).touch g.generationId with
        generation := some { g with complete := source :: g.complete }
        trace := { s.trace with marked := Function.update s.trace.marked g.generationId s.trace.sent.length } } := by
  obtain ⟨row, -, rfl⟩ := markSourceComplete_some hown
  -- no mark of a promoted generation moves
  have hmark : ∀ p, .promotion p ∈ s.trace.done →
      Function.update s.trace.marked g.generationId s.trace.sent.length p.generationId = s.trace.marked p.generationId := by
    intro p hp
    by_cases hid : p.generationId = g.generationId
    · rw [hid, Function.update_self, hc ⟨p, hp, hid⟩]
    · exact Function.update_of_ne hid ..
  refine
    { h with
      located := fun r hr => ?_
      began := fun g' => ?_
      active := fun g' hg o ho => ?_
      staged := fun g' hg r hr hb => ?_
      table := fun g' hg hread => ?_
      promoting := fun i g' ingest snapshot version records hph => ?_
      recording := fun i hi => ?_
      promoted := fun p hp => ?_ }
  · rcases h.located r hr with (hpend | ⟨g', hg, hst⟩) | happ | ⟨hforgot, hact⟩
    · exact Or.inl (Or.inl hpend)
    · obtain rfl := Option.some.inj (hgen.symm.trans hg)
      exact Or.inl (Or.inr ⟨_, rfl, hst⟩)
    · exact Or.inr (Or.inl happ)
    · refine Or.inr (Or.inr ⟨fun p hp => ?_, fun g' hg => ?_⟩)
      · dsimp only
        rw [hmark p hp]
        exact hforgot p hp
      · cases hg
        dsimp only
        rw [Function.update_self]
        exact h.sent r hr
  · dsimp only
    by_cases hid : g' = g.generationId
    · subst hid
      rw [Function.update_self]
      exact ⟨(h.began _).1.trans (h.began _).2, le_rfl⟩
    · rw [Function.update_of_ne hid]
      exact h.began g'
  · cases hg
    exact h.active g hgen o ho
  · cases hg
    exact h.staged g hgen r hr hb
  · cases hg
    exact h.table g hgen hread
  · obtain ⟨hall, hsnap, hwin, holder, hlive, hfirst⟩ := h.promoting i g' ingest snapshot version records hph
    by_cases hid : g' = g.generationId
    · -- the mark wrote the generation's row
      subst hid
      have hwrote : Function.update s.version g.generationId (s.version g.generationId + 1) g.generationId ≠ version := by
        rw [Function.update_self]
        exact Nat.ne_of_gt (Nat.lt_succ_of_le holder)
      refine ⟨hall, hsnap, fun hv => absurd hv hwrote, ?_, fun hv => absurd hv hwrote, hfirst⟩
      show version ≤ Function.update s.version _ _ g.generationId
      rw [Function.update_self]
      exact holder.trans (Nat.le_succ _)
    · have hversion : Function.update s.version g.generationId (s.version g.generationId + 1) g' = s.version g' :=
        Function.update_of_ne hid ..
      refine ⟨hall, hsnap, fun hv => ?_, holder.trans hversion.ge, fun hv => ?_, hfirst⟩
      · dsimp only
        rw [Function.update_of_ne hid]
        exact hwin (hversion.symm.trans hv)
      · have hact := hlive (hversion.symm.trans hv)
        rw [hgen] at hact
        exact hact
  · have hnone := h.recording i hi
    rw [hgen] at hnone
    cases hnone
  · obtain ⟨hread, hrecords, hspare, hwin⟩ := h.promoted p hp
    refine ⟨hread, hrecords, hspare, ?_⟩
    dsimp only
    rw [hmark p hp]
    exact hwin

theorem FlowInv.giveUp (h : FlowInv s) {g : Generation} (hgen : s.generation = some g)
    (hgen' : s'.generation = none) (htrace : s'.trace = s.trace) (hth : s'.threads = s.threads) (hq : s'.queue = s.queue)
    (hseq : s'.ingestSeq = s.ingestSeq) (hgseq : s'.own.generationSeq = s.own.generationSeq)
    (hstaging : ∀ row ∈ s'.own.staging.rows, row ∈ s.own.staging.rows) (hversion : ∀ k, s.version k ≤ s'.version k)
    (hlive : ∀ i ingest snapshot version records, s.threads i = .promoting g.generationId ingest snapshot version records →
      s'.version g.generationId ≠ version)
    (hkept : ¬ s.trace.Drops g.generationId) : FlowInv s' := by
  have hpend : ∀ r, s'.Pending r ↔ s.Pending r := fun r => by
    rw [SyncState.Pending, SyncState.Pending, hq, hth]
  refine
    { sent := by rw [htrace]; exact h.sent
      known := fun r hr => ?_
      located := fun r hr => ?_
      began := by rw [htrace]; exact h.began
      order := by rw [htrace]; exact h.order
      active := fun g' hg => by rw [hgen'] at hg; cases hg
      staged := fun g' hg => by rw [hgen'] at hg; cases hg
      table := fun g' hg => by rw [hgen'] at hg; cases hg
      promoting := fun i g' ingest snapshot version records hph => ?_
      reader := by rw [htrace, hth]; exact h.reader
      single := by rw [hth]; exact h.single
      recording := fun _ _ => hgen'
      committed := by rw [htrace, hth]; exact h.committed
      promoted := by rw [htrace]; exact h.promoted
      unread := by rw [htrace]; exact h.unread
      seqs := by rw [htrace, hseq]; exact h.seqs
      unused := by rw [htrace, hgseq]; exact h.unused
      stagedRows := fun row hrow => by rw [hgseq]; exact h.stagedRows row (hstaging row hrow) }
  · rw [htrace] at hr ⊢
    rw [hpend] at hr
    exact h.known r hr
  · rw [htrace] at hr ⊢
    rw [SyncState.Waits, hpend, SyncState.Forgotten, htrace, hgen']
    rcases h.located r hr with (hp | ⟨g', hg, hst⟩) | happ | ⟨hforgot, -⟩
    · exact Or.inl (Or.inl hp)
    · obtain rfl := Option.some.inj (hgen.symm.trans hg)
      by_cases happ : s.trace.Applied r
      · exact Or.inr (Or.inl happ)
      · refine Or.inr (Or.inr ⟨fun p hp => ?_, fun g' hg => (by cases hg)⟩)
        by_contra hle
        exact hkept ⟨r, hst, happ, p, hp, Nat.not_lt.mp hle⟩
    · exact Or.inr (Or.inl happ)
    · exact Or.inr (Or.inr ⟨hforgot, fun g' hg => (by cases hg)⟩)
  · rw [hth] at hph
    obtain ⟨hall, hsnap, hwin, holder, hact, hfirst⟩ := h.promoting i g' ingest snapshot version records hph
    have hsame : s'.version g' = version → s.version g' = version := fun hv =>
      le_antisymm ((hversion g').trans hv.le) holder
    refine ⟨by rw [htrace]; exact hall, hsnap, fun hv => by rw [htrace]; exact hwin (hsame hv), holder.trans (hversion g'),
      fun hv => ?_, by rw [htrace]; exact hfirst⟩
    have hsame := hact (hsame hv)
    rw [hgen] at hsame
    obtain rfl : g.generationId = g' := Option.some.inj hsame
    exact absurd hv (hlive i ingest snapshot version records hph)

theorem FlowInv.step_abandoned (h : FlowInv s) {g : Generation} (hgen : s.generation = some g)
    (reason : String) (now : Int) (hkept : ¬ s.trace.Drops g.generationId) :
    FlowInv
      { (s.setOwn ((s.own.markGenerationAbandoned g.generationId reason now).purgeStaging g.generationId)).touch
          g.generationId with generation := none } := by
  refine h.giveUp hgen rfl rfl rfl rfl rfl rfl (fun row hrow => ?_) (fun k => ?_)
    (fun i ingest snapshot version records hph => ?_) hkept
  · exact (Table.mem_deleteWhere.mp hrow).1
  · show s.version k ≤ Function.update s.version _ _ k
    rw [Function.update_apply]
    split
    · rename_i hid
      rw [hid]
      exact Nat.le_succ _
    · exact le_rfl
  · have holder := (h.promoting i _ ingest snapshot version records hph).older
    show Function.update s.version _ _ g.generationId ≠ version
    rw [Function.update_self]
    exact Nat.ne_of_gt (Nat.lt_succ_of_le holder)

theorem insertionSort_append_last {α : Type} {r : α → α → Prop} [DecidableRel r] {xs : List α} {x : α}
    (hle : ∀ y ∈ xs, r y x) : (xs ++ [x]).insertionSort r = xs.insertionSort r ++ [x] := by
  have hinsert : ∀ (ys : List α) y, r y x → (ys ++ [x]).orderedInsert r y = ys.orderedInsert r y ++ [x] := by
    intro ys y hy
    induction ys with
    | nil => simp [hy]
    | cons z ys ih =>
      rw [List.cons_append, List.orderedInsert_cons, List.orderedInsert_cons, ih]
      split <;> rfl
  induction xs with
  | nil => rfl
  | cons y ys ih =>
    rw [List.cons_append, List.insertionSort_cons, List.insertionSort_cons, ih fun z hz => hle z (List.mem_cons_of_mem _ hz)]
    exact hinsert _ y (hle y (List.mem_cons_self ..))

theorem stagedRows_stage {db db' : BrokerDb PyValue} {row : StagedRow PyValue} (h : db.stage row = some db')
    (hlast : ∀ r ∈ db.staging.rows, r.generationId = row.generationId → r.ingestSeq < row.ingestSeq) :
    db'.stagedRows row.generationId = db.stagedRows row.generationId ++ [row] := by
  obtain ⟨staging, hins, rfl⟩ := Option.map_eq_some_iff.mp h
  have hrows := (Table.insert?_eq_some hins).2
  unfold BrokerDb.stagedRows
  dsimp only
  rw [hrows, List.filter_append, List.filter_cons_of_pos (by simp), List.filter_nil]
  refine insertionSort_append_last fun r hr => ?_
  obtain ⟨hmem, hid⟩ := List.mem_filter.mp hr
  exact (hlast r hmem (by simpa using hid)).le

variable {batch : List Queued}

theorem FlowInv.step_staged (h : FlowInv s) {g : Generation} (hph : s.threads i = .applying (record :: batch))
    (hgen : s.generation = some g) (hbound : g.generationId ≤ s.own.generationSeq)
    (hown : s.own.stage (stagedRow g.generationId (s.ingestSeq + 1) record.obs) = some own)
    (hread : g.generationId ∉ s.trace.read) :
    FlowInv
      ({ s.setOwn own with
        ingestSeq := s.ingestSeq + 1
        trace := { s.trace with
          staged := Function.update s.trace.staged g.generationId
            (s.trace.staged g.generationId ++ [(s.ingestSeq + 1, record)])
          late := if g.generationId ∈ s.trace.read then s.trace.late ++ [record] else s.trace.late } }.setPhase i
        (.applying batch)) := by
  rw [if_neg hread]
  set s' : SyncState σ := SyncState.setPhase _ i (.applying batch) with hs'
  have hthread : ∀ j, s'.threads j = if j = i then .applying batch else s.threads j := fun j =>
    SyncState.setPhase_threads ..
  have hnew : s'.trace.staged g.generationId = s.trace.staged g.generationId ++ [(s.ingestSeq + 1, record)] :=
    Function.update_self ..
  have hself : s'.trace.stagedIn g.generationId = s.trace.stagedIn g.generationId ++ [record] := by
    rw [Trace.stagedIn, hnew, List.map_append]
    rfl
  have hother : ∀ g', g' ≠ g.generationId → s'.trace.staged g' = s.trace.staged g' := fun g' hg' =>
    Function.update_of_ne hg' ..
  have hmono : ∀ g' r, r ∈ s.trace.stagedIn g' → r ∈ s'.trace.stagedIn g' := by
    intro g' r hr
    by_cases hid : g' = g.generationId
    · subst hid
      rw [hself]
      exact List.mem_append_left _ hr
    · rw [Trace.stagedIn, hother g' hid]
      exact hr
  have hpast : ∀ g', g' ∈ s.trace.read → s'.trace.staged g' = s.trace.staged g' := by
    intro g' hg'
    exact hother g' (by rintro rfl; exact hread hg')
  have hpend : ∀ r, s.Pending r ↔ s'.Pending r ∨ r = record :=
    pending_drop (fun r => by rw [hph]; exact List.mem_cons) rfl rfl
  have hstagedIn : ∀ g' r, r ∈ s'.trace.stagedIn g' → r ∈ s.trace.stagedIn g' ∨ r = record := by
    intro g' r hr
    by_cases hid : g' = g.generationId
    · subst hid
      rw [hself] at hr
      simpa using hr
    · rw [Trace.stagedIn, hother g' hid] at hr
      exact Or.inl hr
  -- what was on its way still is, or is staged now
  have hmove : ∀ r, s.Pending r → s'.Pending r ∨ r ∈ s'.trace.stagedIn g.generationId := by
    intro r hr
    rcases (hpend r).mp hr with hr | rfl
    · exact Or.inl hr
    · right
      rw [hself]
      simp
  have hreads : ∀ j g', (s'.threads j).reads = some g' → (s.threads j).reads = some g' := by
    intro j g' hj
    rw [hthread] at hj
    split at hj
    · cases hj
    · exact hj
  refine
    { sent := h.sent
      known := fun r hr => ?_
      located := fun r hr => ?_
      began := h.began
      order := h.order
      active := h.active
      staged := fun g' hg r hr hb => ?_
      table := fun g' hg _ => ?_
      promoting := fun j g' ingest snapshot version records hj => ?_
      reader := fun j g' hj => h.reader j g' (hreads j g' hj)
      single := fun j k g' hj hk => h.single j k g' (hreads j g' hj) (hreads k g' hk)
      recording := fun j hj => ?_
      committed := fun j g' hj => ?_
      promoted := fun p hp => ?_
      unread := h.unread
      seqs := fun g' x hx => ?_
      unused := fun g' hg => ?_
      stagedRows := fun row hrow => ?_ }
  · refine h.known r ?_
    rcases hr with hr | ⟨g', hr⟩ | hr
    · exact Or.inl ((hpend r).mpr (Or.inl hr))
    · rcases hstagedIn g' r hr with hr | rfl
      · exact Or.inr (Or.inl ⟨g', hr⟩)
      · exact Or.inl ((hpend _).mpr (Or.inr rfl))
    · exact Or.inr (Or.inr hr)
  · rcases h.located r hr with (hp | ⟨g', hg, hst⟩) | hrest
    · rcases hmove r hp with hp | hst
      · exact Or.inl (Or.inl hp)
      · exact Or.inl (Or.inr ⟨g, hgen, hst⟩)
    · exact Or.inl (Or.inr ⟨g', hg, hmono _ r hst⟩)
    · exact Or.inr hrest
  · obtain rfl := Option.some.inj (hgen.symm.trans hg)
    rcases h.staged g hgen r hr hb with hp | hst
    · exact hmove r hp
    · exact Or.inr (hmono _ r hst)
  · obtain rfl := Option.some.inj (hgen.symm.trans hg)
    have htable := h.table g hgen hread
    have happend := stagedRows_stage hown fun row hrow hid => by
      have hmem : row ∈ s.own.stagedRows g.generationId := by
        rw [BrokerDb.stagedRows, List.mem_insertionSort, List.mem_filter]
        have hid' : row.generationId = g.generationId := hid
        exact ⟨hrow, by rw [hid', beq_self_eq_true]⟩
      rw [htable] at hmem
      obtain ⟨x, hx, rfl⟩ := List.mem_map.mp hmem
      exact Nat.lt_succ_of_le (h.seqs _ x hx)
    rw [hnew, List.map_append, ← htable]
    exact happend
  · rw [hthread] at hj
    split at hj
    · cases hj
    · obtain ⟨hall, hsnap, hwin, holder, hact, hfirst⟩ := h.promoting j g' ingest snapshot version records hj
      have hsame := hpast g' (h.reader j g' (by rw [hj]; rfl))
      refine ⟨hall.trans hsame.symm, hsnap, fun hv r hr hb hm => ?_, holder, hact, hfirst⟩
      exact hmono g' r (hwin hv r hr hb hm)
  · rw [hthread] at hj
    split at hj
    · cases hj
    · exact h.recording j hj
  · rw [hthread] at hj
    split at hj
    · cases hj
    · exact h.committed j g' hj
  · obtain ⟨hpread, hrecords, hspare, hwin⟩ := h.promoted p hp
    exact ⟨hpread, hrecords.trans (hpast _ hpread).symm, hspare, fun r hr hb hm => hmono _ r (hwin r hr hb hm)⟩
  · by_cases hid : g' = g.generationId
    · subst hid
      rw [hnew] at hx
      rcases List.mem_append.mp hx with hx | hx
      · exact (h.seqs _ x hx).trans (Nat.le_succ _)
      · rw [List.mem_singleton.mp hx]
        exact le_rfl
    · rw [hother g' hid] at hx
      exact (h.seqs g' x hx).trans (Nat.le_succ _)
  · obtain ⟨staging, -, rfl⟩ := Option.map_eq_some_iff.mp hown
    have hold := h.unused g' hg
    refine ⟨?_, hold.2⟩
    rw [hother g' (Nat.ne_of_gt (Nat.lt_of_le_of_lt hbound hg))]
    exact hold.1
  · obtain ⟨staging, hins, rfl⟩ := Option.map_eq_some_iff.mp hown
    rcases (Table.mem_insert? hins).mp hrow with hrow | rfl
    · exact h.stagedRows row hrow
    · exact hbound

theorem FlowInv.step_finished (h : FlowInv s) {changed : Option BrokerOrderRow}
    (hph : s.threads i = .recording record (.done changed) batch) (saga : σ) :
    FlowInv
      ({ s with
        saga := saga
        trace := { s.trace with done := s.trace.done ++ [Outcome.live record] } }.setPhase i (.applying batch)) := by
  set s' : SyncState σ := SyncState.setPhase _ i (.applying batch) with hs'
  have hnone : s.generation = none := h.recording i (by rw [hph]; rfl)
  have hthread : ∀ j, s'.threads j = if j = i then .applying batch else s.threads j := fun j =>
    SyncState.setPhase_threads ..
  have hpend : ∀ r, s.Pending r ↔ s'.Pending r ∨ r = record :=
    pending_drop (fun r => by rw [hph]; exact List.mem_cons) rfl rfl
  have hreads : ∀ j g, (s'.threads j).reads = some g → (s.threads j).reads = some g := by
    intro j g hj
    rw [hthread] at hj
    split at hj
    · cases hj
    · exact hj
  have hdone : ∀ o, o ∈ s'.trace.done ↔ o ∈ s.trace.done ∨ o = .live record := fun o => by
    show o ∈ s.trace.done ++ [Outcome.live record] ↔ _
    rw [List.mem_append, List.mem_singleton]
  have hpromoted : ∀ p, .promotion p ∈ s'.trace.done → .promotion p ∈ s.trace.done := fun p hp => by
    rcases (hdone _).mp hp with hp | hp
    · exact hp
    · cases hp
  have happlied : ∀ r, s.trace.Applied r → s'.trace.Applied r := fun r ⟨o, ho, hr⟩ => ⟨o, (hdone o).mpr (Or.inl ho), hr⟩
  have hnow : s'.trace.Applied record := ⟨.live record, (hdone _).mpr (Or.inr rfl), List.mem_singleton.mpr rfl⟩
  refine
    { sent := h.sent
      known := fun r hr => ?_
      located := fun r hr => ?_
      began := h.began
      order := fun first p rest hsplit o ho r hr => ?_
      active := fun g hg => by cases hnone.symm.trans hg
      staged := fun g hg => by cases hnone.symm.trans hg
      table := fun g hg => by cases hnone.symm.trans hg
      promoting := fun j g ingest snapshot version records hj => ?_
      reader := fun j g hj => h.reader j g (hreads j g hj)
      single := fun j k g hj hk => h.single j k g (hreads j g hj) (hreads k g hk)
      recording := fun _ _ => hnone
      committed := fun j g hj => ?_
      promoted := fun p hp => h.promoted p (hpromoted p hp)
      unread := h.unread
      seqs := h.seqs
      unused := h.unused
      stagedRows := h.stagedRows }
  · refine h.known r ?_
    rcases hr with hr | hr | ⟨o, ho, hr⟩
    · exact Or.inl ((hpend r).mpr (Or.inl hr))
    · exact Or.inr (Or.inl hr)
    · rcases (hdone o).mp ho with ho | rfl
      · exact Or.inr (Or.inr ⟨o, ho, hr⟩)
      · obtain rfl := List.mem_singleton.mp hr
        exact Or.inl ((hpend _).mpr (Or.inr rfl))
  · rcases h.located r hr with (hp | ⟨g, hg, -⟩) | happ | ⟨hforgot, hact⟩
    · rcases (hpend r).mp hp with hp | rfl
      · exact Or.inl (Or.inl hp)
      · exact Or.inr (Or.inl hnow)
    · cases hnone.symm.trans hg
    · exact Or.inr (Or.inl (happlied r happ))
    · exact Or.inr (Or.inr ⟨fun p hp => hforgot p (hpromoted p hp), hact⟩)
  · -- the live record is the last one, so the promotion stood in the list before
    rcases List.eq_nil_or_concat' rest with rfl | ⟨rest', last, rfl⟩
    · have hlast := List.append_inj_right' (show s.trace.done ++ [Outcome.live record] = first ++ [.promotion p] from hsplit) rfl
      simp at hlast
    · rw [show first ++ .promotion p :: (rest' ++ [last]) = (first ++ .promotion p :: rest') ++ [last] by simp] at hsplit
      have hfront := List.append_inj_left' (show s.trace.done ++ [Outcome.live record] = _ from hsplit) rfl
      exact h.order first p rest' hfront o ho r hr
  · rw [hthread] at hj
    split at hj
    · cases hj
    · obtain ⟨hall, hsnap, hwin, holder, hact, hfirst⟩ := h.promoting j g ingest snapshot version records hj
      exact ⟨hall, hsnap, hwin, holder, hact, fun p hp => hfirst p (hpromoted p hp)⟩
  · rw [hthread] at hj
    split at hj
    · cases hj
    · obtain ⟨p, hp, hid⟩ := h.committed j g hj
      exact ⟨p, (hdone _).mpr (Or.inl hp), hid⟩

theorem FlowInv.step_beganPromotion (h : FlowInv s) (hph : s.threads i = .captured g)
    (ingest : Ingest) {active : Generation} (hgen : s.generation = some active) (hid : active.generationId = g)
    (hbound : g ≤ s.own.generationSeq) (hread : g ∉ s.trace.read)
    (hpast : ∀ r, s.Pending r → r.id < s.trace.began g ∨ s.trace.marked g ≤ r.id) :
    FlowInv
      ({ s with
        writer := some i
        trace := { s.trace with read := g :: s.trace.read } }.setPhase i
          (.promoting g ingest s.db (s.version g) (s.trace.staged g))) := by
  set s' : SyncState σ := SyncState.setPhase _ i (.promoting g ingest s.db (s.version g) (s.trace.staged g)) with hs'
  have hthread : ∀ j, s'.threads j = if j = i then .promoting g ingest s.db (s.version g) (s.trace.staged g) else s.threads j :=
    fun j => SyncState.setPhase_threads ..
  have hpend : ∀ r, s'.Pending r ↔ s.Pending r :=
    pending_move (i := i) (p := .promoting g ingest s.db (s.version g) (s.trace.staged g)) (q := s.queue)
      (fun r => by rw [hph]; rfl) rfl rfl
  have hreads : ∀ j g', (s'.threads j).reads = some g' → j = i ∧ g' = g ∨ j ≠ i ∧ (s.threads j).reads = some g' := by
    intro j g' hj
    rw [hthread] at hj
    split at hj
    · cases hj
      exact Or.inl ⟨‹_›, rfl⟩
    · exact Or.inr ⟨‹_›, hj⟩
  refine
    { sent := h.sent
      known := fun r hr => ?_
      located := fun r hr => ?_
      began := h.began
      order := h.order
      active := h.active
      staged := fun g' hg r hr hb => ?_
      table := fun g' hg hread' => ?_
      promoting := fun j g' ingest' snapshot version records hj => ?_
      reader := fun j g' hj => ?_
      single := fun j k g' hj hk => ?_
      recording := fun j hj => ?_
      committed := fun j g' hj => ?_
      promoted := fun p hp => ?_
      unread := h.unread
      seqs := h.seqs
      unused := fun g' hg => ?_
      stagedRows := h.stagedRows }
  · rw [hpend] at hr
    exact h.known r hr
  · rcases h.located r hr with (hp | hst) | hrest
    · exact Or.inl (Or.inl ((hpend r).mpr hp))
    · exact Or.inl (Or.inr hst)
    · exact Or.inr hrest
  · rw [hpend]
    exact h.staged g' hg r hr hb
  · refine h.table g' hg fun hold => hread' (List.mem_cons_of_mem _ hold)
  · rw [hthread] at hj
    split at hj
    · cases hj
      refine ⟨rfl, ?_, fun _ r hr hb hm => ?_, le_rfl, fun _ => ?_, fun p hp hpid => ?_⟩
      · have htable := h.table active hgen (by rw [hid]; exact hread)
        rw [hid] at htable
        exact htable
      · rcases h.staged active hgen r hr (by rw [hid]; exact hb) with hp | hst
        · rcases hpast r hp with hlt | hle
          · exact absurd hlt (Nat.not_lt.mpr hb)
          · exact absurd hm (Nat.not_lt.mpr hle)
        · rw [hid] at hst
          exact hst
      · show s.generation.map Generation.generationId = some g
        rw [hgen, ← hid]
        rfl
      · exact hread (hpid ▸ (h.promoted p hp).1)
    · obtain ⟨hall, hsnap, hwin, holder, hact, hfirst⟩ := h.promoting j g' ingest' snapshot version records hj
      exact ⟨hall, hsnap, hwin, holder, hact, hfirst⟩
  · rcases hreads j g' hj with ⟨-, rfl⟩ | ⟨-, hj⟩
    · exact List.mem_cons_self ..
    · exact List.mem_cons_of_mem _ (h.reader j g' hj)
  · rcases hreads j g' hj with ⟨rfl, rfl⟩ | ⟨-, hj'⟩ <;> rcases hreads k _ hk with ⟨rfl, hkg⟩ | ⟨-, hk'⟩
    · rfl
    · exact absurd (h.reader k _ hk') hread
    · subst hkg
      exact absurd (h.reader j _ hj') hread
    · exact h.single j k g' hj' hk'
  · rw [hthread] at hj
    split at hj
    · cases hj
    · exact h.recording j hj
  · rw [hthread] at hj
    split at hj
    · cases hj
    · exact h.committed j g' hj
  · obtain ⟨hpread, hrest⟩ := h.promoted p hp
    exact ⟨List.mem_cons_of_mem _ hpread, hrest⟩
  · obtain ⟨hst, hold⟩ := h.unused g' hg
    refine ⟨hst, fun hmem => ?_⟩
    rcases List.mem_cons.mp hmem with rfl | hmem
    · exact absurd hbound (Nat.not_le.mpr hg)
    · exact hold hmem

/-! ## What a promotion names -/

theorem Observed.add_mono (I : Ingest) (j : BrokerJournal) (named : Observed) (record : Observation) :
    (∀ k ∈ named.positions, k ∈ (named.add I j record).positions) ∧ ∀ k ∈ named.orders, k ∈ (named.add I j record).orders := by
  cases record with
  | position o => exact ⟨fun k hk => List.mem_cons_of_mem _ hk, fun k hk => hk⟩
  | order o => exact ⟨fun k hk => hk, fun k hk => List.mem_cons_of_mem _ hk⟩
  | _ => exact ⟨fun k hk => hk, fun k hk => hk⟩

variable {I : Ingest} {named : Observed} {j : BrokerJournal}
variable {named' : Observed} {j' : BrokerJournal}

theorem applyLive_mono {records : List Observation} (h : applyLive I records named j = .ok (named', j')) :
    (∀ k ∈ named.positions, k ∈ named'.positions) ∧ ∀ k ∈ named.orders, k ∈ named'.orders := by
  induction records generalizing named j with
  | nil =>
    cases h
    exact ⟨fun k hk => hk, fun k hk => hk⟩
  | cons record rest ih =>
    rw [applyLive] at h
    split at h
    · cases h
    · obtain ⟨hpos, hord⟩ := ih h
      obtain ⟨hpos', hord'⟩ := Observed.add_mono I j named record
      exact ⟨fun k hk => hpos k (hpos' k hk), fun k hk => hord k (hord' k hk)⟩

variable {first rest : List Observation}

theorem applyLive_append :
    applyLive I (first ++ rest) named j =
      match applyLive I first named j with
      | .error e => .error e
      | .ok (named', j') => applyLive I rest named' j' := by
  induction first generalizing named j with
  | nil => rfl
  | cons record first ih =>
    rw [List.cons_append, applyLive, applyLive]
    split
    · rfl
    · exact ih

theorem applyLive_names {record : Observation} (h : applyLive I (first ++ record :: rest) named j = .ok (named', j')) :
    ∃ named1 mid, applyLive I first named j = .ok (named1, mid) ∧
      (∀ k ∈ (named1.add I mid record).positions, k ∈ named'.positions) ∧
      ∀ k ∈ (named1.add I mid record).orders, k ∈ named'.orders := by
  rw [applyLive_append] at h
  split at h
  · cases h
  · rename_i named1 mid hfirst
    rw [applyLive] at h
    split at h
    · cases h
    · exact ⟨named1, mid, hfirst, applyLive_mono h⟩

/-- **A promotion deletes nothing that one of its records names.** -/
theorem spares_named {p : Promotion}
    (h : PromotedLive p.ingest p.generationId (p.records.map (·.2.obs)) p.before p.after) : p.SparesNamed := by
  obtain ⟨named, live, hlive, habsent⟩ := h.rows
  refine ⟨named, live, hlive, fun r hr o hobs => ?_, fun first o rest hsplit named' mid hmid => ?_⟩
  · have hmem : r.2.obs ∈ p.records.map (·.2.obs) := List.mem_map_of_mem hr
    obtain ⟨first, rest, hsplit⟩ := List.append_of_mem hmem
    have hfull := hlive
    rw [hsplit, hobs] at hfull
    obtain ⟨named1, mid, -, hpos, -⟩ := applyLive_names hfull
    have hnamed : (o.accountId, o.conid) ∈ named.positions := hpos _ (List.mem_cons_self ..)
    rw [habsent.positions]
    cases hget : live.tables.own.rows.positions.get? (o.accountId, o.conid) with
    | none => rfl
    | some row =>
      have hkey : row.key = (o.accountId, o.conid) := (Table.get?_eq_some.mp hget).2
      have hkeep : p.ingest.absentPosition named row = false := by
        simp [Ingest.absentPosition, hkey, hnamed]
      simp [hkeep]
  · have hfull := hlive
    rw [hsplit] at hfull
    obtain ⟨named1, mid', hmid', -, hord⟩ := applyLive_names hfull
    cases hmid.symm.trans hmid'
    have hnamed : resolveNow p.ingest mid o ∈ named.orders := hord _ (List.mem_cons_self ..)
    rw [habsent.orders]
    cases hget : live.tables.own.rows.orders.get? (resolveNow p.ingest mid o) with
    | none => rfl
    | some row =>
      have hkey : row.orderEntityId = resolveNow p.ingest mid o := (Table.get?_eq_some.mp hget).2
      have hkeep : p.ingest.absentOrder named row = false := by
        simp [Ingest.absentOrder, hkey, hnamed]
      simp [hkeep]

theorem FlowInv.step_committed (h : FlowInv s) {ingest : Ingest} {snapshot : BrokerJournal}
    {records : List (Nat × Queued)} {cursor : Nat} {after : BrokerJournal} {tables : BrokerTables}
    (hph : s.threads i = .promoting g ingest snapshot (s.version g) records)
    (hrun : mutateBatchWork snapshot (promoteInTransaction ingest g) = (.ok cursor, after))
    (htables : promotedTables s g ingest.clock.instant cursor snapshot.tables after.tables = some tables) :
    FlowInv
      ({ s.touch g with
        db := JournalState.mk tables after.seq after.latestCommittedCursor
        writer := none
        trace := { s.trace with done := s.trace.done ++ [Outcome.promotion (Promotion.mk g ingest snapshot after records)] } }.setPhase i
          (.promoted g true)) := by
  obtain ⟨aliases, -, rfl⟩ := Option.map_eq_some_iff.mp htables
  set promotion : Promotion := Promotion.mk g ingest snapshot after records with hpromotion
  set s' : SyncState σ := SyncState.setPhase _ i (.promoted g true) with hs'
  obtain ⟨hall, hsnap, hwin, -, hlive, hfirst⟩ := h.promoting i g ingest snapshot _ records hph
  have hread : g ∈ s.trace.read := h.reader i g (by rw [hph]; rfl)
  -- the row version is that of its `BEGIN`, so the generation is still the active one
  obtain ⟨active, hgen, hid⟩ := Option.map_eq_some_iff.mp (hlive rfl)
  have hspare : promotion.SparesNamed := by
    apply spares_named
    have hstaged : snapshot.tables.own.stagedRows g =
        (records.map fun r => (r.1, r.2.obs)).map fun r => stagedRow g r.1 r.2 := by
      rw [hsnap, List.map_map]
      rfl
    have hlive' := promote_live hstaged hrun
    rw [List.map_map] at hlive'
    exact hlive'
  have hthread : ∀ j, s'.threads j = if j = i then .promoted g true else s.threads j := fun j =>
    SyncState.setPhase_threads ..
  have hpend : ∀ r, s'.Pending r ↔ s.Pending r :=
    pending_move (i := i) (p := .promoted g true) (q := s.queue) (fun r => by rw [hph]; rfl) rfl rfl
  have hdone : ∀ o, o ∈ s'.trace.done ↔ o ∈ s.trace.done ∨ o = .promotion promotion := fun o => by
    show o ∈ s.trace.done ++ [Outcome.promotion promotion] ↔ _
    rw [List.mem_append, List.mem_singleton]
  have hreads : ∀ j g', (s'.threads j).reads = some g' → (s.threads j).reads = some g' := by
    intro j g' hj
    rw [hthread] at hj
    split at hj
    · rename_i hji
      cases hj
      rw [hji, hph]
      rfl
    · exact hj
  have hbefore : ∀ o ∈ s.trace.done, ∀ r ∈ o.records, r.id < s.trace.began g := by
    intro o ho r hr
    rcases h.active active hgen o ho with hlt | ⟨p, rfl, hpid⟩
    · rw [← hid]
      exact hlt r hr
    · exact absurd (hpid.trans hid) (hfirst p ho)
  have hmem : ∀ r, r ∈ (Outcome.promotion promotion).records ↔ r ∈ s.trace.stagedIn g := fun r => by
    show r ∈ records.map Prod.snd ↔ _
    rw [hall]
    rfl
  refine
    { sent := h.sent
      known := fun r hr => ?_
      located := fun r hr => ?_
      began := h.began
      order := fun first p rest hsplit o ho r hr => ?_
      active := fun g' hg o ho => ?_
      staged := fun g' hg r hr hb => ?_
      table := fun g' hg hread' => ?_
      promoting := fun j g' ingest' snapshot' version records' hj => ?_
      reader := fun j g' hj => h.reader j g' (hreads j g' hj)
      single := fun j k g' hj hk => h.single j k g' (hreads j g' hj) (hreads k g' hk)
      recording := fun j hj => ?_
      committed := fun j g' hj => ?_
      promoted := fun p hp => ?_
      unread := h.unread
      seqs := h.seqs
      unused := h.unused
      stagedRows := fun row hrow => h.stagedRows row (Table.mem_deleteWhere.mp hrow).1 }
  · rw [hpend] at hr
    refine h.known r ?_
    rcases hr with hr | hr | ⟨o, ho, hr⟩
    · exact Or.inl hr
    · exact Or.inr (Or.inl hr)
    · rcases (hdone o).mp ho with ho | rfl
      · exact Or.inr (Or.inr ⟨o, ho, hr⟩)
      · exact Or.inr (Or.inl ⟨g, (hmem r).mp hr⟩)
  · rcases h.located r hr with (hp | hst) | ⟨o, ho, hro⟩ | ⟨hforgot, hact⟩
    · exact Or.inl (Or.inl ((hpend r).mpr hp))
    · exact Or.inl (Or.inr hst)
    · exact Or.inr (Or.inl ⟨o, (hdone o).mpr (Or.inl ho), hro⟩)
    · refine Or.inr (Or.inr ⟨fun p hp => ?_, hact⟩)
      rcases (hdone _).mp hp with hp | hp
      · exact hforgot p hp
      · cases hp
        have hlt := hact active hgen
        rw [hid] at hlt
        exact hlt
  · rcases List.eq_nil_or_concat' rest with rfl | ⟨rest', last, rfl⟩
    · have hsplit' : s.trace.done ++ [Outcome.promotion promotion] = first ++ [.promotion p] := hsplit
      obtain rfl := List.append_inj_left' hsplit' rfl
      have hlast := List.append_inj_right' hsplit' rfl
      cases List.singleton_inj.mp hlast
      exact hbefore o ho r hr
    · rw [show first ++ .promotion p :: (rest' ++ [last]) = (first ++ .promotion p :: rest') ++ [last] by simp] at hsplit
      have hfront := List.append_inj_left' (show s.trace.done ++ [Outcome.promotion promotion] = _ from hsplit) rfl
      exact h.order first p rest' hfront o ho r hr
  · rcases (hdone o).mp ho with ho | rfl
    · exact h.active g' hg o ho
    · obtain rfl := Option.some.inj (hgen.symm.trans hg)
      exact Or.inr ⟨promotion, rfl, hid.symm⟩
  · rw [hpend]
    exact h.staged g' hg r hr hb
  · obtain rfl := Option.some.inj (hgen.symm.trans hg)
    exact absurd hread (hid ▸ hread')
  · rw [hthread] at hj
    split at hj
    · cases hj
    · rename_i hji
      have hne : g' ≠ g := by
        rintro rfl
        exact hji (h.single j i g' (by rw [hj]; rfl) (by rw [hph]; rfl))
      obtain ⟨hall', hsnap', hwin', holder', hlive', hfirst'⟩ := h.promoting j g' ingest' snapshot' version records' hj
      have hversion : s'.version g' = s.version g' := Function.update_of_ne hne ..
      refine ⟨hall', hsnap', by rw [hversion]; exact hwin', by rw [hversion]; exact holder', by rw [hversion]; exact hlive', fun p hp => ?_⟩
      rcases (hdone _).mp hp with hp | hp
      · exact hfirst' p hp
      · cases hp
        exact Ne.symm hne
  · rw [hthread] at hj
    split at hj
    · cases hj
    · exact h.recording j hj
  · rw [hthread] at hj
    split at hj
    · cases hj
      exact ⟨promotion, (hdone _).mpr (Or.inr rfl), rfl⟩
    · obtain ⟨p, hp, hpid⟩ := h.committed j g' hj
      exact ⟨p, (hdone _).mpr (Or.inl hp), hpid⟩
  · rcases (hdone _).mp hp with hp | hp
    · exact h.promoted p hp
    · cases hp
      exact ⟨hread, hall, hspare, hwin rfl⟩

/-- The staged records of a generation that was promoted count no more. -/
theorem FlowInv.not_drops (h : FlowInv s) (hph : s.threads i = .promoted g true) : ¬ s.trace.Drops g := by
  rintro ⟨r, hr, hnot, -⟩
  obtain ⟨p, hp, rfl⟩ := h.committed i g hph
  obtain ⟨-, hrecords, -⟩ := h.promoted p hp
  refine hnot ⟨_, hp, ?_⟩
  rw [Outcome.records, hrecords]
  exact hr

theorem FlowInv.step_cleared (h : FlowInv s) {committed : Bool} (hph : s.threads i = .promoted g committed)
    (hkept : committed = false → s.generation.map Generation.generationId = some g → ¬ s.trace.Drops g) :
    FlowInv
      ({ s with
        suppress := false
        generation := if s.generation.map Generation.generationId = some g then none else s.generation }.setPhase i
          (if committed then .reconciling else .idle)) := by
  have hcleared : FlowInv { s with
      suppress := false
      generation := if s.generation.map Generation.generationId = some g then none else s.generation } := by
    by_cases hact : s.generation.map Generation.generationId = some g
    · rw [if_pos hact]
      obtain ⟨active, hgen, rfl⟩ := Option.map_eq_some_iff.mp hact
      refine h.giveUp hgen rfl rfl rfl rfl rfl rfl (fun row hrow => hrow) (fun k => le_rfl)
        (fun j ingest snapshot version records hj => ?_) ?_
      · -- only one thread works on the generation
        obtain rfl := h.single j i active.generationId (by rw [hj]; rfl) (by rw [hph]; rfl)
        rw [hph] at hj
        cases hj
      · cases committed with
        | true => exact h.not_drops hph
        | false => exact hkept rfl hact
    · rw [if_neg hact]
      exact h.shift rfl rfl rfl rfl le_rfl (fun _ => Iff.rfl) (fun _ _ hj => hj) (fun _ _ _ _ _ _ hj => hj)
        (fun _ _ hj => hj) h.recording
  refine hcleared.move (i := i) (p := if committed then .reconciling else .idle) (q := s.queue) (fun r => ?_)
    rfl rfl rfl rfl rfl rfl le_rfl ?_ ?_ ?_ ?_
  · show _ ↔ r ∈ s.queue ∨ r ∈ (s.threads i).records
    rw [hph]
    cases committed <;> rfl
  · cases committed <;> exact fun g' hg' => by cases hg'
  · cases committed <;> exact fun _ _ _ _ _ hp => by cases hp
  · cases committed <;> exact fun _ hp => by cases hp
  · cases committed <;> exact fun hp => by cases hp

theorem afterBatch_plain (i : Nat) : (afterBatch i).records = [] ∧ (afterBatch i).reads = none ∧
    (∀ g ingest snapshot version records, afterBatch i ≠ .promoting g ingest snapshot version records) ∧
    (∀ g, afterBatch i ≠ .promoted g true) ∧ (afterBatch i).isRecording = false := by
  unfold afterBatch
  split <;> exact ⟨rfl, rfl, fun _ _ _ _ _ hp => (by cases hp), fun _ hp => (by cases hp), rfl⟩

theorem FlowInv.plain (h : FlowInv s)
    (hmove : ∀ r, (r ∈ q ∨ r ∈ p.records) ↔ (r ∈ s.queue ∨ r ∈ (s.threads i).records)) (hq : s'.queue = q)
    (hth : s'.threads = Function.update s.threads i p) (hgen : s'.generation = s.generation) (htrace : s'.trace = s.trace)
    (hown : syncTables s'.own = syncTables s.own) (hversion : s'.version = s.version) (hseq : s.ingestSeq ≤ s'.ingestSeq)
    (hreads : p.reads = none) (hrec : p.isRecording = true → s.generation = none) : FlowInv s' :=
  h.move hmove hq hth hgen htrace hown hversion hseq (fun g hg => by rw [hreads] at hg; cases hg)
    (fun g ingest snapshot version records hp => by rw [hp] at hreads; cases hreads)
    (fun g hp => by rw [hp] at hreads; cases hreads) hrec

/-- **Every careful step that raises nothing keeps the invariant.** -/
theorem FlowInv.step (h : FlowInv s) (hl : LockInv s) (hs : SourceInv s) {a : SyncAction}
    (hc : CarefulSync s a) (hraised : (syncStep port s a).trace.raised = false) : FlowInv (syncStep port s a) := by
  -- the active generation has its row
  have hbound : ∀ g, s.generation = some g → g.generationId ≤ s.own.generationSeq := by
    intro g hg
    obtain ⟨row, hrow, -⟩ := hs.row g hg
    obtain ⟨hmem, hid⟩ := Table.get?_eq_some.mp hrow
    exact hid ▸ hl.bounded row hmem
  have hout := syncStep_outcome port s a
  generalize syncStep port s a = s' at hout hraised
  cases hout with
  | same => exact h
  | enqueued obs => exact h.enqueue obs
  | began required now hlock hgen => exact h.step_began hl required now hlock hgen
  | marked source g own hlock hgen hreq hown => exact h.step_marked hgen hown (hc g hlock hgen hreq)
  | abandoned reason now g hlock hgen => exact h.step_abandoned hgen reason now (hc g hlock hgen)
  | held hlock hgen =>
    exact h.shift rfl rfl rfl rfl le_rfl (fun _ => Iff.rfl) (fun _ _ hj => hj) (fun _ _ _ _ _ _ hj => hj)
      (fun _ _ hj => hj) h.recording
  | unheld hlock =>
    exact h.shift rfl rfl rfl rfl le_rfl (fun _ => Iff.rfl) (fun _ _ hj => hj) (fun _ _ _ _ _ _ hj => hj)
      (fun _ _ hj => hj) h.recording
  | took first rest hph hq =>
    refine h.plain (fun r => ?_) rfl rfl rfl rfl rfl rfl le_rfl rfl (fun hr => (by cases hr))
    rw [hph, hq]
    simp only [Phase.records, List.mem_cons, List.not_mem_nil, or_false]
    tauto
  | startedPromote i hph => exact h.plain (fun r => by rw [hph]; rfl) rfl rfl rfl rfl rfl rfl le_rfl rfl fun hr => by cases hr
  | popped i batch first rest hph hq =>
    refine h.plain (fun r => ?_) rfl rfl rfl rfl rfl rfl le_rfl rfl (fun hr => (by cases hr))
    rw [hph, hq]
    simp only [Phase.records, List.mem_append, List.mem_cons, List.not_mem_nil, or_false]
    tauto
  | emptied i hph =>
    obtain ⟨hrecords, hreads, -, -, hrec⟩ := afterBatch_plain i
    refine h.plain (fun r => ?_) rfl rfl rfl rfl rfl rfl le_rfl hreads (fun hr => ?_)
    · rw [hph, hrecords]
      rfl
    · rw [hrec] at hr
      cases hr
  | collected i batch hph => exact h.plain (fun r => by rw [hph]; rfl) rfl rfl rfl rfl rfl rfl le_rfl rfl fun hr => by cases hr
  | acquired i batch hph hlock =>
    exact h.plain (fun r => by rw [hph]; rfl) rfl rfl rfl rfl rfl rfl le_rfl rfl fun hr => by cases hr
  | raised a i db ingestSeq hph hdb => cases hraised
  | started i ingest record batch hph hgen =>
    exact h.plain (fun r => by rw [hph]; rfl) rfl rfl rfl rfl rfl rfl (Nat.le_succ _) rfl fun _ => hgen
  | staged i ingest record batch g own hph hgen hown =>
    exact h.step_staged hph hgen (hbound g hgen) hown (hc g record batch hph hgen)
  | released i ingest hph =>
    obtain ⟨hrecords, hreads, -, -, hrec⟩ := afterBatch_plain i
    refine h.plain (fun r => ?_) rfl rfl rfl rfl rfl rfl le_rfl hreads (fun hr => ?_)
    · rw [hph, hrecords]
      rfl
    · rw [hrec] at hr
      cases hr
  | finished i record changed batch hph =>
    obtain ⟨saga, heq⟩ := notifySaga_frame port s record.obs changed
    rw [heq]
    exact h.step_finished hph saga
  | readTables i record next batch hph =>
    exact h.plain (fun r => by rw [hph]; rfl) rfl rfl rfl rfl rfl rfl le_rfl rfl fun _ => h.recording i (by rw [hph]; rfl)
  | wrote i record write next batch own hph hown =>
    have hk := hl.works i
    rw [hph] at hk
    cases hk with
    | writeOwn hw hk =>
      exact h.plain (fun r => by rw [hph]; rfl) rfl rfl rfl rfl (hw _ _ hown) rfl le_rfl rfl
        fun _ => h.recording i (by rw [hph]; rfl)
  | appended i record m write eventId receivedTs next batch event db hph hwriter hdb =>
    have hk := hl.works i
    rw [hph] at hk
    exact h.plain (fun r => by rw [hph]; rfl) rfl rfl rfl rfl (appended_keeps hk hdb) rfl le_rfl rfl
      fun _ => h.recording i (by rw [hph]; rfl)
  | captured i g hph hlock hgen hcomplete =>
    exact h.plain (fun r => by rw [hph]; rfl) rfl rfl rfl rfl rfl rfl le_rfl rfl fun hr => by cases hr
  | notCaptured i hph => exact h.plain (fun r => by rw [hph]; rfl) rfl rfl rfl rfl rfl rfl le_rfl rfl fun hr => by cases hr
  | beganPromotion i ingest g hph hwriter =>
    obtain ⟨hact, hread, hpast⟩ := hc g hph hwriter
    obtain ⟨active, hgen, hid⟩ := Option.map_eq_some_iff.mp hact
    exact h.step_beganPromotion hph ingest hgen hid (hid ▸ hbound active hgen) hread hpast
  | committed i g ingest snapshot records cursor after tables hph hrun htables => exact h.step_committed hph hrun htables
  | rolledBack a i g seq ingest snapshot version records hph =>
    refine h.move (fun r => by rw [hph]; rfl) rfl rfl rfl rfl rfl rfl le_rfl (fun g' hg' => ?_)
      (fun _ _ _ _ _ hp => (by cases hp)) (fun _ hp => (by cases hp)) (fun hr => (by cases hr))
    rw [hph]
    exact hg'
  | cleared i g committed hph hlock =>
    refine h.step_cleared hph fun hc' hact => ?_
    subst hc'
    exact hc g hph hlock hact
  | reconciled i hph => exact h.plain (fun r => by rw [hph]; rfl) rfl rfl rfl rfl rfl rfl le_rfl rfl fun hr => by cases hr

theorem FlowInv.start (stored : StoredDb) (saga : σ) : FlowInv (SyncState.start stored saga) where
  sent := fun r hr => (by cases hr)
  known := by
    rintro r ((hr | ⟨i, hr⟩) | ⟨g, hr⟩ | ⟨o, ho, -⟩)
    · cases hr
    · cases hr
    · cases hr
    · cases ho
  located := fun r hr => (by cases hr)
  began := fun g => ⟨le_rfl, le_rfl⟩
  order := fun first p rest hdone => by
    have hnil : ([] : List Outcome) = first ++ .promotion p :: rest := hdone
    simp at hnil
  active := fun g hg => (by cases hg)
  staged := fun g hg => (by cases hg)
  table := fun g hg => (by cases hg)
  promoting := fun i g ingest snapshot version records hph => (by cases hph)
  reader := fun i g hi => (by cases hi)
  single := fun i j g hi => (by cases hi)
  recording := fun i hi => rfl
  committed := fun i g hi => (by cases hi)
  promoted := fun p hp => (by cases hp)
  unread := rfl
  seqs := fun g x hx => (by cases hx)
  unused := fun g hg => ⟨rfl, fun hr => (by cases hr)⟩
  stagedRows := stored.staging_le

/-! ## Runs -/

theorem raised_step (s : SyncState σ) (a : SyncAction) (h : s.trace.raised = true) :
    (syncStep port s a).trace.raised = true := by
  have hout := syncStep_outcome port s a
  generalize syncStep port s a = s' at hout
  cases hout with
  | raised => rfl
  | finished => exact h
  | _ => exact h

theorem syncRun_flow {stored : StoredDb} {saga : σ} {run : List SyncAction}
    (h : Meets (syncStep port) CarefulSync (SyncState.start stored saga) run)
    (hraised : (syncRun port stored saga run).trace.raised = false) : FlowInv (syncRun port stored saga run) := by
  induction run using List.reverseRecOn with
  | nil => exact FlowInv.start stored saga
  | append_singleton run a ih =>
    obtain ⟨hfirst, hlast, -⟩ := Meets.append.mp h
    have hbefore : (syncRun port stored saga run).trace.raised = false := by
      rw [← Bool.not_eq_true]
      intro htrue
      rw [syncRun_append] at hraised
      have hstill : (syncStep port (syncRun port stored saga run) a).trace.raised = true := raised_step _ a htrue
      exact absurd (hraised.symm.trans hstill) (by decide)
    rw [syncRun_append] at hraised ⊢
    obtain ⟨hlock, hsource⟩ := syncRun_inv port stored saga run
    exact (ih hfirst hbefore).step hlock hsource hlast hraised

/-- What is promised of an interleaving: no observation is lost up to the first batch that raises. -/
def LosesNothing (port : SagaPort σ) (stored : StoredDb) (saga : σ) (run : List SyncAction) : Prop :=
  ∀ pre, pre <+: run → (syncRun port stored saga pre).trace.raised = false → NothingLost (syncRun port stored saga pre)

/-- **Nothing observed in a sync is lost** in a run whose steps are careful. -/
theorem nothing_lost (stored : StoredDb) (saga : σ) (run : List SyncAction)
    (h : Meets (syncStep port) CarefulSync (SyncState.start stored saga) run) : LosesNothing port stored saga run :=
  fun _ hpre hraised => (syncRun_flow (h.of_prefix hpre) hraised).nothingLost

def stagedThenPromoted : List SyncAction :=
  [.beginGeneration ["positions"] 0, .enqueue (.position stagedPosition), .takeFirst, .queueEmpty 0, .acquire 0,
    .nextRecord 0 (longIngest demoTime), .nextRecord 0 (longIngest demoTime), .markSourceComplete "positions",
    .startPromote 1, .queueEmpty 1, .capture 1, .beginPromotion 1 (longIngest demoTime), .commitPromotion 1,
    .clearGeneration 1, .reconcileSaga 1]

theorem nothing_lost_staged : LosesNothing noSaga positionDb () stagedThenPromoted := by
  refine nothing_lost positionDb () stagedThenPromoted ⟨trivial, trivial, trivial, trivial, trivial, ?_, ?_, ?_,
    trivial, trivial, trivial, ?_, trivial, ?_, trivial, trivial⟩
  · intro g record batch _ _ hread
    cases hread
  · intro g record batch _ _ hread
    cases hread
  · rintro g - - - ⟨p, hp, -⟩
    cases hp
  · intro g hph _
    cases hph
    refine ⟨rfl, fun hread => (by cases hread), fun r hr => ?_⟩
    -- no thread has a record in its hands
    rcases hr with hr | ⟨i, hr⟩
    · cases hr
    · match i with
      | 0 => cases hr
      | 1 => cases hr
      | _ + 2 => cases hr
  · intro g hph _ _
    cases hph

/-! ## A batch that was popped before the promotion -/

/-- The drain thread has popped the position and waits for the apply lock while the generation is
    completed, captured and promoted. -/
def poppedBeforePromotion : List SyncAction :=
  [.beginGeneration ["positions"] 0, .enqueue (.position stagedPosition), .takeFirst, .queueEmpty 0,
    .markSourceComplete "positions", .startPromote 1, .queueEmpty 1, .capture 1, .beginPromotion 1 (longIngest demoTime),
    .commitPromotion 1]

/-- **The promotion misses the position, and deletes its row.** -/
theorem late_batch_lost :
    (syncRun noSaga positionDb () poppedBeforePromotion).db.tables.own.rows.positions.rows.map (·.deleted) = [true] ∧
      ¬ LosesNothing noSaga positionDb () poppedBeforePromotion := by
  refine ⟨rfl, fun h => ?_⟩
  have hmem : (⟨0, .position stagedPosition⟩ : Queued) ∈ (syncRun noSaga positionDb () poppedBeforePromotion).trace.sent :=
    List.mem_singleton.mpr rfl
  have hlost := (h poppedBeforePromotion (List.prefix_refl _) rfl).window _ (List.mem_singleton.mpr rfl) _ hmem (by decide)
    (by decide)
  cases hlost

end MmrTrader.Broker
