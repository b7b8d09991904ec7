import MmrTrader.Broker.ApplySteps
import MmrTrader.Broker.Sync

/-!
# What one step of a sync does

* `SyncOutcome`, `syncStep_outcome` — every way a step can go, with what it requires and the state it
  leads to; the invariants of the other modules are case analyses over it;
* `LockInv.step` — the apply lock, and what a live record leaves alone.
-/

namespace MmrTrader.Broker

open MmrTrader.Lib
open MmrTrader.Journal (DomainEvent DomainMutation JournalState Work autocommit_keeps WriteMaterialized mutateBatchWork mutateBatchWork_error)

variable {σ : Type}

def Phase.holdsLock : Phase → Bool
  | .applying _ | .recording _ _ _ => true
  | _ => false

/-- Every way an action can go. -/
inductive SyncOutcome (port : SagaPort σ) (s : SyncState σ) : SyncAction → SyncState σ → Prop where
  | same (a : SyncAction) : SyncOutcome port s a s
  | enqueued (obs : Observation) : SyncOutcome port s (.enqueue obs) (enqueue s obs)
  | began (required : List String) (now : Int) (hlock : s.lock = none) (hgen : s.generation = none) :
      SyncOutcome port s (.beginGeneration required now)
        { (s.setOwn (s.own.openGeneration required now).2).touch (s.own.generationSeq + 1) with
          generation := some ⟨s.own.generationSeq + 1, required, []⟩
          trace := { s.trace with
            began := Function.update s.trace.began (s.own.generationSeq + 1) s.trace.sent.length
            marked := Function.update s.trace.marked (s.own.generationSeq + 1) s.trace.sent.length } }
  | marked (source : String) (g : Generation) (own : BrokerDb PyValue) (hlock : s.lock = none)
      (hgen : s.generation = some g) (hreq : source ∈ g.required)
      (hown : s.own.markSourceComplete g.generationId source = some own) :
      SyncOutcome port s (.markSourceComplete source)
        { (s.setOwn own).touch g.generationId with
          generation := some { g with complete := source :: g.complete }
          trace := { s.trace with marked := Function.update s.trace.marked g.generationId s.trace.sent.length } }
  | abandoned (reason : String) (now : Int) (g : Generation) (hlock : s.lock = none) (hgen : s.generation = some g) :
      SyncOutcome port s (.abandonGeneration reason now)
        { (s.setOwn ((s.own.markGenerationAbandoned g.generationId reason now).purgeStaging g.generationId)).touch
            g.generationId with generation := none }
  | held (hlock : s.lock = none) (hgen : s.generation = none) :
      SyncOutcome port s .holdEnter { s with lock := some .hold }
  | unheld (hlock : s.lock = some .hold) : SyncOutcome port s .holdExit { s with lock := none }
  | took (first : Queued) (rest : List Queued) (hph : s.threads 0 = .idle) (hq : s.queue = first :: rest) :
      SyncOutcome port s .takeFirst ({ s with queue := rest }.setPhase 0 (.collecting [first]))
  | startedPromote (i : Nat) (hph : s.threads i = .idle) :
      SyncOutcome port s (.startPromote i) (s.setPhase i (.collecting []))
  | popped (i : Nat) (batch : List Queued) (first : Queued) (rest : List Queued) (hph : s.threads i = .collecting batch)
      (hq : s.queue = first :: rest) :
      SyncOutcome port s (.pop i) ({ s with queue := rest }.setPhase i (.collecting (batch ++ [first])))
  | emptied (i : Nat) (hph : s.threads i = .collecting []) :
      SyncOutcome port s (.queueEmpty i) (s.setPhase i (afterBatch i))
  | collected (i : Nat) (batch : List Queued) (hph : s.threads i = .collecting batch) :
      SyncOutcome port s (.queueEmpty i) (s.setPhase i (.waiting batch))
  | acquired (i : Nat) (batch : List Queued) (hph : s.threads i = .waiting batch) (hlock : s.lock = none) :
      SyncOutcome port s (.acquire i) ({ s with lock := some (.thread i) }.setPhase i (.applying batch))
  | raised (a : SyncAction) (i : Nat) (db : BrokerJournal) (ingestSeq : Nat) (hph : (s.threads i).holdsLock = true)
      (hdb : db.tables = s.db.tables) :
      SyncOutcome port s a (raiseBatch { s with db := db, ingestSeq := ingestSeq } i)
  | started (i : Nat) (ingest : Ingest) (record : Queued) (batch : List Queued)
      (hph : s.threads i = .applying (record :: batch)) (hgen : s.generation = none) :
      SyncOutcome port s (.nextRecord i ingest)
        ({ s with ingestSeq := s.ingestSeq + 1 }.setPhase i (.recording record (applyRecord ingest record.obs) batch))
  | staged (i : Nat) (ingest : Ingest) (record : Queued) (batch : List Queued) (g : Generation) (own : BrokerDb PyValue)
      (hph : s.threads i = .applying (record :: batch)) (hgen : s.generation = some g)
      (hown : s.own.stage (stagedRow g.generationId (s.ingestSeq + 1) record.obs) = some own) :
      SyncOutcome port s (.nextRecord i ingest)
        ({ s.setOwn own with
          ingestSeq := s.ingestSeq + 1
          trace := { s.trace with
            staged := Function.update s.trace.staged g.generationId
              (s.trace.staged g.generationId ++ [(s.ingestSeq + 1, record)])
            late := if g.generationId ∈ s.trace.read then s.trace.late ++ [record] else s.trace.late } }.setPhase i
          (.applying batch))
  | released (i : Nat) (ingest : Ingest) (hph : s.threads i = .applying []) :
      SyncOutcome port s (.nextRecord i ingest) ({ s with lock := none }.setPhase i (afterBatch i))
  | finished (i : Nat) (record : Queued) (changed : Option BrokerOrderRow) (batch : List Queued)
      (hph : s.threads i = .recording record (.done changed) batch) :
      SyncOutcome port s (.continueRecord i)
        ({ notifySaga port s record.obs changed with
          trace := { s.trace with done := s.trace.done ++ [Outcome.live record] } }.setPhase i (.applying batch))
  | readTables (i : Nat) (record : Queued) (next : BrokerTables → IngestWork (Option BrokerOrderRow)) (batch : List Queued)
      (hph : s.threads i = .recording record (.read next) batch) :
      SyncOutcome port s (.continueRecord i) (s.setPhase i (.recording record (next s.db.tables) batch))
  | wrote (i : Nat) (record : Queued) (write : BrokerDb PyValue → Except IngestError (BrokerDb PyValue))
      (next : IngestWork (Option BrokerOrderRow)) (batch : List Queued) (own : BrokerDb PyValue)
      (hph : s.threads i = .recording record (.writeOwn write next) batch) (hown : write s.own = .ok own) :
      SyncOutcome port s (.continueRecord i) ((s.setOwn own).setPhase i (.recording record next batch))
  | appended (i : Nat) (record : Queued) (m : DomainMutation Cell)
      (write : WriteMaterialized Cell (BrokerDb PyValue) IngestError) (eventId : String) (receivedTs : Int)
      (next : DomainEvent Cell → IngestWork (Option BrokerOrderRow)) (batch : List Queued) (event : DomainEvent Cell)
      (db : BrokerJournal) (hph : s.threads i = .recording record (.append m write eventId receivedTs next) batch)
      (hwriter : s.writer = none)
      (hdb : mutateBatchWork s.db (.append m write eventId receivedTs .done) = (.ok event, db)) :
      SyncOutcome port s (.continueRecord i) ({ s with db := db }.setPhase i (.recording record (next event) batch))
  | captured (i : Nat) (g : Generation) (hph : s.threads i = .drained) (hlock : s.lock = none)
      (hgen : s.generation = some g) (hcomplete : g.isComplete = true) :
      SyncOutcome port s (.capture i) ({ s with suppress := true }.setPhase i (.captured g.generationId))
  | notCaptured (i : Nat) (hph : s.threads i = .drained) : SyncOutcome port s (.capture i) (s.setPhase i .idle)
  | beganPromotion (i : Nat) (ingest : Ingest) (g : Nat) (hph : s.threads i = .captured g) (hwriter : s.writer = none) :
      SyncOutcome port s (.beginPromotion i ingest)
        ({ s with
          writer := some i
          trace := { s.trace with read := g :: s.trace.read } }.setPhase i
            (.promoting g ingest s.db (s.version g) (s.trace.staged g)))
  | committed (i g : Nat) (ingest : Ingest) (snapshot : BrokerJournal) (records : List (Nat × Queued)) (cursor : Nat)
      (after : BrokerJournal) (tables : BrokerTables)
      (hph : s.threads i = .promoting g ingest snapshot (s.version g) records)
      (hrun : mutateBatchWork snapshot (promoteInTransaction ingest g) = (.ok cursor, after))
      (htables : promotedTables s g ingest.clock.instant cursor snapshot.tables after.tables = some tables) :
      SyncOutcome port s (.commitPromotion i)
        ({ s.touch g with
          db := JournalState.mk tables after.seq after.latestCommittedCursor
          writer := none
          trace := { s.trace with done := s.trace.done ++ [Outcome.promotion (Promotion.mk g ingest snapshot after records)] } }.setPhase i
            (.promoted g true))
  | rolledBack (a : SyncAction) (i g seq : Nat) (ingest : Ingest) (snapshot : BrokerJournal) (version : Nat)
      (records : List (Nat × Queued)) (hph : s.threads i = .promoting g ingest snapshot version records) :
      SyncOutcome port s a (rollbackPromotion s i g seq)
  | cleared (i g : Nat) (committed : Bool) (hph : s.threads i = .promoted g committed) (hlock : s.lock = none) :
      SyncOutcome port s (.clearGeneration i)
        ({ s with
          suppress := false
          generation := if s.generation.map Generation.generationId = some g then none else s.generation }.setPhase i
            (if committed then .reconciling else .idle))
  | reconciled (i : Nat) (hph : s.threads i = .reconciling) :
      SyncOutcome port s (.reconcileSaga i)
        ({ s with saga := port.reconcileTerminalEntries s.saga s.db.tables }.setPhase i .idle)

theorem nextRecord_outcome (port : SagaPort σ) (s : SyncState σ) (i : Nat) (ingest : Ingest) :
    SyncOutcome port s (.nextRecord i ingest) (nextRecord s i ingest) := by
  unfold nextRecord
  split
  · rename_i record batch hph
    dsimp only
    split
    · rename_i hgen
      exact .started i ingest record batch hph hgen
    · rename_i g hgen
      split
      · exact .raised _ i s.db _ (by rw [hph]; rfl) rfl
      · rename_i own hown
        exact .staged i ingest record batch g own hph hgen hown
  · rename_i hph
    exact .released i ingest hph
  · exact .same _

theorem continueRecord_outcome (port : SagaPort σ) (s : SyncState σ) (i : Nat) :
    SyncOutcome port s (.continueRecord i) (continueRecord port s i) := by
  unfold continueRecord
  split
  · rename_i record work batch hph
    have hlock : (s.threads i).holdsLock = true := by
      rw [hph]
      rfl
    cases work with
    | done changed =>
      have htrace : (notifySaga port s record.obs changed).trace = s.trace := by
        unfold notifySaga
        split
        · split <;> rfl
        · rfl
      dsimp only
      rw [htrace]
      exact .finished i record changed batch hph
    | fail e => exact .raised _ i s.db _ hlock rfl
    | read next => exact .readTables i record next batch hph
    | writeOwn write next =>
      dsimp only
      split
      · exact .raised _ i s.db _ hlock rfl
      · rename_i own hown
        exact .wrote i record write next batch own hph hown
    | append m write eventId receivedTs next =>
      dsimp only
      split
      · exact .same _
      · rename_i hwriter
        split
        · rename_i e db hdb
          have hfailed : (mutateBatchWork s.db (.append m write eventId receivedTs .done)).1 = .error e := by rw [hdb]
          have htables := (mutateBatchWork_error hfailed).1
          rw [hdb] at htables
          exact .raised _ i db _ hlock htables
        · rename_i event db hdb
          exact .appended i record m write eventId receivedTs next batch event db hph (by simpa using hwriter) hdb
  · exact .same _

theorem commitPromotion_outcome (port : SagaPort σ) (s : SyncState σ) (i : Nat) :
    SyncOutcome port s (.commitPromotion i) (commitPromotion s i) := by
  unfold commitPromotion
  split
  · rename_i g ingest snapshot version records hph
    split
    · exact .rolledBack _ i g _ ingest snapshot version records hph
    · rename_i cursor after hrun
      split
      · exact .rolledBack _ i g _ ingest snapshot version records hph
      · rename_i hversion
        obtain rfl : s.version g = version := not_not.mp hversion
        split
        · exact .rolledBack _ i g _ ingest snapshot _ records hph
        · rename_i tables htables
          exact .committed i g ingest snapshot records cursor after tables hph hrun htables
  · exact .same _

/-- **Inversion of a step.** -/
theorem syncStep_outcome (port : SagaPort σ) (s : SyncState σ) (a : SyncAction) : SyncOutcome port s a (syncStep port s a) := by
  cases a with
  | enqueue obs => exact .enqueued obs
  | beginGeneration required now =>
    simp only [syncStep, beginGeneration]
    split
    · exact .same _
    · rename_i h
      simp only [not_or, Bool.not_eq_true, Option.isSome_eq_false_iff, Option.isNone_iff_eq_none] at h
      exact .began required now h.1 h.2.1
  | markSourceComplete source =>
    simp only [syncStep, markSourceComplete]
    split
    · exact .same _
    · rename_i hlock
      split
      · exact .same _
      · rename_i g hgen
        split
        · exact .same _
        · rename_i hreq
          split
          · exact .same _
          · rename_i own hown
            exact .marked source g own (by simpa using hlock) hgen (not_not.mp hreq) hown
  | abandonGeneration reason now =>
    simp only [syncStep, abandonGeneration]
    split
    · exact .same _
    · rename_i hlock
      split
      · exact .same _
      · rename_i g hgen
        exact .abandoned reason now g (by simpa using hlock) hgen
  | holdEnter =>
    simp only [syncStep, holdEnter]
    split
    · exact .same _
    · rename_i h
      simp only [not_or, Bool.not_eq_true, Option.isSome_eq_false_iff, Option.isNone_iff_eq_none] at h
      exact .held h.1 h.2
  | holdExit =>
    simp only [syncStep, holdExit]
    split
    · rename_i hlock
      exact .unheld hlock
    · exact .same _
  | takeFirst =>
    simp only [syncStep, takeFirst]
    split
    · rename_i first rest hph hq
      exact .took first rest hph hq
    · exact .same _
  | startPromote i =>
    simp only [syncStep, startPromote]
    split
    · rename_i hph
      split
      · exact .same _
      · exact .startedPromote i hph
    · exact .same _
  | pop i =>
    simp only [syncStep, pop]
    split
    · rename_i batch first rest hph hq
      exact .popped i batch first rest hph hq
    · exact .same _
  | queueEmpty i =>
    simp only [syncStep, queueEmpty]
    split
    · rename_i hph _
      exact .emptied i hph
    · rename_i batch _ hph _
      exact .collected i batch hph
    · exact .same _
  | acquire i =>
    simp only [syncStep, acquire]
    split
    · rename_i batch hph
      split
      · exact .same _
      · rename_i hlock
        exact .acquired i batch hph (by simpa using hlock)
    · exact .same _
  | nextRecord i ingest => exact nextRecord_outcome port s i ingest
  | continueRecord i => exact continueRecord_outcome port s i
  | failBatch i =>
    simp only [syncStep, failBatch]
    split
    · rename_i record batch hph
      exact .raised _ i s.db _ (by rw [hph]; rfl) rfl
    · rename_i record work batch hph
      exact .raised _ i s.db _ (by rw [hph]; rfl) rfl
    · exact .same _
  | capture i =>
    simp only [syncStep, capture]
    split
    · rename_i hph
      split
      · exact .same _
      · rename_i hlock
        split
        · exact .notCaptured i hph
        · rename_i g hgen
          split
          · rename_i hcomplete
            exact .captured i g hph (by simpa using hlock) hgen hcomplete
          · exact .notCaptured i hph
    · exact .same _
  | beginPromotion i ingest =>
    simp only [syncStep, beginPromotion]
    split
    · rename_i g hph
      split
      · exact .same _
      · rename_i hwriter
        exact .beganPromotion i ingest g hph (by simpa using hwriter)
    · exact .same _
  | commitPromotion i => exact commitPromotion_outcome port s i
  | failPromotion i =>
    simp only [syncStep, failPromotion]
    split
    · rename_i g ingest snapshot version records hph
      exact .rolledBack _ i g _ ingest snapshot version records hph
    · exact .same _
  | clearGeneration i =>
    simp only [syncStep, clearGeneration]
    split
    · rename_i g committed hph
      split
      · exact .same _
      · rename_i hlock
        exact .cleared i g committed hph (by simpa using hlock)
    · exact .same _
  | reconcileSaga i =>
    simp only [syncStep, reconcileSaga]
    split
    · rename_i hph
      exact .reconciled i hph
    · exact .same _

/-! ## The apply lock -/

theorem SyncState.setPhase_threads (s : SyncState σ) (i j : Nat) (p : Phase) :
    (s.setPhase i p).threads j = if j = i then p else s.threads j := Function.update_apply ..

/-- A live record leaves the generations and the staging alone. -/
def Phase.KeepsSync : Phase → Prop
  | .recording _ work _ => work.Keeps syncTables
  | _ => True

/-- What holds in every state: whoever is in a batch has the apply lock, and while changes are held no
    generation is active. -/
structure LockInv (s : SyncState σ) : Prop where
  held : s.lock = some .hold → s.generation = none
  owner : ∀ i, (s.threads i).holdsLock = true → s.lock = some (.thread i)
  works : ∀ i, (s.threads i).KeepsSync
  bounded : ∀ r ∈ s.own.generations.rows, r.generationId ≤ s.own.generationSeq

variable {s : SyncState σ}

theorem LockInv.congr {s' : SyncState σ} (h : LockInv s) (hlock : s'.lock = s.lock)
    (hgen : s'.generation = s.generation) (hth : s'.threads = s.threads) (hown : syncTables s'.own = syncTables s.own) :
    LockInv s' := by
  simp only [syncTables, Prod.mk.injEq] at hown
  refine ⟨fun hl => ?_, fun i hi => ?_, fun i => ?_, fun r hr => ?_⟩
  · rw [hgen]
    exact h.held (hlock ▸ hl)
  · rw [hth] at hi
    rw [hlock]
    exact h.owner i hi
  · rw [hth]
    exact h.works i
  · rw [hown.1] at hr
    rw [hown.2.1]
    exact h.bounded r hr

variable {p : Phase}
variable {i : Nat}

theorem LockInv.setPhase (h : LockInv s)
    (hlock : p.holdsLock = true → s.lock = some (.thread i)) (hk : p.KeepsSync) : LockInv (s.setPhase i p) := by
  refine ⟨h.held, fun j hj => ?_, fun j => ?_, h.bounded⟩
  · by_cases hji : j = i
    · subst hji
      rw [SyncState.setPhase_threads, if_pos rfl] at hj
      exact hlock hj
    · rw [SyncState.setPhase_threads, if_neg hji] at hj
      exact h.owner j hj
  · by_cases hji : j = i
    · subst hji
      rw [SyncState.setPhase_threads, if_pos rfl]
      exact hk
    · rw [SyncState.setPhase_threads, if_neg hji]
      exact h.works j

theorem LockInv.move (h : LockInv s) (i : Nat) (hp : p.holdsLock = false) (hk : p.KeepsSync) : LockInv (s.setPhase i p) :=
  h.setPhase (fun hl => by rw [hp] at hl; cases hl) hk

theorem LockInv.release (h : LockInv s) (hph : (s.threads i).holdsLock = true)
    (hp : p.holdsLock = false) (hk : p.KeepsSync) : LockInv ({ s with lock := none }.setPhase i p) := by
  refine ⟨fun hl => (by cases hl), fun j hj => ?_, fun j => ?_, h.bounded⟩
  · by_cases hji : j = i
    · subst hji
      rw [SyncState.setPhase_threads, if_pos rfl, hp] at hj
      cases hj
    · rw [SyncState.setPhase_threads, if_neg hji] at hj
      have hsame := (h.owner j hj).symm.trans (h.owner i hph)
      exact absurd (by simpa using hsame) hji
  · by_cases hji : j = i
    · subst hji
      rw [SyncState.setPhase_threads, if_pos rfl]
      exact hk
    · rw [SyncState.setPhase_threads, if_neg hji]
      exact h.works j

theorem afterBatch_free (i : Nat) : (afterBatch i).holdsLock = false ∧ (afterBatch i).KeepsSync := by
  unfold afterBatch
  split <;> exact ⟨rfl, trivial⟩

theorem appended_keeps {γ : Type} {f : BrokerDb PyValue → γ} {db db' : BrokerJournal} {m : DomainMutation Cell}
    {write : WriteMaterialized Cell (BrokerDb PyValue) IngestError} {eventId : String} {receivedTs : Int}
    {event : DomainEvent Cell} {α : Type} {next : DomainEvent Cell → IngestWork α}
    (hk : (Work.append m write eventId receivedTs next).Keeps f)
    (hdb : mutateBatchWork db (.append m write eventId receivedTs .done) = (.ok event, db')) :
    f db'.tables.own = f db.tables.own := by
  cases hk with
  | append hw _ =>
    have hone : (Work.append m write eventId receivedTs Work.done : Work Cell (BrokerDb PyValue) IngestError _).Keeps f :=
      .append hw fun event => .done event
    have hkeep := autocommit_keeps hone db
    rw [Work.autocommit, hdb] at hkeep
    exact hkeep

theorem notifySaga_frame (port : SagaPort σ) (s : SyncState σ) (obs : Observation) (changed : Option BrokerOrderRow) :
    ∃ saga, notifySaga port s obs changed = { s with saga := saga } := by
  unfold notifySaga
  split
  · split
    · exact ⟨s.saga, rfl⟩
    · exact ⟨_, rfl⟩
  · exact ⟨s.saga, rfl⟩

variable {db : BrokerDb PyValue} {now : Int} {r : GenerationRow}

theorem mem_openGeneration {sources : List String} (hr : r ∈ (db.openGeneration sources now).2.generations.rows) :
    r.generationId = db.generationSeq + 1 ∨ r ∈ db.generations.rows := by
  rcases Table.mem_upsert.mp hr with rfl | ⟨hr, -⟩
  · exact Or.inl rfl
  · exact Or.inr hr

variable {g : Nat}

theorem mem_markAbandoned {reason : String} (hr : r ∈ (db.markGenerationAbandoned g reason now).generations.rows) :
    ∃ r' ∈ db.generations.rows, r'.generationId = r.generationId := by
  simp only [BrokerDb.markGenerationAbandoned, Table.mem_updateWhere] at hr
  obtain ⟨r', hr', rfl⟩ := hr
  refine ⟨r', hr', ?_⟩
  split <;> rfl

/-- So does a promotion. -/
theorem mem_markPromoted {cursor : Nat} (hr : r ∈ (db.markGenerationPromoted g cursor now).generations.rows) :
    ∃ r' ∈ db.generations.rows, r'.generationId = r.generationId := by
  simp only [BrokerDb.markGenerationPromoted, Table.mem_updateWhere] at hr
  obtain ⟨r', hr', rfl⟩ := hr
  refine ⟨r', hr', ?_⟩
  split <;> rfl

theorem markSourceComplete_some {own : BrokerDb PyValue} {source : String}
    (h : db.markSourceComplete g source = some own) : ∃ row, db.generations.get? g = some row ∧
      own = { db with generations := db.generations.upsert { row with
        sourcesComplete := if row.sourcesComplete.contains source then row.sourcesComplete
          else (row.sourcesComplete ++ [source]).insertionSort (· ≤ ·) } } := by
  unfold BrokerDb.markSourceComplete at h
  split at h
  · cases h
  · rename_i row hrow
    cases h
    exact ⟨row, hrow, rfl⟩

/-- **Every step keeps the lock discipline.** -/
theorem LockInv.step (h : LockInv s) (port : SagaPort σ) (a : SyncAction) : LockInv (syncStep port s a) := by
  have hout := syncStep_outcome port s a
  generalize syncStep port s a = s' at hout
  cases hout with
  | same => exact h
  | enqueued obs => exact h.congr rfl rfl rfl rfl
  | began required now hlock hgen =>
    refine ⟨fun hl => absurd (hlock.symm.trans hl) (by decide), h.owner, h.works, fun r hr => ?_⟩
    rcases mem_openGeneration hr with hid | hr
    · exact hid.le
    · exact (h.bounded r hr).trans (Nat.le_succ _)
  | marked source g own hlock hgen hreq hown =>
    obtain ⟨row, hrow, rfl⟩ := markSourceComplete_some hown
    refine ⟨fun hl => absurd (hlock.symm.trans hl) (by decide), h.owner, h.works, fun r hr => ?_⟩
    rcases Table.mem_upsert.mp hr with rfl | ⟨hr, -⟩
    · exact h.bounded row (Table.get?_eq_some.mp hrow).1
    · exact h.bounded r hr
  | abandoned reason now g hlock hgen =>
    refine ⟨fun _ => rfl, h.owner, h.works, fun r hr => ?_⟩
    obtain ⟨r', hr', hid⟩ := mem_markAbandoned hr
    rw [← hid]
    exact h.bounded r' hr'
  | held hlock hgen =>
    refine ⟨fun _ => hgen, fun i hi => ?_, h.works, h.bounded⟩
    have hown := h.owner i hi
    rw [hlock] at hown
    cases hown
  | unheld hlock =>
    refine ⟨fun hl => (by cases hl), fun i hi => ?_, h.works, h.bounded⟩
    have hown := h.owner i hi
    rw [hlock] at hown
    cases hown
  | took first rest hph hq =>
    have hq' : LockInv { s with queue := rest } := h.congr rfl rfl rfl rfl
    exact hq'.move 0 rfl trivial
  | startedPromote i hph => exact h.move i rfl trivial
  | popped i batch first rest hph hq =>
    have hq' : LockInv { s with queue := rest } := h.congr rfl rfl rfl rfl
    exact hq'.move i rfl trivial
  | emptied i hph => exact h.move i (afterBatch_free i).1 (afterBatch_free i).2
  | collected i batch hph => exact h.move i rfl trivial
  | acquired i batch hph hlock =>
    have hl : LockInv { s with lock := some (.thread i) } := by
      refine ⟨fun hl => (by cases hl), fun j hj => ?_, h.works, h.bounded⟩
      have hown := h.owner j hj
      rw [hlock] at hown
      cases hown
    exact hl.setPhase (fun _ => rfl) trivial
  | raised a i db ingestSeq hph hdb =>
    have hown : syncTables db.tables.own = syncTables s.own := by rw [hdb]; rfl
    have hdb' : LockInv { s with
        db := db
        ingestSeq := ingestSeq
        trace := { s.trace with raised := true } } := h.congr rfl rfl rfl hown
    exact hdb'.release hph rfl trivial
  | started i ingest record batch hph hgen =>
    have hseq : LockInv { s with ingestSeq := s.ingestSeq + 1 } := h.congr rfl rfl rfl rfl
    exact hseq.setPhase (fun _ => h.owner i (by rw [hph]; rfl)) (applyRecord_keepsSync ingest record.obs)
  | staged i ingest record batch g own hph hgen hown =>
    obtain ⟨staging, -, rfl⟩ := Option.map_eq_some_iff.mp hown
    apply LockInv.setPhase
    · exact ⟨h.held, h.owner, h.works, h.bounded⟩
    · exact fun _ => h.owner i (by rw [hph]; rfl)
    · trivial
  | released i ingest hph => exact h.release (by rw [hph]; rfl) (afterBatch_free i).1 (afterBatch_free i).2
  | finished i record changed batch hph =>
    obtain ⟨saga, heq⟩ := notifySaga_frame port s record.obs changed
    rw [heq]
    have hlive : LockInv { s with
        saga := saga
        trace := { s.trace with done := s.trace.done ++ [Outcome.live record] } } := h.congr rfl rfl rfl rfl
    exact hlive.setPhase (fun _ => h.owner i (by rw [hph]; rfl)) trivial
  | readTables i record next batch hph =>
    have hk := h.works i
    rw [hph] at hk
    cases hk with
    | read hk => exact h.setPhase (fun _ => h.owner i (by rw [hph]; rfl)) (hk _)
  | wrote i record write next batch own hph hown =>
    have hk := h.works i
    rw [hph] at hk
    cases hk with
    | writeOwn hw hk =>
      have hset : LockInv (s.setOwn own) := h.congr rfl rfl rfl (hw _ _ hown)
      exact hset.setPhase (fun _ => h.owner i (by rw [hph]; rfl)) hk
  | appended i record m write eventId receivedTs next batch event db hph hwriter hdb =>
    have hk := h.works i
    rw [hph] at hk
    have hkeep := appended_keeps hk hdb
    cases hk with
    | append hw hk =>
      have hset : LockInv { s with db := db } := h.congr rfl rfl rfl hkeep
      exact hset.setPhase (fun _ => h.owner i (by rw [hph]; rfl)) (hk event)
  | captured i g hph hlock hgen hcomplete =>
    have hsup : LockInv { s with suppress := true } := h.congr rfl rfl rfl rfl
    exact hsup.move i rfl trivial
  | notCaptured i hph => exact h.move i rfl trivial
  | beganPromotion i ingest g hph hwriter =>
    have hread : LockInv { s with
        writer := some i
        trace := { s.trace with read := g :: s.trace.read } } := h.congr rfl rfl rfl rfl
    exact hread.move i rfl trivial
  | committed i g ingest snapshot records cursor after tables hph hrun htables =>
    obtain ⟨aliases, -, rfl⟩ := Option.map_eq_some_iff.mp htables
    apply LockInv.move
    · refine ⟨h.held, h.owner, h.works, fun r hr => ?_⟩
      obtain ⟨r', hr', hid⟩ := mem_markPromoted hr
      rw [← hid]
      exact h.bounded r' hr'
    · rfl
    · trivial
  | rolledBack a i g seq ingest snapshot version records hph =>
    have hback : LockInv { s with
        db := { s.db with seq := seq }
        writer := none } := h.congr rfl rfl rfl rfl
    exact hback.move i rfl trivial
  | cleared i g committed hph hlock =>
    have hgen : LockInv { s with
        suppress := false
        generation := if s.generation.map Generation.generationId = some g then none else s.generation } :=
      ⟨fun hl => absurd (hlock.symm.trans hl) (by decide), h.owner, h.works, h.bounded⟩
    refine hgen.move i ?_ ?_
    · cases committed <;> rfl
    · cases committed <;> exact trivial
  | reconciled i hph =>
    have hsaga : LockInv { s with saga := port.reconcileTerminalEntries s.saga s.db.tables } := h.congr rfl rfl rfl rfl
    exact hsaga.move i rfl trivial

theorem LockInv.start (stored : StoredDb) (saga : σ) : LockInv (SyncState.start stored saga) :=
  ⟨fun hl => (by cases hl), fun _ hi => (by cases hi), fun _ => trivial, stored.generations_le⟩

end MmrTrader.Broker
