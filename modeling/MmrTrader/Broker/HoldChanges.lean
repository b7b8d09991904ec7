import Mathlib.Data.List.Induction
import MmrTrader.Broker.SyncSteps
import MmrTrader.Lib.GuardedRun

/-!
# Held changes and settled generations

* `StillStaging`, `ActsWhileStaging` — the condition: what is done to a generation is done while it
  is active and its row is in `staging`;
* `hold_changes_holds` — over every interleaving: nothing is committed while changes are held, and a
  generation row that has left `staging` never changes;
* `promoted_after_abandon` — a promotion that begins after its generation was abandoned deletes a
  position while changes are held.
-/

namespace MmrTrader.Broker

open MmrTrader.Lib
open MmrTrader.Journal (JournalState)

variable {σ : Type} {port : SagaPort σ}

/-! ## The condition -/

/-- The generation is the active one, and its row is in `staging`. -/
def StillStaging (s : SyncState σ) (g : Nat) : Prop :=
  s.generation.map Generation.generationId = some g ∧ ∀ r, s.own.generations.get? g = some r → r.status = .staging

/-- An abandonment, and the commit of a promotion whose row nobody wrote since its `BEGIN`, find their
    generation still staging. -/
def ActsWhileStaging (s : SyncState σ) : SyncAction → Prop
  | .abandonGeneration _ _ => ∀ g, s.lock = none → s.generation = some g → StillStaging s g.generationId
  | .commitPromotion i => ∀ g ingest snapshot records,
      s.threads i = .promoting g ingest snapshot (s.version g) records → StillStaging s g
  | _ => True

/-! ## Sources -/

def Phase.generationId? : Phase → Option Nat
  | .captured g | .promoting g _ _ _ _ | .promoted g _ => some g
  | _ => none

/-- A generation that was captured, or whose row has left `staging`, has all its sources marked. -/
structure SourceInv (s : SyncState σ) : Prop where
  row : ∀ g, s.generation = some g → ∃ row, s.own.generations.get? g.generationId = some row ∧
    (∀ x ∈ g.complete, x ∈ row.sourcesComplete) ∧ (row.status ≠ .staging → g.isComplete = true)
  phase : ∀ i g', (s.threads i).generationId? = some g' → g' ≤ s.own.generationSeq ∧
    ∀ g, s.generation = some g → g.generationId = g' → g.isComplete = true

variable {s : SyncState σ}
variable {s' : SyncState σ}

theorem SourceInv.congr (h : SourceInv s) (hgen : s'.generation = s.generation)
    (hth : s'.threads = s.threads) (hown : syncTables s'.own = syncTables s.own) : SourceInv s' := by
  simp only [syncTables, Prod.mk.injEq] at hown
  obtain ⟨hgens, hseq, -⟩ := hown
  refine ⟨fun g hg => ?_, fun i g' hi => ?_⟩
  · rw [hgens]
    exact h.row g (hgen ▸ hg)
  · rw [hth] at hi
    rw [hseq, hgen]
    exact h.phase i g' hi

variable {p : Phase}

theorem SourceInv.setPhase (h : SourceInv s) {i : Nat}
    (hp : ∀ g', p.generationId? = some g' → g' ≤ s.own.generationSeq ∧
      ∀ g, s.generation = some g → g.generationId = g' → g.isComplete = true) : SourceInv (s.setPhase i p) := by
  refine ⟨h.row, fun j g' hj => ?_⟩
  rw [SyncState.setPhase_threads] at hj
  split at hj
  · exact hp g' hj
  · exact h.phase j g' hj

theorem SourceInv.move (h : SourceInv s) (i : Nat) (hp : p.generationId? = none) : SourceInv (s.setPhase i p) :=
  h.setPhase fun g' hg' => by
    rw [hp] at hg'
    cases hg'

theorem afterBatch_generationId? (i : Nat) : (afterBatch i).generationId? = none := by
  unfold afterBatch
  split <;> rfl

theorem SourceInv.clear (h : SourceInv s) (hgen : ∀ g, s'.generation = some g → s.generation = some g)
    (hth : s'.threads = s.threads) (hseq : s'.own.generationSeq = s.own.generationSeq)
    (hrow : ∀ g, s'.generation = some g → s'.own.generations.get? g.generationId = s.own.generations.get? g.generationId) :
    SourceInv s' := by
  refine ⟨fun g hg => ?_, fun i g' hi => ?_⟩
  · rw [hrow g hg]
    exact h.row g (hgen g hg)
  · rw [hth] at hi
    rw [hseq]
    exact ⟨(h.phase i g' hi).1, fun g hg => (h.phase i g' hi).2 g (hgen g hg)⟩

theorem Generation.isComplete_mark {g : Generation} (h : g.isComplete = true) (source : String) :
    ({ g with complete := source :: g.complete } : Generation).isComplete = true := by
  simp only [Generation.isComplete, List.all_eq_true, List.contains_eq_mem, decide_eq_true_eq] at h ⊢
  exact fun x hx => List.mem_cons_of_mem _ (h x hx)

theorem get?_markPromoted (db : BrokerDb PyValue) (g cursor : Nat) (now : Int) (k : Nat) :
    ∃ f : GenerationRow → GenerationRow, (db.markGenerationPromoted g cursor now).generations.get? k =
      (db.generations.get? k).map f ∧ (∀ r, (f r).sourcesComplete = r.sourcesComplete) ∧ (k ≠ g → ∀ r, r.generationId = k →
        f r = r) := by
  simp only [BrokerDb.markGenerationPromoted, Table.get?_updateWhere]
  refine ⟨_, rfl, fun r => ?_, fun hk r hr => ?_⟩
  · split <;> rfl
  · rw [if_neg (by simpa [hr] using hk)]

/-- **Every step keeps the sources.** -/
theorem SourceInv.step (h : SourceInv s) (hlock : LockInv s) (port : SagaPort σ) (a : SyncAction) :
    SourceInv (syncStep port s a) := by
  have hout := syncStep_outcome port s a
  generalize syncStep port s a = s' at hout
  cases hout with
  | same => exact h
  | enqueued obs => exact h.congr rfl rfl rfl
  | began required now hl hgen =>
    refine ⟨fun g hg => ?_, fun i g' hi => ?_⟩
    · obtain rfl := Option.some.inj (show some (⟨s.own.generationSeq + 1, required, []⟩ : Generation) = some g from hg)
      refine ⟨_, (Table.get?_upsert _ _ _).trans (if_pos rfl), fun x hx => (by cases hx), fun hst => absurd rfl hst⟩
    · obtain ⟨hle, -⟩ := h.phase i g' hi
      refine ⟨hle.trans (Nat.le_succ _), fun g hg hid => ?_⟩
      obtain rfl := Option.some.inj (show some (⟨s.own.generationSeq + 1, required, []⟩ : Generation) = some g from hg)
      dsimp only at hid
      omega
  | marked source g own hl hgen hreq hown =>
    obtain ⟨row, hrow, rfl⟩ := markSourceComplete_some hown
    refine ⟨fun g1 hg => ?_, fun i g' hi => ⟨(h.phase i g' hi).1, fun g1 hg hid => ?_⟩⟩
    · obtain rfl := Option.some.inj (show some ({ g with complete := source :: g.complete } : Generation) = some g1 from hg)
      obtain ⟨row', hrow', hsub, hcomplete⟩ := h.row g hgen
      obtain rfl : row = row' := Option.some.inj (hrow.symm.trans hrow')
      refine ⟨_, (Table.get?_upsert _ _ _).trans (if_pos (Table.get?_eq_some.mp hrow).2), fun x hx => ?_, fun hst => ?_⟩
      · rcases List.mem_cons.mp hx with rfl | hx
        · dsimp only
          split
          · rename_i hcontains
            exact List.contains_iff_mem.mp hcontains
          · simp
        · dsimp only
          split
          · exact hsub x hx
          · simp [hsub x hx]
      · exact Generation.isComplete_mark (hcomplete hst) source
    · obtain rfl := Option.some.inj (show some ({ g with complete := source :: g.complete } : Generation) = some g1 from hg)
      exact Generation.isComplete_mark ((h.phase i g' hi).2 g hgen hid) source
  | abandoned reason now g hl hgen =>
    exact h.clear (fun g hg => (by cases hg)) rfl rfl fun g hg => (by cases hg)
  | held hl hgen => exact h.congr rfl rfl rfl
  | unheld hl => exact h.congr rfl rfl rfl
  | took first rest hph hq =>
    have hq' : SourceInv { s with queue := rest } := h.congr rfl rfl rfl
    exact hq'.move 0 rfl
  | startedPromote i hph => exact h.move i rfl
  | popped i batch first rest hph hq =>
    have hq' : SourceInv { s with queue := rest } := h.congr rfl rfl rfl
    exact hq'.move i rfl
  | emptied i hph => exact h.move i (afterBatch_generationId? i)
  | collected i batch hph => exact h.move i rfl
  | acquired i batch hph hl =>
    have hl' : SourceInv { s with lock := some (.thread i) } := h.congr rfl rfl rfl
    exact hl'.move i rfl
  | raised a i db ingestSeq hph hdb =>
    have hown : syncTables db.tables.own = syncTables s.own := by rw [hdb]; rfl
    have hdb' : SourceInv { s with
        db := db
        ingestSeq := ingestSeq
        lock := none
        trace := { s.trace with raised := true } } := h.congr rfl rfl hown
    exact hdb'.move i rfl
  | started i ingest record batch hph hgen =>
    have hseq : SourceInv { s with ingestSeq := s.ingestSeq + 1 } := h.congr rfl rfl rfl
    exact hseq.move i rfl
  | staged i ingest record batch g own hph hgen hown =>
    obtain ⟨staging, -, rfl⟩ := Option.map_eq_some_iff.mp hown
    apply SourceInv.move
    · exact ⟨h.row, h.phase⟩
    · rfl
  | released i ingest hph =>
    have hl' : SourceInv { s with lock := none } := h.congr rfl rfl rfl
    exact hl'.move i (afterBatch_generationId? i)
  | finished i record changed batch hph =>
    obtain ⟨saga, heq⟩ := notifySaga_frame port s record.obs changed
    rw [heq]
    have hlive : SourceInv { s with
        saga := saga
        trace := { s.trace with done := s.trace.done ++ [Outcome.live record] } } := h.congr rfl rfl rfl
    exact hlive.move i rfl
  | readTables i record next batch hph => exact h.move i rfl
  | wrote i record write next batch own hph hown =>
    have hk := hlock.works i
    rw [hph] at hk
    cases hk with
    | writeOwn hw hk =>
      have hset : SourceInv (s.setOwn own) := h.congr rfl rfl (hw _ _ hown)
      exact hset.move i rfl
  | appended i record m write eventId receivedTs next batch event db hph hwriter hdb =>
    have hk := hlock.works i
    rw [hph] at hk
    have hset : SourceInv { s with db := db } := h.congr rfl rfl (appended_keeps hk hdb)
    exact hset.move i rfl
  | captured i g hph hl hgen hcomplete =>
    have hsup : SourceInv { s with suppress := true } := h.congr rfl rfl rfl
    refine hsup.setPhase fun g' hg' => ?_
    cases hg'
    obtain ⟨row, hrow, -⟩ := h.row g hgen
    obtain ⟨hmem, hid⟩ := Table.get?_eq_some.mp hrow
    refine ⟨hid ▸ hlock.bounded row hmem, fun g1 hg1 _ => ?_⟩
    obtain rfl := Option.some.inj (hgen.symm.trans hg1)
    exact hcomplete
  | notCaptured i hph => exact h.move i rfl
  | beganPromotion i ingest g hph hwriter =>
    have hread : SourceInv { s with
        writer := some i
        trace := { s.trace with read := g :: s.trace.read } } := h.congr rfl rfl rfl
    refine hread.setPhase fun g' hg' => ?_
    exact h.phase i g' (by rw [hph]; exact hg')
  | committed i g ingest snapshot records cursor after tables hph hrun htables =>
    obtain ⟨aliases, -, rfl⟩ := Option.map_eq_some_iff.mp htables
    have hthread := h.phase i g (by rw [hph]; rfl)
    apply SourceInv.setPhase
    · refine ⟨fun g1 hg1 => ?_, h.phase⟩
      obtain ⟨row, hrow, hsub, hcomplete⟩ := h.row g1 hg1
      obtain ⟨f, hget, hsources, hother⟩ := get?_markPromoted s.own g cursor ingest.clock.instant g1.generationId
      refine ⟨f row, hget.trans (by rw [hrow]; rfl), fun x hx => ?_, fun hst => ?_⟩
      · rw [hsources]
        exact hsub x hx
      · by_cases hid : g1.generationId = g
        · exact hthread.2 g1 hg1 hid
        · rw [hother hid row (Table.get?_eq_some.mp hrow).2] at hst
          exact hcomplete hst
    · intro g' hg'
      cases hg'
      exact hthread
  | rolledBack a i g seq ingest snapshot version records hph =>
    have hback : SourceInv { s with
        db := { s.db with seq := seq }
        writer := none } := h.congr rfl rfl rfl
    refine hback.setPhase fun g' hg' => ?_
    exact h.phase i g' (by rw [hph]; exact hg')
  | cleared i g committed hph hl =>
    have hgen : SourceInv { s with
        suppress := false
        generation := if s.generation.map Generation.generationId = some g then none else s.generation } := by
      refine h.clear (fun g1 hg1 => ?_) rfl rfl fun _ _ => rfl
      dsimp only at hg1
      split at hg1
      · cases hg1
      · exact hg1
    refine hgen.move i ?_
    cases committed <;> rfl
  | reconciled i hph =>
    have hsaga : SourceInv { s with saga := port.reconcileTerminalEntries s.saga s.db.tables } := h.congr rfl rfl rfl
    exact hsaga.move i rfl

theorem SourceInv.start (stored : StoredDb) (saga : σ) : SourceInv (SyncState.start stored saga) :=
  ⟨fun g hg => (by cases hg), fun i g' hi => (by cases hi)⟩

/-! ## One step -/

variable {a : SyncAction}

theorem held_step (h : LockInv s) (hl : s.lock = some .hold) (hc : ActsWhileStaging s a) :
    (syncStep port s a).db.tables.own.rows = s.db.tables.own.rows ∧
      (syncStep port s a).db.tables.journal = s.db.tables.journal := by
  -- no thread is in a batch
  have hfree : ∀ i, (s.threads i).holdsLock = false := by
    intro i
    rw [Bool.eq_false_iff]
    intro hi
    have hown := h.owner i hi
    rw [hl] at hown
    cases hown
  have hout := syncStep_outcome port s a
  generalize syncStep port s a = s' at hout
  cases hout with
  | same => exact ⟨rfl, rfl⟩
  | enqueued obs => exact ⟨rfl, rfl⟩
  | began required now hlock hgen => exact absurd (hlock.symm.trans hl) (by decide)
  | marked source g own hlock hgen hreq hown => exact absurd (hlock.symm.trans hl) (by decide)
  | abandoned reason now g hlock hgen => exact absurd (hlock.symm.trans hl) (by decide)
  | held hlock hgen => exact ⟨rfl, rfl⟩
  | unheld hlock => exact ⟨rfl, rfl⟩
  | took first rest hph hq => exact ⟨rfl, rfl⟩
  | startedPromote i hph => exact ⟨rfl, rfl⟩
  | popped i batch first rest hph hq => exact ⟨rfl, rfl⟩
  | emptied i hph => exact ⟨rfl, rfl⟩
  | collected i batch hph => exact ⟨rfl, rfl⟩
  | acquired i batch hph hlock => exact ⟨rfl, rfl⟩
  | raised a i db ingestSeq hph hdb => exact absurd hph (by rw [hfree i]; decide)
  | started i ingest record batch hph hgen => exact ⟨rfl, rfl⟩
  | staged i ingest record batch g own hph hgen hown =>
    have hi := hfree i
    rw [hph] at hi
    cases hi
  | released i ingest hph => exact ⟨rfl, rfl⟩
  | finished i record changed batch hph =>
    have hi := hfree i
    rw [hph] at hi
    cases hi
  | readTables i record next batch hph => exact ⟨rfl, rfl⟩
  | wrote i record write next batch own hph hown =>
    have hi := hfree i
    rw [hph] at hi
    cases hi
  | appended i record m write eventId receivedTs next batch event db hph hwriter hdb =>
    have hi := hfree i
    rw [hph] at hi
    cases hi
  | captured i g hph hlock hgen => exact ⟨rfl, rfl⟩
  | notCaptured i hph => exact ⟨rfl, rfl⟩
  | beganPromotion i ingest g hph hwriter => exact ⟨rfl, rfl⟩
  | committed i g ingest snapshot records cursor after tables hph hrun htables =>
    -- the generation would be active
    have hgen := (hc g ingest snapshot records hph).1
    rw [h.held hl] at hgen
    cases hgen
  | rolledBack a i g seq ingest snapshot version records hph => exact ⟨rfl, rfl⟩
  | cleared i g committed hph hlock => exact ⟨rfl, rfl⟩
  | reconciled i hph => exact ⟨rfl, rfl⟩

variable {r : GenerationRow}

theorem StillStaging.ne {g : Nat} (h : StillStaging s g)
    (hr : r ∈ s.own.generations.rows) (hst : r.status ≠ .staging) : r.generationId ≠ g := by
  rintro rfl
  exact hst (h.2 r (Table.get?_of_mem hr))

/-- A generation row that has left `staging` does not change. -/
theorem settled_step (h : LockInv s) (hs : SourceInv s) (hc : ActsWhileStaging s a)
    (hr : r ∈ s.own.generations.rows) (hst : r.status ≠ .staging) : r ∈ (syncStep port s a).own.generations.rows := by
  have hout := syncStep_outcome port s a
  generalize syncStep port s a = s' at hout
  cases hout with
  | same => exact hr
  | enqueued obs => exact hr
  | began required now hlock hgen =>
    refine Table.mem_upsert.mpr (Or.inr ⟨hr, ?_⟩)
    have hle := h.bounded r hr
    show r.generationId ≠ s.own.generationSeq + 1
    omega
  | marked source g own hlock hgen hreq hown =>
    obtain ⟨row, hrow, rfl⟩ := markSourceComplete_some hown
    by_cases hkey : r.generationId = row.generationId
    · -- all sources of a settled row are marked
      obtain ⟨hmem, hid⟩ := Table.get?_eq_some.mp hrow
      obtain rfl : r = row := s.own.generations.eq_of_key hr hmem hkey
      obtain ⟨row', hrow', hsub, hcomplete⟩ := hs.row g hgen
      obtain rfl : r = row' := Option.some.inj (hrow.symm.trans hrow')
      have hall := hcomplete hst
      simp only [Generation.isComplete, List.all_eq_true, List.contains_eq_mem, decide_eq_true_eq] at hall
      refine Table.mem_upsert.mpr (Or.inl ?_)
      rw [if_pos (List.contains_iff_mem.mpr (hsub source (hall source hreq)))]
    · exact Table.mem_upsert.mpr (Or.inr ⟨hr, hkey⟩)
  | abandoned reason now g hlock hgen =>
    have hne := (hc g hlock hgen).ne hr hst
    show r ∈ (s.own.markGenerationAbandoned g.generationId reason now).generations.rows
    simp only [BrokerDb.markGenerationAbandoned, Table.mem_updateWhere]
    exact ⟨r, hr, by simp [hne]⟩
  | held hlock hgen => exact hr
  | unheld hlock => exact hr
  | took first rest hph hq => exact hr
  | startedPromote i hph => exact hr
  | popped i batch first rest hph hq => exact hr
  | emptied i hph => exact hr
  | collected i batch hph => exact hr
  | acquired i batch hph hlock => exact hr
  | raised a i db ingestSeq hph hdb =>
    show r ∈ db.tables.own.generations.rows
    rw [hdb]
    exact hr
  | started i ingest record batch hph hgen => exact hr
  | staged i ingest record batch g own hph hgen hown =>
    obtain ⟨staging, -, rfl⟩ := Option.map_eq_some_iff.mp hown
    exact hr
  | released i ingest hph => exact hr
  | finished i record changed batch hph =>
    obtain ⟨saga, heq⟩ := notifySaga_frame port s record.obs changed
    rw [heq]
    exact hr
  | readTables i record next batch hph => exact hr
  | wrote i record write next batch own hph hown =>
    have hk := h.works i
    rw [hph] at hk
    cases hk with
    | writeOwn hw hk =>
      have hkeep : own.generations = s.own.generations := congrArg Prod.fst (hw _ _ hown)
      show r ∈ own.generations.rows
      rw [hkeep]
      exact hr
  | appended i record m write eventId receivedTs next batch event db hph hwriter hdb =>
    have hk := h.works i
    rw [hph] at hk
    have hkeep : db.tables.own.generations = s.own.generations := congrArg Prod.fst (appended_keeps hk hdb)
    show r ∈ db.tables.own.generations.rows
    rw [hkeep]
    exact hr
  | captured i g hph hlock hgen => exact hr
  | notCaptured i hph => exact hr
  | beganPromotion i ingest g hph hwriter => exact hr
  | committed i g ingest snapshot records cursor after tables hph hrun htables =>
    obtain ⟨aliases, -, rfl⟩ := Option.map_eq_some_iff.mp htables
    have hne := (hc g ingest snapshot records hph).ne hr hst
    show r ∈ (s.own.markGenerationPromoted g cursor ingest.clock.instant).generations.rows
    simp only [BrokerDb.markGenerationPromoted, Table.mem_updateWhere]
    exact ⟨r, hr, by simp [hne]⟩
  | rolledBack a i g seq ingest snapshot version records hph => exact hr
  | cleared i g committed hph hlock => exact hr
  | reconciled i hph => exact hr

/-! ## Runs -/

def syncRun (port : SagaPort σ) (stored : StoredDb) (saga : σ) (run : List SyncAction) : SyncState σ :=
  run.foldl (syncStep port) (SyncState.start stored saga)

theorem syncRun_append (port : SagaPort σ) (stored : StoredDb) (saga : σ) (pre rest : List SyncAction) :
    syncRun port stored saga (pre ++ rest) = rest.foldl (syncStep port) (syncRun port stored saga pre) :=
  List.foldl_append ..

theorem syncRun_inv (port : SagaPort σ) (stored : StoredDb) (saga : σ) (run : List SyncAction) :
    LockInv (syncRun port stored saga run) ∧ SourceInv (syncRun port stored saga run) := by
  induction run using List.reverseRecOn with
  | nil => exact ⟨LockInv.start stored saga, SourceInv.start stored saga⟩
  | append_singleton run a ih =>
    rw [syncRun_append]
    exact ⟨ih.1.step port a, ih.2.step ih.1 port a⟩

/-- What is promised of every interleaving. -/
structure HoldLaws (port : SagaPort σ) (stored : StoredDb) (saga : σ) (run : List SyncAction) : Prop where
  /-- Between the entry and the exit of a hold no broker row and no event is committed. -/
  held : ∀ pre a, pre ++ [a] <+: run → (syncRun port stored saga pre).lock = some .hold →
    (syncRun port stored saga (pre ++ [a])).db.tables.own.rows = (syncRun port stored saga pre).db.tables.own.rows ∧
      (syncRun port stored saga (pre ++ [a])).db.tables.journal = (syncRun port stored saga pre).db.tables.journal
  /-- A generation row that has left `staging` never changes again. -/
  settled : ∀ pre mid, pre ++ mid <+: run → ∀ r ∈ (syncRun port stored saga pre).own.generations.rows,
    r.status ≠ .staging → r ∈ (syncRun port stored saga (pre ++ mid)).own.generations.rows

/-- **`hold_changes` holds in every run that acts on generations while they are staging.** -/
theorem hold_changes_holds (stored : StoredDb) (saga : σ) (run : List SyncAction)
    (h : Meets (syncStep port) ActsWhileStaging (SyncState.start stored saga) run) : HoldLaws port stored saga run := by
  have hmeets : ∀ pre rest, pre ++ rest <+: run →
      Meets (syncStep port) ActsWhileStaging (syncRun port stored saga pre) rest := fun pre rest hpre =>
    (Meets.append.mp (h.of_prefix hpre)).2
  refine ⟨fun pre a hpre hl => ?_, fun pre mid hpre r hr hst => ?_⟩
  · rw [syncRun_append]
    exact held_step (syncRun_inv port stored saga pre).1 hl (hmeets pre [a] hpre).1
  · induction mid using List.reverseRecOn with
    | nil => rwa [List.append_nil]
    | append_singleton mid a ih =>
      rw [← List.append_assoc] at hpre ⊢
      have hmem := ih ((List.prefix_append _ _).trans hpre)
      rw [syncRun_append port stored saga (pre ++ mid)]
      obtain ⟨hlock, hsource⟩ := syncRun_inv port stored saga (pre ++ mid)
      exact settled_step hlock hsource (hmeets (pre ++ mid) [a] hpre).1 hmem hst

def BROKER_SYNC_SOURCES : List String := ["account", "positions", "open_orders", "completed_orders", "executions"]

def noSaga : SagaPort Unit := ⟨fun s _ _ => s, fun s _ => s⟩

/-- One source, promoted and cleared; then changes are held. -/
def promotedThenHeld : List SyncAction :=
  [.beginGeneration ["positions"] 0, .markSourceComplete "positions", .startPromote 1, .queueEmpty 1, .capture 1,
    .beginPromotion 1 (longIngest demoTime), .commitPromotion 1, .clearGeneration 1, .holdEnter, .holdExit]

theorem hold_changes_holds_promoted : HoldLaws noSaga StoredDb.empty () promotedThenHeld := by
  refine hold_changes_holds StoredDb.empty () promotedThenHeld ⟨trivial, trivial, trivial, trivial, trivial, trivial, ?_,
    trivial, trivial, trivial, trivial⟩
  intro g ingest snapshot records hph
  cases hph
  refine ⟨rfl, fun r hr => ?_⟩
  cases hr
  rfl

/-! ## A promotion after its generation was given up -/

def openPosition : BrokerPositionRow :=
  ⟨"DU1", 265598, "AAPL", "STK", none, "USD", 10, some 100, none, none, none, none, none, false, 1, 0⟩

def positionDb : StoredDb where
  journal := JournalState.empty { BrokerDb.empty PyValue with
    rows := { BrokerRows.empty with positions := Table.empty.upsert openPosition } }
  generations_le := fun r hr => (by cases hr)
  staging_le := fun r hr => (by cases hr)

/-- The sync waits too long for its promote thread and abandons the generation; changes are held, and
    the thread only now begins its transaction. -/
def promotedAfterAbandon : List SyncAction :=
  .beginGeneration BROKER_SYNC_SOURCES 0 :: BROKER_SYNC_SOURCES.map .markSourceComplete ++
    [.startPromote 1, .queueEmpty 1, .capture 1, .abandonGeneration "broker sync promote timed out" 0, .holdEnter,
      .beginPromotion 1 (longIngest demoTime)]

/-- **The position is deleted while changes are held.** -/
theorem promoted_after_abandon : ¬ HoldLaws noSaga positionDb () (promotedAfterAbandon ++ [.commitPromotion 1]) := by
  intro h
  obtain ⟨hrows, -⟩ := h.held promotedAfterAbandon (.commitPromotion 1) (List.prefix_refl _) rfl
  have hdeleted := congrArg (fun rows => rows.positions.rows.map (·.deleted)) hrows
  have hbefore : (syncRun noSaga positionDb () promotedAfterAbandon).db.tables.own.rows.positions.rows.map (·.deleted) =
      [false] := rfl
  have hafter : (syncRun noSaga positionDb () (promotedAfterAbandon ++
      [.commitPromotion 1])).db.tables.own.rows.positions.rows.map (·.deleted) = [true] := rfl
  exact absurd (hafter.symm.trans (hdeleted.trans hbefore)) (by decide)

end MmrTrader.Broker
