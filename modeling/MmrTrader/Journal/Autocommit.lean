import MmrTrader.Journal.Ledger

/-!
# One transaction or many

A callback that runs inside one transaction leaves the tables that it leaves on a connection where
each append and each write commits by itself, provided the transaction commits.

* `autocommit_bind` — a callback after another;
* `run_autocommit` — the refinement;
* `autocommit_keeps` — what no write of a callback changes stays, whether it ends well or raises;
* `append_fresh`, `autocommit_lawful` — on tables that keep the ledger laws an append under a fresh
  event id never fails, and every callback leaves such tables;
* `Work.Sim.autocommit` — callbacks that append the same mutations leave the same journal;
* `run_consecutive` — the revisions a committed transaction gives.
-/

namespace MmrTrader.Journal

open MmrTrader.Lib

variable {V W E α β : Type} [DecidableEq V] [JsonValue V]

theorem autocommit_bind (work : Work V W E α) (k : α → Work V W E β) (j : JournalState V W) :
    (work.bind k).autocommit j = match work.autocommit j with
      | (.ok a, j') => (k a).autocommit j'
      | (.error e, j') => (.error e, j') := by
  induction work generalizing j with
  | done a => rfl
  | fail e => rfl
  | read next ih => exact ih _ j
  | writeOwn write next ih =>
    simp only [Work.bind, Work.autocommit]
    split
    · rfl
    · exact ih _
  | append m write eventId receivedTs next ih =>
    simp only [Work.bind, Work.autocommit]
    split
    · exact ih _ _
    · rfl

theorem append_events (t : Tables V W) (seq : Nat) (events : List (DomainEvent V)) (m : DomainMutation V)
    (write : WriteMaterialized V W E) (eventId : String) (receivedTs : Int) :
    append ⟨t, seq, events⟩ m write eventId receivedTs =
      (append ⟨t, seq, []⟩ m write eventId receivedTs).map fun r =>
        (r.1, { r.2 with events := events ++ r.2.events }) := by
  unfold append
  simp only
  split
  · split <;> rfl
  · split
    · rfl
    · simp only [insertJournalRow]
      split <;> rfl

variable {work : Work V W E α} {j : JournalState V W} {tx : Tx V W}
variable {a : α}

/-- **A committed transaction is its callback, one append at a time.** -/
theorem run_autocommit {events : List (DomainEvent V)} (h : work.run ⟨j.tables, j.seq, events⟩ = .ok (a, tx)) :
    ∃ j', work.autocommit j = (.ok a, j') ∧ j'.tables = tx.tables ∧ j'.seq = tx.seq := by
  induction work generalizing j events with
  | done b =>
    cases h
    exact ⟨j, rfl, rfl, rfl⟩
  | fail e => cases h
  | read next ih => exact ih _ h
  | writeOwn write next ih =>
    simp only [Work.run] at h
    simp only [Work.autocommit]
    split at h
    · cases h
    · exact ih (j := { j with tables := { j.tables with own := _ } }) h
  | append m write eventId receivedTs next ih =>
    simp only [Work.run] at h
    rw [append_events] at h
    simp only [Work.autocommit, mutateBatchWork, Work.run]
    cases hone : append ⟨j.tables, j.seq, []⟩ m write eventId receivedTs with
    | error e =>
      rw [hone] at h
      cases h
    | ok r =>
      obtain ⟨event, tx'⟩ := r
      rw [hone] at h
      exact ih event (j := ⟨tx'.tables, tx'.seq, _⟩) h

theorem append_cases (j : JournalState V W) (m : DomainMutation V) (write : WriteMaterialized V W E) (eventId : String)
    (receivedTs : Int) :
    (∃ e j', mutateBatchWork j (.append m write eventId receivedTs .done) = (.error e, j') ∧ j'.tables = j.tables) ∨
      ∃ event j', mutateBatchWork j (.append m write eventId receivedTs .done) = (.ok event, j') ∧
        (j'.tables = j.tables ∧ (selectJournalRow j.tables.journal eventId).isSome ∨
          ∃ own, write j.tables (readCurrentRevision j.tables.materialized m.entity + 1) = .ok own ∧ j'.tables.own = own) := by
  cases hsel : selectJournalRow j.tables.journal eventId with
  | some existing =>
    by_cases hm : existing.matches m
    · right
      simp [mutateBatchWork, Work.run, append, hsel, hm]
    · left
      simp [mutateBatchWork, Work.run, append, hsel, hm]
  | none =>
    cases hw : write j.tables (readCurrentRevision j.tables.materialized m.entity + 1) with
    | error e =>
      left
      simp [mutateBatchWork, Work.run, append, hsel, hw]
    | ok own =>
      cases hdup : j.tables.journal.any fun r => r.entity == m.entity &&
          r.entityRevision == readCurrentRevision j.tables.materialized m.entity + 1 with
      | true =>
        left
        simp [mutateBatchWork, Work.run, append, hsel, hw, insertJournalRow, hdup]
      | false =>
        right
        simp [mutateBatchWork, Work.run, append, hsel, hw, insertJournalRow, hdup]

/-- No write of the callback changes what `f` reads. -/
inductive Work.Keeps {γ : Type} (f : W → γ) : Work V W E α → Prop where
  | done (a : α) : Keeps f (.done a)
  | fail (e : E) : Keeps f (.fail e)
  | read {next : Tables V W → Work V W E α} (h : ∀ t, Keeps f (next t)) : Keeps f (.read next)
  | writeOwn {write : W → Except E W} {next : Work V W E α} (hw : ∀ own own', write own = .ok own' → f own' = f own)
      (h : Keeps f next) : Keeps f (.writeOwn write next)
  | append {m : DomainMutation V} {write : WriteMaterialized V W E} {eventId : String} {receivedTs : Int}
      {next : DomainEvent V → Work V W E α} (hw : ∀ t revision own, write t revision = .ok own → f own = f t.own)
      (h : ∀ event, Keeps f (next event)) : Keeps f (.append m write eventId receivedTs next)

variable {γ : Type}
variable {f : W → γ} {k : α → Work V W E β}

omit [DecidableEq V] [JsonValue V] in
theorem Work.Keeps.bind (h : work.Keeps f) (hk : ∀ a, (k a).Keeps f) : (work.bind k).Keeps f := by
  induction h with
  | done a => exact hk a
  | fail e => exact .fail e
  | read _ ih => exact .read fun t => ih t
  | writeOwn hw _ ih => exact .writeOwn hw ih
  | append hw _ ih => exact .append hw fun event => ih event

omit [DecidableEq V] [JsonValue V] in
/-- What is read from `f` is kept with it. -/
theorem Work.Keeps.mono {δ : Type} {g : W → δ} (h : work.Keeps f)
    (hfg : ∀ own own', f own' = f own → g own' = g own) : work.Keeps g := by
  induction h with
  | done a => exact .done a
  | fail e => exact .fail e
  | read _ ih => exact .read ih
  | writeOwn hw _ ih => exact .writeOwn (fun own own' h => hfg _ _ (hw own own' h)) ih
  | append hw _ ih => exact .append (fun t revision own h => hfg _ _ (hw t revision own h)) ih

/-- **Frame rule.** -/
theorem autocommit_keeps (h : work.Keeps f) (j : JournalState V W) : f (work.autocommit j).2.tables.own = f j.tables.own := by
  induction h generalizing j with
  | done a => rfl
  | fail e => rfl
  | read _ ih => exact ih _ j
  | writeOwn hw _ ih =>
    simp only [Work.autocommit]
    split
    · rfl
    · rename_i own hown
      rw [ih]
      exact hw _ _ hown
  | @append m write eventId receivedTs next hw _ ih =>
    simp only [Work.autocommit]
    rcases append_cases j m write eventId receivedTs with ⟨e, j', heq, ht⟩ | ⟨event, j', heq, ⟨ht, -⟩ | ⟨own, hown, ht⟩⟩
    · simp only [heq, ht]
    · simp only [heq, ih, ht]
    · simp only [heq, ih, ht]
      exact hw _ _ _ hown

/-! ## Lawful tables -/

def JournalState.Lawful (j : JournalState V W) : Prop := ∃ hist, Ledger j.tables j.seq hist

omit [JsonValue V] [DecidableEq V] in
theorem JournalState.lawful_empty (own : W) : (JournalState.empty (V := V) own).Lawful := ⟨[], Ledger.empty own⟩

def Tables.appended (t : Tables V W) (seq : Nat) (m : DomainMutation V) (eventId : String) (receivedTs : Int) (own : W) :
    Tables V W :=
  let revision := readCurrentRevision t.materialized m.entity + 1
  { t with
    journal := t.journal ++ [⟨seq + 1, eventId, revision, m, receivedTs⟩]
    materialized := upsertMaterialized t.materialized m revision receivedTs
    own := own }

variable {m : DomainMutation V} {eventId : String} {own : W}

/-- **An append under a fresh event id.** -/
theorem append_fresh {x : Tx V W} {hist : List (JournalRow V)} (h : Ledger x.tables x.seq hist)
    {w : WriteMaterialized V W E} (receivedTs : Int) (hid : ∀ r ∈ x.tables.journal, r.eventId ≠ eventId)
    (hw : w x.tables (readCurrentRevision x.tables.materialized m.entity + 1) = .ok own) :
    ∃ event x', append x m w eventId receivedTs = .ok (event, x') ∧
      x'.tables = x.tables.appended x.seq m eventId receivedTs own ∧ x'.seq = x.seq + 1 ∧ x'.events ≠ [] ∧
      event.sourceCursor = x.seq + 1 := by
  have hsel : selectJournalRow x.tables.journal eventId = none := by
    rw [selectJournalRow, List.find?_eq_none]
    intro r hr
    simpa using hid r hr
  -- every revision of the entity so far is at most the current one
  have hdup : (x.tables.journal.any fun r => r.entity == m.entity &&
      r.entityRevision == readCurrentRevision x.tables.materialized m.entity + 1) = false := by
    rw [Bool.eq_false_iff]
    intro hany
    obtain ⟨r, hr, hsat⟩ := List.any_eq_true.mp hany
    simp only [Bool.and_eq_true, beq_iff_eq] at hsat
    have hmem : r.entityRevision ∈ revisionsOf hist m.entity := by
      rw [revisionsOf, List.mem_map]
      exact ⟨r, List.mem_filter.mpr ⟨h.kept.subset hr, by simpa using hsat.1⟩, rfl⟩
    rw [h.revisions, List.mem_range'_1] at hmem
    omega
  simp only [append, hsel, hw, insertJournalRow, hdup, Bool.false_eq_true, if_false]
  exact ⟨_, _, rfl, rfl, rfl, by simp, rfl⟩

theorem mutateBatchWork_lawful (h : j.Lawful) : (mutateBatchWork j work).2.Lawful := by
  obtain ⟨hist, hl⟩ := h
  unfold mutateBatchWork
  split
  · rename_i e seq hrun
    have hseq := run_error_seq work (by exact hl) hrun
    exact ⟨hist, hl.cursors, fun r hr => (hl.bounded r hr).trans hseq, hl.kept, hl.ids, hl.revisions⟩
  · rename_i a tx hrun
    obtain ⟨new, -, -, hl'⟩ := run_ledger work (by exact hl) hrun
    exact ⟨_, hl'⟩

/-- **Every callback leaves lawful tables.** -/
theorem autocommit_lawful (work : Work V W E α) (h : j.Lawful) : (work.autocommit j).2.Lawful := by
  induction work generalizing j with
  | done a => exact h
  | fail e => exact h
  | read next ih => exact ih _ h
  | writeOwn write next ih =>
    simp only [Work.autocommit]
    split
    · exact h
    · obtain ⟨hist, hl⟩ := h
      exact ih ⟨hist, hl.withOwn _⟩
  | append m write eventId receivedTs next ih =>
    have hone : (mutateBatchWork j (Work.append (E := E) m write eventId receivedTs .done)).2.Lawful :=
      mutateBatchWork_lawful h
    simp only [Work.autocommit]
    split
    · rename_i event j' heq
      rw [heq] at hone
      exact ih event hone
    · rename_i e j' heq
      rw [heq] at hone
      exact hone

/-! ## Callbacks that write the same -/

/-- The same journal, and tables of the producer that `R` relates. -/
structure Tables.Same (R : W → W → Prop) (t t' : Tables V W) : Prop where
  journal : t.journal = t'.journal
  materialized : t.materialized = t'.materialized
  checkpoints : t.checkpoints = t'.checkpoints
  own : R t.own t'.own

/-- Two writes with one outcome. -/
inductive SameWrite (R : W → W → Prop) : Except E W → Except E W → Prop where
  | ok {own own' : W} (h : R own own') : SameWrite R (.ok own) (.ok own')
  | error (e : E) : SameWrite R (.error e) (.error e)

/-- Two callbacks that append the same mutations and whose own tables stay related. -/
inductive Work.Sim (R : W → W → Prop) : Work V W E α → Work V W E α → Prop where
  | done (a : α) : Sim R (.done a) (.done a)
  | fail (e : E) : Sim R (.fail e) (.fail e)
  | read {next next' : Tables V W → Work V W E α} (h : ∀ t t', t.Same R t' → Sim R (next t) (next' t')) :
      Sim R (.read next) (.read next')
  | writeOwn {write write' : W → Except E W} {next next' : Work V W E α}
      (hw : ∀ own own', R own own' → SameWrite R (write own) (write' own')) (h : Sim R next next') :
      Sim R (.writeOwn write next) (.writeOwn write' next')
  | append {m : DomainMutation V} {write write' : WriteMaterialized V W E} {eventId : String} {receivedTs : Int}
      {next next' : DomainEvent V → Work V W E α}
      (hw : ∀ t t' revision, t.Same R t' → SameWrite R (write t revision) (write' t' revision))
      (h : ∀ event, Sim R (next event) (next' event)) :
      Sim R (.append m write eventId receivedTs next) (.append m write' eventId receivedTs next')

variable {R : W → W → Prop}
variable {work' : Work V W E α}

omit [DecidableEq V] [JsonValue V] in
theorem Work.Sim.bind {k' : α → Work V W E β} (h : work.Sim R work')
    (hk : ∀ a, (k a).Sim R (k' a)) : (work.bind k).Sim R (work'.bind k') := by
  induction h with
  | done a => exact hk a
  | fail e => exact .fail e
  | read _ ih => exact .read fun t t' hs => ih t t' hs
  | writeOwn hw _ ih => exact .writeOwn hw ih
  | append hw _ ih => exact .append hw fun event => ih event

/-- Journals that differ in what `R` lets the producers' tables differ. -/
structure JournalState.Same (R : W → W → Prop) (j j' : JournalState V W) : Prop where
  tables : j.tables.Same R j'.tables
  seq : j.seq = j'.seq

variable {j' : JournalState V W} {write : WriteMaterialized V W E}

theorem append_same (hs : j.Same R j') (m : DomainMutation V)
    {write' : WriteMaterialized V W E} (eventId : String) (receivedTs : Int)
    (hw : ∀ t t' revision, t.Same R t' → SameWrite R (write t revision) (write' t' revision)) :
    (mutateBatchWork j (.append m write eventId receivedTs .done)).1 =
        (mutateBatchWork j' (.append m write' eventId receivedTs .done)).1 ∧
      (mutateBatchWork j (.append m write eventId receivedTs .done)).2.Same R
        (mutateBatchWork j' (.append m write' eventId receivedTs .done)).2 := by
  obtain ⟨⟨journal, materialized, checkpoints, own⟩, seq, latest⟩ := j
  obtain ⟨⟨journal', materialized', checkpoints', own'⟩, seq', latest'⟩ := j'
  obtain ⟨⟨hj, hm, hc, hr⟩, hseq⟩ := hs
  dsimp only at hj hm hc hr hseq
  subst hj hm hc hseq
  have hone := hw ⟨journal, materialized, checkpoints, own⟩ ⟨journal, materialized, checkpoints, own'⟩
    (readCurrentRevision materialized m.entity + 1) ⟨rfl, rfl, rfl, hr⟩
  simp only [mutateBatchWork, Work.run, append]
  cases selectJournalRow journal eventId with
  | some existing =>
    by_cases hmatch : existing.matches m
    · simp only [hmatch, if_true]
      exact ⟨trivial, ⟨rfl, rfl, rfl, hr⟩, rfl⟩
    · simp only [hmatch, Bool.false_eq_true, if_false]
      exact ⟨trivial, ⟨rfl, rfl, rfl, hr⟩, rfl⟩
  | none =>
    dsimp only
    generalize write ⟨journal, materialized, checkpoints, own⟩ (readCurrentRevision materialized m.entity + 1) = r at hone ⊢
    generalize write' ⟨journal, materialized, checkpoints, own'⟩ (readCurrentRevision materialized m.entity + 1) = r'
      at hone ⊢
    cases hone with
    | error e => exact ⟨rfl, ⟨rfl, rfl, rfl, hr⟩, rfl⟩
    | ok hown =>
      simp only [insertJournalRow]
      by_cases hdup : (journal.any fun r => r.entity == m.entity &&
          r.entityRevision == readCurrentRevision materialized m.entity + 1)
      · simp only [hdup, if_true]
        exact ⟨trivial, ⟨rfl, rfl, rfl, hr⟩, rfl⟩
      · simp only [hdup, Bool.false_eq_true, if_false]
        exact ⟨trivial, ⟨rfl, rfl, rfl, hown⟩, rfl⟩

/-- **Related callbacks have the same result and leave related tables.** -/
theorem Work.Sim.autocommit (h : work.Sim R work') (hs : j.Same R j') :
    (work.autocommit j).1 = (work'.autocommit j').1 ∧ (work.autocommit j).2.Same R (work'.autocommit j').2 := by
  induction h generalizing j j' with
  | done a => exact ⟨rfl, hs⟩
  | fail e => exact ⟨rfl, hs⟩
  | read _ ih => exact ih _ _ hs.tables hs
  | @writeOwn write write' next next' hw _ ih =>
    have hone := hw _ _ hs.tables.own
    simp only [Work.autocommit]
    generalize write j.tables.own = r at hone ⊢
    generalize write' j'.tables.own = r' at hone ⊢
    cases hone with
    | error e => exact ⟨rfl, hs⟩
    | ok hown => exact ih ⟨⟨hs.tables.journal, hs.tables.materialized, hs.tables.checkpoints, hown⟩, hs.seq⟩
  | @append m write write' eventId receivedTs next next' hw _ ih =>
    obtain ⟨hres, hst⟩ := append_same hs m eventId receivedTs hw
    simp only [Work.autocommit]
    generalize mutateBatchWork j (.append m write eventId receivedTs .done) = r at hres hst ⊢
    generalize mutateBatchWork j' (.append m write' eventId receivedTs .done) = r' at hres hst ⊢
    obtain ⟨res, j1⟩ := r
    obtain ⟨res', j1'⟩ := r'
    dsimp only at hres hst
    subst hres
    cases res with
    | ok event => exact ih event hst
    | error e => exact ⟨rfl, hst⟩

/-! ## Revisions -/

def Consecutive (t t' : Tables V W) : Prop :=
  ∃ new, t'.journal = t.journal ++ new ∧ ∀ entity, revisionsOf new entity =
    List.range' (readCurrentRevision t.materialized entity + 1) (revisionsOf new entity).length ∧
      readCurrentRevision t'.materialized entity =
        readCurrentRevision t.materialized entity + (revisionsOf new entity).length

variable {tx' : Tx V W}

theorem append_revisions {ts : Int} {event : DomainEvent V} (hok : append tx m write eventId ts = .ok (event, tx')) :
    (selectJournalRow tx.tables.journal eventId).isSome ∧ tx'.tables = tx.tables ∨
      ∃ own, write tx.tables (readCurrentRevision tx.tables.materialized m.entity + 1) = .ok own ∧
        tx'.tables = tx.tables.appended tx.seq m eventId ts own := by
  unfold append at hok
  split at hok
  · rename_i existing hsel
    split at hok
    · cases hok
      exact Or.inl ⟨by rw [hsel]; rfl, rfl⟩
    · cases hok
  · simp only at hok
    split at hok
    · cases hok
    · rename_i own hown
      unfold insertJournalRow at hok
      split at hok
      · cases hok
      · cases hok
        exact Or.inr ⟨own, hown, rfl⟩

/-- **A committed transaction gives every entity consecutive revisions.** -/
theorem run_consecutive (work : Work V W E α) (h : work.run tx = .ok (a, tx')) : Consecutive tx.tables tx'.tables := by
  induction work generalizing tx with
  | done b =>
    cases h
    exact ⟨[], by simp, fun entity => by simp [revisionsOf]⟩
  | fail e => cases h
  | read next ih => exact ih _ h
  | writeOwn write next ih =>
    simp only [Work.run] at h
    split at h
    · cases h
    · obtain ⟨new, hnew, hrev⟩ := ih h
      exact ⟨new, hnew, hrev⟩
  | append m write eventId ts next ih =>
    simp only [Work.run] at h
    split at h
    · cases h
    · rename_i event mid hap
      obtain ⟨new, hnew, hrev⟩ := ih event h
      rcases append_revisions hap with ⟨-, ht⟩ | ⟨own, -, ht⟩
      · rw [ht] at hnew hrev
        exact ⟨new, hnew, hrev⟩
      · rw [ht] at hnew hrev
        refine ⟨⟨tx.seq + 1, eventId, readCurrentRevision tx.tables.materialized m.entity + 1, m, ts⟩ :: new, ?_, ?_⟩
        · rw [hnew]
          simp [Tables.appended]
        · intro entity
          obtain ⟨hnums, hlast⟩ := hrev entity
          rw [Tables.appended, readCurrentRevision_upsert] at hnums hlast
          have hsplit : revisionsOf ((⟨tx.seq + 1, eventId, readCurrentRevision tx.tables.materialized m.entity + 1, m, ts⟩ :
              JournalRow V) :: new) entity = (if m.entity = entity then
                [readCurrentRevision tx.tables.materialized m.entity + 1] else []) ++ revisionsOf new entity := by
            have hent : ∀ r : JournalRow V, r.mutation = m → r.entity = m.entity := fun r hr => by rw [← hr]; rfl
            unfold revisionsOf
            rw [List.filter_cons, hent _ rfl]
            by_cases he : m.entity = entity <;> simp [he]
          rw [hsplit]
          by_cases he : m.entity = entity
          · subst he
            rw [if_pos rfl] at hnums hlast ⊢
            refine ⟨?_, ?_⟩
            · rw [List.singleton_append, List.length_cons, List.range'_succ, ← hnums]
            · rw [hlast, List.singleton_append, List.length_cons]
              omega
          · rw [if_neg he] at hnums hlast ⊢
            rw [List.nil_append]
            exact ⟨hnums, hlast⟩

/-! ## Callbacks and the producer's tables -/

/-- From the tables `own`: when the callback returns, its result and the tables that it leaves satisfy `Q`. -/
def Work.Ensures (Q : α → W → Prop) : Work V W E α → W → Prop
  | .done a, own => Q a own
  | .fail _, _ => True
  | .read next, own => ∀ t : Tables V W, t.own = own → (next t).Ensures Q own
  | .writeOwn write next, own => ∀ own', write own = .ok own' → next.Ensures Q own'
  | .append _ write _ _ next, own => ∀ event own', (own' = own ∨ ∃ t : Tables V W, ∃ revision, t.own = own ∧
      write t revision = .ok own') → (next event).Ensures Q own'

variable {Q : α → W → Prop}

theorem Work.Ensures.run {work : Work V W E α} {tx : Tx V W}
    (h : work.Ensures Q tx.tables.own) (hrun : work.run tx = .ok (a, tx')) : Q a tx'.tables.own := by
  induction work generalizing tx with
  | done b =>
    cases hrun
    exact h
  | fail e => cases hrun
  | read next ih => exact ih _ (h _ rfl) hrun
  | writeOwn write next ih =>
    rw [Work.run] at hrun
    split at hrun
    · cases hrun
    · rename_i own hown
      exact ih (h own hown) hrun
  | append m write eventId ts next ih =>
    rw [Work.run] at hrun
    split at hrun
    · cases hrun
    · rename_i event mid hap
      refine ih event (h event _ ?_) hrun
      rcases append_row hap with ⟨-, -, -, -, ht⟩ | ⟨-, -, -, -, hown⟩
      · exact Or.inl (by rw [ht])
      · exact Or.inr ⟨_, _, rfl, hown⟩

omit [DecidableEq V] [JsonValue V] in
theorem Work.Ensures.mono {Q' : α → W → Prop} {work : Work V W E α} (h : work.Ensures Q own)
    (hQ : ∀ a own', Q a own' → Q' a own') : work.Ensures Q' own := by
  induction work generalizing own with
  | done a => exact hQ a own h
  | fail e => trivial
  | read next ih => exact fun t ht => ih t (h t ht)
  | writeOwn write next ih => exact fun own' hown => ih (h own' hown)
  | append m write eventId ts next ih => exact fun event own' hown => ih event (h event own' hown)

omit [DecidableEq V] [JsonValue V] in
theorem Work.Ensures.bind {Q' : β → W → Prop} {work : Work V W E α}
    (h : work.Ensures Q own) (hk : ∀ a own', Q a own' → (k a).Ensures Q' own') : (work.bind k).Ensures Q' own := by
  induction work generalizing own with
  | done a => exact hk a own h
  | fail e => trivial
  | read next ih => exact fun t ht => ih t (h t ht)
  | writeOwn write next ih => exact fun own' hown => ih (h own' hown)
  | append m write eventId ts next ih => exact fun event own' hown => ih event (h event own' hown)

/-- **What a batch leaves**: what its callback ensures, or the tables as they were. -/
theorem mutateBatchWork_ensures {work : Work V W E α} {j : JournalState V W} (h : work.Ensures Q j.tables.own) :
    (∃ a, (mutateBatchWork j work).1 = .ok a ∧ Q a (mutateBatchWork j work).2.tables.own) ∨
      ∃ e, (mutateBatchWork j work).1 = .error e ∧ (mutateBatchWork j work).2.tables = j.tables := by
  unfold mutateBatchWork
  split
  · exact Or.inr ⟨_, rfl, rfl⟩
  · rename_i a tx hrun
    exact Or.inl ⟨a, rfl, h.run hrun⟩

end MmrTrader.Journal
