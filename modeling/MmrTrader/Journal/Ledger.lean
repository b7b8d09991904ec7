import Mathlib.Logic.Relation
import MmrTrader.Journal.Model

/-!
# Ledger laws of the journal

`Ledger t seq hist` relates the tables to the history `hist` of every event ever committed
(compaction deletes rows from the journal, never from the history):

* the revisions of each entity in the history are exactly `1 … n` in cursor order, and `n` is the
  revision of its materialized row;
* cursors increase strictly in commit order and stay below the sequence;
* the journal is a part of the history, with distinct event ids.

`append_spec` says once what one append can do; `run_ledger` lifts it over a whole callback and
`runCalls_ledger` over every sequence of batches and compactions.  `WorkStep` is the small-step
reading of a callback, used to speak about an append in the middle of a batch.
-/

namespace MmrTrader.Journal

open MmrTrader.Lib Relation

variable {V W E α : Type}

/-- The mutation with its payload in canonical form: what `_matches` compares. -/
def DomainMutation.canonical (m : DomainMutation V) : DomainMutation V :=
  { m with
    payload := canonicalPayload m.payload
    payload_iff_upsert := by rw [← m.payload_iff_upsert]; simp [canonicalPayload] }

theorem matches_iff [DecidableEq V] (row : JournalRow V) (m : DomainMutation V) :
    row.matches m = true ↔ row.mutation.canonical = m.canonical := by
  obtain ⟨_, _, _, ⟨_, _, _, _, _, _, _, _, _, _⟩, _⟩ := row
  obtain ⟨_, _, _, _, _, _, _, _, _, _⟩ := m
  simp [JournalRow.matches, DomainMutation.canonical, and_assoc]

def revisionsOf (hist : List (JournalRow V)) (entity : String × String) : List Nat :=
  (hist.filter fun r => r.entity = entity).map (·.entityRevision)

structure Ledger (t : Tables V W) (seq : Nat) (hist : List (JournalRow V)) : Prop where
  cursors : hist.Pairwise (fun a b => a.sourceCursor < b.sourceCursor)
  bounded : ∀ r ∈ hist, r.sourceCursor ≤ seq
  kept : t.journal.Sublist hist
  ids : (t.journal.map (·.eventId)).Nodup
  revisions : ∀ entity, revisionsOf hist entity = List.range' 1 (readCurrentRevision t.materialized entity)

theorem Ledger.empty (own : W) : Ledger (V := V) ⟨[], Table.empty, [], own⟩ 0 [] :=
  ⟨.nil, by simp, by simp, by simp, by simp [revisionsOf, readCurrentRevision]⟩

variable {t : Tables V W} {seq : Nat}

theorem Ledger.withOwn {hist : List (JournalRow V)} (h : Ledger t seq hist)
    (own : W) : Ledger { t with own := own } seq hist := ⟨h.1, h.2, h.3, h.4, h.5⟩

/-! ## One append -/

theorem readCurrentRevision_upsert [JsonValue V] (rows : MaterializedTable V) (m : DomainMutation V)
    (revision : Nat) (ts : Int) (entity : String × String) :
    readCurrentRevision (upsertMaterialized rows m revision ts) entity =
      if m.entity = entity then revision else readCurrentRevision rows entity := by
  unfold readCurrentRevision upsertMaterialized
  rw [Table.get?_upsert]
  simp only [MaterializedRow.entity, DomainMutation.entity]
  by_cases h : (m.entityType, m.entityId) = entity <;> simp [h]

theorem revisionsOf_append (hist : List (JournalRow V)) (row : JournalRow V) (entity : String × String) :
    revisionsOf (hist ++ [row]) entity =
      revisionsOf hist entity ++ if row.entity = entity then [row.entityRevision] else [] := by
  unfold revisionsOf
  by_cases h : row.entity = entity <;> simp [List.filter_append, h]

theorem Ledger.extend [JsonValue V] {hist : List (JournalRow V)} (h : Ledger t seq hist) (own : W) (row : JournalRow V) (ts : Int)
    (hcur : row.sourceCursor = seq + 1) (hrev : row.entityRevision = readCurrentRevision t.materialized row.entity + 1)
    (hid : ∀ r ∈ t.journal, r.eventId ≠ row.eventId) :
    Ledger
      { t with
        journal := t.journal ++ [row]
        materialized := upsertMaterialized t.materialized row.mutation row.entityRevision ts
        own := own }
      (seq + 1) (hist ++ [row]) where
  cursors := by
    rw [List.pairwise_append]
    refine ⟨h.cursors, List.pairwise_singleton _ _, ?_⟩
    intro a ha b hb
    obtain rfl := List.mem_singleton.mp hb
    have := h.bounded a ha
    omega
  bounded := by
    intro r hr
    rcases List.mem_append.mp hr with hr | hr
    · exact Nat.le_succ_of_le (h.bounded r hr)
    · obtain rfl := List.mem_singleton.mp hr
      exact hcur.le
  kept := h.kept.append (List.Sublist.refl _)
  ids := by
    rw [List.map_append, List.nodup_append]
    refine ⟨h.ids, by simp, ?_⟩
    intro a ha b hb
    obtain ⟨r, hr, rfl⟩ := List.mem_map.mp ha
    simp only [List.map_cons, List.map_nil, List.mem_singleton] at hb
    subst hb
    exact hid r hr
  revisions := by
    intro entity
    rw [revisionsOf_append, h.revisions, readCurrentRevision_upsert]
    by_cases he : row.entity = entity
    · subst he
      have hm : row.mutation.entity = row.entity := rfl
      rw [if_pos rfl, if_pos hm, hrev, List.range'_concat]
      simp [Nat.add_comm]
    · have hm : row.mutation.entity ≠ entity := he
      rw [if_neg he, if_neg hm, List.append_nil]

variable {journal : List (JournalRow V)}
variable {row : JournalRow V}

theorem selectJournalRow_some {eventId : String}
    (h : selectJournalRow journal eventId = some row) : row ∈ journal ∧ row.eventId = eventId :=
  ⟨List.mem_of_find?_eq_some h, by simpa using List.find?_some h⟩

theorem selectJournalRow_none {eventId : String}
    (h : selectJournalRow journal eventId = none) : ∀ r ∈ journal, r.eventId ≠ eventId := by
  intro r hr
  simpa using List.find?_eq_none.mp h r hr

theorem selectJournalRow_mem (hids : (journal.map (·.eventId)).Nodup)
    (h : row ∈ journal) : selectJournalRow journal row.eventId = some row := by
  cases hs : selectJournalRow journal row.eventId with
  | none => exact absurd rfl (selectJournalRow_none hs row h)
  | some r =>
    obtain ⟨hr, hid⟩ := selectJournalRow_some hs
    rw [List.inj_on_of_nodup_map hids hr h hid]

section
variable [DecidableEq V] [JsonValue V]
variable {tx : Tx V W} {m : DomainMutation V} {write : WriteMaterialized V W E} {eventId : String} {ts : Int}
variable {tx' : Tx V W} {event : DomainEvent V}

/-- **What one append can do.**  Either the journal holds the id and nothing is written, or one
    row is added with the next cursor and the next revision of its entity. -/
theorem append_spec {hist : List (JournalRow V)}
    (h : Ledger tx.tables tx.seq hist) (hok : append tx m write eventId ts = .ok (event, tx')) :
    (tx'.tables = tx.tables ∧ tx'.seq = tx.seq) ∨
    ∃ row : JournalRow V, row.sourceCursor = tx.seq + 1 ∧
      tx'.tables.journal = tx.tables.journal ++ [row] ∧
      Ledger tx'.tables tx'.seq (hist ++ [row]) := by
  unfold append at hok
  split at hok
  · split at hok
    · cases hok; exact Or.inl ⟨rfl, rfl⟩
    · cases hok
  · rename_i hsel
    simp only at hok
    split at hok
    · cases hok
    · rename_i own _
      unfold insertJournalRow at hok
      split at hok
      · cases hok
      · cases hok
        refine Or.inr ⟨_, rfl, rfl, ?_⟩
        exact h.extend own ⟨tx.seq + 1, eventId, readCurrentRevision tx.tables.materialized m.entity + 1, m, ts⟩
          ts rfl rfl (selectJournalRow_none hsel)

theorem append_row (hok : append tx m write eventId ts = .ok (event, tx')) :
    (∃ row ∈ tx.tables.journal, row.eventId = eventId ∧ row.mutation.canonical = m.canonical ∧ tx'.tables = tx.tables) ∨
    ∃ row : JournalRow V, row.eventId = eventId ∧ row.mutation = m ∧
      tx'.tables.journal = tx.tables.journal ++ [row] ∧
      write tx.tables (readCurrentRevision tx.tables.materialized m.entity + 1) = .ok tx'.tables.own := by
  unfold append at hok
  split at hok
  · rename_i existing hsel
    obtain ⟨hmem, hid⟩ := selectJournalRow_some hsel
    split at hok
    · rename_i hmatch
      cases hok
      exact Or.inl ⟨existing, hmem, hid, (matches_iff existing m).mp hmatch, rfl⟩
    · cases hok
  · simp only at hok
    split at hok
    · cases hok
    · rename_i own hown
      unfold insertJournalRow at hok
      split at hok
      · cases hok
      · cases hok
        exact Or.inr ⟨_, rfl, rfl, rfl, hown⟩

theorem append_error_seq {e : JournalError E × Nat} (herr : append tx m write eventId ts = .error e) : e.2 = tx.seq := by
  unfold append at herr
  split at herr
  · split at herr <;> cases herr
    rfl
  · simp only at herr
    split at herr
    · cases herr; rfl
    · unfold insertJournalRow at herr
      split at herr <;> cases herr
      rfl

/-- A callback that returns has added `new` rows, all with cursors above the sequence it saw. -/
theorem run_ledger (work : Work V W E α) :
    ∀ {tx tx' : Tx V W} {hist : List (JournalRow V)} {a : α}, Ledger tx.tables tx.seq hist →
      work.run tx = .ok (a, tx') →
      ∃ new, tx'.tables.journal = tx.tables.journal ++ new ∧ (∀ r ∈ new, tx.seq < r.sourceCursor) ∧
        Ledger tx'.tables tx'.seq (hist ++ new) := by
  induction work with
  | done result =>
    intro tx tx' hist a h hok
    cases hok
    exact ⟨[], by simp, by simp, by simpa using h⟩
  | fail e => intro tx tx' hist a h hok; cases hok
  | read next ih =>
    intro tx tx' hist a h hok
    exact ih tx.tables h hok
  | writeOwn write next ih =>
    intro tx tx' hist a h hok
    simp only [Work.run] at hok
    split at hok
    · cases hok
    · rename_i own _
      have hmid : Ledger (Tx.mk { tx.tables with own := own } tx.seq tx.events).tables tx.seq hist := h.withOwn own
      obtain ⟨new, hnew, hgt, hl⟩ := ih hmid hok
      exact ⟨new, hnew, hgt, hl⟩
  | append m write eventId ts next ih =>
    intro tx tx' hist a h hok
    simp only [Work.run] at hok
    split at hok
    · cases hok
    · rename_i event mid hap
      rcases append_spec h hap with ⟨ht, hs⟩ | ⟨row, hcur, hj, hl⟩
      · have hmid : Ledger mid.tables mid.seq hist := by rw [ht, hs]; exact h
        obtain ⟨new, hnew, hgt, hl'⟩ := ih event hmid hok
        exact ⟨new, by rw [hnew, ht], by rw [← hs]; exact hgt, hl'⟩
      · obtain ⟨new, hnew, hgt, hl'⟩ := ih event hl hok
        have hseq : tx.seq + 1 ≤ mid.seq := hcur ▸ hl.bounded row (by simp)
        refine ⟨row :: new, by rw [hnew, hj]; simp, ?_, by simpa using hl'⟩
        intro r hr
        rcases List.mem_cons.mp hr with rfl | hr
        · omega
        · have := hgt r hr
          omega

/-- Cursors taken before an error are burned, never given back. -/
theorem run_error_seq (work : Work V W E α) :
    ∀ {tx : Tx V W} {hist : List (JournalRow V)} {e : JournalError E × Nat},
      Ledger tx.tables tx.seq hist → work.run tx = .error e → tx.seq ≤ e.2 := by
  induction work with
  | done result => intro tx hist e h herr; cases herr
  | fail e => intro tx hist e h herr; cases herr; exact Nat.le_refl _
  | read next ih => intro tx hist e h herr; exact ih tx.tables h herr
  | writeOwn write next ih =>
    intro tx hist e h herr
    simp only [Work.run] at herr
    split at herr
    · cases herr; exact Nat.le_refl _
    · rename_i own _
      have hmid : Ledger (Tx.mk { tx.tables with own := own } tx.seq tx.events).tables tx.seq hist := h.withOwn own
      have hseq := ih hmid herr
      exact hseq
  | append m write eventId ts next ih =>
    intro tx hist e h herr
    simp only [Work.run] at herr
    split at herr
    · rename_i hap
      cases herr
      exact (append_error_seq hap).ge
    · rename_i event mid hap
      rcases append_spec h hap with ⟨ht, hs⟩ | ⟨row, hcur, _, hl⟩
      · have hmid : Ledger mid.tables mid.seq hist := by rw [ht, hs]; exact h
        exact hs ▸ ih event hmid herr
      · have hseq : tx.seq + 1 ≤ mid.seq := hcur ▸ hl.bounded row (by simp)
        have := ih event hl herr
        omega

end

/-! ## Every sequence of batches and compactions -/

/-- One call on the journal; a batch commits or raises as its callback does. -/
inductive Call (V W E α : Type) where
  | batch (work : Work V W E α)
  | compact (now completedAt : Int) (commits : Bool)

section
variable [DecidableEq V] [JsonValue V]

def Call.exec (j : JournalState V W) : Call V W E α → JournalState V W
  | .batch work => (mutateBatchWork j work).2
  | .compact now completedAt commits => Journal.compact j now completedAt commits

/-- The journal together with the history of every event it ever committed: a call adds the rows
    it leaves above the sequence value it started from. -/
def stepCall (s : JournalState V W × List (JournalRow V)) (c : Call V W E α) :
    JournalState V W × List (JournalRow V) :=
  let j' := c.exec s.1
  (j', s.2 ++ j'.tables.journal.filter fun r => s.1.seq < r.sourceCursor)

def runCalls (own : W) (calls : List (Call V W E α)) : JournalState V W × List (JournalRow V) :=
  calls.foldl stepCall (JournalState.empty own, [])

variable {j : JournalState V W} {work : Work V W E α}

/-- A failed batch changes no table and never moves the commit signal. -/
theorem mutateBatchWork_error {e : JournalError E} (h : (mutateBatchWork j work).1 = .error e) :
    (mutateBatchWork j work).2.tables = j.tables ∧
      (mutateBatchWork j work).2.latestCommittedCursor = j.latestCommittedCursor := by
  unfold mutateBatchWork at h ⊢
  split at h
  · exact ⟨rfl, rfl⟩
  · cases h

variable {hist : List (JournalRow V)}

omit [DecidableEq V] [JsonValue V] in
/-- **Compaction keeps the laws**: it deletes journal rows and touches nothing else they read. -/
theorem compact_ledger (now completedAt : Int) (commits : Bool) (h : Ledger j.tables j.seq hist) :
    Ledger (compact j now completedAt commits).tables (compact j now completedAt commits).seq hist := by
  unfold compact
  split
  · have hsub := List.filter_sublist (p := fun r : JournalRow V =>
      decide (timeFloorCursor j.tables.journal now ≤ r.sourceCursor)) (l := j.tables.journal)
    exact ⟨h.cursors, h.bounded, hsub.trans h.kept, h.ids.sublist (hsub.map _), h.revisions⟩
  · exact h

omit [DecidableEq V] [JsonValue V] in
theorem filter_above_eq_nil {journal : List (JournalRow V)} {seq : Nat}
    (hk : journal.Sublist hist) (hb : ∀ r ∈ hist, r.sourceCursor ≤ seq) :
    (journal.filter fun r => seq < r.sourceCursor) = [] := by
  rw [List.filter_eq_nil_iff]
  intro r hr
  have := hb r (hk.subset hr)
  simpa using this

theorem stepCall_ledger {s : JournalState V W × List (JournalRow V)} (c : Call V W E α)
    (h : Ledger s.1.tables s.1.seq s.2) :
    Ledger (stepCall s c).1.tables (stepCall s c).1.seq (stepCall s c).2 := by
  obtain ⟨j, hist⟩ := s
  cases c with
  | batch work =>
    simp only [stepCall, Call.exec, mutateBatchWork]
    cases hrun : work.run ⟨j.tables, j.seq, []⟩ with
    | error e =>
      have hopen : Ledger (Tx.mk j.tables j.seq []).tables (Tx.mk j.tables j.seq []).seq hist := h
      have hseq : j.seq ≤ e.2 := run_error_seq work hopen hrun
      simp only [filter_above_eq_nil h.kept h.bounded, List.append_nil]
      exact ⟨h.cursors, fun r hr => (h.bounded r hr).trans hseq, h.kept, h.ids, h.revisions⟩
    | ok r =>
      obtain ⟨a, tx⟩ := r
      have hopen : Ledger (Tx.mk j.tables j.seq []).tables (Tx.mk j.tables j.seq []).seq hist := h
      obtain ⟨new, hnew, hgt, hl⟩ := run_ledger work hopen hrun
      have hfil : (tx.tables.journal.filter fun r => j.seq < r.sourceCursor) = new := by
        rw [hnew, List.filter_append, filter_above_eq_nil h.kept h.bounded, List.nil_append,
          List.filter_eq_self]
        intro r hr
        simpa using hgt r hr
      simp only [hfil]
      exact hl
  | compact now completedAt commits =>
    have hl := compact_ledger now completedAt commits h
    simp only [stepCall, Call.exec]
    rw [filter_above_eq_nil hl.kept h.bounded, List.append_nil]
    exact hl

theorem runCalls_ledger (own : W) (calls : List (Call V W E α)) :
    Ledger (runCalls own calls).1.tables (runCalls own calls).1.seq (runCalls own calls).2 := by
  unfold runCalls
  suffices ∀ (cs : List (Call V W E α)) (s : JournalState V W × List (JournalRow V)),
      Ledger s.1.tables s.1.seq s.2 →
        Ledger (cs.foldl stepCall s).1.tables (cs.foldl stepCall s).1.seq (cs.foldl stepCall s).2 from
    this calls _ (Ledger.empty own)
  intro cs
  induction cs with
  | nil => intro s h; exact h
  | cons c cs ih => intro s h; exact ih _ (stepCall_ledger c h)

/-! ## An append in the middle of a batch -/

/-- One action of a callback that does not raise. -/
inductive WorkStep : Work V W E α × Tx V W → Work V W E α × Tx V W → Prop where
  | read (next : Tables V W → Work V W E α) (tx : Tx V W) :
      WorkStep (.read next, tx) (next tx.tables, tx)
  | writeOwn (write : W → Except E W) (next : Work V W E α) (tx : Tx V W) (own : W)
      (h : write tx.tables.own = .ok own) :
      WorkStep (.writeOwn write next, tx) (next, { tx with tables := { tx.tables with own := own } })
  | append (m : DomainMutation V) (write : WriteMaterialized V W E) (eventId : String) (ts : Int)
      (next : DomainEvent V → Work V W E α) (tx tx' : Tx V W) (event : DomainEvent V)
      (h : Journal.append tx m write eventId ts = .ok (event, tx')) :
      WorkStep (.append m write eventId ts next, tx) (next event, tx')

variable {a b : Work V W E α × Tx V W}

theorem workStep_run (h : WorkStep a b) : a.1.run a.2 = b.1.run b.2 := by
  cases h with
  | read => rfl
  | writeOwn write next tx own hw => simp only [Work.run, hw]
  | append m write eventId ts next tx tx' event hap => simp only [Work.run, hap]

theorem workStep_ledger (h : WorkStep a b)
    (hl : ∃ hist, Ledger a.2.tables a.2.seq hist) : ∃ hist, Ledger b.2.tables b.2.seq hist := by
  obtain ⟨hist, hl⟩ := hl
  cases h with
  | read => exact ⟨hist, hl⟩
  | writeOwn write next tx own hw => exact ⟨hist, hl.withOwn own⟩
  | append m write eventId ts next tx tx' event hap =>
    rcases append_spec hl hap with ⟨ht, hs⟩ | ⟨row, _, _, hl'⟩
    · exact ⟨hist, by rw [ht, hs]; exact hl⟩
    · exact ⟨_, hl'⟩

/-- The point `(rest, tx)` is reached inside the batch that runs `work` on `j`. -/
def InBatch (j : JournalState V W) (work rest : Work V W E α) (tx : Tx V W) : Prop :=
  ReflTransGen WorkStep (work, ⟨j.tables, j.seq, []⟩) (rest, tx)

variable {rest : Work V W E α}

theorem InBatch.run_eq {tx : Tx V W} (h : InBatch j work rest tx) : work.run ⟨j.tables, j.seq, []⟩ = rest.run tx := by
  have : ∀ b : Work V W E α × Tx V W, ReflTransGen WorkStep (work, ⟨j.tables, j.seq, []⟩) b →
      work.run ⟨j.tables, j.seq, []⟩ = b.1.run b.2 := by
    intro b hb
    induction hb with
    | refl => rfl
    | tail _ hstep ih => rw [ih, workStep_run hstep]
  exact this _ h

theorem InBatch.ids {tx : Tx V W} (h : InBatch j work rest tx) (hl : Ledger j.tables j.seq hist) :
    (tx.tables.journal.map (·.eventId)).Nodup := by
  have : ∀ b : Work V W E α × Tx V W, ReflTransGen WorkStep (work, ⟨j.tables, j.seq, []⟩) b →
      ∃ hist, Ledger b.2.tables b.2.seq hist := by
    intro b hb
    induction hb with
    | refl => exact ⟨hist, hl⟩
    | tail _ hstep ih => exact workStep_ledger hstep ih
  obtain ⟨_, hl'⟩ := this _ h
  exact hl'.ids

/-- **Ledger laws.**  For every sequence of batches (each committing or raising) and compactions:
    entity revisions are `1 … n` in commit order, also across tombstones and compactions, and the
    materialized row carries `n`; cursors increase in commit order; the journal holds nothing but
    committed events; a batch that raises changes no table and no signal; and inside any batch an
    event id the journal holds is answered with the recorded event and no write when the mutation
    is equal, and ends the whole batch with everything rolled back when it is not. -/
theorem ledger_laws (own : W) (calls : List (Call V W E α)) :
    let j := (runCalls own calls).1
    let hist := (runCalls own calls).2
    (∀ entity, revisionsOf hist entity = List.range' 1 (readCurrentRevision j.tables.materialized entity)) ∧
    (∀ row ∈ j.tables.materialized.rows, row.entityRevision = (revisionsOf hist row.entity).length) ∧
    hist.Pairwise (fun a b => a.sourceCursor < b.sourceCursor) ∧
    j.tables.journal.Sublist hist ∧
    (∀ (work : Work V W E α) (e : JournalError E), (mutateBatchWork j work).1 = .error e →
      (mutateBatchWork j work).2.tables = j.tables ∧
      (mutateBatchWork j work).2.latestCommittedCursor = j.latestCommittedCursor) ∧
    (∀ (work : Work V W E α) (m : DomainMutation V) (write : WriteMaterialized V W E) (ts : Int)
      (next : DomainEvent V → Work V W E α) (tx : Tx V W), ∀ row ∈ tx.tables.journal,
      InBatch j work (.append m write row.eventId ts next) tx →
      (row.mutation.canonical = m.canonical →
        InBatch j work (next row.toEvent) { tx with events := tx.events ++ [row.toEvent] }) ∧
      (row.mutation.canonical ≠ m.canonical →
        mutateBatchWork j work = (.error (.eventIdentityConflict row.eventId), { j with seq := tx.seq }))) := by
  intro j hist
  have hl : Ledger j.tables j.seq hist := runCalls_ledger own calls
  refine ⟨hl.revisions, ?_, hl.cursors, hl.kept, fun work e => mutateBatchWork_error, ?_⟩
  · intro row hrow
    rw [hl.revisions, List.length_range', readCurrentRevision, Table.get?_of_mem hrow]
  · intro work m write ts next tx row hrow hin
    have hsel := selectJournalRow_mem (hin.ids hl) hrow
    constructor
    · intro heq
      refine hin.tail (WorkStep.append m write row.eventId ts next tx _ row.toEvent ?_)
      simp only [append, hsel, (matches_iff row m).mpr heq, if_true]
    · intro hne
      have hm : row.matches m = false := by
        rw [Bool.eq_false_iff]
        exact fun h => hne ((matches_iff row m).mp h)
      have hrun : work.run ⟨j.tables, j.seq, []⟩ = .error (.eventIdentityConflict row.eventId, tx.seq) := by
        rw [hin.run_eq]
        simp only [Work.run, append, hsel, hm, Bool.false_eq_true, if_false]
      simp only [mutateBatchWork, hrun]

end

end MmrTrader.Journal
