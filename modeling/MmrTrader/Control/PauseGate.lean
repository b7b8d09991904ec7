import MmrTrader.Control.TradingControl
import MmrTrader.Lib.GuardedRun

/-!
# Paused means no new exposure

What the transactions of the gate do to an account's row (`Effect`), and what follows for every
interleaving of them under snapshot isolation.

* `Lawful` — no claim commits while a pause stands, a resume meets the current revision, and the
  row's revision is the entity's revision in the journal and rises by one per change;
* `paused_no_exposure_iff` — that holds throughout a run exactly when no pause commits between the
  `BEGIN` and the `COMMIT` of a claim and still stands at the `COMMIT`: the claim only reads the row,
  so the two do not conflict, and `set` does not take the journal's write lock.
-/

namespace MmrTrader.Control

open MmrTrader.Journal (DomainMutation MaterializedRow JournalRow Payload)
open MmrTrader.Lib MmrTrader.Lib.Snapshot

variable {R : Type} [DecidableEq R] {D : R → Type}

/-! ## What one transaction does to a row -/

def controlRevision {accountId : String} (row : Option (ControlRow accountId)) : Nat := row.elim 0 (·.1.revision)

def entityRevision (row : Option (MaterializedRow Scalar)) : Nat := row.elim 0 (·.entityRevision)

/-- The transaction wrote `row` for the account, with one event of the entity's next revision. -/
structure Change (conn : GateConn D) (accountId : String) (row : ControlRow accountId) : Prop where
  wrote : .control accountId ∈ conn.wrote
  view : conn.view (.control accountId) = some row
  revision : row.1.revision = controlRevision (conn.base (.control accountId)) + 1
  entity : .materialized ENTITY_TYPE accountId ∈ conn.wrote
  entityView : ∃ m, conn.view (.materialized ENTITY_TYPE accountId) = some m ∧
    m.entityRevision = entityRevision (conn.base (.materialized ENTITY_TYPE accountId)) + 1
  event : ∃ j correlationId, j.mutation = controlMutation row.1 correlationId ∧
    j.entityRevision = entityRevision (conn.base (.materialized ENTITY_TYPE accountId)) + 1 ∧
    conn.view (.journal ENTITY_TYPE accountId j.entityRevision) = some j

/-- The transaction left the account alone. -/
structure Kept (conn : GateConn D) (accountId : String) : Prop where
  control : .control accountId ∉ conn.wrote
  entity : .materialized ENTITY_TYPE accountId ∉ conn.wrote

def Effect (conn : GateConn D) (accountId : String) : Prop :=
  Kept conn accountId ∨ ∃ row, Change conn accountId row

omit [DecidableEq R] in
theorem Kept.start (s : Store (Key R) (Rows D)) (a : String) : Kept (Conn.start s) a :=
  ⟨by simp, by simp⟩

variable {conn : GateConn D} {a : String} {k : Key R}

/-- Writing rows of other keys changes nothing for an account. -/
theorem Kept.put (h : Kept conn a) (v : Rows D k)
    (hc : k ≠ .control a) (hm : k ≠ .materialized ENTITY_TYPE a) : Kept (conn.put k v) a :=
  ⟨by simp [h.control, hc.symm], by simp [h.entity, hm.symm]⟩

variable {row : ControlRow a}

theorem Change.put (h : Change conn a row) (v : Rows D k) (hc : k ≠ .control a) (hm : k ≠ .materialized ENTITY_TYPE a)
    (hj : ∀ n, k ≠ .journal ENTITY_TYPE a n) : Change (conn.put k v) a row := by
  obtain ⟨m, hview, hrev⟩ := h.entityView
  obtain ⟨j, correlationId, hmut, hn, hjview⟩ := h.event
  refine ⟨?_, ?_, h.revision, ?_, ⟨m, ?_, hrev⟩, ⟨j, correlationId, hmut, hn, ?_⟩⟩
  · simp [h.wrote]
  · rw [Conn.put_view_ne _ _ hc.symm, h.view]
  · simp [h.entity]
  · rw [Conn.put_view_ne _ _ hm.symm, hview]
  · rw [Conn.put_view_ne _ _ (hj _).symm, hjview]

theorem Effect.put (h : Effect conn a) (v : Rows D k)
    (hc : k ≠ .control a) (hm : k ≠ .materialized ENTITY_TYPE a) (hj : ∀ n, k ≠ .journal ENTITY_TYPE a n) :
    Effect (conn.put k v) a := by
  rcases h with h | ⟨row, h⟩
  · exact Or.inl (h.put v hc hm)
  · exact Or.inr ⟨row, h.put v hc hm hj⟩

omit [DecidableEq R] in
theorem readCurrentRevision_eq (conn : GateConn D) (entityType entityId : String) :
    readCurrentRevision conn entityType entityId = entityRevision (conn.view (.materialized entityType entityId)) := by
  unfold readCurrentRevision entityRevision
  split <;> simp_all

variable {conn' : GateConn D}
variable {cursor : Nat} {state : TradingControlState} {correlationId eventId : String}

theorem journalInTx_ok (h : journalInTx conn cursor state correlationId eventId = .ok conn') :
    ∃ m j, m.entityRevision = entityRevision (conn.view (.materialized ENTITY_TYPE state.accountId)) + 1 ∧
      j.mutation = controlMutation state correlationId ∧ j.entityRevision = m.entityRevision ∧
      conn' = ((conn.put (.materialized ENTITY_TYPE state.accountId) m).put
        (.journal ENTITY_TYPE state.accountId j.entityRevision) j).put (.eventId eventId) () := by
  simp only [journalInTx, insertJournalRow] at h
  split at h
  · cases h
  · cases h
    refine ⟨⟨ENTITY_TYPE, state.accountId, some state.accountId, _, false, _, state.updatedAt⟩,
      ⟨cursor, eventId, _, controlMutation state correlationId, state.updatedAt⟩, ?_, rfl, rfl, rfl⟩
    rw [readCurrentRevision_eq]
    rfl

/-- Writing a row that this transaction has not written yet, together with its event. -/
theorem Kept.change {account : String} {r : ControlRow account} (hk : Kept conn account) (hall : ∀ a, Effect conn a)
    (hrev : r.1.revision = controlRevision (conn.base (.control account)) + 1)
    (h : journalInTx (conn.put (.control account) r) cursor r.1 correlationId eventId = .ok conn') :
    conn'.base = conn.base ∧ Change conn' account r ∧
      ∀ a, a ≠ account → (Kept conn a → Kept conn' a) ∧ Effect conn' a := by
  obtain ⟨m, j, hm, hmut, hj, rfl⟩ := journalInTx_ok h
  obtain ⟨state, rfl⟩ := r
  have hbase : conn.view (.materialized ENTITY_TYPE state.accountId) =
      conn.base (.materialized ENTITY_TYPE state.accountId) := conn.view_eq _ hk.entity
  rw [Conn.put_view_ne _ _ (by simp), hbase] at hm
  refine ⟨rfl, ⟨by simp, ?_, hrev, by simp, ⟨m, ?_, hm⟩, ⟨j, correlationId, hmut, hj.trans hm, ?_⟩⟩, ?_⟩
  · simp [Conn.put_view_ne]
  · simp [Conn.put_view_ne]
  · simp [Conn.put_view_ne]
  · intro a ha
    constructor
    · intro hka
      exact (((hka.put _ (by simp [ha.symm]) (by simp)).put _ (by simp) (by simp [ha.symm])).put _ (by simp)
        (by simp)).put _ (by simp) (by simp)
    · exact ((((hall a).put _ (by simp [ha.symm]) (by simp) (by simp)).put _ (by simp) (by simp [ha.symm])
        (by simp)).put _ (by simp) (by simp) (by simp [ha.symm])).put _ (by simp) (by simp) (by simp)

/-- Why a transaction changed an account's row. -/
inductive Reason (tx : Txn D) (conn : GateConn D) (a : String) (row : ControlRow a) : Prop where
  | seeded (accounts : List (String × AccountMode × Nat)) (now : Int) (htx : tx = .seed accounts now)
      (hbase : conn.base (.control a) = none)
  | set (p : SetPause) (current : ControlRow a) (htx : tx = .set p) (ha : p.accountId = a)
      (hbase : conn.base (.control a) = some current) (hnew : row.1.newExposurePaused = p.paused)
      (htoggle : current.1.newExposurePaused ≠ p.paused)
      (hexpected : p.paused = false → p.expectedRevision = some (current.1.revision : Int))

/-- What a transaction of the gate does to an account. -/
def TxEffect (tx : Txn D) (conn : GateConn D) (a : String) : Prop :=
  Kept conn a ∨ ∃ row, Change conn a row ∧ Reason tx conn a row

theorem seedInTx_base {now : Int} {accounts : List (String × AccountMode × Nat)}
    (hall : ∀ a, Kept conn a ∨ ∃ row, Change conn a row ∧ conn.base (.control a) = none)
    (h : seedInTx now accounts conn = .ok conn') :
    conn'.base = conn.base ∧ ∀ a, Kept conn' a ∨ ∃ row, Change conn' a row ∧ conn'.base (.control a) = none := by
  induction accounts generalizing conn with
  | nil =>
    cases h
    exact ⟨rfl, hall⟩
  | cons entry rest ih =>
    obtain ⟨accountId, mode, cursor⟩ := entry
    simp only [seedInTx] at h
    split at h
    · exact ih hall h
    · rename_i hnone
      obtain ⟨c, hc, h⟩ := bind_ok h
      -- an account that this call has already inserted has a row
      have hk : Kept conn accountId := by
        rcases hall accountId with hk | ⟨row, hch, -⟩
        · exact hk
        · rw [getInTx, hch.view] at hnone
          cases hnone
      have hbase : conn.base (.control accountId) = none := by
        rw [← conn.view_eq _ hk.control]
        exact hnone
      have heff : ∀ a, Effect conn a := fun a =>
        (hall a).imp id fun ⟨row, hch, _⟩ => ⟨row, hch⟩
      obtain ⟨hb, hch, hother⟩ := Kept.change (r := seedRow accountId mode now) hk heff
        (by simp [seedRow, hbase, controlRevision]) hc
      have hall' : ∀ a, Kept c a ∨ ∃ row, Change c a row ∧ c.base (.control a) = none := by
        intro a
        by_cases ha : a = accountId
        · subst ha
          exact Or.inr ⟨_, hch, by rw [hb, hbase]⟩
        · rcases hall a with hka | ⟨row, hcha, hba⟩
          · exact Or.inl ((hother a ha).1 hka)
          · rcases (hother a ha).2 with hk' | ⟨row', hch'⟩
            · exact Or.inl hk'
            · exact Or.inr ⟨row', hch', by rw [hb, hba]⟩
      obtain ⟨hb', hres⟩ := ih hall' h
      exact ⟨hb'.trans hb, hres⟩

variable {s : Store (Key R) (Rows D)}
variable {p : SetPause}

theorem setPauseInTx_effect
    (h : setPauseInTx (Conn.start s) p = .ok (state, conn)) : conn.base = s ∧ ∀ a, TxEffect (.set p) conn a := by
  unfold setPauseInTx at h
  split at h
  · cases h
  · rename_i current hcur
    split at h
    · cases h
      exact ⟨rfl, fun a => Or.inl (Kept.start s a)⟩
    · rename_i htoggle
      split at h
      · cases h
      · rename_i hexp
        obtain ⟨c, hc, h⟩ := bind_ok h
        cases h
        have hbase : s (.control p.accountId) = some current := hcur
        obtain ⟨hb, hch, hother⟩ := Kept.change (r := p.row current) (Kept.start s _)
          (fun a => Or.inl (Kept.start s a)) (by rw [Conn.start_base, hbase]; rfl) hc
        refine ⟨hb, fun a => ?_⟩
        by_cases ha : a = p.accountId
        · subst ha
          refine Or.inr ⟨_, hch, .set p current rfl rfl ?_ rfl htoggle fun hp => ?_⟩
          · rw [hb, Conn.start_base, hbase]
          · by_contra hne
            exact hexp ⟨hp, hne⟩
        · exact Or.inl ((hother a ha).1 (Kept.start s a))

theorem putAll_kept {ws : List ((k : Key R) × Rows D k)} (hw : ∀ w ∈ ws, w.1.foreign)
    (h : Kept conn a) : (putAll conn ws).base = conn.base ∧ Kept (putAll conn ws) a := by
  induction ws generalizing conn with
  | nil => exact ⟨rfl, h⟩
  | cons w ws ih =>
    obtain ⟨k, v⟩ := w
    have hk : k.foreign := hw _ List.mem_cons_self
    refine ih (fun w hmem => hw w (List.mem_cons_of_mem _ hmem)) (h.put v ?_ ?_)
    · rintro rfl
      exact hk
    · rintro rfl
      exact hk rfl

theorem claimWork_effect {c : ClaimTx D} (h : claimWork (Conn.start s) c = .ok (some conn)) :
    conn.base = s ∧ (∃ row, s (.control c.accountId) = some row ∧ row.1.newExposurePaused = false) ∧
      ∀ a, Kept conn a := by
  obtain ⟨u, hpause, h⟩ := bind_ok h
  obtain ⟨ws, hws, rfl⟩ : ∃ ws, c.work s = some ws ∧ putAll (Conn.start s) ws = conn := by
    simpa [pure, Except.pure, Option.map_eq_some_iff] using h
  refine ⟨(putAll_kept (c.foreign hws) (Kept.start s c.accountId)).1, ?_,
    fun a => (putAll_kept (c.foreign hws) (Kept.start s a)).2⟩
  simp only [requireUnpausedInTx] at hpause
  split at hpause
  · cases hpause
  · rename_i row hrow
    split at hpause
    · cases hpause
    · rename_i hp
      exact ⟨row, hrow, by simpa using hp⟩

/-- What a claim read at its `BEGIN`: its account was not paused. -/
def ReadUnpaused (tx : Txn D) (s : Store (Key R) (Rows D)) : Prop :=
  ∀ c, tx = .claim c → ∃ row, s (.control c.accountId) = some row ∧ row.1.newExposurePaused = false

/-- **What one transaction of the gate does.** -/
theorem body_effect {tx : Txn D} (h : tx.body (Conn.start s) = some conn) :
    conn.base = s ∧ ReadUnpaused tx s ∧ ∀ a, TxEffect tx conn a := by
  cases tx with
  | seed accounts now =>
    have hseed : seedInTx now accounts (Conn.start s) = .ok conn := by
      simp only [Txn.body] at h
      cases hs : seedInTx now accounts (Conn.start s) with
      | error e => simp [hs, Except.toOption] at h
      | ok c => simpa [hs, Except.toOption] using h
    obtain ⟨hb, hall⟩ := seedInTx_base (fun a => Or.inl (Kept.start s a)) hseed
    refine ⟨hb, fun c hc => (by cases hc), fun a => (hall a).imp id fun ⟨row, hch, hnone⟩ => ?_⟩
    exact ⟨row, hch, .seeded accounts now rfl hnone⟩
  | set p =>
    simp only [Txn.body] at h
    cases hs : setPauseInTx (Conn.start s) p with
    | error e => simp [hs, Except.toOption] at h
    | ok r =>
      obtain ⟨state, c⟩ := r
      obtain rfl : c = conn := by simpa [hs, Except.toOption] using h
      obtain ⟨hb, hall⟩ := setPauseInTx_effect hs
      exact ⟨hb, fun c hc => (by cases hc), hall⟩
  | claim c =>
    simp only [Txn.body] at h
    cases hs : claimWork (Conn.start s) c with
    | error e => simp [hs, Except.toOption] at h
    | ok r =>
      obtain rfl : r = some conn := by simpa [hs, Except.toOption] using h
      obtain ⟨hb, hread, hall⟩ := claimWork_effect hs
      refine ⟨hb, fun c' hc => ?_, fun a => Or.inl (hall a)⟩
      cases hc
      exact hread

/-- The gate's transactions under snapshot isolation. -/
def gate (D : R → Type) : System (Key R) (Rows D) (Txn D) where
  body := Txn.body
  locked := Txn.locked
  body_base h := (body_effect h).1

abbrev GateState (D : R → Type) := State (Key R) (Rows D) (Txn D)

abbrev Commit (D : R → Type) := Done (Key R) (Rows D) (Txn D)

/-! ## The log of commits -/

/-- The transaction left this row for the account. -/
def Changes (d : Commit D) (a : String) (row : ControlRow a) : Prop :=
  .control a ∈ d.conn.wrote ∧ d.conn.view (.control a) = some row

/-- It paused the account; the bootstrap of a live account does, too. -/
def Pauses (d : Commit D) (a : String) : Prop := ∃ row, Changes d a row ∧ row.1.newExposurePaused = true

def Resumes (d : Commit D) (a : String) : Prop :=
  ∃ p row, d.tx = .set p ∧ p.accountId = a ∧ Changes d a row ∧ row.1.newExposurePaused = false

def Claims (d : Commit D) (a : String) : Prop := ∃ c, d.tx = .claim c ∧ c.accountId = a

def Standing (log : List (Commit D)) (a : String) : Prop :=
  ∃ pre d post, log = pre ++ d :: post ∧ Pauses d a ∧ ∀ r ∈ post, ¬ Resumes r a

def Log (log : List (Commit D)) : Prop := ∀ pre d post, log = pre ++ d :: post → Committed (gate D) d pre

variable {log : List (Commit D)} {d : Commit D}

theorem Log.of_snoc (h : Log (log ++ [d])) : Log log :=
  fun pre d' post heq => h pre d' (post ++ [d]) (by simp [heq])

theorem Log.take (h : Log log) (n : Nat) : Log (log.take n) := by
  intro pre d post heq
  refine h pre d (post ++ log.drop n) ?_
  rw [← List.cons_append, ← List.append_assoc, ← heq, List.take_append_drop]

variable {pre : List (Commit D)}

/-- A transaction that changed an account's row read the row that it replaced. -/
theorem committed_change (h : Committed (gate D) d pre)
    (hw : .control a ∈ d.conn.wrote) : ∃ row, Change d.conn a row ∧ Reason d.tx d.conn a row ∧
      d.conn.base (.control a) = replay pre (.control a) ∧
      d.conn.base (.materialized ENTITY_TYPE a) = replay pre (.materialized ENTITY_TYPE a) := by
  obtain ⟨n, -, -, hbody⟩ := h.ran
  rcases (body_effect hbody).2.2 a with hk | ⟨row, hch, hreason⟩
  · exact absurd hw hk.control
  · exact ⟨row, hch, hreason, h.fresh _ hch.wrote, h.fresh _ hch.entity⟩

/-- **While a pause stands, the committed row is paused.** -/
theorem standing_paused (h : Log log) (hs : Standing log a) :
    ∃ row, replay log (.control a) = some row ∧ row.1.newExposurePaused = true := by
  obtain ⟨pre, d, post, rfl, ⟨row, ⟨hw, hv⟩, hp⟩, hpost⟩ := hs
  induction post using List.reverseRecOn with
  | nil =>
    refine ⟨row, ?_, hp⟩
    rw [replay_snoc, Conn.writeTo_of_mem hw, hv]
  | append_singleton post e ih =>
    have hsplit : pre ++ d :: (post ++ [e]) = (pre ++ d :: post) ++ [e] := by simp
    rw [hsplit] at h ⊢
    obtain ⟨cur, hcur, hcp⟩ := ih h.of_snoc fun r hr => hpost r (by simp [hr])
    by_cases hwe : .control a ∈ e.conn.wrote
    · obtain ⟨new, hch, hreason, hbase, -⟩ := committed_change (h _ e [] rfl) hwe
      rw [hcur] at hbase
      cases hreason with
      | seeded accounts now htx hnone =>
        rw [hnone] at hbase
        cases hbase
      | set p current htx ha hb hnew htoggle hexp =>
        -- the row was paused, so this is a resume
        rw [hb] at hbase
        cases hbase
        have hres : Resumes e a := by
          refine ⟨p, new, htx, ha, ⟨hch.wrote, hch.view⟩, ?_⟩
          rw [hnew]
          rw [hcp] at htoggle
          cases hpp : p.paused
          · rfl
          · exact absurd hpp.symm htoggle
        exact absurd hres (hpost e (by simp))
    · exact ⟨cur, by rw [replay_snoc, Conn.writeTo_of_not_mem hwe, hcur], hcp⟩

omit [DecidableEq R] in
/-- A pause that stands now stood at `BEGIN` or committed since. -/
theorem standing_split (h : Standing log a) (n : Nat) : Standing (log.take n) a ∨ Standing (log.drop n) a := by
  obtain ⟨pre, d, post, rfl, hp, hpost⟩ := h
  rcases Nat.lt_or_ge pre.length n with hlt | hge
  · left
    obtain ⟨m, rfl⟩ : ∃ m, n = pre.length + (m + 1) := ⟨n - pre.length - 1, by omega⟩
    refine ⟨pre, d, post.take m, ?_, hp, fun r hr => hpost r (List.mem_of_mem_take hr)⟩
    rw [List.take_length_add_append, List.take_succ_cons]
  · right
    refine ⟨pre.drop n, d, post, ?_, hp, hpost⟩
    rw [List.drop_append_of_le_length hge]

variable {n : Nat}

omit [DecidableEq R] in
theorem standing_of_drop (h : Standing (log.drop n) a) : Standing log a := by
  obtain ⟨pre, d, post, heq, hp, hpost⟩ := h
  refine ⟨log.take n ++ pre, d, post, ?_, hp, hpost⟩
  rw [List.append_assoc, ← heq, List.take_append_drop]

/-- When a claim's account was not paused at its `BEGIN`, only a pause since then can stand. -/
theorem claim_standing (hlog : Log log) (hran : Ran (gate D) d (log.take n)) (hc : Claims d a) :
    Standing log a ↔ Standing (log.drop n) a := by
  refine ⟨fun h => ?_, standing_of_drop⟩
  rcases standing_split h n with h | h
  · obtain ⟨row, hrow, hp⟩ := standing_paused (hlog.take n) h
    obtain ⟨c, htx, rfl⟩ := hc
    obtain ⟨row', hrow', hp'⟩ := (body_effect hran.2).2.1 c htx
    rw [hrow] at hrow'
    cases hrow'
    rw [hp] at hp'
    cases hp'
  · exact h

theorem revisions_equal (h : Log log) (a : String) :
    controlRevision (replay log (.control a)) = entityRevision (replay log (.materialized ENTITY_TYPE a)) := by
  induction log using List.reverseRecOn with
  | nil => rfl
  | append_singleton log d ih =>
    have hd := h log d [] rfl
    obtain ⟨n, -, -, hbody⟩ := hd.ran
    simp only [replay_snoc]
    rcases (body_effect hbody).2.2 a with hk | ⟨row, hch, -⟩
    · rw [Conn.writeTo_of_not_mem hk.control, Conn.writeTo_of_not_mem hk.entity]
      exact ih h.of_snoc
    · obtain ⟨m, hm, hrev⟩ := hch.entityView
      rw [Conn.writeTo_of_mem hch.wrote, Conn.writeTo_of_mem hch.entity, hch.view, hm]
      have hr := hch.revision
      rw [hd.fresh _ hch.wrote] at hr
      rw [hd.fresh _ hch.entity] at hrev
      simp only [controlRevision, entityRevision, Option.elim_some] at hr hrev ⊢
      rw [hr, hrev]
      exact congrArg (· + 1) (ih h.of_snoc)

/-! ## Runs -/

structure Lawful (s : GateState D) : Prop where
  /-- No claim committed while a pause stood. -/
  claims : ∀ pre d post a, s.log = pre ++ d :: post → Claims d a → ¬ Standing pre a
  /-- A resume named the revision of the row it replaced. -/
  resumes : ∀ (pre : List (Commit D)) d post (p : SetPause) row, s.log = pre ++ d :: post → d.tx = .set p → Changes d p.accountId row →
    row.1.newExposurePaused = false → ∃ current,
      replay pre (.control p.accountId) = some current ∧ current.1.newExposurePaused = true ∧
      p.expectedRevision = some (current.1.revision : Int)
  /-- The row's revision is the entity's revision. -/
  revisions : ∀ a, controlRevision (s.store (.control a)) = entityRevision (s.store (.materialized ENTITY_TYPE a))
  /-- A change raises the revision by one and journals one event that carries it. -/
  changes : ∀ (pre : List (Commit D)) d post a row, s.log = pre ++ d :: post → Changes d a row →
    row.1.revision = controlRevision (replay pre (.control a)) + 1 ∧
    ∃ j correlationId, d.conn.view (.journal ENTITY_TYPE a row.1.revision) = some j ∧
      j.entityRevision = row.1.revision ∧ j.mutation = controlMutation row.1 correlationId

/-- No pause that committed since the `BEGIN` of a claim stands at its `COMMIT`. -/
def NoPauseDuringClaim (s : GateState D) : Action (Txn D) → Prop
  | .commit i => ∀ o, s.opens[i]? = some o → s.conflicts o = false → ∀ a, Claims o.toDone a → ¬ Standing (s.since o) a
  | _ => True

variable {post : List (Commit D)}

theorem resume_current (h : Log log) {row : ControlRow p.accountId} (heq : log = pre ++ d :: post) (htx : d.tx = .set p)
    (hch : Changes d p.accountId row) (hrow : row.1.newExposurePaused = false) :
    ∃ current, replay pre (.control p.accountId) = some current ∧ current.1.newExposurePaused = true ∧
      p.expectedRevision = some (current.1.revision : Int) := by
  obtain ⟨row', hch', hreason, hbase, -⟩ := committed_change (h pre d post heq) hch.1
  cases hreason with
  | seeded accounts now htx' hnone =>
    rw [htx] at htx'
    cases htx'
  | set p' current htx' ha hb hnew htoggle hexp =>
    rw [htx] at htx'
    cases htx'
    have hsame : row' = row := Option.some.inj (hch'.view.symm.trans hch.2)
    rw [hsame, hrow] at hnew
    refine ⟨current, hbase.symm.trans hb, ?_, hexp hnew.symm⟩
    rw [← hnew] at htoggle
    simpa using htoggle

theorem change_revision (h : Log log) (heq : log = pre ++ d :: post) (hch : Changes d a row) :
    row.1.revision = controlRevision (replay pre (.control a)) + 1 ∧
    ∃ j correlationId, d.conn.view (.journal ENTITY_TYPE a row.1.revision) = some j ∧
      j.entityRevision = row.1.revision ∧ j.mutation = controlMutation row.1 correlationId := by
  obtain ⟨row', hch', -, hbase, hent⟩ := committed_change (h pre d post heq) hch.1
  obtain rfl : row' = row := Option.some.inj (hch'.view.symm.trans hch.2)
  have hpre : Log pre := by
    intro pre' d' post' heq'
    exact h pre' d' (post' ++ d :: post) (by rw [heq, heq', List.append_assoc, List.cons_append])
  obtain ⟨j, correlationId, hmut, hrev, hview⟩ := hch'.event
  have hr : row'.1.revision = controlRevision (replay pre (.control a)) + 1 := hbase ▸ hch'.revision
  have hj : j.entityRevision = row'.1.revision := by
    rw [hr, hrev, hent, revisions_equal hpre]
  exact ⟨hr, j, correlationId, hj ▸ hview, hj, hmut⟩

theorem lawful_iff {s : GateState D} (h : Wf (gate D) s) :
    Lawful s ↔ ∀ pre d post a, s.log = pre ++ d :: post → Claims d a → ¬ Standing pre a := by
  refine ⟨fun hl => hl.claims, fun hc => ⟨hc, ?_, fun a => ?_, ?_⟩⟩
  · intro pre d post p row heq htx hch hrow
    exact resume_current h.committed heq htx hch hrow
  · rw [h.store]
    exact revisions_equal h.committed a
  · intro pre d post a row heq hch
    exact change_revision h.committed heq hch

theorem lawful_init : Lawful (State.init : GateState D) :=
  (lawful_iff (Wf.init (gate D))).mpr fun pre d post a heq => by simp [State.init] at heq

theorem step_log (s : GateState D) (a : Action (Txn D)) :
    (step (gate D) s a).log = s.log ∨ ∃ i o, a = .commit i ∧ s.opens[i]? = some o ∧ s.conflicts o = false ∧
      (step (gate D) s a).log = s.log ++ [o.toDone] := by
  cases a with
  | start tx =>
    left
    simp only [step]
    split
    · rfl
    · split <;> rfl
  | commit i =>
    simp only [step]
    split
    · rename_i o ho
      split
      · exact Or.inl rfl
      · rename_i hc
        exact Or.inr ⟨i, o, rfl, ho, by simpa using hc, rfl⟩
    · exact Or.inl rfl
  | rollback i => exact Or.inl rfl

/-- **A pause that commits inside a claim is the only way to take on exposure while paused.** -/
theorem paused_no_exposure_iff (actions : List (Action (Txn D))) :
    (∀ pre, pre <+: actions → Lawful (pre.foldl (step (gate D)) State.init)) ↔
      Meets (step (gate D)) NoPauseDuringClaim State.init actions := by
  refine Meets.iff_prefixes (I := fun s => Wf (gate D) s ∧ Lawful s) (fun s h => h.2) ?_ ?_
    ⟨Wf.init (gate D), lawful_init⟩
  · rintro s a ⟨hwf, hl⟩ hcond
    refine ⟨hwf.step a, (lawful_iff (hwf.step a)).mpr ?_⟩
    intro pre d post acct heq hclaim
    rcases step_log s a with hlog | ⟨i, o, rfl, ho, hc, hlog⟩
    · exact hl.claims pre d post acct (hlog ▸ heq) hclaim
    · rw [hlog] at heq
      rcases List.eq_nil_or_concat post with rfl | ⟨post', d', rfl⟩
      · obtain ⟨rfl, hd⟩ := List.append_inj' heq rfl
        cases hd
        have hran := (hwf.opens o (List.mem_of_getElem? ho)).2
        rw [claim_standing hwf.committed hran hclaim]
        exact hcond o ho hc acct hclaim
      · have heq' : s.log ++ [o.toDone] = (pre ++ d :: post') ++ [d'] := by simpa using heq
        exact hl.claims pre d post' acct (List.append_inj' heq' rfl).1 hclaim
  · rintro s a ⟨hwf, hl⟩ hcond hl'
    cases a with
    | commit i =>
      simp only [NoPauseDuringClaim, not_forall, not_not] at hcond
      obtain ⟨o, ho, hc, acct, hclaim, hst⟩ := hcond
      have hlog : (step (gate D) s (.commit i)).log = s.log ++ [o.toDone] := by simp [step, ho, hc]
      exact hl'.claims s.log o.toDone [] acct hlog hclaim (standing_of_drop hst)
    | start tx => exact hcond trivial
    | rollback i => exact hcond trivial

/-! ## A pause inside an approval -/

section Skew

/-- No other tables. -/
abbrev NoRows : Empty → Type := fun _ => Unit

/-- An approval whose own rows are left out. -/
def approveDU1 : ClaimTx NoRows := ⟨"approve-1", "DU1", fun _ => some [], fun h w hw => by cases h; cases hw⟩

def pauseDU1 : SetPause := ⟨"DU1", true, none, "pause-1", "stop", 2, 2⟩

/-- A paper account is seeded; an approval begins, a pause begins and commits, the approval commits. -/
def skewActions : List (Action (Txn NoRows)) :=
  [.start (.seed [("DU1", .paper, 1)] 0), .commit 0, .start (.claim approveDU1), .start (.set pauseDU1), .commit 1,
    .commit 0]

/-- **The approval commits after the pause and without a resume.** -/
theorem claim_commits_while_paused : ¬ Lawful (skewActions.foldl (step (gate NoRows)) State.init) := by
  intro h
  have hlog : ∃ d₁ d₂ d₃, (skewActions.foldl (step (gate NoRows)) State.init).log = [d₁, d₂] ++ d₃ :: [] ∧
      Pauses d₂ "DU1" ∧ Claims d₃ "DU1" := by
    refine ⟨_, _, _, rfl, ⟨_, ⟨?_, rfl⟩, rfl⟩, ⟨approveDU1, rfl, rfl⟩⟩
    decide
  obtain ⟨d₁, d₂, d₃, heq, hp, hc⟩ := hlog
  exact h.claims [d₁, d₂] d₃ [] "DU1" heq hc ⟨[d₁], d₂, [], rfl, hp, fun r hr => by cases hr⟩

end Skew

end MmrTrader.Control
