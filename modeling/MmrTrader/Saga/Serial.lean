import MmrTrader.Saga.Store

/-!
# No lost saga update

Any interleaving of saga writers on one row, from the VALIDATED insert on.  The write of the
SUBMITTING row is the first thread: it is built from the VALIDATED row in hand, not from a fresh
read, and it is the only way to `submit_bracket`.

* `saga_updates_serial` — the row is the result of the writers that returned, one at a time in
  commit order, as long as no commit is answered from the journal in place of its write;
* `handover_dropped` — two handovers at one instant: the second one's cancels are lost.
-/

namespace MmrTrader.Saga

open MmrTrader.Lib MmrTrader.Lib.Optimistic

abbrev SagaSystem := Optimistic.State StoredSaga SagaOp Int JournalKey SagaMutation

abbrev SagaAction := Optimistic.Action SagaOp Int

def sagaStep (s : SagaSystem) (a : SagaAction) : SagaSystem := Optimistic.step sagaProtocol s a

/-- The row `start` inserts before its dispatch guard. -/
structure Validated (v : SagaState) : Prop where
  state : v.state = .VALIDATED
  revision : v.revision = 1
  unseen : v.seenEventIds = []
  unsent : v.sendReturnedAt = none

/-- After the VALIDATED insert: the entry holds its SUBMITTING row. -/
def sagaStart (v : SagaState) (insertedAt : Int) (generation : Option Nat) (baseline : ℚ) (now : Int) :
    SagaSystem :=
  { row := ⟨v, []⟩
    ledger := [(.saga .VALIDATED 1, sagaMutation v insertedAt none)]
    threads := [⟨.submit generation baseline now,
      .holding 0 now ⟨v, []⟩ (StoredSaga.save ⟨v, []⟩ (submittingRow v generation baseline now))⟩]
    log := []
    writes := 0 }

/-- The entry reached `submit_bracket`. -/
def submitted (s : SagaSystem) : Bool :=
  match s.threads[0]? with
  | some th => th.isDone
  | none => false

/-- The journal answers the commit of a writer other than a broker event with an equal recorded
    mutation, so nothing is written. -/
def dropsWrite (s : SagaSystem) : SagaAction → Bool
  | .commit i .commits =>
      match s.threads[i]? with
      | some ⟨op, .holding _ t base new⟩ =>
          op.eventId.isNone && s.ledger.lookup (op.entry t base new).1 == some (op.entry t base new).2
      | _ => false
  | _ => false

/-- The row is serial, and every recorded broker event is in the row's list. -/
structure SagaInv (v : SagaState) (s : SagaSystem) : Prop where
  wf : Wf sagaProtocol ⟨v, []⟩ s
  serial : s.row = s.log.foldl sagaProtocol.apply ⟨v, []⟩
  seen : ∀ id m, (JournalKey.event id, m) ∈ s.ledger → id ∈ s.row.row.seenEventIds

theorem lookup_mem {K M : Type} [DecidableEq K] {l : List (K × M)} {k : K} {m : M}
    (h : l.lookup k = some m) : (k, m) ∈ l := by
  induction l with
  | nil => cases h
  | cons x xs ih =>
    rw [List.lookup_cons] at h
    by_cases hk : k == x.1
    · simp only [hk] at h
      cases h
      rw [beq_iff_eq.mp hk]
      exact List.mem_cons_self
    · simp only [hk] at h
      exact List.mem_cons_of_mem _ (ih h)

theorem build_seen {op : SagaOp} {id : String} (hid : op.eventId = some id) {st : StoredSaga}
    (hseen : id ∈ st.row.seenEventIds) (t : Int) : op.build t st = none := by
  cases op with
  | event e =>
    cases hid
    simp only [SagaOp.build, SagaOp.buildRow, applyBrokerEvent_seen hseen]
    split <;> rfl
  | reconcile e =>
    cases hid
    simp [SagaOp.build, SagaOp.buildRow, reconciles, hseen]
  | _ => cases hid

variable {v : SagaState} {s : SagaSystem}

theorem harmless_of_not_dropped (h : SagaInv v s) {a : SagaAction}
    (hno : dropsWrite s a = false) : Harmless sagaProtocol s a := by
  cases a with
  | spawn op => trivial
  | read i t => trivial
  | commit i rest =>
    cases rest with
    | conflicts => trivial
    | raises => trivial
    | commits =>
      intro op left t base new hth hl
      cases hid : op.eventId with
      | none =>
        have hl' : s.ledger.lookup (op.entry t base new).1 = some (op.entry t base new).2 := hl
        simp [dropsWrite, hth, hid, hl'] at hno
      | some id =>
        have hkey : (op.entry t base new).1 = .event id := by simp [SagaOp.entry, hid]
        have hmem := lookup_mem hl
        rw [show (sagaProtocol.entry op t base new).1 = .event id from hkey] at hmem
        exact build_seen hid (h.seen id _ hmem) t

/-- **One action of the writers.** -/
theorem sagaStep_inv (s : SagaSystem) (a : SagaAction) (h : SagaInv v s)
    (hno : dropsWrite s a = false) : SagaInv v (sagaStep s a) := by
  refine ⟨h.wf.step sagaProtocol a, serial_step sagaProtocol h.wf h.serial a (harmless_of_not_dropped h hno), ?_⟩
  unfold sagaStep
  rcases step_cases sagaProtocol s a with heq | ⟨op, -, heq⟩ | ⟨i, th, hth, hd, hmove⟩
  · rw [heq]
    exact h.seen
  · rw [heq]
    exact h.seen
  · generalize Optimistic.step sagaProtocol s a = s' at hmove ⊢
    cases hmove with
    | nothing left t ha hth' hb => exact h.seen
    | take left t new hth' hb => exact h.seen
    | lose left t base new ph hth' hph => exact h.seen
    | replay left t base new ha hth' hl => exact h.seen
    | write left t base new hth' hk hr =>
      obtain ⟨row, hrow, rfl⟩ := build_spec (h.wf.base_eq sagaProtocol hth' hr).2
      obtain ⟨-, hsub, hown⟩ := buildRow_spec hrow
      intro id m hm
      rcases List.mem_append.mp hm with hm | hm
      · exact hsub (h.seen id m hm)
      · have hkey := congrArg Prod.fst (List.mem_singleton.mp hm)
        refine hown id ?_
        cases hid : th.op.eventId with
        | none => simp [sagaProtocol, SagaOp.entry, hid] at hkey
        | some id' =>
          simp only [sagaProtocol, SagaOp.entry, hid] at hkey
          cases hkey
          rfl

theorem sagaStart_inv (v : SagaState) (insertedAt : Int) (generation : Option Nat) (baseline : ℚ)
    (now : Int) : SagaInv v (sagaStart v insertedAt generation baseline now) := by
  refine ⟨⟨rfl, List.Perm.refl _, ?_⟩, rfl, ?_⟩
  · intro th hth left t base new hph
    obtain rfl := List.mem_singleton.mp hth
    cases hph
    exact ⟨rfl, Nat.le_refl _, Nat.le_refl _, fun _ => rfl⟩
  · intro id m hm
    cases List.mem_singleton.mp hm

/-! ## The way to `submit_bracket` -/

/-- The first thread has not returned: it failed, or holds the revision after VALIDATED with no
    attempt left. -/
def Unsent (s : SagaSystem) : Prop :=
  ∃ op : SagaOp, op.eventId = none ∧ (s.threads[0]? = some ⟨op, .failed⟩ ∨
    ∃ t base new, s.threads[0]? = some ⟨op, .holding 0 t base new⟩ ∧ new.row.revision = 2)

theorem Unsent.not_submitted (h : Unsent s) : submitted s = false := by
  obtain ⟨op, -, h | ⟨t, base, new, h, -⟩⟩ := h <;> simp [submitted, h, Thread.isDone]

/-- The entry is sent only on a row that nothing has written since VALIDATED. -/
theorem unsent_step (a : SagaAction) (h : Unsent s) (hno : dropsWrite s a = false) :
    Unsent (sagaStep s a) ∨ s.row.row.revision = 1 ∧ submitted (sagaStep s a) = true := by
  obtain ⟨op, hid, hth | ⟨t, base, new, hth, hrev⟩⟩ := h
  · rcases step_thread sagaProtocol a hth with hsame | ⟨hd, hmove⟩
    · exact Or.inl ⟨op, hid, Or.inl hsame⟩
    · exfalso
      generalize Optimistic.step sagaProtocol s a = s' at hmove
      cases hmove <;> simp_all
  · rcases step_thread sagaProtocol a hth with hsame | ⟨hd, hmove⟩
    · exact Or.inl ⟨op, hid, Or.inr ⟨t, base, new, hsame, hrev⟩⟩
    · unfold sagaStep
      generalize Optimistic.step sagaProtocol s a = s' at hmove ⊢
      cases hmove with
      | nothing left t' ha hth' hb => simp_all
      | take left t' new' hth' hb => simp_all
      | lose left t' base' new' ph hth' hph =>
        left
        obtain rfl : left = 0 := by simp_all
        obtain rfl : ph = .failed := by simpa using hph
        exact ⟨op, hid, Or.inl (setPhase_self hth op _)⟩
      | replay left t' base' new' ha hth' hl =>
        subst ha
        have hl' : s.ledger.lookup (op.entry t' base' new').1 = some (op.entry t' base' new').2 := hl
        simp [dropsWrite, hth', hid, hl'] at hno
      | write left t' base' new' hth' hk hr =>
        obtain rfl : new' = new := by simp_all
        right
        have hr : s.row.row.revision + 1 = new'.row.revision := hr
        refine ⟨by omega, ?_⟩
        have hdone := setPhase_self hth op .done
        simp only [submitted, State.complete]
        rw [hdone]
        rfl

theorem submitted_step (a : SagaAction) (h : submitted s = true) : submitted (sagaStep s a) = true := by
  unfold submitted at h
  split at h
  · rename_i th hth
    rcases step_thread sagaProtocol a hth with hsame | ⟨hd, -⟩
    · unfold submitted sagaStep
      rw [hsame]
      exact h
    · rw [hd] at h
      cases h
  · cases h

theorem sent_or_unsent_step (s : SagaSystem) (a : SagaAction) (h : submitted s = true ∨ Unsent s)
    (hno : dropsWrite s a = false) : submitted (sagaStep s a) = true ∨ Unsent (sagaStep s a) := by
  rcases h with h | h
  · exact Or.inl (submitted_step a h)
  · rcases unsent_step a h hno with h | ⟨-, h⟩
    · exact Or.inr h
    · exact Or.inl h

theorem overtaken_step (s : SagaSystem) (a : SagaAction) (h : 1 < s.row.row.revision ∧ Unsent s)
    (hno : dropsWrite s a = false) : 1 < (sagaStep s a).row.row.revision ∧ Unsent (sagaStep s a) := by
  refine ⟨lt_of_lt_of_le h.1 (rev_mono sagaProtocol s a), ?_⟩
  rcases unsent_step a h.2 hno with hun | ⟨hrev, -⟩
  · exact hun
  · omega

theorem sagaStart_unsent (hv : Validated v) (insertedAt : Int) (generation : Option Nat)
    (baseline : ℚ) (now : Int) : Unsent (sagaStart v insertedAt generation baseline now) :=
  ⟨_, rfl, Or.inr ⟨_, _, _, rfl, by simp [StoredSaga.save, submittingRow, hv.revision]⟩⟩

/-- **No lost update.**  In every interleaving in which no commit is answered from the journal in
    place of its write: the row is the result of the writers that returned, one at a time in commit
    order; its revision is the number of writes; a recorded event changes nothing; the row changes
    only when a writer returns; and an entry whose row was written between VALIDATED and SUBMITTING
    never reaches `submit_bracket`. -/
theorem saga_updates_serial (v : SagaState) (hv : Validated v) (insertedAt : Int) (generation : Option Nat)
    (baseline : ℚ) (now : Int) (as : List SagaAction)
    (h : Meets sagaStep (fun s a => dropsWrite s a = false) (sagaStart v insertedAt generation baseline now) as) :
    let run := fun bs : List SagaAction => bs.foldl sagaStep (sagaStart v insertedAt generation baseline now)
    let s := run as
    s.row = s.log.foldl sagaProtocol.apply ⟨v, []⟩ ∧
    (s.log.map (·.1)).Perm s.doneOps ∧
    s.row.row.revision = 1 + s.writes ∧
    (∀ (e : BrokerOrderEvent) (t : Int), e.eventId ∈ s.row.row.seenEventIds →
      (SagaOp.event e).build t s.row = none) ∧
    (∀ a, (sagaStep s a).row = s.row ∨ ∃ op t, (sagaStep s a).log = s.log ++ [(op, t)]) ∧
    (∀ pre, pre <+: as → (run pre).row.row.revision ≠ 1 → submitted (run pre) = false → submitted s = false) := by
  intro run s
  have hinv : SagaInv v s := h.invariant sagaStep_inv (sagaStart_inv v insertedAt generation baseline now)
  refine ⟨hinv.serial, hinv.wf.completed, ?_, ?_, row_changes sagaProtocol s, ?_⟩
  · have hc := hinv.wf.counted
    simpa [sagaProtocol, hv.revision] using hc
  · intro e t hseen
    exact build_seen rfl hseen t
  · rintro pre ⟨rest, rfl⟩ hwritten hunsent
    obtain ⟨hpre, hrest⟩ := Meets.append.mp h
    have hfirst := hpre.invariant sent_or_unsent_step
      (Or.inr (sagaStart_unsent hv insertedAt generation baseline now))
    have hunsent' : Unsent (run pre) := hfirst.resolve_left (by rw [hunsent]; simp)
    have hcount := (hpre.invariant sagaStep_inv (sagaStart_inv v insertedAt generation baseline now)).wf.counted
    have hcount : (run pre).row.row.revision = 1 + (run pre).writes := by
      simpa [sagaProtocol, hv.revision] using hcount
    have hlate := hrest.invariant overtaken_step ⟨by omega, hunsent'⟩
    show submitted ((pre ++ rest).foldl sagaStep _) = false
    rw [List.foldl_append]
    exact hlate.2.not_submitted

/-! ## Two handovers at one instant -/

/-- A validated entry of 10 shares. -/
def validatedRow : SagaState :=
  { commandId := "c1", orderGroupId := "og-c1", orderRef := "ref-c1", state := .VALIDATED
    accountId := "DU1", conid := 1, side := .BUY, requestedQuantity := 10, revision := 1 }

theorem validatedRow_validated : Validated validatedRow := ⟨rfl, rfl, rfl, rfl⟩

/-- A handover to the close `root` that announces one cancel. -/
def handoverOf (ref : String) (now : Int) : SagaOp :=
  .handover "DU1" (some 1) "root" [⟨ref, "og-c1"⟩] 7 now

/-- The entry is sent; two handovers read the row; both commit at the same `now`. -/
def racingHandovers (first second : Int) : List SagaAction :=
  [.commit 0 .commits, .spawn (handoverOf "ord-1" first), .spawn (handoverOf "ord-2" second),
   .read 1 0, .read 2 0, .commit 1 .commits, .commit 2 .commits]

/-- Both handovers return, but the row expects the first cancel only. -/
theorem handover_dropped :
    ¬ ∀ (v : SagaState) (insertedAt : Int) (generation : Option Nat) (baseline : ℚ) (now : Int)
      (as : List SagaAction), Validated v →
      let s := as.foldl sagaStep (sagaStart v insertedAt generation baseline now)
      s.row = s.log.foldl sagaProtocol.apply ⟨v, []⟩ := by
  intro h
  have hrow := h validatedRow 0 none 0 0 (racingHandovers 5 5) validatedRow_validated
  exact absurd hrow (by decide +kernel)

/-- With different clocks the second handover raises, and the row is the first one's. -/
theorem saga_updates_serial_handovers :
    Validated validatedRow ∧
    Meets sagaStep (fun s a => dropsWrite s a = false) (sagaStart validatedRow 0 none 0 0)
      (racingHandovers 5 6) ∧
    ((racingHandovers 5 6).foldl sagaStep (sagaStart validatedRow 0 none 0 0)).row.row.revision =
      1 + ((racingHandovers 5 6).foldl sagaStep (sagaStart validatedRow 0 none 0 0)).writes := by
  have hmeets : Meets sagaStep (fun s a => dropsWrite s a = false) (sagaStart validatedRow 0 none 0 0)
      (racingHandovers 5 6) := by decide +kernel
  exact ⟨validatedRow_validated, hmeets,
    (saga_updates_serial validatedRow validatedRow_validated 0 none 0 0 _ hmeets).2.2.1⟩

end MmrTrader.Saga
