import MmrTrader.Saga.Serial

/-!
# A finished send is marked finished

One entry send after its SUBMITTING commit: the first thread is the post-submit write
(`_after_dispatch`), and broker events and handovers interleave with it.

* `SendMarked` — once the post-submit write has run, `send_returned_at` is set, so
  `unreturned_send_sql` does not count the send;
* `send_marked_iff` — that holds in every state exactly when each read of the post-submit write
  finds the row still SUBMITTING, or the send returned normally.
-/

namespace MmrTrader.Saga

open MmrTrader.Lib MmrTrader.Lib.Optimistic

def unreturnedSend (s : SagaState) (processStart : Int) : Bool :=
  match s.sendAttemptedAt with
  | some attempted => s.sendReturnedAt.isNone && decide (attempted ≥ processStart)
  | none => false

inductive SendAction where
  | event (e : BrokerOrderEvent)
  | handover (accountId : String) (conid : Option Int) (closeRootId : String)
      (cancels : List ExpectedCancel) (generation : Nat) (now : Int)
  | read (i : Nat) (t : Int)
  | commit (i : Nat) (rest : Rest)

def SendAction.toSaga : SendAction → SagaAction
  | .event e => .spawn (.event e)
  | .handover accountId conid closeRootId cancels generation now =>
      .spawn (.handover accountId conid closeRootId cancels generation now)
  | .read i t => .read i t
  | .commit i rest => .commit i rest

def sendStep (s : SagaSystem) (a : SendAction) : SagaSystem := sagaStep s a.toSaga

/-- How the send ended, and the clocks it used. -/
structure SendReport where
  outcome : SendOutcome
  returnedAt : Int
  now : Int

/-- After the SUBMITTING commit of a validated entry; the post-submit write has all its attempts. -/
def sendStart (v : SagaState) (insertedAt : Int) (generation : Option Nat) (baseline : ℚ) (r : SendReport) :
    SagaSystem :=
  let row := submittingRow v generation baseline r.now
  { row := ⟨row, []⟩
    ledger := [(.saga .VALIDATED 1, sagaMutation v insertedAt none),
      (.saga .SUBMITTING 2, sagaMutation row r.now (some .VALIDATED))]
    threads := [⟨.postSubmit r.outcome r.returnedAt r.now, .start 5⟩]
    log := []
    writes := 0 }

/-- Once the post-submit write has run, the send is marked and no longer counted as unreturned. -/
def SendMarked (s : SagaSystem) : Prop :=
  submitted s = true → s.row.row.sendReturnedAt.isSome = true ∧
    ∀ processStart, unreturnedSend s.row.row processStart = false

/-- When the post-submit write reads the row, it is still SUBMITTING, or the send returned. -/
def readsInTime (r : SendReport) (s : SagaSystem) : SendAction → Bool
  | .read 0 _ =>
      match (s.threads[0]? : Option (Thread StoredSaga SagaOp Int)) with
      | some ⟨_, .start (_ + 1)⟩ => r.outcome.always || s.row.row.state == .SUBMITTING
      | _ => true
  | _ => true

/-! ## What the other writers keep -/

def SagaOp.isExternal : SagaOp → Bool
  | .event _ | .handover .. => true
  | _ => false

variable {op : SagaOp}
variable {new : SagaState}

theorem external_keeps (hop : op.isExternal = true) {t : Int} {st : StoredSaga}
    (h : op.buildRow t st = some new) : new.sendReturnedAt = st.row.sendReturnedAt := by
  cases op with
  | event e =>
    simp only [SagaOp.buildRow] at h
    split at h
    · exact (applyBrokerEvent_recorded h).sendReturnedAt
    · cases h
  | handover accountId conid closeRootId cancels generation now =>
    simp only [SagaOp.buildRow, own] at h
    split at h
    · split at h
      · cases h
      · cases h
        rfl
    · cases h
  | _ => cases hop

/-- A write of theirs is recorded under an event id, or without a `from_state`. -/
theorem external_entry (hop : op.isExternal = true) (t : Int) (base new : StoredSaga) :
    (∃ id, (op.entry t base new).1 = .event id) ∨ (op.entry t base new).2.fromState = none := by
  cases op with
  | event e => exact Or.inl ⟨e.eventId, rfl⟩
  | handover accountId conid closeRootId cancels generation now => exact Or.inr rfl
  | _ => cases hop

variable {outcome : SendOutcome} {returnedAt : Int}

theorem afterDispatch_marks {s : SagaState}
    (h : afterDispatch outcome returnedAt s = some new) : new.sendReturnedAt = some returnedAt := by
  unfold afterDispatch at h
  split at h
  · cases h
  · cases h
    cases outcome <;> rfl

theorem afterDispatch_none {s : SagaState} :
    afterDispatch outcome returnedAt s = none ↔ (outcome.always || s.state == .SUBMITTING) = false := by
  unfold afterDispatch
  split
  · rename_i h
    simp [h.1, h.2]
  · rename_i h
    push Not at h
    cases ha : outcome.always with
    | true => simp
    | false =>
      have hs : s.state = .SUBMITTING := by
        by_contra hne
        exact h hne ha
      simp [hs]

theorem unreturnedSend_of_returned {s : SagaState} (h : s.sendReturnedAt.isSome = true) (start : Int) :
    unreturnedSend s start = false := by
  obtain ⟨returned, hret⟩ := Option.isSome_iff_exists.mp h
  unfold unreturnedSend
  split
  · simp [hret]
  · rfl

/-! ## The invariant -/

structure SendInv (r : SendReport) (r₀ : StoredSaga) (s : SagaSystem) : Prop where
  wf : Wf sagaProtocol r₀ s
  first : ∃ ph, s.threads[0]? = some ⟨.postSubmit r.outcome r.returnedAt r.now, ph⟩
  others : ∀ j th, j ≠ 0 → s.threads[j]? = some th → th.op.isExternal = true
  /-- Until the post-submit write, nothing recorded from revision 3 on has a `from_state`. -/
  unmarked : submitted s = false → s.row.row.sendReturnedAt = none ∧
    ∀ st n m, (JournalKey.saga st n, m) ∈ s.ledger → 3 ≤ n → m.fromState = none
  marked : submitted s = true → s.row.row.sendReturnedAt.isSome = true

variable {s : SagaSystem} {r : SendReport} {r₀ : StoredSaga}

theorem SendInv.sendMarked (h : SendInv r r₀ s) : SendMarked s :=
  fun hs => ⟨h.marked hs, unreturnedSend_of_returned (h.marked hs)⟩

theorem sendStart_inv {v : SagaState} (hv : Validated v) (insertedAt : Int) (generation : Option Nat)
    (baseline : ℚ) (r : SendReport) :
    SendInv r ⟨submittingRow v generation baseline r.now, []⟩ (sendStart v insertedAt generation baseline r) := by
  refine ⟨⟨rfl, List.Perm.refl _, ?_⟩, ⟨_, rfl⟩, ?_, ?_, ?_⟩
  · intro th hth left t base new hph
    obtain rfl := List.mem_singleton.mp hth
    cases hph
  · intro j th hj hth
    cases j with
    | zero => exact absurd rfl hj
    | succ j => simp [sendStart] at hth
  · intro _
    refine ⟨hv.unsent, ?_⟩
    intro st n m hm hn
    simp only [sendStart, List.mem_cons, List.not_mem_nil, or_false] at hm
    rcases hm with hm | hm <;> cases hm <;> omega
  · intro h
    cases h

theorem submitted_eq {th : Thread StoredSaga SagaOp Int} (h : s.threads[0]? = some th) : submitted s = th.isDone := by
  unfold submitted
  rw [h]

/-- The part of the invariant that one move can change. -/
structure MarkInv (s : SagaSystem) : Prop where
  unmarked : submitted s = false → s.row.row.sendReturnedAt = none ∧
    ∀ st n m, (JournalKey.saga st n, m) ∈ s.ledger → 3 ≤ n → m.fromState = none
  marked : submitted s = true → s.row.row.sendReturnedAt.isSome = true

variable {s' : SagaSystem}
variable {a : SagaAction}

/-- A move of the post-submit write: it returns by writing the mark, or because the row moved on. -/
theorem markInv_first (h : SendInv r r₀ s) (hr₀ : 2 ≤ r₀.row.revision)
    (hok : ∀ t left, a = .read 0 t → s.threads[0]? = some ⟨.postSubmit r.outcome r.returnedAt r.now,
      .start (left + 1)⟩ → (r.outcome.always || s.row.row.state == .SUBMITTING) = true)
    (hun : submitted s = false) (hmove : Move sagaProtocol s a 0 (.postSubmit r.outcome r.returnedAt r.now) s') : MarkInv s' := by
  have hold := h.unmarked hun
  cases hmove with
  | nothing left t ha hth hb =>
    have hnone : afterDispatch r.outcome r.returnedAt s.row.row = none := by
      simpa [sagaProtocol, SagaOp.build, SagaOp.buildRow] using hb
    have hread := hok t left ha hth
    rw [afterDispatch_none.mp hnone] at hread
    cases hread
  | take left t new hth hb =>
    have hthread := submitted_eq (setPhase_self hth (.postSubmit r.outcome r.returnedAt r.now)
      (.holding left t s.row new))
    refine ⟨fun _ => hold, fun hs => ?_⟩
    rw [hthread] at hs
    cases hs
  | lose left t base new ph hth hph =>
    have hthread := submitted_eq (setPhase_self hth (.postSubmit r.outcome r.returnedAt r.now) ph)
    refine ⟨fun _ => hold, fun hs => ?_⟩
    rw [hthread] at hs
    rcases hph with rfl | ⟨-, rfl⟩ <;> cases hs
  | replay left t base new ha hth hl =>
    -- the recorded mutation has no `from_state`, that of the post-submit write has one
    exfalso
    obtain ⟨hb, hge, -, -⟩ := h.wf.bases _ (List.mem_of_getElem? hth) left t base new rfl
    have hrev := sagaProtocol.build_rev hb
    have hge : r₀.row.revision ≤ base.row.revision := hge
    have hrev : new.row.revision = base.row.revision + 1 := hrev
    have hfrom := hold.2 new.row.state new.row.revision _ (lookup_mem hl) (by omega)
    cases hfrom
  | write left t base new hth hk hr =>
    have hthread := submitted_eq (setPhase_self hth (.postSubmit r.outcome r.returnedAt r.now) .done)
    obtain ⟨row, hrow, rfl⟩ := build_spec (h.wf.base_eq sagaProtocol hth hr).2
    refine ⟨fun hs => ?_, fun _ => ?_⟩
    · have hs : submitted (s.setPhase 0 (.postSubmit r.outcome r.returnedAt r.now) .done) = false := hs
      rw [hthread] at hs
      cases hs
    · show row.sendReturnedAt.isSome = true
      rw [afterDispatch_marks hrow]
      rfl

/-- A move of another writer: it keeps the mark, and records no `from_state`. -/
theorem markInv_other (h : SendInv r r₀ s) {i : Nat} (hop : op.isExternal = true)
    (hsame : submitted s' = submitted s) (hmove : Move sagaProtocol s a i op s') : MarkInv s' := by
  cases hmove with
  | nothing left t ha hth hb => exact ⟨hsame ▸ h.unmarked, hsame ▸ h.marked⟩
  | take left t new hth hb => exact ⟨hsame ▸ h.unmarked, hsame ▸ h.marked⟩
  | lose left t base new ph hth hph => exact ⟨hsame ▸ h.unmarked, hsame ▸ h.marked⟩
  | replay left t base new ha hth hl => exact ⟨hsame ▸ h.unmarked, hsame ▸ h.marked⟩
  | write left t base new hth hk hr =>
    obtain ⟨row, hrow, rfl⟩ := build_spec (h.wf.base_eq sagaProtocol hth hr).2
    have hkeep : row.sendReturnedAt = s.row.row.sendReturnedAt := external_keeps hop hrow
    refine ⟨fun hs => ?_, fun hs => ?_⟩
    · obtain ⟨hret, hled⟩ := h.unmarked (hsame ▸ hs)
      refine ⟨hkeep.trans hret, ?_⟩
      intro st n m hm hn
      rcases List.mem_append.mp hm with hm | hm
      · exact hled st n m hm hn
      · have heq := List.mem_singleton.mp hm
        rcases external_entry hop t base (s.row.save row) with ⟨id, hid⟩ | hfrom
        · have hkey : JournalKey.saga st n = (op.entry t base (s.row.save row)).1 := congrArg Prod.fst heq
          rw [hid] at hkey
          cases hkey
        · exact (congrArg (fun p : JournalKey × SagaMutation => p.2.fromState) heq).trans hfrom
    · show row.sendReturnedAt.isSome = true
      rw [hkeep]
      exact h.marked (hsame ▸ hs)

theorem SagaAction.spawn_op {op' : SagaOp} (h : (.spawn op : SagaAction) = .spawn op') : op' = op := by
  cases h
  rfl

theorem MarkInv.frame (h : MarkInv s) (hrow : s'.row = s.row) (hled : s'.ledger = s.ledger)
    (hsame : submitted s' = submitted s) : MarkInv s' :=
  ⟨fun hs => hrow ▸ hled ▸ h.unmarked (hsame ▸ hs), fun hs => hrow ▸ h.marked (hsame ▸ hs)⟩

/-- **One action of a send.** -/
theorem sendStep_inv (hr₀ : 2 ≤ r₀.row.revision) (s : SagaSystem)
    (a : SendAction) (h : SendInv r r₀ s) (hok : readsInTime r s a = true) : SendInv r r₀ (sendStep s a) := by
  obtain ⟨ph, hfirst⟩ := h.first
  have hthread := step_thread sagaProtocol a.toSaga hfirst
  have hfirst' : ∃ ph', (sendStep s a).threads[0]? = some ⟨.postSubmit r.outcome r.returnedAt r.now, ph'⟩ := by
    rcases hthread with hsame | ⟨-, hmove⟩
    · exact ⟨ph, hsame⟩
    · exact hmove.thread sagaProtocol
  have hothers : ∀ (j : Nat) (th : Thread StoredSaga SagaOp Int), j ≠ 0 →
      (sendStep s a).threads[j]? = some th → th.op.isExternal = true := by
    intro j th hj hth
    rcases step_ops sagaProtocol a.toSaga hth with ⟨th', hth', heq⟩ | ha
    · rw [← heq]
      exact h.others j th' hj hth'
    · cases a with
      | event e => exact (SagaAction.spawn_op ha) ▸ rfl
      | handover accountId conid closeRootId cancels generation now => exact (SagaAction.spawn_op ha) ▸ rfl
      | read i t => cases ha
      | commit i rest => cases ha
  have hmark : MarkInv (sendStep s a) := by
    have hold : MarkInv s := ⟨h.unmarked, h.marked⟩
    rcases step_cases sagaProtocol s a.toSaga with heq | ⟨op, -, heq⟩ | ⟨i, th, hth, hd, hmove⟩
    · exact hold.frame (congrArg (·.row) heq) (congrArg (·.ledger) heq) (congrArg submitted heq)
    · refine hold.frame (congrArg (·.row) heq) (congrArg (·.ledger) heq) ?_
      have hlt : 0 < s.threads.length := (List.getElem?_eq_some_iff.mp hfirst).1
      refine (submitted_eq ?_).trans (submitted_eq hfirst).symm
      show (Optimistic.step sagaProtocol s a.toSaga).threads[0]? = _
      rw [heq]
      exact (List.getElem?_append_left hlt).trans hfirst
    · by_cases hi : i = 0
      · subst hi
        obtain rfl : th = ⟨.postSubmit r.outcome r.returnedAt r.now, ph⟩ := Option.some.inj (hth.symm.trans hfirst)
        refine markInv_first h hr₀ ?_ ((submitted_eq hfirst).trans hd) hmove
        intro t left ha hstart
        cases a with
        | read i t' =>
          cases ha
          simpa [readsInTime, hstart] using hok
        | event e => cases ha
        | handover accountId conid closeRootId cancels generation now => cases ha
        | commit i rest => cases ha
      · have hsame : (sendStep s a).threads[0]? = some ⟨.postSubmit r.outcome r.returnedAt r.now, ph⟩ :=
          (hmove.other sagaProtocol hi).trans hfirst
        exact markInv_other h (h.others i th hi hth)
          ((submitted_eq hsame).trans (submitted_eq hfirst).symm) hmove
  exact ⟨h.wf.step sagaProtocol a.toSaga, hfirst', hothers, hmark.unmarked, hmark.marked⟩

/-- A read that comes too late ends the post-submit write without a mark. -/
theorem sendStep_unmarked (s : SagaSystem) (a : SendAction)
    (h : SendInv r r₀ s) (hlate : ¬ readsInTime r s a = true) : ¬ SendMarked (sendStep s a) := by
  obtain ⟨ph, hfirst⟩ := h.first
  rw [Bool.not_eq_true] at hlate
  -- only a read of the first thread, in its start phase, can be late
  obtain ⟨t, left, rfl, hstart, hout⟩ : ∃ t left, a = .read 0 t ∧
      s.threads[0]? = some ⟨.postSubmit r.outcome r.returnedAt r.now, .start (left + 1)⟩ ∧
      (r.outcome.always || s.row.row.state == .SUBMITTING) = false := by
    unfold readsInTime at hlate
    split at hlate
    · rename_i t
      rw [hfirst] at hlate
      split at hlate
      · rename_i op left hop
        cases hop
        exact ⟨t, left, rfl, hfirst, hlate⟩
      · cases hlate
    · cases hlate
  have hbuild : sagaProtocol.build (.postSubmit r.outcome r.returnedAt r.now) t s.row = none := by
    have hnone : afterDispatch r.outcome r.returnedAt s.row.row = none := afterDispatch_none.mpr hout
    simp [sagaProtocol, SagaOp.build, SagaOp.buildRow, hnone]
  have hstep : sendStep s (.read 0 t) = s.complete 0 (.postSubmit r.outcome r.returnedAt r.now) t := by
    simp only [sendStep, sagaStep, SendAction.toSaga, Optimistic.step, hstart, hbuild]
  have hdone : submitted (sendStep s (.read 0 t)) = true := by
    rw [hstep]
    exact submitted_eq (setPhase_self hstart _ .done)
  have hret : (sendStep s (.read 0 t)).row.row.sendReturnedAt = none := by
    rw [hstep]
    exact (h.unmarked (submitted_eq hstart)).1
  intro hmarked
  have hsome := (hmarked hdone).1
  rw [hret] at hsome
  cases hsome

/-- **When a finished send is marked.**  For every interleaving of broker events and handovers with
    one send: the row is marked in every state after the post-submit write, exactly when each read
    of that write finds the row SUBMITTING or the send returned normally. -/
theorem send_marked_iff (v : SagaState) (hv : Validated v) (insertedAt : Int) (generation : Option Nat)
    (baseline : ℚ) (r : SendReport) (as : List SendAction) :
    (∀ pre, pre <+: as → SendMarked (pre.foldl sendStep (sendStart v insertedAt generation baseline r))) ↔
      Meets sendStep (fun s a => readsInTime r s a = true) (sendStart v insertedAt generation baseline r) as := by
  have hrev : 2 ≤ (⟨submittingRow v generation baseline r.now, []⟩ : StoredSaga).row.revision := by
    simp [submittingRow, hv.revision]
  exact Meets.iff_prefixes (fun _ hI => hI.sendMarked) (fun s a => sendStep_inv hrev s a)
    (fun s a => sendStep_unmarked s a) (sendStart_inv hv insertedAt generation baseline r)

/-! ## A rejected send that an event overtook -/

/-- The entry works at the broker, an event says so, and then the call raises. -/
def overtakenSend : List SendAction :=
  [.event ⟨"og-c1", .entry, .Submitted, 0, 10, 1, "order:1:Submitted", 3, none⟩, .read 1 3, .commit 1 .commits,
   .read 0 4]

/-- The post-submit write has run and `send_returned_at` is not set. -/
theorem raised_send_unmarked :
    ¬ ∀ (v : SagaState) (insertedAt : Int) (generation : Option Nat) (baseline : ℚ) (r : SendReport)
      (as : List SendAction), Validated v →
      SendMarked (as.foldl sendStep (sendStart v insertedAt generation baseline r)) := by
  intro h
  have hmarked := h validatedRow 0 none 0 ⟨.raised, 4, 1⟩ overtakenSend validatedRow_validated
  exact absurd (hmarked (by decide +kernel)).1 (by decide +kernel)

/-- The same events, but the call returns: the mark is written over whatever the event wrote. -/
theorem returned_send_marked :
    Validated validatedRow ∧ ∀ pre, pre <+: overtakenSend ++ [.commit 0 .commits] →
      SendMarked (pre.foldl sendStep (sendStart validatedRow 0 none 0 ⟨.returned [1, 2], 4, 1⟩)) :=
  ⟨validatedRow_validated,
    (send_marked_iff validatedRow validatedRow_validated 0 none 0 ⟨.returned [1, 2], 4, 1⟩ _).mpr
      (by decide +kernel)⟩

end MmrTrader.Saga
