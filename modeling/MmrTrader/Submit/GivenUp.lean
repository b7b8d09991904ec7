import MmrTrader.Lib.GuardedRun
import MmrTrader.Submit.Sends

/-!
# Commands given up

* `Around` — what time, the trader and the network may change; `Reloads` — rows that appear, and a restart.
* `Fresh` — a row is given up after a reading of the trader that no request could come after.
* `late_request_runs` — a row given up whose request the trader takes afterwards; `given_up_never_runs` — runs whose
  readings are fresh.
-/

namespace MmrTrader.Submit

open Lib Rpc

variable {C : Config} {w : World} {row r : Submission} {job : Job} {rest : List Submission} {decisionId : String}

/-! ## Steps around the submitter -/

/-- What time, the trader and the network may change. -/
structure Around (w w' : World) : Prop where
  phase : w'.phase = w.phase
  rows : w'.rows = w.rows
  sent : w'.sent = w.sent
  now : w.now ≤ w'.now
  answers : ∀ i a, w.answers i = some a → w'.answers i = some a
  ledger : ∀ l ∈ w'.ledger, l ∈ w.ledger ∨ w.now ≤ l.acceptedAt
  dead : ∀ decisionId, Dead w decisionId → Dead w' decisionId

variable {w' : World}

theorem PhaseOk.around (h : PhaseOk w) (ha : Around w w') : PhaseOk w' := by
  unfold PhaseOk at *
  rw [ha.phase, ha.rows]
  cases hphase : w.phase with
  | idle => trivial
  | loop job rest =>
    rw [hphase] at h
    exact h
  | calling row sentAt epoch job rest =>
    rw [hphase] at h
    refine ⟨h.1, fun hjob q hq hid => ?_⟩
    obtain ⟨code, hcode⟩ := h.2 hjob q (ha.sent ▸ hq) hid
    exact ⟨code, ha.answers _ _ hcode⟩
  | waiting row sentAt request job rest =>
    rw [hphase] at h
    refine ⟨h.1, fun hjob q hq hid hne => ?_⟩
    obtain ⟨code, hcode⟩ := h.2 hjob q (ha.sent ▸ hq) hid hne
    exact ⟨code, ha.answers _ _ hcode⟩
  | asking row rest =>
    rw [hphase] at h
    exact h
  | viewed row found readAt rest =>
    rw [hphase] at h
    obtain ⟨hpass, hread, hnone⟩ := h
    refine ⟨hpass, Int.le_trans hread ha.now, fun hfound l hl hid => ?_⟩
    rcases ha.ledger l hl with hl | hlt
    · exact hnone hfound l hl hid
    · exact Int.le_trans hread hlt

theorem Inv.around (h : Inv w) (hn : Net w') (ha : Around w w') : Moves w w' := by
  obtain ⟨-, hr, hp⟩ := h
  refine ⟨⟨hn, ⟨?_, ?_, ?_, ?_⟩, hp.around ha⟩, fun r hmem _ => ha.rows ▸ hmem⟩
  · rw [ha.sent, ha.rows]
    exact hr.carried
  · intro r hmem sentAt hsent
    exact Int.le_trans (hr.clock r (ha.rows ▸ hmem) sentAt hsent) ha.now
  · intro r hmem hs q hq hid
    obtain ⟨code, hcode⟩ := hr.refused r (ha.rows ▸ hmem) hs q (ha.sent ▸ hq) hid
    exact ⟨code, ha.answers _ _ hcode⟩
  · intro r hmem hs
    exact ha.dead _ (hr.dead r (ha.rows ▸ hmem) hs)

theorem Inv.tick (h : Inv w) (micros : Nat) : Moves w { w with now := w.now + micros } := by
  have hle : w.now ≤ w.now + micros := Int.le_add_of_nonneg_right (Int.natCast_nonneg micros)
  refine h.around ⟨h.net.ids, h.net.flight, h.net.unsent, h.net.failed, h.net.ledger⟩
    ⟨rfl, rfl, rfl, hle, fun _ _ ha => ha, fun _ hl => Or.inl hl, fun d hd => ⟨hd.ledger, fun q hq hid => ?_⟩⟩
  exact Int.lt_of_lt_of_le (hd.late q hq hid) hle

theorem Inv.hold (h : Inv w) (epoch : Option Int) : Moves w { w with held := epoch } :=
  h.around ⟨h.net.ids, h.net.flight, h.net.unsent, h.net.failed, h.net.ledger⟩
    ⟨rfl, rfl, rfl, Int.le_refl _, fun _ _ ha => ha, fun _ hl => Or.inl hl, fun _ hd => ⟨hd.ledger, hd.late⟩⟩

theorem Inv.lose (h : Inv w) (request : Nat) :
    Moves w { w with flight := w.flight.filter fun p => p.id ≠ request } :=
  h.around ⟨h.net.ids, fun q hq => h.net.flight q (List.mem_of_mem_filter hq), h.net.unsent, h.net.failed, h.net.ledger⟩
    ⟨rfl, rfl, rfl, Int.le_refl _, fun _ _ ha => ha, fun _ hl => Or.inl hl,
      fun _ hd => ⟨hd.ledger, fun q hq hid => hd.late q (List.mem_of_mem_filter hq) hid⟩⟩

/-! ## The trader -/

structure Admits (w : World) (q : Request) (a : Answer) (l : LedgerRow) : Prop where
  decision : q.decisionId = l.decisionId
  now : l.acceptedAt = w.now
  late : w.now ≤ q.signedAt + SKEW
  answered : ∀ code, a ≠ .refusedBefore code

variable {q : Request}

theorem Inv.answer {ledger : List LedgerRow} {a : Answer} (h : Inv w) (hq : q ∈ w.flight)
    (hledger : ∀ l ∈ ledger, l ∈ w.ledger ∨ Admits w q a l)
    (hfailed : ∀ code, a = .failed code → code ∉ BEFORE_ANY_HANDLER) : Moves w (w.answer q ledger a) := by
  obtain ⟨hsent, hnone⟩ := h.net.flight q hq
  have hkeep : ∀ i b, w.answers i = some b → (w.answer q ledger a).answers i = some b := by
    intro i b hb
    have hne : i ≠ q.id := by
      rintro rfl
      cases hnone.symm.trans hb
    exact (Function.update_of_ne hne _ _).trans hb
  have hself : (w.answer q ledger a).answers q.id = some a := Function.update_self _ _ _
  have hnet : Net (w.answer q ledger a) := by
    refine ⟨h.net.ids, fun p hp => ?_, fun i hi => ?_, fun i code hcode => ?_, fun l hl => ?_⟩
    · obtain ⟨hp, hne⟩ := List.mem_filter.mp hp
      obtain ⟨hps, hpn⟩ := h.net.flight p hp
      exact ⟨hps, (Function.update_of_ne (by simpa using hne) _ _).trans hpn⟩
    · have hlt := h.net.sent_lt hsent
      exact (Function.update_of_ne (Nat.ne_of_gt (Nat.lt_of_lt_of_le hlt hi)) _ _).trans (h.net.unsent i hi)
    · by_cases hi : i = q.id
      · subst hi
        exact hfailed code (Option.some.inj (hself.symm.trans hcode))
      · exact h.net.failed i code ((Function.update_of_ne hi _ _).symm.trans hcode)
    · rcases hledger l hl with hl | hadmits
      · obtain ⟨p, hp, ht⟩ := h.net.ledger l hl
        obtain ⟨b, hb, hnot⟩ := ht.answered
        exact ⟨p, hp, ht.decision, ht.accepted, b, hkeep _ _ hb, hnot⟩
      · exact ⟨q, hsent, hadmits.decision, hadmits.now ▸ hadmits.late, a, hself, hadmits.answered⟩
  refine h.around hnet ⟨rfl, rfl, rfl, Int.le_refl _, hkeep, fun l hl => ?_, fun d hd => ⟨fun l hl => ?_, fun p hp => ?_⟩⟩
  · exact (hledger l hl).imp id fun hadmits => Int.le_of_eq hadmits.now.symm
  · rcases hledger l hl with hl | hadmits
    · exact hd.ledger l hl
    · intro heq
      have hlt := hd.late q hq (hadmits.decision.trans heq)
      have hle := hadmits.late
      omega
  · exact hd.late p (List.mem_filter.mp hp).1

theorem mem_admissionRows {receipt : Receipt} {l : LedgerRow} (hl : l ∈ w.admissionRows q receipt) :
    l ∈ w.ledger ∨ q.decisionId = l.decisionId ∧ l.acceptedAt = w.now := by
  unfold World.admissionRows at hl
  split at hl
  · exact Or.inl hl
  · rcases List.mem_append.mp hl with hl | hl
    · exact Or.inl hl
    · obtain rfl := List.mem_singleton.mp hl
      exact Or.inr ⟨rfl, rfl⟩

theorem Inv.handle (h : Inv w) (hq : q ∈ w.flight) (handling : Handling) : Moves w (w.handle q handling) := by
  cases handling with
  | admission receipt =>
    simp only [World.handle]
    split
    · rename_i hadm
      refine h.answer hq (fun l hl => (mem_admissionRows hl).imp id fun hnew => ?_) fun _ hf => nomatch hf
      exact ⟨hnew.1, hnew.2, hadm.1, fun _ => Answer.noConfusion⟩
    · exact Moves.refl h
  | refuse code =>
    simp only [World.handle]
    split
    · exact h.answer hq (fun _ hl => Or.inl hl) fun _ hf => nomatch hf
    · exact Moves.refl h
  | fail code started =>
    simp only [World.handle]
    split
    · exact Moves.refl h
    · rename_i hcode
      have hfailed : ∀ code', Answer.failed code = .failed code' → code' ∉ BEFORE_ANY_HANDLER := by
        rintro _ ⟨⟩
        exact hcode
      split
      · rename_i hadm
        refine h.answer hq (fun l hl => (mem_admissionRows hl).imp id fun hnew => ?_) hfailed
        exact ⟨hnew.1, hnew.2, hadm.2.1, fun _ => Answer.noConfusion⟩
      · exact h.answer hq (fun _ hl => Or.inl hl) hfailed

/-! ## Rows that appear, and a restart -/

variable {F : Type} [PyFloat F]

theorem insertInTx_spec {rows rows' : Submissions} {sourceKind sourceId : String} {decision : ProposedDecision F}
    {expiresAt epoch now : Int} (hins : insertInTx C rows sourceKind sourceId decision expiresAt epoch now = some rows') :
    rows' = rows ∨ ∃ new : Submission, new.state = .PENDING ∧ new.lastSentAt = none ∧
      rows.get? new.decisionId = none ∧ ∀ s, s ∈ rows'.rows ↔ s ∈ rows.rows ∨ s = new := by
  unfold insertInTx at hins
  split at hins
  · cases hins
  dsimp only at hins
  split at hins
  · split at hins
    · cases hins
    · exact Or.inl (Option.some.inj hins).symm
  · rename_i hget
    exact Or.inr ⟨_, rfl, rfl, hget, fun s => Table.mem_insert? hins⟩

/-- The stored rows change under the submitter. -/
structure Reloads (w : World) (rows : Submissions) : Prop where
  kept : ∀ r ∈ w.rows.rows, r.state ≠ .SENDING → r ∈ rows.rows
  sending : ∀ r ∈ w.rows.rows, r.state = .SENDING → ∃ s ∈ rows.rows, s.decisionId = r.decisionId ∧
    s.bodyJson = r.bodyJson ∧ s.lastSentAt = r.lastSentAt ∧ (s.state = .SENDING ∨ s.state = .UNKNOWN)
  source : ∀ s ∈ rows.rows, (∃ r ∈ w.rows.rows, s.lastSentAt = r.lastSentAt) ∨ s.lastSentAt = none
  unhandled : ∀ s ∈ rows.rows, Unhandled s.state → s ∈ w.rows.rows ∨ w.rows.get? s.decisionId = none
  dead : ∀ s ∈ rows.rows, s.state = .NOT_ADMITTED → s ∈ w.rows.rows

variable {rows : Submissions}

theorem Reloads.listed (hl : Reloads w rows) (h : Listed w.rows job row) : Listed rows job row := by
  refine ⟨hl.kept row h.1 fun hs => ?_, h.2⟩
  have hstate := h.2
  cases job <;> simp [hs] at hstate

theorem Reloads.pass (hl : Reloads w rows) (h : Pass w.rows job rest) : Pass rows job rest :=
  ⟨h.nodup, fun r hr => hl.listed (h.listed r hr)⟩

theorem Reloads.under (hl : Reloads w rows) {sentAt : Int} (h : Under w.rows row sentAt job rest) :
    Under rows row sentAt job rest := by
  refine ⟨hl.pass h.pass, h.off, ?_⟩
  obtain ⟨r, hr, hid, hbody, hlast, hstate⟩ := h.stored
  rcases hstate with hstate | hstate
  · obtain ⟨s, hs, hsid, hsbody, hslast, hsstate⟩ := hl.sending r hr hstate
    exact ⟨s, hs, hsid.trans hid, hsbody.trans hbody, hslast.trans hlast, hsstate⟩
  · exact ⟨r, hl.kept r hr (by rw [hstate]; decide), hid, hbody, hlast, Or.inr hstate⟩

theorem Inv.reload (h : Inv w) (hl : Reloads w rows) : Moves w { w with rows := rows } := by
  obtain ⟨hn, hr, hp⟩ := h
  refine ⟨⟨⟨hn.ids, hn.flight, hn.unsent, hn.failed, hn.ledger⟩, ⟨?_, ?_, ?_, ?_⟩, ?_⟩, fun r hmem hup => hl.kept r hmem ?_⟩
  · intro q hq
    obtain ⟨r, hmem, hc⟩ := hr.carried q hq
    by_cases hs : r.state = .SENDING
    · obtain ⟨s, hsm, hsid, hsbody, hslast, -⟩ := hl.sending r hmem hs
      exact ⟨s, hsm, hsid.trans hc.decision, hc.body.trans hsbody.symm, hslast ▸ hc.signed⟩
    · exact ⟨r, hl.kept r hmem hs, hc⟩
  · intro s hs sentAt hsent
    rcases hl.source s hs with ⟨r, hmem, heq⟩ | hnone
    · exact hr.clock r hmem sentAt (heq.symm.trans hsent)
    · cases hnone.symm.trans hsent
  · intro s hs hstate
    rcases hl.unhandled s hs hstate with hmem | hget
    · exact hr.refused s hmem hstate
    -- a row that was not there has sent nothing
    · intro q hq hid
      obtain ⟨r, hmem, hc⟩ := hr.carried q hq
      exact absurd (hc.decision.trans hid) (Table.get?_eq_none.mp hget r hmem)
  · intro s hs hstate
    have hdead := hr.dead s (hl.dead s hs hstate) hstate
    exact ⟨hdead.ledger, hdead.late⟩
  · unfold PhaseOk at *
    dsimp only
    cases hphase : w.phase with
    | idle => trivial
    | loop job rest =>
      rw [hphase] at hp
      exact (hl.pass hp)
    | calling row sentAt epoch job rest =>
      rw [hphase] at hp
      exact ⟨(hl.under hp.1), hp.2⟩
    | waiting row sentAt request job rest =>
      rw [hphase] at hp
      exact ⟨(hl.under hp.1), hp.2⟩
    | asking row rest =>
      rw [hphase] at hp
      exact (hl.pass hp)
    | viewed row found readAt rest =>
      rw [hphase] at hp
      exact ⟨(hl.pass hp.1), hp.2⟩
  · intro hs
    rw [hs] at hup
    rcases hup with hup | hup | hup <;> cases hup

theorem Inv.insert {new : Submission} (h : Inv w) (hstate : new.state = .PENDING)
    (hlast : new.lastSentAt = none) (hget : w.rows.get? new.decisionId = none)
    (hmem : ∀ s, s ∈ rows.rows ↔ s ∈ w.rows.rows ∨ s = new) : Moves w { w with rows := rows } := by
  refine h.reload ⟨fun r hr _ => (hmem r).mpr (Or.inl hr), fun r hr hs => ?_, fun s hs => ?_, fun s hs _ => ?_,
    fun s hs hst => ?_⟩
  · exact ⟨r, (hmem r).mpr (Or.inl hr), rfl, rfl, rfl, Or.inl hs⟩
  · rcases (hmem s).mp hs with hs | rfl
    · exact Or.inl ⟨s, hs, rfl⟩
    · exact Or.inr hlast
  · refine ((hmem s).mp hs).imp id fun heq => ?_
    rw [heq]
    exact hget
  · rcases (hmem s).mp hs with hs | rfl
    · exact hs
    · rw [hstate] at hst
      cases hst

theorem Inv.recover (h : Inv w) : Moves w { w with rows := World.recoverRows w.rows } := by
  have hmem : ∀ s, s ∈ (World.recoverRows w.rows).rows ↔ ∃ r ∈ w.rows.rows,
      s = if r.state = .SENDING then { r with state := .UNKNOWN, errorCode := some "PROCESS_RESTARTED" } else r := by
    intro s
    unfold World.recoverRows
    rw [Table.mem_updateWhere]
    simp only [decide_eq_true_eq]
  refine h.reload ⟨fun r hr hs => (hmem r).mpr ⟨r, hr, (if_neg hs).symm⟩, fun r hr hs => ?_, fun s hs => ?_,
    fun s hs hst => Or.inl ?_, fun s hs hst => ?_⟩
  · exact ⟨_, (hmem _).mpr ⟨r, hr, (if_pos hs).symm⟩, rfl, rfl, rfl, Or.inr rfl⟩
  all_goals
    obtain ⟨r, hr, rfl⟩ := (hmem s).mp hs
    by_cases hsend : r.state = .SENDING
  · exact Or.inl ⟨r, hr, by rw [if_pos hsend]⟩
  · exact Or.inl ⟨r, hr, by rw [if_neg hsend]⟩
  · rw [if_pos hsend] at hst
    exact absurd hst not_unhandled.1
  · rw [if_neg hsend]
    exact hr
  · rw [if_pos hsend] at hst
    cases hst
  · rw [if_neg hsend]
    exact hr

/-! ## Runs -/

/-- The trader read its rows when no request of the last send could be taken any more. -/
def FreshReading (C : Config) (w : World) : Phase → Prop
  | .viewed row none readAt _ => w.GivesUp C row → ∀ sentAt ∈ row.lastSentAt, sentAt + SIGN_WITHIN + SKEW < readAt
  | _ => True

instance (C : Config) (w : World) : DecidablePred (FreshReading C w)
  | .viewed _ none _ _ => inferInstanceAs (Decidable (_ → _))
  | .viewed _ (some _) _ _ | .idle | .loop _ _ | .calling _ _ _ _ _ | .waiting _ _ _ _ _ | .asking _ _ => .isTrue trivial

def Fresh {F : Type} (C : Config) (w : World) : Act F → Prop
  | .view _ _ => FreshReading C w w.phase
  | _ => True

instance {F : Type} (C : Config) (w : World) : DecidablePred (Fresh (F := F) C w)
  | .view _ _ => inferInstanceAs (Decidable (FreshReading _ _ _))
  | .tick _ | .hold _ | .insert _ _ _ _ _ | .recover | .crash | .sendDue | .reconcileOnce | .next _ _ | .sign | .result _
  | .handle _ _ | .lose _ | .read _ | .viewFails _ => .isTrue trivial

theorem Inv.list (h : Inv w) (job : Job) {p : Submission → Bool} (hp : ∀ r ∈ w.rows.rows, p r = true → Listed w.rows job r) :
    Moves w { w with phase := .loop job (w.rows.rows.filter p) } := by
  refine h.phase_only (.loop job (w.rows.rows.filter p)) w.held
    ⟨(List.filter_sublist.map _).nodup w.rows.nodup, fun r hr => ?_⟩
  obtain ⟨hmem, hpr⟩ := List.mem_filter.mp hr
  exact ⟨hmem, (hp r hmem hpr).2⟩

theorem Inv.step (h : Inv w) (a : Act F) (hfresh : Fresh C w a) : Moves w (w.step C a) := by
  have hph := h.phase
  cases a with
  | tick micros => exact h.tick micros
  | hold epoch => exact h.hold epoch
  | insert sourceKind sourceId decision expiresAt epoch =>
    simp only [World.step]
    split
    · exact Moves.refl h
    · rename_i rows hins
      rcases insertInTx_spec hins with rfl | ⟨new, hstate, hlast, hget, hmem⟩
      · exact Moves.refl h
      · exact h.insert hstate hlast hget hmem
  | recover => exact h.recover
  | crash => exact h.phase_only .idle none trivial
  | sendDue =>
    simp only [World.step]
    split
    · refine h.list .send fun r hr hp => ⟨hr, ?_⟩
      rw [Bool.and_eq_true, decide_eq_true_iff] at hp
      exact hp.1
    · exact Moves.refl h
  | reconcileOnce =>
    simp only [World.step]
    split
    · refine h.list .reconcile fun r hr hp => ⟨hr, ?_⟩
      rw [Bool.or_eq_true, decide_eq_true_iff, decide_eq_true_iff] at hp
      exact hp
    · exact Moves.refl h
  | next experiment entryWindowOpen =>
    simp only [World.step]
    unfold PhaseOk at hph
    split
    · exact h.phase_only .idle w.held trivial
    · rename_i hp
      rw [hp] at hph
      exact h.trySend hph experiment entryWindowOpen
    · rename_i row rest hp
      rw [hp] at hph
      split
      · exact h.phase_only .idle w.held trivial
      · exact h.phase_only (.asking row rest) w.held (hph)
    · exact Moves.refl h
  | sign =>
    simp only [World.step]
    split
    · rename_i row sentAt epoch job rest hp
      split
      · rename_i hsigned
        exact h.sign hp hsigned _ rfl
      · exact Moves.refl h
    · exact Moves.refl h
  | result failure =>
    simp only [World.step]
    unfold PhaseOk at hph
    split
    · rename_i row sentAt epoch job rest code hp
      rw [hp] at hph
      exact h.endSend hph.1 fun hjob _ => hph.2 hjob
    · rename_i row sentAt epoch job rest code hp
      rw [hp] at hph
      exact h.endSend hph.1 fun hjob _ => hph.2 hjob
    · rename_i row sentAt request job rest code hp
      rw [hp] at hph
      refine h.endSend hph.1 fun hjob hproof => ?_
      rcases hproof with ⟨c, hc⟩ | ⟨c, -, hc⟩ <;> cases hc
    · rename_i row sentAt request job rest hp
      rw [hp] at hph
      split
      · rename_i a ha
        refine h.endSend hph.1 fun hjob hproof q hq hid => ?_
        obtain ⟨code, rfl⟩ := h.net.result_refused ha hproof
        by_cases hne : q.id = request
        · exact ⟨code, hne ▸ ha⟩
        · exact hph.2 hjob q hq hid hne
      · exact Moves.refl h
    · exact Moves.refl h
  | handle request handling =>
    simp only [World.step]
    split
    · rename_i q hq
      exact h.handle (List.mem_of_find?_eq_some hq) handling
    · exact Moves.refl h
  | lose request => exact h.lose request
  | read closeRootId =>
    simp only [World.step]
    unfold PhaseOk at hph
    split
    · rename_i row rest hp
      rw [hp] at hph
      refine h.phase_only (.viewed row _ w.now rest) w.held ⟨hph, Int.le_refl _, fun hnone l hl hid => ?_⟩
      rw [Option.map_eq_none_iff, List.find?_eq_none] at hnone
      exact absurd (by simpa using hid) (hnone l hl)
    · exact Moves.refl h
  | view experiment entryWindowOpen =>
    simp only [World.step]
    split
    · rename_i row found readAt rest hp
      refine h.takeView hp (fun hfound => ?_) experiment entryWindowOpen
      subst hfound
      rw [Fresh, hp] at hfresh
      exact hfresh
    · exact Moves.refl h
  | viewFails result =>
    have hstop : ∀ held, Moves w { w with phase := .idle, held := held } := fun held => h.phase_only .idle held trivial
    unfold PhaseOk at hph
    simp only [World.step]
    split
    · rename_i rest code heq
      split
      · exact hstop none
      · refine h.phase_only (.loop .reconcile rest) w.held ?_
        cases hp : w.phase with
        | asking row rest =>
          rw [hp] at hph heq
          cases heq
          exact hph.tail
        | viewed row found readAt rest =>
          rw [hp] at hph heq
          cases heq
          exact hph.1.tail
        | _ =>
          rw [hp] at heq
          cases heq
    · exact hstop w.held
    · exact hstop w.held
    · exact Moves.refl h

theorem run_moves {acts : List (Act F)} (h : Inv w) (hm : Meets (World.step C) (Fresh C) w acts) :
    Moves w (acts.foldl (World.step C) w) := by
  induction acts generalizing w with
  | nil => exact Moves.refl h
  | cons a acts ih =>
    have hstep := h.step a hm.1
    have hrest := ih hstep.inv hm.2
    exact ⟨hrest.inv, fun r hr hup => hrest.kept r (hstep.kept r hr hup) hup⟩

/-- **A command given up never runs.**  In every run whose readings are fresh: what was sent is what is stored, a row is
    PENDING only while every request of it was refused before any handler, and the trader has no row of a command given
    up, then or later. -/
theorem given_up_never_runs (C : Config) (now : Int) {acts : List (Act F)}
    (h : Meets (World.step C) (Fresh C) (.start now) acts) (pre rest : List (Act F)) (hsplit : acts = pre ++ rest) :
    StatePromise (pre.foldl (World.step C) (.start now)) ∧
      ∀ r ∈ (pre.foldl (World.step C) (.start now)).rows.rows, GivenUp r.state →
        r ∈ (acts.foldl (World.step C) (.start now)).rows.rows ∧
          ∀ l ∈ (acts.foldl (World.step C) (.start now)).ledger, l.decisionId ≠ r.decisionId := by
  subst hsplit
  obtain ⟨hpre, hrest⟩ := Meets.append.mp h
  have hmid := (run_moves (Inv.start now) hpre).inv
  have hend := run_moves hmid hrest
  rw [List.foldl_append]
  refine ⟨hmid.promise, fun r hr hup => ?_⟩
  have hmem := hend.kept r hr hup
  exact ⟨hmem, hend.inv.no_ledger hmem hup⟩

/-! ## Two runs -/

def sampleConfig : Config := ⟨fun _ => "0", fun _ => "t", seconds 60⟩

def sampleDecision : ProposedDecision Empty :=
  { actionKey := "k", action := .CLOSE, conid := 1, side := "SELL", decider := "ai", evidenceDigest := "e",
    deploymentDigest := none, policyRevision := none, stopPrice := none, targetPrice := none, quantity := none,
    deploymentVersion := none, sourceDigest := none }

/-- The row is sent, the request leaves after `signAfter`, and the call ends without an answer after 60 s. -/
def sendAndTimeOut (signAfter callRest : Nat) (expiresAt : Int) : List (Act Empty) :=
  [.hold (some 1), .insert "exit_signal" "s" sampleDecision expiresAt 1, .sendDue, .next (some .ARMED) true,
    .tick signAfter, .sign, .tick callRest, .result (some (.outcomeUnknown "TIMEOUT")), .next (some .ARMED) true]

/-- The trader is asked `wait` later and has nothing. -/
def askAfter (wait : Nat) : List (Act Empty) :=
  [.tick wait, .reconcileOnce, .next (some .ARMED) true, .read none, .view (some .ARMED) true]

/-- The request, signed 50 s after `last_sent_at`, is taken at 62 s; at 61 s the row was given up. -/
def lateRun : List (Act Empty) :=
  sendAndTimeOut 50000000 10000000 (seconds 66) ++ askAfter 1000000 ++
    [.tick 1000000, .handle 0 (.admission ⟨some "SUBMITTED", none⟩)]

/-- The settle time of 60 s is shorter than the time in which a request may still be taken. -/
theorem late_request_runs : ¬ StatePromise (lateRun.foldl (World.step sampleConfig) (.start 0)) := by
  intro h
  have hruns : ((lateRun.foldl (World.step sampleConfig) (.start 0)).rows.rows.any fun r =>
      decide (r.state = .NOT_ADMITTED) &&
        (lateRun.foldl (World.step sampleConfig) (.start 0)).ledger.any fun l => l.decisionId = r.decisionId) = true := by
    decide +kernel
  obtain ⟨r, hr, hrow⟩ := List.any_eq_true.mp hruns
  obtain ⟨hstate, hledger⟩ := Bool.and_eq_true _ _ ▸ hrow
  obtain ⟨l, hl, hid⟩ := List.any_eq_true.mp hledger
  exact h.givenUp r hr (Or.inr (Or.inl (of_decide_eq_true hstate))) l hl (of_decide_eq_true hid)

/-- The same request is lost, and the trader is asked after 91 s. -/
def freshRun : List (Act Empty) := sendAndTimeOut 50000000 10000000 (seconds 66) ++ [.lose 0] ++ askAfter 31000000

theorem given_up_never_runs_fresh :
    StatePromise (freshRun.foldl (World.step sampleConfig) (.start 0)) ∧
      (freshRun.foldl (World.step sampleConfig) (.start 0)).rows.rows.map (·.state) = [.NOT_ADMITTED] := by
  have hfresh : Meets (World.step sampleConfig) (Fresh sampleConfig) (.start 0) freshRun := by decide +kernel
  exact ⟨(given_up_never_runs sampleConfig 0 hfresh freshRun [] (List.append_nil _).symm).1, by decide +kernel⟩

end MmrTrader.Submit
