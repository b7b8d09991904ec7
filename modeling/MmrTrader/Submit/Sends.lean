import MmrTrader.Submit.Parties

/-!
# What the submitter knows of its commands

* `StatePromise` — what was sent is what is stored; PENDING and given-up rows.
* `Refused` — every request that ever left for the decision was refused before any handler.
* `Dead` — the trader has no row of the decision, and no request under way that it would still take.
* `Net`, `RowsOk`, `PhaseOk` — the messages, the stored rows, and what the submitter holds; `Inv` is all three.
* `Inv.trySend`, `Inv.sign`, `Inv.endSend`, `Inv.takeView` — the steps of the submitter.
-/

namespace MmrTrader.Submit

open Lib Rpc

/-! ## The promise -/

def GivenUp (state : SubmissionState) : Prop := state = .ABANDONED ∨ state = .NOT_ADMITTED ∨ state = .FAILED

structure StatePromise (w : World) : Prop where
  bodies : ∀ q ∈ w.sent, ∃ r ∈ w.rows.rows, r.decisionId = q.decisionId ∧ q.bodyJson = r.bodyJson
  pending : ∀ r ∈ w.rows.rows, r.state = .PENDING → ∀ q ∈ w.sent, q.decisionId = r.decisionId →
    ∃ code, w.answers q.id = some (.refusedBefore code)
  givenUp : ∀ r ∈ w.rows.rows, GivenUp r.state → ∀ l ∈ w.ledger, l.decisionId ≠ r.decisionId

/-- The answer "not found" makes the row NOT_ADMITTED now. -/
def World.GivesUp (C : Config) (w : World) (row : Submission) : Prop :=
  row.state = .UNKNOWN ∧ (∀ sentAt ∈ row.lastSentAt, sentAt + C.settle ≤ w.now) ∧ row.expiresAt - SEND_MARGIN ≤ w.now

instance (C : Config) (w : World) (row : Submission) : Decidable (w.GivesUp C row) := inferInstanceAs (Decidable (_ ∧ _))

/-! ## Messages and rows -/

def Refused (w : World) (decisionId : String) : Prop :=
  ∀ q ∈ w.sent, q.decisionId = decisionId → ∃ code, w.answers q.id = some (.refusedBefore code)

structure Dead (w : World) (decisionId : String) : Prop where
  ledger : ∀ l ∈ w.ledger, l.decisionId ≠ decisionId
  late : ∀ q ∈ w.flight, q.decisionId = decisionId → q.signedAt + SKEW < w.now

structure Took (answers : Nat → Option Answer) (l : LedgerRow) (q : Request) : Prop where
  decision : q.decisionId = l.decisionId
  accepted : l.acceptedAt ≤ q.signedAt + SKEW
  answered : ∃ a, answers q.id = some a ∧ ∀ code, a ≠ .refusedBefore code

structure Net (w : World) : Prop where
  ids : ∀ i (q : Request), w.sent[i]? = some q → q.id = i
  flight : ∀ q ∈ w.flight, q ∈ w.sent ∧ w.answers q.id = none
  unsent : ∀ i, w.sent.length ≤ i → w.answers i = none
  failed : ∀ i code, w.answers i = some (.failed code) → code ∉ BEFORE_ANY_HANDLER
  ledger : ∀ l ∈ w.ledger, ∃ q ∈ w.sent, Took w.answers l q

/-- The row holds the body of the request, which was signed in time. -/
structure Carries (r : Submission) (q : Request) : Prop where
  decision : r.decisionId = q.decisionId
  body : q.bodyJson = r.bodyJson
  signed : ∃ sentAt, r.lastSentAt = some sentAt ∧ q.signedAt ≤ sentAt + SIGN_WITHIN

def Unhandled (state : SubmissionState) : Prop := state = .PENDING ∨ state = .ABANDONED ∨ state = .FAILED

structure RowsOk (w : World) : Prop where
  carried : ∀ q ∈ w.sent, ∃ r ∈ w.rows.rows, Carries r q
  clock : ∀ r ∈ w.rows.rows, ∀ sentAt, r.lastSentAt = some sentAt → sentAt ≤ w.now
  refused : ∀ r ∈ w.rows.rows, Unhandled r.state → Refused w r.decisionId
  dead : ∀ r ∈ w.rows.rows, r.state = .NOT_ADMITTED → Dead w r.decisionId

/-! ## Phases -/

def Listed (rows : Submissions) (job : Job) (row : Submission) : Prop :=
  row ∈ rows.rows ∧
    match job with
    | .send => row.state = .PENDING
    | .reconcile => row.state = .UNKNOWN ∨ row.state = .ACCEPTED

/-- The rows of a pass that are still to come. -/
structure Pass (rows : Submissions) (job : Job) (rest : List Submission) : Prop where
  nodup : (rest.map (·.decisionId)).Nodup
  listed : ∀ row ∈ rest, Listed rows job row

structure Under (rows : Submissions) (row : Submission) (sentAt : Int) (job : Job) (rest : List Submission) : Prop where
  pass : Pass rows job rest
  off : row.decisionId ∉ rest.map (·.decisionId)
  stored : ∃ r ∈ rows.rows, r.decisionId = row.decisionId ∧ r.bodyJson = row.bodyJson ∧
    r.lastSentAt = some sentAt ∧ (r.state = .SENDING ∨ r.state = .UNKNOWN)

def PhaseOk (w : World) : Prop :=
  match w.phase with
  | .idle => True
  | .loop job rest => Pass w.rows job rest
  | .calling row sentAt _ job rest => Under w.rows row sentAt job rest ∧ (job = .send → Refused w row.decisionId)
  | .waiting row sentAt request job rest =>
    Under w.rows row sentAt job rest ∧ (job = .send → ∀ q ∈ w.sent, q.decisionId = row.decisionId → q.id ≠ request →
      ∃ code, w.answers q.id = some (.refusedBefore code))
  | .asking row rest => Pass w.rows .reconcile (row :: rest)
  | .viewed row found readAt rest =>
    Pass w.rows .reconcile (row :: rest) ∧ readAt ≤ w.now ∧
      (found = none → ∀ l ∈ w.ledger, l.decisionId = row.decisionId → readAt ≤ l.acceptedAt)

structure Inv (w : World) : Prop where
  net : Net w
  rows : RowsOk w
  phase : PhaseOk w

theorem Inv.start (now : Int) : Inv (.start now) where
  net :=
    ⟨fun _ _ h => absurd h (by rw [World.start, List.getElem?_nil]; exact Option.some_ne_none _ ∘ Eq.symm),
      fun _ h => absurd h List.not_mem_nil, fun _ _ => rfl, fun _ _ h => absurd h.symm (Option.some_ne_none _),
      fun _ h => absurd h List.not_mem_nil⟩
  rows :=
    ⟨fun _ h => absurd h List.not_mem_nil, fun _ h => absurd h List.not_mem_nil, fun _ h => absurd h List.not_mem_nil,
      fun _ h => absurd h List.not_mem_nil⟩
  phase := trivial

/-- A state the invariant holds in, with every row given up still there. -/
structure Moves (w w' : World) : Prop where
  inv : Inv w'
  kept : ∀ r ∈ w.rows.rows, GivenUp r.state → r ∈ w'.rows.rows

variable {C : Config} {w : World} {row r : Submission} {job : Job} {rest : List Submission} {decisionId : String}

theorem Moves.refl (h : Inv w) : Moves w w := ⟨h, fun _ hr _ => hr⟩

/-! ## What a request leaves -/

theorem Refused.no_ledger (h : Refused w decisionId) (hn : Net w) : ∀ l ∈ w.ledger, l.decisionId ≠ decisionId := by
  intro l hl heq
  obtain ⟨q, hq, htook⟩ := hn.ledger l hl
  obtain ⟨a, ha, hnot⟩ := htook.answered
  obtain ⟨code, hcode⟩ := h q hq (htook.decision.trans heq)
  exact hnot code (Option.some.inj (ha.symm.trans hcode))

theorem Inv.no_ledger (h : Inv w) (hr : r ∈ w.rows.rows) (hup : GivenUp r.state) :
    ∀ l ∈ w.ledger, l.decisionId ≠ r.decisionId := by
  rcases hup with hup | hup | hup
  · exact (h.rows.refused r hr (Or.inr (Or.inl hup))).no_ledger h.net
  · exact (h.rows.dead r hr hup).ledger
  · exact (h.rows.refused r hr (Or.inr (Or.inr hup))).no_ledger h.net

theorem Inv.promise (h : Inv w) : StatePromise w where
  bodies q hq :=
    have ⟨r, hr, hc⟩ := h.rows.carried q hq
    ⟨r, hr, hc.decision, hc.body⟩
  pending r hr hstate := h.rows.refused r hr (Or.inl hstate)
  givenUp _ hr hup := h.no_ledger hr hup

/-! ## Listed rows -/

theorem Listed.live (h : Listed w.rows job row) : ¬ GivenUp row.state := by
  obtain ⟨-, hstate⟩ := h
  rintro (hup | hup | hup) <;> cases job <;> simp [hup] at hstate

theorem Pass.tail (h : Pass w.rows job (row :: rest)) : Pass w.rows job rest :=
  ⟨(List.nodup_cons.mp h.nodup).2, fun r hr => h.listed r (List.mem_cons_of_mem _ hr)⟩

theorem Pass.off (h : Pass w.rows job (row :: rest)) : row.decisionId ∉ rest.map (·.decisionId) :=
  (List.nodup_cons.mp h.nodup).1

theorem Pass.head (h : Pass w.rows job (row :: rest)) : Listed w.rows job row := h.listed row List.mem_cons_self

theorem Listed.unique (h : Listed w.rows job row) (hr : r ∈ w.rows.rows) (hid : r.decisionId = row.decisionId) : r = row :=
  w.rows.eq_of_key hr h.1 hid

/-! ## A write of one row -/

section
variable {rows : Submissions} {f : Submission → Submission} (hf : ∀ r, (f r).decisionId = r.decisionId)

theorem mem_setRow {s : Submission} :
    s ∈ (setRow rows decisionId f hf).rows ↔ ∃ r ∈ rows.rows, s = if r.decisionId = decisionId then f r else r := by
  unfold setRow
  rw [Table.mem_updateWhere]
  simp only [decide_eq_true_eq]

theorem mem_setRow_of_ne (hr : r ∈ rows.rows) (hne : r.decisionId ≠ decisionId) :
    r ∈ (setRow rows decisionId f hf).rows :=
  (mem_setRow hf).mpr ⟨r, hr, (if_neg hne).symm⟩

theorem mem_setRow_self (hr : r ∈ rows.rows) : f r ∈ (setRow rows r.decisionId f hf).rows :=
  (mem_setRow hf).mpr ⟨r, hr, (if_pos rfl).symm⟩

end

/-- What a write of the row may do. -/
structure Rewrites (w : World) (decisionId : String) (f : Submission → Submission) : Prop where
  body : ∀ r, (f r).bodyJson = r.bodyJson
  sentAt : ∀ r, (f r).lastSentAt = r.lastSentAt ∨ (f r).lastSentAt = some w.now
  refused : ∀ r ∈ w.rows.rows, r.decisionId = decisionId → Unhandled (f r).state → Refused w decisionId
  dead : ∀ r ∈ w.rows.rows, r.decisionId = decisionId → (f r).state = .NOT_ADMITTED → Dead w decisionId

variable {f : Submission → Submission} {hf : ∀ r, (f r).decisionId = r.decisionId} {phase : Phase}

theorem RowsOk.settle (h : RowsOk w) (hu : Rewrites w decisionId f) : RowsOk (w.settle decisionId f hf phase) := by
  refine ⟨?_, ?_, ?_, ?_⟩
  · intro q hq
    obtain ⟨r, hr, hc⟩ := h.carried q hq
    obtain ⟨sentAt, hsent, hsigned⟩ := hc.signed
    refine ⟨if r.decisionId = decisionId then f r else r, (mem_setRow hf).mpr ⟨r, hr, rfl⟩, ?_⟩
    split
    · refine ⟨(hf r).trans hc.decision, hc.body.trans (hu.body r).symm, ?_⟩
      rcases hu.sentAt r with hsame | hnow
      · exact ⟨sentAt, hsame.trans hsent, hsigned⟩
      · have hle := h.clock r hr sentAt hsent
        exact ⟨w.now, hnow, by omega⟩
    · exact hc
  · intro s hs sentAt hsent
    obtain ⟨r, hr, rfl⟩ := (mem_setRow hf).mp hs
    split at hsent
    · rcases hu.sentAt r with hsame | hnow
      · exact h.clock r hr sentAt (hsame.symm.trans hsent)
      · obtain rfl := Option.some.inj (hnow.symm.trans hsent)
        exact Int.le_refl _
    · exact h.clock r hr sentAt hsent
  · intro s hs hstate
    obtain ⟨r, hr, rfl⟩ := (mem_setRow hf).mp hs
    split at hstate
    · rename_i hid
      rw [if_pos hid, hf r, hid]
      exact hu.refused r hr hid hstate
    · rename_i hid
      rw [if_neg hid]
      exact h.refused r hr hstate
  · intro s hs hstate
    obtain ⟨r, hr, rfl⟩ := (mem_setRow hf).mp hs
    split at hstate
    · rename_i hid
      rw [if_pos hid, hf r, hid]
      have hdead := hu.dead r hr hid hstate
      exact ⟨hdead.ledger, hdead.late⟩
    · rename_i hid
      rw [if_neg hid]
      have hdead := h.dead r hr hstate
      exact ⟨hdead.ledger, hdead.late⟩

theorem Pass.set (hf : ∀ r, (f r).decisionId = r.decisionId) (h : Pass w.rows job rest)
    (hoff : decisionId ∉ rest.map (·.decisionId)) :
    Pass (setRow w.rows decisionId f hf) job rest := by
  refine ⟨h.nodup, fun r hr => ⟨mem_setRow_of_ne hf (h.listed r hr).1 fun hid => ?_, (h.listed r hr).2⟩⟩
  exact hoff (hid ▸ List.mem_map_of_mem hr)

/-- One row is written, and the submitter goes on. -/
theorem Inv.settle (h : Inv w) (hu : Rewrites w decisionId f)
    (hlive : ∀ r ∈ w.rows.rows, r.decisionId = decisionId → ¬ GivenUp r.state)
    (hp : PhaseOk (w.settle decisionId f hf phase)) : Moves w (w.settle decisionId f hf phase) :=
  ⟨⟨⟨h.net.ids, h.net.flight, h.net.unsent, h.net.failed, h.net.ledger⟩, h.rows.settle hu, hp⟩,
     fun r hr hup => mem_setRow_of_ne hf hr fun hid => hlive r hr hid hup⟩

theorem Inv.settleOn (h : Inv w) (hu : Rewrites w decisionId f)
    (hlive : ∀ r ∈ w.rows.rows, r.decisionId = decisionId → ¬ GivenUp r.state) (hpass : Pass w.rows job rest)
    (hoff : decisionId ∉ rest.map (·.decisionId)) : Moves w (w.settle decisionId f hf (.loop job rest)) :=
  h.settle hu hlive (hpass.set hf hoff)

theorem Inv.phase_only (h : Inv w) (phase : Phase) (held : Option Int)
    (hp : PhaseOk { w with phase := phase, held := held }) : Moves w { w with phase := phase, held := held } := by
  obtain ⟨hn, hr, -⟩ := h
  refine ⟨⟨⟨hn.ids, hn.flight, hn.unsent, hn.failed, hn.ledger⟩, ⟨hr.carried, hr.clock, hr.refused, fun r hmem hs => ?_⟩,
    hp⟩, fun _ hr _ => hr⟩
  exact ⟨(hr.dead r hmem hs).ledger, (hr.dead r hmem hs).late⟩

/-! ## A send -/

/-- A resend is never abandoned. -/
theorem gate_resend (row : Submission) (now : Int) (experiment : Option ExperimentState) (entryWindowOpen : Bool)
    (code : String) : gate row now experiment entryWindowOpen true ≠ .abandon code := by
  unfold gate
  simp only [if_true]
  split_ifs <;> exact Verdict.noConfusion

theorem Inv.trySend (h : Inv w) (hpass : Pass w.rows job (row :: rest)) (experiment : Option ExperimentState)
    (entryWindowOpen : Bool) : Moves w (w.trySend row experiment entryWindowOpen job rest) := by
  have hlive : ∀ r ∈ w.rows.rows, r.decisionId = row.decisionId → ¬ GivenUp r.state := fun r hr hid =>
    hpass.head.unique hr hid ▸ hpass.head.live
  have hrefused : job = .send → Refused w row.decisionId := by
    rintro rfl
    exact h.rows.refused row hpass.head.1 (Or.inl hpass.head.2)
  unfold World.trySend
  split
  · exact h.phase_only _ w.held hpass.tail
  · rename_i code hgate
    have hjob : job = .send := by
      cases job with
      | send => rfl
      | reconcile => exact absurd hgate (gate_resend row w.now experiment entryWindowOpen code)
    refine h.settleOn ⟨fun _ => rfl, fun _ => Or.inl rfl, fun _ _ _ _ => hrefused hjob, fun _ _ _ hs => ?_⟩ hlive
      hpass.tail hpass.off
    cases hs
  · split
    · exact h.phase_only _ w.held hpass.tail
    · rename_i epoch _
      let f : Submission → Submission := fun r => { r with
        state := .SENDING
        attempts := row.attempts + 1
        lastEpoch := some epoch
        lastSentAt := some w.now }
      have hself := mem_setRow_self (f := f) (fun _ => rfl) hpass.head.1
      have hrest := hpass.tail.set (f := f) (fun _ => rfl) hpass.off
      refine h.settle ⟨fun _ => rfl, fun _ => Or.inr rfl, fun _ _ _ hs => ?_, fun _ _ _ hs => ?_⟩ hlive
        ⟨⟨hrest, hpass.off, _, hself, rfl, rfl, rfl, Or.inl rfl⟩, hrefused⟩
      · rcases hs with hs | hs | hs <;> cases hs
      · cases hs

def World.leave (w : World) (q : Request) (phase : Phase) : World :=
  { w with sent := w.sent ++ [q], flight := w.flight ++ [q], phase := phase }

variable {q : Request}

theorem Net.sent_lt (h : Net w) (hq : q ∈ w.sent) : q.id < w.sent.length := by
  obtain ⟨i, hi, hget⟩ := List.getElem_of_mem hq
  rw [h.ids i q (hget ▸ List.getElem?_eq_getElem hi)]
  exact hi

theorem Net.leave (h : Net w) (hid : q.id = w.sent.length) : Net (w.leave q phase) := by
  refine ⟨?_, ?_, ?_, h.failed, ?_⟩
  · intro i p hget
    rcases Nat.lt_or_ge i w.sent.length with hi | hi
    · exact h.ids i p ((List.getElem?_append_left hi).symm.trans hget)
    · have hget : [q][i - w.sent.length]? = some p := (List.getElem?_append_right hi).symm.trans hget
      obtain ⟨hzero, heq⟩ := List.getElem?_eq_some_iff.mp hget
      rw [List.length_singleton] at hzero
      rw [← heq, List.getElem_singleton, hid]
      omega
  · intro p hp
    rcases List.mem_append.mp hp with hp | hp
    · exact ⟨List.mem_append_left _ (h.flight p hp).1, (h.flight p hp).2⟩
    · obtain rfl := List.mem_singleton.mp hp
      exact ⟨List.mem_append_right _ hp, h.unsent _ (Nat.le_of_eq hid.symm)⟩
  · intro i hi
    refine h.unsent i (Nat.le_trans ?_ hi)
    exact (List.prefix_append _ _).length_le
  · intro l hl
    obtain ⟨p, hp, ht⟩ := h.ledger l hl
    exact ⟨p, List.mem_append_left _ hp, ht⟩

theorem Refused.leave (h : Refused w decisionId) (hne : decisionId ≠ q.decisionId) : Refused (w.leave q phase) decisionId := by
  intro p hp hid
  rcases List.mem_append.mp hp with hp | hp
  · exact h p hp hid
  · obtain rfl := List.mem_singleton.mp hp
    exact absurd hid.symm hne

theorem Dead.leave (h : Dead w decisionId) (hne : decisionId ≠ q.decisionId) : Dead (w.leave q phase) decisionId := by
  refine ⟨h.ledger, fun p hp hid => ?_⟩
  rcases List.mem_append.mp hp with hp | hp
  · exact h.late p hp hid
  · obtain rfl := List.mem_singleton.mp hp
    exact absurd hid.symm hne

variable {sentAt : Int}

theorem Inv.sign {epoch : Int} (h : Inv w) (hp : w.phase = .calling row sentAt epoch job rest)
    (hsigned : w.now ≤ sentAt + SIGN_WITHIN) (q : Request)
    (hq : q = ⟨w.sent.length, row.decisionId, row.bodyJson, epoch, w.now, row.expiresAt⟩) :
    Moves w (w.leave q (.waiting row sentAt q.id job rest)) := by
  obtain ⟨hn, hr, hph⟩ := h
  rw [PhaseOk, hp] at hph
  obtain ⟨hunder, hrefused⟩ := hph
  obtain ⟨stored, hmem, hid, hbody, hlast, hstate⟩ := hunder.stored
  have hqid : q.id = w.sent.length := by rw [hq]
  have hqdec : q.decisionId = row.decisionId := by rw [hq]
  -- only the row being sent gets the request
  have hother : ∀ r ∈ w.rows.rows, r.decisionId = q.decisionId → r.state = .SENDING ∨ r.state = .UNKNOWN := by
    intro r hrm heq
    rw [w.rows.eq_of_key hrm hmem (heq.trans (hqdec.trans hid.symm))]
    exact hstate
  refine ⟨⟨hn.leave hqid, ⟨?_, hr.clock, ?_, ?_⟩, ⟨hunder.pass, hunder.off, stored, hmem, hid, hbody,
    hlast, hstate⟩, ?_⟩, fun _ hr _ => hr⟩
  · intro p hpm
    rcases List.mem_append.mp hpm with hpm | hpm
    · exact hr.carried p hpm
    · obtain rfl := List.mem_singleton.mp hpm
      refine ⟨stored, hmem, hid.trans hqdec.symm, ?_, sentAt, hlast, ?_⟩
      · rw [hq, hbody]
      · rw [hq]
        exact hsigned
  · intro r hrm hs
    refine (hr.refused r hrm hs).leave fun heq => ?_
    rcases hother r hrm heq with hst | hst <;> rw [hst] at hs <;> rcases hs with hs | hs | hs <;> cases hs
  · intro r hrm hs
    refine (hr.dead r hrm hs).leave fun heq => ?_
    rcases hother r hrm heq with hst | hst <;> rw [hst] at hs <;> cases hs
  · intro hjob p hpm hdec hne
    rcases List.mem_append.mp hpm with hpm | hpm
    · exact hrefused hjob p hpm hdec
    · obtain rfl := List.mem_singleton.mp hpm
      exact absurd rfl hne

/-! ## The end of a call -/

theorem not_unhandled : ¬ Unhandled .UNKNOWN ∧ ¬ Unhandled .ACCEPTED ∧ ¬ Unhandled .FINAL := by
  unfold Unhandled
  decide

variable {resend : Bool}

theorem unhandled_notSent (h : Unhandled (if resend then .UNKNOWN else .PENDING)) : resend = false := by
  cases resend with
  | false => rfl
  | true => exact absurd h not_unhandled.1

variable {now : Int}

theorem refused_unhandled {code : String} (h : Unhandled (refused row code (if resend then .UNKNOWN else .PENDING) now r).state) :
    resend = false ∧ code ∈ BEFORE_ANY_HANDLER := by
  unfold refused at h
  unfold BEFORE_ANY_HANDLER
  rw [List.mem_append, List.mem_append]
  by_cases hepoch : code ∈ EPOCH_REFUSALS
  · rw [if_pos hepoch] at h
    exact ⟨unhandled_notSent h, Or.inl (Or.inl hepoch)⟩
  by_cases hbefore : code ∈ REFUSED_BEFORE_ANY_HANDLER
  · rw [if_neg hepoch, if_pos hbefore] at h
    exact ⟨unhandled_notSent h, Or.inl (Or.inr hbefore)⟩
  by_cases hbroken : code ∈ BROKEN_REQUEST
  · rw [if_neg hepoch, if_neg hbefore, if_pos hbroken] at h
    cases resend with
    | false => exact ⟨rfl, Or.inr hbroken⟩
    | true => exact absurd h not_unhandled.1
  · rw [if_neg hepoch, if_neg hbefore, if_neg hbroken] at h
    exact absurd h not_unhandled.1

theorem applyReceipt_state (receipt : Receipt) (closeRootId : Option String) (r : Submission) :
    (applyReceipt receipt closeRootId r).state = .UNKNOWN ∨ (applyReceipt receipt closeRootId r).state = .ACCEPTED ∨
      (applyReceipt receipt closeRootId r).state = .FINAL := by
  unfold applyReceipt
  split
  · exact Or.inl rfl
  · dsimp only
    split
    · exact Or.inr (Or.inr rfl)
    · exact Or.inr (Or.inl rfl)

theorem applyReceipt_handled (receipt : Receipt) (closeRootId : Option String) (r : Submission) :
    ¬ Unhandled (applyReceipt receipt closeRootId r).state := by
  rcases applyReceipt_state receipt closeRootId r with hs | hs | hs <;> rw [hs]
  · exact not_unhandled.1
  · exact not_unhandled.2.1
  · exact not_unhandled.2.2

variable {result : CallResult}

theorem settleSend_unhandled (h : Unhandled (settleSend row resend now result r).state) :
    resend = false ∧ ((∃ code, result = .notSent code) ∨ ∃ code ∈ BEFORE_ANY_HANDLER, result = .refused code) := by
  cases result with
  | notSent code => exact ⟨unhandled_notSent h, Or.inl ⟨code, rfl⟩⟩
  | outcomeUnknown code => exact absurd h not_unhandled.1
  | refused code =>
    obtain ⟨hresend, hcode⟩ := refused_unhandled h
    exact ⟨hresend, Or.inr ⟨code, hcode, rfl⟩⟩
  | reply receipt => exact absurd h (applyReceipt_handled receipt none r)

theorem settleSend_admitted (row : Submission) (resend : Bool) (now : Int) (result : CallResult) (r : Submission) :
    (settleSend row resend now result r).state ≠ .NOT_ADMITTED := by
  have hnot : ∀ b : Bool, (if b then SubmissionState.UNKNOWN else .PENDING) ≠ .NOT_ADMITTED := by decide
  cases result with
  | notSent code => exact hnot resend
  | outcomeUnknown code => exact SubmissionState.noConfusion
  | refused code =>
    change (refused row code _ now r).state ≠ _
    unfold refused
    split_ifs
    all_goals exact SubmissionState.noConfusion
  | reply receipt =>
    intro hs
    have hreply := applyReceipt_state receipt none r
    rw [show (applyReceipt receipt none r).state = .NOT_ADMITTED from hs] at hreply
    rcases hreply with h | h | h <;> cases h

theorem refused_same (row : Submission) (code : String) (notSentState : SubmissionState) (now : Int) (r : Submission) :
    (refused row code notSentState now r).bodyJson = r.bodyJson ∧
      (refused row code notSentState now r).lastSentAt = r.lastSentAt := by
  unfold refused
  split_ifs <;> exact ⟨rfl, rfl⟩

theorem applyReceipt_same (receipt : Receipt) (closeRootId : Option String) (r : Submission) :
    (applyReceipt receipt closeRootId r).bodyJson = r.bodyJson ∧
      (applyReceipt receipt closeRootId r).lastSentAt = r.lastSentAt := by
  unfold applyReceipt
  split <;> exact ⟨rfl, rfl⟩

theorem settleSend_same (row : Submission) (resend : Bool) (now : Int) (result : CallResult) (r : Submission) :
    (settleSend row resend now result r).bodyJson = r.bodyJson ∧
      (settleSend row resend now result r).lastSentAt = r.lastSentAt := by
  cases result with
  | notSent code => exact ⟨rfl, rfl⟩
  | outcomeUnknown code => exact ⟨rfl, rfl⟩
  | refused code => exact refused_same row code _ now r
  | reply receipt => exact applyReceipt_same receipt none r

theorem Inv.settleLoop (h : Inv w) (hu : Rewrites w decisionId f)
    (hlive : ∀ r ∈ w.rows.rows, r.decisionId = decisionId → ¬ GivenUp r.state) (hpass : Pass w.rows job rest)
    (hoff : decisionId ∉ rest.map (·.decisionId)) (code : Option String) :
    Moves w ((w.settle decisionId f hf (.loop job rest)).onStale code) := by
  have hmoves : Moves w (w.settle decisionId f hf (.loop job rest)) := h.settleOn hu hlive hpass hoff
  unfold World.onStale
  split
  · exact ⟨(hmoves.inv.phase_only (.loop job rest) none (hpass.set hf hoff)).inv, hmoves.kept⟩
  · exact hmoves

theorem Inv.endSend (h : Inv w) (hunder : Under w.rows row sentAt job rest)
    (hrefused : job = .send → ((∃ code, result = .notSent code) ∨ ∃ code ∈ BEFORE_ANY_HANDLER, result = .refused code) →
      Refused w row.decisionId) : Moves w (w.endSend row sentAt job rest result) := by
  obtain ⟨stored, hmem, hid, -, -, hstate⟩ := hunder.stored
  let f := settleSend row (decide (job = .reconcile)) sentAt result
  have hlive : ∀ r ∈ w.rows.rows, r.decisionId = row.decisionId → ¬ GivenUp r.state := by
    intro r hr heq
    rw [w.rows.eq_of_key hr hmem (heq.trans hid.symm)]
    rintro (hup | hup | hup) <;> rcases hstate with hst | hst <;> rw [hst] at hup <;> cases hup
  have hwrites : Rewrites w row.decisionId f := by
    refine ⟨fun r => (settleSend_same row _ sentAt result r).1,
      fun r => Or.inl (settleSend_same row _ sentAt result r).2, fun r _ _ hs => ?_,
      fun r _ _ hs => absurd hs (settleSend_admitted row _ sentAt result r)⟩
    obtain ⟨hjob, hproof⟩ := settleSend_unhandled hs
    refine hrefused ?_ hproof
    cases job with
    | send => rfl
    | reconcile => cases hjob
  exact h.settleLoop hwrites hlive hunder.pass hunder.off _

theorem Net.result_refused (h : Net w) {i : Nat} {a : Answer} (ha : w.answers i = some a)
    (hproof : (∃ code, a.result = .notSent code) ∨ ∃ code ∈ BEFORE_ANY_HANDLER, a.result = .refused code) :
    ∃ code, a = .refusedBefore code := by
  cases a with
  | admitted receipt => rcases hproof with ⟨c, hc⟩ | ⟨c, -, hc⟩ <;> cases hc
  | refusedBefore code => exact ⟨code, rfl⟩
  | failed code =>
    rcases hproof with ⟨c, hc⟩ | ⟨c, hmem, hc⟩
    · cases hc
    · obtain rfl : code = c := CallResult.refused.inj hc
      exact absurd hmem (h.failed i code ha)

/-! ## A reading -/

theorem Inv.takeView {found : Option (Receipt × Option String)} {readAt : Int} (h : Inv w)
    (hp : w.phase = .viewed row found readAt rest)
    (hfresh : found = none → w.GivesUp C row → ∀ sentAt ∈ row.lastSentAt, sentAt + SIGN_WITHIN + SKEW < readAt)
    (experiment : Option ExperimentState) (entryWindowOpen : Bool) :
    Moves w (w.takeView C row found experiment entryWindowOpen rest) := by
  have hph := h.phase
  rw [PhaseOk, hp] at hph
  obtain ⟨hpass, hread, hnone⟩ := hph
  have hlive : ∀ r ∈ w.rows.rows, r.decisionId = row.decisionId → ¬ GivenUp r.state := fun r hr hid =>
    hpass.head.unique hr hid ▸ hpass.head.live
  unfold World.takeView
  cases found with
  | some view =>
    obtain ⟨receipt, closeRootId⟩ := view
    let f := applyReceipt receipt closeRootId
    have hwrites : Rewrites w row.decisionId f := by
      refine ⟨fun r => (applyReceipt_same receipt closeRootId r).1,
        fun r => Or.inl (applyReceipt_same receipt closeRootId r).2,
        fun r _ _ hs => absurd hs (applyReceipt_handled receipt closeRootId r), fun r _ _ hs => ?_⟩
      rcases applyReceipt_state receipt closeRootId r with hst | hst | hst <;> rw [hst] at hs <;> cases hs
    exact h.settleLoop hwrites hlive hpass.tail hpass.off _
  | none =>
    dsimp only
    split
    · rename_i hunknown
      unfold World.unknownNotFound
      split
      · exact h.phase_only _ w.held hpass.tail
      rename_i hsettled
      split
      · exact h.trySend hpass experiment entryWindowOpen
      rename_i hexpired
      refine h.settleOn ⟨fun _ => rfl, fun _ => Or.inl rfl, fun _ _ _ hs => ?_, fun _ _ _ _ => ?_⟩ hlive
        hpass.tail hpass.off
      · rcases hs with hs | hs | hs <;> cases hs
      -- every request was signed long before the reading, which found nothing
      have hgives : w.GivesUp C row := by
        refine ⟨hunknown, fun sentAt hsent => ?_, Int.not_lt.mp hexpired⟩
        rw [Option.mem_def] at hsent
        rw [hsent] at hsettled
        simpa using hsettled
      have hlate : ∀ q ∈ w.sent, q.decisionId = row.decisionId → q.signedAt + SKEW < readAt := by
        intro q hq hid
        obtain ⟨r, hr, hc⟩ := h.rows.carried q hq
        obtain ⟨sentAt, hsent, hsigned⟩ := hc.signed
        obtain rfl := hpass.head.unique hr (hc.decision.trans hid)
        have hlt := hfresh rfl hgives sentAt hsent
        omega
      refine ⟨fun l hl heq => ?_, fun q hq hid => ?_⟩
      · obtain ⟨q, hq, htook⟩ := h.net.ledger l hl
        have hlt := hlate q hq (htook.decision.trans heq)
        have hle := hnone rfl l hl heq
        have hacc := htook.accepted
        omega
      · have hlt := hlate q (h.net.flight q hq).1 hid
        omega
    · exact h.phase_only _ w.held hpass.tail

end MmrTrader.Submit
