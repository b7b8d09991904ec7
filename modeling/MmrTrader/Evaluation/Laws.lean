import Mathlib.Logic.Equiv.Basic
import MmrTrader.Evaluation.Calls

/-!
# One judgment for each case, within the budget of the day

* `Holds` — the budget of a day; a finished claim under every INITIAL judgment; one judgment for each case, request and
  renewed version.
* `Kept` — what a step keeps: claims move forward, rows are only added; `Repeats` — a repeated call writes nothing.
* `Inv.claimed`, `Inv.moved`, `Inv.judged` — one for each write.
* `evaluations_once` — over every run of calls.
-/

namespace MmrTrader.Evaluation

open Lib Lib.CanonicalJson Rpc

variable {F A : Type}

/-! ## The promises -/

structure Supports (E : Env F A) (claim : EvaluationClaim F) (case : EvaluationCase F) : Prop where
  subject : ∃ stage, case.subject = .initial claim.requestId (E.isoDay claim.nyDay) stage ∧
    claim.state = if stage = .FAILED then .FAILED else .DONE
  strategyKey : claim.strategyKey = case.strategyKey
  cohort : sortKeys (cohortJson claim.body.cohort) = sortKeys (cohortJson case.cohort)
  conids : claim.body.conids = case.conids
  barSize : claim.body.barSize = case.barSize

structure Holds [PyFloat F] (E : Env F A) (db : JudgeDb F A) : Prop where
  budget : ∀ day, db.claimedOn day ≤ E.config.evaluationsPerDay
  onePerBody : ∀ c ∈ db.claims.rows, ∀ c' ∈ db.claims.rows, c.body.Same c'.body → c = c'
  supported : ∀ r ∈ db.judgments.rows, r.judgment.kind = .INITIAL →
    ∃ case, caseDigest E.sha256 case = r.judgment.caseDigest ∧
      ∃ claim ∈ db.claims.rows, r.judgment.requestId = some claim.requestId ∧ Supports E claim case
  onePerCase : ∀ r ∈ db.judgments.rows, ∀ r' ∈ db.judgments.rows, r.judgment.caseDigest = r'.judgment.caseDigest → r = r'
  onePerRequest : ∀ r ∈ db.judgments.rows, ∀ r' ∈ db.judgments.rows, r.judgment.kind = .INITIAL →
    r'.judgment.kind = .INITIAL → r.judgment.requestId = r'.judgment.requestId → r = r'
  onePerRenewal : ∀ r ∈ db.judgments.rows, ∀ r' ∈ db.judgments.rows, r.judgment.kind = .RENEWAL →
    r'.judgment.kind = .RENEWAL →
    r.judgment.binding.priorDeploymentVersion = r'.judgment.binding.priorDeploymentVersion → r = r'
  renewed : ∀ r ∈ db.judgments.rows, r.judgment.kind = .RENEWAL → ∃ prior,
    r.judgment.binding.priorDeploymentVersion = some prior ∧
      ∃! i, i ∈ db.renewals.rows ∧ i.judgmentId = r.judgmentId ∧ i.priorVersion = prior
  indexed : ∀ i ∈ db.renewals.rows, ∃ r ∈ db.judgments.rows, r.judgmentId = i.judgmentId ∧
    r.judgment.kind = .RENEWAL ∧ r.judgment.binding.priorDeploymentVersion = some i.priorVersion

/-- All of a claim but its state stays, and the state moves forward. -/
structure EvaluationClaim.Continues (c c' : EvaluationClaim F) : Prop where
  requestId : c'.requestId = c.requestId
  body : c'.body = c.body
  strategyKey : c'.strategyKey = c.strategyKey
  nyDay : c'.nyDay = c.nyDay
  principal : c'.principal = c.principal
  claimedAt : c'.claimedAt = c.claimedAt
  forward : c'.state = c.state ∨ c.state.rank < c'.state.rank

structure Kept (db db' : JudgeDb F A) : Prop where
  claims : ∀ c ∈ db.claims.rows, ∃ c' ∈ db'.claims.rows, c.Continues c'
  judgments : db.judgments.rows <+: db'.judgments.rows
  renewals : db.renewals.rows <+: db'.renewals.rows

/-- The replies of calls that wrote. -/
def Wrote : Option (Reply F) → Prop
  | some (.claimed result) => result.status = .ACCEPTED ∨ result.status = .UPDATED
  | some (.recorded receipt) => receipt.status = .RECORDED
  | _ => False

structure StepPromise (w w' : World F A) : Prop where
  kept : Kept w.db w'.db
  quiet : ¬ Wrote w'.reply → w'.db = w.db
  claimed : ∀ result, w'.reply = some (.claimed result) → result.claim ∈ w'.db.claims.rows
  recorded : ∀ receipt, w'.reply = some (.recorded receipt) → ∃ r ∈ w'.db.judgments.rows,
    r.judgmentId = receipt.judgmentId ∧ r.judgment.verdict = receipt.verdict ∧
      r.judgment.cooldownUntilSession = receipt.cooldown

/-- What a call of `record` answers where its judgment already has a row. -/
def AnswersRow [PyFloat F] (E : Env F A) (r : JudgmentRow F) (request : JudgmentRequest) (w w' : World F A) : Prop :=
  w'.db = w.db ∧
    (sortKeys r.judgment.body = sortKeys (digestBody E request) →
      w'.reply = some (.recorded ⟨.EXISTING, r.judgmentId, r.judgment.verdict, r.judgment.cooldownUntilSession⟩)) ∧
    (sortKeys r.judgment.body ≠ sortKeys (digestBody E request) →
      w'.reply = some (.refused "JUDGMENT_CONFLICT" false))

structure Repeats [PyFloat F] (E : Env F A) (w : World F A) : Prop where
  claim : ∀ c ∈ w.db.claims.rows, ∀ body principal now,
    (step E w (.claim c.requestId body principal now none)).db = w.db ∧
      (c.body.Same body →
        (step E w (.claim c.requestId body principal now none)).reply = some (.claimed ⟨.EXISTING, c⟩)) ∧
      (¬ c.body.Same body → (step E w (.claim c.requestId body principal now none)).reply =
        some (.refused "EVALUATION_REQUEST_CONFLICT" false))
  update : ∀ c ∈ w.db.claims.rows, ∀ state now, state.rank ≤ c.state.rank → state ≠ .QUEUED →
    (step E w (.update c.requestId state now none)).db = w.db ∧
      (step E w (.update c.requestId state now none)).reply =
        some (if c.state = state then .claimed ⟨.UNCHANGED, c⟩ else .refused "CLAIM_STATE_BACKWARD" false)
  lookUp : ∀ r ∈ w.db.judgments.rows, ∀ call request, w.calls call = .idle → request.judgmentId = r.judgmentId →
    AnswersRow E r request w (step E w (.lookUp call request))
  insert : ∀ r ∈ w.db.judgments.rows, ∀ call request case now, w.calls call = .checked request case →
    request.judgmentId = r.judgmentId → AnswersRow E r request w (step E w (.insert call now none))

/-! ## Contents and digests -/

theorem sortKeys_conids (conids : List Int) :
    sortKeys (items (N := PyNumber F) (conids.map jsonInt)) = items (conids.map jsonInt) := by
  induction conids with
  | nil => rfl
  | cons n conids ih =>
    unfold List.map items sortKeys
    rw [ih]
    rfl

variable {conids conids' : List Int}

theorem items_ints (h : items (N := PyNumber F) (conids.map jsonInt) = items (conids'.map jsonInt)) : conids = conids' := by
  induction conids generalizing conids' with
  | nil =>
    cases conids' with
    | nil => rfl
    | cons n conids' => cases h
  | cons n conids ih =>
    cases conids' with
    | nil => cases h
    | cons n' conids' =>
      obtain ⟨hhead, htail⟩ := Node.cons.inj h
      rw [ih htail, PyNumber.int.inj (Node.num.inj hhead)]

theorem evaluatedText_eq [PyFloat F] {cohort cohort' : List (Dict F)}
    {barSize barSize' : String} (h : evaluatedText cohort conids barSize = evaluatedText cohort' conids' barSize') :
    sortKeys (cohortJson cohort) = sortKeys (cohortJson cohort') ∧ conids = conids' ∧ barSize = barSize' := by
  have hsorted := canonical_injective h
  obtain ⟨hcohort, hrest⟩ := Node.cons.inj (Node.array.inj hsorted)
  obtain ⟨hconids, hrest⟩ := Node.cons.inj hrest
  obtain ⟨hbar, -⟩ := Node.cons.inj hrest
  have hitems : sortKeys (items (N := PyNumber F) (conids.map jsonInt)) = sortKeys (items (conids'.map jsonInt)) :=
    Node.array.inj hconids
  rw [sortKeys_conids, sortKeys_conids] at hitems
  exact ⟨hcohort, items_ints hitems, Node.str.inj hbar⟩

theorem sha256Digest_eq [PyFloat F] {sha256 : String → String} (hsha : Function.Injective sha256) {domain : String}
    {v v' : JsonValue F} : sha256Digest sha256 domain v = sha256Digest sha256 domain v' ↔ sortKeys v = sortKeys v' := by
  unfold sha256Digest
  constructor
  · intro h
    refine canonical_injective ?_
    have htext := congrArg String.toList (hsha h)
    simp only [String.toList_append, List.append_assoc] at htext
    exact String.toList_injective (List.append_cancel_left (List.append_cancel_left htext))
  · intro h
    unfold canonical
    rw [h]

/-! ## What stays -/

section
variable {db db' : JudgeDb F A} {w w' : World F A}

theorem EvaluationClaim.Continues.refl (c : EvaluationClaim F) : c.Continues c :=
  ⟨rfl, rfl, rfl, rfl, rfl, rfl, Or.inl rfl⟩

theorem EvaluationClaim.Continues.trans {c c' c'' : EvaluationClaim F} (h : c.Continues c') (h' : c'.Continues c'') :
    c.Continues c'' := by
  refine ⟨h'.requestId.trans h.requestId, h'.body.trans h.body, h'.strategyKey.trans h.strategyKey,
    h'.nyDay.trans h.nyDay, h'.principal.trans h.principal, h'.claimedAt.trans h.claimedAt, ?_⟩
  rcases h.forward with hsame | hlt
  · exact hsame ▸ h'.forward
  · rcases h'.forward with hsame' | hlt'
    · exact Or.inr (hsame' ▸ hlt)
    · exact Or.inr (hlt.trans hlt')

theorem Kept.refl (db : JudgeDb F A) : Kept db db :=
  ⟨fun c hc => ⟨c, hc, .refl c⟩, List.prefix_refl _, List.prefix_refl _⟩

theorem Kept.trans {db'' : JudgeDb F A} (h : Kept db db') (h' : Kept db' db'') : Kept db db'' := by
  refine ⟨fun c hc => ?_, h.judgments.trans h'.judgments, h.renewals.trans h'.renewals⟩
  obtain ⟨c', hc', hcontinues⟩ := h.claims c hc
  obtain ⟨c'', hc'', hcontinues'⟩ := h'.claims c' hc'
  exact ⟨c'', hc'', hcontinues.trans hcontinues'⟩

theorem Kept.moveClaim (db : JudgeDb F A) {claim : EvaluationClaim F} {state : ClaimState} (now : Int)
    (hclaim : claim ∈ db.claims.rows) (hrank : claim.state.rank < state.rank) :
    Kept db (db.moveClaim claim.requestId state now) := by
  refine ⟨fun c hc => ⟨_, mem_moveClaim.mpr ⟨c, hc, rfl⟩, ?_⟩, List.prefix_refl _, List.prefix_refl _⟩
  split
  · rename_i hsame
    obtain rfl := db.claims.eq_of_key hc hclaim hsame
    exact ⟨rfl, rfl, rfl, rfl, rfl, rfl, Or.inr hrank⟩
  · exact .refl c

def Silent : Option (Reply F) → Prop
  | some (.claimed _) => False
  | some (.recorded _) => False
  | _ => True

theorem StepPromise.of_silent (hdb : w'.db = w.db) (hsilent : Silent w'.reply) : StepPromise w w' where
  kept := hdb ▸ Kept.refl w.db
  quiet _ := hdb
  claimed result hreply := by
    rw [hreply] at hsilent
    exact hsilent.elim
  recorded receipt hreply := by
    rw [hreply] at hsilent
    exact hsilent.elim

theorem claimFault_silent (e : Fault) : Silent (some (claimFault e : Reply F)) := by
  cases e <;> trivial

theorem recordFault_silent (e : Fault) : Silent (some (recordFault e : Reply F)) := by
  cases e with
  | refused code retryable =>
    unfold recordFault
    dsimp only
    split
    · trivial
    · trivial
  | raised what => trivial

end

/-! ## The invariant -/

section
variable [PyFloat F] {E : Env F A} {db db' : JudgeDb F A}

structure Inv (E : Env F A) (db : JudgeDb F A) : Prop where
  named : ∀ c ∈ db.claims.rows, c.requestId = evaluationRequestId E.sha256 c.body
  budget : ∀ day, db.claimedOn day ≤ E.config.evaluationsPerDay
  supported : ∀ r ∈ db.judgments.rows, r.judgment.kind = .INITIAL →
    ∃ case, caseDigest E.sha256 case = r.judgment.caseDigest ∧
      ∃ claim ∈ db.claims.rows, r.judgment.requestId = some claim.requestId ∧ Supports E claim case
  cases : ∀ r ∈ db.judgments.rows, ∀ r' ∈ db.judgments.rows, r.judgment.caseDigest = r'.judgment.caseDigest → r = r'
  requests : ∀ r ∈ db.judgments.rows, ∀ r' ∈ db.judgments.rows, ∀ id, r.judgment.requestId = some id →
    r'.judgment.requestId = some id → r = r'
  renewed : ∀ r ∈ db.judgments.rows, r.judgment.kind = .RENEWAL → ∃ i ∈ db.renewals.rows,
    i.judgmentId = r.judgmentId ∧ r.judgment.binding.priorDeploymentVersion = some i.priorVersion
  indexed : ∀ i ∈ db.renewals.rows, ∃ r ∈ db.judgments.rows, r.judgmentId = i.judgmentId ∧
    r.judgment.kind = .RENEWAL ∧ r.judgment.binding.priorDeploymentVersion = some i.priorVersion
  sealed : ∀ r ∈ db.judgments.rows, r.recordDigest = recordDigest E r.judgment r.bodyDigest ∧
    r.bodyDigest = sha256Digest E.sha256 JUDGMENT_BODY_DOMAIN r.judgment.body

theorem Inv.empty (E : Env F A) (authored : A) : Inv E (.empty authored) where
  named _ h := absurd h List.not_mem_nil
  budget _ := Nat.zero_le _
  supported _ h := absurd h List.not_mem_nil
  cases _ h := absurd h List.not_mem_nil
  requests _ h := absurd h List.not_mem_nil
  renewed _ h := absurd h List.not_mem_nil
  indexed _ h := absurd h List.not_mem_nil
  sealed _ h := absurd h List.not_mem_nil

theorem Inv.holds (h : Inv E db) : Holds E db where
  budget := h.budget
  onePerBody c hc c' hc' hsame := by
    refine db.claims.eq_of_key hc hc' ?_
    rw [h.named c hc, h.named c' hc']
    unfold evaluationRequestId sha256Digest canonical
    rw [show sortKeys c.body.modelDump = sortKeys c'.body.modelDump from hsame]
  supported := h.supported
  onePerCase := h.cases
  onePerRequest r hr r' hr' hkind _ hsame := by
    obtain ⟨-, -, claim, -, hid, -⟩ := h.supported r hr hkind
    exact h.requests r hr r' hr' claim.requestId hid (hsame ▸ hid)
  onePerRenewal r hr r' hr' hkind hkind' hsame := by
    obtain ⟨i, hi, hid, hprior⟩ := h.renewed r hr hkind
    obtain ⟨i', hi', hid', hprior'⟩ := h.renewed r' hr' hkind'
    have hversion : i.priorVersion = i'.priorVersion := Option.some.inj (hprior ▸ hsame.trans hprior')
    have hsameIndex : i = i' := db.renewals.eq_of_key hi hi' hversion
    refine db.judgments.eq_of_key hr hr' ?_
    rw [← hid, ← hid', hsameIndex]
  renewed r hr hkind := by
    obtain ⟨i, hi, hid, hprior⟩ := h.renewed r hr hkind
    refine ⟨i.priorVersion, hprior, i, ⟨hi, hid, rfl⟩, ?_⟩
    rintro j ⟨hj, -, hversion⟩
    exact db.renewals.eq_of_key hj hi hversion
  indexed := h.indexed

/-! ## The writes -/

variable {claims : Table (EvaluationClaim.requestId (F := F))}

omit [PyFloat F] in
theorem claimedOn_insert {claim : EvaluationClaim F} (hins : db.claims.insert? claim = some claims) (authored : A) (day : Int) :
    JudgeDb.claimedOn { db with claims := claims, authored := authored } day =
      db.claimedOn day + if claim.nyDay = day then 1 else 0 := by
  unfold JudgeDb.claimedOn
  dsimp only
  rw [(Table.insert?_eq_some hins).2, List.filter_append, List.length_append]
  by_cases hday : claim.nyDay = day
  · rw [if_pos hday, List.filter_cons_of_pos (by simpa using hday)]
    rfl
  · rw [if_neg hday, List.filter_cons_of_neg (by simpa using hday)]
    rfl

variable {now : Int}
variable {requestId : String}

theorem Inv.claimed (h : Inv E db) {principal : String} {body : EvaluationRequestBody F}
    (authored : A) (hid : requestId = evaluationRequestId E.sha256 body)
    (hused : db.claimedOn (E.newYork.date now) < E.config.evaluationsPerDay)
    (hins : db.claims.insert? (newClaim E requestId body principal now) = some claims) :
    Inv E { db with claims := claims, authored := authored } := by
  refine
    { named := ?_
      budget := ?_
      supported := ?_
      cases := h.cases
      requests := h.requests
      renewed := h.renewed
      indexed := h.indexed
      sealed := h.sealed }
  · intro c hc
    rcases (Table.mem_insert? hins).mp hc with hc | rfl
    · exact h.named c hc
    · exact hid
  · intro day
    rw [claimedOn_insert hins]
    by_cases hday : (newClaim E requestId body principal now).nyDay = day
    · rw [if_pos hday, ← hday]
      exact hused
    · rw [if_neg hday]
      exact h.budget day
  · intro r hr hkind
    obtain ⟨case, hcase, claim, hclaim, hrequest, hsupports⟩ := h.supported r hr hkind
    exact ⟨case, hcase, claim, (Table.mem_insert? hins).mpr (Or.inl hclaim), hrequest, hsupports⟩

theorem ClaimState.rank_le (s : ClaimState) : s.rank ≤ 2 := by
  cases s <;> decide

variable {case : EvaluationCase F}

omit [PyFloat F] in
theorem Supports.finished {claim : EvaluationClaim F} (h : Supports E claim case) : claim.state.rank = 2 := by
  obtain ⟨stage, -, hstate⟩ := h.subject
  rw [hstate]
  split
  · rfl
  · rfl

omit [PyFloat F] in
theorem claimedOn_moveClaim (db : JudgeDb F A) (requestId : String) (state : ClaimState) (now day : Int) :
    (db.moveClaim requestId state now).claimedOn day = db.claimedOn day := by
  unfold JudgeDb.claimedOn JudgeDb.moveClaim Table.updateWhere
  dsimp only
  rw [List.filter_map, List.length_map]
  refine congrArg List.length (List.filter_congr fun c _ => ?_)
  simp only [Function.comp_apply]
  split
  · rfl
  · rfl

variable {state : ClaimState}

theorem Inv.moved (h : Inv E db) {claim : EvaluationClaim F}
    (hclaim : claim ∈ db.claims.rows) (hrank : claim.state.rank < state.rank) :
    Inv E (db.moveClaim claim.requestId state now) := by
  refine
    { named := ?_
      budget := ?_
      supported := ?_
      cases := h.cases
      requests := h.requests
      renewed := h.renewed
      indexed := h.indexed
      sealed := h.sealed }
  · intro c hc
    obtain ⟨c₀, hc₀, rfl⟩ := mem_moveClaim.mp hc
    split
    · exact h.named c₀ hc₀
    · exact h.named c₀ hc₀
  · intro day
    rw [claimedOn_moveClaim]
    exact h.budget day
  · -- a claim under a judgment is finished, so it is not the one that moves
    intro r hr hkind
    obtain ⟨case, hcase, c, hc, hrequest, hsupports⟩ := h.supported r hr hkind
    refine ⟨case, hcase, c, mem_moveClaim.mpr ⟨c, hc, ?_⟩, hrequest, hsupports⟩
    rw [if_neg]
    intro hsame
    have heq : c = claim := db.claims.eq_of_key hc hclaim hsame
    have hfinished := hsupports.finished
    have hle := state.rank_le
    rw [heq] at hfinished
    omega

theorem checkClaim_ok {claimDay : String} {stage : InitialStage} {decidedAt : Int}
    (hsubject : case.subject = .initial requestId claimDay stage)
    (h : checkClaim E db case requestId claimDay stage decidedAt = .ok ()) :
    ∃ claim ∈ db.claims.rows, claim.requestId = requestId ∧ Supports E claim case := by
  unfold checkClaim at h
  cases hget : db.claims.get? requestId with
  | none =>
    rw [hget] at h
    cases h
  | some claim =>
    rw [hget] at h
    dsimp only at h
    obtain ⟨hmem, hid⟩ := Table.get?_eq_some.mp hget
    obtain ⟨-, h⟩ := ite_error_ok h
    obtain ⟨hstate, h⟩ := ite_error_ok h
    obtain ⟨hsame, -⟩ := ite_error_ok h
    obtain ⟨hkey, hsame⟩ := not_or.mp hsame
    obtain ⟨hday, htext⟩ := not_or.mp hsame
    obtain ⟨hcohort, hconids, hbar⟩ := evaluatedText_eq (not_not.mp htext)
    refine ⟨claim, hmem, hid, ⟨stage, ?_, not_not.mp hstate⟩, not_not.mp hkey, hcohort, hconids, hbar⟩
    rw [hsubject, hid, not_not.mp hday]

variable {request : JudgmentRequest}

theorem Inv.judged (h : Inv E db) {cooldown : Option Int} {renewals : Table RenewalRow.priorVersion}
    {judgments : Table (JudgmentRow.judgmentId (F := F))} (authored : A) (hdigest : caseDigest E.sha256 case = request.caseDigest)
    (hcase : ∀ r ∈ db.judgments.rows, r.judgment.caseDigest ≠ request.caseDigest)
    (hclaimed : SubjectClaimed E db request case now renewals)
    (hins : db.judgments.insert? (judgmentRow E request case cooldown now) = some judgments) :
    Inv E ⟨db.claims, judgments, renewals, authored⟩ := by
  have hmem := fun r => Table.mem_insert? (s := r) hins
  refine
    { named := h.named
      budget := h.budget
      supported := ?_
      cases := ?_
      requests := ?_
      renewed := ?_
      indexed := ?_
      sealed := ?_ }
  · intro r hr hkind
    rcases (hmem r).mp hr with hr | rfl
    · exact h.supported r hr hkind
    · cases hclaimed with
      | initial requestId claimDay stage hsubject hfresh hclaim =>
        obtain ⟨claim, hclaimMem, hid, hsupports⟩ := checkClaim_ok hsubject hclaim
        refine ⟨case, hdigest, claim, hclaimMem, ?_, hsupports⟩
        show case.subject.requestId = some claim.requestId
        rw [hsubject, hid]
        rfl
      | renewal stage facts _ hsubject hfresh hinsert =>
        have hkind : case.subject.kind = .INITIAL := hkind
        rw [hsubject] at hkind
        cases hkind
  · intro r hr r' hr' hsame
    rcases (hmem r).mp hr with hr | rfl
    · rcases (hmem r').mp hr' with hr' | rfl
      · exact h.cases r hr r' hr' hsame
      · exact absurd hsame (hcase r hr)
    · rcases (hmem r').mp hr' with hr' | rfl
      · exact absurd hsame.symm (hcase r' hr')
      · rfl
  · have hnew : ∀ r ∈ db.judgments.rows, ∀ id, r.judgment.requestId = some id → case.subject.requestId ≠ some id := by
      intro r hr id hrid hid
      cases hclaimed with
      | initial requestId claimDay stage hsubject hfresh hclaim =>
        rw [hsubject] at hid
        exact hfresh r hr (hrid.trans hid.symm)
      | renewal stage facts _ hsubject hfresh hinsert =>
        rw [hsubject] at hid
        cases hid
    intro r hr r' hr' id hid hid'
    rcases (hmem r).mp hr with hr | rfl
    · rcases (hmem r').mp hr' with hr' | rfl
      · exact h.requests r hr r' hr' id hid hid'
      · exact absurd hid' (hnew r hr id hid)
    · rcases (hmem r').mp hr' with hr' | rfl
      · exact absurd hid (hnew r' hr' id hid')
      · rfl
  · intro r hr hkind
    cases hclaimed with
    | initial requestId claimDay stage hsubject hfresh hclaim =>
      rcases (hmem r).mp hr with hr | rfl
      · exact h.renewed r hr hkind
      · have hkind : case.subject.kind = .RENEWAL := hkind
        rw [hsubject] at hkind
        cases hkind
    | renewal stage facts _ hsubject hfresh hinsert =>
      rcases (hmem r).mp hr with hr | rfl
      · obtain ⟨i, hi, hid, hprior⟩ := h.renewed r hr hkind
        exact ⟨i, (Table.mem_insert? hinsert).mpr (Or.inl hi), hid, hprior⟩
      · refine ⟨_, (Table.mem_insert? hinsert).mpr (Or.inr rfl), rfl, ?_⟩
        show case.subject.facts.map (·.priorDeploymentVersion) = some facts.priorDeploymentVersion
        rw [hsubject]
        rfl
  · have hold : ∀ i ∈ db.renewals.rows, ∃ r ∈ judgments.rows, r.judgmentId = i.judgmentId ∧
        r.judgment.kind = .RENEWAL ∧ r.judgment.binding.priorDeploymentVersion = some i.priorVersion := by
      intro i hi
      obtain ⟨r, hr, hid, hkind, hprior⟩ := h.indexed i hi
      exact ⟨r, (hmem r).mpr (Or.inl hr), hid, hkind, hprior⟩
    intro i hi
    cases hclaimed with
    | initial requestId claimDay stage hsubject hfresh hclaim => exact hold i hi
    | renewal stage facts _ hsubject hfresh hinsert =>
      rcases (Table.mem_insert? hinsert).mp hi with hi | rfl
      · exact hold i hi
      · refine ⟨_, (hmem _).mpr (Or.inr rfl), rfl, ?_, ?_⟩
        · show case.subject.kind = .RENEWAL
          rw [hsubject]
          rfl
        · show case.subject.facts.map (·.priorDeploymentVersion) = some facts.priorDeploymentVersion
          rw [hsubject]
          rfl
  · intro r hr
    rcases (hmem r).mp hr with hr | rfl
    · exact h.sealed r hr
    · exact ⟨rfl, rfl⟩

/-! ## Steps -/

/-- The world: every case that was checked has the digest of its request. -/
structure WorldInv (E : Env F A) (w : World F A) : Prop where
  db : Inv E w.db
  checked : ∀ call request case, w.calls call = .checked request case → caseDigest E.sha256 case = request.caseDigest

variable {w : World F A}

theorem WorldInv.goOn (h : WorldInv E w) (call : Nat) {phase : Phase F}
    (hphase : ∀ request case, phase = .checked request case → caseDigest E.sha256 case = request.caseDigest) :
    WorldInv E (w.goOn call phase) ∧ StepPromise w (w.goOn call phase) := by
  refine ⟨⟨h.db, fun c request case hc => ?_⟩, .of_silent rfl trivial⟩
  have hc : Function.update w.calls call phase c = .checked request case := hc
  by_cases hcall : c = call
  · rw [hcall, Function.update_self] at hc
    exact hphase request case hc
  · rw [Function.update_of_ne hcall] at hc
    exact h.checked c request case hc

theorem WorldInv.answer (h : WorldInv E w) (call : Nat) {db : JudgeDb F A} (hdb : Inv E db) (reply : Reply F) :
    WorldInv E (w.answer call db reply) := by
  refine ⟨hdb, fun c request case hc => ?_⟩
  have hc : Function.update w.calls call .idle c = .checked request case := hc
  by_cases hcall : c = call
  · rw [hcall, Function.update_self] at hc
    cases hc
  · rw [Function.update_of_ne hcall] at hc
    exact h.checked c request case hc

/-- A call that ends without a write. -/
theorem WorldInv.fault (h : WorldInv E w) (call : Nat) (e : Fault) :
    WorldInv E (w.answer call w.db (recordFault e)) ∧ StepPromise w (w.answer call w.db (recordFault e)) :=
  ⟨h.answer call h.db _, .of_silent rfl (recordFault_silent e)⟩

variable {r : JudgmentRow F} {receipt : Receipt}
variable {digest : String}

theorem existingReceipt_ok (h : existingReceipt E r digest = .ok receipt) :
    receipt = ⟨.EXISTING, r.judgmentId, r.judgment.verdict, r.judgment.cooldownUntilSession⟩ := by
  unfold existingReceipt at h
  obtain ⟨-, h⟩ := ite_error_ok h
  obtain ⟨-, h⟩ := ite_error_ok h
  exact (Except.ok.inj h).symm

theorem WorldInv.existing (h : WorldInv E w) (call : Nat) (hr : r ∈ w.db.judgments.rows)
    (hreceipt : existingReceipt E r digest = .ok receipt) :
    WorldInv E (w.answer call w.db (.recorded receipt)) ∧ StepPromise w (w.answer call w.db (.recorded receipt)) := by
  refine ⟨h.answer call h.db _, ⟨.refl _, fun _ => rfl, fun result hresult => (by cases hresult), ?_⟩⟩
  intro receipt' hreply
  obtain rfl := existingReceipt_ok hreceipt
  cases hreply
  exact ⟨r, hr, rfl, rfl, rfl⟩

theorem WorldInv.claim (h : WorldInv E w) (requestId : String) (body : EvaluationRequestBody F) (principal : String)
    (now : Int) (commit : Option Fault) :
    WorldInv E (step E w (.claim requestId body principal now commit)) ∧
      StepPromise w (step E w (.claim requestId body principal now commit)) := by
  unfold step World.commit
  dsimp only
  cases htx : transaction commit (claimInTx E requestId body principal now) w.db with
  | error e db =>
    obtain rfl := transaction_error htx
    exact ⟨⟨h.db, h.checked⟩, .of_silent rfl (claimFault_silent e)⟩
  | ok result db =>
    rcases claimInTx_ok (transaction_ok htx) with ⟨existing, hget, -, rfl, rfl⟩ | ⟨-, hid, hused, rfl, claims, authored,
      hins, rfl⟩
    · refine ⟨⟨h.db, h.checked⟩, ⟨.refl _, fun _ => rfl, ?_, fun receipt hreceipt => (by cases hreceipt)⟩⟩
      rintro result ⟨⟩
      exact (Table.get?_eq_some.mp hget).1
    · refine ⟨⟨h.db.claimed authored hid hused hins, h.checked⟩, ⟨?_, ?_, ?_, fun receipt hreceipt => (by cases hreceipt)⟩⟩
      · exact ⟨fun c hc => ⟨c, (Table.mem_insert? hins).mpr (Or.inl hc), .refl c⟩, List.prefix_refl _,
          List.prefix_refl _⟩
      · exact fun hwrote => absurd (Or.inl rfl) hwrote
      · rintro result ⟨⟩
        exact (Table.mem_insert? hins).mpr (Or.inr rfl)

theorem WorldInv.update (h : WorldInv E w) (requestId : String) (state : ClaimState) (now : Int)
    (commit : Option Fault) :
    WorldInv E (step E w (.update requestId state now commit)) ∧
      StepPromise w (step E w (.update requestId state now commit)) := by
  unfold step World.commit
  dsimp only
  cases htx : transaction commit (Evaluation.update (F := F) (A := A) requestId state now) w.db with
  | error e db =>
    obtain rfl := transaction_error htx
    exact ⟨⟨h.db, h.checked⟩, .of_silent rfl (claimFault_silent e)⟩
  | ok result db =>
    obtain ⟨claim, hclaim, rfl, hwrite⟩ := update_ok (transaction_ok htx)
    rcases hwrite with ⟨-, rfl, rfl⟩ | ⟨hrank, rfl, rfl⟩
    · refine ⟨⟨h.db, h.checked⟩, ⟨.refl _, fun _ => rfl, ?_, fun receipt hreceipt => (by cases hreceipt)⟩⟩
      rintro result ⟨⟩
      exact hclaim
    · refine ⟨⟨h.db.moved hclaim hrank, h.checked⟩, ⟨.moveClaim w.db now hclaim hrank, ?_, ?_,
        fun receipt hreceipt => (by cases hreceipt)⟩⟩
      · exact fun hwrote => absurd (Or.inr rfl) hwrote
      · rintro result ⟨⟩
        refine mem_moveClaim.mpr ⟨claim, hclaim, ?_⟩
        rw [if_pos rfl]

theorem WorldInv.lookUp (h : WorldInv E w) (call : Nat) (request : JudgmentRequest) :
    WorldInv E (step E w (.lookUp call request)) ∧ StepPromise w (step E w (.lookUp call request)) := by
  unfold step
  dsimp only
  split
  · split
    · exact h.fault call _
    · rename_i receipt hreply
      unfold existingReply at hreply
      cases hget : w.db.judgments.get? request.judgmentId with
      | none =>
        rw [hget] at hreply
        cases hreply
      | some r =>
        rw [hget] at hreply
        obtain ⟨receipt', hreceipt, hsome⟩ := map_ok hreply
        cases hsome
        exact h.existing call (Table.get?_eq_some.mp hget).1 hreceipt
    · exact h.goOn call fun _ _ hphase => by cases hphase
  · exact ⟨⟨h.db, h.checked⟩, .of_silent rfl trivial⟩

theorem WorldInv.check (h : WorldInv E w) (call : Nat) (file : Except String (CaseFile F)) (now : Int)
    (status : RenewalStatus) :
    WorldInv E (step E w (.check call file now status)) ∧ StepPromise w (step E w (.check call file now status)) := by
  unfold step
  dsimp only
  split
  · rename_i request hcall
    split
    · exact h.fault call _
    · rename_i case hload
      split
      · exact h.fault call _
      · refine h.goOn call ?_
        rintro request' case' ⟨⟩
        exact loadVerifiedCase_digest hload
  · exact ⟨⟨h.db, h.checked⟩, .of_silent rfl trivial⟩

theorem WorldInv.insert (h : WorldInv E w) (call : Nat) (now : Int) (commit : Option Fault) :
    WorldInv E (step E w (.insert call now commit)) ∧ StepPromise w (step E w (.insert call now commit)) := by
  unfold step
  dsimp only
  split
  · rename_i request case hcall
    cases htx : transaction commit (insertInTx E request case now) w.db with
    | error e db =>
      obtain rfl := transaction_error htx
      exact h.fault call e
    | ok receipt db =>
      rcases insertInTx_ok (transaction_ok htx) with ⟨r, hget, hreceipt, rfl⟩ | ⟨-, hcase, cooldown, renewals, judgments,
        authored, rfl, hclaimed, hins, rfl⟩
      · exact h.existing call (Table.get?_eq_some.mp hget).1 hreceipt
      · have hinv := h.db.judged authored (h.checked call request case hcall) hcase hclaimed hins
        have hrenewals : w.db.renewals.rows <+: renewals.rows := by
          cases hclaimed with
          | initial => exact List.prefix_refl _
          | renewal _ facts _ _ _ hinsert => exact (Table.insert?_eq_some hinsert).2 ▸ List.prefix_append _ _
        refine ⟨h.answer call hinv _, ⟨⟨fun c hc => ⟨c, hc, .refl c⟩, ?_, hrenewals⟩, ?_, ?_, ?_⟩⟩
        · exact (Table.insert?_eq_some hins).2 ▸ List.prefix_append _ _
        · exact fun hwrote => absurd rfl hwrote
        · exact fun result hresult => by cases hresult
        · rintro receipt ⟨⟩
          exact ⟨_, (Table.mem_insert? hins).mpr (Or.inr rfl), rfl, rfl, rfl⟩
  · exact ⟨⟨h.db, h.checked⟩, .of_silent rfl trivial⟩

theorem WorldInv.step (h : WorldInv E w) (a : Act F) :
    WorldInv E (step E w a) ∧ StepPromise w (Evaluation.step E w a) := by
  cases a with
  | claim requestId body principal now commit => exact h.claim requestId body principal now commit
  | update requestId state now commit => exact h.update requestId state now commit
  | lookUp call request => exact h.lookUp call request
  | check call file now status => exact h.check call file now status
  | insert call now commit => exact h.insert call now commit
  | drop call => exact h.goOn call fun _ _ hphase => by cases hphase

/-! ## Repeated calls -/

variable {c : EvaluationClaim F}

theorem claimInTx_repeated (E : Env F A) (hc : c ∈ db.claims.rows) (body : EvaluationRequestBody F)
    (principal : String) (now : Int) :
    claimInTx E c.requestId body principal now db =
      if canonicalRequestJson c.body ≠ canonicalRequestJson body then
        .error (refusal "EVALUATION_REQUEST_CONFLICT") db
      else .ok ⟨.EXISTING, c⟩ db := by
  unfold claimInTx
  rw [Tx.get_bind_run, Table.get?_of_mem hc]
  by_cases hsame : canonicalRequestJson c.body ≠ canonicalRequestJson body
  · rw [if_pos hsame]
    unfold Tx.refuseIf
    dsimp only
    rw [if_pos hsame]
    rfl
  · rw [if_neg hsame]
    unfold Tx.refuseIf
    dsimp only
    rw [if_neg hsame]
    rfl

theorem claim_repeated (w : World F A) (hc : c ∈ w.db.claims.rows)
    (body : EvaluationRequestBody F) (principal : String) (now : Int) :
    (Evaluation.step E w (.claim c.requestId body principal now none)).db = w.db ∧
      (c.body.Same body →
        (Evaluation.step E w (.claim c.requestId body principal now none)).reply = some (.claimed ⟨.EXISTING, c⟩)) ∧
      (¬ c.body.Same body → (Evaluation.step E w (.claim c.requestId body principal now none)).reply =
        some (.refused "EVALUATION_REQUEST_CONFLICT" false)) := by
  unfold Evaluation.step World.commit transaction
  dsimp only
  rw [claimInTx_repeated E hc]
  by_cases hsame : canonicalRequestJson c.body ≠ canonicalRequestJson body
  · rw [if_pos hsame]
    exact ⟨rfl, fun h => absurd (canonicalRequestJson_eq.mpr h) hsame, fun _ => rfl⟩
  · rw [if_neg hsame]
    exact ⟨rfl, fun _ => rfl, fun h => absurd (canonicalRequestJson_eq.mp (not_not.mp hsame)) h⟩

theorem update_repeated (w : World F A) (hc : c ∈ w.db.claims.rows)
    (now : Int) (hrank : state.rank ≤ c.state.rank) (hstate : state ≠ .QUEUED) :
    (Evaluation.step E w (.update c.requestId state now none)).db = w.db ∧
      (Evaluation.step E w (.update c.requestId state now none)).reply =
        some (if c.state = state then .claimed ⟨.UNCHANGED, c⟩ else .refused "CLAIM_STATE_BACKWARD" false) := by
  have hbody : Evaluation.update (F := F) (A := A) c.requestId state now w.db = updateClaimInTx c state now w.db := by
    have hpassed : Evaluation.update (F := F) (A := A) c.requestId state now w.db = updateInTx c.requestId state now w.db := by
      unfold Evaluation.update Tx.refuseIf
      rw [if_neg hstate]
      rfl
    rw [hpassed]
    unfold updateInTx
    rw [Tx.get_bind_run, Table.get?_of_mem hc]
  unfold Evaluation.step World.commit transaction
  dsimp only
  rw [hbody]
  unfold updateClaimInTx Tx.refuseIf
  by_cases hsame : c.state = state
  · rw [if_pos hsame, if_pos hsame]
    exact ⟨rfl, rfl⟩
  · rw [if_neg hsame, if_neg hsame, if_pos hrank]
    exact ⟨rfl, rfl⟩

theorem existingReceipt_row (hsha : Function.Injective E.sha256) (h : Inv E db)
    (hr : r ∈ db.judgments.rows) (request : JudgmentRequest) :
    (sortKeys r.judgment.body = sortKeys (digestBody E request) →
      existingReceipt E r (judgmentBodyDigest E request) =
        .ok ⟨.EXISTING, r.judgmentId, r.judgment.verdict, r.judgment.cooldownUntilSession⟩) ∧
    (sortKeys r.judgment.body ≠ sortKeys (digestBody E request) →
      existingReceipt E r (judgmentBodyDigest E request) = .error (refusal "JUDGMENT_CONFLICT")) := by
  obtain ⟨hseal, hdigest⟩ := h.sealed r hr
  have hbody : r.bodyDigest = judgmentBodyDigest E request ↔ sortKeys r.judgment.body = sortKeys (digestBody E request) := by
    rw [hdigest]
    exact sha256Digest_eq hsha
  unfold existingReceipt
  rw [if_neg (not_not.mpr hseal.symm)]
  constructor
  · intro hsame
    rw [if_neg (not_not.mpr (hbody.mpr hsame))]
  · intro hother
    rw [if_pos fun heq => hother (hbody.mp heq)]

variable {call : Nat}

theorem WorldInv.lookUpRepeated (h : WorldInv E w) (hsha : Function.Injective E.sha256)
    (hr : r ∈ w.db.judgments.rows) (hcall : w.calls call = .idle)
    (hid : request.judgmentId = r.judgmentId) : AnswersRow E r request w (Evaluation.step E w (.lookUp call request)) := by
  obtain ⟨hsame, hother⟩ := existingReceipt_row hsha h.db hr request
  have hreply : existingReply E w.db request = (existingReceipt E r (judgmentBodyDigest E request)).map some := by
    unfold existingReply
    rw [hid, Table.get?_of_mem hr]
  unfold AnswersRow Evaluation.step
  dsimp only
  rw [hcall, hreply]
  by_cases hbody : sortKeys r.judgment.body = sortKeys (digestBody E request)
  · rw [hsame hbody]
    exact ⟨rfl, fun _ => rfl, fun hne => absurd hbody hne⟩
  · rw [hother hbody]
    exact ⟨rfl, fun heq => absurd heq hbody, fun _ => rfl⟩

theorem WorldInv.insertRepeated (h : WorldInv E w) (hsha : Function.Injective E.sha256) (hr : r ∈ w.db.judgments.rows) (now : Int)
    (hcall : w.calls call = .checked request case) (hid : request.judgmentId = r.judgmentId) :
    AnswersRow E r request w (Evaluation.step E w (.insert call now none)) := by
  obtain ⟨hsame, hother⟩ := existingReceipt_row hsha h.db hr request
  have hbody : insertInTx E request case now w.db =
      Tx.check (existingReceipt E r (judgmentBodyDigest E request)) w.db := by
    unfold insertInTx
    rw [Tx.get_bind_run, hid, Table.get?_of_mem hr]
  unfold AnswersRow Evaluation.step transaction
  dsimp only
  rw [hcall]
  dsimp only
  rw [hbody]
  by_cases hbody : sortKeys r.judgment.body = sortKeys (digestBody E request)
  · rw [hsame hbody]
    exact ⟨rfl, fun _ => rfl, fun hne => absurd hbody hne⟩
  · rw [hother hbody]
    exact ⟨rfl, fun heq => absurd heq hbody, fun _ => rfl⟩

theorem WorldInv.repeats (h : WorldInv E w) (hsha : Function.Injective E.sha256) : Repeats E w where
  claim _ hc body principal now := claim_repeated w hc body principal now
  update _ hc _ now hrank hstate := update_repeated w hc now hrank hstate
  lookUp _ hr _ _ hcall hid := h.lookUpRepeated hsha hr hcall hid
  insert _ hr _ _ _ now hcall hid := h.insertRepeated hsha hr now hcall hid

/-! ## Runs -/

def run (E : Env F A) (authored : A) (acts : List (Act F)) : World F A := acts.foldl (Evaluation.step E) (.start authored)

theorem run_append (E : Env F A) (authored : A) (acts : List (Act F)) (a : Act F) :
    run E authored (acts ++ [a]) = Evaluation.step E (run E authored acts) a := by
  unfold run
  rw [List.foldl_append]
  rfl

theorem run_inv (E : Env F A) (authored : A) (acts : List (Act F)) : WorldInv E (run E authored acts) := by
  induction acts using List.reverseRecOn with
  | nil => exact ⟨Inv.empty E authored, fun _ _ _ h => by cases h⟩
  | append_singleton acts a ih =>
    rw [run_append]
    exact (ih.step a).1

theorem run_kept (E : Env F A) (authored : A) (acts more : List (Act F)) :
    Kept (run E authored acts).db (run E authored (acts ++ more)).db := by
  induction more using List.reverseRecOn with
  | nil =>
    rw [List.append_nil]
    exact .refl _
  | append_singleton more a ih =>
    rw [← List.append_assoc, run_append]
    exact ih.trans ((run_inv E authored (acts ++ more)).step a).2.kept

theorem receipt_repeated (E : Env F A) (hsha : Function.Injective E.sha256) (authored : A) (acts more : List (Act F))
    (a : Act F) (hreply : (run E authored (acts ++ [a])).reply = some (.recorded receipt))
    (hcall : (run E authored (acts ++ [a] ++ more)).calls call = .idle) (hid : request.judgmentId = receipt.judgmentId) :
    ∃ r ∈ (run E authored (acts ++ [a] ++ more)).db.judgments.rows, r.judgmentId = receipt.judgmentId ∧
      r.judgment.verdict = receipt.verdict ∧ r.judgment.cooldownUntilSession = receipt.cooldown ∧
      AnswersRow E r request (run E authored (acts ++ [a] ++ more))
        (run E authored (acts ++ [a] ++ more ++ [.lookUp call request])) := by
  rw [run_append E authored acts] at hreply
  obtain ⟨r, hr, hrid, hverdict, hcooldown⟩ := ((run_inv E authored acts).step a).2.recorded receipt hreply
  rw [← run_append] at hr
  have hkept := (run_kept E authored (acts ++ [a]) more).judgments.subset hr
  refine ⟨r, hkept, hrid, hverdict, hcooldown, ?_⟩
  rw [run_append E authored (acts ++ [a] ++ more)]
  exact (run_inv E authored (acts ++ [a] ++ more)).lookUpRepeated hsha hkept hcall (hid.trans hrid.symm)

/-- **One judgment for each case, within the budget of the day**, over every run of calls. -/
theorem evaluations_once (E : Env F A) (hsha : Function.Injective E.sha256) (authored : A) (acts : List (Act F)) :
    Holds E (run E authored acts).db ∧ Repeats E (run E authored acts) ∧
      (∀ a, StepPromise (run E authored acts) (run E authored (acts ++ [a]))) ∧
      (∀ more, Kept (run E authored acts).db (run E authored (acts ++ more)).db) ∧
      ∀ a receipt more call request, (run E authored (acts ++ [a])).reply = some (.recorded receipt) →
        (run E authored (acts ++ [a] ++ more)).calls call = .idle → request.judgmentId = receipt.judgmentId →
        ∃ r ∈ (run E authored (acts ++ [a] ++ more)).db.judgments.rows, r.judgmentId = receipt.judgmentId ∧
          r.judgment.verdict = receipt.verdict ∧ r.judgment.cooldownUntilSession = receipt.cooldown ∧
          AnswersRow E r request (run E authored (acts ++ [a] ++ more))
            (run E authored (acts ++ [a] ++ more ++ [.lookUp call request])) := by
  have hinv := run_inv E authored acts
  refine ⟨hinv.db.holds, hinv.repeats hsha, fun a => ?_, run_kept E authored acts, ?_⟩
  · rw [run_append]
    exact (hinv.step a).2
  · intro a receipt more call request hreply hcall hid
    exact receipt_repeated E hsha authored acts more a hreply hcall hid

end

/-! ## Two runs -/

def sampleBody : EvaluationRequestBody Empty where
  strategyKey := "strategies/orb.py:Orb"
  cohort := [fields [("LOOKBACK", jsonInt 20)]]
  conids := [756733]
  barSize := "1 min"
  researchDay := "2026-01-05"

def sampleText : String := "mmr.research.evaluation-request.v1\n\x7b\"bar_size\":\"1 min\",\"cohort\":[\x7b\"LOOKBACK\":20\x7d],\"conids\":[756733],\"research_day\":\"2026-01-05\",\"strategy_key\":\"strategies/orb.py:Orb\"\x7d"

def sampleHash : String := "4216bd4981c47e7e7496b7bad54f961b9363f2873fd4864fd9accde5fa168dc9"

/-- The SHA-256 of the sample request, and no other text takes it. -/
def sampleSha256 : String → String := Equiv.swap sampleText sampleHash

theorem sampleSha256_injective : Function.Injective sampleSha256 := (Equiv.swap sampleText sampleHash).injective

def sampleEnv : Env Empty Unit where
  config := ⟨10, 10, 3, ["strategies/orb.py:Orb"]⟩
  newYork := Zone.fixed (-5 * 3600 * 1000000)
  sha256 := sampleSha256
  isoDay day := toString day
  isoTime now := toString now
  sessionsInRange first last := some ((List.range (last - first + 1).toNat).map fun n => first + n)
  paperV1 := "sha256:0000000000000000000000000000000000000000000000000000000000000000"
  authored := none

/-- 2026-01-05, 14:30 UTC. -/
def sampleNow : Int := 1767623400000000

def sampleClaim : Act Empty := .claim ("sha256:" ++ sampleHash) sampleBody "research" sampleNow none

def sampleRunning : Act Empty := .update ("sha256:" ++ sampleHash) .RUNNING (sampleNow + 1000000) none

def sampleDone : Act Empty := .update ("sha256:" ++ sampleHash) .DONE (sampleNow + 2000000) none

theorem evaluations_once_sample :
    sampleEnv.sha256 sampleText = sampleHash ∧ Holds sampleEnv (run sampleEnv () [sampleClaim]).db :=
  ⟨Equiv.swap_apply_left sampleText sampleHash,
    (evaluations_once sampleEnv sampleSha256_injective () [sampleClaim]).1⟩

def statusOf : Option (Reply Empty) → Option ClaimStatus
  | some (.claimed result) => some result.status
  | _ => none

def refusalOf : Option (Reply Empty) → Option String
  | some (.refused code _) => some code
  | _ => none

/-- **A repeated call need not answer its first receipt**: the claim has left the state that the update names. -/
theorem repeated_update_refused :
    statusOf (run sampleEnv () [sampleClaim, sampleRunning]).reply = some .UPDATED ∧
      refusalOf (run sampleEnv () [sampleClaim, sampleRunning, sampleDone, sampleRunning]).reply =
        some "CLAIM_STATE_BACKWARD" := by decide +kernel

end MmrTrader.Evaluation
