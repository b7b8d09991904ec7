import MmrTrader.Evaluation.Store

/-!
# Calls on the evaluation tables

* `World`, `step` — calls of `claim`, `update` and `record` in any order; `record` looks for its receipt, reads the case
  and opens its transaction in three steps.
* `claimInTx_ok`, `update_ok`, `insertInTx_ok` — all that a committed transaction can have done.
-/

set_option autoImplicit false

namespace MmrTrader.Evaluation

open Lib Lib.CanonicalJson Rpc

variable {F A : Type}

/-! ## The calls -/

inductive Reply (F : Type) where
  | claimed (result : ClaimResult F)
  | recorded (receipt : Receipt)
  | refused (code : String) (retryable : Bool)
  | raised (what : String)

/-- `ClaimRefused` is a reply. -/
def claimFault : Fault → Reply F
  | .refused code retryable => .refused code retryable
  | .raised what => .raised what

/-- `JudgmentRefused` is a reply unless something was tampered with. -/
def recordFault : Fault → Reply F
  | .refused code retryable => if "TAMPERED".toList.isSuffixOf code.toList then .raised code else .refused code retryable
  | .raised what => .raised what

/-- Where a call of `record` stands. -/
inductive Phase (F : Type) where
  | idle
  | looked (request : JudgmentRequest)
  | checked (request : JudgmentRequest) (case : EvaluationCase F)

structure World (F A : Type) where
  db : JudgeDb F A
  calls : Nat → Phase F
  /-- What the last step answered. -/
  reply : Option (Reply F)

/-- `commit` is what the COMMIT raises, if it does. -/
inductive Act (F : Type) where
  | claim (requestId : String) (body : EvaluationRequestBody F) (principal : String) (now : Int) (commit : Option Fault)
  | update (requestId : String) (state : ClaimState) (now : Int) (commit : Option Fault)
  | lookUp (call : Nat) (request : JudgmentRequest)
  | check (call : Nat) (file : Except String (CaseFile F)) (now : Int) (status : RenewalStatus)
  | insert (call : Nat) (now : Int) (commit : Option Fault)
  /-- The call raises somewhere else, or its process dies. -/
  | drop (call : Nat)

def World.start (authored : A) : World F A := ⟨.empty authored, fun _ => .idle, none⟩

/-- The call goes on to `phase`. -/
def World.goOn (w : World F A) (call : Nat) (phase : Phase F) : World F A :=
  { w with calls := Function.update w.calls call phase, reply := none }

def World.answer (w : World F A) (call : Nat) (db : JudgeDb F A) (reply : Reply F) : World F A :=
  ⟨db, Function.update w.calls call .idle, some reply⟩

/-- One transaction of a call that is nothing else. -/
def World.commit {α : Type} (w : World F A) (commit : Option Fault) (body : JudgeTx F A α) (ok : α → Reply F) :
    World F A :=
  match transaction commit body w.db with
  | .ok a db => { w with db := db, reply := some (ok a) }
  | .error e db => { w with db := db, reply := some (claimFault e) }

def step [PyFloat F] (E : Env F A) (w : World F A) : Act F → World F A
  | .claim requestId body principal now commit => w.commit commit (claimInTx E requestId body principal now) .claimed
  | .update requestId state now commit => w.commit commit (Evaluation.update requestId state now) .claimed
  | .lookUp call request =>
    match w.calls call with
    | .idle =>
      match existingReply E w.db request with
      | .error e => w.answer call w.db (recordFault e)
      | .ok (some receipt) => w.answer call w.db (.recorded receipt)
      | .ok none => w.goOn call (.looked request)
    | _ => { w with reply := none }
  | .check call file now status =>
    match w.calls call with
    | .looked request =>
      match loadVerifiedCase E.sha256 file request.caseDigest with
      | .error code => w.answer call w.db (recordFault (refusal code))
      | .ok case =>
        match checkAgainstCase E request case now status with
        | .error e => w.answer call w.db (recordFault e)
        | .ok () => w.goOn call (.checked request case)
    | _ => { w with reply := none }
  | .insert call now commit =>
    match w.calls call with
    | .checked request case =>
      match transaction commit (insertInTx E request case now) w.db with
      | .ok receipt db => w.answer call db (.recorded receipt)
      | .error e db => w.answer call db (recordFault e)
    | _ => { w with reply := none }
  | .drop call => w.goOn call .idle

/-! ## What a transaction did -/

section
variable [PyFloat F] {E : Env F A} {db db' : JudgeDb F A} {requestId principal : String}
  {body : EvaluationRequestBody F} {now : Int} {result : ClaimResult F}

omit [PyFloat F] in
theorem claimAuthored_ok (h : claimAuthored E requestId body now db = .ok () db') :
    ∃ authored, db' = { db with authored := authored } := by
  unfold claimAuthored at h
  have h := Tx.get_bind_ok h
  cases hkey : isAuthoredKey body.strategyKey with
  | false =>
    rw [hkey] at h
    cases h
    exact ⟨db.authored, rfl⟩
  | true =>
    cases hstore : E.authored with
    | none =>
      rw [hkey, hstore] at h
      cases h
    | some store =>
      rw [hkey, hstore] at h
      obtain ⟨authored, -, h⟩ := Tx.check_bind_ok h
      cases h
      exact ⟨authored, rfl⟩

omit [PyFloat F] in
theorem insertClaim_ok {claim : EvaluationClaim F} (h : insertClaim claim db = .ok () db') :
    ∃ claims, db.claims.insert? claim = some claims ∧ db' = { db with claims := claims } := by
  unfold insertClaim at h
  have h := Tx.get_bind_ok h
  cases hins : db.claims.insert? claim with
  | none =>
    rw [hins] at h
    cases h
  | some claims =>
    rw [hins] at h
    cases h
    exact ⟨claims, rfl, rfl⟩

theorem claimInTx_ok (h : claimInTx E requestId body principal now db = .ok result db') :
    (∃ existing, db.claims.get? requestId = some existing ∧
      canonicalRequestJson existing.body = canonicalRequestJson body ∧ result = ⟨.EXISTING, existing⟩ ∧ db' = db) ∨
    (db.claims.get? requestId = none ∧ requestId = evaluationRequestId E.sha256 body ∧
      db.claimedOn (E.newYork.date now) < E.config.evaluationsPerDay ∧
      result = ⟨.ACCEPTED, newClaim E requestId body principal now⟩ ∧
      ∃ claims authored, db.claims.insert? (newClaim E requestId body principal now) = some claims ∧
        db' = { db with claims := claims, authored := authored }) := by
  unfold claimInTx at h
  have h := Tx.get_bind_ok h
  cases hget : db.claims.get? requestId with
  | some existing =>
    rw [hget] at h
    obtain ⟨hsame, h⟩ := Tx.refuseIf_bind_ok h
    cases h
    exact Or.inl ⟨existing, rfl, not_not.mp hsame, rfl, rfl⟩
  | none =>
    rw [hget] at h
    right
    unfold newClaimInTx at h
    have h := Tx.get_bind_ok h
    obtain ⟨hid, h⟩ := Tx.refuseIf_bind_ok h
    obtain ⟨-, -, h⟩ := Tx.check_bind_ok h
    obtain ⟨-, h⟩ := Tx.refuseIf_bind_ok h
    obtain ⟨hused, h⟩ := Tx.refuseIf_bind_ok h
    obtain ⟨⟨⟩, db₁, hauthored, h⟩ := Tx.bind_ok h
    obtain ⟨authored, rfl⟩ := claimAuthored_ok hauthored
    obtain ⟨⟨⟩, db₂, hinsert, h⟩ := Tx.bind_ok h
    cases h
    refine ⟨rfl, not_not.mp hid, Nat.lt_of_not_le hused, rfl, ?_⟩
    obtain ⟨claims, hclaims, rfl⟩ := insertClaim_ok hinsert
    exact ⟨claims, authored, hclaims, rfl⟩

end

/-- The table after `update`. -/
def JudgeDb.moveClaim (db : JudgeDb F A) (requestId : String) (state : ClaimState) (now : Int) : JudgeDb F A :=
  { db with
    claims := db.claims.updateWhere (fun c => c.requestId = requestId)
      (fun c => { c with state := state, updatedAt := now }) (EvaluationClaim.requestId_moved state now) }

variable {state : ClaimState}

theorem mem_moveClaim {db : JudgeDb F A} {requestId : String} {now : Int} {c : EvaluationClaim F} :
    c ∈ (db.moveClaim requestId state now).claims.rows ↔ ∃ c₀ ∈ db.claims.rows,
      c = if c₀.requestId = requestId then { c₀ with state := state, updatedAt := now } else c₀ := by
  unfold JudgeDb.moveClaim
  simp only [Table.mem_updateWhere, decide_eq_true_eq]

theorem updateClaimInTx_ok {db db' : JudgeDb F A} {claim : EvaluationClaim F} {now : Int}
    {result : ClaimResult F} (h : updateClaimInTx claim state now db = .ok result db') :
    claim.state = state ∧ result = ⟨.UNCHANGED, claim⟩ ∧ db' = db ∨
      claim.state.rank < state.rank ∧ result = ⟨.UPDATED, { claim with state := state, updatedAt := now }⟩ ∧
        db' = db.moveClaim claim.requestId state now := by
  unfold updateClaimInTx at h
  split at h
  · rename_i hsame
    cases h
    exact Or.inl ⟨hsame, rfl, rfl⟩
  · obtain ⟨hrank, h⟩ := Tx.refuseIf_bind_ok h
    cases h
    exact Or.inr ⟨Nat.lt_of_not_le hrank, rfl, rfl⟩

theorem update_ok {db db' : JudgeDb F A} {requestId : String} {now : Int} {result : ClaimResult F}
    (h : update requestId state now db = .ok result db') :
    ∃ claim ∈ db.claims.rows, claim.requestId = requestId ∧
      (claim.state = state ∧ result = ⟨.UNCHANGED, claim⟩ ∧ db' = db ∨
        claim.state.rank < state.rank ∧ result = ⟨.UPDATED, { claim with state := state, updatedAt := now }⟩ ∧
          db' = db.moveClaim requestId state now) := by
  unfold update at h
  obtain ⟨-, h⟩ := Tx.refuseIf_bind_ok h
  unfold updateInTx at h
  have hbody := Tx.get_bind_ok h
  cases hget : db.claims.get? requestId with
  | none =>
    rw [hget] at hbody
    cases hbody
  | some claim =>
    rw [hget] at hbody
    obtain ⟨hclaim, rfl⟩ := Table.get?_eq_some.mp hget
    exact ⟨claim, hclaim, rfl, updateClaimInTx_ok hbody⟩

section
variable [PyFloat F] {E : Env F A} {db db' : JudgeDb F A} {request : JudgmentRequest} {case : EvaluationCase F}
  {now : Int} {receipt : Receipt}

omit [PyFloat F] in
theorem claimRenewal_ok {prior judgmentId : String} (h : claimRenewal prior judgmentId now db = .ok () db') :
    (∀ r ∈ db.renewals.rows, r.judgmentId ≠ judgmentId) ∧
      ∃ renewals, db.renewals.insert? ⟨prior, judgmentId, now⟩ = some renewals ∧
        db' = { db with renewals := renewals } := by
  unfold claimRenewal at h
  have h := Tx.get_bind_ok h
  obtain ⟨-, h⟩ := Tx.refuseIf_bind_ok h
  obtain ⟨hunique, h⟩ := Tx.refuseIf_bind_ok h
  cases hins : db.renewals.insert? ⟨prior, judgmentId, now⟩ with
  | none =>
    rw [hins] at h
    cases h
  | some renewals =>
    rw [hins] at h
    cases h
    refine ⟨fun r hr heq => hunique ?_, renewals, rfl, rfl⟩
    exact List.any_eq_true.mpr ⟨r, hr, beq_iff_eq.mpr heq⟩

inductive SubjectClaimed (E : Env F A) (db : JudgeDb F A) (request : JudgmentRequest) (case : EvaluationCase F)
    (now : Int) : Table RenewalRow.priorVersion → Prop where
  | initial (requestId claimDay : String) (stage : InitialStage)
      (hsubject : case.subject = .initial requestId claimDay stage)
      (hfresh : ∀ r ∈ db.judgments.rows, r.judgment.requestId ≠ some requestId)
      (hclaim : checkClaim E db case requestId claimDay stage request.decidedAt = .ok ()) :
      SubjectClaimed E db request case now db.renewals
  | renewal (stage : RenewalStage) (facts : RenewalFacts) (renewals : Table RenewalRow.priorVersion)
      (hsubject : case.subject = .renewal stage facts)
      (hfresh : ∀ r ∈ db.renewals.rows, r.judgmentId ≠ request.judgmentId)
      (hinsert : db.renewals.insert? ⟨facts.priorDeploymentVersion, request.judgmentId, now⟩ = some renewals) :
      SubjectClaimed E db request case now renewals

theorem claimSubject_ok (h : claimSubject E request case now db = .ok () db') :
    ∃ renewals, SubjectClaimed E db request case now renewals ∧ db' = { db with renewals := renewals } := by
  unfold claimSubject at h
  have h := Tx.get_bind_ok h
  cases hsubject : case.subject with
  | initial requestId claimDay stage =>
    rw [hsubject] at h
    obtain ⟨hfresh, h⟩ := Tx.refuseIf_bind_ok h
    obtain ⟨hclaim, hdb⟩ := Tx.check_ok h
    refine ⟨db.renewals, .initial requestId claimDay stage hsubject (fun r hr heq => hfresh ?_) hclaim, hdb⟩
    exact List.any_eq_true.mpr ⟨r, hr, beq_iff_eq.mpr heq⟩
  | renewal stage facts =>
    rw [hsubject] at h
    obtain ⟨hfresh, renewals, hins, rfl⟩ := claimRenewal_ok h
    exact ⟨renewals, .renewal stage facts renewals hsubject hfresh hins, rfl⟩

omit [PyFloat F] in
theorem authoredJudged_ok {judgment : BacktestJudgment F} (h : authoredJudged E judgment now db = .ok () db') :
    ∃ authored, db' = { db with authored := authored } := by
  unfold authoredJudged at h
  have h := Tx.get_bind_ok h
  cases hkey : isAuthoredKey judgment.strategyKey with
  | false =>
    rw [hkey] at h
    cases h
    exact ⟨db.authored, rfl⟩
  | true =>
    cases hstore : E.authored with
    | none =>
      rw [hkey, hstore] at h
      cases h
    | some store =>
      rw [hkey, hstore] at h
      obtain ⟨authored, -, h⟩ := Tx.check_bind_ok h
      cases h
      exact ⟨authored, rfl⟩

omit [PyFloat F] in
theorem insertJudgment_ok {row : JudgmentRow F} (h : insertJudgment row db = .ok () db') :
    ∃ judgments, db.judgments.insert? row = some judgments ∧ db' = { db with judgments := judgments } := by
  unfold insertJudgment at h
  have h := Tx.get_bind_ok h
  cases hins : db.judgments.insert? row with
  | none =>
    rw [hins] at h
    cases h
  | some judgments =>
    rw [hins] at h
    cases h
    exact ⟨judgments, rfl, rfl⟩

theorem insertInTx_ok (h : insertInTx E request case now db = .ok receipt db') :
    (∃ row, db.judgments.get? request.judgmentId = some row ∧
      existingReceipt E row (judgmentBodyDigest E request) = .ok receipt ∧ db' = db) ∨
    (db.judgments.get? request.judgmentId = none ∧
      (∀ r ∈ db.judgments.rows, r.judgment.caseDigest ≠ request.caseDigest) ∧
      ∃ cooldown renewals judgments authored,
        receipt = ⟨.RECORDED, request.judgmentId, request.verdict, cooldown⟩ ∧
        SubjectClaimed E db request case now renewals ∧
        db.judgments.insert? (judgmentRow E request case cooldown now) = some judgments ∧
        db' = ⟨db.claims, judgments, renewals, authored⟩) := by
  unfold insertInTx at h
  have h := Tx.get_bind_ok h
  cases hget : db.judgments.get? request.judgmentId with
  | some row =>
    rw [hget] at h
    obtain ⟨hreceipt, rfl⟩ := Tx.check_ok h
    exact Or.inl ⟨row, rfl, hreceipt, rfl⟩
  | none =>
    rw [hget] at h
    right
    unfold newJudgmentInTx at h
    have h := Tx.get_bind_ok h
    obtain ⟨hcase, h⟩ := Tx.refuseIf_bind_ok h
    obtain ⟨⟨⟩, db₁, hsubject, h⟩ := Tx.bind_ok h
    obtain ⟨renewals, hclaimed, rfl⟩ := claimSubject_ok hsubject
    obtain ⟨cooldown, -, h⟩ := Tx.check_bind_ok h
    obtain ⟨⟨⟩, db₂, hinsert, h⟩ := Tx.bind_ok h
    obtain ⟨⟨⟩, db₃, hauthored, h⟩ := Tx.bind_ok h
    cases h
    obtain ⟨judgments, hjudgments, rfl⟩ := insertJudgment_ok hinsert
    obtain ⟨authored, rfl⟩ := authoredJudged_ok hauthored
    refine ⟨rfl, fun r hr heq => hcase ?_, cooldown, renewals, judgments, authored, rfl, hclaimed, hjudgments, rfl⟩
    exact List.any_eq_true.mpr ⟨r, hr, beq_iff_eq.mpr heq⟩

end

end MmrTrader.Evaluation
