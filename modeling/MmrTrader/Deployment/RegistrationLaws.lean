import MmrTrader.Deployment.VersionLaws

/-!
# What the calls do, whatever runs between their steps

* `register_runs`, `withdraw_runs`, `statuses_runs` — one for each call, with what its result says.
* `retry_runs` — a registration whose judgment the same request sealed before.
* `deployments_sound` — the system of all calls; `program_writesLast` — a call that raises wrote nothing.
-/

namespace MmrTrader.Deployment

open MmrTrader.Lib MmrTrader.Lib.Interleaving

variable {P : Setup} {s t : Shared} {α β : Type}

/-- What a normal result says; nothing is said of an exception. -/
def Post (Q : α → Shared → Prop) : Except DeployError α → Shared → Prop := fun r t => ∀ v, r = .ok v → Q v t

def Runs (P : Setup) (Q : α → Shared → Prop) (p : Call α) (s : Shared) : Prop :=
  Safe (Keeps P) (Keeps P) (Post Q) p s

theorem keeps_trans (a b c : Shared) (h : Keeps P a b) (h' : Keeps P b c) : Keeps P a c := h.trans h'

theorem keeps_self (a b : Shared) (h : Keeps P a b) : Keeps P b b := h.2.keeps_refl

variable {Q : α → Shared → Prop} {Q' : β → Shared → Prop} {p : Call α}
variable {v : α}

theorem Runs.pure (h : Q v s) : Runs P Q (Pure.pure v) s := fun v' hv => by cases hv; exact h

variable {e : DeployError}

theorem Runs.raise : Runs P Q (Prog.raise e) s := fun v hv => by cases hv

/-- What follows a call knows its result and that the state only moved on. -/
theorem Runs.bind {f : α → Call β} (hs : Inv P s) (h : Runs P Q p s)
    (hf : ∀ v t, Keeps P s t → Q v t → Runs P Q' (f v) t) : Runs P Q' (p >>= f) s := by
  refine Safe.bind (Safe.since h hs.keeps_refl keeps_trans) ?_ ?_
  · intro v t hv
    exact hf v t hv.2 (hv.1 v rfl)
  · intro e t _ v hv
    cases hv

theorem Runs.read {f : Answers → Shared → Except DeployError α} (h : ∀ t, Keeps P s t → ∀ a v, f a t = .ok v → Q v t) :
    Runs P Q (Prog.read f) s :=
  Safe.read fun t ht a => ⟨ht.2.keeps_refl, fun v hv => h t ht a v hv⟩

variable {x : Except DeployError α}

theorem Runs.check (h : ∀ v, x = .ok v → Q v s) : Runs P Q (Prog.check x) s := h

variable {c : Prop}

theorem Runs.refuseIf [Decidable c] : Runs P (fun _ _ => ¬ c) (Prog.refuseIf c e) s := by
  unfold Prog.refuseIf
  split
  · exact Runs.raise
  · exact Runs.pure ‹_›

theorem Runs.quiet (h : Quiet p) : Runs P (fun _ _ => True) p s :=
  Safe.mono (h.safe keeps_self) (fun _ _ hg => hg) fun _ _ _ _ _ => trivial

/-! ## Reads -/

theorem clock_runs : Runs P (fun now t => now = t.clock) clock s := by
  refine Runs.read ?_
  intro t _ a v hv
  cases hv
  rfl

variable {id : String}

theorem judgmentOf_runs : Runs P (fun j t => j = t.judgments.get? id) (judgmentOf id) s := by
  refine Runs.read ?_
  intro t _ a v hv
  cases hv
  rfl

variable {d : Digest}

theorem renewalVerdicts_runs : Runs P (fun l t => l = verdictsOn t.judgments.rows d) (renewalVerdicts d) s := by
  refine Runs.read ?_
  intro t _ a v hv
  cases hv
  rfl

theorem readSealed_runs : Runs P (fun l t => l = t.db.inOrder) (readSealed P) s := by
  refine Runs.read ?_
  intro t ht a v hv
  rw [ht.2.sealedIn_eq] at hv
  cases hv
  rfl

theorem readWithdrawn_runs : Runs P (fun l t => l = t.db.withdrawnIds) readWithdrawn s := by
  refine Runs.read ?_
  intro t _ a v hv
  cases hv
  rfl

theorem deployJudgment_runs (hs : Inv P s) :
    Runs P (fun j t => t.judgments.get? id = some j ∧ j.verdict = .DEPLOY) (deployJudgment id) s := by
  refine Runs.bind hs judgmentOf_runs ?_
  intro j t _ hj
  subst hj
  cases hf : t.judgments.get? id with
  | none => exact Runs.raise
  | some j =>
    by_cases hd : j.verdict ≠ .DEPLOY
    · simp only [if_pos hd]
      exact Runs.raise
    · simp only [if_neg hd]
      exact Runs.pure ⟨hf, not_not.mp hd⟩

/-- What `get` returns is the record of a sealed row. -/
theorem get_ok {db : VersionDb} {v : DeploymentVersion} (h : get P db d = .ok v) :
    ∃ row ∈ db.versions.rows, row.digest = d ∧ row.record = v ∧ row.baseDigest = v.baseDigest := by
  unfold get at h
  split at h
  · cases h
  cases hf : db.versions.get? d with
  | none =>
    rw [hf] at h
    cases h
  | some row =>
    rw [hf] at h
    obtain ⟨v', hv', rfl⟩ := map_ok h
    obtain ⟨rfl, -, -, hbase, -⟩ := parse_ok hv'
    obtain ⟨hmem, hkey⟩ := Table.get?_eq_some.mp hf
    exact ⟨row, hmem, hkey, rfl, hbase⟩

theorem insteadOf_ok {code : String} (h : insteadOf code e x = .ok v) : x = .ok v := by
  unfold insteadOf at h
  split at h
  · split at h
    · cases h
    · cases h
  · exact h

/-! ## The judgments that stand -/

/-- An entry of `stands_for`, for versions sealed in `s₀`: what stands stood then, and what does not stand does not
stand now. -/
def Entry (s₀ t : Shared) (e : Digest × Bool) : Prop :=
  ∃ row ∈ s₀.db.versions.rows, row.digest = e.1 ∧ (e.2 = true → judgmentStands s₀.judgments row = true) ∧
    (e.2 = false → judgmentStands t.judgments row = false)

variable {row : VersionRow}

theorem Later.not_stands (h : Later s t) (hs : Inv P s) (hrow : row ∈ s.db.versions.rows)
    (hf : judgmentStands s.judgments row = false) : judgmentStands t.judgments row = false := by
  by_contra ht
  rw [Bool.not_eq_false] at ht
  rw [h.stood hs hrow ht] at hf
  cases hf

variable {s₀ : Shared} {skip : List Digest}

theorem standsFor_runs (h₀ : Inv P s₀) :
    ∀ (l : List SealedVersion), (∀ v ∈ l, ∃ row ∈ s₀.db.versions.rows, row.sealed = v) →
      ∀ s, Keeps P s₀ s → Runs P (fun entries t => ∀ e ∈ entries, Entry s₀ t e) (standsFor skip l) s := by
  intro l
  induction l with
  | nil =>
    intro _ s _
    exact Runs.pure fun e he => absurd he List.not_mem_nil
  | cons v l ih =>
    intro hl s hs
    have hrest := ih fun v' hv' => hl v' (List.mem_cons_of_mem v hv')
    unfold standsFor
    by_cases hskip : v.digest ∈ skip
    · simp only [if_pos hskip]
      exact hrest s hs
    obtain ⟨row, hrow, rfl⟩ := hl v List.mem_cons_self
    simp only [if_neg hskip]
    refine Runs.bind hs.2 judgmentOf_runs ?_
    intro facts t ht hfacts
    have hst : Keeps P s₀ t := hs.trans ht
    have hjudgment : row.judgmentId = row.record.judgmentId := (h₀.columns hrow).2.1
    by_cases hdeploy : facts.map (·.verdict) = some Verdict.DEPLOY
    · simp only [if_pos hdeploy]
      refine Runs.bind ht.2 renewalVerdicts_runs ?_
      intro verdicts u hu hverdicts
      have hsu : Keeps P s₀ u := hst.trans hu
      have hread : judgmentStands u.judgments row = verdicts.all (· = Verdict.DEPLOY) := by
        obtain ⟨j, hj, hverdict⟩ := Option.map_eq_some_iff.mp hdeploy
        have hget : t.judgments.get? row.judgmentId = some j := by
          rw [hjudgment]
          exact hfacts.symm.trans hj
        unfold judgmentStands
        rw [hu.1.judged hget, hverdicts]
        simp only [Option.map_some, hverdict, true_and]
        exact Bool.decide_eq_true
      refine Runs.bind hu.2 (hrest u hsu) ?_
      intro others x hx hothers
      refine Runs.pure ?_
      intro e he
      rcases List.mem_cons.mp he with rfl | he
      · refine ⟨row, hrow, rfl, ?_, ?_⟩
        · intro hb
          exact hsu.1.stood h₀ hrow (hread.trans hb)
        · intro hb
          exact hx.1.not_stands hsu.2 (hsu.1.mem hrow) (hread.trans hb)
      · exact hothers e he
    · simp only [if_neg hdeploy]
      have hread : judgmentStands t.judgments row = false := by
        unfold judgmentStands
        rw [hjudgment]
        exact decide_eq_false fun hc => hdeploy (hfacts ▸ hc.1)
      refine Runs.bind ht.2 (hrest t hst) ?_
      intro others x hx hothers
      refine Runs.pure ?_
      intro e he
      rcases List.mem_cons.mp he with rfl | he
      · refine ⟨row, hrow, rfl, ?_, ?_⟩
        · intro hb
          cases hb
        · intro _
          exact hx.1.not_stands hst.2 (hst.1.mem hrow) hread
      · exact hothers e he

theorem mem_of_lookup {κ v : Type} [BEq κ] [LawfulBEq κ] {l : List (κ × v)} {k : κ} {b : v} (h : l.lookup k = some b) :
    (k, b) ∈ l := by
  induction l with
  | nil => cases h
  | cons e l ih =>
    rw [List.lookup_cons] at h
    split at h
    · cases h
      rename_i hk
      rw [eq_of_beq hk]
      exact List.mem_cons_self
    · exact List.mem_cons_of_mem _ (ih h)

/-! ## The line of a renewal -/

theorem quiet_raise : Quiet (Prog.raise e : Call α) := trivial

theorem quiet_pure : Quiet (Pure.pure v : Call α) := trivial

theorem quiet_refuseIf [Decidable c] : Quiet (Prog.refuseIf c e : Call Unit) := by
  unfold Prog.refuseIf
  split <;> trivial

theorem firstOfLine_quiet (fuel : Nat) : ∀ v, Quiet (firstOfLine P fuel v) := by
  induction fuel with
  | zero => exact fun _ => quiet_raise
  | succ fuel ih =>
    intro v
    unfold firstOfLine
    split
    · exact quiet_pure
    · exact Quiet.bind (Quiet.read _) ih

theorem initialJudgment_quiet (fuel : Nat) (v : DeploymentVersion) : Quiet (initialJudgment P fuel v) := by
  refine Quiet.bind (firstOfLine_quiet fuel v) fun first => Quiet.bind (Quiet.read _) fun judgment => ?_
  split
  · exact quiet_raise
  · split
    · exact quiet_raise
    · exact quiet_pure

def Known (base : Digest) (prior : Option Digest) (t : Shared) : Prop :=
  ∀ d ∈ prior, ∃ p ∈ t.db.versions.rows, p.digest = d ∧ p.baseDigest = base

theorem Known.later {base : Digest} {prior : Option Digest} (h : Known base prior s) (ht : Keeps P s t) :
    Known base prior t := by
  intro d hd
  obtain ⟨p, hp, hkey⟩ := h d hd
  exact ⟨p, ht.1.mem hp, hkey⟩

theorem sealedVersion_runs {prior : Digest} :
    Runs P (fun r t => Known r.1.baseDigest (some prior) t) (sealedVersion P prior) s := by
  refine Runs.read ?_
  intro t _ a r hr
  obtain ⟨v, hv, rfl⟩ := map_ok hr
  obtain ⟨row, hrow, hkey, -, hbase⟩ := get_ok (insteadOf_ok hv)
  intro d hd
  cases hd
  exact ⟨row, hrow, hkey, hbase⟩

variable {judgment : JudgmentFacts} {deployment : AiDeployment}

theorem line_runs (hs : Inv P s) :
    Runs P (fun r t => Known (P.deploymentDigest deployment) r.1 t) (line P judgment deployment) s := by
  unfold line
  split
  · exact Runs.pure fun d hd => by cases hd
  · exact Runs.raise
  · rename_i prior _ _
    refine Runs.bind hs sealedVersion_runs ?_
    rintro ⟨version, count⟩ t ht hknown
    refine Runs.bind ht.2 Runs.refuseIf ?_
    intro _ t₁ ht₁ hbase
    rw [not_not.mp hbase] at hknown
    refine Runs.bind ht₁.2 readWithdrawn_runs ?_
    intro withdrawn t₂ ht₂ _
    refine Runs.bind ht₂.2 Runs.refuseIf ?_
    intro _ t₃ ht₃ _
    refine Runs.bind ht₃.2 readSealed_runs ?_
    intro versions t₄ ht₄ _
    refine Runs.bind ht₄.2 Runs.refuseIf ?_
    intro _ t₅ ht₅ _
    refine Runs.bind ht₅.2 (Runs.quiet (initialJudgment_quiet _ _)) ?_
    intro initial t₆ ht₆ _
    exact Runs.pure (hknown.later (ht₁.trans (ht₂.trans (ht₃.trans (ht₄.trans (ht₅.trans ht₆))))))

/-! ## Registrations -/

/-- The judgment of the request is sealed by this request, and the outcome names that version. -/
def Registered (P : Setup) (body : Body) (o : Outcome) (t : Shared) : Prop :=
  ∃ row ∈ t.db.versions.rows, row.judgmentId = body.judgmentId ∧ row.requestDigest = P.requestDigest body ∧
    o.versionDigest = row.digest

variable {body : Body}
variable {o : Outcome}

theorem Registered.later (h : Registered P body o s) (ht : Keeps P s t) : Registered P body o t := by
  obtain ⟨row, hrow, hrest⟩ := h
  exact ⟨row, ht.1.mem hrow, hrest⟩

variable {r : Prepared}

theorem Ready.later (h : Ready P r s) (hs : Inv P s) (ht : Keeps P s t) : Ready P r t := by
  obtain ⟨j, hj, hdeploy⟩ := h.judged
  refine ⟨h.judgment, ⟨j, ht.1.judged hj, hdeploy⟩, h.prior, ?_, ?_, h.now.trans ht.1.clock⟩
  · have hknown : Known r.version.baseDigest _ _ := h.known
    exact hknown.later ht
  · intro d hd
    obtain ⟨row, hrow, hkey, hfalse⟩ := h.stands d hd
    exact ⟨row, ht.1.mem hrow, hkey, ht.1.not_stands hs hrow hfalse⟩

theorem Wrote.registered {db' : VersionDb} (hr : r.version.judgmentId = r.body.judgmentId)
    (h : Wrote P r s.clock s.db o db') : Registered P r.body o { s with db := db' } := by
  cases h with
  | raced row hrow hrequest =>
    obtain ⟨hmem, hid⟩ := ofJudgment_eq_some hrow
    exact ⟨row, hmem, hid, hrequest, rfl⟩
  | created db' hfree hlive hroom hnew hfirst hrows hwithdrawals =>
    refine ⟨r.version.row P (P.requestDigest r.body) r.principal r.commandId s.clock, ?_, hr, rfl, rfl⟩
    show _ ∈ db'.versions.rows
    rw [hrows]
    simp

variable {f : Shared → Tx VersionDb α}

theorem onDb_ok (h : onDb f s = .ok v t) : ∃ db, f s s.db = .ok v db ∧ t = { s with db := db } := by
  unfold onDb at h
  cases hf : f s s.db with
  | ok w db =>
    rw [hf] at h
    cases h
    exact ⟨db, rfl, rfl⟩
  | error e db =>
    rw [hf] at h
    cases h

theorem onDb_error (h : onDb f s = .error e t) : ∃ db, f s s.db = .error e db ∧ t = { s with db := db } := by
  unfold onDb at h
  cases hf : f s s.db with
  | ok w db =>
    rw [hf] at h
    cases h
  | error e' db =>
    rw [hf] at h
    cases h
    exact ⟨db, rfl, rfl⟩

theorem onDb_transaction_error {commit : Option DeployError}
    (h : onDb (fun s => transaction commit (f s)) s = .error e t) : t = s := by
  obtain ⟨db, hdb, rfl⟩ := onDb_error h
  rw [transaction_error hdb]

theorem Runs.transaction {f : Answers → Shared → Tx VersionDb α}
    (h : ∀ t, Keeps P s t → ∀ a v db, f a t t.db = .ok v db →
      Keeps P t { t with db := db } ∧ Q v { t with db := db }) :
    Runs P Q (Prog.atomic fun a => onDb fun s => transaction a.commit (f a s)) s := by
  refine Safe.atomic ?_
  intro t ht a
  cases hf : onDb (fun s => Lib.transaction a.commit (f a s)) t with
  | ok v u =>
    obtain ⟨db, hdb, rfl⟩ := onDb_ok hf
    obtain ⟨hkeeps, hq⟩ := h t ht a v db (transaction_ok hdb)
    exact ⟨hkeeps, fun v' hv => by cases hv; exact hq⟩
  | error e u =>
    rw [onDb_transaction_error hf]
    exact ⟨ht.2.keeps_refl, fun v hv => by cases hv⟩

theorem write_runs (hs : Inv P s) (hr : Ready P r s) : Runs P (Registered P r.body) (write P r) s := by
  refine Runs.transaction (f := fun a s => writeTx P r a s.clock) ?_
  intro t ht a o db h
  have hwrote := writeTx_ok hr.judgment h
  exact ⟨hwrote.keeps ht.2 (hr.later hs ht), hwrote.registered hr.judgment⟩

theorem registrationRefusal_quiet {kind : VersionKind} :
    Quiet (registrationRefusal deployment id kind) := Quiet.read _

theorem onlyIf_quiet [Decidable c] {p : Call Unit} (h : Quiet p) : Quiet (Prog.onlyIf c p) := by
  unfold Prog.onlyIf
  split
  · exact h
  · exact quiet_pure

theorem checkBundle_quiet {initial : JudgmentFacts} : Quiet (checkBundle initial) :=
  Quiet.bind (Quiet.read _) fun _ => Quiet.bind quiet_refuseIf fun _ => Quiet.bind (Quiet.read _) fun _ =>
    Quiet.bind quiet_refuseIf fun _ => quiet_pure

variable {principal commandId : String}

theorem registerUnbound_runs (hs : Inv P s)
    (hj : s.judgments.get? body.judgmentId = some judgment) (hdeploy : judgment.verdict = .DEPLOY) :
    Runs P (Registered P body) (registerUnbound P body principal commandId judgment) s := by
  unfold registerUnbound
  refine Runs.bind hs (Runs.quiet (onlyIf_quiet registrationRefusal_quiet)) ?_
  intro _ t₁ ht₁ _
  refine Runs.bind ht₁.2 (line_runs ht₁.2) ?_
  rintro ⟨prior, initial⟩ t₂ ht₂ hknown
  refine Runs.bind ht₂.2 clock_runs ?_
  intro now t₃ ht₃ hnow
  refine Runs.bind ht₃.2 (Runs.quiet checkBundle_quiet) ?_
  intro expiresAt t₄ ht₄ _
  refine Runs.bind ht₄.2 (Runs.quiet (Quiet.read _)) ?_
  intro cooling t₅ ht₅ _
  refine Runs.bind ht₅.2 Runs.refuseIf ?_
  intro _ t₆ ht₆ _
  refine Runs.bind ht₆.2 (Runs.quiet (Quiet.done _)) ?_
  rintro ⟨first, expiry⟩ t₇ ht₇ _
  refine Runs.bind ht₇.2 (Runs.check (Q := fun v _ => v.toVersionFields =
    { baseDigest := P.deploymentDigest body.deployment, judgmentId := body.judgmentId, kind := judgment.kind,
      priorVersion := prior, firstSession := first, expirySession := expiry })
    fun v hv => DeploymentVersion.make_ok hv) ?_
  intro version t₈ ht₈ hversion
  refine Runs.bind ht₈.2 readSealed_runs ?_
  intro versions t₉ ht₉ hversions
  refine Runs.bind ht₉.2 readWithdrawn_runs ?_
  intro withdrawn t₁₀ ht₁₀ _
  have hsealed : ∀ v ∈ versions, ∃ row ∈ t₉.db.versions.rows, row.sealed = v := by
    intro v hv
    rw [hversions] at hv
    exact VersionDb.mem_inOrder.mp hv
  refine Runs.bind ht₁₀.2 (standsFor_runs ht₉.2 versions hsealed t₁₀ ht₁₀) ?_
  intro stands t ht hstands
  have h₃ : Keeps P t₃ t :=
    ht₄.trans (ht₅.trans (ht₆.trans (ht₇.trans (ht₈.trans (ht₉.trans (ht₁₀.trans ht))))))
  have h₂ : Keeps P t₂ t := ht₃.trans h₃
  have hall : Keeps P s t := ht₁.trans (ht₂.trans h₂)
  refine write_runs ht.2 ?_
  refine ⟨congrArg (·.judgmentId) hversion, ⟨judgment, hall.1.judged hj, hdeploy⟩,
    congrArg (·.priorVersion) hversion, ?_, ?_, hnow.le.trans h₃.1.clock⟩
  · have hbase : version.baseDigest = P.deploymentDigest body.deployment := congrArg (·.baseDigest) hversion
    rw [hbase]
    exact hknown.later h₂
  · intro d hd
    obtain ⟨row, hrow, hkey, -, hfalse⟩ := hstands _ (mem_of_lookup hd)
    exact ⟨row, (ht₁₀.trans ht).1.mem hrow, hkey, hfalse rfl⟩

theorem boundToJudgment_runs :
    Runs P (fun bound t => ∀ v ∈ bound, ∃ row ∈ t.db.versions.rows, row.judgmentId = id ∧ row.sealed = v)
      (boundToJudgment P id) s := by
  refine Runs.read ?_
  intro t _ a bound hbound v hv
  rcases boundTo_ok hbound with ⟨-, rfl⟩ | ⟨row, hrow, rfl⟩
  · cases hv
  · cases hv
    obtain ⟨hmem, hid⟩ := ofJudgment_eq_some hrow
    exact ⟨row, hmem, hid, rfl⟩

theorem register_runs (hs : Inv P s) : Runs P (Registered P body) (register P body principal commandId) s := by
  unfold register
  refine Runs.bind hs (deployJudgment_runs hs) ?_
  rintro judgment t ht ⟨hj, hdeploy⟩
  refine Runs.bind ht.2 boundToJudgment_runs ?_
  intro bound u hu hbound
  cases bound with
  | none => exact registerUnbound_runs hu.2 (hu.1.judged hj) hdeploy
  | some v =>
    obtain ⟨row, hrow, hid, rfl⟩ := hbound v rfl
    refine Runs.check ?_
    intro o ho
    obtain ⟨hrequest, rfl⟩ := existingOutcome_ok ho
    exact ⟨row, hrow, hid, hrequest, rfl⟩

/-! ## Withdrawals -/

variable {digest : Digest} {reason : String}

theorem withdraw_runs (hs : Inv P s) : Runs P (fun _ _ => True) (withdraw digest reason principal commandId) s := by
  refine Runs.bind hs clock_runs ?_
  intro now t ht _
  refine Runs.transaction (f := fun a _ => withdrawInTx digest reason principal commandId now a.inFlight) ?_
  intro u hu a newly db h
  exact ⟨withdrawInTx_keeps hu.2 h, trivial⟩

/-! ## Statuses -/

def NoneOver (l : List (Digest × VersionStatus)) : Prop := ∀ e ∈ l, e.2 ≠ .OVER_CAP

variable {withdrawn : List Digest} {today : Date}

theorem classify_noneOver {versions : List SealedVersion} {stands : Digest → Option Bool} {n : Nat} {unknown : Bool}
    (h : (standing versions withdrawn (fun d => (stands d).getD unknown) today).length ≤ n) :
    NoneOver (classify versions withdrawn stands today n unknown) := by
  intro e he
  rcases List.mem_append.mp he with he | he
  · obtain ⟨v, -, hv⟩ := List.mem_filterMap.mp he
    obtain ⟨status, hstatus, rfl⟩ := Option.map_eq_some_iff.mp hv
    exact (decided_not_standing hstatus).2.2
  · obtain ⟨rank, hrank, rfl⟩ := List.mem_mapIdx.mp he
    have hlt : rank < n := by
      rw [(List.perm_insertionSort _ _).length_eq] at hrank
      exact lt_of_lt_of_le hrank h
    unfold rankStatus
    simp only [if_neg (not_le.mpr hlt)]
    split <;> exact VersionStatus.noConfusion

/-- What is read later, one table after the other, never makes more versions stand than stood when the versions
were read. -/
theorem standing_le_cap {entries : List (Digest × Bool)} (h₀ : Inv P s₀) (hw : ∀ d ∈ s₀.db.withdrawnIds, d ∈ withdrawn)
    (hentries : ∀ e ∈ entries, Entry s₀ t e) (htoday : P.nyDate s₀.clock ≤ today) :
    (standing s₀.db.inOrder withdrawn (fun d => (entries.lookup d).getD false) today).length ≤ P.maxActive := by
  refine le_trans ?_ h₀.cap
  unfold standing standingNow
  rw [s₀.db.length_filter_inOrder]
  refine length_filter_le ?_
  intro row hrow hnone
  obtain ⟨hwith, hrenewed, hstands, hexpiry⟩ := decided_eq_none.mp (of_decide_eq_true hnone)
  refine decide_eq_true ⟨fun hc => hwith (hw _ hc), fun hc => hrenewed (h₀.mem_renewed.mpr hc), ?_, ?_⟩
  · have hlookup : entries.lookup row.digest = some true := by
      have hstands : (entries.lookup row.digest).getD false = true := hstands
      cases hl : entries.lookup row.digest with
      | none =>
        rw [hl] at hstands
        cases hstands
      | some b =>
        rw [hl] at hstands
        exact congrArg some hstands
    obtain ⟨row', hrow', hkey, htrue, -⟩ := hentries _ (mem_of_lookup hlookup)
    rw [← s₀.db.versions.eq_of_key hrow' hrow hkey]
    exact htrue rfl
  · exact fun hc => hexpiry (lt_of_lt_of_le hc htoday)

theorem statuses_runs (hs : Inv P s) : Runs P (fun l _ => NoneOver l) (statuses P) s := by
  unfold statuses
  refine Runs.bind hs readSealed_runs ?_
  intro versions s₀ hs₀ hversions
  refine Runs.bind hs₀.2 readWithdrawn_runs ?_
  intro withdrawn t₁ ht₁ hwithdrawn
  have hsealed : ∀ v ∈ versions, ∃ row ∈ s₀.db.versions.rows, row.sealed = v := by
    intro v hv
    rw [hversions] at hv
    exact VersionDb.mem_inOrder.mp hv
  refine Runs.bind ht₁.2 (standsFor_runs hs₀.2 versions hsealed t₁ ht₁) ?_
  intro entries t₂ ht₂ hentries
  refine Runs.bind ht₂.2 clock_runs ?_
  intro now t ht hnow
  refine Runs.pure (classify_noneOver ?_)
  rw [hversions]
  refine standing_le_cap hs₀.2 ?_ hentries ?_
  · intro d hd
    rw [hwithdrawn]
    exact ht₁.1.withdrawn hd
  · rw [hnow]
    exact P.nyDate_mono (ht₁.trans (ht₂.trans ht)).1.clock

/-! ## Retries -/

/-- **A request whose judgment it sealed before writes nothing and returns that version.** -/
theorem retry_runs (hs : Inv P s) (hrow : row ∈ s.db.versions.rows) (hid : row.judgmentId = body.judgmentId)
    (hrequest : row.requestDigest = P.requestDigest body) :
    Safe (Keeps P) Eq (fun r _ => r = .ok (outcome row.digest row.record false))
      (register P body principal commandId) s := by
  obtain ⟨j, hj, hdeploy⟩ := hs.judged row hrow
  rw [hid] at hj
  have hbound : ∀ t, Keeps P s t → boundTo P t.db body.judgmentId = .ok (some row.sealed) := by
    intro t ht
    unfold boundTo
    rw [← hid, ht.2.ofJudgment (ht.1.mem hrow)]
    show (parse P row).map some = _
    rw [ht.2.parses row (ht.1.mem hrow)]
    rfl
  have hjudgment : Safe (Keeps P) Eq (fun r t => r = .ok j ∧ Keeps P s t) (deployJudgment body.judgmentId) s := by
    refine Safe.bind (Q := fun r t => r = .ok (some j) ∧ Keeps P s t)
      (Safe.read fun t ht a => ⟨rfl, congrArg Except.ok (ht.1.judged hj), ht⟩) ?_ ?_
    · rintro v t ⟨hv, ht⟩
      cases hv
      simp only [if_neg (not_not.mpr hdeploy)]
      exact Safe.pure ⟨rfl, ht⟩
    · rintro e t ⟨he, -⟩
      cases he
  refine Safe.bind hjudgment ?_ ?_
  · rintro v t ⟨hv, ht⟩
    cases hv
    refine Safe.bind (Q := fun r _ => r = .ok (some row.sealed))
      (Safe.read fun u hu a => ⟨rfl, hbound u (ht.trans hu)⟩) ?_ ?_
    · rintro bound u hbound
      cases hbound
      refine Safe.check ?_
      unfold existingOutcome
      exact if_neg (not_not.mpr hrequest)
    · intro e u he
      cases he
  · rintro e t ⟨he, -⟩
    cases he

/-! ## Refused calls -/

theorem standsFor_quiet : ∀ l, Quiet (standsFor skip l) := by
  intro l
  induction l with
  | nil => exact quiet_pure
  | cons v l ih =>
    unfold standsFor
    split
    · exact ih
    · refine Quiet.bind (Quiet.read _) fun facts => ?_
      split
      · exact Quiet.bind (Quiet.read _) fun verdicts => Quiet.bind ih fun others => quiet_pure
      · exact Quiet.bind ih fun others => quiet_pure

theorem line_quiet : Quiet (line P judgment deployment) := by
  unfold line
  split
  · exact quiet_pure
  · exact quiet_raise
  · exact Quiet.bind (Quiet.read _) fun version => Quiet.bind quiet_refuseIf fun _ =>
      Quiet.bind (Quiet.read _) fun withdrawn => Quiet.bind quiet_refuseIf fun _ =>
      Quiet.bind (Quiet.read _) fun versions => Quiet.bind quiet_refuseIf fun _ =>
      Quiet.bind (initialJudgment_quiet _ _) fun initial => quiet_pure

theorem transaction_writesLast {f : Answers → Shared → Tx VersionDb α} :
    WritesLast (Prog.atomic fun a => onDb fun s => transaction a.commit (f a s)) := by
  refine WritesLast.atomic ?_
  intro a s e t h
  exact onDb_transaction_error h

theorem registerUnbound_writesLast : WritesLast (registerUnbound P body principal commandId judgment) := by
  unfold registerUnbound
  refine Quiet.bind_writesLast (onlyIf_quiet registrationRefusal_quiet) fun _ => ?_
  refine Quiet.bind_writesLast line_quiet fun found => ?_
  refine Quiet.bind_writesLast (Quiet.read _) fun now => ?_
  refine Quiet.bind_writesLast checkBundle_quiet fun expiresAt => ?_
  refine Quiet.bind_writesLast (Quiet.read _) fun cooling => ?_
  refine Quiet.bind_writesLast quiet_refuseIf fun _ => ?_
  refine Quiet.bind_writesLast (Quiet.done _) fun sessions => ?_
  refine Quiet.bind_writesLast (Quiet.done _) fun version => ?_
  refine Quiet.bind_writesLast (Quiet.read _) fun versions => ?_
  refine Quiet.bind_writesLast (Quiet.read _) fun withdrawn => ?_
  refine Quiet.bind_writesLast (standsFor_quiet _) fun stands => ?_
  exact transaction_writesLast (f := fun a s => writeTx P _ a s.clock)

theorem deployJudgment_quiet : Quiet (deployJudgment id) := by
  refine Quiet.bind (Quiet.read _) fun judgment => ?_
  split
  · exact quiet_raise
  · split
    · exact quiet_raise
    · exact quiet_pure

theorem register_writesLast : WritesLast (register P body principal commandId) := by
  refine Quiet.bind_writesLast deployJudgment_quiet fun judgment => ?_
  refine Quiet.bind_writesLast (Quiet.read _) fun bound => ?_
  split
  · exact (Quiet.done _).writesLast
  · exact registerUnbound_writesLast

theorem withdraw_writesLast : WritesLast (withdraw digest reason principal commandId) :=
  Quiet.bind_writesLast (Quiet.read _) fun now =>
    transaction_writesLast (f := fun a _ => withdrawInTx digest reason principal commandId now a.inFlight)

theorem statuses_quiet : Quiet (statuses P) :=
  Quiet.bind (Quiet.read _) fun _ => Quiet.bind (Quiet.read _) fun _ => Quiet.bind (standsFor_quiet _) fun _ =>
    Quiet.bind (Quiet.read _) fun _ => quiet_pure

theorem program_writesLast (k : Request) : WritesLast (k.program P) := by
  cases k with
  | register body principal commandId => exact register_writesLast.map
  | withdraw digest reason principal commandId => exact withdraw_writesLast.map
  | statuses => exact statuses_quiet.writesLast.map

/-! ## The system -/

/-- What a finished call of the system says. -/
def Result.Fine : Result → Prop
  | .statuses l => NoneOver l
  | _ => True

theorem program_runs (hs : Inv P s) (k : Request) : Runs P (fun r _ => r.Fine) (k.program P) s := by
  cases k with
  | register body principal commandId =>
    exact Runs.bind hs (register_runs hs) fun _ _ _ _ => Runs.pure trivial
  | withdraw digest reason principal commandId =>
    exact Runs.bind hs (withdraw_runs hs) fun _ _ _ _ => Runs.pure trivial
  | statuses => exact Runs.bind hs (statuses_runs hs) fun l _ _ hl => Runs.pure hl

/-- **The system of all calls keeps to `Keeps`.** -/
theorem deployments_sound (P : Setup) : Sound (deployments P) (Inv P) (Keeps P) (Post fun r _ => r.Fine) where
  refl _ hs := hs.keeps_refl
  trans _ _ _ h h' := h.trans h'
  inv _ _ h := h.2
  env e _ hs := event_keeps hs e
  main k _ hs := program_runs hs k
  later _ _ _ _ h := h
  raised _ _ v hv := by cases hv

theorem start_inv {judgments : Table JudgmentFacts.judgmentId} {bases : Table DeploymentRow.digest}
    {authored : Table AuthoredRecord.digest} {clock : Int} : Inv P (start judgments bases authored clock).shared := by
  refine ⟨?_, ?_, ?_, Lineage.Descends.nil, ?_, ?_, Nat.zero_le _⟩
  · exact fun r hr => absurd hr List.not_mem_nil
  · exact fun r hr => absurd hr List.not_mem_nil
  · exact fun r hr => absurd hr List.not_mem_nil
  · exact fun d hd => absurd hd List.not_mem_nil
  · exact fun r hr => absurd hr List.not_mem_nil

end MmrTrader.Deployment
