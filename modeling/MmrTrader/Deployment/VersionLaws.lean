import MmrTrader.Lib.Lineage
import MmrTrader.Deployment.Registration

/-!
# What every step keeps of the deployment versions

* `Inv` — the tables parse, each judgment seals one version, each version has at most one successor and
  that one is earlier in nobody's line, no version is both renewed and withdrawn, and at most `maxActive`
  versions stand.
* `Later` — what every step keeps: rows are only added, and the clock does not go back.
* `Keeps` — both: the relation every call of the system keeps to.
* `event_keeps`, `withdrawInTx_keeps`, `writeTx_keeps` — the clock, the judgments and the two transactions.

The cap rests on `writeTx_room`: what the transaction of a registration counts, read earlier as it may be, is
never less than what stands.
-/

namespace MmrTrader.Deployment

open MmrTrader.Lib MmrTrader.Lib.Interleaving

/-! ## The invariant -/

/-- `stands_for` of one version, at one moment. -/
def judgmentStands (judgments : Table JudgmentFacts.judgmentId) (r : VersionRow) : Bool :=
  (judgments.get? r.judgmentId).map (·.verdict) = some .DEPLOY ∧
    (verdictsOn judgments.rows r.digest).all (· = .DEPLOY)

/-- `{prior_version}` of all rows. -/
def VersionDb.renewedIds (db : VersionDb) : List Digest := db.versions.rows.filterMap (·.priorVersion)

/-- Neither withdrawn, nor renewed, nor judgment-ended, nor expired. -/
def Stands (P : Setup) (s : Shared) (r : VersionRow) : Prop :=
  r.digest ∉ s.db.withdrawnIds ∧ r.digest ∉ s.db.renewedIds ∧ judgmentStands s.judgments r = true ∧
    ¬ r.record.expirySession < P.nyDate s.clock

instance (P : Setup) (s : Shared) (r : VersionRow) : Decidable (Stands P s r) := inferInstanceAs (Decidable (_ ∧ _))

def standingNow (P : Setup) (s : Shared) : List VersionRow := s.db.versions.rows.filter fun r => Stands P s r

structure Inv (P : Setup) (s : Shared) : Prop where
  parses : ∀ r ∈ s.db.versions.rows, parse P r = .ok r.sealed
  oneVersion : ∀ r ∈ s.db.versions.rows, ∀ r' ∈ s.db.versions.rows, r.judgmentId = r'.judgmentId → r = r'
  oneRenewal : ∀ r ∈ s.db.versions.rows, ∀ r' ∈ s.db.versions.rows, r.priorVersion ≠ none →
    r.priorVersion = r'.priorVersion → r = r'
  descends : Lineage.Descends VersionRow.priorVersion VersionRow.digest VersionRow.baseDigest s.db.versions.rows
  apart : ∀ d ∈ s.db.renewedIds, d ∉ s.db.withdrawnIds
  judged : ∀ r ∈ s.db.versions.rows, ∃ j, s.judgments.get? r.judgmentId = some j ∧ j.verdict = .DEPLOY
  cap : (standingNow P s).length ≤ P.maxActive

structure Later (s t : Shared) : Prop where
  versions : s.db.versions.rows <+: t.db.versions.rows
  withdrawals : s.db.withdrawals.rows <+: t.db.withdrawals.rows
  judgments : s.judgments.rows <+: t.judgments.rows
  clock : s.clock ≤ t.clock

/-- What every step of every call keeps to. -/
def Keeps (P : Setup) (s t : Shared) : Prop := Later s t ∧ Inv P t

variable {P : Setup} {s t u : Shared}

theorem Later.refl (s : Shared) : Later s s :=
  ⟨List.prefix_refl _, List.prefix_refl _, List.prefix_refl _, le_refl _⟩

theorem Later.trans (h : Later s t) (h' : Later t u) : Later s u :=
  ⟨h.versions.trans h'.versions, h.withdrawals.trans h'.withdrawals, h.judgments.trans h'.judgments,
    h.clock.trans h'.clock⟩

variable {r : VersionRow}

theorem Later.mem (h : Later s t) (hr : r ∈ s.db.versions.rows) : r ∈ t.db.versions.rows :=
  h.versions.subset hr

theorem get?_of_prefix {R K : Type} [DecidableEq K] {key : R → K} {a b : Table key} (h : a.rows <+: b.rows) {k : K}
    {r : R} (hr : a.get? k = some r) : b.get? k = some r := by
  obtain ⟨hmem, hkey⟩ := Table.get?_eq_some.mp hr
  exact Table.get?_eq_some.mpr ⟨h.subset hmem, hkey⟩

variable {id : String}

theorem Later.judged (h : Later s t) {j : JudgmentFacts} (hj : s.judgments.get? id = some j) :
    t.judgments.get? id = some j := get?_of_prefix h.judgments hj

theorem verdictsOn_extends {a b : List JudgmentFacts} (h : a <+: b) (d : Digest) : verdictsOn a d <+: verdictsOn b d :=
  (h.filter _).map _

theorem Later.stood (h : Later s t) (hs : Inv P s) (hr : r ∈ s.db.versions.rows)
    (ht : judgmentStands t.judgments r = true) : judgmentStands s.judgments r = true := by
  obtain ⟨j, hj, hdeploy⟩ := hs.judged r hr
  unfold judgmentStands at ht ⊢
  simp only [decide_eq_true_eq] at ht ⊢
  refine ⟨by rw [hj]; exact congrArg some hdeploy, ?_⟩
  rw [List.all_eq_true] at ht ⊢
  exact fun v hv => ht.2 v ((verdictsOn_extends h.judgments r.digest).subset hv)

variable {d : Digest}

theorem Later.withdrawn (h : Later s t) (hd : d ∈ s.db.withdrawnIds) : d ∈ t.db.withdrawnIds :=
  (h.withdrawals.map _).subset hd

theorem Later.renewed (h : Later s t) (hd : d ∈ s.db.renewedIds) : d ∈ t.db.renewedIds :=
  (h.versions.filterMap _).subset hd

theorem Later.stands (h : Later s t) (hs : Inv P s) (hr : r ∈ s.db.versions.rows) (ht : Stands P t r) : Stands P s r := by
  obtain ⟨hw, hr', hj, he⟩ := ht
  refine ⟨fun hc => hw (h.withdrawn hc), fun hc => hr' (h.renewed hc), h.stood hs hr hj, ?_⟩
  exact fun hc => he (lt_of_lt_of_le hc (P.nyDate_mono h.clock))

variable {α : Type}
variable {l : List α} {p : α → Bool}

theorem length_filter_le {q : α → Bool} (h : ∀ a ∈ l, p a = true → q a = true) : (l.filter p).length ≤ (l.filter q).length := by
  rw [← List.countP_eq_length_filter, ← List.countP_eq_length_filter]
  exact List.countP_mono_left h

theorem Later.standing_le (h : Later s t) (hs : Inv P s) (hsame : t.db.versions.rows = s.db.versions.rows) :
    (standingNow P t).length ≤ (standingNow P s).length := by
  unfold standingNow
  rw [hsame]
  refine length_filter_le ?_
  intro r hr ht
  exact decide_eq_true (h.stands hs hr (of_decide_eq_true ht))

theorem Later.keeps (h : Later s t) (hs : Inv P s) (hsame : t.db.versions = s.db.versions)
    (hapart : ∀ d ∈ s.db.renewedIds, d ∉ t.db.withdrawnIds) : Keeps P s t := by
  have hrenewed : t.db.renewedIds = s.db.renewedIds := by
    unfold VersionDb.renewedIds
    rw [hsame]
  refine ⟨h, ?_, ?_, ?_, ?_, ?_, ?_, ?_⟩
  · rw [hsame]
    exact hs.parses
  · rw [hsame]
    exact hs.oneVersion
  · rw [hsame]
    exact hs.oneRenewal
  · rw [hsame]
    exact hs.descends
  · rw [hrenewed]
    exact hapart
  · rw [hsame]
    intro r hr
    obtain ⟨j, hj, hdeploy⟩ := hs.judged r hr
    exact ⟨j, h.judged hj, hdeploy⟩
  · exact (h.standing_le hs (by rw [hsame])).trans hs.cap

theorem Inv.keeps_refl (hs : Inv P s) : Keeps P s s := ⟨Later.refl s, hs⟩

theorem Keeps.trans (h : Keeps P s t) (h' : Keeps P t u) : Keeps P s u := ⟨h.1.trans h'.1, h'.2⟩

/-! ## The clock, the judgments and the authored records -/

theorem event_keeps (hs : Inv P s) (e : Event) : Keeps P s (s.event e) := by
  have hpre : ∀ {α : Type} (l : List α), l <+: l := List.prefix_refl
  cases e with
  | tick now =>
    refine Later.keeps (t := { s with clock := max s.clock now }) ?_ hs rfl hs.apart
    exact ⟨hpre _, hpre _, hpre _, le_max_left _ _⟩
  | judge facts =>
    cases hi : s.judgments.insert? facts with
    | none =>
      simp only [Shared.event, hi]
      exact hs.keeps_refl
    | some judgments =>
      simp only [Shared.event, hi]
      refine Later.keeps (t := { s with judgments := judgments }) ?_ hs rfl hs.apart
      refine ⟨hpre _, hpre _, ?_, le_refl _⟩
      rw [(Table.insert?_eq_some hi).2]
      exact List.prefix_append _ _
  | authored records =>
    refine Later.keeps (t := { s with db := { s.db with authored := records } }) ?_ hs rfl hs.apart
    exact ⟨hpre _, hpre _, hpre _, le_refl _⟩

/-! ## Finding rows -/

variable {db : VersionDb}

theorem ofJudgment_eq_some (h : db.ofJudgment id = some r) : r ∈ db.versions.rows ∧ r.judgmentId = id :=
  ⟨List.mem_of_find?_eq_some h, by simpa using List.find?_some h⟩

theorem ofJudgment_eq_none (h : db.ofJudgment id = none) : ∀ r ∈ db.versions.rows, r.judgmentId ≠ id := by
  simpa [VersionDb.ofJudgment] using h

theorem Inv.ofJudgment (hs : Inv P s) (hr : r ∈ s.db.versions.rows) : s.db.ofJudgment r.judgmentId = some r := by
  cases hf : s.db.ofJudgment r.judgmentId with
  | none => exact absurd rfl (ofJudgment_eq_none hf r hr)
  | some r' =>
    obtain ⟨hmem, hid⟩ := ofJudgment_eq_some hf
    rw [hs.oneVersion r' hmem r hr hid]

theorem successor_eq_none (h : db.successor d = none) : d ∉ db.renewedIds := by
  intro hd
  obtain ⟨r, hr, hp⟩ := List.mem_filterMap.mp hd
  have hne : ∀ r ∈ db.versions.rows, ¬ r.priorVersion = some d := by simpa [VersionDb.successor] using h
  exact hne r hr hp

/-! ## Withdrawals -/

variable {digest : Digest} {principal commandId : String} {now : Int} {db' : VersionDb}
variable {reason : String} {inFlight : List String} {newly : Bool}

theorem withdrawInTx_ok (h : withdrawInTx digest reason principal commandId now inFlight db = .ok newly db') :
    (newly = false ∧ db' = db) ∨
      (newly = true ∧ digest ∉ db.renewedIds ∧ ∃ withdrawals : Table WithdrawalRow.versionDigest,
        withdrawals.rows = db.withdrawals.rows ++ [⟨digest, reason, principal, commandId, now⟩] ∧
        db' = { db with withdrawals := withdrawals }) := by
  unfold withdrawInTx at h
  have h := Tx.get_bind_ok h
  obtain ⟨-, h⟩ := Tx.refuseIf_bind_ok h
  by_cases hw : isWithdrawn db digest
  · rw [if_pos hw] at h
    cases h
    exact Or.inl ⟨rfl, rfl⟩
  · rw [if_neg hw] at h
    cases hsucc : db.successor digest with
    | some successor =>
      rw [hsucc] at h
      cases h
    | none =>
      rw [hsucc] at h
      obtain ⟨-, h⟩ := Tx.refuseIf_bind_ok h
      obtain ⟨_, mid, hinsert, h⟩ := Tx.bind_ok h
      cases h
      unfold insertWithdrawal at hinsert
      have hinsert := Tx.get_bind_ok hinsert
      cases hi : db.withdrawals.insert? ⟨digest, reason, principal, commandId, now⟩ with
      | none =>
        rw [hi] at hinsert
        cases hinsert
      | some rows =>
        rw [hi] at hinsert
        cases hinsert
        exact Or.inr ⟨rfl, successor_eq_none hsucc, rows, (Table.insert?_eq_some hi).2, rfl⟩

theorem withdrawInTx_keeps (hs : Inv P s)
    (h : withdrawInTx digest reason principal commandId now inFlight s.db = .ok newly db') : Keeps P s { s with db := db' } := by
  rcases withdrawInTx_ok h with ⟨-, rfl⟩ | ⟨-, hfree, withdrawals, hrows, rfl⟩
  · exact hs.keeps_refl
  · refine Later.keeps ⟨List.prefix_refl _, ?_, List.prefix_refl _, le_refl _⟩ hs rfl ?_
    · rw [hrows]
      exact List.prefix_append _ _
    · intro d hd hmem
      unfold VersionDb.withdrawnIds at hmem
      rw [hrows, List.map_append, List.mem_append] at hmem
      rcases hmem with hmem | hmem
      · exact hs.apart d hd hmem
      · simp only [List.map_cons, List.map_nil, List.mem_singleton] at hmem
        subst hmem
        exact hfree hd

/-! ## What the transaction of a registration wrote -/

variable {row : VersionRow}

theorem insertVersion_ok (h : insertVersion row db = .ok () db') :
    db.ofJudgment row.judgmentId = none ∧ row.priorVersion.bind db.successor = none ∧
      ∃ versions : Table VersionRow.digest, versions.rows = db.versions.rows ++ [row] ∧
        db' = { db with versions := versions } := by
  unfold insertVersion at h
  have h := Tx.get_bind_ok h
  obtain ⟨hj, h⟩ := Tx.refuseIf_bind_ok h
  obtain ⟨hp, h⟩ := Tx.refuseIf_bind_ok h
  cases hi : db.versions.insert? row with
  | none =>
    rw [hi] at h
    cases h
  | some rows =>
    rw [hi] at h
    cases h
    exact ⟨by simpa using hj, by simpa using hp, rows, (Table.insert?_eq_some hi).2, rfl⟩

def SameVersions (db db' : VersionDb) : Prop := db'.versions = db.versions ∧ db'.withdrawals = db.withdrawals

variable {deployment : AiDeployment}

theorem registerInTx_same (h : registerInTx P deployment principal commandId now db = .ok () db') : SameVersions db db' := by
  unfold registerInTx at h
  have h := Tx.get_bind_ok h
  cases hi : db.deployments.insert? ⟨P.deploymentDigest deployment, deployment, principal, commandId, now⟩ with
  | none =>
    simp only [hi] at h
    cases h
    exact ⟨rfl, rfl⟩
  | some rows =>
    simp only [hi] at h
    cases h
    exact ⟨rfl, rfl⟩

variable {judgmentId : String}

theorem requireRegistrableInTx_same {kind : VersionKind} {unproven : Option DeployError}
    (h : requireRegistrableInTx deployment judgmentId kind unproven db = .ok () db') : db' = db := by
  unfold requireRegistrableInTx at h
  have h := Tx.get_bind_ok h
  obtain ⟨-, h⟩ := Tx.refuseIf_bind_ok h
  cases unproven with
  | some e => cases h
  | none =>
    cases h
    rfl

theorem markDeployedInTx_same (h : markDeployedInTx deployment judgmentId digest now db = .ok () db') : SameVersions db db' := by
  unfold markDeployedInTx at h
  have h := Tx.get_bind_ok h
  obtain ⟨-, h⟩ := Tx.refuseIf_bind_ok h
  cases h
  exact ⟨rfl, rfl⟩

variable {o : Outcome}

theorem existingOutcome_ok {bound : SealedVersion} (h : existingOutcome bound d = .ok o) :
    bound.requestDigest = d ∧ o = outcome bound.digest bound.version false := by
  unfold existingOutcome at h
  split at h
  · cases h
  · rename_i hd
    cases h
    exact ⟨not_not.mp hd, rfl⟩

variable {v : SealedVersion}

theorem parse_ok (h : parse P row = .ok v) :
    v = row.sealed ∧ P.versionDigest row.record = row.digest ∧ row.judgmentId = row.record.judgmentId ∧
      row.baseDigest = row.record.baseDigest ∧ row.priorVersion = row.record.priorVersion := by
  unfold parse at h
  split at h
  · cases h
  split at h
  · cases h
  · rename_i hdigest hcolumns
    cases h
    have hcolumns := not_not.mp hcolumns
    simp only [Prod.mk.injEq] at hcolumns
    exact ⟨rfl, not_not.mp hdigest, hcolumns⟩

theorem boundTo_ok {bound : Option SealedVersion} (h : boundTo P db id = .ok bound) :
    (db.ofJudgment id = none ∧ bound = none) ∨ ∃ row, db.ofJudgment id = some row ∧ bound = some row.sealed := by
  unfold boundTo at h
  cases hf : db.ofJudgment id with
  | none =>
    rw [hf] at h
    cases h
    exact Or.inl ⟨rfl, rfl⟩
  | some row =>
    rw [hf] at h
    obtain ⟨v, hv, rfl⟩ := map_ok h
    exact Or.inr ⟨row, rfl, congrArg some (parse_ok hv).1⟩

/-- What `_require_room_in_tx` found: fewer than the cap stand besides the version to be renewed. -/
def Room (P : Setup) (db : VersionDb) (r : Prepared) : Prop :=
  ∃ versions, sealedIn P db = .ok versions ∧
    ((classify versions db.withdrawnIds (fun d => r.stands.lookup d) (P.nyDate r.now) 1000000 true).filter
      fun entry => decide ((entry.2 = .ACTIVE ∨ entry.2 = .NOT_STARTED) ∧ some entry.1 ≠ r.prior)).length < P.maxActive

/-- How the transaction of a registration can return. -/
inductive Wrote (P : Setup) (r : Prepared) (clock : Int) (db : VersionDb) : Outcome → VersionDb → Prop where
  /-- The judgment was sealed by the same request before. -/
  | raced (row : VersionRow) (hrow : db.ofJudgment r.body.judgmentId = some row)
      (hrequest : row.requestDigest = P.requestDigest r.body) : Wrote P r clock db (outcome row.digest row.record false) db
  | created (db' : VersionDb) (hfree : db.ofJudgment r.body.judgmentId = none)
      (hlive : ∀ p ∈ r.prior, p ∉ db.withdrawnIds) (hroom : Room P db r)
      (hnew : db.ofJudgment r.version.judgmentId = none) (hfirst : r.version.priorVersion.bind db.successor = none)
      (hrows : db'.versions.rows = db.versions.rows ++
        [r.version.row P (P.requestDigest r.body) r.principal r.commandId clock])
      (hwithdrawals : db'.withdrawals = db.withdrawals) :
      Wrote P r clock db (outcome (P.versionDigest r.version) r.version true) db'

theorem requireRoomInTx_ok {r : Prepared}
    (h : requireRoomInTx P r.stands (P.nyDate r.now) r.prior db = .ok () db') : db' = db ∧ Room P db r := by
  unfold requireRoomInTx at h
  have h := Tx.get_bind_ok h
  obtain ⟨versions, hversions, h⟩ := Tx.check_bind_ok h
  obtain ⟨hroom, rfl⟩ := Tx.refuseIf_ok h
  exact ⟨rfl, versions, hversions, not_le.mp hroom⟩

theorem sealInTx_ok {version : DeploymentVersion} {requestDigest : Digest}
    {created : Bool} (hfree : db.ofJudgment version.judgmentId = none)
    (h : sealInTx P version requestDigest principal commandId now db = .ok (d, created) db') :
    d = P.versionDigest version ∧ created = true ∧ version.priorVersion.bind db.successor = none ∧
      ∃ versions : Table VersionRow.digest,
        versions.rows = db.versions.rows ++ [version.row P requestDigest principal commandId now] ∧
        db' = { db with versions := versions } := by
  unfold sealInTx at h
  have h := Tx.get_bind_ok h
  simp only [hfree] at h
  obtain ⟨-, h⟩ := Tx.refuseIf_bind_ok h
  obtain ⟨_, mid, hinsert, h⟩ := Tx.bind_ok h
  cases h
  obtain ⟨-, hfirst, versions, hrows, rfl⟩ := insertVersion_ok hinsert
  exact ⟨rfl, rfl, hfirst, versions, hrows, rfl⟩

/-- **What the transaction of a registration did when it returned.** -/
theorem writeTx_ok {r : Prepared} {a : Answers} {clock : Int}
    (hid : r.version.judgmentId = r.body.judgmentId) (h : writeTx P r a clock db = .ok o db') : Wrote P r clock db o db' := by
  unfold writeTx at h
  have h := Tx.get_bind_ok h
  obtain ⟨raced, hraced, h⟩ := Tx.check_bind_ok h
  rcases boundTo_ok hraced with ⟨hfree, rfl⟩ | ⟨row, hrow, rfl⟩
  · obtain ⟨hlive, h⟩ := Tx.refuseIf_bind_ok h
    obtain ⟨-, h⟩ := Tx.refuseIf_bind_ok h
    obtain ⟨_, mid, hroom, h⟩ := Tx.bind_ok h
    obtain ⟨hmid, hroom⟩ := requireRoomInTx_ok hroom
    obtain ⟨_, mid₁, hregister, h⟩ := Tx.bind_ok h
    rw [hmid] at hregister
    have hsame₁ := registerInTx_same hregister
    obtain ⟨_, mid₂, hproven, h⟩ := Tx.bind_ok h
    have hsame₂ : SameVersions db mid₂ := by
      rcases Tx.onlyIf_ok hproven with ⟨-, hproven⟩ | ⟨-, hproven⟩
      · rw [requireRegistrableInTx_same hproven]
        exact hsame₁
      · rw [hproven]
        exact hsame₁
    obtain ⟨⟨d, created⟩, mid₃, hseal, h⟩ := Tx.bind_ok h
    have hnew : db.ofJudgment r.version.judgmentId = none := by rw [hid]; exact hfree
    have hnew₂ : mid₂.ofJudgment r.version.judgmentId = none := by
      unfold VersionDb.ofJudgment at hnew ⊢
      rw [hsame₂.1]
      exact hnew
    obtain ⟨hd, hcreated, hfirst, versions, hrows, hmid₃⟩ := sealInTx_ok hnew₂ hseal
    subst hd hcreated hmid₃
    obtain ⟨_, mid₄, hmark, h⟩ := Tx.bind_ok h
    have hsame₄ : SameVersions { mid₂ with versions := versions } mid₄ := by
      rcases Tx.onlyIf_ok hmark with ⟨-, hmark⟩ | ⟨-, hmark⟩
      · exact markDeployedInTx_same hmark
      · rw [hmark]
        exact ⟨rfl, rfl⟩
    have hsucc : mid₂.successor = db.successor := by
      unfold VersionDb.successor
      rw [hsame₂.1]
    cases h
    refine .created db' hfree ?_ hroom hnew ?_ ?_ ?_
    · intro p hp hw
      exact hlive ⟨p, hp, hw⟩
    · rw [← hsucc]
      exact hfirst
    · rw [hsame₄.1, hrows, hsame₂.1]
    · rw [hsame₄.2]
      exact hsame₂.2
  · obtain ⟨ho, hdb⟩ := Tx.check_ok h
    obtain ⟨hrequest, ho⟩ := existingOutcome_ok ho
    rw [ho, hdb]
    exact .raced row hrow hrequest

/-! ## Counting -/

variable {today : Date}
variable {versions : List SealedVersion}

theorem decided_eq_none {withdrawn : List Digest} {stands : Digest → Bool}
    : decided versions withdrawn stands today v = none ↔
      v.digest ∉ withdrawn ∧ v.digest ∉ renewed versions ∧ stands v.digest = true ∧
        ¬ v.version.expirySession < today := by
  unfold decided
  split
  · simp [*]
  split
  · simp [*]
  split
  · simp [*]
  split
  · simp [*]
  · rename_i hw hr hs he
    simp only [Bool.not_eq_false] at hs
    exact ⟨fun _ => ⟨hw, hr, hs, he⟩, fun _ => rfl⟩

theorem decided_not_standing {withdrawn : List Digest} {stands : Digest → Bool}
    {status : VersionStatus} (h : decided versions withdrawn stands today v = some status) :
    status ≠ .ACTIVE ∧ status ≠ .NOT_STARTED ∧ status ≠ .OVER_CAP := by
  unfold decided at h
  split at h
  · cases h
    decide
  split at h
  · cases h
    decide
  split at h
  · cases h
    decide
  split at h
  · cases h
    decide
  · cases h

/-- The entries of the first `n` ranks, counted by a property of the version alone. -/
theorem length_filter_mapIdx {β : Type} {q : β → Bool} (l : List α) :
    ∀ (n : Nat) (f : Nat → α → β), (∀ i a, i < n → q (f i a) = p a) →
      ((l.take n).filter p).length ≤ ((l.mapIdx f).filter q).length := by
  induction l with
  | nil => intro n f _; simp
  | cons a l ih =>
    intro n f hf
    cases n with
    | zero => simp
    | succ n =>
      have hrest := ih n (fun i => f (i + 1)) fun i b hi => hf (i + 1) b (Nat.succ_lt_succ hi)
      have hfirst : q (f 0 a) = p a := hf 0 a (Nat.succ_pos n)
      rw [List.take_succ_cons, List.mapIdx_cons, List.filter_cons, List.filter_cons, hfirst]
      split
      · simpa using hrest
      · exact hrest

theorem length_filter_key_le {κ : Type} [DecidableEq κ] {key : α → κ} (hn : (l.map key).Nodup)
    (k : Option κ) : l.length ≤ (l.filter fun a => decide (some (key a) ≠ k)).length + 1 := by
  induction l with
  | nil => simp
  | cons a l ih =>
    rw [List.map_cons, List.nodup_cons] at hn
    rw [List.filter_cons]
    by_cases ha : some (key a) = k
    · have hall : l.filter (fun b => decide (some (key b) ≠ k)) = l := by
        refine List.filter_eq_self.mpr ?_
        intro b hb
        refine decide_eq_true ?_
        rw [← ha]
        intro heq
        exact hn.1 (List.mem_map.mpr ⟨b, hb, Option.some.inj heq⟩)
      rw [hall]
      simp [ha]
    · rw [if_pos (decide_eq_true ha), List.length_cons, List.length_cons]
      exact Nat.succ_le_succ (ih hn.2)

/-- With room below the cap, all versions `classify` ranked were counted. -/
theorem ranked_of_room {ranked : List SealedVersion} {excluding : Option Digest} {n : Nat}
    (hn : n ≤ 20) (hnodup : (ranked.map (·.digest)).Nodup)
    (h : ((ranked.mapIdx fun rank s => rankStatus 1000000 today s rank).filter fun entry =>
      decide ((entry.2 = .ACTIVE ∨ entry.2 = .NOT_STARTED) ∧ some entry.1 ≠ excluding)).length < n) :
    (ranked.filter fun s => decide (some s.digest ≠ excluding)).length < n := by
  have hcount := length_filter_mapIdx (p := fun s : SealedVersion => decide (some s.digest ≠ excluding))
    (q := fun entry : Digest × VersionStatus =>
      decide ((entry.2 = .ACTIVE ∨ entry.2 = .NOT_STARTED) ∧ some entry.1 ≠ excluding))
    ranked 1000000 (fun rank s => rankStatus 1000000 today s rank) ?_
  · have htake : ranked.take 1000000 = ranked := by
      have htaken : ((ranked.take 1000000).map (·.digest)).Nodup := by
        rw [List.map_take]
        exact (List.take_sublist _ _).nodup hnodup
      have hle := length_filter_key_le htaken excluding
      have hlen : (ranked.take 1000000).length < 1000000 := by
        have hlt := lt_of_le_of_lt hcount h
        omega
      rw [List.length_take] at hlen
      exact List.take_of_length_le (by omega)
    rw [htake] at hcount
    exact lt_of_le_of_lt hcount h
  · intro i s hi
    unfold rankStatus
    rw [if_neg (not_le.mpr hi)]
    by_cases hstart : s.version.firstSession ≤ today
    · rw [if_pos hstart]
      simp
    · rw [if_neg hstart]
      simp

/-! ## Reading all versions -/

/-- `ORDER BY sealed_at, digest`. -/
def VersionDb.inOrder (db : VersionDb) : List SealedVersion :=
  (db.versions.rows.insertionSort sealedBefore).map VersionRow.sealed

theorem Inv.sealedIn_eq (hs : Inv P s) : sealedIn P s.db = .ok s.db.inOrder := by
  refine mapM_eq_ok ?_
  intro r hr
  exact hs.parses r ((List.perm_insertionSort _ _).mem_iff.mp hr)

theorem VersionDb.inOrder_perm (db : VersionDb) : db.inOrder.Perm (db.versions.rows.map VersionRow.sealed) :=
  (List.perm_insertionSort _ _).map _

theorem VersionDb.mem_inOrder : v ∈ db.inOrder ↔ ∃ r ∈ db.versions.rows, r.sealed = v := by
  rw [db.inOrder_perm.mem_iff, List.mem_map]

theorem Inv.columns (hs : Inv P s) (hr : r ∈ s.db.versions.rows) :
    P.versionDigest r.record = r.digest ∧ r.judgmentId = r.record.judgmentId ∧ r.baseDigest = r.record.baseDigest ∧
      r.priorVersion = r.record.priorVersion :=
  (parse_ok (hs.parses r hr)).2

theorem Inv.mem_renewed (hs : Inv P s) : d ∈ renewed s.db.inOrder ↔ d ∈ s.db.renewedIds := by
  unfold renewed VersionDb.renewedIds
  rw [List.mem_filterMap, List.mem_filterMap]
  constructor
  · rintro ⟨v, hv, hd⟩
    obtain ⟨r, hr, rfl⟩ := VersionDb.mem_inOrder.mp hv
    exact ⟨r, hr, (hs.columns hr).2.2.2.trans hd⟩
  · rintro ⟨r, hr, hd⟩
    exact ⟨r.sealed, VersionDb.mem_inOrder.mpr ⟨r, hr, rfl⟩, (hs.columns hr).2.2.2.symm.trans hd⟩

theorem VersionDb.length_filter_inOrder (db : VersionDb) (p : SealedVersion → Bool) :
    (db.inOrder.filter p).length = (db.versions.rows.filter fun r => p r.sealed).length := by
  rw [(db.inOrder_perm.filter p).length_eq, List.filter_map, List.length_map]
  rfl

theorem VersionDb.nodup_inOrder (db : VersionDb) : (db.inOrder.map (·.digest)).Nodup := by
  have h : (db.inOrder.map (·.digest)).Perm (db.versions.rows.map VersionRow.digest) := by
    have := db.inOrder_perm.map (·.digest)
    rwa [List.map_map] at this
  exact h.nodup_iff.mpr db.versions.nodup

/-! ## The room of a registration -/

/-- What a registration knows when its transaction begins. -/
structure Ready (P : Setup) (r : Prepared) (s : Shared) : Prop where
  judgment : r.version.judgmentId = r.body.judgmentId
  judged : ∃ j, s.judgments.get? r.body.judgmentId = some j ∧ j.verdict = .DEPLOY
  prior : r.version.priorVersion = r.prior
  known : ∀ d ∈ r.prior, ∃ p ∈ s.db.versions.rows, p.digest = d ∧ p.baseDigest = r.version.baseDigest
  stands : ∀ d, r.stands.lookup d = some false →
    ∃ row ∈ s.db.versions.rows, row.digest = d ∧ judgmentStands s.judgments row = false
  now : r.now ≤ s.clock

theorem Ready.room {r : Prepared} (hr : Ready P r s) (hs : Inv P s) (hroom : Room P s.db r) :
    (s.db.versions.rows.filter fun row => decide (Stands P s row ∧ some row.digest ≠ r.prior)).length <
      P.maxActive := by
  obtain ⟨versions, hversions, hlt⟩ := hroom
  rw [hs.sealedIn_eq] at hversions
  cases hversions
  unfold classify at hlt
  rw [List.filter_append, List.length_append] at hlt
  have hranked := ranked_of_room P.maxActive_le.2 ?_ (lt_of_le_of_lt (Nat.le_add_left _ _) hlt)
  · refine lt_of_le_of_lt ?_ hranked
    rw [((List.perm_insertionSort _ _).filter _).length_eq]
    unfold standing
    rw [List.filter_filter, s.db.length_filter_inOrder]
    refine length_filter_le ?_
    intro row hrow hstands
    obtain ⟨⟨hw, hnew, hj, he⟩, hprior⟩ := of_decide_eq_true hstands
    simp only [Bool.and_eq_true, decide_eq_true_eq]
    refine ⟨hprior, decided_eq_none.mpr ⟨hw, ?_, ?_, ?_⟩⟩
    · exact fun hc => hnew (hs.mem_renewed.mp hc)
    · show (r.stands.lookup row.digest).getD true = true
      cases hl : r.stands.lookup row.digest with
      | none => rfl
      | some b =>
        cases b with
        | true => rfl
        | false =>
          obtain ⟨row', hrow', hd, hfalse⟩ := hr.stands _ hl
          rw [s.db.versions.eq_of_key hrow' hrow hd, hj] at hfalse
          cases hfalse
    · exact fun hc => he (lt_of_lt_of_le hc (P.nyDate_mono hr.now))
  · refine (((List.perm_insertionSort _ _).map _).nodup_iff).mpr ?_
    exact (List.filter_sublist.map _).nodup s.db.nodup_inOrder

/-! ## The transaction of a registration -/

theorem parse_row (version : DeploymentVersion) (requestDigest : Digest) (principal commandId : String) (now : Int) :
    parse P (version.row P requestDigest principal commandId now) =
      .ok (version.row P requestDigest principal commandId now).sealed := by
  have hdigest : ¬ P.versionDigest version ≠ P.versionDigest version := not_not.mpr rfl
  exact (if_neg hdigest).trans (if_neg (not_not.mpr rfl))

theorem renewedIds_append (h : db'.versions.rows = db.versions.rows ++ [row]) :
    db'.renewedIds = db.renewedIds ++ row.priorVersion.toList := by
  unfold VersionDb.renewedIds
  rw [h, List.filterMap_append]
  cases hp : row.priorVersion with
  | none => simp [hp]
  | some d => simp [hp]

theorem Ready.cap {r : Prepared} (hr : Ready P r s) (hs : Inv P s)
    (hroom : Room P s.db r) (hlater : Later s { s with db := db' }) (hprior : row.priorVersion = r.prior)
    (hrows : db'.versions.rows = s.db.versions.rows ++ [row]) : (standingNow P { s with db := db' }).length ≤ P.maxActive := by
  have hlt := hr.room hs hroom
  have hold : (s.db.versions.rows.filter fun x => decide (Stands P { s with db := db' } x)).length ≤
      (s.db.versions.rows.filter fun x => decide (Stands P s x ∧ some x.digest ≠ r.prior)).length := by
    refine length_filter_le ?_
    intro x hx hstands
    have hstands := of_decide_eq_true hstands
    refine decide_eq_true ⟨hlater.stands hs hx hstands, ?_⟩
    intro heq
    refine hstands.2.1 ?_
    show x.digest ∈ db'.renewedIds
    rw [renewedIds_append hrows, hprior, ← heq]
    simp
  unfold standingNow
  show (db'.versions.rows.filter _).length ≤ _
  rw [hrows, List.filter_append, List.length_append]
  have hone := List.length_filter_le (fun x => decide (Stands P { s with db := db' } x)) [row]
  simp only [List.length_singleton] at hone
  omega

/-- **The transaction of a registration keeps the invariant.** -/
theorem Wrote.keeps {r : Prepared} (hs : Inv P s) (hr : Ready P r s)
    (h : Wrote P r s.clock s.db o db') : Keeps P s { s with db := db' } := by
  cases h with
  | raced row hrow hrequest => exact hs.keeps_refl
  | created db' hfree hlive hroom hnew hfirst hrows hwithdrawals =>
    have hlater : Later s { s with db := db' } := by
      refine ⟨?_, ?_, List.prefix_refl _, le_refl _⟩
      · rw [hrows]
        exact List.prefix_append _ _
      · exact hwithdrawals ▸ List.prefix_refl _
    have hfresh : ∀ d, r.version.priorVersion = some d → d ∉ s.db.renewedIds := by
      intro d hd
      rw [hd] at hfirst
      exact successor_eq_none hfirst
    have hmem : ∀ x, x ∈ db'.versions.rows ↔ x ∈ s.db.versions.rows ∨
        x = r.version.row P (P.requestDigest r.body) r.principal r.commandId s.clock := by
      intro x
      rw [hrows]
      simp
    have hnewId := ofJudgment_eq_none hnew
    refine ⟨hlater, ?_, ?_, ?_, ?_, ?_, ?_, ?_⟩
    · intro x hx
      rcases (hmem x).mp hx with hx | rfl
      · exact hs.parses x hx
      · exact parse_row _ _ _ _ _
    · intro x hx y hy hid
      rcases (hmem x).mp hx with hx | rfl
      · rcases (hmem y).mp hy with hy | rfl
        · exact hs.oneVersion x hx y hy hid
        · exact absurd hid (hnewId x hx)
      · rcases (hmem y).mp hy with hy | rfl
        · exact absurd hid.symm (hnewId y hy)
        · rfl
    · have hother : ∀ x ∈ s.db.versions.rows, x.priorVersion ≠ none → x.priorVersion ≠ r.version.priorVersion := by
        intro x hx hne heq
        obtain ⟨d, hd⟩ := Option.ne_none_iff_exists'.mp hne
        exact hfresh d (heq.symm.trans hd) (List.mem_filterMap.mpr ⟨x, hx, hd⟩)
      intro x hx y hy hne hp
      rcases (hmem x).mp hx with hx | rfl
      · rcases (hmem y).mp hy with hy | rfl
        · exact hs.oneRenewal x hx y hy hne hp
        · exact absurd hp (hother x hx hne)
      · rcases (hmem y).mp hy with hy | rfl
        · exact absurd hp.symm (hother y hy (hp ▸ hne))
        · rfl
    · show Lineage.Descends VersionRow.priorVersion VersionRow.digest VersionRow.baseDigest db'.versions.rows
      rw [hrows]
      refine hs.descends.append ?_
      intro d hd
      exact hr.known d (hr.prior ▸ hd)
    · show ∀ d ∈ db'.renewedIds, d ∉ db'.withdrawnIds
      rw [renewedIds_append hrows]
      have hsame : db'.withdrawnIds = s.db.withdrawnIds := by
        unfold VersionDb.withdrawnIds
        rw [hwithdrawals]
      rw [hsame]
      intro d hd
      rcases List.mem_append.mp hd with hd | hd
      · exact hs.apart d hd
      · exact hlive d (hr.prior ▸ Option.mem_toList.mp hd)
    · intro x hx
      rcases (hmem x).mp hx with hx | rfl
      · exact hs.judged x hx
      · obtain ⟨j, hj, hdeploy⟩ := hr.judged
        refine ⟨j, ?_, hdeploy⟩
        show s.judgments.get? r.version.judgmentId = some j
        rw [hr.judgment]
        exact hj
    · exact hr.cap hs hroom hlater hr.prior hrows

end MmrTrader.Deployment
