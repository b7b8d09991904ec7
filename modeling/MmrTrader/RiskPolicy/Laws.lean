import MmrTrader.RiskPolicy.Service

/-!
# Risk limits only tighten within a session

* `Sound` — revisions without gap; effective limits that descend and stay within the frozen ceiling.
* `Later` — rows are only appended; a session keeps its ceiling and its latch, and its cutoff moves forward.
* `insertRevision_keeps`, `appendEffective_keeps`, `insertSession_keeps`, `updateSession_keeps` — one for each statement.
* `publish_spec`, `ensureSession_spec`, `latch_spec`, `setCutoffCancelState_spec` — one for each call.
* `limits_only_tighten` — over every sequence of calls.
-/

namespace MmrTrader.RiskPolicy

open Lib

structure Consistent (db : PolicyDb) : Prop where
  sessions : ∀ s ∈ db.sessions.rows, s.ceiling.structuralProblems = []
  revisions : ∀ r ∈ db.revisions.rows, r.limits.structuralProblems = []
  effective : ∀ r ∈ db.effective.rows, r.limits.structuralProblems = []

/-- The invariant.  `ok` says that every configured ceiling so far was consistent. -/
structure Sound (ok : Prop) (db : PolicyDb) : Prop where
  published : ∀ a, Numbered PolicyRevision.revision (db.revisionsOf a)
  numbered : ∀ a d, Numbered EffectiveRow.revision (db.effectiveOf a d)
  descending : ∀ r ∈ db.effective.rows, ∀ r' ∈ db.effective.rows, r.accountId = r'.accountId →
    r.sessionDate = r'.sessionDate → r.revision ≤ r'.revision → r'.limits.Within r.limits
  capped : ∀ r ∈ db.effective.rows, ∃ s, db.session r.accountId r.sessionDate = some s ∧ r.limits.Within s.ceiling
  consistent : ok → Consistent db

structure SessionRow.Continues (s s' : SessionRow) : Prop where
  key : s'.key = s.key
  anchor : s'.anchor = s.anchor
  ceiling : s'.ceiling = s.ceiling
  latch : ∀ l, s.latch = some l → s'.latch = some l
  cutoff : cutoffRank s.cutoffCancelState ≤ cutoffRank s'.cutoffCancelState

structure Later (db db' : PolicyDb) : Prop where
  revisions : db.revisions.rows <+: db'.revisions.rows
  effective : db.effective.rows <+: db'.effective.rows
  sessions : ∀ s ∈ db.sessions.rows, ∃ s' ∈ db'.sessions.rows, s.Continues s'

variable {ok : Prop} {db db' : PolicyDb} {a : String} {d : Int}

theorem SessionRow.Continues.refl (s : SessionRow) : s.Continues s := ⟨rfl, rfl, rfl, fun _ h => h, le_refl _⟩

variable {s : SessionRow}

theorem SessionRow.Continues.trans {t u : SessionRow} (h : s.Continues t) (h' : t.Continues u) : s.Continues u :=
  ⟨h'.key.trans h.key, h'.anchor.trans h.anchor, h'.ceiling.trans h.ceiling, fun l hl => h'.latch l (h.latch l hl),
    h.cutoff.trans h'.cutoff⟩

theorem Later.refl (db : PolicyDb) : Later db db :=
  ⟨List.prefix_refl _, List.prefix_refl _, fun s hs => ⟨s, hs, .refl s⟩⟩

theorem Later.trans {db'' : PolicyDb} (h : Later db db') (h' : Later db' db'') : Later db db'' := by
  refine ⟨h.revisions.trans h'.revisions, h.effective.trans h'.effective, fun s hs => ?_⟩
  obtain ⟨t, ht, hst⟩ := h.sessions s hs
  obtain ⟨u, hu, htu⟩ := h'.sessions t ht
  exact ⟨u, hu, hst.trans htu⟩

theorem Later.session (h : Later db db') (hs : db.session a d = some s) : ∃ s', db'.session a d = some s' ∧ s.Continues s' := by
  obtain ⟨hmem, hkey⟩ := Table.get?_eq_some.mp hs
  obtain ⟨s', hs', hc⟩ := h.sessions s hmem
  exact ⟨s', Table.get?_eq_some.mpr ⟨hs', hc.key.trans hkey⟩, hc⟩

theorem Sound.empty : Sound ok .empty where
  published _ := Numbered.nil
  numbered _ _ := Numbered.nil
  descending _ hr := absurd hr List.not_mem_nil
  capped _ hr := absurd hr List.not_mem_nil
  consistent _ :=
    ⟨fun _ h => absurd h List.not_mem_nil, fun _ h => absurd h List.not_mem_nil, fun _ h => absurd h List.not_mem_nil⟩

theorem mem_effectiveOf {r : EffectiveRow} :
    r ∈ db.effectiveOf a d ↔ r ∈ db.effective.rows ∧ r.accountId = a ∧ r.sessionDate = d := by
  simp [PolicyDb.effectiveOf]

/-! ## The statements -/

theorem insertRevision_keeps {row : PolicyRevision} (h : insertRevision row db = .ok () db') (hs : Sound ok db)
    (hrev : row.revision = nextRevision PolicyRevision.revision (db.revisionsOf row.accountId))
    (hok : ok → row.limits.structuralProblems = []) :
    Sound ok db' ∧ Later db db' ∧ db'.sessions = db.sessions ∧ db'.effective = db.effective := by
  have h := Tx.get_bind_ok h
  obtain ⟨-, h⟩ := Tx.refuseIf_bind_ok h
  cases ht : db.revisions.insert? row with
  | none =>
    rw [ht] at h
    cases h
  | some t =>
    rw [ht] at h
    cases h
    have hrows := (Table.insert?_eq_some ht).2
    refine ⟨⟨fun a => ?_, hs.numbered, hs.descending, hs.capped, fun hc => ⟨(hs.consistent hc).sessions, ?_,
      (hs.consistent hc).effective⟩⟩, ⟨hrows ▸ List.prefix_append _ _, List.prefix_refl _, fun s hs => ⟨s, hs, .refl s⟩⟩,
      rfl, rfl⟩
    · show Numbered _ (t.rows.filter _)
      rw [hrows, List.filter_append]
      by_cases ha : row.accountId = a
      · subst ha
        rw [List.filter_cons_of_pos (by simp), List.filter_nil]
        exact (hs.published row.accountId).append hrev
      · rw [List.filter_cons_of_neg (by simpa using ha), List.filter_nil, List.append_nil]
        exact hs.published a
    · intro r hr
      rcases (Table.mem_insert? ht).mp hr with hr | rfl
      · exact (hs.consistent hc).revisions r hr
      · exact hok hc

theorem appendEffective_keeps {limits : RiskLimits} {published : Nat} {cause : Cause} {now : Int} {session : SessionRow}
    (h : appendEffectiveInTx a d limits published cause now db = .ok () db') (hs : Sound ok db)
    (hsession : db.session a d = some session) (hcap : limits.Within session.ceiling)
    (hcurrent : ∀ c, db.effectiveNow a d = some c → limits.Within c.limits)
    (hok : ok → limits.structuralProblems = []) :
    Sound ok db' ∧ Later db db' ∧ db'.sessions = db.sessions ∧ db'.revisions = db.revisions ∧
      ∃ row, db'.effectiveNow a d = some row ∧ row.limits = limits := by
  have h := Tx.get_bind_ok h
  generalize hrow : (⟨a, d, nextRevision EffectiveRow.revision (db.effectiveOf a d), limits, published, cause, now⟩ :
    EffectiveRow) = row at h
  have hrev : row.revision = nextRevision EffectiveRow.revision (db.effectiveOf a d) := by rw [← hrow]
  have hacc : row.accountId = a := by rw [← hrow]
  have hdate : row.sessionDate = d := by rw [← hrow]
  have hlim : row.limits = limits := by rw [← hrow]
  cases ht : db.effective.insert? row with
  | none =>
    rw [ht] at h
    cases h
  | some t =>
    rw [ht] at h
    cases h
    have hrows := (Table.insert?_eq_some ht).2
    -- the newest row of the session bounds the new one
    have hbound : ∀ r ∈ db.effective.rows, r.accountId = a → r.sessionDate = d → limits.Within r.limits := by
      intro r hr hra hrd
      have hin : r ∈ db.effectiveOf a d := mem_effectiveOf.mpr ⟨hr, hra, hrd⟩
      cases hc : db.effectiveNow a d with
      | none =>
        rw [newest_none hc] at hin
        cases hin
      | some c =>
        obtain ⟨hcm, hca, hcd⟩ := mem_effectiveOf.mp (newest_mem hc)
        exact (hcurrent c hc).trans
          (hs.descending r hr c hcm (hra.trans hca.symm) (hrd.trans hcd.symm) (newest_le hc hin))
    have hof : ∀ a' d', ({ db with effective := t } : PolicyDb).effectiveOf a' d' =
        db.effectiveOf a' d' ++ if a = a' ∧ d = d' then [row] else [] := by
      intro a' d'
      simp only [PolicyDb.effectiveOf, hrows, List.filter_append, List.filter_singleton, hacc, hdate, Bool.cond_decide]
    have hlast : row.revision = (db.effectiveOf a d).length + 1 := hrev.trans (hs.numbered a d).nextRevision_eq
    refine ⟨⟨hs.published, fun a' d' => ?_, ?_, ?_, fun hc => ⟨(hs.consistent hc).sessions, (hs.consistent hc).revisions, ?_⟩⟩,
      ⟨List.prefix_refl _, hrows ▸ List.prefix_append _ _, fun s hs => ⟨s, hs, .refl s⟩⟩, rfl, rfl, row, ?_, hlim⟩
    · rw [hof]
      split
      · rename_i heq
        obtain ⟨rfl, rfl⟩ := heq
        exact (hs.numbered a d).append hrev
      · rw [List.append_nil]
        exact hs.numbered a' d'
    · intro r hr r' hr' hra hrd hle
      rcases (Table.mem_insert? ht).mp hr with hr | rfl
      · rcases (Table.mem_insert? ht).mp hr' with hr' | rfl
        · exact hs.descending r hr r' hr' hra hrd hle
        · rw [hlim]
          exact hbound r hr (hra.trans hacc) (hrd.trans hdate)
      · rcases (Table.mem_insert? ht).mp hr' with hr' | rfl
        · -- an older row has a smaller revision
          have hin : r'.revision ∈ List.range' 1 (db.effectiveOf a d).length :=
            (hs.numbered a d) ▸ List.mem_map_of_mem
              (mem_effectiveOf.mpr ⟨hr', hra.symm.trans hacc, hrd.symm.trans hdate⟩)
          rw [List.mem_range'_1] at hin
          omega
        · exact .refl _
    · intro r hr
      rcases (Table.mem_insert? ht).mp hr with hr | rfl
      · exact hs.capped r hr
      · exact ⟨session, by rw [hacc, hdate]; exact hsession, hlim ▸ hcap⟩
    · intro r hr
      rcases (Table.mem_insert? ht).mp hr with hr | rfl
      · exact (hs.consistent hc).effective r hr
      · exact hlim ▸ hok hc
    · show newest _ (({ db with effective := t } : PolicyDb).effectiveOf a d) = some row
      rw [hof, if_pos ⟨rfl, rfl⟩]
      exact (hs.numbered a d).newest_append hrev

theorem insertSession_keeps {row : SessionRow} (h : insertSession row db = .ok () db') (hs : Sound ok db)
    (hok : ok → row.ceiling.structuralProblems = []) :
    Sound ok db' ∧ Later db db' ∧ db'.effective = db.effective ∧ db'.revisions = db.revisions := by
  have h := Tx.get_bind_ok h
  cases ht : db.sessions.insert? row with
  | none =>
    rw [ht] at h
    cases h
    exact ⟨hs, .refl _, rfl, rfl⟩
  | some t =>
    rw [ht] at h
    cases h
    have hlater : Later db { db with sessions := t } :=
      ⟨List.prefix_refl _, List.prefix_refl _, fun s hs => ⟨s, (Table.mem_insert? ht).mpr (Or.inl hs), .refl s⟩⟩
    refine ⟨⟨hs.published, hs.numbered, hs.descending, fun r hr => ?_, fun hc => ⟨?_, (hs.consistent hc).revisions,
      (hs.consistent hc).effective⟩⟩, hlater, rfl, rfl⟩
    · obtain ⟨s, hget, hcap⟩ := hs.capped r hr
      obtain ⟨s', hget', hcont⟩ := hlater.session hget
      exact ⟨s', hget', hcont.ceiling ▸ hcap⟩
    · intro s hmem
      rcases (Table.mem_insert? ht).mp hmem with hmem | rfl
      · exact (hs.consistent hc).sessions s hmem
      · exact hok hc

theorem updateSession_keeps {f : SessionRow → SessionRow} {hf : ∀ r, (f r).key = r.key} (hs : Sound ok db)
    (hcont : ∀ r ∈ db.sessions.rows, r.key = (a, d) → r.Continues (f r)) :
    Sound ok (db.updateSession a d f hf) ∧ Later db (db.updateSession a d f hf) := by
  have hrow : ∀ r ∈ db.sessions.rows, r.Continues (if r.key == (a, d) then f r else r) := by
    intro r hr
    by_cases hk : r.key = (a, d)
    · simpa [hk] using hcont r hr hk
    · simpa [hk] using SessionRow.Continues.refl r
  have hlater : Later db (db.updateSession a d f hf) :=
    ⟨List.prefix_refl _, List.prefix_refl _, fun r hr => ⟨_, List.mem_map_of_mem hr, hrow r hr⟩⟩
  refine ⟨⟨hs.published, hs.numbered, hs.descending, fun r hr => ?_, fun hc => ⟨?_, (hs.consistent hc).revisions,
    (hs.consistent hc).effective⟩⟩, hlater⟩
  · obtain ⟨s, hget, hcap⟩ := hs.capped r hr
    obtain ⟨s', hget', hc⟩ := hlater.session hget
    exact ⟨s', hget', hc.ceiling ▸ hcap⟩
  · intro s hmem
    obtain ⟨r, hr, rfl⟩ := List.mem_map.mp hmem
    rw [(hrow r hr).ceiling]
    exact (hs.consistent hc).sessions r hr

/-! ## The calls -/

variable {S : Service} {now : Int} {limits : RiskLimits}

theorem checkPolicy_ok (h : S.checkPolicy limits = .ok ()) :
    limits.structuralProblems = [] ∧ limits.Within S.ceiling := by
  unfold Service.checkPolicy at h
  split at h
  · cases h
  · split at h
    · cases h
    · rename_i hs ha
      exact ⟨not_not.mp hs, RiskLimits.fieldsAbove_eq_nil.mp (not_not.mp ha)⟩

/-- What an accepted publication says of the session in force. -/
structure Applied (S : Service) (limits : RiskLimits) (session : SessionRow) (row : EffectiveRow)
    (queued : List LimitField) : Prop where
  ceiling : row.limits.Within S.ceiling
  published : row.limits.Within limits
  queued : queued = (limits.tighter (session.ceiling.tighter S.ceiling)).fieldsAbove row.limits

theorem fieldsAbove_congr {l c c' : RiskLimits} (h : ∀ f, c.value f = c'.value f) : l.fieldsAbove c = l.fieldsAbove c' := by
  unfold RiskLimits.fieldsAbove
  simp only [h]

variable {result : PublishResult}

theorem applyPolicy_spec {revision : Nat} {session : SessionRow}
    (h : S.applyPolicy limits revision d session now db = .ok result db') (hs : Sound ok db)
    (hsession : db.session S.accountId d = some session) (hstruct : limits.structuralProblems = [])
    (hceiling : limits.Within S.ceiling) (hok : ok → S.ceiling.structuralProblems = []) :
    Sound ok db' ∧ Later db db' ∧ db'.sessions = db.sessions ∧
      ∃ row, db'.effectiveNow S.accountId d = some row ∧ Applied S limits session row result.queued := by
  have hmem := (Table.get?_eq_some.mp hsession).1
  have h := Tx.get_bind_ok h
  cases hc : db.effectiveNow S.accountId d with
  | none =>
    simp only [hc] at h
    obtain ⟨_, mid, happend, h⟩ := Tx.bind_ok h
    cases h
    have hcap : (limits.tighter (session.ceiling.tighter S.ceiling)).Within session.ceiling :=
      (RiskLimits.tighter_within_right _ _).trans (RiskLimits.tighter_within_left _ _)
    obtain ⟨hsound, hlater, hsessions, -, row, hrow, hlim⟩ := appendEffective_keeps happend hs hsession hcap
      (fun c hc' => by rw [hc] at hc'; cases hc')
      fun hok' => RiskLimits.structuralProblems_tighter hstruct
        (RiskLimits.structuralProblems_tighter ((hs.consistent hok').sessions session hmem) (hok hok'))
    refine ⟨hsound, hlater, hsessions, row, hrow, ?_, ?_, ?_⟩
    · rw [hlim]
      exact (RiskLimits.tighter_within_left _ _).trans hceiling
    · rw [hlim]
      exact RiskLimits.tighter_within_left _ _
    · rw [hlim]
  | some current =>
    simp only [hc] at h
    obtain ⟨hcm, hca, hcd⟩ := mem_effectiveOf.mp (newest_mem hc)
    obtain ⟨s', hs', hcap'⟩ := hs.capped current hcm
    have hcap : current.limits.Within session.ceiling := by
      rw [hca, hcd, hsession] at hs'
      cases hs'
      exact hcap'
    split at h
    · obtain ⟨_, mid, happend, h⟩ := Tx.bind_ok h
      cases h
      obtain ⟨hsound, hlater, hsessions, -, row, hrow, hlim⟩ := appendEffective_keeps happend hs hsession
        ((RiskLimits.tighter_within_left _ _).trans hcap)
        (fun c hc' => by rw [hc] at hc'; cases hc'; exact RiskLimits.tighter_within_left _ _)
        fun hok' => RiskLimits.structuralProblems_tighter ((hs.consistent hok').effective current hcm) hstruct
      refine ⟨hsound, hlater, hsessions, row, hrow, ?_, ?_, ?_⟩
      · rw [hlim]
        exact (RiskLimits.tighter_within_right _ _).trans hceiling
      · rw [hlim]
        exact RiskLimits.tighter_within_right _ _
      · rw [hlim]
    · rename_i hnone
      cases h
      -- nothing applied: the effective limits are already within the policy
      have hwithin : current.limits.Within limits :=
        (RiskLimits.fieldsAbove_eq_nil.mp (not_not.mp hnone)).trans (RiskLimits.tighter_within_right _ _)
      refine ⟨hs, .refl _, rfl, current, hc, hwithin.trans hceiling, hwithin, fieldsAbove_congr fun f => ?_⟩
      rw [RiskLimits.value_tighter, min_eq_left (hwithin f)]

variable {reason principal commandId : String}

theorem publishInTx_spec {date : Option Int}
    (h : S.publishInTx limits reason principal commandId now date db = .ok result db') (hs : Sound ok db)
    (hstruct : limits.structuralProblems = []) (hceiling : limits.Within S.ceiling)
    (hok : ok → S.ceiling.structuralProblems = []) :
    Sound ok db' ∧ Later db db' ∧ ∀ d, date = some d → ∀ session, db'.session S.accountId d = some session →
      ∃ row, db'.effectiveNow S.accountId d = some row ∧ Applied S limits session row result.queued := by
  have h := Tx.get_bind_ok h
  obtain ⟨_, mid, hinsert, h⟩ := Tx.bind_ok h
  obtain ⟨hsound, hlater, hsessions, -⟩ := insertRevision_keeps hinsert hs rfl fun _ => hstruct
  cases date with
  | none =>
    cases h
    exact ⟨hsound, hlater, fun d hd => by cases hd⟩
  | some d =>
    have h := Tx.get_bind_ok h
    cases hsession : mid.session S.accountId d with
    | none =>
      simp only [hsession] at h
      cases h
      refine ⟨hsound, hlater, fun d' hd session hsess => ?_⟩
      cases hd
      rw [hsession] at hsess
      cases hsess
    | some session =>
      simp only [hsession] at h
      obtain ⟨hsound', hlater', hsame, row, hrow, happlied⟩ :=
        applyPolicy_spec h hsound hsession hstruct hceiling hok
      refine ⟨hsound', hlater.trans hlater', fun d' hd session' hsess => ?_⟩
      cases hd
      rw [PolicyDb.session, hsame, ← PolicyDb.session, hsession] at hsess
      cases hsess
      exact ⟨row, hrow, happlied⟩

variable {broker : Broker}

/-- **A publication that returns** leaves the session in force within the policy and both ceilings. -/
theorem publish_spec (h : S.publish limits reason principal commandId broker now db = .ok result db') (hs : Sound ok db)
    (hok : ok → S.ceiling.structuralProblems = []) :
    Sound ok db' ∧ Later db db' ∧ ∀ d, S.sessionDate now = some d → ∀ session, db'.session S.accountId d = some session →
      ∃ row, db'.effectiveNow S.accountId d = some row ∧ Applied S limits session row result.queued := by
  obtain ⟨_, hpolicy, h⟩ := Tx.check_bind_ok h
  obtain ⟨_, -, h⟩ := Tx.check_bind_ok h
  obtain ⟨_, -, h⟩ := Tx.check_bind_ok h
  obtain ⟨hstruct, hceiling⟩ := checkPolicy_ok hpolicy
  exact publishInTx_spec (transaction_ok h) hs hstruct hceiling hok

theorem refreshInTx_spec {session : SessionRow} (h : S.refreshInTx d session now db = .ok () db') (hs : Sound ok db)
    (hsession : db.session S.accountId d = some session) (hok : ok → S.ceiling.structuralProblems = []) :
    Sound ok db' ∧ Later db db' ∧ ∀ row, db'.effectiveNow S.accountId d = some row → row.limits.Within S.ceiling := by
  have hmem := (Table.get?_eq_some.mp hsession).1
  have h := Tx.get_bind_ok h
  cases hc : db.effectiveNow S.accountId d with
  | none =>
    cases hl : db.latestPublished S.accountId with
    | none =>
      simp only [hc, hl] at h
      cases h
      refine ⟨hs, .refl _, fun row hrow => ?_⟩
      rw [hc] at hrow
      cases hrow
    | some latest =>
      simp only [hc, hl] at h
      have hcap : (latest.limits.tighter (session.ceiling.tighter S.ceiling)).Within session.ceiling :=
        (RiskLimits.tighter_within_right _ _).trans (RiskLimits.tighter_within_left _ _)
      have hlatest : latest ∈ db.revisions.rows := (List.mem_filter.mp (newest_mem hl)).1
      obtain ⟨hsound, hlater, -, -, row, hrow, hlim⟩ := appendEffective_keeps h hs hsession hcap
        (fun c hc' => by rw [hc] at hc'; cases hc')
        fun hok' => RiskLimits.structuralProblems_tighter ((hs.consistent hok').revisions latest hlatest)
          (RiskLimits.structuralProblems_tighter ((hs.consistent hok').sessions session hmem) (hok hok'))
      refine ⟨hsound, hlater, fun row' hrow' => ?_⟩
      obtain rfl := Option.some.inj (hrow.symm.trans hrow')
      rw [hlim]
      exact (RiskLimits.tighter_within_right _ _).trans (RiskLimits.tighter_within_right _ _)
  | some current =>
    obtain ⟨hcm, hca, hcd⟩ := mem_effectiveOf.mp (newest_mem hc)
    obtain ⟨s', hs', hcap'⟩ := hs.capped current hcm
    have hcap : current.limits.Within session.ceiling := by
      rw [hca, hcd, hsession] at hs'
      cases hs'
      exact hcap'
    simp only [hc] at h
    split at h
    · obtain ⟨hsound, hlater, -, -, row, hrow, hlim⟩ := appendEffective_keeps h hs hsession
        ((RiskLimits.tighter_within_left _ _).trans hcap)
        (fun c hc' => by rw [hc] at hc'; cases hc'; exact RiskLimits.tighter_within_left _ _)
        fun hok' => RiskLimits.structuralProblems_tighter ((hs.consistent hok').effective current hcm) (hok hok')
      refine ⟨hsound, hlater, fun row' hrow' => ?_⟩
      obtain rfl := Option.some.inj (hrow.symm.trans hrow')
      rw [hlim]
      exact RiskLimits.tighter_within_right _ _
    · rename_i hnone
      cases h
      refine ⟨hs, .refl _, fun row hrow => ?_⟩
      obtain rfl := Option.some.inj (hc.symm.trans hrow)
      exact RiskLimits.fieldsAbove_eq_nil.mp (not_not.mp hnone)

variable {view : Option SessionView}

theorem ensure_rest_spec {f : SessionRow → PolicyTx Unit}
    (h : ((get >>= fun s : PolicyDb => match s.session S.accountId d with
      | none => throw .NO_SESSION
      | some session => do
        f session
        return viewInTx (← get) S.accountId d) : PolicyTx (Option SessionView)) db = .ok view db') :
    ∃ session, db.session S.accountId d = some session ∧ f session db = .ok () db' := by
  have h := Tx.get_bind_ok h
  cases hsession : db.session S.accountId d with
  | none =>
    simp only [hsession] at h
    cases h
  | some session =>
    simp only [hsession] at h
    obtain ⟨_, mid, hf, h⟩ := Tx.bind_ok h
    cases h
    exact ⟨session, rfl, hf⟩

variable {generation : Int}

theorem ensureInTx_spec {anchor : ℚ} (h : S.ensureInTx d anchor generation now db = .ok view db') (hs : Sound ok db)
    (hok : ok → S.ceiling.structuralProblems = []) :
    Sound ok db' ∧ Later db db' ∧ ∀ row, db'.effectiveNow S.accountId d = some row → row.limits.Within S.ceiling := by
  have h := Tx.get_bind_ok h
  split at h
  · obtain ⟨_, mid, hinsert, h⟩ := Tx.bind_ok h
    obtain ⟨hsound, hlater, -, -⟩ := insertSession_keeps hinsert hs hok
    obtain ⟨session, hsession, hrefresh⟩ := ensure_rest_spec h
    obtain ⟨hsound', hlater', hrow⟩ := refreshInTx_spec hrefresh hsound hsession hok
    exact ⟨hsound', hlater.trans hlater', hrow⟩
  · obtain ⟨session, hsession, hrefresh⟩ := ensure_rest_spec h
    exact refreshInTx_spec hrefresh hs hsession hok

/-- **An admission that returns** leaves the session of its date within the configured ceiling. -/
theorem ensureSession_spec (h : S.ensureSession broker now db = .ok view db') (hs : Sound ok db)
    (hok : ok → S.ceiling.structuralProblems = []) :
    Sound ok db' ∧ Later db db' ∧ ∀ d, S.sessionDate now = some d → ∀ row,
      db'.effectiveNow S.accountId d = some row → row.limits.Within S.ceiling := by
  obtain ⟨anchor, -, h⟩ := Tx.check_bind_ok h
  cases hdate : S.sessionDate now with
  | none =>
    simp only [hdate] at h
    cases h
    exact ⟨hs, .refl _, fun d hd => by cases hd⟩
  | some date =>
    simp only [hdate] at h
    obtain ⟨hsound, hlater, hrow⟩ := ensureInTx_spec (transaction_ok h) hs hok
    exact ⟨hsound, hlater, fun d hd => by cases hd; exact hrow⟩

theorem latch_spec {code detail : String} (h : S.latch code detail now db = .ok () db') (hs : Sound ok db) :
    Sound ok db' ∧ Later db db' := by
  have h := transaction_ok h
  cases hdate : S.sessionDate now with
  | none =>
    simp only [hdate] at h
    cases h
  | some date =>
    simp only [hdate] at h
    obtain ⟨-, h⟩ := Tx.refuseIf_bind_ok (Tx.get_bind_ok h)
    cases h
    refine updateSession_keeps hs fun r _ _ => ⟨rfl, rfl, rfl, fun l hl => ?_, le_refl _⟩
    simp [hl]

theorem setCutoffCancelState_spec {date : Int} {state : CutoffCancelState}
    (h : S.setCutoffCancelState date state generation db = .ok () db') (hs : Sound ok db) : Sound ok db' ∧ Later db db' := by
  have h := Tx.get_bind_ok (transaction_ok h)
  cases hrow : db.session S.accountId date with
  | none =>
    simp only [hrow] at h
    cases h
  | some row =>
    simp only [hrow] at h
    obtain ⟨hrank, h⟩ := Tx.refuseIf_bind_ok h
    cases h
    refine updateSession_keeps hs fun r hr hk => ⟨rfl, rfl, rfl, fun l hl => hl, ?_⟩
    obtain ⟨hmem, hkey⟩ := Table.get?_eq_some.mp hrow
    rw [db.sessions.eq_of_key hr hmem (hk.trans hkey.symm)]
    exact not_lt.mp hrank

/-! ## Runs -/

def Request.Promise (r : Request) (db' : PolicyDb) : Prop :=
  match r.call with
  | .publish limits _ _ _ _ => ∀ d, r.service.sessionDate r.now = some d → ∀ session,
      db'.session r.service.accountId d = some session → ∃ row, db'.effectiveNow r.service.accountId d = some row ∧
        row.limits.Within r.service.ceiling ∧ row.limits.Within limits
  | .ensureSession _ => ∀ d, r.service.sessionDate r.now = some d → ∀ row,
      db'.effectiveNow r.service.accountId d = some row → row.limits.Within r.service.ceiling
  | _ => True

theorem exec_spec {r : Request} (h : r.exec db = .ok () db') (hs : Sound ok db)
    (hok : ok → r.service.ceiling.structuralProblems = []) : Sound ok db' ∧ Later db db' ∧ r.Promise db' := by
  unfold Request.exec at h
  unfold Request.Promise
  cases hcall : r.call with
  | publish limits reason principal commandId broker =>
    simp only [hcall] at h
    obtain ⟨result, h, -⟩ := Tx.map_ok h
    obtain ⟨hsound, hlater, hpost⟩ := publish_spec h hs hok
    refine ⟨hsound, hlater, fun d hd session hsession => ?_⟩
    obtain ⟨row, hrow, happlied⟩ := hpost d hd session hsession
    exact ⟨row, hrow, happlied.ceiling, happlied.published⟩
  | ensureSession broker =>
    simp only [hcall] at h
    obtain ⟨view, h, -⟩ := Tx.map_ok h
    exact ensureSession_spec h hs hok
  | latch code detail =>
    simp only [hcall] at h
    obtain ⟨hsound, hlater⟩ := latch_spec h hs
    exact ⟨hsound, hlater, trivial⟩
  | setCutoffCancelState date state generation =>
    simp only [hcall] at h
    obtain ⟨hsound, hlater⟩ := setCutoffCancelState_spec h hs
    exact ⟨hsound, hlater, trivial⟩

theorem exec_atomic (r : Request) : Tx.Atomic r.exec := by
  unfold Request.exec
  cases r.call with
  | publish limits reason principal commandId broker =>
    refine Tx.Atomic.map (Tx.Atomic.check_bind fun _ => Tx.Atomic.check_bind fun _ => Tx.Atomic.check_bind fun _ => ?_) _
    exact Tx.Atomic.transaction _ _
  | ensureSession broker =>
    refine Tx.Atomic.map (Tx.Atomic.check_bind fun anchor => ?_) _
    cases r.service.sessionDate r.now with
    | none =>
      intro db db' e h
      cases h
    | some date => exact Tx.Atomic.transaction _ _
  | latch code detail => exact Tx.Atomic.transaction _ _
  | setCutoffCancelState date state generation => exact Tx.Atomic.transaction _ _

/-- A call that returns moved on; one that raises changed nothing. -/
theorem step_spec (db : PolicyDb) (r : Request) (hs : Sound ok db)
    (hok : ok → r.service.ceiling.structuralProblems = []) : Sound ok (step db r) ∧ Later db (step db r) := by
  unfold step
  cases h : r.exec db with
  | ok _ db' =>
    obtain ⟨hsound, hlater, -⟩ := exec_spec h hs hok
    exact ⟨hsound, hlater⟩
  | error e db' =>
    rw [exec_atomic r db db' e h]
    exact ⟨hs, .refl db⟩

theorem run_sound (requests : List Request) (hok : ok → ∀ r ∈ requests, r.service.ceiling.structuralProblems = [])
    (hs : Sound ok db) : Sound ok (requests.foldl step db) ∧ Later db (requests.foldl step db) := by
  induction requests generalizing db with
  | nil => exact ⟨hs, .refl db⟩
  | cons r rest ih =>
    obtain ⟨hsound, hlater⟩ := step_spec db r hs fun h => hok h r List.mem_cons_self
    obtain ⟨hsound', hlater'⟩ := ih (fun h r' hr' => hok h r' (List.mem_cons_of_mem _ hr')) hsound
    exact ⟨hsound', hlater.trans hlater'⟩

/-- **Risk limits only tighten within a session**, over every sequence of calls of any accounts, ceilings and times:
every state is sound (revisions without gap, effective limits that descend within the frozen ceiling, and consistent
when every configured ceiling was), every later state keeps it, a call that returns keeps its promise, and one that
raises changes nothing. -/
theorem limits_only_tighten (pre post : List Request) :
    Sound (∀ r ∈ pre, r.service.ceiling.structuralProblems = []) (run pre) ∧
      Later (run pre) (run (pre ++ post)) ∧
      (∀ (r : Request) (db' : PolicyDb), r.exec (run pre) = .ok () db' → r.Promise db') ∧
      (∀ (S : Service) limits reason principal commandId broker now result db',
        S.publish limits reason principal commandId broker now (run pre) = .ok result db' →
        ∀ d, S.sessionDate now = some d → ∀ session, db'.session S.accountId d = some session →
          ∃ row, db'.effectiveNow S.accountId d = some row ∧
            result.queued = (limits.tighter (session.ceiling.tighter S.ceiling)).fieldsAbove row.limits) ∧
      ∀ (r : Request) e db', r.exec (run pre) = .error e db' → db' = run pre := by
  have hsound : Sound (∀ r ∈ pre, r.service.ceiling.structuralProblems = []) (run pre) :=
    (run_sound pre (fun h => h) Sound.empty).1
  have hplain : Sound False (run pre) := ⟨hsound.published, hsound.numbered, hsound.descending, hsound.capped, False.elim⟩
  refine ⟨hsound, ?_, ?_, ?_, fun r e db' h => exec_atomic r _ db' e h⟩
  · unfold run
    rw [List.foldl_append]
    exact (@run_sound False _ post (fun h => h.elim) hplain).2
  · intro r db' h
    exact (exec_spec h hplain False.elim).2.2
  · intro S limits reason principal commandId broker now result db' h d hd session hsession
    obtain ⟨row, hrow, happlied⟩ := (publish_spec h hplain False.elim).2.2 d hd session hsession
    exact ⟨row, hrow, happlied.queued⟩

end MmrTrader.RiskPolicy
