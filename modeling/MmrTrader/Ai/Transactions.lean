import MmrTrader.Ai.InStep

/-!
# The transactions of the gateway

* `settles_of_updates` — an attempt, its reservation and an event are written together.
* `successTx_ok`, `failureTx_ok`, `lateTx_ok` — a call is settled.
* `recoverTx_ok` — the recovery.
-/

namespace MmrTrader.Ai

open Lib

/-! ## The statements -/

section
variable {db db' : AiDb}

theorem onBudget_ok {α : Type} {x : BudgetTx α} {v : α} (h : onBudget x db = .ok v db') :
    ∃ budget, x db.budget = .ok v budget ∧ db' = { db with budget := budget } := by
  unfold onBudget at h
  cases hx : x db.budget with
  | ok v' budget => rw [hx] at h; cases h; exact ⟨budget, rfl, rfl⟩
  | error e budget => rw [hx] at h; cases h

variable {key : String}

theorem requireStatus_ok {allowed : AttemptStatus → Bool} {row : AttemptRow} (h : requireStatus key allowed db = .ok row db') :
    row ∈ db.attempts.rows ∧ row.attemptKey = key ∧ allowed row.status = true ∧ db' = db := by
  have h := Tx.get_bind_ok h
  cases hg : db.attempts.get? key with
  | none => simp only [hg] at h; cases h
  | some row' =>
    simp only [hg] at h
    obtain ⟨ha, h⟩ := Tx.refuseIf_bind_ok h
    cases h
    obtain ⟨hmem, hkey⟩ := Table.get?_eq_some.mp hg
    exact ⟨hmem, hkey, by simpa using ha, rfl⟩

variable {response : ModelResponse}

theorem finishSuccessInTx_ok (h : finishSuccessInTx key response db = .ok () db') :
    ∃ a ∈ db.attempts.rows, a.attemptKey = key ∧ a.status = .STARTED ∧
      db' = db.updateAttempts (fun a => a.attemptKey == key)
        (fun a => { a with
          status := .SUCCEEDED
          responseText := some response.text
          inputTokens := some response.usage.inputTokens
          outputTokens := some response.usage.outputTokens }) fun _ => rfl := by
  obtain ⟨a, mid, hreq, hset⟩ := Tx.bind_ok h
  obtain ⟨hmem, hkey, hst, rfl⟩ := requireStatus_ok hreq
  cases hset
  exact ⟨a, hmem, hkey, by simpa using hst, rfl⟩

theorem finishFailureInTx_ok {code : String} {outcome : AttemptStatus} (h : finishFailureInTx key outcome code db = .ok () db') :
    isFailure outcome = true ∧ ∃ a ∈ db.attempts.rows, a.attemptKey = key ∧ a.status = .STARTED ∧
      db' = db.updateAttempts (fun a => a.attemptKey == key)
        (fun a => { a with status := outcome, errorCode := some code }) fun _ => rfl := by
  obtain ⟨hf, h⟩ := Tx.refuseIf_bind_ok h
  obtain ⟨a, mid, hreq, hset⟩ := Tx.bind_ok h
  obtain ⟨hmem, hkey, hst, rfl⟩ := requireStatus_ok hreq
  cases hset
  exact ⟨by simpa using hf, a, hmem, hkey, by simpa using hst, rfl⟩

variable {a : AttemptRow}
variable {cost : Int}

theorem addCostEventInTx_ok {kind : CostKind} {usage : Option Usage} (h : addCostEventInTx a kind cost usage db = .ok () db') :
    ∃ e events, e.attemptKey = a.attemptKey ∧ e.kind = kind ∧ e.costMicros = cost ∧ events.rows = db.events.rows ++ [e] ∧
      db' = { db with events := events } := by
  have h := Tx.get_bind_ok h
  cases hins : db.events.insert? ⟨a.attemptKey ++ ":" ++ kind.text, a.attemptKey, a.role, a.backend, a.model, kind, cost,
      usage⟩ with
  | none => simp only [hins] at h; cases h
  | some events =>
    simp only [hins] at h
    cases h
    exact ⟨_, events, rfl, rfl, rfl, (Table.insert?_eq_some hins).2, rfl⟩

variable {b b' : BudgetDb} {id : String} {v : Bool}

/-- A settlement changes the row of its id, unless it was settled before. -/
theorem settle_cases {actual : Int} {late : Bool} (h : Budget.settleInTx id actual late b = .ok v b') :
    ∃ row ∈ b.reservations.rows, row.reservationId = id ∧
      (row.state = .settled ∨ row.state = (if late then .unknown else .opened) ∧
        b' = b.update (fun r => r.reservationId == id) (fun r => { r with state := .settled, actualMicros := some actual })
          fun _ => rfl) := by
  obtain ⟨row, mid, hget, hrest⟩ := Tx.bind_ok h
  obtain ⟨hrow, rfl⟩ := getInTx_ok hget
  obtain ⟨hmem, hid⟩ := Table.get?_eq_some.mp hrow
  refine ⟨row, hmem, hid, ?_⟩
  split at hrest
  · exact .inl ‹_›
  · obtain ⟨hstate, hrest⟩ := Tx.refuseIf_bind_ok hrest
    cases hrest
    exact .inr ⟨not_not.mp hstate, rfl⟩

theorem release_cases {reason : ReleaseReason} (h : Budget.releaseInTx id reason b = .ok () b') :
    b' = b.update (fun r => r.reservationId == id)
      (fun r => { r with state := .released, releaseReason := some reason }) fun _ => rfl := by
  obtain ⟨row, mid, hget, hrest⟩ := Tx.bind_ok h
  obtain ⟨-, rfl⟩ := getInTx_ok hget
  obtain ⟨-, hrest⟩ := Tx.refuseIf_bind_ok hrest
  cases hrest
  rfl

theorem markUnknown_cases (h : Budget.markUnknownInTx id b = .ok () b') :
    b' = b.update (fun r => r.reservationId == id) (fun r => { r with state := .unknown }) fun _ => rfl := by
  obtain ⟨row, mid, hget, hrest⟩ := Tx.bind_ok h
  obtain ⟨-, rfl⟩ := getInTx_ok hget
  obtain ⟨-, hrest⟩ := Tx.refuseIf_bind_ok hrest
  cases hrest
  rfl

theorem settles_of_updates (hdb : InStep db) (ha : a ∈ db.attempts.rows)
    (f : AttemptRow → AttemptRow) (hf : ∀ a, (f a).attemptKey = a.attemptKey) (hfr : (f a).reservationId = a.reservationId)
    (g : ReservationRow → ReservationRow) (hg : ∀ r, (g r).reservationId = r.reservationId)
    (hgr : ∀ r, (g r).reservedMicros = r.reservedMicros) (hga : ∀ r, (g r).state = .settled → (g r).actualMicros.isSome)
    {events : Table CostEventRow.eventId} {e : CostEventRow}
    (hevents : events.rows = db.events.rows ++ [e]) (hekey : e.attemptKey = a.attemptKey)
    (hagree : ∀ r ∈ db.budget.reservations.rows, r.reservationId = a.reservationId → Agrees (f a).status (g r).state)
    (hexpected : ∀ r ∈ db.budget.reservations.rows, r.reservationId = a.reservationId →
      expectedEvents a.status r ++ [(e.kind, e.costMicros)] = expectedEvents (f a).status (g r))
    (hmay : MayBecome a.status (f a).status) :
    ∃ r, Settles db
      ⟨db.budget.update (fun r => r.reservationId == a.reservationId) g hg,
        db.attempts.updateWhere (fun x => x.attemptKey == a.attemptKey) f hf, events⟩ a (f a) r (g r) e := by
  obtain ⟨r, hr, hid, -⟩ := hdb.attempt a ha
  refine ⟨r, ha, hr, hid, hf a, hfr, hg r, hgr r, hga r, fun x => ?_, fun x => ?_, hevents, hekey, hagree r hr hid,
    hexpected r hr hid, hmay⟩
  · rw [mem_updated]
    refine or_congr_right ⟨?_, fun hx => ⟨a, ha, rfl, hx⟩⟩
    rintro ⟨y, hy, hyk, rfl⟩
    rw [db.attempts.eq_of_key hy ha hyk]
  · rw [hid]
    have hmem : x ∈ (db.budget.reservations.updateWhere (fun r => r.reservationId == a.reservationId) g hg).rows ↔ _ :=
      mem_updated
    refine hmem.trans (or_congr_right ⟨?_, fun hx => ⟨r, hr, hid, hx⟩⟩)
    rintro ⟨y, hy, hyk, rfl⟩
    rw [db.budget.reservations.eq_of_key hy hr (hyk.trans hid.symm)]

/-! ## The transactions -/

theorem successTx_ok (hdb : InStep db) {price : ModelPrice} {b : Begun} (hb : BegunOk db b)
    (h : successTx price b response db = .ok () db') : Keeps (fun a => a.attemptKey = b.attempt.attemptKey) db db' := by
  obtain ⟨_, mid, hfinish, h⟩ := Tx.bind_ok h
  obtain ⟨a, ha, hkey, hstarted, rfl⟩ := finishSuccessInTx_ok hfinish
  obtain ⟨_, mid, hsettle, h⟩ := Tx.bind_ok h
  obtain ⟨v, hrun⟩ := discard_ok hsettle
  obtain ⟨budget, hin, rfl⟩ := onBudget_ok hrun
  obtain ⟨e, events, hekey, hekind, hecost, hevents, rfl⟩ := addCostEventInTx_ok h
  obtain ⟨⟨a₁, ha₁, hk₁, hr₁⟩, -⟩ := hb
  obtain rfl : a₁ = a := db.attempts.eq_of_key ha₁ ha (hk₁.trans hkey.symm)
  obtain ⟨q, hq, hqid, hagree, -⟩ := hdb.attempt a₁ ha
  obtain ⟨row, hrow, hrid, hcase⟩ := settle_cases hin
  obtain rfl : row = q := db.budget.reservations.eq_of_key hrow hq (by rw [hrid, hqid, hr₁])
  have hopen : row.state = .opened := by
    rw [hstarted] at hagree
    exact hagree
  rcases hcase with hset | ⟨-, rfl⟩
  · rw [hopen] at hset
    cases hset
  · rw [← hkey, ← hr₁]
    obtain ⟨r, hs⟩ := settles_of_updates hdb ha
      (fun a => { a with
        status := .SUCCEEDED
        responseText := some response.text
        inputTokens := some response.usage.inputTokens
        outputTokens := some response.usage.outputTokens }) (fun _ => rfl) rfl
      (fun r => { r with state := .settled, actualMicros := some (price.costMicros response.usage) })
      (fun _ => rfl) (fun _ => rfl) (fun _ _ => rfl) hevents (hekey.trans hkey.symm) (fun _ _ _ => rfl)
      (fun r _ _ => by rw [hstarted, hekind, hecost]; rfl) (.inr (.inl hstarted))
    exact hs.keeps hdb rfl

theorem failureTx_ok (hdb : InStep db) {b : Begun} {error : CallError} (hb : BegunOk db b)
    (h : failureTx b error db = .ok () db') : Keeps (fun a => a.attemptKey = b.attempt.attemptKey) db db' := by
  obtain ⟨_, mid, hfinish, h⟩ := Tx.bind_ok h
  obtain ⟨hfail, a, ha, hkey, hstarted, rfl⟩ := finishFailureInTx_ok hfinish
  obtain ⟨⟨a₁, ha₁, hk₁, hr₁⟩, r₁, hrm₁, hid₁, hres₁⟩ := hb
  obtain rfl : a₁ = a := db.attempts.eq_of_key ha₁ ha (hk₁.trans hkey.symm)
  split at h
  · rename_i hout
    obtain ⟨_, mid, hrel, h⟩ := Tx.bind_ok h
    obtain ⟨budget, hin, rfl⟩ := onBudget_ok hrel
    obtain ⟨e, events, hekey, hekind, hecost, hevents, rfl⟩ := addCostEventInTx_ok h
    obtain rfl := release_cases hin
    rw [← hkey, ← hr₁]
    obtain ⟨r, hs⟩ := settles_of_updates hdb ha
      (fun a => { a with status := error.outcome, errorCode := some error.code }) (fun _ => rfl) rfl
      (fun r => { r with
        state := .released
        releaseReason := some (if error.outcome = .NOT_SENT then .notSent else .rejected) })
      (fun _ => rfl) (fun _ => rfl) (fun _ => nofun) hevents (hekey.trans hkey.symm)
      (fun _ _ _ => by rcases hout with ho | ho <;> rw [ho] <;> rfl)
      (fun r _ _ => by rw [hstarted, hekind, hecost]; rcases hout with ho | ho <;> rw [ho] <;> rfl)
      (.inr (.inl hstarted))
    exact hs.keeps hdb rfl
  · rename_i hout
    have hunk : error.outcome = .UNKNOWN ∨ error.outcome = .COST_UNKNOWN := by
      cases ho : error.outcome <;> simp_all [isFailure]
    obtain ⟨_, mid, hmark, h⟩ := Tx.bind_ok h
    obtain ⟨budget, hin, rfl⟩ := onBudget_ok hmark
    obtain ⟨e, events, hekey, hekind, hecost, hevents, rfl⟩ := addCostEventInTx_ok h
    obtain rfl := markUnknown_cases hin
    rw [← hkey, ← hr₁]
    obtain ⟨r, hs⟩ := settles_of_updates hdb ha
      (fun a => { a with status := error.outcome, errorCode := some error.code }) (fun _ => rfl) rfl
      (fun r => { r with state := .unknown }) (fun _ => rfl) (fun _ => rfl) (fun _ => nofun) hevents (hekey.trans hkey.symm)
      (fun _ _ _ => by rcases hunk with ho | ho <;> rw [ho] <;> rfl)
      (fun r hr hid => by
        obtain rfl := db.budget.reservations.eq_of_key hr hrm₁ (by rw [hid, hid₁, hr₁])
        rw [hstarted, hekind, hecost, ← hres₁]
        rcases hunk with ho | ho <;> rw [ho] <;> rfl)
      (.inr (.inl hstarted))
    exact hs.keeps hdb rfl

variable {usage : Usage}

theorem reconcile_ok (h : reconcileLateUsageInTx key usage db = .ok v db') :
    ∃ a ∈ db.attempts.rows, a.attemptKey = key ∧
      (v = false ∧ db' = db ∨ v = true ∧ (a.status = .UNKNOWN ∨ a.status = .COST_UNKNOWN) ∧
        db' = db.updateAttempts (fun a => a.attemptKey == key)
          (fun a => { a with
            status := .RECONCILED
            inputTokens := some usage.inputTokens
            outputTokens := some usage.outputTokens }) fun _ => rfl) := by
  obtain ⟨a, mid, hreq, hrest⟩ := Tx.bind_ok h
  obtain ⟨hmem, hkey, hst, rfl⟩ := requireStatus_ok hreq
  refine ⟨a, hmem, hkey, ?_⟩
  split at hrest
  · split at hrest
    · cases hrest
      exact .inl ⟨rfl, rfl⟩
    · cases hrest
  · rename_i hne
    cases hrest
    refine .inr ⟨rfl, ?_, rfl⟩
    cases hs : a.status <;> simp_all [mayReconcile]

theorem corrects_ok (hdb : InStep db) (ha : a ∈ db.attempts.rows) (hkey : a.attemptKey = key)
    (hstatus : a.status = .UNKNOWN ∨ a.status = .COST_UNKNOWN)
    (h : (do
      discard (onBudget (Budget.settleInTx a.reservationId cost true))
      addCostEventInTx a .CORRECTION cost (some usage)
      return true : AiTx Bool)
      (db.updateAttempts (fun a => a.attemptKey == key)
        (fun a => { a with
          status := .RECONCILED
          inputTokens := some usage.inputTokens
          outputTokens := some usage.outputTokens }) fun _ => rfl) = .ok v db') : Keeps (fun a => a.status ≠ .STARTED) db db' := by
  obtain ⟨_, mid, hsettle, hrest⟩ := Tx.bind_ok h
  obtain ⟨v, hrun⟩ := discard_ok hsettle
  obtain ⟨budget, hin, rfl⟩ := onBudget_ok hrun
  obtain ⟨_, mid, hevent, hrest⟩ := Tx.bind_ok hrest
  obtain ⟨e, events, hekey, hekind, hecost, hevents, rfl⟩ := addCostEventInTx_ok hevent
  cases hrest
  obtain ⟨q, hq, hqid, hagree, -⟩ := hdb.attempt a ha
  obtain ⟨row, hrow, hrid, hset | ⟨-, rfl⟩⟩ := settle_cases hin
  · obtain rfl : row = q := db.budget.reservations.eq_of_key hrow hq (hrid.trans hqid.symm)
    rcases hstatus with hst | hst <;> rw [hst] at hagree <;> exact absurd (hagree.symm.trans hset) nofun
  · subst hkey
    obtain ⟨r, hs⟩ := settles_of_updates hdb ha
      (fun a => { a with
        status := .RECONCILED
        inputTokens := some usage.inputTokens
        outputTokens := some usage.outputTokens }) (fun _ => rfl) rfl
      (fun r => { r with state := .settled, actualMicros := some cost }) (fun _ => rfl) (fun _ => rfl) (fun _ _ => rfl) hevents hekey
      (fun _ _ _ => rfl)
      (fun r _ _ => by
        rw [hekind, hecost]
        rcases hstatus with hst | hst <;> rw [hst] <;> rfl)
      (.inr (.inr ⟨hstatus, rfl⟩))
    exact hs.keeps hdb (by rcases hstatus with hst | hst <;> rw [hst] <;> exact nofun)

theorem lateTx_ok (hdb : InStep db) {priceFor : String → String → Option ModelPrice}
    (h : lateTx priceFor key usage db = .ok v db') : Keeps (fun a => a.status ≠ .STARTED) db db' := by
  have h := Tx.get_bind_ok h
  cases hget : db.attempts.get? key with
  | none => simp only [hget] at h; cases h
  | some attempt =>
    simp only [hget] at h
    cases hprice : priceFor attempt.backend attempt.model with
    | none => simp only [hprice] at h; cases h
    | some price =>
      simp only [hprice] at h
      obtain ⟨done, mid, hrec, hrest⟩ := Tx.bind_ok h
      obtain ⟨a, ha, hkey, hcase⟩ := reconcile_ok hrec
      obtain ⟨hattempt, hkey'⟩ := Table.get?_eq_some.mp hget
      obtain rfl : attempt = a := db.attempts.eq_of_key hattempt ha (hkey'.trans hkey.symm)
      rcases hcase with ⟨rfl, rfl⟩ | ⟨rfl, hstatus, rfl⟩
      · cases hrest
        exact Keeps.refl hdb _
      · exact corrects_ok hdb ha hkey hstatus hrest

variable {request : ModelRequest} {role reservationId : String}

theorem beginInTx_ok {backend model : String} (h : beginInTx request role backend model reservationId db = .ok a db') :
    a.status = .STARTED ∧ a.reservationId = reservationId ∧
      ∃ attempts, db.attempts.insert? a = some attempts ∧ db' = { db with attempts := attempts } := by
  have h := Tx.get_bind_ok h
  cases hins : db.attempts.insert? ⟨attemptKeyOf request.requestKey (db.topAttempt request.requestKey + 1),
      request.requestKey, db.topAttempt request.requestKey + 1, role, backend, model, .STARTED, reservationId, none, none,
      none, none⟩ with
  | none => simp only [hins] at h; cases h
  | some attempts =>
    simp only [hins] at h
    cases h
    exact ⟨rfl, rfl, attempts, hins, rfl⟩

variable {B : Budget} {now : Int}

theorem beginTx_ok (hdb : InStep db) {config : RoleConfig} {worstCase : Int} {b : Begun}
    (h : beginTx B role config request worstCase reservationId now db = .ok b db') :
    Keeps (fun _ => False) db db' ∧ BegunOk db' b ∧
      (∃ a ∈ db'.attempts.rows, a.attemptKey = b.attempt.attemptKey ∧ a.status = .STARTED) ∧
      ∀ a ∈ db.attempts.rows, a.attemptKey ≠ b.attempt.attemptKey := by
  obtain ⟨res, mid, hreserve, hrest⟩ := Tx.bind_ok h
  obtain ⟨budget, hin, rfl⟩ := onBudget_ok hreserve
  obtain ⟨s, t, -, -, -, -, hres, rfl, hmicros⟩ := reserveInTx_ok hin
  obtain ⟨a, mid, hbegin, hrest⟩ := Tx.bind_ok hrest
  obtain ⟨hstarted, hid, attempts, hins, rfl⟩ := beginInTx_ok hbegin
  cases hrest
  have hmem : ∀ x, x ∈ attempts.rows ↔ x ∈ db.attempts.rows ∨ x = a := fun x => Table.mem_insert? hins
  have hmemr : ∀ x, x ∈ t.rows ↔ x ∈ db.budget.reservations.rows ∨ x = _ := fun x => Table.mem_insert? hres
  have hfresh : ∀ x ∈ db.attempts.rows, x.attemptKey ≠ a.attemptKey := Table.get?_eq_none.mp (Table.insert?_eq_some hins).1
  have hfreshr : ∀ x ∈ db.budget.reservations.rows, x.reservationId ≠ reservationId :=
    Table.get?_eq_none.mp (Table.insert?_eq_some hres).1
  have hnew : ∀ x ∈ db.attempts.rows, x.reservationId ≠ a.reservationId := by
    intro x hx he
    obtain ⟨r, hr, hrid, -⟩ := hdb.attempt x hx
    exact hfreshr r hr (by rw [hrid, he, hid])
  have ha : a ∈ attempts.rows := (hmem a).mpr (.inr rfl)
  have hr := (hmemr _).mpr (.inr rfl)
  refine ⟨⟨⟨?_, ?_, ?_, ?_, ?_⟩, ⟨?_, ?_⟩, ?_⟩, ⟨⟨a, ha, rfl, hid⟩, _, hr, rfl, hmicros.symm⟩, ⟨a, ha, rfl, hstarted⟩, hfresh⟩
  · intro x hx
    rcases (hmem x).mp hx with hx | rfl
    · obtain ⟨r, hr, hrid, hagree, hev⟩ := hdb.attempt x hx
      exact ⟨r, (hmemr r).mpr (.inl hr), hrid, hagree, hev⟩
    · refine ⟨_, hr, hid.symm, by rw [hstarted]; rfl, ?_⟩
      have hnone : db.events.rows.filter (fun e => e.attemptKey = x.attemptKey) = [] := by
        refine List.filter_eq_nil_iff.mpr fun e he => ?_
        obtain ⟨y, hy, hyk⟩ := hdb.event e he
        have hne : e.attemptKey ≠ x.attemptKey := hyk ▸ hfresh y hy
        simpa using hne
      unfold AiDb.eventsOf
      rw [hnone, hstarted]
      rfl
  · intro r hr
    rcases (hmemr r).mp hr with hr | rfl
    · obtain ⟨x, hx, hxid⟩ := hdb.reservation r hr
      exact ⟨x, (hmem x).mpr (.inl hx), hxid⟩
    · exact ⟨a, ha, hid⟩
  · intro x hx y hy he
    rcases (hmem x).mp hx with hx | rfl <;> rcases (hmem y).mp hy with hy | rfl
    · exact hdb.oneAttempt x hx y hy he
    · exact absurd he (hnew x hx)
    · exact absurd he.symm (hnew y hy)
    · rfl
  · intro e he
    obtain ⟨x, hx, hxk⟩ := hdb.event e he
    exact ⟨x, (hmem x).mpr (.inl hx), hxk⟩
  · intro r hr
    rcases (hmemr r).mp hr with hr | rfl
    · exact hdb.settled r hr
    · exact nofun
  · exact fun x hx => ⟨x, (hmem x).mpr (.inl hx), rfl, rfl, .inl rfl⟩
  · exact fun r hr => ⟨r, (hmemr r).mpr (.inl hr), rfl, rfl⟩
  · exact fun x hx _ => (hmem x).mpr (.inl hx)

theorem setCapTx_ok (hdb : InStep db) {requested : Int} {d : CapChange}
    (h : onBudget (B.setCapInTx requested now) db = .ok d db') : Keeps (fun _ => False) db db' := by
  obtain ⟨budget, hin, rfl⟩ := onBudget_ok h
  have hsame : budget.reservations = db.budget.reservations := by
    cases setCapInTx_ok hin with
    | closed _ hc => cases hc
    | _ => simp [BudgetDb.saveCap]
  refine ⟨⟨?_, ?_, hdb.oneAttempt, hdb.event, ?_⟩, ⟨fun a ha => ⟨a, ha, rfl, rfl, .inl rfl⟩, ?_⟩, fun a ha _ => ha⟩
  · rw [hsame]
    exact hdb.attempt
  · rw [hsame]
    exact hdb.reservation
  · rw [hsame]
    exact hdb.settled
  · rw [hsame]
    exact fun r hr => ⟨r, hr, rfl, rfl⟩

/-! ## Recovery -/

def Estimates (db : AiDb) (a : AttemptRow) (e : CostEventRow) : Prop :=
  e.attemptKey = a.attemptKey ∧ e.kind = .ESTIMATED_UNKNOWN ∧
    ∃ r ∈ db.budget.reservations.rows, r.reservationId = a.reservationId ∧ e.costMicros = r.reservedMicros

variable {l : List AttemptRow}

theorem estimateAll_ok (h : estimateAll l db = .ok () db') :
    db'.budget = db.budget ∧ db'.attempts = db.attempts ∧
      ∃ es, db'.events.rows = db.events.rows ++ es ∧ List.Forall₂ (Estimates db) l es := by
  induction l generalizing db with
  | nil =>
    cases h
    exact ⟨rfl, rfl, [], by simp, .nil⟩
  | cons a rest ih =>
    obtain ⟨row, mid, hget, hrest⟩ := Tx.bind_ok h
    obtain ⟨budget, hin, rfl⟩ := onBudget_ok hget
    obtain ⟨hrow, rfl⟩ := getInTx_ok hin
    obtain ⟨hmem, hid⟩ := Table.get?_eq_some.mp hrow
    obtain ⟨_, mid, hevent, hrest⟩ := Tx.bind_ok hrest
    obtain ⟨e, events, hekey, hekind, hecost, hevents, rfl⟩ := addCostEventInTx_ok hevent
    obtain ⟨hbudget, hattempts, es, hes, hall⟩ := ih hrest
    refine ⟨hbudget, hattempts, e :: es, ?_, .cons ⟨hekey, hekind, row, hmem, hid, hecost⟩ hall⟩
    rw [hes, hevents, List.append_assoc]
    rfl

theorem events_apart {es : List CostEventRow} (h : List.Forall₂ (Estimates db) l es)
    (hnd : (l.map AttemptRow.attemptKey).Nodup) (key : String) :
    (∃ a ∈ l, a.attemptKey = key ∧ ∃ e, Estimates db a e ∧ es.filter (fun e => e.attemptKey = key) = [e]) ∨
      (∀ a ∈ l, a.attemptKey ≠ key) ∧ es.filter (fun e => e.attemptKey = key) = [] := by
  induction h with
  | nil => exact .inr ⟨nofun, rfl⟩
  | @cons a e l es hae _ ih =>
    obtain ⟨hne, hnd⟩ := List.nodup_cons.mp hnd
    by_cases hk : a.attemptKey = key
    · refine .inl ⟨a, List.mem_cons_self, hk, e, hae, ?_⟩
      rcases ih hnd with ⟨b, hb, hbk, -⟩ | ⟨-, hnone⟩
      · exact absurd (List.mem_map.mpr ⟨b, hb, hbk.trans hk.symm⟩) hne
      · rw [List.filter_cons_of_pos (by simp [hae.1, hk]), hnone]
    · have hek : ¬ e.attemptKey = key := fun he => hk (hae.1.symm.trans he)
      rw [List.filter_cons_of_neg (by simp [hek])]
      rcases ih hnd with ⟨b, hb, hrest⟩ | ⟨hl, hnone⟩
      · exact .inl ⟨b, List.mem_cons_of_mem _ hb, hrest⟩
      · exact .inr ⟨List.forall_mem_cons.mpr ⟨hk, hl⟩, hnone⟩

/-- What the recovery makes of an attempt. -/
def AttemptRow.recovered (a : AttemptRow) : AttemptRow :=
  if a.status == .STARTED then { a with status := .UNKNOWN, errorCode := some "PROCESS_RESTARTED" } else a

def ReservationRow.recovered (r : ReservationRow) : ReservationRow :=
  if r.state == .opened then { r with state := .unknown } else r

@[simp] theorem AttemptRow.recovered_attemptKey (a : AttemptRow) : a.recovered.attemptKey = a.attemptKey := by
  unfold AttemptRow.recovered
  split <;> rfl

@[simp] theorem AttemptRow.recovered_reservationId (a : AttemptRow) : a.recovered.reservationId = a.reservationId := by
  unfold AttemptRow.recovered
  split <;> rfl

theorem AttemptRow.recovered_of_started (h : a.status = .STARTED) : a.recovered.status = .UNKNOWN := by
  simp [AttemptRow.recovered, h]

theorem AttemptRow.recovered_of_ne (h : a.status ≠ .STARTED) : a.recovered = a := by
  simp [AttemptRow.recovered, h]

@[simp] theorem ReservationRow.recovered_reservationId (r : ReservationRow) : r.recovered.reservationId = r.reservationId := by
  unfold ReservationRow.recovered
  split <;> rfl

@[simp] theorem ReservationRow.recovered_reservedMicros (r : ReservationRow) : r.recovered.reservedMicros = r.reservedMicros := by
  unfold ReservationRow.recovered
  split <;> rfl

theorem ReservationRow.recovered_cases (r : ReservationRow) : r.recovered = r ∨ r.recovered.state = .unknown := by
  unfold ReservationRow.recovered
  split
  · exact .inr rfl
  · exact .inl rfl

/-- The tables after the recovery. -/
structure Recovers (db db' : AiDb) : Prop where
  attempts : ∀ x, x ∈ db'.attempts.rows ↔ ∃ a ∈ db.attempts.rows, x = a.recovered
  reservations : ∀ x, x ∈ db'.budget.reservations.rows ↔ ∃ r ∈ db.budget.reservations.rows, x = r.recovered
  events : ∃ es, db'.events.rows = db.events.rows ++ es ∧ List.Forall₂ (Estimates db)
    ((db.attempts.rows.filter fun a => a.status == .STARTED).map AttemptRow.recovered) es

theorem recoverTx_cases (h : recoverTx db = .ok () db') : Recovers db db' := by
  obtain ⟨l, mid, hmark, hrest⟩ := Tx.bind_ok h
  cases hmark
  obtain ⟨_, mid, hest, hrest⟩ := Tx.bind_ok hrest
  obtain ⟨hbudget, hattempts, es, hes, hall⟩ := estimateAll_ok hest
  obtain ⟨ids, hrun⟩ := discard_ok hrest
  obtain ⟨budget, hin, rfl⟩ := onBudget_ok hrun
  cases hin
  refine ⟨fun x => ?_, fun x => ?_, es, hes, ?_⟩
  · simp only [hattempts, AiDb.updateAttempts, Table.mem_updateWhere, AttemptRow.recovered]
  · simp only [hbudget, BudgetDb.update, AiDb.updateAttempts, Table.mem_updateWhere, ReservationRow.recovered]
  · have hsame : (db.attempts.rows.filter fun a => a.status == .STARTED).map AttemptRow.recovered =
        (db.attempts.rows.filter fun a => a.status == .STARTED).map fun a =>
          { a with status := .UNKNOWN, errorCode := some "PROCESS_RESTARTED" } := by
      refine List.map_congr_left fun a ha => ?_
      rw [AttemptRow.recovered, if_pos (List.mem_filter.mp ha).2]
    rw [hsame]
    exact hall

/-- Every attempt that was STARTED is UNKNOWN, with the estimate of its reservation. -/
theorem recoverTx_ok (hdb : InStep db) (h : recoverTx db = .ok () db') : Keeps (fun _ => True) db db' := by
  obtain ⟨hattempts, hreservations, es, hes, hall⟩ := recoverTx_cases h
  have hnd : (((db.attempts.rows.filter fun a => a.status == .STARTED).map AttemptRow.recovered).map
      AttemptRow.attemptKey).Nodup := by
    rw [List.map_map, Function.comp_def]
    simp only [AttemptRow.recovered_attemptKey]
    exact (List.filter_sublist.map _).nodup db.attempts.nodup
  have hevents : ∀ key, db'.eventsOf key = db.eventsOf key ++
      (es.filter fun e => e.attemptKey = key).map fun e => (e.kind, e.costMicros) := by
    intro key
    unfold AiDb.eventsOf
    rw [hes, List.filter_append, List.map_append]
  refine ⟨⟨?_, ?_, ?_, ?_, ?_⟩, ⟨?_, ?_⟩, fun a _ hn => absurd trivial hn⟩
  · intro x hx
    obtain ⟨a, ha, rfl⟩ := (hattempts x).mp hx
    obtain ⟨r, hr, hid, hagree, hev⟩ := hdb.attempt a ha
    refine ⟨r.recovered, (hreservations _).mpr ⟨r, hr, rfl⟩, by simp [hid], ?_⟩
    rw [AttemptRow.recovered_attemptKey, hevents, hev]
    by_cases hst : a.status = .STARTED
    · have hopen : r.state = .opened := by
        rw [hst] at hagree
        exact hagree
      refine ⟨by simp [AttemptRow.recovered_of_started hst, ReservationRow.recovered, hopen, Agrees], ?_⟩
      rcases events_apart hall hnd a.attemptKey with ⟨b, hb, hbk, e, he, hfilter⟩ | ⟨hnone, -⟩
      · obtain ⟨c, hc, rfl⟩ := List.mem_map.mp hb
        obtain rfl : c = a := db.attempts.eq_of_key (List.mem_filter.mp hc).1 ha (by simpa using hbk)
        obtain ⟨-, hkind, q, hq, hqid, hcost⟩ := he
        obtain rfl : q = r := db.budget.reservations.eq_of_key hq hr (by simpa [hid] using hqid)
        rw [hfilter, AttemptRow.recovered_of_started hst, hst]
        simp [expectedEvents, hkind, hcost]
      · exact absurd (AttemptRow.recovered_attemptKey a)
          (hnone _ (List.mem_map.mpr ⟨a, List.mem_filter.mpr ⟨ha, by simp [hst]⟩, rfl⟩))
    · have hclosed : r.recovered = r := by
        have : r.state ≠ .opened := by
          intro ho
          rw [ho] at hagree
          cases hs : a.status <;> rw [hs] at hagree <;> first | exact hst hs | cases hagree
        simp [ReservationRow.recovered, this]
      rw [AttemptRow.recovered_of_ne hst, hclosed]
      refine ⟨hagree, ?_⟩
      rcases events_apart hall hnd a.attemptKey with ⟨b, hb, hbk, -⟩ | ⟨-, hfilter⟩
      · obtain ⟨c, hc, rfl⟩ := List.mem_map.mp hb
        obtain ⟨hcm, hcs⟩ := List.mem_filter.mp hc
        obtain rfl : c = a := db.attempts.eq_of_key hcm ha (by simpa using hbk)
        exact absurd (by simpa using hcs) hst
      · rw [hfilter]
        simp
  · intro x hx
    obtain ⟨r, hr, rfl⟩ := (hreservations x).mp hx
    obtain ⟨a, ha, hid⟩ := hdb.reservation r hr
    exact ⟨a.recovered, (hattempts _).mpr ⟨a, ha, rfl⟩, by simp [hid]⟩
  · intro x hx y hy he
    obtain ⟨a, ha, rfl⟩ := (hattempts x).mp hx
    obtain ⟨b, hb, rfl⟩ := (hattempts y).mp hy
    rw [hdb.oneAttempt a ha b hb (by simpa using he)]
  · intro e he
    rw [hes] at he
    rcases List.mem_append.mp he with he | he
    · obtain ⟨a, ha, hk⟩ := hdb.event e he
      exact ⟨a.recovered, (hattempts _).mpr ⟨a, ha, rfl⟩, by simp [hk]⟩
    · obtain ⟨b, hb, hbe⟩ := forall₂_left hall he
      obtain ⟨a, ha, rfl⟩ := List.mem_map.mp hb
      exact ⟨a.recovered, (hattempts _).mpr ⟨a, (List.mem_filter.mp ha).1, rfl⟩, hbe.1.symm⟩
  · intro x hx hset
    obtain ⟨r, hr, rfl⟩ := (hreservations x).mp hx
    rcases r.recovered_cases with h | h
    · rw [h] at hset ⊢
      exact hdb.settled r hr hset
    · rw [h] at hset
      cases hset
  · intro a ha
    refine ⟨a.recovered, (hattempts _).mpr ⟨a, ha, rfl⟩, by simp, by simp, ?_⟩
    by_cases hst : a.status = .STARTED
    · exact .inr (.inl hst)
    · rw [AttemptRow.recovered_of_ne hst]
      exact .inl rfl
  · exact fun r hr => ⟨r.recovered, (hreservations _).mpr ⟨r, hr, rfl⟩, by simp, by simp⟩

end

end MmrTrader.Ai
