import MmrTrader.Ai.OutboxLaws

/-!
# Costs and baselines are reported once

* `Reporting.Inv.step`, `Reporting.Inv.run` — every step of either party keeps the invariant.
* `Reporting.refused_unchanged` — what the trader does not insert changes nothing.
* `Reporting.reported_once` — the main result.
-/

namespace MmrTrader.Ai

open Lib Scoreboard

namespace Reporting

variable {I : Ids} {F : Facts} {w : Reporting}

/-- The gateway commits an event; its number is the highest so far. -/
theorem Inv.costEvent (h : Inv I F w) (e : CostEventRow) (skipped : Nat) :
    Inv I F { w with
      events := w.events ++ [{ e with eventSeq := w.nextSeq + skipped }]
      nextSeq := w.nextSeq + skipped + 1 } := by
  have hlater : EventsLater w { w with
      events := w.events ++ [{ e with eventSeq := w.nextSeq + skipped }]
      nextSeq := w.nextSeq + skipped + 1 } := by
    refine ⟨RowsLater.refl _, by dsimp only; omega, fun x hx => ?_⟩
    rcases List.mem_append.mp hx with hx | hx
    · exact .inl hx
    · rw [List.mem_singleton.mp hx]
      exact .inr (Nat.le_add_right _ _)
  refine { h with numbered := fun x hx => ?_, sorted := ?_, cursor := h.cursor.later hlater,
                  pumps := fun p hp => (h.pumps p hp).later hlater }
  · rcases List.mem_append.mp hx with hx | hx
    · have := h.numbered x hx
      dsimp only
      omega
    · rw [List.mem_singleton.mp hx]
      exact Nat.lt_succ_self _
  · refine List.pairwise_append.mpr ⟨h.sorted, List.pairwise_singleton _ _, fun x hx y hy => ?_⟩
    rw [List.mem_singleton.mp hy]
    exact Nat.lt_of_lt_of_le (h.numbered x hx) (Nat.le_add_right _ _)

theorem Inv.enqueueSimulated (h : Inv I F w) (experimentId : String) (b : SimulatedBaseline) (wait : Option String)
    (now : Int) : Inv I F { w with outbox := enqueueSimulatedInTx I experimentId b wait now w.outbox } := by
  refine h.outbox (enqueueSimulatedInTx_ok h.rows experimentId b wait now) (RowsLater.insertIgnore _ _) fun o ho hst => ?_
  rcases mem_insertIgnore ho with ho | rfl
  · exact h.delivered o ho hst
  · dsimp only at hst
    split at hst <;> cases hst

theorem Inv.elim {α : Type} {o : Option α} {f : α → Reporting} (h : Inv I F w) (hf : ∀ a, o = some a → Inv I F (f a)) :
    Inv I F (o.elim w f) := by
  cases o with
  | none => exact h
  | some a => exact hf a rfl

theorem Inv.step (h : Inv I F w) (act : ReportingAct) : Inv I F (w.step I F act) := by
  cases act with
  | begin a => exact { h with }
  | register c => exact { h with }
  | costEvent e skipped =>
    unfold Reporting.step
    dsimp only
    split
    · exact h
    · exact h.costEvent e skipped
  | enqueueSimulated experimentId b wait now => exact h.enqueueSimulated experimentId b wait now
  | pumpCosts =>
    refine h.withPumps fun p hp => ?_
    rcases List.mem_append.mp hp with hp | hp
    · exact h.pumps p hp
    · rw [List.mem_singleton.mp hp]
      trivial
  | pump i a => exact h.elim fun p hi => h.pump a hi
  | releaseWaiting submissions => exact h.releaseWaiting submissions
  | deliverDue =>
    refine h.withDeliveries fun d hd => ?_
    rcases List.mem_append.mp hd with hd | hd
    · exact h.deliveries d hd
    · rw [List.mem_singleton.mp hd]
      trivial
  | deliver i a => exact h.elim fun d hi => h.deliver a hi
  | handle k input commit => exact h.elim fun body hk => h.handle (List.mem_of_getElem? hk) input commit
  | crash =>
    exact { h with pumps := fun _ hp => absurd hp List.not_mem_nil, deliveries := fun _ hd => absurd hd List.not_mem_nil }

theorem Inv.run (I : Ids) (F : Facts) (acts : List ReportingAct) : Inv I F (run I F acts) := by
  have hfold : ∀ {w : Reporting}, Inv I F w → Inv I F (acts.foldl (Reporting.step I F) w) := by
    induction acts with
    | nil => exact fun h => h
    | cons act acts ih => exact fun h => ih (h.step act)
  exact hfold (Inv.init I F)

theorem refused_unchanged (w : Reporting) (k : Nat) (input : SimulatedInput) (commit : Option IngestError) :
    (w.step I F (.handle k input commit)).trader = w.trader ∨ ∃ recordId,
      (w.step I F (.handle k input commit)).replies = w.replies ++ [.done .INSERTED recordId] := by
  unfold Reporting.step
  dsimp only
  cases w.requests[k]? with
  | none => exact .inl rfl
  | some body =>
    cases body with
    | eventOnly id => exact .inl rfl
    | cost req =>
      rcases recordCost_cases F req input.now commit w.trader with ⟨row, hr, -⟩ | ⟨hdb, -⟩
      · refine .inr ⟨req.recordId, ?_⟩
        change w.replies ++ (recordCost F req input.now commit w.trader).1.toList = _
        rw [hr]
        rfl
      · exact .inl hdb
    | simulated req =>
      rcases recordSimulated_cases F req input commit w.trader with ⟨row, hr, -⟩ | ⟨hdb, -⟩
      · refine .inr ⟨req.recordId, ?_⟩
        change w.replies ++ (recordSimulated F req input commit w.trader).1.toList = _
        rw [hr]
        rfl
      · exact .inl hdb

theorem run_append (pre : List ReportingAct) (act : ReportingAct) :
    run I F (pre ++ [act]) = (run I F pre).step I F act := by
  unfold run
  rw [List.foldl_append]
  rfl

/-- **Costs and baselines reach the trader once, in every run of both parties.**  Up to the cursor an event has one row; what
is sent under one id is one body; the trader's row of an id has that body, and a delivered record has its row; the records of
an original are numbered in the order they were stored, with a status that never weakens; an attempt has one original cost; and
a request that is not answered INSERTED changes nothing at the trader. -/
theorem reported_once (I : Ids) (F : Facts) (acts : List ReportingAct) :
    let w := run I F acts
    (∀ e ∈ w.events, e.eventSeq ≤ w.cursor → ∃! o, o ∈ w.outbox.rows ∧ o.IsCost ∧ o.sourceRef = e.eventId) ∧
    (∀ b ∈ w.requests, ∀ b' ∈ w.requests, b.recordId? = b'.recordId? → b = b') ∧
    (∀ r ∈ w.trader.costs.rows, Body.cost r.toCostRequest ∈ w.requests ∧
      ∀ r' ∈ w.trader.costs.rows, r'.recordId = r.recordId → r' = r) ∧
    (∀ r ∈ w.trader.decisions.rows, (∃ req, Body.simulated req ∈ w.requests ∧ r.records req ∧
      r.bodyDigest = F.digests.simulated req) ∧ ∀ r' ∈ w.trader.decisions.rows, r'.recordId = r.recordId → r' = r) ∧
    (∀ o ∈ w.outbox.rows, o.state = .DELIVERED → Stored F w.trader o.body) ∧
    (∀ o ∈ w.trader.costs.rows, o.correctsRecordId = none → ∃ cs, Corrected w.trader o cs) ∧
    (∀ c ∈ w.trader.costs.rows, ∀ t, c.correctsRecordId = some t → ∃ o ∈ w.trader.costs.rows, o.recordId = t ∧
      o.correctsRecordId = none ∧ ∃ cs, Corrected w.trader o cs ∧ c ∈ cs) ∧
    (∀ r ∈ w.trader.costs.rows, ∀ r' ∈ w.trader.costs.rows, r.correctsRecordId = none → r'.correctsRecordId = none →
      r.experimentId = r'.experimentId → r.attemptId = r'.attemptId → r = r') ∧
    (∀ pre k input commit, pre ++ [.handle k input commit] <+: acts →
      (∀ recordId, (run I F (pre ++ [.handle k input commit])).replies ≠
        (run I F pre).replies ++ [.done .INSERTED recordId]) →
      (run I F (pre ++ [.handle k input commit])).trader = (run I F pre).trader) := by
  intro w
  have h : Inv I F w := Inv.run I F acts
  refine ⟨fun e he hle => ?_, fun b hb b' hb' hid => ?_, fun r hr => ⟨h.cost r hr, fun r' hr' hid => ?_⟩,
    fun r hr => ⟨h.decision r hr, fun r' hr' hid => ?_⟩, h.delivered, h.costs.original, fun c hc t ht => ?_, h.costs.once,
    fun pre k input commit _ hne => ?_⟩
  · obtain ⟨o, ho, hcost, hr, hs⟩ := h.cursor.2 e he hle
    refine ⟨o, ⟨ho, hcost, hs⟩, fun o' ⟨ho', hcost', hs'⟩ => w.outbox.eq_of_key ho' ho ?_⟩
    rw [hr, ← hs']
    exact (h.rows o' ho').recordId_of_isCost hcost'
  · obtain ⟨id, hf⟩ := h.requests b hb
    obtain ⟨id', hf'⟩ := h.requests b' hb'
    obtain rfl : id = id' := Option.some.inj (hf.recordId?.symm.trans (hid.trans hf'.recordId?))
    exact hf.unique hf'
  · exact w.trader.costs.eq_of_key hr' hr hid
  · exact w.trader.decisions.eq_of_key hr' hr hid
  · obtain ⟨o, ho, hid, hn, -⟩ := h.costs.target c hc t ht
    obtain ⟨cs, hcs⟩ := h.costs.original o ho hn
    refine ⟨o, ho, hid, hn, cs, hcs, ?_⟩
    have hmem : c ∈ w.trader.recordsOf o.recordId := List.mem_filter.mpr ⟨hc, by simp [ht, hid]⟩
    rw [hcs.records] at hmem
    rcases List.mem_cons.mp hmem with rfl | hmem
    · rw [ht] at hn
      cases hn
    · exact hmem
  · rw [run_append] at hne ⊢
    rcases refused_unchanged (run I F pre) k input commit with hsame | ⟨recordId, hr⟩
    · exact hsame
    · exact absurd hr (hne recordId)

end Reporting

end MmrTrader.Ai
