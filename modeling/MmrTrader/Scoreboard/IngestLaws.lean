import Mathlib.Data.List.Induction
import MmrTrader.Scoreboard.Ingest

/-!
# Laws of the ingestion

* `CostAdmitted`, `costTx_ok`, `simulatedTx_ok` — what a transaction that returns did.
* `recordCost_cases`, `recordSimulated_cases` — a command inserts one record, or changes nothing.
* `CostsOk`, `CostsOk.insert` — originals, their corrections and their numbers.
-/

namespace MmrTrader.Scoreboard

open Lib

/-! ## What a transaction did -/

def CostRequest.call (r : CostRequest) : String × String × String × String × String × Int :=
  (r.experimentId, r.role, r.provider, r.model, r.attemptId, r.calledAt)

/-- What `_cost_checks` found for the row. -/
def CostAdmitted (db : ScoreboardDb) (row : CostRow) : Prop :=
  match row.correctsRecordId with
  | none => row.correctionSeq = 0 ∧ ∀ r ∈ db.costs.rows, r.correctsRecordId = none → r.experimentId = row.experimentId →
      r.attemptId ≠ row.attemptId
  | some target => ∃ o ∈ db.costs.rows, o.recordId = target ∧ o.correctsRecordId = none ∧
      o.toCostRequest.call = row.toCostRequest.call ∧ ∃ latest, latestOf (db.recordsOf target) = some latest ∧
        latest.costStatus.rank ≤ row.costStatus.rank ∧ row.correctionSeq = latest.correctionSeq + 1

variable {db db' : ScoreboardDb}

theorem costChecks_ok {req : CostRequest} {seq : Nat} (h : costChecks req db = .ok seq db') :
    db' = db ∧ ∀ bodyDigest recordedAt,
      CostAdmitted db { req with correctionSeq := seq, bodyDigest := bodyDigest, recordedAt := recordedAt } := by
  have h := Tx.get_bind_ok h
  unfold CostAdmitted
  dsimp only
  cases hc : req.correctsRecordId with
  | none =>
    simp only [hc] at h
    obtain ⟨hclash, h⟩ := Tx.refuseIf_bind_ok h
    cases h
    exact ⟨rfl, fun _ _ => ⟨rfl, fun r hr hn he ha => hclash ⟨r, hr, he, ha, hn⟩⟩⟩
  | some target =>
    simp only [hc] at h
    cases hg : db.costs.get? target with
    | none => simp only [hg] at h; cases h
    | some o =>
      simp only [hg] at h
      obtain ⟨horig, h⟩ := Tx.refuseIf_bind_ok h
      obtain ⟨hcall, h⟩ := Tx.refuseIf_bind_ok h
      cases hl : latestOf (db.recordsOf target) with
      | none => simp only [hl] at h; cases h
      | some latest =>
        simp only [hl] at h
        obtain ⟨hrank, h⟩ := Tx.refuseIf_bind_ok h
        cases h
        obtain ⟨hmem, hid⟩ := Table.get?_eq_some.mp hg
        exact ⟨rfl, fun _ _ => ⟨o, hmem, hid, by simpa using horig, not_not.mp hcall, latest, hl, Nat.not_lt.mp hrank, rfl⟩⟩

variable {status : IngestStatus}

theorem ingestSealedMany_ok {found : ScoreboardDb → Option String} {digest : String} {insert : ScoreboardTx Unit}
    (h : ingestSealedMany found digest insert db = .ok status db') :
    status = .DUPLICATE ∧ db' = db ∧ found db = some digest ∨
      status = .INSERTED ∧ found db = none ∧ insert db = .ok () db' := by
  have h := Tx.get_bind_ok h
  cases hf : found db with
  | some d =>
    simp only [hf] at h
    split at h
    · rename_i hd
      cases h
      exact .inl ⟨rfl, rfl, by rw [hd]⟩
    · cases h
  | none =>
    simp only [hf] at h
    obtain ⟨_, mid, hins, h⟩ := Tx.bind_ok h
    cases h
    exact .inr ⟨rfl, rfl, hins⟩

variable {D : Digests} {row : CostRow}

theorem insertCost_ok (h : insertCost D row db = .ok () db') :
    db.costs.insert? row = some db'.costs ∧ db'.decisions = db.decisions := by
  have h := Tx.get_bind_ok h
  cases hi : db.costs.insert? row with
  | none => simp only [hi] at h; cases h
  | some costs =>
    simp only [hi] at h
    cases h
    exact ⟨rfl, rfl⟩

theorem insertDecision_ok {row : SimulatedRow} (h : insertDecision D row db = .ok () db') :
    db.decisions.insert? row = some db'.decisions ∧ db'.costs = db.costs := by
  have h := Tx.get_bind_ok h
  cases hi : db.decisions.insert? row with
  | none => simp only [hi] at h; cases h
  | some decisions =>
    simp only [hi] at h
    cases h
    exact ⟨rfl, rfl⟩

theorem insertOutcome_ok {row : OutcomeRow} (h : insertOutcome D row db = .ok () db') :
    db'.decisions = db.decisions ∧ db'.costs = db.costs := by
  have h := Tx.get_bind_ok h
  cases hi : db.outcomes.insert? row with
  | none => simp only [hi] at h; cases h
  | some outcomes =>
    simp only [hi] at h
    cases h
    exact ⟨rfl, rfl⟩

/-! ## What a command did -/

structure CostInserted (req : CostRequest) (db db' : ScoreboardDb) (row : CostRow) : Prop where
  request : row.toCostRequest = req
  costs : db.costs.insert? row = some db'.costs
  decisions : db'.decisions = db.decisions
  admitted : CostAdmitted db row

/-- The row says what the request says, but for the links and the quantity that the trader fills in. -/
def SimulatedRow.records (row : SimulatedRow) (req : SimulatedRequest) : Prop :=
  row.toSimulatedRequest = { req with
    linkedDecisionId := row.linkedDecisionId
    linkedRoundTripId := row.linkedRoundTripId
    quantity := row.quantity }

variable {req : SimulatedRequest}

theorem SimulatedRow.records.recordId {row : SimulatedRow} (h : row.records req) : row.recordId = req.recordId := by
  rw [h]

structure SimulatedInserted (req : SimulatedRequest) (D : Digests) (db db' : ScoreboardDb) (row : SimulatedRow) : Prop where
  request : row.records req
  digest : row.bodyDigest = D.simulated req
  decisions : db.decisions.insert? row = some db'.decisions
  costs : db'.costs = db.costs

theorem IngestError.reply_ne_done (e : IngestError) (recordId : String) (status : IngestStatus) (id : String) :
    e.reply recordId ≠ some (.done status id) := by
  cases e <;> exact nofun

theorem guarded_cases (recordId : String) (allowed : Except IngestError Unit) (commit : Option IngestError)
    (tx : ScoreboardTx IngestStatus) (db : ScoreboardDb) :
    (∃ status, (guarded recordId allowed commit tx db).1 = some (.done status recordId) ∧
      tx db = .ok status (guarded recordId allowed commit tx db).2) ∨
    (guarded recordId allowed commit tx db).2 = db ∧
      ∀ status id, (guarded recordId allowed commit tx db).1 ≠ some (.done status id) := by
  unfold guarded
  cases allowed with
  | error e => exact .inr ⟨rfl, e.reply_ne_done recordId⟩
  | ok _ =>
    dsimp only
    cases ht : transaction commit tx db with
    | ok status db' => exact .inl ⟨status, rfl, transaction_ok ht⟩
    | error e db' => exact .inr ⟨transaction_error ht, e.reply_ne_done recordId⟩

/-- `record_cost` inserts the record, recognises it or changes nothing. -/
theorem recordCost_cases (F : Facts) (req : CostRequest) (now : Int) (commit : Option IngestError) (db : ScoreboardDb) :
    (∃ row, (recordCost F req now commit db).1 = some (.done .INSERTED req.recordId) ∧
      CostInserted req db (recordCost F req now commit db).2 row) ∨
    (recordCost F req now commit db).2 = db ∧ ∀ status id, (recordCost F req now commit db).1 = some (.done status id) →
      status = .DUPLICATE ∧ id = req.recordId ∧ ∃ row ∈ db.costs.rows, row.recordId = req.recordId ∧
        row.bodyDigest = F.digests.cost req := by
  unfold recordCost
  rcases guarded_cases req.recordId (costAllowed F req) commit (costTx F.digests req now) db with ⟨status, hr, htx⟩ | ⟨hsame, hr⟩
  · rcases ingestSealedMany_ok htx with ⟨rfl, hsame, hfound⟩ | ⟨rfl, -, hins⟩
    · refine .inr ⟨hsame, fun status id heq => ?_⟩
      rw [hr] at heq
      cases heq
      obtain ⟨row, hrow, hd⟩ := Option.map_eq_some_iff.mp hfound
      obtain ⟨hmem, hid⟩ := Table.get?_eq_some.mp hrow
      exact ⟨rfl, rfl, row, hmem, hid, hd⟩
    · obtain ⟨seq, mid, hchecks, hins⟩ := Tx.bind_ok hins
      obtain ⟨rfl, hadmitted⟩ := costChecks_ok hchecks
      obtain ⟨hcosts, hdec⟩ := insertCost_ok hins
      exact .inl ⟨_, hr, rfl, hcosts, hdec, hadmitted _ _⟩
  · exact .inr ⟨hsame, fun status id heq => absurd heq (hr status id)⟩

variable {outcome : Option OutcomeRow}

theorem simulatedRows_ok {F : Facts} {input : SimulatedInput} {known : Bool} {row : SimulatedRow}
    (h : simulatedRows F req input known = .ok (row, outcome)) : row.records req ∧ row.bodyDigest = F.digests.simulated req := by
  obtain ⟨experiment, -, h⟩ := bind_ok h
  obtain ⟨_, -, h⟩ := bind_ok h
  obtain ⟨links, -, h⟩ := bind_ok h
  cases h
  exact ⟨rfl, rfl⟩

theorem opportunityCheck_ok (h : opportunityCheck req db = .ok () db') : db' = db := by
  change Tx.refuseIf _ _ db = _ at h
  exact (Tx.refuseIf_ok h).2

theorem simulatedTx_ok {row : SimulatedRow} (h : simulatedTx D req row outcome db = .ok status db') :
    status = .DUPLICATE ∧ db' = db ∧ (db.decisions.get? req.recordId).map SimulatedRow.bodyDigest = some (D.simulated req) ∨
      status = .INSERTED ∧ db.decisions.insert? row = some db'.decisions ∧ db'.costs = db.costs := by
  rcases ingestSealedMany_ok h with hdup | ⟨hst, -, hins⟩
  · exact .inl hdup
  · obtain ⟨_, mid, hcheck, hinserts⟩ := Tx.bind_ok hins
    obtain rfl := opportunityCheck_ok hcheck
    obtain ⟨_, next, hrow, hrest⟩ := Tx.bind_ok hinserts
    obtain ⟨hdec, hcosts⟩ := insertDecision_ok hrow
    cases outcome with
    | none =>
      cases hrest
      exact .inr ⟨hst, hdec, hcosts⟩
    | some outcome =>
      obtain ⟨hdec', hcosts'⟩ := insertOutcome_ok hrest
      exact .inr ⟨hst, by rw [hdec']; exact hdec, hcosts'.trans hcosts⟩

/-- `record_simulated` inserts the record, recognises it or changes nothing. -/
theorem recordSimulated_cases (F : Facts) (req : SimulatedRequest) (input : SimulatedInput) (commit : Option IngestError)
    (db : ScoreboardDb) :
    (∃ row, (recordSimulated F req input commit db).1 = some (.done .INSERTED req.recordId) ∧
      SimulatedInserted req F.digests db (recordSimulated F req input commit db).2 row) ∨
    (recordSimulated F req input commit db).2 = db ∧ ∀ status id,
      (recordSimulated F req input commit db).1 = some (.done status id) →
      status = .DUPLICATE ∧ id = req.recordId ∧ ∃ row ∈ db.decisions.rows, row.recordId = req.recordId ∧
        row.bodyDigest = F.digests.simulated req := by
  unfold recordSimulated
  cases hrows : simulatedRows F req input (db.decisions.get? req.recordId).isSome with
  | error e => exact .inr ⟨rfl, fun status id heq => absurd heq (e.reply_ne_done req.recordId status id)⟩
  | ok r =>
    obtain ⟨row, outcome⟩ := r
    obtain ⟨hid, hdigest⟩ := simulatedRows_ok hrows
    dsimp only
    rcases guarded_cases req.recordId (.ok ()) commit (simulatedTx F.digests req row outcome) db with
      ⟨status, hr, htx⟩ | ⟨hsame, hr⟩
    · rcases simulatedTx_ok htx with ⟨rfl, hsame, hfound⟩ | ⟨rfl, hdec, hcosts⟩
      · refine .inr ⟨hsame, fun status id heq => ?_⟩
        rw [hr] at heq
        cases heq
        obtain ⟨found, hget, hd⟩ := Option.map_eq_some_iff.mp hfound
        obtain ⟨hmem, hk⟩ := Table.get?_eq_some.mp hget
        exact ⟨rfl, rfl, found, hmem, hk, hd⟩
      · exact .inl ⟨row, hr, hid, hdigest, hdec, hcosts⟩
    · exact .inr ⟨hsame, fun status id heq => absurd heq (hr status id)⟩

/-! ## Originals and corrections -/

/-- An original, with its corrections in the order they were stored. -/
structure Corrected (db : ScoreboardDb) (o : CostRow) (cs : List CostRow) : Prop where
  records : db.recordsOf o.recordId = o :: cs
  corrects : ∀ c ∈ cs, c.correctsRecordId = some o.recordId
  /-- The original is 0 and its corrections are numbered from 1. -/
  numbers : (o :: cs).map CostRow.correctionSeq = List.range (cs.length + 1)
  /-- The status never weakens. -/
  ranks : (o :: cs).Pairwise fun r r' => r.costStatus.rank ≤ r'.costStatus.rank

structure CostsOk (db : ScoreboardDb) : Prop where
  original : ∀ o ∈ db.costs.rows, o.correctsRecordId = none → ∃ cs, Corrected db o cs
  target : ∀ c ∈ db.costs.rows, ∀ t, c.correctsRecordId = some t → ∃ o ∈ db.costs.rows, o.recordId = t ∧
    o.correctsRecordId = none ∧ o.toCostRequest.call = c.toCostRequest.call
  once : ∀ r ∈ db.costs.rows, ∀ r' ∈ db.costs.rows, r.correctsRecordId = none → r'.correctsRecordId = none →
    r.experimentId = r'.experimentId → r.attemptId = r'.attemptId → r = r'

theorem CostsOk.empty : CostsOk ScoreboardDb.empty :=
  ⟨fun _ ho => absurd ho List.not_mem_nil, fun _ hc => absurd hc List.not_mem_nil, fun _ hr => absurd hr List.not_mem_nil⟩

theorem latestOf_numbered {l : List CostRow} (h : l.map CostRow.correctionSeq = List.range l.length) :
    latestOf l = l.getLast? := by
  induction l using List.reverseRecOn with
  | nil => rfl
  | append_singleton l a ih =>
    rw [List.map_append, List.length_append, List.length_singleton, List.range_succ] at h
    obtain ⟨hl, ha⟩ := List.append_inj' h rfl
    have ha : a.correctionSeq = l.length := by simpa using ha
    unfold latestOf at ih ⊢
    rw [List.foldl_append, ih hl, List.getLast?_append, List.getLast?_singleton]
    cases hlast : l.getLast? with
    | none => rfl
    | some b =>
      have hb : b.correctionSeq < l.length := by
        have hmem : b.correctionSeq ∈ l.map CostRow.correctionSeq := List.mem_map_of_mem (List.mem_of_getLast? hlast)
        rw [hl] at hmem
        exact List.mem_range.mp hmem
      simp [ha, hb]

theorem recordsOf_insert (h : db.costs.insert? row = some db'.costs) (t : String) :
    db'.recordsOf t = db.recordsOf t ++ if row.recordId = t ∨ row.correctsRecordId = some t then [row] else [] := by
  unfold ScoreboardDb.recordsOf
  rw [(Table.insert?_eq_some h).2, List.filter_append]
  congr 1
  by_cases hc : row.recordId = t ∨ row.correctsRecordId = some t
  · rw [if_pos hc, List.filter_cons_of_pos (by simpa using hc), List.filter_nil]
  · rw [if_neg hc, List.filter_cons_of_neg (by simpa using hc), List.filter_nil]

theorem Corrected.add {o latest : CostRow} {cs : List CostRow} (h : Corrected db o cs)
    (hins : db.costs.insert? row = some db'.costs) (hrow : row.correctsRecordId = some o.recordId)
    (hlatest : latestOf (db.recordsOf o.recordId) = some latest) (hrank : latest.costStatus.rank ≤ row.costStatus.rank)
    (hseq : row.correctionSeq = latest.correctionSeq + 1) : Corrected db' o (cs ++ [row]) := by
  have hlen : (o :: cs).length = cs.length + 1 := rfl
  rw [h.records, latestOf_numbered (by rw [h.numbers, hlen])] at hlatest
  obtain ⟨l, hl⟩ := List.getLast?_eq_some_iff.mp hlatest
  have hnumbers := h.numbers
  have hranks := h.ranks
  have hlenl : l.length = cs.length := by
    have := congrArg List.length hl
    simp at this
    omega
  have hlast : latest.correctionSeq = cs.length := by
    rw [hl, List.map_append, List.range_succ] at hnumbers
    simpa using (List.append_inj' hnumbers rfl).2
  refine ⟨?_, fun c hc => ?_, ?_, ?_⟩
  · rw [recordsOf_insert hins, if_pos (.inr hrow), h.records]
    rfl
  · rcases List.mem_append.mp hc with hc | hc
    · exact h.corrects c hc
    · rw [List.mem_singleton.mp hc]
      exact hrow
  · rw [← List.cons_append, List.map_append, h.numbers, List.length_append, List.length_singleton, List.range_succ (n := _ + 1)]
    simp [hseq, hlast]
  · rw [← List.cons_append, List.pairwise_append]
    refine ⟨hranks, List.pairwise_singleton _ _, fun r hr x hx => ?_⟩
    rw [List.mem_singleton.mp hx]
    rw [hl] at hr hranks
    rcases List.mem_append.mp hr with hr | hr
    · exact ((List.pairwise_append.mp hranks).2.2 r hr latest List.mem_cons_self).trans hrank
    · rw [List.mem_singleton.mp hr]
      exact hrank

/-- **An inserted cost keeps originals and corrections in order.** -/
theorem CostsOk.insert (h : CostsOk db) (hins : db.costs.insert? row = some db'.costs)
    (hrow : CostAdmitted db row) : CostsOk db' := by
  have hmem : ∀ x, x ∈ db'.costs.rows ↔ x ∈ db.costs.rows ∨ x = row := fun x => Table.mem_insert? hins
  have hfresh : ∀ r ∈ db.costs.rows, r.recordId ≠ row.recordId := Table.get?_eq_none.mp (Table.insert?_eq_some hins).1
  -- a new record is corrected by nothing yet, and leaves the records of the others alone
  have hnone : db.recordsOf row.recordId = [] := by
    refine List.filter_eq_nil_iff.mpr fun r hr => ?_
    have hid := hfresh r hr
    have htarget : r.correctsRecordId ≠ some row.recordId := by
      intro hc
      obtain ⟨o, ho, hoid, -⟩ := h.target r hr _ hc
      exact hfresh o ho hoid
    simp [hid, htarget]
  have hkeep : ∀ o ∈ db.costs.rows, row.correctsRecordId ≠ some o.recordId → ∀ cs, Corrected db o cs → Corrected db' o cs := by
    intro o ho hne cs hcs
    refine ⟨?_, hcs.corrects, hcs.numbers, hcs.ranks⟩
    rw [recordsOf_insert hins, if_neg (not_or.mpr ⟨(hfresh o ho).symm, hne⟩), List.append_nil, hcs.records]
  unfold CostAdmitted at hrow
  cases hc : row.correctsRecordId with
  | none =>
    rw [hc] at hrow
    obtain ⟨hseq, hclash⟩ := hrow
    refine ⟨fun o ho hon => ?_, fun c hcm t ht => ?_, fun r hr r' hr' hn hn' he ha => ?_⟩
    · rcases (hmem o).mp ho with ho | rfl
      · obtain ⟨cs, hcs⟩ := h.original o ho hon
        exact ⟨cs, hkeep o ho (by rw [hc]; exact nofun) cs hcs⟩
      · refine ⟨[], ?_, List.forall_mem_nil _, by simp [hseq], List.pairwise_singleton _ _⟩
        rw [recordsOf_insert hins, if_pos (.inl rfl), hnone, List.nil_append]
    · rcases (hmem c).mp hcm with hcm | rfl
      · obtain ⟨o, ho, hrest⟩ := h.target c hcm t ht
        exact ⟨o, (hmem o).mpr (.inl ho), hrest⟩
      · rw [hc] at ht
        cases ht
    · rcases (hmem r).mp hr with hr | rfl <;> rcases (hmem r').mp hr' with hr' | rfl
      · exact h.once r hr r' hr' hn hn' he ha
      · exact absurd ha (hclash r hr hn he)
      · exact absurd ha.symm (hclash r' hr' hn' he.symm)
      · rfl
  | some t =>
    rw [hc] at hrow
    obtain ⟨o, ho, hoid, hon, hcall, latest, hlatest, hrank, hseq⟩ := hrow
    refine ⟨fun x hx hxn => ?_, fun c hcm t' ht => ?_, fun r hr r' hr' hn hn' he ha => ?_⟩
    · rcases (hmem x).mp hx with hx | rfl
      · obtain ⟨cs, hcs⟩ := h.original x hx hxn
        by_cases hxt : x.recordId = t
        · exact ⟨cs ++ [row], hcs.add hins (by rw [hc, hxt]) (by rw [hxt]; exact hlatest) hrank hseq⟩
        · exact ⟨cs, hkeep x hx (by rw [hc]; exact fun heq => hxt (Option.some.inj heq).symm) cs hcs⟩
      · rw [hc] at hxn
        cases hxn
    · rcases (hmem c).mp hcm with hcm | rfl
      · obtain ⟨o', ho', hrest⟩ := h.target c hcm t' ht
        exact ⟨o', (hmem o').mpr (.inl ho'), hrest⟩
      · obtain rfl : t = t' := Option.some.inj (hc.symm.trans ht)
        exact ⟨o, (hmem o).mpr (.inl ho), hoid, hon, hcall⟩
    · rcases (hmem r).mp hr with hr | rfl <;> rcases (hmem r').mp hr' with hr' | rfl
      · exact h.once r hr r' hr' hn hn' he ha
      · rw [hc] at hn'
        cases hn'
      · rw [hc] at hn
        cases hn
      · rfl

theorem CostsOk.of_costs (h : CostsOk db) (hsame : db'.costs = db.costs) : CostsOk db' := by
  have hrecords : ∀ t, db'.recordsOf t = db.recordsOf t := fun t => by unfold ScoreboardDb.recordsOf; rw [hsame]
  refine ⟨?_, ?_, ?_⟩
  · rw [hsame]
    intro o ho hon
    obtain ⟨cs, hcs⟩ := h.original o ho hon
    exact ⟨cs, (hrecords _).trans hcs.records, hcs.corrects, hcs.numbers, hcs.ranks⟩
  · rw [hsame]
    exact h.target
  · rw [hsame]
    exact h.once

end MmrTrader.Scoreboard
