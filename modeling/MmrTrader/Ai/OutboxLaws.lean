import MmrTrader.Ai.Outbox
import MmrTrader.Scoreboard.IngestLaws

/-!
# Laws of the reporting outbox

* `OutboxRow.Ok`, `Fixed` — how rows are named; a row that is due keeps its body.
* `Covered`, `Pump.Ok` — what a call of `pump_costs` knows of the events.
* `Outgoing.Ok`, `Stored`, `Delivery.Ok` — what a call of `deliver_due` knows of its rows.
-/

namespace MmrTrader.Ai

open Lib Scoreboard

/-! ## Rows -/

section
variable {R K : Type} {key : R → K} [DecidableEq K]
variable {row x : R}

theorem mem_insertIgnore {t : Table key} (h : x ∈ (insertIgnore t row).rows) : x ∈ t.rows ∨ x = row := by
  unfold insertIgnore at h
  cases hi : t.insert? row with
  | none =>
    rw [hi] at h
    exact .inl h
  | some t' =>
    rw [hi] at h
    exact (Table.mem_insert? hi).mp h

theorem mem_insertIgnore_of_mem {t : Table key} (h : x ∈ t.rows) : x ∈ (insertIgnore t row).rows := by
  unfold insertIgnore
  cases hi : t.insert? row with
  | none => exact h
  | some t' => exact (Table.mem_insert? hi).mpr (.inl h)

theorem exists_insertIgnore (t : Table key) (row : R) : ∃ x ∈ (insertIgnore t row).rows, key x = key row := by
  unfold insertIgnore
  cases hi : t.insert? row with
  | some t' => exact ⟨row, (Table.mem_insert? hi).mpr (.inr rfl), rfl⟩
  | none =>
    cases hg : t.get? (key row) with
    | some x => exact ⟨x, (Table.get?_eq_some.mp hg).1, (Table.get?_eq_some.mp hg).2⟩
    | none =>
      obtain ⟨t', ht⟩ := Table.insert?_isSome hg
      rw [hi] at ht
      cases ht

end

/-- A row is named after its source. -/
def OutboxRow.Ok (I : Ids) (o : OutboxRow) : Prop :=
  match o.body with
  | .cost req => req.recordId = o.recordId ∧ o.recordId = I.costRecordId o.sourceRef ∧ o.state ≠ .WAITING
  | .eventOnly _ => o.recordId = I.costRecordId o.sourceRef ∧ o.state = .DEAD
  | .simulated req => req.recordId = o.recordId ∧ ∃ x b y, o.recordId = I.simulatedRecordId x b y

def OutboxRow.IsCost (o : OutboxRow) : Prop :=
  match o.body with
  | .simulated _ => False
  | _ => True

variable {o : OutboxRow}

theorem OutboxRow.Ok.recordId_of_isCost {I : Ids} (h : o.Ok I) (hc : o.IsCost) : o.recordId = I.costRecordId o.sourceRef := by
  unfold OutboxRow.Ok at h
  unfold OutboxRow.IsCost at hc
  cases hb : o.body with
  | cost req => rw [hb] at h; exact h.2.1
  | eventOnly id => rw [hb] at h; exact h.1
  | simulated req => rw [hb] at hc; exact hc.elim

def Fixed (t : OutboxTable) (recordId : String) (body : Body) : Prop :=
  ∃ o ∈ t.rows, o.recordId = recordId ∧ o.body = body ∧ o.state ≠ .WAITING ∧ body.recordId? = some recordId

/-- Rows stay, and those that are due keep their body. -/
structure RowsLater (t t' : OutboxTable) : Prop where
  fixed : ∀ recordId body, Fixed t recordId body → Fixed t' recordId body
  cost : ∀ o ∈ t.rows, o.IsCost → ∃ o' ∈ t'.rows, o'.IsCost ∧ o'.recordId = o.recordId ∧ o'.sourceRef = o.sourceRef

theorem RowsLater.refl (t : OutboxTable) : RowsLater t t := ⟨fun _ _ h => h, fun o ho hc => ⟨o, ho, hc, rfl, rfl⟩⟩

variable {t' : OutboxTable}

theorem RowsLater.trans {t t'' : OutboxTable} (h : RowsLater t t') (h' : RowsLater t' t'') : RowsLater t t'' where
  fixed := fun r b hf => h'.fixed r b (h.fixed r b hf)
  cost := fun o ho hc => by
    obtain ⟨o', ho', hc', hr, hs⟩ := h.cost o ho hc
    obtain ⟨o'', ho'', hc'', hr', hs'⟩ := h'.cost o' ho' hc'
    exact ⟨o'', ho'', hc'', hr'.trans hr, hs'.trans hs⟩

theorem RowsLater.insertIgnore (t : OutboxTable) (row : OutboxRow) : RowsLater t (insertIgnore t row) where
  fixed := fun _ _ ⟨o, ho, hrest⟩ => ⟨o, mem_insertIgnore_of_mem ho, hrest⟩
  cost := fun o ho hc => ⟨o, mem_insertIgnore_of_mem ho, hc, rfl, rfl⟩

variable {recordId : String} {body : Body}

theorem Fixed.recordId? {t : OutboxTable} (h : Fixed t recordId body) : body.recordId? = some recordId := by
  obtain ⟨-, -, -, -, -, hid⟩ := h
  exact hid

theorem Fixed.unique {t : OutboxTable} {body' : Body} (h : Fixed t recordId body)
    (h' : Fixed t recordId body') : body = body' := by
  obtain ⟨o, ho, hr, rfl, -⟩ := h
  obtain ⟨o', ho', hr', rfl, -⟩ := h'
  rw [t.eq_of_key ho ho' (hr.trans hr'.symm)]

/-! ## What the functions do to the rows -/

section
variable {I : Ids} {t : OutboxTable}

/-- All rows are named well. -/
def RowsOk (I : Ids) (t : OutboxTable) : Prop := ∀ o ∈ t.rows, o.Ok I

theorem enqueueSimulatedInTx_ok (h : RowsOk I t) (experimentId : String) (b : SimulatedBaseline) (wait : Option String)
    (now : Int) : RowsOk I (enqueueSimulatedInTx I experimentId b wait now t) := by
  intro o ho
  rcases mem_insertIgnore ho with ho | rfl
  · exact h o ho
  · exact ⟨rfl, _, _, _, rfl⟩

theorem costOutboxRow_ok (p : PreparedEvent) (now : Int) : (Reporting.costOutboxRow I p now).Ok I := by
  unfold Reporting.costOutboxRow
  cases p.found with
  | none => exact ⟨rfl, rfl⟩
  | some f => exact ⟨rfl, rfl, nofun⟩

/-- What becomes of a waiting row. -/
theorem OutboxRow.release_cases (o : OutboxRow) (submissions : String → Option (Submit.SubmissionState × Option String)) :
    (o.release submissions).sourceRef = o.sourceRef ∧ ((o.release submissions) = o ∨
      ∃ req req', o.body = .simulated req ∧ (o.release submissions).body = .simulated req' ∧ req'.recordId = req.recordId) := by
  unfold OutboxRow.release
  cases hb : o.body with
  | cost req => exact ⟨rfl, .inl rfl⟩
  | eventOnly id => exact ⟨rfl, .inl rfl⟩
  | simulated req =>
    dsimp only
    split
    · exact ⟨rfl, .inl rfl⟩
    · exact ⟨rfl, .inr ⟨req, req, rfl, rfl, rfl⟩⟩
    · refine ⟨rfl, .inr ⟨req, _, rfl, rfl, ?_⟩⟩
      split <;> rfl
    · refine ⟨rfl, .inr ⟨req, _, rfl, rfl, ?_⟩⟩
      split <;> rfl

theorem OutboxRow.release_state (o : OutboxRow) (submissions : String → Option (Submit.SubmissionState × Option String)) :
    (o.release submissions).state = o.state ∨ (o.release submissions).state = .DROPPED ∨
      (o.release submissions).state = .PENDING := by
  unfold OutboxRow.release
  split
  · dsimp only
    split
    · exact .inl rfl
    · exact .inr (.inl rfl)
    · exact .inr (.inr rfl)
    · exact .inr (.inr rfl)
  · exact .inl rfl

theorem releaseWaiting_ok (h : RowsOk I t) (submissions : String → Option (Submit.SubmissionState × Option String)) :
    RowsOk I (releaseWaiting submissions t) := by
  intro o ho
  obtain ⟨r, hr, rfl⟩ := Table.mem_updateWhere.mp ho
  have hok := h r hr
  split
  · rcases (r.release_cases submissions).2 with hsame | ⟨req, req', hb, hb', hid⟩
    · rw [hsame]
      exact hok
    · unfold OutboxRow.Ok at hok ⊢
      rw [hb] at hok
      rw [hb']
      exact ⟨by rw [hid, hok.1, r.release_recordId], by rw [r.release_recordId]; exact hok.2⟩
  · exact hok

theorem releaseWaiting_later (h : RowsOk I t) (submissions : String → Option (Submit.SubmissionState × Option String)) :
    RowsLater t (releaseWaiting submissions t) where
  fixed := fun recordId body ⟨o, ho, hr, hb, hst, hid⟩ => by
    refine ⟨o, Table.mem_updateWhere.mpr ⟨o, ho, ?_⟩, hr, hb, hst, hid⟩
    rw [if_neg (by simpa using hst)]
  cost := fun o ho hc => by
    refine ⟨o, Table.mem_updateWhere.mpr ⟨o, ho, ?_⟩, hc, rfl, rfl⟩
    have hok := h o ho
    unfold OutboxRow.Ok at hok
    unfold OutboxRow.IsCost at hc
    rw [if_neg]
    intro hw
    have hw : o.state = .WAITING := by simpa using hw
    cases hb : o.body with
    | cost req =>
      rw [hb] at hok
      exact hok.2.2 hw
    | eventOnly id =>
      rw [hb, hw] at hok
      exact nomatch hok.2
    | simulated req =>
      rw [hb] at hc
      exact hc

theorem Mark.apply_cases (m : Mark) (o : OutboxRow) : (m.apply o).body = o.body ∧ (m.apply o).sourceRef = o.sourceRef ∧
    ((m.apply o).state = o.state ∨ (m.apply o).state = .DEAD ∨ (m.apply o).state = .DELIVERED) := by
  cases m with
  | delivered status => exact ⟨rfl, rfl, .inr (.inr rfl)⟩
  | retry attempts code next => exact ⟨rfl, rfl, .inl rfl⟩
  | dead code => exact ⟨rfl, rfl, .inr (.inl rfl)⟩

theorem Mark.apply_ne_waiting {m : Mark} {o : OutboxRow} (h : o.state ≠ .WAITING) : (m.apply o).state ≠ .WAITING := by
  rcases (m.apply_cases o).2.2 with hs | hs | hs <;> rw [hs]
  · exact h
  · exact nofun
  · exact nofun

theorem markRow_later (t : OutboxTable) (recordId : String) (m : Mark) : RowsLater t (markRow recordId m t) where
  fixed := fun id body ⟨o, ho, hr, hb, hst, hid⟩ => by
    refine ⟨_, Table.mem_updateWhere.mpr ⟨o, ho, rfl⟩, ?_, ?_, ?_, hid⟩
    · split
      · rw [m.apply_recordId, hr]
      · exact hr
    · split
      · rw [(m.apply_cases o).1, hb]
      · exact hb
    · split
      · exact Mark.apply_ne_waiting hst
      · exact hst
  cost := fun o ho hc => by
    refine ⟨_, Table.mem_updateWhere.mpr ⟨o, ho, rfl⟩, ?_, ?_, ?_⟩
    · split
      · unfold OutboxRow.IsCost at hc ⊢
        rw [(m.apply_cases o).1]
        exact hc
      · exact hc
    · split
      · exact m.apply_recordId o
      · rfl
    · split
      · exact (m.apply_cases o).2.1
      · rfl

theorem markRow_ok (h : RowsOk I t) {recordId : String} {body : Body} (hf : Fixed t recordId body) (m : Mark) :
    RowsOk I (markRow recordId m t) := by
  intro o ho
  obtain ⟨r, hr, rfl⟩ := Table.mem_updateWhere.mp ho
  have hok := h r hr
  split
  · rename_i hk
    obtain ⟨f, hfm, hfr, hfb, hst, hid⟩ := hf
    have hrk : r.recordId = recordId := by simpa using hk
    obtain rfl : f = r := t.eq_of_key hfm hr (hfr.trans hrk.symm)
    unfold OutboxRow.Ok at hok ⊢
    rw [(m.apply_cases f).1, m.apply_recordId, (m.apply_cases f).2.1]
    cases hb : f.body with
    | cost req =>
      rw [hb] at hok
      exact ⟨hok.1, hok.2.1, Mark.apply_ne_waiting hst⟩
    | eventOnly id =>
      rw [← hfb, hb] at hid
      cases hid
    | simulated req =>
      rw [hb] at hok
      exact hok
  · exact hok

end

/-! ## Events and their rows -/

def Covered (I : Ids) (t : OutboxTable) (e : CostEvent) : Prop :=
  ∃ o ∈ t.rows, o.IsCost ∧ o.recordId = I.costRecordId e.eventId ∧ o.sourceRef = e.eventId

variable {e : CostEvent}

theorem Covered.later {I : Ids} {t : OutboxTable} (h : Covered I t e) (hl : RowsLater t t') : Covered I t' e := by
  obtain ⟨o, ho, hc, hr, hs⟩ := h
  obtain ⟨o', ho', hc', hr', hs'⟩ := hl.cost o ho hc
  exact ⟨o', ho', hc', hr'.trans hr, hs'.trans hs⟩

theorem covered_of_recordId {I : Ids} {t : OutboxTable} (h : RowsOk I t) (ho : o ∈ t.rows)
    (hr : o.recordId = I.costRecordId e.eventId) : Covered I t e := by
  have hok := h o ho
  refine ⟨o, ho, ?_, hr, ?_⟩
  all_goals
    unfold OutboxRow.Ok at hok
    try unfold OutboxRow.IsCost
    cases hb : o.body with
    | cost req =>
      rw [hb] at hok
      first
      | trivial
      | exact (I.cost_inj _ _ (hr.symm.trans hok.2.1)).symm
    | eventOnly id =>
      rw [hb] at hok
      first
      | trivial
      | exact (I.cost_inj _ _ (hr.symm.trans hok.1)).symm
    | simulated req =>
      rw [hb] at hok
      obtain ⟨-, x, b, y, hs⟩ := hok
      exact absurd (hr.symm.trans hs) (I.cost_ne_simulated _ _ _ _)

/-- The rows of a call of `pump_costs`. -/
theorem writeCosts_rows {I : Ids} (now : Int) (done : List PreparedEvent) {t : OutboxTable} (h : RowsOk I t) :
    let t' := done.foldl (fun t p => insertIgnore t (Reporting.costOutboxRow I p now)) t
    RowsOk I t' ∧ RowsLater t t' ∧ (∀ p ∈ done, Covered I t' p.event) ∧
      ∀ o ∈ t'.rows, o.state = .DELIVERED → o ∈ t.rows := by
  induction done generalizing t with
  | nil => exact ⟨h, RowsLater.refl t, fun _ hp => absurd hp List.not_mem_nil, fun _ ho _ => ho⟩
  | cons p done ih =>
    have hok : RowsOk I (insertIgnore t (Reporting.costOutboxRow I p now)) := by
      intro o ho
      rcases mem_insertIgnore ho with ho | rfl
      · exact h o ho
      · exact costOutboxRow_ok p now
    obtain ⟨hok', hlater, hcovered, hold⟩ := ih hok
    refine ⟨hok', (RowsLater.insertIgnore t _).trans hlater, fun q hq => ?_, fun o ho hst => ?_⟩
    · rcases List.mem_cons.mp hq with rfl | hq
      · obtain ⟨o, ho, hk⟩ := exists_insertIgnore t (Reporting.costOutboxRow I q now)
        have hkey : o.recordId = I.costRecordId q.event.eventId := by
          rw [hk]
          rfl
        exact (covered_of_recordId hok ho hkey).later hlater
      · exact hcovered q hq
    · rcases mem_insertIgnore (hold o ho hst) with ho | rfl
      · exact ho
      · unfold Reporting.costOutboxRow at hst
        cases hf : p.found <;> rw [hf] at hst <;> cases hst

namespace Reporting

variable {I : Ids} {F : Facts} {w w' : Reporting}

/-- Every event with a number up to `c` has its row. -/
def UpTo (I : Ids) (w : Reporting) (c : Nat) : Prop :=
  c < w.nextSeq ∧ ∀ e ∈ w.events, e.eventSeq ≤ c → Covered I w.outbox e

def UnderWay (I : Ids) (w : Reporting) (l : List CostEvent) : Prop :=
  ∀ last, l.getLast? = some last → last.eventSeq < w.nextSeq ∧
    ∀ e ∈ w.events, e.eventSeq ≤ last.eventSeq → Covered I w.outbox e ∨ e ∈ l

/-- What a call of `pump_costs` knows. -/
def PumpOk (I : Ids) (w : Reporting) : Pump → Prop
  | .cursor | .ended => True
  | .events c => UpTo I w c
  | .attempt done e rest | .context done e _ rest => UnderWay I w (done.map PreparedEvent.event ++ e :: rest)
  | .write done => UnderWay I w (done.map PreparedEvent.event)

structure EventsLater (w w' : Reporting) : Prop where
  rows : RowsLater w.outbox w'.outbox
  seq : w.nextSeq ≤ w'.nextSeq
  events : ∀ e ∈ w'.events, e ∈ w.events ∨ w.nextSeq ≤ e.eventSeq

variable {c : Nat}

theorem UpTo.later (h : UpTo I w c) (hl : EventsLater w w') : UpTo I w' c := by
  refine ⟨Nat.lt_of_lt_of_le h.1 hl.seq, fun e he hc => ?_⟩
  rcases hl.events e he with he | hn
  · exact (h.2 e he hc).later hl.rows
  · have := h.1
    omega

theorem UnderWay.later {l : List CostEvent} (h : UnderWay I w l) (hl : EventsLater w w') : UnderWay I w' l := by
  intro last hlast
  obtain ⟨hlt, hall⟩ := h last hlast
  refine ⟨Nat.lt_of_lt_of_le hlt hl.seq, fun e he hc => ?_⟩
  rcases hl.events e he with he | hn
  · exact (hall e he hc).imp (fun hcov => hcov.later hl.rows) id
  · omega

variable {p : Pump}

theorem PumpOk.later (h : PumpOk I w p) (hl : EventsLater w w') : PumpOk I w' p := by
  cases p with
  | events c => exact UpTo.later h hl
  | attempt done e rest => exact UnderWay.later h hl
  | context done e a rest => exact UnderWay.later h hl
  | write done => exact UnderWay.later h hl
  | _ => trivial

/-- What was read after a cursor leaves nothing out. -/
theorem UpTo.underWay (h : UpTo I w c) (limit : Nat) (hlt : ∀ e ∈ w.events, e.eventSeq < w.nextSeq)
    (hsorted : w.events.Pairwise fun e e' => e.eventSeq < e'.eventSeq) :
    UnderWay I w ((w.events.filter fun e => c < e.eventSeq).take limit) := by
  intro last hlast
  have hmem : last ∈ (w.events.filter fun e => c < e.eventSeq).take limit := List.mem_of_getLast? hlast
  refine ⟨hlt last (List.mem_of_mem_filter (List.mem_of_mem_take hmem)), fun e he hle => ?_⟩
  by_cases hc : e.eventSeq ≤ c
  · exact .inl (h.2 e he hc)
  · refine .inr ?_
    have hfil : e ∈ w.events.filter fun e => c < e.eventSeq := List.mem_filter.mpr ⟨he, by simpa using hc⟩
    rw [← List.take_append_drop limit (w.events.filter fun e => c < e.eventSeq)] at hfil
    rcases List.mem_append.mp hfil with hin | hout
    · exact hin
    · have hpair := (hsorted.filter fun e => decide (c < e.eventSeq))
      rw [← List.take_append_drop limit (w.events.filter fun e => c < e.eventSeq)] at hpair
      have := (List.pairwise_append.mp hpair).2.2 last hmem e hout
      omega

/-! ## The trader's side -/

def Stored (F : Facts) (db : ScoreboardDb) : Body → Prop
  | .cost req => ∃ r ∈ db.costs.rows, r.toCostRequest = req
  | .simulated req => ∃ r ∈ db.decisions.rows, r.records req ∧ r.bodyDigest = F.digests.simulated req
  | .eventOnly _ => False

def Out (w : Reporting) (x : Outgoing) : Prop := Fixed w.outbox x.recordId x.body

/-- What a call of `deliver_due` knows. -/
def DeliveryOk (F : Facts) (w : Reporting) : Delivery → Prop
  | .release | .select | .ended => True
  | .rows todo => ∀ x ∈ todo, w.Out x
  | .send x rest | .awaiting x rest => w.Out x ∧ ∀ y ∈ rest, w.Out y
  | .marking x m rest => w.Out x ∧ (∀ status, m = .delivered status → Stored F w.trader x.body) ∧
      ∀ l, rest = some l → ∀ y ∈ l, w.Out y

variable {d : Delivery}

theorem DeliveryOk.later (h : DeliveryOk F w d) (hrows : RowsLater w.outbox w'.outbox)
    (hstored : ∀ b, Stored F w.trader b → Stored F w'.trader b) : DeliveryOk F w' d := by
  have hout : ∀ x, w.Out x → w'.Out x := fun x hx => hrows.fixed _ _ hx
  cases d with
  | rows todo => exact fun x hx => hout x (h x hx)
  | send x rest => exact ⟨hout x h.1, fun y hy => hout y (h.2 y hy)⟩
  | awaiting x rest => exact ⟨hout x h.1, fun y hy => hout y (h.2 y hy)⟩
  | marking x m rest =>
    exact ⟨hout x h.1, fun status hm => hstored _ (h.2.1 status hm), fun l hl y hy => hout y (h.2.2 l hl y hy)⟩
  | _ => trivial

/-! ## The invariant -/

structure Inv (I : Ids) (F : Facts) (w : Reporting) : Prop where
  rows : RowsOk I w.outbox
  numbered : ∀ e ∈ w.events, e.eventSeq < w.nextSeq
  sorted : w.events.Pairwise fun e e' => e.eventSeq < e'.eventSeq
  cursor : UpTo I w w.cursor
  pumps : ∀ p ∈ w.pumps, PumpOk I w p
  requests : ∀ b ∈ w.requests, ∃ recordId, Fixed w.outbox recordId b
  deliveries : ∀ d ∈ w.deliveries, DeliveryOk F w d
  costs : CostsOk w.trader
  cost : ∀ r ∈ w.trader.costs.rows, Body.cost r.toCostRequest ∈ w.requests
  decision : ∀ r ∈ w.trader.decisions.rows, ∃ req, Body.simulated req ∈ w.requests ∧ r.records req ∧
    r.bodyDigest = F.digests.simulated req
  /-- A reply that a record is there is true. -/
  replies : ∀ status recordId, Reply.done status recordId ∈ w.replies → ∃ b ∈ w.requests, b.recordId? = some recordId ∧
    Stored F w.trader b
  delivered : ∀ o ∈ w.outbox.rows, o.state = .DELIVERED → Stored F w.trader o.body

theorem Inv.init (I : Ids) (F : Facts) : Inv I F init where
  rows := fun _ ho => absurd ho List.not_mem_nil
  numbered := fun _ he => absurd he List.not_mem_nil
  sorted := List.Pairwise.nil
  cursor := ⟨Nat.one_pos, fun _ he => absurd he List.not_mem_nil⟩
  pumps := fun _ hp => absurd hp List.not_mem_nil
  requests := fun _ hb => absurd hb List.not_mem_nil
  deliveries := fun _ hd => absurd hd List.not_mem_nil
  costs := CostsOk.empty
  cost := fun _ hr => absurd hr List.not_mem_nil
  decision := fun _ hr => absurd hr List.not_mem_nil
  replies := fun _ _ hr => absurd hr List.not_mem_nil
  delivered := fun _ ho => absurd ho List.not_mem_nil

/-- The rows move on. -/
theorem Inv.outbox (h : Inv I F w) {t : OutboxTable} (hok : RowsOk I t) (hlater : RowsLater w.outbox t)
    (hdelivered : ∀ o ∈ t.rows, o.state = .DELIVERED → Stored F w.trader o.body) : Inv I F { w with outbox := t } where
  rows := hok
  numbered := h.numbered
  sorted := h.sorted
  cursor := h.cursor.later ⟨hlater, Nat.le_refl _, fun _ he => .inl he⟩
  pumps := fun p hp => (h.pumps p hp).later ⟨hlater, Nat.le_refl _, fun _ he => .inl he⟩
  requests := fun b hb => (h.requests b hb).imp fun _ hf => hlater.fixed _ _ hf
  deliveries := fun d hd => (h.deliveries d hd).later hlater fun _ hs => hs
  costs := h.costs
  cost := h.cost
  decision := h.decision
  replies := h.replies
  delivered := hdelivered

theorem Inv.withPumps (h : Inv I F w) {ps : List Pump} (hps : ∀ p ∈ ps, PumpOk I w p) : Inv I F { w with pumps := ps } :=
  { h with pumps := hps }

theorem Inv.withDeliveries (h : Inv I F w) {ds : List Delivery} (hds : ∀ d ∈ ds, DeliveryOk F w d) :
    Inv I F { w with deliveries := ds } :=
  { h with deliveries := hds }

theorem Inv.setPump (h : Inv I F w) (i : Nat) (hp : PumpOk I w p) : Inv I F { w with pumps := w.pumps.set i p } := by
  refine h.withPumps fun q hq => ?_
  rcases List.mem_or_eq_of_mem_set hq with hq | rfl
  · exact h.pumps q hq
  · exact hp

theorem Inv.setDelivery (h : Inv I F w) (i : Nat) (hd : DeliveryOk F w d) : Inv I F (w.deliveryAt i d) := by
  refine h.withDeliveries fun x hx => ?_
  rcases List.mem_or_eq_of_mem_set hx with hx | rfl
  · exact h.deliveries x hx
  · exact hd

/-! ## Calls go on -/

theorem Inv.releaseWaiting (h : Inv I F w) (submissions : String → Option (Submit.SubmissionState × Option String)) :
    Inv I F { w with outbox := Ai.releaseWaiting submissions w.outbox } := by
  refine h.outbox (releaseWaiting_ok h.rows submissions) (releaseWaiting_later h.rows submissions) fun o ho hst => ?_
  obtain ⟨r, hr, rfl⟩ := Table.mem_updateWhere.mp ho
  split at hst
  · rename_i hw
    have hw : r.state = .WAITING := by simpa using hw
    rcases r.release_state submissions with hs | hs | hs
    · rw [hs, hw] at hst
      cases hst
    · rw [hs] at hst
      cases hst
    · rw [hs] at hst
      cases hst
  · rename_i hw
    rw [if_neg hw]
    exact h.delivered r hr hst

theorem Inv.prepared (h : Inv I F w) (i : Nat) {done : List PreparedEvent} {rest : List CostEvent}
    (hd : UnderWay I w (done.map PreparedEvent.event ++ rest)) : Inv I F (w.prepared i done rest) := by
  cases rest with
  | nil =>
    rw [List.append_nil] at hd
    exact h.setPump i hd
  | cons e rest => exact h.setPump i hd

/-- The rows of `pump_costs` and its cursor are written together. -/
theorem Inv.writeCosts (h : Inv I F w) {done : List PreparedEvent} (now : Int)
    (hd : UnderWay I w (done.map PreparedEvent.event)) : Inv I F (writeCosts I done now w) := by
  unfold Reporting.writeCosts
  split
  · exact h
  · obtain ⟨hok, hlater, hcovered, hold⟩ := writeCosts_rows (I := I) now done h.rows
    have hnext := h.outbox hok hlater fun o ho hst => h.delivered o (hold o ho hst) hst
    refine { hnext with cursor := ?_ }
    cases hl : done.getLast? with
    | none => exact hnext.cursor
    | some p =>
      obtain ⟨hlt, hall⟩ := hd p.event (by rw [List.getLast?_map, hl]; rfl)
      refine ⟨hlt, fun e he hle => ?_⟩
      rcases hall e he hle with hcov | hin
      · exact hcov.later hlater
      · obtain ⟨q, hq, rfl⟩ := List.mem_map.mp hin
        exact hcovered q hq

theorem writeCosts_pumps (done : List PreparedEvent) (now : Int) : (writeCosts I done now w).pumps = w.pumps := by
  unfold Reporting.writeCosts
  split <;> rfl

variable {i : Nat}

theorem Inv.pump (h : Inv I F w) (a : ReportingInput) (hi : w.pumps[i]? = some p) : Inv I F (w.pump I i a p) := by
  have hp := h.pumps p (List.mem_of_getElem? hi)
  cases p with
  | cursor => exact h.setPump i h.cursor
  | events c =>
    have hway := UpTo.underWay hp a.limit h.numbered h.sorted
    unfold Reporting.pump
    dsimp only
    split
    · exact h.setPump i trivial
    · rename_i e rest hl
      rw [hl] at hway
      exact h.setPump i hway
  | attempt done e rest =>
    unfold Reporting.pump
    dsimp only
    split
    · refine h.prepared i ?_
      rw [List.map_append, List.append_assoc]
      exact hp
    · exact h.setPump i hp
  | context done e attempt rest =>
    refine h.prepared i ?_
    rw [List.map_append, List.append_assoc]
    exact hp
  | write done =>
    have hend := (h.writeCosts a.now hp).setPump (p := .ended) i trivial
    rw [writeCosts_pumps] at hend
    exact hend
  | ended => exact h

variable {x : Outgoing} {status : IngestStatus}

theorem Inv.reply_stored (h : Inv I F w) (hx : w.Out x)
    (hr : Reply.done status x.recordId ∈ w.replies) : Stored F w.trader x.body := by
  obtain ⟨b, hb, hid, hs⟩ := h.replies status x.recordId hr
  obtain ⟨recordId, hf⟩ := h.requests b hb
  obtain rfl : recordId = x.recordId := Option.some.inj (hf.recordId?.symm.trans hid)
  have hsame : b = x.body := hf.unique hx
  exact hsame ▸ hs

theorem Inv.markRow (h : Inv I F w) {x : Outgoing} (hx : w.Out x) (m : Mark)
    (hm : ∀ status, m = .delivered status → Stored F w.trader x.body) :
    Inv I F { w with outbox := markRow x.recordId m w.outbox } := by
  refine h.outbox (markRow_ok h.rows hx m) (markRow_later _ _ _) fun o ho hst => ?_
  obtain ⟨r, hr, rfl⟩ := Table.mem_updateWhere.mp ho
  split at hst
  · rename_i hk
    rw [if_pos hk, (m.apply_cases r).1]
    obtain ⟨f, hf, hfr, hfb, -⟩ := hx
    have hrk : r.recordId = x.recordId := by simpa using hk
    obtain rfl : f = r := w.outbox.eq_of_key hf hr (hfr.trans hrk.symm)
    cases m with
    | delivered status => exact hfb ▸ hm status rfl
    | retry attempts code next => exact h.delivered f hr hst
    | dead code => cases hst
  · rename_i hk
    rw [if_neg hk]
    exact h.delivered r hr hst

theorem replyMark_delivered {now : Int} {r : Reply}
    (h : replyMark x now r = .delivered status) (hr : r.recordId = x.recordId) : r = .done status x.recordId := by
  cases r with
  | done st recordId =>
    obtain rfl : st = status := by
      cases h
      rfl
    obtain rfl : recordId = x.recordId := hr
    rfl
  | REFUSED recordId code retryable =>
    unfold replyMark at h
    cases retryable <;> cases h

theorem Inv.deliver (h : Inv I F w) (a : ReportingInput) (hi : w.deliveries[i]? = some d) : Inv I F (w.deliver i a d) := by
  have hd := h.deliveries d (List.mem_of_getElem? hi)
  cases d with
  | release =>
    refine Inv.setDelivery (h.releaseWaiting a.submissions) i trivial
  | select =>
    refine h.setDelivery i fun x hx => ?_
    obtain ⟨r, hr, rfl⟩ := List.mem_map.mp hx
    obtain ⟨hmem, hp⟩ := List.mem_filter.mp (List.mem_of_mem_take hr)
    have hpending : r.state = .PENDING := by simpa using (Bool.and_eq_true_iff.mp hp).1
    refine ⟨r, hmem, rfl, rfl, by rw [hpending]; exact nofun, ?_⟩
    have hok := h.rows r hmem
    unfold OutboxRow.Ok at hok
    cases hb : r.body with
    | cost req => rw [hb] at hok; exact congrArg some hok.1
    | simulated req => rw [hb] at hok; exact congrArg some hok.1
    | eventOnly id =>
      rw [hb, hpending] at hok
      exact nomatch hok.2
  | rows todo =>
    cases todo with
    | nil => exact h.setDelivery i trivial
    | cons x rest =>
      have hx := hd x List.mem_cons_self
      have hrest : ∀ y ∈ rest, w.Out y := fun y hy => hd y (List.mem_cons_of_mem _ hy)
      unfold Reporting.deliver
      dsimp only
      split
      · refine h.setDelivery i ⟨hx, nofun, fun l hl => ?_⟩
        cases hl
        exact hrest
      · exact h.setDelivery i ⟨hx, hrest⟩
      · exact h.setDelivery i hrest
  | send x rest =>
    obtain ⟨hx, hrest⟩ := hd
    have hnext : Inv I F { w with requests := w.requests ++ [x.body] } := by
      have hsub : ∀ b ∈ w.requests, b ∈ w.requests ++ [x.body] := fun b hb => List.mem_append_left _ hb
      refine { h with requests := fun b hb => ?_, cost := fun r hr => hsub _ (h.cost r hr), decision := fun r hr => ?_,
                      replies := fun status id hr => ?_, deliveries := h.deliveries }
      · rcases List.mem_append.mp hb with hb | hb
        · exact h.requests b hb
        · rw [List.mem_singleton.mp hb]
          exact ⟨x.recordId, hx⟩
      · obtain ⟨req, hreq, hrest⟩ := h.decision r hr
        exact ⟨req, hsub _ hreq, hrest⟩
      · obtain ⟨b, hb, hrest⟩ := h.replies status id hr
        exact ⟨b, hsub _ hb, hrest⟩
    exact hnext.setDelivery i ⟨hx, hrest⟩
  | awaiting x rest =>
    obtain ⟨hx, hrest⟩ := hd
    have hsome : ∀ l, some rest = some l → ∀ y ∈ l, w.Out y := by
      intro l hl
      cases hl
      exact hrest
    unfold Reporting.deliver
    dsimp only
    split
    · exact h.setDelivery i ⟨hx, nofun, nofun⟩
    · refine h.setDelivery i ⟨hx, fun status hm => ?_, hsome⟩
      split at hm <;> cases hm
    · exact h.setDelivery i ⟨hx, nofun, hsome⟩
    · split
      · exact h
      · rename_i k reply hk
        split
        · rename_i hid
          refine h.setDelivery i ⟨hx, fun status hm => ?_, hsome⟩
          exact h.reply_stored hx (replyMark_delivered hm hid ▸ List.mem_of_getElem? hk)
        · exact h
  | marking x m rest =>
    obtain ⟨hx, hm, hrest⟩ := hd
    have hlater := markRow_later w.outbox x.recordId m
    refine Inv.setDelivery (h.markRow hx m hm) i ?_
    cases rest with
    | none => trivial
    | some l => exact fun y hy => hlater.fixed _ _ (hrest l rfl y hy)
  | ended => exact h

/-! ## The trader handles a request -/

theorem Inv.handled (h : Inv I F w) {db : ScoreboardDb} {reply : Option Reply} (hcosts : CostsOk db)
    (hstored : ∀ b, Stored F w.trader b → Stored F db b)
    (hcost : ∀ r ∈ db.costs.rows, Body.cost r.toCostRequest ∈ w.requests)
    (hdecision : ∀ r ∈ db.decisions.rows, ∃ req, Body.simulated req ∈ w.requests ∧ r.records req ∧
      r.bodyDigest = F.digests.simulated req)
    (hreply : ∀ status recordId, reply = some (.done status recordId) → ∃ b ∈ w.requests, b.recordId? = some recordId ∧
      Stored F db b) : Inv I F { w with trader := db, replies := w.replies ++ reply.toList } := by
  refine { h with costs := hcosts, cost := hcost, decision := hdecision, deliveries := fun d hd => ?_,
                  replies := fun status recordId hr => ?_, delivered := fun o ho hst => hstored _ (h.delivered o ho hst) }
  · exact (h.deliveries d hd).later (RowsLater.refl _) hstored
  · rcases List.mem_append.mp hr with hr | hr
    · obtain ⟨b, hb, hid, hs⟩ := h.replies status recordId hr
      exact ⟨b, hb, hid, hstored b hs⟩
    · exact hreply status recordId (Option.mem_toList.mp hr)

theorem Inv.handle (h : Inv I F w) {body : Body} (hbody : body ∈ w.requests) (input : SimulatedInput)
    (commit : Option IngestError) : Inv I F (w.handle F input commit body) := by
  obtain ⟨bodyId, hbodyFixed⟩ := h.requests body hbody
  -- two requests under one id have one body
  have hsame : ∀ b ∈ w.requests, b.recordId? = body.recordId? → b = body := by
    intro b hb hid
    obtain ⟨id, hf⟩ := h.requests b hb
    have hbid := hf.recordId?
    have hbodyId := hbodyFixed.recordId?
    obtain rfl : id = bodyId := Option.some.inj (hbid.symm.trans (hid.trans hbodyId))
    exact hf.unique hbodyFixed
  cases body with
  | eventOnly id => exact h
  | cost req =>
    rcases recordCost_cases F req input.now commit w.trader with ⟨row, hr, hins⟩ | ⟨hdb, hr⟩
    · have hmem : ∀ x, x ∈ (recordCost F req input.now commit w.trader).2.costs.rows ↔ x ∈ w.trader.costs.rows ∨ x = row :=
        fun x => Table.mem_insert? hins.costs
      refine h.handled (h.costs.insert hins.costs hins.admitted) (fun b hb => ?_) (fun r hr => ?_) (fun r hr => ?_) ?_
      · cases b with
        | cost req' =>
          obtain ⟨r, hr, hrest⟩ := hb
          exact ⟨r, (hmem r).mpr (.inl hr), hrest⟩
        | simulated req' =>
          unfold Stored at hb ⊢
          rw [hins.decisions]
          exact hb
        | eventOnly id => exact hb
      · rcases (hmem r).mp hr with hr | rfl
        · exact h.cost r hr
        · rw [hins.request]
          exact hbody
      · rw [hins.decisions] at hr
        exact h.decision r hr
      · intro status recordId heq
        obtain ⟨-, rfl⟩ := Reply.done.inj (Option.some.inj (hr.symm.trans heq))
        exact ⟨.cost req, hbody, rfl, row, (hmem row).mpr (.inr rfl), hins.request⟩
    · unfold Reporting.handle
      dsimp only
      rw [hdb]
      refine h.handled h.costs (fun _ hb => hb) h.cost h.decision fun status recordId heq => ?_
      obtain ⟨-, rfl, row, hrow, hid, -⟩ := hr status recordId heq
      refine ⟨.cost req, hbody, rfl, row, hrow, ?_⟩
      exact Body.cost.inj (hsame _ (h.cost row hrow) (congrArg some hid))
  | simulated req =>
    rcases recordSimulated_cases F req input commit w.trader with ⟨row, hr, hins⟩ | ⟨hdb, hr⟩
    · have hmem : ∀ x, x ∈ (recordSimulated F req input commit w.trader).2.decisions.rows ↔
          x ∈ w.trader.decisions.rows ∨ x = row := fun x => Table.mem_insert? hins.decisions
      refine h.handled (h.costs.of_costs hins.costs) (fun b hb => ?_) (fun r hr => ?_) (fun r hr => ?_) ?_
      · cases b with
        | cost req' =>
          unfold Stored at hb ⊢
          rw [hins.costs]
          exact hb
        | simulated req' =>
          obtain ⟨r, hr, hrest⟩ := hb
          exact ⟨r, (hmem r).mpr (.inl hr), hrest⟩
        | eventOnly id => exact hb
      · rw [hins.costs] at hr
        exact h.cost r hr
      · rcases (hmem r).mp hr with hr | rfl
        · exact h.decision r hr
        · exact ⟨req, hbody, hins.request, hins.digest⟩
      · intro status recordId heq
        obtain ⟨-, rfl⟩ := Reply.done.inj (Option.some.inj (hr.symm.trans heq))
        exact ⟨.simulated req, hbody, rfl, row, (hmem row).mpr (.inr rfl), hins.request, hins.digest⟩
    · unfold Reporting.handle
      dsimp only
      rw [hdb]
      refine h.handled h.costs (fun _ hb => hb) h.cost h.decision fun status recordId heq => ?_
      obtain ⟨-, rfl, row, hrow, hid, -⟩ := hr status recordId heq
      obtain ⟨req', hreq', hrecords, hdigest⟩ := h.decision row hrow
      have hreq : Body.simulated req' = .simulated req :=
        hsame _ hreq' (congrArg some (hrecords.recordId.symm.trans hid))
      exact ⟨.simulated req, hbody, rfl, row, hrow, Body.simulated.inj hreq ▸ ⟨hrecords, hdigest⟩⟩

end Reporting

end MmrTrader.Ai
