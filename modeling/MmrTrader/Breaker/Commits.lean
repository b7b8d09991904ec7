import MmrTrader.Breaker.Store

/-!
# What a transaction of the breaker commits

* `Journaled` — every journaled incident is stored, and no event carries a revision the breaker has not reached.
* `Recorded`, `Cleared` — what a `record` and a `reset` that change something did.
* `applySignal_spec`, `reset_spec` — nothing changed, or that.
-/

namespace MmrTrader.Breaker

open Lib Journal
open Command (Json)

abbrev BreakerDb := Tables Json BreakerTables

def CarriesRevision (m : DomainMutation Json) (n : Nat) : Prop := ∃ p, m.payload = some p ∧ ("revision", Json.ofInt n) ∈ p

theorem CarriesRevision.of_canonical {m m' : DomainMutation Json} {n : Nat} (h : m.canonical = m'.canonical)
    (hm : CarriesRevision m' n) : CarriesRevision m n := by
  obtain ⟨p', hp', hmem⟩ := hm
  have hpayload : canonicalPayload m.payload = canonicalPayload m'.payload := congrArg DomainMutation.payload h
  rw [hp'] at hpayload
  cases hp : m.payload with
  | none =>
    rw [hp] at hpayload
    cases hpayload
  | some p =>
    rw [hp] at hpayload
    refine ⟨p, hp, ?_⟩
    have hsorted : p.insertionSort (fun a b => a.1 ≤ b.1) = p'.insertionSort (fun a b => a.1 ≤ b.1) := Option.some.inj hpayload
    have hperm := p'.perm_insertionSort fun a b => a.1 ≤ b.1
    rw [← hsorted] at hperm
    exact (hperm.symm.trans (p.perm_insertionSort _)).mem_iff.mp hmem

namespace CircuitBreaker

variable (B : CircuitBreaker)

structure Journaled (t : BreakerDb) : Prop where
  incidents : ∀ row ∈ t.journal, row.mutation.eventType = "automation.incident" →
    ∃ d ∈ t.own.incidents.rows, d.incidentId = row.eventId
  revisions : ∀ row ∈ t.journal, ∀ n, CarriesRevision row.mutation n → ∃ s, B.row t.own = some s ∧ n ≤ s.revision

/-- The breaker row after a trip. -/
def tripped (s : BreakerState) (code : SignalKind) (message : String) (recordedAt : Int) : BreakerState :=
  { s with
    state := .TRIPPED, reasonCode := some code, reason := some message, revision := s.revision + 1,
    trippedAt := some recordedAt, resetAt := none, resetCommandId := none }

def cleared (s : BreakerState) (commandId reason : String) (now : Int) : BreakerState :=
  { s with
    state := .CLEAR, reasonCode := none, reason := some reason, revision := s.revision + 1, resetAt := some now,
    resetCommandId := some commandId }

/-- The signal gives a reason to trip, its own incident counted. -/
def HasReason (kind : SignalKind) (signal : BreakerSignal) (recordedAt : Int) (own : BreakerTables) : Prop :=
  ∃ own', insertIncident (B.incident kind signal recordedAt) own = .ok own' ∧ B.tripReason kind signal recordedAt own' ≠ none

/-- One event more: it speaks of the breaker row `s`, and if it reports an incident, that one is stored. -/
def Journals (s : BreakerState) (t t' : BreakerDb) : Prop :=
  ∃ row, t'.journal = t.journal ++ [row] ∧ (row.mutation.eventType = "automation.incident" →
    ∃ d ∈ t'.own.incidents.rows, d.incidentId = row.eventId) ∧ ∀ n, CarriesRevision row.mutation n → n = s.revision

/-- A new incident is stored; a clear breaker trips if there is a reason to; one event is journaled. -/
structure Recorded (kind : SignalKind) (signal : BreakerSignal) (recordedAt : Int) (t t' : BreakerDb) : Prop where
  fresh : t.own.incidents.get? (B.incidentId kind signal.occurredAt signal.key) = none
  stored : t'.own.incidents.rows = t.own.incidents.rows ++ [B.incident kind signal recordedAt]
  state : ∃ s s', B.row t.own = some s ∧ B.row t'.own = some s' ∧
    ((s' = s ∧ (s.state = .CLEAR → kind ∉ IMMEDIATE)) ∨
      s.state = .CLEAR ∧ B.HasReason kind signal recordedAt t.own ∧ ∃ code message,
        s' = tripped s code message recordedAt ∧ (kind ∈ IMMEDIATE → code = kind)) ∧
    Journals s' t t'

structure Cleared (commandId reason : String) (now : Int) (t t' : BreakerDb) : Prop where
  state : ∃ s, B.row t.own = some s ∧ s.state = .TRIPPED ∧ B.row t'.own = some (cleared s commandId reason now) ∧
    Journals (cleared s commandId reason now) t t'
  incidents : t'.own.incidents = t.own.incidents

variable {B} {own own' : BreakerTables} {kind : SignalKind} {signal : BreakerSignal}

/-! ## Writes -/

theorem row_update {f : BreakerState → BreakerState} {hf : ∀ s, (f s).accountId = s.accountId} :
    B.row (B.update f hf own) = (B.row own).map f := by
  unfold row update
  rw [Table.get?_updateWhere]
  cases h : own.breaker.get? B.accountId with
  | none => rfl
  | some s => simp [(Table.get?_eq_some.mp h).2]

theorem insertIncident_ok {incident : Incident} (h : insertIncident incident own = .ok own') :
    own'.breaker = own.breaker ∧ own'.incidents.rows = own.incidents.rows ++ [incident] := by
  unfold insertIncident at h
  cases hi : own.incidents.insert? incident with
  | none =>
    rw [hi] at h
    cases h
  | some incidents =>
    rw [hi] at h
    cases h
    exact ⟨rfl, (Table.insert?_eq_some hi).2⟩

theorem tripReason_immediate (B : CircuitBreaker) (signal : BreakerSignal) (now : Int) (own : BreakerTables)
    (h : kind ∈ IMMEDIATE) :
    ∃ message, B.tripReason kind signal now own = some (kind, message) := by
  unfold tripReason
  rw [if_pos h]
  exact ⟨_, rfl⟩

variable {s : BreakerState}

theorem react_cases (kind : SignalKind) (signal : BreakerSignal) (now : Int) (hs : B.row own = some s) :
    let own' := B.react s (B.tripReason kind signal now own) now own
    own'.incidents = own.incidents ∧ ∃ s', B.row own' = some s' ∧ ((s' = s ∧ (s.state = .CLEAR → kind ∉ IMMEDIATE)) ∨
      s.state = .CLEAR ∧ B.tripReason kind signal now own ≠ none ∧ ∃ code message,
        s' = tripped s code message now ∧ (kind ∈ IMMEDIATE → code = kind)) := by
  intro own'
  unfold own' react
  cases hstate : s.state with
  | TRIPPED => exact ⟨rfl, s, hs, Or.inl ⟨rfl, fun h => by cases h⟩⟩
  | CLEAR =>
    cases hreason : B.tripReason kind signal now own with
    | none =>
      refine ⟨rfl, s, hs, Or.inl ⟨rfl, fun _ hi => ?_⟩⟩
      obtain ⟨message, hsome⟩ := B.tripReason_immediate signal now own hi
      cases hreason.symm.trans hsome
    | some why =>
      obtain ⟨code, message⟩ := why
      refine ⟨rfl, tripped s code message now, ?_, Or.inr ⟨rfl, nofun, code, message, rfl, fun hi => ?_⟩⟩
      · simp only [trip, row_update, hs]
        rfl
      · obtain ⟨message', hsome⟩ := B.tripReason_immediate signal now own hi
        cases hreason.symm.trans hsome
        rfl

theorem carriesRevision_payload (s : BreakerState) (eventType correlationId : String) (ts : Int) (extra : Payload Json) :
    CarriesRevision (B.mutation eventType ts correlationId (extra ++ B.toPayload s)) s.revision :=
  ⟨_, rfl, by simp [toPayload]⟩

variable {ts : Int}

theorem revision_of_carries {eventType correlationId : String} {n : Nat}
    (extra : Payload Json) (hextra : ∀ f ∈ extra, f.1 ≠ "revision") (h : CarriesRevision (B.mutation eventType ts correlationId (extra ++ B.toPayload s)) n) :
    n = s.revision := by
  obtain ⟨p, hp, hmem⟩ := h
  cases hp
  rcases List.mem_append.mp hmem with hmem | hmem
  · exact absurd rfl (hextra _ hmem)
  · simpa [toPayload, Json.ofInt] using hmem

/-! ## Transactions -/

variable {j j' : BreakerJournal} {result : Except (JournalError BreakerError) BreakerState}

theorem commit_cases {work : BreakerWork} (h : mutateBatchWork j work = (result, j')) :
    j'.tables = j.tables ∨ ∃ a tx, work.run ⟨j.tables, j.seq, []⟩ = .ok (a, tx) ∧ result = .ok a ∧ j'.tables = tx.tables := by
  unfold mutateBatchWork at h
  cases hrun : work.run ⟨j.tables, j.seq, []⟩ with
  | error e =>
    rw [hrun] at h
    cases h
    exact Or.inl rfl
  | ok out =>
    rw [hrun] at h
    cases h
    exact Or.inr ⟨out.1, out.2, rfl, rfl, rfl⟩

variable {now : Int}

theorem applySignal_spec (h : mutateBatchWork j (B.applySignal kind signal now ts) = (result, j'))
    (hj : B.Journaled j.tables) : j'.tables = j.tables ∨ B.Recorded kind signal now j.tables j'.tables := by
  rcases commit_cases h with hsame | ⟨a, tx, hrun, -, ht⟩
  · exact Or.inl hsame
  · rw [ht]
    unfold applySignal at hrun
    simp only [Work.run] at hrun
    cases hid : j.tables.own.incidents.get? (B.incidentId kind signal.occurredAt signal.key) with
    | some known =>
      rw [hid] at hrun
      cases hrow : B.row j.tables.own with
      | none =>
        simp only [hrow, Work.run] at hrun
        cases hrun
      | some s =>
        simp only [hrow, Work.run] at hrun
        cases hrun
        exact Or.inl rfl
    | none =>
      simp only [hid, Work.run] at hrun
      split at hrun
      · cases hrun
      · rename_i own hinsert
        obtain ⟨hbreaker, hincidents⟩ := insertIncident_ok hinsert
        have hkeep : B.row own = B.row j.tables.own := by
          unfold row
          rw [hbreaker]
        cases hrow : B.row own with
        | none =>
          simp only [hrow, Work.run] at hrun
          cases hrun
        | some s =>
          obtain ⟨hsame, s', hs', hcase⟩ := react_cases kind signal now hrow
          simp only [hrow, Work.run, hs'] at hrun
          split at hrun
          · cases hrun
          · rename_i event mid happend
            cases hrun
            rcases append_row happend with ⟨row, hmem, hevent, hcanonical, -⟩ | ⟨row, hevent, hmutation, hjournal, hown⟩
            · have htype : row.mutation.eventType = "automation.incident" := congrArg DomainMutation.eventType hcanonical
              obtain ⟨d, hd, hdid⟩ := hj.incidents row hmem htype
              exact absurd (hdid.trans hevent) (Table.get?_eq_none.mp hid d hd)
            · have hown := Except.ok.inj hown
              have hstored : tx.tables.own.incidents.rows =
                  j.tables.own.incidents.rows ++ [B.incident kind signal now] := by
                rw [← hown, hsame]
                exact hincidents
              refine Or.inr ⟨hid, hstored, s, _, hkeep ▸ hrow, ?_, hcase.imp id ?_, row, hjournal,
                fun _ => ⟨B.incident kind signal now, ?_, hevent.symm⟩, fun n hn => ?_⟩
              · rw [← hown]
                exact hs'
              · rintro ⟨hclear, hreason, htrip⟩
                exact ⟨hclear, ⟨own, hinsert, hreason⟩, htrip⟩
              · rw [hstored]
                exact List.mem_append_right _ (List.mem_singleton.mpr rfl)
              · rw [hmutation] at hn
                exact revision_of_carries _ (by simp) hn

theorem reset_spec {commandId reason : String}
    (h : mutateBatchWork j (B.reset commandId reason now ts) = (result, j')) (hj : B.Journaled j.tables) :
    j'.tables = j.tables ∨ B.Cleared commandId reason now j.tables j'.tables := by
  rcases commit_cases h with hsame | ⟨a, tx, hrun, -, ht⟩
  · exact Or.inl hsame
  · rw [ht]
    unfold reset at hrun
    simp only [Work.run] at hrun
    cases hrow : B.row j.tables.own with
    | none =>
      simp only [hrow, Work.run] at hrun
      cases hrun
    | some s =>
      cases hstate : s.state with
      | CLEAR =>
        simp only [hrow, hstate, Work.run] at hrun
        cases hrun
        exact Or.inl rfl
      | TRIPPED =>
        have hclear : B.row (B.clear commandId reason now j.tables.own) = some (cleared s commandId reason now) := by
          simp only [clear, row_update, hrow]
          rfl
        simp only [hrow, hstate, Work.run, hclear] at hrun
        split at hrun
        · cases hrun
        · rename_i event mid happend
          cases hrun
          rcases append_row happend with ⟨row, hmem, -, hcanonical, -⟩ | ⟨row, -, hmutation, hjournal, hown⟩
          · have hcarries := (carriesRevision_payload (B := B) (cleared s commandId reason now) "automation.reset" commandId
              now []).of_canonical hcanonical
            obtain ⟨s', hs', hle⟩ := hj.revisions row hmem _ hcarries
            cases hrow.symm.trans hs'
            exact absurd hle (Nat.not_succ_le_self _)
          · have hown := Except.ok.inj hown
            refine Or.inr ⟨⟨s, hrow, hstate, hown ▸ hclear, row, hjournal, fun ht => ?_, fun n hn => ?_⟩, hown ▸ rfl⟩
            · rw [hmutation] at ht
              have htype : "automation.reset" = "automation.incident" := ht
              exact absurd htype (by decide)
            · rw [hmutation] at hn
              exact revision_of_carries [] (by simp) hn

end CircuitBreaker

end MmrTrader.Breaker
