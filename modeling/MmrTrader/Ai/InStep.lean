import MmrTrader.Ai.Journal

/-!
# Journal, budget and cost events in step

* `MayBecome`, `Later` — how attempts and reservations change.
* `Settles`, `Keeps` — an attempt ends; what a transaction keeps.
-/

namespace MmrTrader.Ai

open Lib

/-! ## What agrees with what -/

/-- The states that go together. -/
def Agrees : AttemptStatus → ReservationState → Prop
  | .STARTED, s => s = .opened
  | .SUCCEEDED, s | .RECONCILED, s => s = .settled
  | .NOT_SENT, s | .REJECTED, s => s = .released
  | .UNKNOWN, s | .COST_UNKNOWN, s => s = .unknown

def expectedEvents (status : AttemptStatus) (r : ReservationRow) : List (CostKind × Int) :=
  match status with
  | .STARTED => []
  | .SUCCEEDED => [(.CONFIRMED, r.actualMicros.getD 0)]
  | .NOT_SENT | .REJECTED => [(.NONE, 0)]
  | .UNKNOWN | .COST_UNKNOWN => [(.ESTIMATED_UNKNOWN, r.reservedMicros)]
  | .RECONCILED => [(.ESTIMATED_UNKNOWN, r.reservedMicros), (.CORRECTION, r.actualMicros.getD 0)]

def AiDb.eventsOf (db : AiDb) (attemptKey : String) : List (CostKind × Int) :=
  (db.events.rows.filter fun e => e.attemptKey = attemptKey).map fun e => (e.kind, e.costMicros)

structure InStep (db : AiDb) : Prop where
  /-- An attempt has a reservation in the state that goes with its own, and the events of that state. -/
  attempt : ∀ a ∈ db.attempts.rows, ∃ r ∈ db.budget.reservations.rows, r.reservationId = a.reservationId ∧
    Agrees a.status r.state ∧ db.eventsOf a.attemptKey = expectedEvents a.status r
  /-- A reservation has an attempt, -/
  reservation : ∀ r ∈ db.budget.reservations.rows, ∃ a ∈ db.attempts.rows, a.reservationId = r.reservationId
  /-- and only one. -/
  oneAttempt : ∀ a ∈ db.attempts.rows, ∀ a' ∈ db.attempts.rows, a.reservationId = a'.reservationId → a = a'
  event : ∀ e ∈ db.events.rows, ∃ a ∈ db.attempts.rows, a.attemptKey = e.attemptKey
  /-- A settled reservation has its cost. -/
  settled : ∀ r ∈ db.budget.reservations.rows, r.state = .settled → r.actualMicros.isSome

/-! ## How rows change -/

def MayBecome (s s' : AttemptStatus) : Prop :=
  s' = s ∨ s = .STARTED ∨ (s = .UNKNOWN ∨ s = .COST_UNKNOWN) ∧ s' = .RECONCILED

theorem MayBecome.trans {s s' s'' : AttemptStatus} (h : MayBecome s s') (h' : MayBecome s' s'') : MayBecome s s'' := by
  rcases h with rfl | rfl | ⟨hs, rfl⟩
  · exact h'
  · exact .inr (.inl rfl)
  · rcases h' with rfl | h' | ⟨h' | h', -⟩
    · exact .inr (.inr ⟨hs, rfl⟩)
    · cases h'
    · cases h'
    · cases h'

structure Later (db db' : AiDb) : Prop where
  attempts : ∀ a ∈ db.attempts.rows, ∃ a' ∈ db'.attempts.rows, a'.attemptKey = a.attemptKey ∧
    a'.reservationId = a.reservationId ∧ MayBecome a.status a'.status
  reservations : ∀ r ∈ db.budget.reservations.rows, ∃ r' ∈ db'.budget.reservations.rows,
    r'.reservationId = r.reservationId ∧ r'.reservedMicros = r.reservedMicros

theorem Later.refl (db : AiDb) : Later db db :=
  ⟨fun a ha => ⟨a, ha, rfl, rfl, .inl rfl⟩, fun r hr => ⟨r, hr, rfl, rfl⟩⟩

theorem Later.trans {db db' db'' : AiDb} (h : Later db db') (h' : Later db' db'') : Later db db'' where
  attempts := fun a ha => by
    obtain ⟨b, hb, hk, hr, hm⟩ := h.attempts a ha
    obtain ⟨c, hc, hk', hr', hm'⟩ := h'.attempts b hb
    exact ⟨c, hc, hk'.trans hk, hr'.trans hr, hm.trans hm'⟩
  reservations := fun r hr => by
    obtain ⟨b, hb, hk, hm⟩ := h.reservations r hr
    obtain ⟨c, hc, hk', hm'⟩ := h'.reservations b hb
    exact ⟨c, hc, hk'.trans hk, hm'.trans hm⟩

def BegunOk (db : AiDb) (b : Begun) : Prop :=
  (∃ a ∈ db.attempts.rows, a.attemptKey = b.attempt.attemptKey ∧ a.reservationId = b.reservationId) ∧
    ∃ r ∈ db.budget.reservations.rows, r.reservationId = b.reservationId ∧ r.reservedMicros = b.reservedMicros

theorem BegunOk.later {db db' : AiDb} {b : Begun} (h : BegunOk db b) (hl : Later db db') : BegunOk db' b := by
  obtain ⟨⟨a, ha, hk, hr⟩, r, hrm, hid, hres⟩ := h
  obtain ⟨a', ha', hk', hr', -⟩ := hl.attempts a ha
  obtain ⟨r', hrm', hid', hres'⟩ := hl.reservations r hrm
  exact ⟨⟨a', ha', hk'.trans hk, hr'.trans hr⟩, r', hrm', hid'.trans hid, hres'.trans hres⟩

/-! ## One attempt ends -/

section
variable {db db' : AiDb}

theorem mem_updated {R K : Type} {key : R → K} [DecidableEq K] {t : Table key} {k : K} {f : R → R}
    {hf : ∀ r, key (f r) = key r} {x : R} : x ∈ (t.updateWhere (fun r => key r == k) f hf).rows ↔
      x ∈ t.rows ∧ key x ≠ k ∨ ∃ r ∈ t.rows, key r = k ∧ x = f r := by
  rw [Table.mem_updateWhere]
  constructor
  · rintro ⟨r, hr, rfl⟩
    by_cases hk : key r = k
    · exact .inr ⟨r, hr, hk, by simp [hk]⟩
    · exact .inl ⟨by simpa [hk] using hr, by simp [hk]⟩
  · rintro (⟨hx, hk⟩ | ⟨r, hr, hk, rfl⟩)
    · exact ⟨x, hx, by simp [hk]⟩
    · exact ⟨r, hr, by simp [hk]⟩

/-- What a settlement writes: the attempt, its reservation and one event. -/
structure Settles (db db' : AiDb) (a a' : AttemptRow) (r r' : ReservationRow) (e : CostEventRow) : Prop where
  attempt : a ∈ db.attempts.rows
  reservation : r ∈ db.budget.reservations.rows
  id : r.reservationId = a.reservationId
  key' : a'.attemptKey = a.attemptKey
  reservationId' : a'.reservationId = a.reservationId
  id' : r'.reservationId = r.reservationId
  reserved' : r'.reservedMicros = r.reservedMicros
  actual' : r'.state = .settled → r'.actualMicros.isSome
  attempts : ∀ x, x ∈ db'.attempts.rows ↔ x ∈ db.attempts.rows ∧ x.attemptKey ≠ a.attemptKey ∨ x = a'
  reservations : ∀ x, x ∈ db'.budget.reservations.rows ↔
    x ∈ db.budget.reservations.rows ∧ x.reservationId ≠ r.reservationId ∨ x = r'
  events : db'.events.rows = db.events.rows ++ [e]
  eventKey : e.attemptKey = a.attemptKey
  agrees : Agrees a'.status r'.state
  expected : expectedEvents a.status r ++ [(e.kind, e.costMicros)] = expectedEvents a'.status r'
  may : MayBecome a.status a'.status

variable {a a' : AttemptRow} {r r' : ReservationRow} {e : CostEventRow}

theorem Settles.later (h : Settles db db' a a' r r' e) : Later db db' where
  attempts := fun x hx => by
    by_cases hk : x.attemptKey = a.attemptKey
    · obtain rfl := db.attempts.eq_of_key hx h.attempt hk
      exact ⟨a', (h.attempts a').mpr (.inr rfl), h.key', h.reservationId', h.may⟩
    · exact ⟨x, (h.attempts x).mpr (.inl ⟨hx, hk⟩), rfl, rfl, .inl rfl⟩
  reservations := fun x hx => by
    by_cases hk : x.reservationId = r.reservationId
    · obtain rfl := db.budget.reservations.eq_of_key hx h.reservation hk
      exact ⟨r', (h.reservations r').mpr (.inr rfl), h.id', h.reserved'⟩
    · exact ⟨x, (h.reservations x).mpr (.inl ⟨hx, hk⟩), rfl, rfl⟩

theorem Settles.eventsOf (h : Settles db db' a a' r r' e) (key : String) :
    db'.eventsOf key = db.eventsOf key ++ if key = a.attemptKey then [(e.kind, e.costMicros)] else [] := by
  unfold AiDb.eventsOf
  rw [h.events, List.filter_append, List.map_append]
  congr 1
  by_cases hk : key = a.attemptKey
  · rw [if_pos hk]
    simp [hk, h.eventKey]
  · rw [if_neg hk]
    have : ¬ e.attemptKey = key := fun he => hk (he.symm.trans h.eventKey)
    simp [this]

theorem Settles.inStep (h : Settles db db' a a' r r' e) (hdb : InStep db) : InStep db' where
  attempt := fun x hx => by
    rcases (h.attempts x).mp hx with ⟨hx, hk⟩ | rfl
    · obtain ⟨q, hq, hid, hagree, hev⟩ := hdb.attempt x hx
      have hne : q.reservationId ≠ r.reservationId := by
        intro he
        have hsame : x = a := hdb.oneAttempt x hx a h.attempt (by rw [← hid, he, h.id])
        exact hk (by rw [hsame])
      refine ⟨q, (h.reservations q).mpr (.inl ⟨hq, hne⟩), hid, hagree, ?_⟩
      rw [h.eventsOf, if_neg hk, List.append_nil, hev]
    · obtain ⟨q, hq, hid, -, hev⟩ := hdb.attempt a h.attempt
      obtain rfl : q = r := db.budget.reservations.eq_of_key hq h.reservation (by rw [hid, h.id])
      refine ⟨r', (h.reservations r').mpr (.inr rfl), by rw [h.id', h.id, h.reservationId'], h.agrees, ?_⟩
      rw [h.key', h.eventsOf, if_pos rfl, hev, h.expected]
  reservation := fun x hx => by
    rcases (h.reservations x).mp hx with ⟨hx, hne⟩ | rfl
    · obtain ⟨b, hb, hid⟩ := hdb.reservation x hx
      by_cases hk : b.attemptKey = a.attemptKey
      · obtain rfl := db.attempts.eq_of_key hb h.attempt hk
        exact ⟨a', (h.attempts a').mpr (.inr rfl), by rw [h.reservationId', hid]⟩
      · exact ⟨b, (h.attempts b).mpr (.inl ⟨hb, hk⟩), hid⟩
    · exact ⟨a', (h.attempts a').mpr (.inr rfl), by rw [h.reservationId', h.id', h.id]⟩
  oneAttempt := fun x hx y hy he => by
    rcases (h.attempts x).mp hx with ⟨hx, hk⟩ | rfl <;> rcases (h.attempts y).mp hy with ⟨hy, hk'⟩ | rfl
    · exact hdb.oneAttempt x hx y hy he
    · exact absurd (congrArg _ (hdb.oneAttempt x hx a h.attempt (he.trans h.reservationId'))) hk
    · exact absurd (congrArg _ (hdb.oneAttempt y hy a h.attempt (he.symm.trans h.reservationId'))) hk'
    · rfl
  event := fun x hx => by
    have hfrom : ∀ {key : String}, (∃ b ∈ db.attempts.rows, b.attemptKey = key) → ∃ b ∈ db'.attempts.rows, b.attemptKey = key := by
      rintro key ⟨b, hb, rfl⟩
      obtain ⟨b', hb', hk, -⟩ := h.later.attempts b hb
      exact ⟨b', hb', hk⟩
    rw [h.events] at hx
    rcases List.mem_append.mp hx with hx | hx
    · exact hfrom (hdb.event x hx)
    · obtain rfl := List.mem_singleton.mp hx
      exact hfrom ⟨a, h.attempt, h.eventKey.symm⟩
  settled := fun x hx => by
    rcases (h.reservations x).mp hx with ⟨hx, -⟩ | rfl
    · exact hdb.settled x hx
    · exact h.actual'

/-- What a transaction keeps; it writes no attempt but the `touched` ones. -/
structure Keeps (touched : AttemptRow → Prop) (db db' : AiDb) : Prop where
  inStep : InStep db'
  later : Later db db'
  others : ∀ a ∈ db.attempts.rows, ¬ touched a → a ∈ db'.attempts.rows

theorem Settles.keeps (h : Settles db db' a a' r r' e)
    (hdb : InStep db) {touched : AttemptRow → Prop} (ha : touched a) : Keeps touched db db' where
  inStep := h.inStep hdb
  later := h.later
  others := fun x hx hn =>
    (h.attempts x).mpr (.inl ⟨hx, fun hk => hn (by rw [db.attempts.eq_of_key hx h.attempt hk]; exact ha)⟩)

theorem Keeps.refl (hdb : InStep db) (touched : AttemptRow → Prop) : Keeps touched db db :=
  ⟨hdb, Later.refl db, fun _ ha _ => ha⟩

end

end MmrTrader.Ai
