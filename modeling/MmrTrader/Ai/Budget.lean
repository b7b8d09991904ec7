import Mathlib.Algebra.Order.Ring.Int
import MmrTrader.Lib.SlidingWindow
import MmrTrader.Lib.Table
import MmrTrader.Lib.Transaction
import MmrTrader.Lib.Zone

/-!
# The durable model budget

* `Budget.roll`, `Budget.setCapInTx` — the cap: lowering applies at once, raising at the first midnight in
  New York after the request, by whichever transaction first carries a time of that day.
* `Budget.reserveInTx` — the worst case of one call against the cap of its window and the calls of the hour.
* `Budget.releaseInTx`, `markUnknownInTx`, `settleInTx`, `recoverOpenInTx` — how a reservation ends.
* `Budget.snapshotInTx` — the report.

Times are microseconds; a window is a date in New York.
-/

set_option autoImplicit false

namespace MmrTrader.Ai

open Lib

inductive ReservationState where
  | opened
  | unknown
  | settled
  | released
  deriving DecidableEq

inductive ReleaseReason where
  | notSent
  | rejected
  deriving DecidableEq

structure ReservationRow where
  reservationId : String
  windowDate : Int
  state : ReservationState
  reservedMicros : Int
  actualMicros : Option Int
  releaseReason : Option ReleaseReason
  createdAt : Int
  deriving DecidableEq

/-- A raise that waits for its window. -/
structure PendingCap where
  cap : Int
  window : Int
  deriving DecidableEq

structure CapState where
  effective : Int
  pending : Option PendingCap
  deriving DecidableEq

inductive CapChange where
  | initialized
  | lowered
  | unchanged
  | raiseKept
  | raiseScheduled
  | raiseApplied
  deriving DecidableEq

structure CapEvent where
  occurredAt : Int
  kind : CapChange
  requested : Int
  effective : Int
  pending : Option PendingCap
  deriving DecidableEq

structure BudgetDb where
  state : Option CapState
  capEvents : List CapEvent
  reservations : Table ReservationRow.reservationId
  deriving DecidableEq

def BudgetDb.empty : BudgetDb := ⟨none, [], Table.empty⟩

inductive BudgetError where
  | valueError
  | typeError
  | notInitialized
  | exhausted (window cap committed needed retryAt : Int)
  | hourlyLimit (retryAt retryAfter : Int)
  | reservationUnknown
  | reservationState
  | settlementConflict
  | duplicateKey
  deriving DecidableEq

structure Reservation where
  reservationId : String
  windowDate : Int
  reservedMicros : Int
  deriving DecidableEq

structure BudgetSnapshot where
  windowDate : Int
  effectiveCap : Int
  pending : Option PendingCap
  committed : Int
  openReservations : Nat
  unknownReservations : Nat
  nextResetAt : Int
  deriving DecidableEq

structure Budget where
  newYork : Zone
  callsPerHour : Nat
  positive : 1 ≤ callsPerHour

abbrev BudgetTx := EStateM BudgetError BudgetDb

def hour : Int := 60 * 60 * 1000000

theorem one_positive : 1 ≤ 1 := Nat.le_refl 1

/-- One call an hour, five hours behind UTC. -/
def sampleBudget : Budget := ⟨Zone.fixed (-5 * hour), 1, one_positive⟩

/-! ## The cap -/

/-- `UPDATE ai_budget_state`, and the event that goes with it. -/
def BudgetDb.saveCap (db : BudgetDb) (s : CapState) (kind : CapChange) (requested now : Int) : BudgetDb :=
  { db with
    state := some s
    capEvents := db.capEvents ++ [⟨now, kind, requested, s.effective, s.pending⟩] }

namespace Budget

variable (B : Budget)

def windowDate (now : Int) : Int := B.newYork.date now

def nextWindowDate (now : Int) : Int := B.newYork.date now + 1

def nextWindowStart (now : Int) : Int := B.newYork.midnight (B.newYork.date now + 1)

def roll (now : Int) (db : BudgetDb) : BudgetDb :=
  match db.state with
  | some ⟨_, some p⟩ => if p.window ≤ B.windowDate now then db.saveCap ⟨p.cap, none⟩ .raiseApplied p.cap now else db
  | _ => db

def setCapInTx (requested now : Int) : BudgetTx CapChange := do
  Tx.refuseIf (requested < 0) .valueError
  match (← get).state with
  | none =>
    modify fun db => db.saveCap ⟨requested, none⟩ .initialized requested now
    return .initialized
  | some _ =>
    modify (B.roll now)
    match (← get).state with
    | none => throw .typeError
    | some s =>
      if requested < s.effective then
        modify fun db => db.saveCap ⟨requested, none⟩ .lowered requested now
        return .lowered
      else if requested = s.effective then
        modify fun db => db.saveCap ⟨s.effective, none⟩ .unchanged requested now
        return .unchanged
      else if s.pending.map PendingCap.cap = some requested then
        return .raiseKept
      else
        modify fun db => db.saveCap ⟨s.effective, some ⟨requested, B.nextWindowDate now⟩⟩ .raiseScheduled requested now
        return .raiseScheduled

end Budget

/-! ## Reservations -/

/-- What the row holds of its window's cap. -/
def ReservationRow.committed (r : ReservationRow) : Int :=
  match r.state with
  | .settled => r.actualMicros.getD 0
  | .released => 0
  | _ => r.reservedMicros

def BudgetDb.committed (db : BudgetDb) (window : Int) : Int :=
  ((db.reservations.rows.filter fun r => r.windowDate = window).map ReservationRow.committed).sum

/-- All but the calls that were never sent. -/
def ReservationRow.counts (r : ReservationRow) : Bool :=
  !(r.state == .released && r.releaseReason == some .notSent)

/-- The times of the calls after `since`, in order. -/
def BudgetDb.recent (db : BudgetDb) (since : Int) : List Int :=
  ((db.reservations.rows.filter fun r => decide (since < r.createdAt) && r.counts).map
    ReservationRow.createdAt).insertionSort (· ≤ ·)

def BudgetDb.countState (db : BudgetDb) (window : Int) (state : ReservationState) : Nat :=
  db.reservations.rows.countP fun r => r.windowDate = window && r.state == state

namespace Budget

variable (B : Budget)

def checkHourly (db : BudgetDb) (now : Int) : Except BudgetError Unit :=
  let rows := db.recent (now - hour)
  if _h : B.callsPerHour ≤ rows.length then
    have := B.positive
    have : rows.length - B.callsPerHour < rows.length := by omega
    let leaves := rows[rows.length - B.callsPerHour] + hour
    .error (.hourlyLimit leaves (max 0 (leaves - now)))
  else .ok ()

def reserveInTx (reservationId : String) (worstCase now : Int) : BudgetTx Reservation := do
  Tx.refuseIf (worstCase < 0) .valueError
  Tx.refuseIf ((← get).state = none) .notInitialized
  modify (B.roll now)
  let db ← get
  match db.state with
  | none => throw .typeError
  | some s =>
    let window := B.windowDate now
    let committed := db.committed window
    Tx.refuseIf (committed + worstCase > s.effective)
      (.exhausted window s.effective committed worstCase (B.nextWindowStart now))
    Tx.check (B.checkHourly db now)
    match db.reservations.insert? ⟨reservationId, window, .opened, worstCase, none, none, now⟩ with
    | none => throw .duplicateKey
    | some t =>
      set { db with reservations := t }
      return ⟨reservationId, window, worstCase⟩

def getInTx (reservationId : String) : BudgetTx ReservationRow := do
  match (← get).reservations.get? reservationId with
  | none => throw .reservationUnknown
  | some row => return row

end Budget

/-- `UPDATE ai_budget_reservations SET … WHERE p`. -/
def BudgetDb.update (db : BudgetDb) (p : ReservationRow → Bool) (f : ReservationRow → ReservationRow)
    (hf : ∀ r, (f r).reservationId = r.reservationId) : BudgetDb :=
  { db with reservations := db.reservations.updateWhere p f hf }

namespace Budget

variable (B : Budget)

def releaseInTx (reservationId : String) (reason : ReleaseReason) : BudgetTx Unit := do
  let row ← getInTx reservationId
  Tx.refuseIf (row.state ≠ .opened) .reservationState
  modify fun db => db.update (fun r => r.reservationId == reservationId)
    (fun r => { r with state := .released, releaseReason := some reason }) fun _ => rfl

def markUnknownInTx (reservationId : String) : BudgetTx Unit := do
  let row ← getInTx reservationId
  Tx.refuseIf (row.state ≠ .opened) .reservationState
  modify fun db => db.update (fun r => r.reservationId == reservationId)
    (fun r => { r with state := .unknown }) fun _ => rfl

/-- `late` is a usage report for an UNKNOWN reservation; `false` is an exact repeat. -/
def settleInTx (reservationId : String) (actual : Int) (late : Bool) : BudgetTx Bool := do
  let row ← getInTx reservationId
  if row.state = .settled then
    if row.actualMicros = some actual then return false else throw .settlementConflict
  else
    Tx.refuseIf (row.state ≠ if late then .unknown else .opened) .reservationState
    modify fun db => db.update (fun r => r.reservationId == reservationId)
      (fun r => { r with state := .settled, actualMicros := some actual }) fun _ => rfl
    return true

/-- At process start nothing is in flight. -/
def recoverOpenInTx : BudgetTx (List String) := do
  let db ← get
  let ids := (db.reservations.rows.filter fun r => r.state == .opened).map ReservationRow.reservationId
  set (db.update (fun r => r.state == .opened) (fun r => { r with state := .unknown }) fun _ => rfl)
  return ids

def snapshotInTx (now : Int) : BudgetTx BudgetSnapshot := do
  Tx.refuseIf ((← get).state = none) .notInitialized
  modify (B.roll now)
  let db ← get
  match db.state with
  | none => throw .typeError
  | some s =>
    let window := B.windowDate now
    return ⟨window, s.effective, s.pending, db.committed window, db.countState window .opened,
      db.countState window .unknown, B.nextWindowStart now⟩

end Budget

/-! ## Calls -/

inductive Call where
  | setCap (requested : Int)
  | reserve (reservationId : String) (worstCase : Int)
  | release (reservationId : String) (reason : ReleaseReason)
  | markUnknown (reservationId : String)
  | settle (reservationId : String) (actual : Int) (late : Bool)
  | recoverOpen
  | snapshot
  deriving DecidableEq

/-- The calls that end reservations; they leave the cap alone. -/
def Call.closes : Call → Bool
  | .setCap _ => false
  | .reserve _ _ => false
  | .snapshot => false
  | _ => true

namespace Budget

variable (B : Budget)

def exec (now : Int) : Call → BudgetTx Unit
  | .setCap requested => discard (B.setCapInTx requested now)
  | .reserve id worstCase => discard (B.reserveInTx id worstCase now)
  | .release id reason => releaseInTx id reason
  | .markUnknown id => markUnknownInTx id
  | .settle id actual late => discard (settleInTx id actual late)
  | .recoverOpen => discard recoverOpenInTx
  | .snapshot => discard (B.snapshotInTx now)

def commit (call : Int × Call) : BudgetTx Unit := transaction none (B.exec call.1 call.2)

def step (db : BudgetDb) (call : Int × Call) : BudgetDb :=
  match B.commit call db with
  | .ok _ db' => db'
  | .error _ db' => db'

def run (calls : List (Int × Call)) : BudgetDb := calls.foldl B.step .empty

end Budget

/-! ## What a call does -/

/-- How a row may end, in one call. -/
inductive Closes : Call → ReservationRow → ReservationRow → Prop
  | released (id : String) (reason : ReleaseReason) (r : ReservationRow) (h : r.state = .opened) :
      Closes (.release id reason) r { r with state := .released, releaseReason := some reason }
  | unknown (id : String) (r : ReservationRow) (h : r.state = .opened) :
      Closes (.markUnknown id) r { r with state := .unknown }
  | recovered (r : ReservationRow) (h : r.state = .opened) : Closes .recoverOpen r { r with state := .unknown }
  | settled (id : String) (actual : Int) (late : Bool) (r : ReservationRow) (hid : r.reservationId = id)
      (h : r.state = .opened ∨ r.state = .unknown) :
      Closes (.settle id actual late) r { r with state := .settled, actualMicros := some actual }

inductive Moves (B : Budget) (now : Int) (db : BudgetDb) : Call → BudgetDb → Prop
  | initialized (v : Int) (hv : 0 ≤ v) (h : db.state = none) :
      Moves B now db (.setCap v) (db.saveCap ⟨v, none⟩ .initialized v now)
  | lowered (v : Int) (s : CapState) (hv : 0 ≤ v) (h : (B.roll now db).state = some s) (hlt : v < s.effective) :
      Moves B now db (.setCap v) ((B.roll now db).saveCap ⟨v, none⟩ .lowered v now)
  | unchanged (s : CapState) (hv : 0 ≤ s.effective) (h : (B.roll now db).state = some s) :
      Moves B now db (.setCap s.effective) ((B.roll now db).saveCap ⟨s.effective, none⟩ .unchanged s.effective now)
  | kept (s : CapState) (p : PendingCap) (hv : 0 ≤ p.cap) (h : (B.roll now db).state = some s)
      (hp : s.pending = some p) (hlt : s.effective < p.cap) : Moves B now db (.setCap p.cap) (B.roll now db)
  | scheduled (v : Int) (s : CapState) (hv : 0 ≤ v) (h : (B.roll now db).state = some s) (hlt : s.effective < v) :
      Moves B now db (.setCap v)
        ((B.roll now db).saveCap ⟨s.effective, some ⟨v, B.nextWindowDate now⟩⟩ .raiseScheduled v now)
  | reserved (id : String) (x : Int) (s : CapState) (t : Table ReservationRow.reservationId) (hx : 0 ≤ x)
      (h : (B.roll now db).state = some s) (hcap : db.committed (B.windowDate now) + x ≤ s.effective)
      (hhour : B.checkHourly db now = .ok ())
      (ht : db.reservations.insert? ⟨id, B.windowDate now, .opened, x, none, none, now⟩ = some t) :
      Moves B now db (.reserve id x) { B.roll now db with reservations := t }
  | closed (c : Call) (hc : c.closes = true) (p : ReservationRow → Bool) (f : ReservationRow → ReservationRow)
      (hf : ∀ r, (f r).reservationId = r.reservationId)
      (h : ∀ r ∈ db.reservations.rows, p r = true → Closes c r (f r)) : Moves B now db c (db.update p f hf)
  | repeated (id : String) (actual : Int) (late : Bool) : Moves B now db (.settle id actual late) db
  | reported : Moves B now db .snapshot (B.roll now db)

variable {B : Budget} {now : Int} {db db' : BudgetDb}

theorem Budget.roll_cases (B : Budget) (now : Int) (db : BudgetDb) :
    B.roll now db = db ∨ ∃ s p, db.state = some s ∧ s.pending = some p ∧ p.window ≤ B.windowDate now ∧
      B.roll now db = db.saveCap ⟨p.cap, none⟩ .raiseApplied p.cap now := by
  unfold Budget.roll
  split
  · rename_i e p hs
    split
    · exact Or.inr ⟨_, p, hs, rfl, ‹_›, rfl⟩
    · exact Or.inl rfl
  · exact Or.inl rfl

@[simp] theorem Budget.roll_reservations (B : Budget) (now : Int) (db : BudgetDb) :
    (B.roll now db).reservations = db.reservations := by
  rcases B.roll_cases now db with h | ⟨s, p, -, -, -, h⟩ <;> rw [h]
  rfl

@[simp] theorem Budget.roll_committed (B : Budget) (now : Int) (db : BudgetDb) (w : Int) :
    (B.roll now db).committed w = db.committed w := by
  unfold BudgetDb.committed
  rw [B.roll_reservations]

@[simp] theorem Budget.roll_recent (B : Budget) (now : Int) (db : BudgetDb) (since : Int) :
    (B.roll now db).recent since = db.recent since := by
  unfold BudgetDb.recent
  rw [B.roll_reservations]

@[simp] theorem Budget.roll_checkHourly (B : Budget) (now t : Int) (db : BudgetDb) :
    B.checkHourly (B.roll now db) t = B.checkHourly db t := by
  simp only [Budget.checkHourly, B.roll_recent]

theorem setCapInTx_ok {v : Int} {d : CapChange} (h : B.setCapInTx v now db = .ok d db') :
    Moves B now db (.setCap v) db' := by
  obtain ⟨hv, h⟩ := Tx.refuseIf_bind_ok h
  have hv : 0 ≤ v := Int.not_lt.mp hv
  have h := Tx.get_bind_ok h
  cases hs : db.state with
  | none =>
    rw [hs] at h
    cases h
    exact .initialized v hv hs
  | some s₀ =>
    rw [hs] at h
    obtain ⟨_, mid, hroll, h⟩ := Tx.bind_ok h
    cases hroll
    have h := Tx.get_bind_ok h
    cases hr : (B.roll now db).state with
    | none => simp only [hr] at h; cases h
    | some s =>
      simp only [hr] at h
      split at h
      · cases h
        exact .lowered v s hv hr ‹_›
      · split at h
        · rename_i heq
          subst heq
          cases h
          exact .unchanged s hv hr
        · split at h
          · rename_i hle hne hp
            cases h
            obtain ⟨p, hpending, rfl⟩ := Option.map_eq_some_iff.mp hp
            exact .kept s p hv hr hpending (by omega)
          · cases h
            exact .scheduled v s hv hr (by omega)

variable {id : String}

theorem reserveInTx_ok {x : Int} {r : Reservation} (h : B.reserveInTx id x now db = .ok r db') :
    ∃ s t, 0 ≤ x ∧ (B.roll now db).state = some s ∧ db.committed (B.windowDate now) + x ≤ s.effective ∧
      B.checkHourly db now = .ok () ∧
      db.reservations.insert? ⟨id, B.windowDate now, .opened, x, none, none, now⟩ = some t ∧
      db' = { B.roll now db with reservations := t } ∧ r.reservedMicros = x := by
  obtain ⟨hx, h⟩ := Tx.refuseIf_bind_ok h
  have h := Tx.get_bind_ok h
  obtain ⟨-, h⟩ := Tx.refuseIf_bind_ok h
  obtain ⟨_, mid, hroll, h⟩ := Tx.bind_ok h
  cases hroll
  have h := Tx.get_bind_ok h
  cases hr : (B.roll now db).state with
  | none => simp only [hr] at h; cases h
  | some s =>
    simp only [hr] at h
    obtain ⟨hcap, h⟩ := Tx.refuseIf_bind_ok h
    obtain ⟨_, hhour, h⟩ := Tx.check_bind_ok h
    rw [B.roll_checkHourly] at hhour
    rw [B.roll_committed] at hcap
    rw [B.roll_reservations] at h
    cases ht : db.reservations.insert? ⟨id, B.windowDate now, .opened, x, none, none, now⟩ with
    | none =>
      simp only [ht] at h
      cases h
    | some t =>
      simp only [ht] at h
      cases h
      refine ⟨s, t, Int.not_lt.mp hx, rfl, by omega, hhour, rfl, ?_, rfl⟩
      rw [← hr]

variable {row : ReservationRow}

theorem getInTx_ok (h : Budget.getInTx id db = .ok row db') : db.reservations.get? id = some row ∧ db' = db := by
  have h := Tx.get_bind_ok h
  cases hrow : db.reservations.get? id with
  | none =>
    rw [hrow] at h
    cases h
  | some r =>
    rw [hrow] at h
    cases h
    exact ⟨rfl, rfl⟩

variable {c : Call}

theorem closed_of_id {f : ReservationRow → ReservationRow}
    {hf : ∀ r, (f r).reservationId = r.reservationId} (hc : c.closes = true) (hrow : db.reservations.get? id = some row)
    (h : Closes c row (f row)) : Moves B now db c (db.update (fun r => r.reservationId == id) f hf) := by
  refine .closed c hc _ f hf ?_
  intro r hr hid
  obtain ⟨hmem, hkey⟩ := Table.get?_eq_some.mp hrow
  have hsame : r = row := db.reservations.eq_of_key hr hmem ((beq_iff_eq.mp hid).trans hkey.symm)
  exact hsame ▸ h

theorem releaseInTx_ok {reason : ReleaseReason} (h : Budget.releaseInTx id reason db = .ok () db') :
    Moves B now db (.release id reason) db' := by
  obtain ⟨row, mid, hget, hrest⟩ := Tx.bind_ok h
  obtain ⟨hrow, rfl⟩ := getInTx_ok hget
  obtain ⟨hopen, hrest⟩ := Tx.refuseIf_bind_ok hrest
  cases hrest
  exact closed_of_id rfl hrow (.released id reason row (not_not.mp hopen))

theorem markUnknownInTx_ok (h : Budget.markUnknownInTx id db = .ok () db') : Moves B now db (.markUnknown id) db' := by
  obtain ⟨row, mid, hget, hrest⟩ := Tx.bind_ok h
  obtain ⟨hrow, rfl⟩ := getInTx_ok hget
  obtain ⟨hopen, hrest⟩ := Tx.refuseIf_bind_ok hrest
  cases hrest
  exact closed_of_id rfl hrow (.unknown id row (not_not.mp hopen))

theorem settleInTx_ok {actual : Int} {late b : Bool}
    (h : Budget.settleInTx id actual late db = .ok b db') : Moves B now db (.settle id actual late) db' := by
  obtain ⟨row, mid, hget, hrest⟩ := Tx.bind_ok h
  obtain ⟨hrow, rfl⟩ := getInTx_ok hget
  have hid := (Table.get?_eq_some.mp hrow).2
  split at hrest
  · split at hrest
    · cases hrest
      exact .repeated id actual late
    · cases hrest
  · obtain ⟨hstate, hrest⟩ := Tx.refuseIf_bind_ok hrest
    cases hrest
    refine closed_of_id rfl hrow (.settled id actual late row hid ?_)
    cases late
    · exact Or.inl (not_not.mp hstate)
    · exact Or.inr (not_not.mp hstate)

theorem recoverOpenInTx_ok {ids : List String} (h : Budget.recoverOpenInTx db = .ok ids db') :
    Moves B now db .recoverOpen db' := by
  cases h
  exact .closed .recoverOpen rfl _ _ _ fun r _ hopen => .recovered r (beq_iff_eq.mp hopen)

theorem snapshotInTx_ok {s : BudgetSnapshot} (h : B.snapshotInTx now db = .ok s db') :
    Moves B now db .snapshot db' := by
  have h := Tx.get_bind_ok h
  obtain ⟨-, h⟩ := Tx.refuseIf_bind_ok h
  obtain ⟨_, mid, hroll, h⟩ := Tx.bind_ok h
  cases hroll
  have h := Tx.get_bind_ok h
  cases hr : (B.roll now db).state with
  | none => simp only [hr] at h; cases h
  | some s' =>
    simp only [hr] at h
    cases h
    exact .reported

theorem discard_ok {ε σ α : Type} {x : EStateM ε σ α} {s s' : σ} (h : (discard x : EStateM ε σ Unit) s = .ok () s') :
    ∃ a, x s = .ok a s' := by
  obtain ⟨a, ha, -⟩ := Tx.map_ok h
  exact ⟨a, ha⟩

/-- **What a call that returns did.** -/
theorem exec_ok (h : B.exec now c db = .ok () db') : Moves B now db c db' := by
  cases c with
  | setCap v => exact setCapInTx_ok (discard_ok h).choose_spec
  | reserve id x =>
    obtain ⟨s, t, hx, hs, hcap, hhour, ht, rfl, -⟩ := reserveInTx_ok (discard_ok h).choose_spec
    exact .reserved id x s t hx hs hcap hhour ht
  | release id reason => exact releaseInTx_ok h
  | markUnknown id => exact markUnknownInTx_ok h
  | settle id actual late => exact settleInTx_ok (discard_ok h).choose_spec
  | recoverOpen => exact recoverOpenInTx_ok (discard_ok h).choose_spec
  | snapshot => exact snapshotInTx_ok (discard_ok h).choose_spec

theorem Budget.step_cases (B : Budget) (db : BudgetDb) (call : Int × Call) :
    (B.commit call db = .ok () (B.step db call) ∧ Moves B call.1 db call.2 (B.step db call)) ∨
    (∃ e, B.commit call db = .error e db) ∧ B.step db call = db := by
  unfold Budget.step
  cases h : B.commit call db with
  | ok _ db' => exact Or.inl ⟨rfl, exec_ok (transaction_ok h)⟩
  | error e db' =>
    have hsame : db' = db := transaction_error h
    subst hsame
    exact Or.inr ⟨⟨e, rfl⟩, rfl⟩

end MmrTrader.Ai
