import MmrTrader.Scoreboard.TripLaws

/-!
# Late commissions

Executable model of `SessionLedger.reconcile_commissions` and of what it reads (`trader/scoreboard/session_ledger.py`).

* `Ledger` — the experiment and what its runs are given; `Db` — fills, `equity_daily`, `equity_adjustments`, incidents.
* `Run`, `Run.go` — a run of `reconcile_commissions`: one step for each read and for each insert.
* `Act`, `step`, `run` — fills and commission reports, rows, and any number of runs, which may die between two steps.

Money is exact, with a tolerance of zero.
-/

set_option autoImplicit false

namespace MmrTrader.Scoreboard.LateCommissions

open Lib

/-! ## Data -/

structure Ledger where
  projector : Projector
  experimentId : String
  /-- `date.isoformat`. -/
  dateText : Int → String
  /-- The first 32 digits of the SHA-256 of a text. -/
  sha256 : String → String
  dateText_injective : Function.Injective dateText
  dateText_bar : ∀ date, '|' ∉ (dateText date).toList

/-- A row of `equity_daily`; `commission_json` is read back as it was written. -/
structure DayRow where
  sessionDate : Int
  commissionJson : List (String × Option ℚ)
  deriving DecidableEq

/-- The session and the execution of an adjustment. -/
abbrev Key := Int × String

structure Adjustment where
  adjustmentId : String
  sessionDate : Int
  execId : String
  amountUsd : ℚ
  deriving DecidableEq

def Adjustment.key (a : Adjustment) : Key := (a.sessionDate, a.execId)

structure Db where
  fills : Table FillFact.execId
  rows : Table DayRow.sessionDate
  adjustments : Table Adjustment.adjustmentId
  /-- The keys of `LATE_FILL_AFTER_SESSION_ROW`. -/
  incidents : List String

/-- `experiment_fills`: the fills of the experiment, in order of time. -/
def Db.experimentFills (db : Db) : List FillFact := db.fills.rows.insertionSort fillOrder

def Db.recordIncident (db : Db) (key : String) : Db :=
  if key ∈ db.incidents then db else { db with incidents := db.incidents ++ [key] }

/-! ## What the fills say of a session -/

def decimalSum (values : List (Option ℚ)) : Option ℚ :=
  if values.all (·.isSome) then some (values.map (·.getD 0)).sum else none

/-- `SessionFacts.commissions`, by execution. -/
def sessionCommissions (p : Projection) (date : Int) : List (String × Option ℚ) :=
  let pieces := p.pieces.filter fun x => x.sessionDate = date
  ((pieces.map (·.execId)).dedup.insertionSort (· ≤ ·)).map fun execId =>
    (execId, decimalSum ((pieces.filter fun x => x.execId = execId).map (·.fee)))

/-- `project_round_trips`, `none` when it raises. -/
def Ledger.project (L : Ledger) (facts : List FillFact) : Option Projection :=
  match projectRoundTrips L.projector 3 facts with
  | .ok p => p
  | .error _ => none

/-! ## A run -/

/-- One turn of the inner loop: an execution of a session row, what the row says of it, and its fee now. -/
structure Item where
  sessionDate : Int
  execId : String
  stored : Option (Option ℚ)
  fee : Option ℚ
  deriving DecidableEq

def Item.key (item : Item) : Key := (item.sessionDate, item.execId)

/-- The turns of both loops, in order. -/
def items (rows : List DayRow) (p : Projection) : List Item :=
  rows.flatMap fun row => (sessionCommissions p row.sessionDate).map fun current =>
    ⟨row.sessionDate, current.1, row.commissionJson.lookup current.1, current.2⟩

def adjustmentsOf (k : Key) (adjustments : List Adjustment) : List Adjustment :=
  adjustments.filter fun a => a.key = k

def booked (stored : Option ℚ) (k : Key) (adjustments : List Adjustment) : ℚ :=
  stored.getD 0 + ((adjustmentsOf k adjustments).map (·.amountUsd)).sum

def Ledger.seed (L : Ledger) (k : Key) (n : Nat) : String :=
  L.experimentId ++ "|" ++ L.dateText k.1 ++ "|" ++ k.2 ++ "|" ++ toString n

def Ledger.adjustmentId (L : Ledger) (k : Key) (n : Nat) : String := L.sha256 (L.seed k n)

/-- `reconcile_commissions` under way. -/
inductive Run where
  | started
  | haveRows (rows : List DayRow)
  | haveFacts (rows : List DayRow) (facts : List FillFact)
  | working (todo : List Item) (facts : List FillFact) (adjustments : List Adjustment) (written : Nat)
  | done (written : Nat)
  deriving DecidableEq

/-- One turn: the database, the run's own list of adjustments and its count. -/
def Ledger.book (L : Ledger) (item : Item) (db : Db) (adjustments : List Adjustment) (written : Nat) :
    Db × List Adjustment × Nat :=
  match item.stored with
  | none => (db.recordIncident (L.experimentId ++ ":" ++ L.dateText item.sessionDate ++ ":" ++ item.execId), adjustments, written)
  | some stored =>
    match item.fee with
    | none => (db, adjustments, written)
    | some fee =>
      let delta := fee - booked stored item.key adjustments
      if delta = 0 then (db, adjustments, written)
      else
        let adjustment : Adjustment :=
          ⟨L.adjustmentId item.key (adjustmentsOf item.key adjustments).length, item.sessionDate, item.execId, delta⟩
        match db.adjustments.insert? adjustment with
        | none => (db, adjustments, written)  -- `ScoreboardConflict`
        | some table => ({ db with adjustments := table }, adjustments ++ [adjustment], written + 1)

/-- The next step of a run; `none` when it raises. -/
def Run.go (L : Ledger) (db : Db) : Run → Db × Option Run
  | .started => (db, some (if db.rows.rows = [] then .done 0 else .haveRows db.rows.rows))
  | .haveRows rows => (db, some (.haveFacts rows db.experimentFills))
  | .haveFacts rows facts => (db, (L.project facts).map fun p => .working (items rows p) facts db.adjustments.rows 0)
  | .working [] _ _ written => (db, some (.done written))
  | .working (item :: todo) facts adjustments written =>
    let (db, adjustments, written) := L.book item db adjustments written
    (db, some (.working todo facts adjustments written))
  | .done written => (db, some (.done written))

/-! ## Histories -/

/-- `past` has the fills as they were before each change, newest first. -/
structure World where
  db : Db
  past : List (List FillFact)
  runs : Nat → Option Run

def World.start : World := ⟨⟨.empty, .empty, .empty, []⟩, [], fun _ => none⟩

inductive Act where
  /-- A fill of the experiment. -/
  | fill (f : FillFact)
  /-- A commission report; `none` is a commission that is not in dollars. -/
  | commission (execId : String) (fee : Option ℚ)
  /-- The row of a session, from the fills as they were `age` changes ago. -/
  | writeRow (date : Int) (age : Nat)
  | start (i : Nat)
  | go (i : Nat)
  | crash (i : Nat)
  deriving DecidableEq

def Act.changesFills : Act → Bool
  | .fill _ => true
  | .commission _ _ => true
  | _ => false

def World.setFills (w : World) (fills : Table FillFact.execId) : World :=
  { w with db := { w.db with fills := fills }, past := w.db.experimentFills :: w.past }

/-- The row that a session end writes: an existing one stays, and nothing is written when the projection raises. -/
def Ledger.writeRow (L : Ledger) (db : Db) (facts : List FillFact) (date : Int) : Db :=
  match L.project facts with
  | none => db
  | some p =>
    match db.rows.insert? ⟨date, sessionCommissions p date⟩ with
    | none => db
    | some rows => { db with rows := rows }

def step (L : Ledger) (w : World) : Act → World
  | .fill f =>
    match w.db.fills.insert? f with
    | none => w
    | some fills => w.setFills fills
  | .commission execId fee =>
    w.setFills (w.db.fills.updateWhere (fun f => f.execId = execId) (fun f => { f with commission := fee }) fun _ => rfl)
  | .writeRow date age =>
    match (w.db.experimentFills :: w.past)[age]? with
    | none => w
    | some facts => { w with db := L.writeRow w.db facts date }
  | .start i => { w with runs := Function.update w.runs i (some .started) }
  | .go i =>
    match w.runs i with
    | none => w
    | some r => { w with db := (r.go L w.db).1, runs := Function.update w.runs i (r.go L w.db).2 }
  | .crash i => { w with runs := Function.update w.runs i none }

def runFrom (L : Ledger) (w : World) (acts : List Act) : World := acts.foldl (step L) w

def run (L : Ledger) (acts : List Act) : World := runFrom L .start acts

end MmrTrader.Scoreboard.LateCommissions

/-!
## The pieces of a session

* `projection_session` — a piece falls into the session of its fill.
* `project_valid` — a projection that does not raise is one of valid fills.
* `mem_sessionCommissions` — the commissions of a session are those of its fills, each under its execution once.
-/

namespace MmrTrader.Scoreboard.LateCommissions

open Lib

variable {P : Projector} {facts : List FillFact} {L : Ledger} {p : Projection}

/-! ## One session for each execution -/

abbrev InSession (P : Projector) (m : Move) : Prop := m.piece.sessionDate = P.sessionDate m.fill.fillTime

theorem turn_session {w : Walk} {fill : FillFact} {left : ℚ} (hleft : left ≠ 0) (h : ∀ m ∈ w.moves, InSession P m) :
    ∀ m ∈ (w.turn P fill left).1.moves, InSession P m := by
  have hlast : ∀ m', InSession P m' → ∀ m ∈ w.moves ++ [m'], InSession P m := by
    intro m' hm' m hm
    rcases List.mem_append.mp hm with hm | hm
    · exact h m hm
    · rw [List.mem_singleton.mp hm]
      exact hm'
  by_cases hopens : w.Opens left
  · rw [turn_opens hopens hleft]
    exact hlast (openMove P fill |left|) rfl
  · rw [turn_reduces hopens]
    dsimp only
    rw [exited_moves]
    exact hlast (w.exitMove P fill _) rfl

theorem spend_session (fill : FillFact) (fuel : Nat) : ∀ {w w' : Walk} {left : ℚ}, (∀ m ∈ w.moves, InSession P m) →
    Walk.spend P fill fuel w left = some w' → ∀ m ∈ w'.moves, InSession P m := by
  induction fuel with
  | zero =>
    intro w w' left _ hspend
    cases hspend
  | succ fuel ih =>
    intro w w' left h hspend
    rw [Walk.spend] at hspend
    split at hspend
    · cases hspend
      exact h
    · exact ih (turn_session ‹_› h) hspend

theorem fills_session (fuel : Nat) (fs : List FillFact) : ∀ {w w' : Walk}, (∀ m ∈ w.moves, InSession P m) →
    w.fills P fuel fs = some w' → ∀ m ∈ w'.moves, InSession P m := by
  induction fs with
  | nil =>
    intro w w' h hfills
    cases hfills
    exact h
  | cons f fs ih =>
    intro w w' h hfills
    obtain ⟨w₁, hspend, hrest⟩ := Option.bind_eq_some_iff.mp hfills
    exact ih (spend_session f fuel h hspend) hrest

theorem projection_session (h : ValidFills facts) :
    ∀ m ∈ (projection P facts).moves, m.fill ∈ facts ∧ m.Of m.fill ∧ InSession P m := by
  intro m hm
  obtain ⟨conid, -, hmem⟩ := List.mem_flatMap.mp hm
  obtain ⟨hfill, hof⟩ := (walkOf_kept (P := P) h conid).own m hmem
  have hfills := (walked_spec (P := P) (h.fillsOf conid)).1 0
  exact ⟨(mem_fillsOf.mp hfill).1, hof, fills_session _ _ (List.forall_mem_nil _) hfills m hmem⟩

/-! ## Projections that do not raise -/

variable {f : FillFact}

theorem valid_of_validate (h : validate f = .ok ()) : f.Valid := by
  unfold validate at h
  split at h
  · cases h
  · rename_i hside
    split at h
    · cases h
    · rename_i hquantity
      split at h
      · cases h
      · rename_i hprice
        exact ⟨by simpa [or_iff_not_imp_left] using hside, not_le.mp hquantity, not_le.mp hprice⟩

theorem valid_of_checkFills (fills : List FillFact) : ∀ {seen : List String}, checkFills seen fills = .ok () →
    ValidFills fills ∧ ∀ f ∈ fills, f.execId ∉ seen := by
  induction fills with
  | nil => exact fun _ => ⟨⟨List.forall_mem_nil _, List.nodup_nil⟩, List.forall_mem_nil _⟩
  | cons f rest ih =>
    intro seen h
    unfold checkFills at h
    split at h
    · cases h
    · rename_i hf
      split at h
      · cases h
      · rename_i hseen
        obtain ⟨hrest, hunseen⟩ := ih h
        refine ⟨⟨?_, ?_⟩, ?_⟩
        · exact List.forall_mem_cons.mpr ⟨valid_of_validate hf, hrest.valid⟩
        · rw [List.map_cons]
          refine List.nodup_cons.mpr ⟨?_, hrest.distinct⟩
          intro hmem
          obtain ⟨g, hg, heq⟩ := List.mem_map.mp hmem
          exact hunseen g hg (heq ▸ List.mem_cons_self)
        · exact List.forall_mem_cons.mpr ⟨hseen, fun g hg hmem => hunseen g hg (List.mem_cons_of_mem _ hmem)⟩

theorem project_valid (h : L.project facts = some p) : ValidFills facts ∧ p = projection L.projector facts := by
  unfold Ledger.project at h
  cases hcheck : checkFills [] facts with
  | error e =>
    unfold projectRoundTrips at h
    rw [hcheck] at h
    cases h
  | ok u =>
    have hvalid := (valid_of_checkFills facts hcheck).1
    rw [projectRoundTrips_eq hvalid 0] at h
    cases h
    exact ⟨hvalid, rfl⟩

/-! ## The commissions of a session -/

theorem decimalSum_map_some (amounts : List ℚ) : decimalSum (amounts.map some) = some amounts.sum := by
  unfold decimalSum
  rw [if_pos (by simp), List.map_map]
  simp

theorem decimalSum_none {values : List (Option ℚ)} (h : none ∈ values) : decimalSum values = none := by
  unfold decimalSum
  rw [if_neg]
  intro hall
  exact absurd (List.all_eq_true.mp hall none h) (by simp)

theorem pieces_of_fill (h : ValidFills facts) (hf : f ∈ facts) :
    ((projection P facts).pieces.filter fun x => x.sessionDate = P.sessionDate f.fillTime).filter (fun x => x.execId = f.execId) =
      ((projection P facts).moves.filter fun m => m.piece.execId = f.execId).map (·.piece) := by
  rw [List.filter_filter, Projection.pieces, List.filter_map]
  congr 1
  apply List.filter_congr
  intro m hm
  obtain ⟨hfill, hof, hsession⟩ := projection_session (P := P) h m hm
  simp only [Function.comp, Bool.and_eq_left_iff_imp, decide_eq_true_eq]
  intro hid
  have hsame : m.fill = f := h.eq_of_execId hfill hf (hof.execId.symm.trans hid)
  rw [← hsame]
  exact hsession

theorem moves_ne_nil (h : ValidFills facts) (hf : f ∈ facts) : ∃ m ∈ (projection P facts).moves, m.piece.execId = f.execId := by
  have hsizes := (project_accounted (P := P) h).sizes f hf
  by_contra hnone
  push Not at hnone
  rw [List.filter_eq_nil_iff.mpr fun m hm => by simpa using hnone m hm] at hsizes
  exact (h.valid f hf).quantity.ne hsizes

theorem decimalSum_fees (h : ValidFills facts) (hf : f ∈ facts) :
    decimalSum (((projection P facts).moves.filter fun m => m.piece.execId = f.execId).map (·.piece.fee)) = f.commission := by
  cases hc : f.commission with
  | some commission =>
    obtain ⟨amounts, hmap, hsum⟩ := (project_accounted (P := P) h).fees f hf commission hc
    rw [hmap, decimalSum_map_some, hsum]
  | none =>
    obtain ⟨m, hm, hid⟩ := moves_ne_nil (P := P) h hf
    obtain ⟨hfill, hof, -⟩ := projection_session (P := P) h m hm
    have hsame : m.fill = f := h.eq_of_execId hfill hf (hof.execId.symm.trans hid)
    apply decimalSum_none
    refine List.mem_map.mpr ⟨m, List.mem_filter.mpr ⟨hm, decide_eq_true hid⟩, ?_⟩
    rw [hof.fee, hsame, FillFact.feeOf, hc]
    rfl

theorem nodup_sessionCommissions (p : Projection) (date : Int) : ((sessionCommissions p date).map Prod.fst).Nodup := by
  unfold sessionCommissions
  rw [List.map_map]
  have hid : (Prod.fst ∘ fun execId => (execId, decimalSum (((p.pieces.filter fun x => x.sessionDate = date).filter
      fun x => x.execId = execId).map (·.fee)))) = fun execId : String => execId := rfl
  rw [hid, List.map_id']
  exact (List.perm_insertionSort _ _).nodup_iff.mpr (List.nodup_dedup _)

/-- **The commissions of a session** are those of its fills. -/
theorem mem_sessionCommissions (h : ValidFills facts) {date : Int} {execId : String} {fee : Option ℚ} :
    (execId, fee) ∈ sessionCommissions (projection P facts) date ↔
      ∃ f ∈ facts, f.execId = execId ∧ P.sessionDate f.fillTime = date ∧ f.commission = fee := by
  unfold sessionCommissions
  dsimp only
  constructor
  · intro hmem
    obtain ⟨e, he, heq⟩ := List.mem_map.mp hmem
    rw [List.mem_insertionSort, List.mem_dedup] at he
    obtain ⟨x, hx, rfl⟩ := List.mem_map.mp he
    obtain ⟨hx, hdate⟩ := List.mem_filter.mp hx
    obtain ⟨m, hm, rfl⟩ := List.mem_map.mp hx
    obtain ⟨hfill, hof, hsession⟩ := projection_session (P := P) h m hm
    have hdate : m.piece.sessionDate = date := of_decide_eq_true hdate
    have hdate' : P.sessionDate m.fill.fillTime = date := hsession.symm.trans hdate
    obtain ⟨hexec, hfee⟩ := Prod.mk.inj heq
    refine ⟨m.fill, hfill, hof.execId.symm.trans hexec, hdate', ?_⟩
    rw [← hfee, ← hdate', hof.execId, pieces_of_fill h hfill, List.map_map]
    exact (decimalSum_fees h hfill).symm
  · rintro ⟨f, hf, rfl, rfl, rfl⟩
    obtain ⟨m, hm, hid⟩ := moves_ne_nil (P := P) h hf
    obtain ⟨hfill, hof, hsession⟩ := projection_session (P := P) h m hm
    have hsame : m.fill = f := h.eq_of_execId hfill hf (hof.execId.symm.trans hid)
    refine List.mem_map.mpr ⟨f.execId, ?_, ?_⟩
    · rw [List.mem_insertionSort, List.mem_dedup]
      refine List.mem_map.mpr ⟨m.piece, List.mem_filter.mpr ⟨List.mem_map_of_mem hm, ?_⟩, hid⟩
      rw [← hsame]
      exact decide_eq_true hsession
    · rw [pieces_of_fill h hf, List.map_map]
      exact congrArg (Prod.mk f.execId) (decimalSum_fees h hf)

end MmrTrader.Scoreboard.LateCommissions
