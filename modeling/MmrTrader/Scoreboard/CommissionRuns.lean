import Mathlib.Logic.Encodable.Basic
import MmrTrader.Scoreboard.CommissionLaws

/-!
# Late commissions are booked once

* `Still` — the fills stand still, and no run under way has read others.
* `Caught` — how far a run has come with the rows; `Kept`, `Turned` — what a turn of any run leaves of them.
* `late_commissions_booked` — **what is booked is the fee, once a run went through while the fills stood still.**
-/

namespace MmrTrader.Scoreboard.LateCommissions

open Lib

variable {L : Ledger} {db db' : Db} {w : World} {k : Key} {item : Item} {facts : List FillFact}
  {adjustments adjustments' : List Adjustment} {written written' : Nat} {rows₀ : List DayRow} {i : Nat}

/-! ## While the fills stand still -/

/-- An execution of a row whose fee is known. -/
def Due (facts : List FillFact) (row : DayRow) (execId : String) (stored : Option ℚ) (fee : ℚ) : Prop :=
  row.commissionJson.lookup execId = some stored ∧ ∃ f ∈ facts, f.execId = execId ∧ f.commission = some fee

def AllBooked (facts : List FillFact) (rows₀ : List DayRow) (all : List Adjustment) : Prop :=
  ∀ row ∈ rows₀, ∀ execId stored fee, Due facts row execId stored fee → booked stored (row.sessionDate, execId) all = fee

def Run.facts? : Run → Option (List FillFact)
  | .haveFacts _ facts => some facts
  | .working _ facts _ _ => some facts
  | _ => none

structure Still (facts : List FillFact) (rows₀ : List DayRow) (w : World) : Prop where
  fills : w.db.experimentFills = facts
  read : ∀ j r, w.runs j = some r → ∀ read, r.facts? = some read → read = facts
  rows : rows₀ ⊆ w.db.rows.rows

/-- How far the run has come with these rows. -/
def Caught (facts : List FillFact) (rows₀ : List DayRow) (all : List Adjustment) : Run → Prop
  | .started => True
  | .haveRows rows => rows₀ ⊆ rows
  | .haveFacts rows _ => rows₀ ⊆ rows
  | .working todo _ adjustments _ => ∀ row ∈ rows₀, ∀ execId stored fee, Due facts row execId stored fee →
      booked stored (row.sessionDate, execId) all = fee ∨
        UpToDate (row.sessionDate, execId) adjustments all ∧ ⟨row.sessionDate, execId, some stored, some fee⟩ ∈ todo
  | .done _ => AllBooked facts rows₀ all

variable {row : DayRow} {execId : String} {stored : Option ℚ} {fee : ℚ}
variable {a : Adjustment}

theorem Due.inserted (hstill : Still facts rows₀ w) (hitem : ItemOk L w.db facts item)
    (ha : Inserts L item w.db adjustments a) (hrow : row ∈ rows₀)
    (hdue : Due facts row execId stored fee) (hkey : (row.sessionDate, execId) = item.key) :
    item.stored = some stored ∧ item.fee = some fee ∧
      booked stored (row.sessionDate, execId) (w.db.adjustments.rows ++ [a]) = fee := by
  obtain ⟨hdate, hexec⟩ := Prod.mk.inj hkey
  obtain ⟨⟨row', hrow', hdate', hstored⟩, f', hf', hid', -, hfee⟩ := hitem
  obtain ⟨hlookup, f, hf, hid, hcommission⟩ := hdue
  have hsame : row = row' := w.db.rows.eq_of_key (hstill.rows hrow) hrow' (hdate.trans hdate'.symm)
  have hfill : f = f' := by
    rw [← hstill.fills] at hf hf'
    exact w.db.fills.eq_of_key (mem_experimentFills.mp hf) (mem_experimentFills.mp hf') ((hid.trans hexec).trans hid'.symm)
  subst hsame hfill
  obtain ⟨stored', fee', hs, hf, -, hbooks⟩ := ha.books
  rw [← hexec, hlookup] at hstored
  rw [hcommission] at hfee
  cases hstored.trans hs
  cases hfee.trans hf
  refine ⟨hs, hf, ?_⟩
  rw [hkey, booked_append _ _ ha.key]
  exact hbooks

variable {all : List Adjustment}

theorem upToDate_append (h : UpToDate k adjustments all) (hk : a.key ≠ k) : UpToDate k adjustments (all ++ [a]) := by
  unfold UpToDate
  rw [adjustmentsOf_append, adjustmentsOf_other hk, List.append_nil]
  exact h

/-- What a step keeps of the rows, whatever run takes it. -/
structure Kept (facts : List FillFact) (rows₀ : List DayRow) (all all' : List Adjustment) : Prop where
  /-- What is booked stays as it is. -/
  stays : ∀ row ∈ rows₀, ∀ execId stored fee, Due facts row execId stored fee →
    booked stored (row.sessionDate, execId) all = fee →
      adjustmentsOf (row.sessionDate, execId) all' = adjustmentsOf (row.sessionDate, execId) all
  /-- What a run knows of a due execution is all of it still, or it is booked now. -/
  others : ∀ row ∈ rows₀, ∀ execId stored fee, Due facts row execId stored fee → ∀ known,
    UpToDate (row.sessionDate, execId) known all →
      UpToDate (row.sessionDate, execId) known all' ∨ booked stored (row.sessionDate, execId) all' = fee
  /-- Executions that are not due are left alone. -/
  rest : ∀ row ∈ rows₀, ∀ execId, (∀ stored fee, ¬ Due facts row execId stored fee) →
    adjustmentsOf (row.sessionDate, execId) all' = adjustmentsOf (row.sessionDate, execId) all

theorem Kept.refl (facts : List FillFact) (rows₀ : List DayRow) (all : List Adjustment) : Kept facts rows₀ all all :=
  ⟨fun _ _ _ _ _ _ _ => rfl, fun _ _ _ _ _ _ _ hup => Or.inl hup, fun _ _ _ _ => rfl⟩

/-- A turn of a run, besides. -/
structure Turned (facts : List FillFact) (rows₀ : List DayRow) (item : Item) (all all' adjustments adjustments' : List Adjustment) :
    Prop where
  kept : Kept facts rows₀ all all'
  /-- The execution of the turn is booked then. -/
  own : ∀ row ∈ rows₀, ∀ execId stored fee, Due facts row execId stored fee →
    (⟨row.sessionDate, execId, some stored, some fee⟩ : Item) = item →
      UpToDate (row.sessionDate, execId) adjustments all → booked stored (row.sessionDate, execId) all' = fee
  self : ∀ row ∈ rows₀, ∀ execId, UpToDate (row.sessionDate, execId) adjustments all →
    UpToDate (row.sessionDate, execId) adjustments' all'

theorem turned (hsha : L.SeedsApart) (h : Inv L w) (hstill : Still facts rows₀ w) (hitem : ItemOk L w.db facts item)
    (hknows : Knows adjustments w.db.adjustments.rows)
    (hbook : L.book item w.db adjustments written = (db', adjustments', written')) :
    Turned facts rows₀ item w.db.adjustments.rows db'.adjustments.rows adjustments adjustments' := by
  obtain ⟨-, -, ⟨hsame, rfl, -, hskip⟩ | ⟨a, ha, hadd, rfl, -⟩⟩ := book_cases hsha h.numbered hknows hbook
  · rw [hsame]
    refine ⟨Kept.refl _ _ _, ?_, fun _ _ _ hup => hup⟩
    rintro row hrow execId stored fee hdue rfl hup
    exact hskip hup stored fee rfl rfl
  · rw [hadd]
    have hother : ∀ k, a.key ≠ k → adjustmentsOf k (w.db.adjustments.rows ++ [a]) = adjustmentsOf k w.db.adjustments.rows := by
      intro k hk
      rw [adjustmentsOf_append, adjustmentsOf_other hk, List.append_nil]
    refine ⟨⟨?_, ?_, ?_⟩, ?_, ?_⟩
    · intro row hrow execId stored fee hdue hbooked
      apply hother
      intro hk
      obtain ⟨hs, hf, -⟩ := hdue.inserted hstill hitem ha hrow (hk.symm.trans ha.key)
      obtain ⟨stored', fee', hs', hf', hne, -⟩ := ha.books
      cases hs.symm.trans hs'
      cases hf.symm.trans hf'
      rw [← ha.key, hk] at hne
      exact hne hbooked
    · intro row hrow execId stored fee hdue known hup
      by_cases hk : a.key = (row.sessionDate, execId)
      · exact Or.inr (hdue.inserted hstill hitem ha hrow (hk.symm.trans ha.key)).2.2
      · exact Or.inl (upToDate_append hup hk)
    · intro row hrow execId hnone
      apply hother
      intro hk
      obtain ⟨hdate, hexec⟩ := Prod.mk.inj (hk.symm.trans ha.key)
      obtain ⟨stored, fee, hs, hf, -⟩ := ha.books
      obtain ⟨⟨row', hrow', hdate', hstored⟩, f, hf', hid, -, hfee⟩ := hitem
      have hsame : row = row' := w.db.rows.eq_of_key (hstill.rows hrow) hrow' (hdate.trans hdate'.symm)
      subst hsame
      exact hnone stored fee ⟨by rw [hexec]; exact hstored.trans hs, f, hf', hid.trans hexec.symm, hfee.trans hf⟩
    · intro row hrow execId stored fee hdue hown hup
      exact (hdue.inserted hstill hitem ha hrow (by rw [← hown]; rfl)).2.2
    · intro row hrow execId hup
      unfold UpToDate
      rw [adjustmentsOf_append, adjustmentsOf_append, hup]

/-! ### One step -/

variable {all' : List Adjustment}

theorem booked_congr (h : adjustmentsOf k all' = adjustmentsOf k all) : booked stored k all' = booked stored k all := by
  unfold booked
  rw [h]

theorem Kept.due (h : Kept facts rows₀ all all') (hrow : row ∈ rows₀) (hdue : Due facts row execId stored fee)
    (hbooked : booked stored (row.sessionDate, execId) all = fee) : booked stored (row.sessionDate, execId) all' = fee :=
  (booked_congr (h.stays row hrow execId stored fee hdue hbooked)).trans hbooked

theorem Kept.allBooked (h : Kept facts rows₀ all all') (hall : AllBooked facts rows₀ all) :
    AllBooked facts rows₀ all' := fun row hrow execId stored fee hdue =>
  h.due hrow hdue (hall row hrow execId stored fee hdue)

variable {r : Run}

/-- A run stands where it stood when another one takes a turn. -/
theorem Kept.caught (h : Kept facts rows₀ all all') (hr : Caught facts rows₀ all r) : Caught facts rows₀ all' r := by
  cases r with
  | started => trivial
  | haveRows rows => exact hr
  | haveFacts rows read => exact hr
  | working todo read adjustments written =>
    intro row hrow execId stored fee hdue
    rcases hr row hrow execId stored fee hdue with hbooked | ⟨hup, htodo⟩
    · exact Or.inl (h.due hrow hdue hbooked)
    · rcases h.others row hrow execId stored fee hdue adjustments hup with hup | hbooked
      · exact Or.inr ⟨hup, htodo⟩
      · exact Or.inl hbooked
  | done written => exact h.allBooked hr

theorem Due.mem_items (h : Inv L w) (hstill : Still facts rows₀ w) (hvalid : ValidFills facts) {rows : List DayRow}
    (hsub : rows₀ ⊆ rows) (hrow : row ∈ rows₀) (hdue : Due facts row execId stored fee) :
    ⟨row.sessionDate, execId, some stored, some fee⟩ ∈ items rows (projection L.projector facts) := by
  obtain ⟨hlookup, f, hf, hid, hcommission⟩ := hdue
  obtain ⟨g, hg, hid', hdate⟩ := (h.rows row (hstill.rows hrow)).2 execId (mem_keys_of_lookup hlookup)
  have hsame : f = g := by
    rw [← hstill.fills] at hf
    exact w.db.fills.eq_of_key (mem_experimentFills.mp hf) hg (hid.trans hid'.symm)
  rw [hsame] at hf hcommission
  exact (LateCommissions.mem_items hvalid).mpr ⟨row, hsub hrow, rfl, hlookup, g, hf, hid', hdate, hcommission⟩

theorem Still.setRun (h : Still facts rows₀ w) (j : Nat) {r : Option Run}
    (hr : ∀ r', r = some r' → ∀ read, r'.facts? = some read → read = facts) :
    Still facts rows₀ { w with runs := Function.update w.runs j r } := by
  refine ⟨h.fills, ?_, h.rows⟩
  intro k r' hk
  dsimp only at hk
  by_cases hkj : k = j
  · subst hkj
    rw [Function.update_self] at hk
    exact hr r' hk
  · rw [Function.update_of_ne hkj] at hk
    exact h.read k r' hk

theorem Still.go (hsha : L.SeedsApart) (h : Inv L w) (hstill : Still facts rows₀ w) {j : Nat} (hr : w.runs j = some r) :
    Still facts rows₀ { w with db := (r.go L w.db).1, runs := Function.update w.runs j (r.go L w.db).2 } ∧
    Kept facts rows₀ w.db.adjustments.rows (r.go L w.db).1.adjustments.rows ∧
    (Caught facts rows₀ w.db.adjustments.rows r → ∀ r', (r.go L w.db).2 = some r' →
      Caught facts rows₀ (r.go L w.db).1.adjustments.rows r') := by
  have hread := hstill.read j r hr
  match r, hread with
  | .started, _ =>
    refine ⟨hstill.setRun j ?_, Kept.refl _ _ _, ?_⟩
    · intro r' hr' read hfacts
      obtain rfl := Option.some.inj hr'
      split at hfacts <;> cases hfacts
    · intro _ r' hr'
      obtain rfl := Option.some.inj hr'
      split
      · rename_i hnone
        intro row hrow
        have hmem := hstill.rows hrow
        rw [hnone] at hmem
        cases hmem
      · exact hstill.rows
  | .haveRows rows, _ =>
    refine ⟨hstill.setRun j ?_, Kept.refl _ _ _, ?_⟩
    · intro r' hr' read hfacts
      obtain rfl := Option.some.inj hr'
      obtain rfl := Option.some.inj hfacts
      exact hstill.fills
    · intro hrows r' hr'
      obtain rfl := Option.some.inj hr'
      exact hrows
  | .haveFacts rows read, hread =>
    obtain rfl : read = facts := hread read rfl
    refine ⟨hstill.setRun j ?_, Kept.refl _ _ _, ?_⟩
    · intro r' hr' read hfacts
      obtain ⟨p, -, rfl⟩ := Option.map_eq_some_iff.mp hr'
      exact (Option.some.inj hfacts).symm
    · intro hrows r' hr'
      obtain ⟨p, hproject, rfl⟩ := Option.map_eq_some_iff.mp hr'
      obtain ⟨hvalid, rfl⟩ := project_valid hproject
      intro row hrow execId stored fee hdue
      exact Or.inr ⟨rfl, hdue.mem_items h hstill hvalid hrows hrow⟩
  | .working [] read adjustments written, _ =>
    refine ⟨hstill.setRun j ?_, Kept.refl _ _ _, ?_⟩
    · intro r' hr' read hfacts
      obtain rfl := Option.some.inj hr'
      cases hfacts
    · intro hcaught r' hr'
      obtain rfl := Option.some.inj hr'
      intro row hrow execId stored fee hdue
      rcases hcaught row hrow execId stored fee hdue with hbooked | ⟨-, htodo⟩
      · exact hbooked
      · cases htodo
  | .working (item :: todo) read adjustments written, hread =>
    obtain rfl : read = facts := hread read rfl
    have hok := h.runs j _ hr
    have hitem := hok.1 item List.mem_cons_self
    cases hbook : L.book item w.db adjustments written with
    | mk db' rest =>
      obtain ⟨adjustments', written'⟩ := rest
      rw [go_turn hbook]
      obtain ⟨hfills, hrows, -⟩ := book_cases hsha h.numbered hok.2 hbook
      have hturned := turned hsha h hstill hitem hok.2 hbook
      have hstill' : Still read rows₀ { w with db := db' } := by
        refine ⟨?_, hstill.read, ?_⟩
        · unfold Db.experimentFills
          dsimp only
          rw [hfills]
          exact hstill.fills
        · dsimp only
          rw [hrows]
          exact hstill.rows
      refine ⟨hstill'.setRun j ?_, hturned.kept, ?_⟩
      · intro r' hr' read' hfacts
        obtain rfl := Option.some.inj hr'
        exact (Option.some.inj hfacts).symm
      · intro hcaught r' hr'
        obtain rfl := Option.some.inj hr'
        intro row hrow execId stored fee hdue
        rcases hcaught row hrow execId stored fee hdue with hbooked | ⟨hup, htodo⟩
        · exact Or.inl (hturned.kept.due hrow hdue hbooked)
        · rcases List.mem_cons.mp htodo with hown | htodo
          · exact Or.inl (hturned.own row hrow execId stored fee hdue hown hup)
          · exact Or.inr ⟨hturned.self row hrow execId hup, htodo⟩
  | .done written, _ =>
    refine ⟨hstill.setRun j ?_, Kept.refl _ _ _, ?_⟩
    · intro r' hr' read hfacts
      obtain rfl := Option.some.inj hr'
      cases hfacts
    · intro hcaught r' hr'
      obtain rfl := Option.some.inj hr'
      exact hcaught

/-- The run has caught up with these rows as far as it has come. -/
def Follows (facts : List FillFact) (rows₀ : List DayRow) (i : Nat) (w : World) : Prop :=
  ∀ r, w.runs i = some r → Caught facts rows₀ w.db.adjustments.rows r

/-- **A step while the fills stand still.** -/
theorem Still.step (hsha : L.SeedsApart) (h : Inv L w) (hstill : Still facts rows₀ w) {act : Act} (hact : act.changesFills = false) :
    Still facts rows₀ (step L w act) ∧ Kept facts rows₀ w.db.adjustments.rows (step L w act).db.adjustments.rows ∧
      (Follows facts rows₀ i w → Follows facts rows₀ i (step L w act)) := by
  cases act with
  | fill f => cases hact
  | commission execId fee => cases hact
  | writeRow date age =>
    have hwrite : ∀ read, (L.writeRow w.db read date).fills = w.db.fills ∧
        (L.writeRow w.db read date).adjustments = w.db.adjustments ∧ w.db.rows.rows ⊆ (L.writeRow w.db read date).rows.rows := by
      intro read
      unfold Ledger.writeRow
      split
      · exact ⟨rfl, rfl, List.Subset.refl _⟩
      · split
        · exact ⟨rfl, rfl, List.Subset.refl _⟩
        · rename_i rows hrows
          exact ⟨rfl, rfl, fun row hrow => (Table.mem_insert? hrows).mpr (Or.inl hrow)⟩
    unfold LateCommissions.step
    dsimp only
    split
    · exact ⟨hstill, Kept.refl _ _ _, fun hfollows => hfollows⟩
    · rename_i read _
      obtain ⟨hfills, hadjustments, hrows⟩ := hwrite read
      refine ⟨⟨?_, hstill.read, fun row hrow => hrows (hstill.rows hrow)⟩, ?_, ?_⟩
      · unfold Db.experimentFills
        dsimp only
        rw [hfills]
        exact hstill.fills
      · dsimp only
        rw [hadjustments]
        exact Kept.refl _ _ _
      · intro hfollows r hr
        dsimp only
        rw [hadjustments]
        exact hfollows r hr
  | start j =>
    refine ⟨hstill.setRun j ?_, Kept.refl _ _ _, ?_⟩
    · intro r' hr' read hfacts
      obtain rfl := Option.some.inj hr'
      cases hfacts
    · intro hfollows r hr
      by_cases hij : i = j
      · subst hij
        obtain rfl : Run.started = r := by simpa [LateCommissions.step] using hr
        trivial
      · exact hfollows r (by simpa [LateCommissions.step, hij] using hr)
  | go j =>
    unfold LateCommissions.step
    dsimp only
    split
    · exact ⟨hstill, Kept.refl _ _ _, fun hfollows => hfollows⟩
    · rename_i r hr
      obtain ⟨hstill', hkept, hcaught⟩ := hstill.go hsha h hr
      refine ⟨hstill', hkept, ?_⟩
      intro hfollows r' hr'
      dsimp only at hr'
      by_cases hij : i = j
      · subst hij
        rw [Function.update_self] at hr'
        exact hcaught (hfollows r hr) r' hr'
      · rw [Function.update_of_ne hij] at hr'
        exact hkept.caught (hfollows r' hr')
  | crash j =>
    refine ⟨hstill.setRun j ?_, Kept.refl _ _ _, ?_⟩
    · intro r' hr'
      cases hr'
    · intro hfollows r hr
      by_cases hij : i = j
      · subst hij
        simp [LateCommissions.step] at hr
      · exact hfollows r (by simpa [LateCommissions.step, hij] using hr)

/-! ### Every run -/

theorem Still.runFrom (hsha : L.SeedsApart) (acts : List Act) : ∀ {w : World}, Inv L w → Still facts rows₀ w →
    (∀ act ∈ acts, act.changesFills = false) → Follows facts rows₀ i w →
    Still facts rows₀ (LateCommissions.runFrom L w acts) ∧ Follows facts rows₀ i (LateCommissions.runFrom L w acts) := by
  induction acts with
  | nil => exact fun _ hstill _ hfollows => ⟨hstill, hfollows⟩
  | cons act acts ih =>
    intro w h hstill hquiet hfollows
    obtain ⟨hstill', -, hfollows'⟩ := hstill.step (i := i) hsha h (hquiet act List.mem_cons_self)
    exact ih (h.step hsha act) hstill' (fun other hother => hquiet other (List.mem_cons_of_mem _ hother)) (hfollows' hfollows)

theorem Still.nothing_more (hsha : L.SeedsApart) (acts : List Act) : ∀ {w : World}, Inv L w → Still facts rows₀ w →
    (∀ act ∈ acts, act.changesFills = false) → AllBooked facts rows₀ w.db.adjustments.rows → ∀ row ∈ rows₀, ∀ execId,
      adjustmentsOf (row.sessionDate, execId) (LateCommissions.runFrom L w acts).db.adjustments.rows =
        adjustmentsOf (row.sessionDate, execId) w.db.adjustments.rows := by
  induction acts with
  | nil => exact fun _ _ _ _ _ _ _ => rfl
  | cons act acts ih =>
    intro w h hstill hquiet hall row hrow execId
    obtain ⟨hstill', hkept, -⟩ := hstill.step (i := 0) hsha h (hquiet act List.mem_cons_self)
    have hrest := ih (h.step hsha act) hstill' (fun other hother => hquiet other (List.mem_cons_of_mem _ hother))
      (hkept.allBooked hall) row hrow execId
    refine hrest.trans ?_
    by_cases hdue : ∃ stored fee, Due facts row execId stored fee
    · obtain ⟨stored, fee, hdue⟩ := hdue
      exact hkept.stays row hrow execId stored fee hdue (hall row hrow execId stored fee hdue)
    · push Not at hdue
      exact hkept.rest row hrow execId hdue

theorem one_session {p : Projection} (h : L.project facts = some p) {x y : Piece} (hx : x ∈ p.pieces) (hy : y ∈ p.pieces)
    (hid : x.execId = y.execId) : x.sessionDate = y.sessionDate := by
  obtain ⟨hvalid, rfl⟩ := project_valid h
  obtain ⟨m, hm, rfl⟩ := List.mem_map.mp hx
  obtain ⟨n, hn, rfl⟩ := List.mem_map.mp hy
  obtain ⟨hfill, hof, hsession⟩ := projection_session (P := L.projector) hvalid m hm
  obtain ⟨hfill', hof', hsession'⟩ := projection_session (P := L.projector) hvalid n hn
  have hsame : m.fill = n.fill := hvalid.eq_of_execId hfill hfill' (hof.execId.symm.trans (hid.trans hof'.execId))
  rw [hsession, hsession', hsame]

/-- No execution is in two rows. -/
theorem Inv.one_row (h : Inv L w) {row' : DayRow} (hrow : row ∈ w.db.rows.rows) (hrow' : row' ∈ w.db.rows.rows)
    (hin : execId ∈ row.commissionJson.map Prod.fst) (hin' : execId ∈ row'.commissionJson.map Prod.fst) : row = row' := by
  obtain ⟨f, hf, hid, hdate⟩ := (h.rows row hrow).2 execId hin
  obtain ⟨g, hg, hid', hdate'⟩ := (h.rows row' hrow').2 execId hin'
  have hsame : f = g := w.db.fills.eq_of_key hf hg (hid.trans hid'.symm)
  subst hsame
  exact w.db.rows.eq_of_key hrow hrow' (hdate.symm.trans hdate')

def ReadsNow (w : World) : Prop := ∀ j r, w.runs j = some r → ∀ read, r.facts? = some read → read = w.db.experimentFills

/-- **Late commissions are booked once.**  An adjustment is one of an execution of its row, and an execution is in one
session and one row.  After a run that started and ended while the fills stood still, with no run under way that had read
others, what is booked of the rows that were there is the fee; and while the fills go on standing still nothing more is
written for them. -/
theorem late_commissions_booked (L : Ledger) (hsha : L.SeedsApart) (history : List Act) :
    (∀ a ∈ (run L history).db.adjustments.rows, ∃ row ∈ (run L history).db.rows.rows,
      row.sessionDate = a.sessionDate ∧ a.execId ∈ row.commissionJson.map Prod.fst) ∧
    (∀ facts p, L.project facts = some p → ∀ x ∈ p.pieces, ∀ y ∈ p.pieces, x.execId = y.execId → x.sessionDate = y.sessionDate) ∧
    (∀ row ∈ (run L history).db.rows.rows, ∀ row' ∈ (run L history).db.rows.rows, ∀ execId,
      execId ∈ row.commissionJson.map Prod.fst → execId ∈ row'.commissionJson.map Prod.fst → row = row') ∧
    ∀ (quiet : List Act) (i written : Nat), ReadsNow (run L history) → (run L history).runs i = none →
      (∀ act ∈ quiet, act.changesFills = false) → (run L (history ++ quiet)).runs i = some (.done written) →
      AllBooked (run L history).db.experimentFills (run L history).db.rows.rows (run L (history ++ quiet)).db.adjustments.rows ∧
      ∀ more, (∀ act ∈ more, act.changesFills = false) → ∀ row ∈ (run L history).db.rows.rows, ∀ execId,
        adjustmentsOf (row.sessionDate, execId) (run L (history ++ quiet ++ more)).db.adjustments.rows =
          adjustmentsOf (row.sessionDate, execId) (run L (history ++ quiet)).db.adjustments.rows := by
  have hinv := inv_run hsha history
  refine ⟨hinv.inRow, fun facts p hp x hx y hy hid => one_session hp hx hy hid,
    fun row hrow row' hrow' execId hin hin' => hinv.one_row hrow hrow' hin hin', ?_⟩
  intro quiet i written hread hidle hquiet hdone
  have happend : ∀ acts more, run L (acts ++ more) = runFrom L (run L acts) more := fun acts more => List.foldl_append
  have hstill : Still (run L history).db.experimentFills (run L history).db.rows.rows (run L history) :=
    ⟨rfl, hread, List.Subset.refl _⟩
  obtain ⟨hstill', hfollows⟩ := hstill.runFrom (i := i) hsha quiet hinv hquiet (fun r hr => by rw [hidle] at hr; cases hr)
  rw [← happend] at hstill' hfollows
  have hall := hfollows _ hdone
  refine ⟨hall, fun more hmore row hrow execId => ?_⟩
  rw [happend (history ++ quiet)]
  exact hstill'.nothing_more hsha more (inv_run hsha _) hmore hall row hrow execId

/-! ### Runs that overlap -/

/-- Sessions by day, and a hash that keeps what it is given. -/
def dayLedger : Ledger where
  projector := plainProjector
  experimentId := "exp-1"
  dateText date := toString (Encodable.encode date)
  sha256 := id
  dateText_injective _ _ h := Encodable.encode_injective (toString_nat_inj (congrArg String.toList h))
  dateText_bar _ h := absurd (isDigit_of_mem_repr h) (by decide)

theorem dayLedger_seedsApart : dayLedger.SeedsApart := fun _ _ _ _ h => h

/-- A fill without a commission, the row of its session, and the report of its commission. -/
def lateFee : List Act :=
  [.fill ⟨"e1", 265598, "BUY", 10, 100, none, 0, none, none⟩, .writeRow 0 0, .commission "e1" (some 1)]

def completed : List Act := [.start 0, .go 0, .go 0, .go 0, .go 0, .go 0]

theorem late_fee_booked :
    (run dayLedger (lateFee ++ completed)).db.adjustments.rows.map (·.amountUsd) = [1] ∧
      booked none (0, "e1") (run dayLedger (lateFee ++ completed)).db.adjustments.rows = 1 := by
  have hruns : (run dayLedger lateFee).runs = fun _ => none := rfl
  have hread : ReadsNow (run dayLedger lateFee) := fun j r hr => by
    rw [hruns] at hr
    cases hr
  have hbooked := (late_commissions_booked dayLedger dayLedger_seedsApart lateFee).2.2.2 completed 0 1 hread
    (by rw [hruns]) (by decide) (by decide +kernel)
  exact ⟨by decide +kernel, hbooked.1 ⟨0, [("e1", none)]⟩ (by decide +kernel) "e1" none 1
    ⟨by decide, ⟨"e1", 265598, "BUY", 10, 100, some 1, 0, none, none⟩, by decide +kernel, rfl, rfl⟩⟩

/-- **A run that ends after an older one with an older fee** leaves the older fee booked: both insert the first
adjustment, the second insert is a conflict. -/
theorem overlapping_runs_book_old_fee :
    ¬ ∀ (L : Ledger), L.SeedsApart → ∀ (before during : List Act) (i written : Nat),
      (∀ act ∈ during, act.changesFills = false) → (run L (before ++ .start i :: during)).runs i = some (.done written) →
        AllBooked (run L (before ++ .start i :: during)).db.experimentFills (run L (before ++ .start i :: during)).db.rows.rows
          (run L (before ++ .start i :: during)).db.adjustments.rows := by
  intro hclaim
  have hall := hclaim dayLedger dayLedger_seedsApart
    (lateFee ++ [.start 0, .go 0, .go 0, .commission "e1" (some 2)]) [.go 1, .go 1, .go 1, .go 0, .go 0, .go 1, .go 1] 1 0
    (by decide) (by decide +kernel)
  have hbooked := hall ⟨0, [("e1", none)]⟩ (by decide +kernel) "e1" none 2
    ⟨by decide, ⟨"e1", 265598, "BUY", 10, 100, some 2, 0, none, none⟩, by decide +kernel, rfl, rfl⟩
  exact absurd hbooked (by decide +kernel)

end MmrTrader.Scoreboard.LateCommissions
