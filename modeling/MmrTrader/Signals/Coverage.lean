import MmrTrader.Lib.GuardedRun
import MmrTrader.Signals.Intake

/-!
# When a lost signal leaves no trace

* `StatePromise` — each record numbers its signals 1, 2, … and keeps those above its watermark, the newest among them;
  no signal is taken up twice; every signal up to the stored cursor is taken up or in a coverage gap.
* `StepPromise` — what one step promises: a signal the cursor moves past is taken up or in a gap written with the move,
  and a cursor that goes back writes a gap.
* `GapIdsFresh` — the gap that a transaction is about to write has an id no earlier gap has.
* `repeated_gap_lost` — a run that loses a signal without a trace; `signals_covered` — runs whose gap ids are fresh
  keep the promise.
-/

namespace MmrTrader.Signals

open Lib

/-- The signal is in `ai_opportunities`. -/
def TakenUp (db : IntakeDb) (row : RecordedSignal) : Prop :=
  ∃ o ∈ db.opportunities.rows, o.opportunityId = row.entry.sourceEventId

def CoverageGap.Covers (gap : CoverageGap) (row : RecordedSignal) : Prop :=
  gap.afterCursor < row.cursor ∧ row.cursor < gap.resumedCursor

structure StatePromise (w : World) : Prop where
  numbered : ∀ g, Numbered RecordedSignal.cursor (w.history g)
  retained : w.record.rows = above RecordedSignal.cursor w.record.retentionWatermark (w.history w.record.recordGeneration)
  newest : ∀ row, (w.history w.record.recordGeneration).getLast? = some row → row ∈ w.record.rows
  once : (w.intake.opportunities.rows.map (·.opportunityId)).Nodup
  covered : ∀ g, w.intake.cursorGeneration = some g → ∀ row ∈ w.history g, row.cursor ≤ w.intake.cursorValue →
    TakenUp w.intake row ∨ ∃ gap ∈ w.intake.gaps.rows, gap.Covers row

structure StepPromise (w w' : World) : Prop where
  watermark : w'.record.recordGeneration = w.record.recordGeneration →
    w.record.retentionWatermark ≤ w'.record.retentionWatermark
  moved : ∀ g, w'.intake.cursorGeneration = some g → w.intake.cursorGeneration = some g ∨ w.intake.cursorGeneration = none →
    ∀ row ∈ w'.history g, w.intake.cursorValue < row.cursor → row.cursor ≤ w'.intake.cursorValue →
      TakenUp w'.intake row ∨ ∃ gap ∈ w'.intake.gaps.rows, gap ∉ w.intake.gaps.rows ∧ gap.Covers row
  back : 0 < w.intake.cursorValue → w'.intake.cursorValue = 0 →
    ∃ gap ∈ w'.intake.gaps.rows, gap ∉ w.intake.gaps.rows ∧ gap.afterCursor = w.intake.cursorValue
  replaced : ∀ g, w.intake.cursorGeneration = some g → w'.intake.cursorGeneration ≠ some g →
    ∃ gap ∈ w'.intake.gaps.rows, gap ∉ w.intake.gaps.rows ∧ gap.afterCursor = w.intake.cursorValue

/-- The gap that the next commit writes, if it writes one. -/
def World.gapIdOf (C : Config) (w : World) (now : Int) : Option String :=
  match w.phase with
  | .ahead cursor => some (aheadGapId C.strftime cursor now)
  | .answered cursor known page =>
    if known ≠ none ∧ known ≠ some page.recordGeneration then some (generationGapId cursor page.recordGeneration)
    else if page.gap then some (retentionGapId cursor page.oldestRetainedCursor)
    else none
  | _ => none

def GapIdsFresh (C : Config) (w : World) : Act → Prop
  | .commit now => ∀ id, w.gapIdOf C now = some id → w.intake.gaps.get? id = none
  | _ => True

/-! ## The record -/

structure Keeps (record : SignalRecord) (history : List RecordedSignal) : Prop where
  numbered : Numbered RecordedSignal.cursor history
  retained : record.rows = above RecordedSignal.cursor record.retentionWatermark history
  last : record.lastCursor = history.length
  watermark : record.retentionWatermark < record.lastCursor ∨ record.lastCursor = 0 ∧ record.retentionWatermark = 0

variable {record : SignalRecord} {history : List RecordedSignal} {retention now : Int} {rows : List RecordedSignal}

theorem Keeps.create (generation : String) : Keeps (.create generation) [] := ⟨Numbered.nil, rfl, rfl, Or.inr ⟨rfl, rfl⟩⟩

theorem Keeps.newest (h : Keeps record history) {row : RecordedSignal} (hrow : history.getLast? = some row) :
    row ∈ record.rows := by
  have hmem := List.mem_of_getLast? hrow
  obtain ⟨front, rfl⟩ : ∃ front, history = front ++ [row] := List.getLast?_eq_some_iff.mp hrow
  have hcursor : row.cursor = (front ++ [row]).length := by
    have hmap := h.numbered
    unfold Numbered at hmap
    rw [List.map_append, List.length_append, List.length_singleton, List.range'_concat, List.map_singleton] at hmap
    have hlast := (List.append_inj' hmap rfl).2
    rw [List.length_append, List.length_singleton]
    have heq := List.singleton_inj.mp hlast
    omega
  rw [h.retained]
  refine mem_above.mpr ⟨hmem, ?_⟩
  have hlast := h.last
  have hpos : 0 < (front ++ [row]).length := List.length_pos_of_mem hmem
  rcases h.watermark with hlt | ⟨hzero, -⟩
  · omega
  · omega

theorem newestExpired_spec {newest : Nat} (h : newestExpired retention rows now = some newest) :
    ∃ r ∈ rows, r.cursor = newest ∧ r.recordedAt < now - retention := by
  obtain ⟨r, hr, hcursor⟩ := List.mem_map.mp (List.max?_mem h)
  rw [List.mem_filter, decide_eq_true_iff] at hr
  exact ⟨r, hr.1, hcursor, hr.2⟩

theorem above_above {m n : Nat} (h : m ≤ n) :
    above RecordedSignal.cursor n (above RecordedSignal.cursor m rows) = above RecordedSignal.cursor n rows := by
  unfold above
  rw [List.filter_filter]
  refine List.filter_congr fun r _ => ?_
  by_cases hn : n < r.cursor
  · simp [hn, Nat.lt_of_le_of_lt h hn]
  · simp [hn]

/-- The retention deletes a prefix, never the row just written. -/
theorem pruneInTx_spec {watermark : Nat} (entry : SignalEntry) (now : Int) (hret : 0 ≤ retention)
    (hrows : rows = above RecordedSignal.cursor watermark history ++ [⟨history.length + 1, entry, now⟩])
    (hw : watermark ≤ history.length) (hn : Numbered RecordedSignal.cursor history) :
    let out := pruneInTx retention rows watermark now
    out.1 = above RecordedSignal.cursor out.2 (history ++ [⟨history.length + 1, entry, now⟩]) ∧
      watermark ≤ out.2 ∧ out.2 ≤ history.length := by
  intro out
  have hall : rows = above RecordedSignal.cursor watermark (history ++ [⟨history.length + 1, entry, now⟩]) := by
    rw [hrows]
    simp [above, Nat.lt_succ_of_le hw]
  unfold out pruneInTx
  cases hnew : newestExpired retention rows now with
  | none => exact ⟨hall, le_refl _, hw⟩
  | some newest =>
    dsimp only
    split
    · exact ⟨hall, le_refl _, hw⟩
    · rename_i hlt
      have hle : watermark ≤ newest := Nat.le_of_not_le hlt
      refine ⟨?_, hle, ?_⟩
      · rw [hall, above_above hle]
      · obtain ⟨r, hr, hcursor, hexpired⟩ := newestExpired_spec hnew
        rw [hrows] at hr
        rcases List.mem_append.mp hr with hr | hr
        · exact hcursor ▸ (hn.bounds (mem_above.mp hr).1).2
        · obtain rfl := List.mem_singleton.mp hr
          exact absurd hexpired (by simp only [not_lt]; omega)

theorem Keeps.append (h : Keeps record history) (hret : 0 ≤ retention) (entry : SignalEntry) (now : Int) :
    record.appendInTx retention entry now = record ∨
      (record.appendInTx retention entry now).lastCursor = record.lastCursor + 1 ∧
      (record.appendInTx retention entry now).recordGeneration = record.recordGeneration ∧
      record.retentionWatermark ≤ (record.appendInTx retention entry now).retentionWatermark ∧
      Keeps (record.appendInTx retention entry now) (history ++ [⟨record.lastCursor + 1, entry, now⟩]) := by
  unfold SignalRecord.appendInTx
  split
  · exact Or.inl rfl
  · refine Or.inr ⟨rfl, rfl, ?_⟩
    have hw : record.retentionWatermark ≤ history.length := by
      have hlast := h.last
      rcases h.watermark with hlt | ⟨hzero, hw⟩ <;> omega
    have hspec := pruneInTx_spec entry now hret
      (congrArg (· ++ [⟨record.lastCursor + 1, entry, now⟩]) h.retained |>.trans (by rw [h.last])) hw h.numbered
    obtain ⟨hrows, hmono, hbound⟩ := hspec
    rw [← h.last] at hrows
    refine ⟨hmono, ?_, hrows, ?_, Or.inl ?_⟩
    · refine h.numbered.append ?_
      rw [h.numbered.nextRevision_eq, h.last]
    · rw [List.length_append, List.length_singleton, h.last]
    · have hlast := h.last
      exact Nat.lt_succ_of_le (hlast ▸ hbound)

/-! ## A page -/

/-- Every signal between the cursor and the next one is on the page, or the page says it is gone. -/
structure PageOk (history : List RecordedSignal) (after : Nat) (page : SignalPage) : Prop where
  forward : after ≤ page.nextCursor
  bounded : page.nextCursor ≤ history.length
  complete : ∀ row ∈ history, after < row.cursor → row.cursor ≤ page.nextCursor →
    row ∈ page.signals ∨ page.gap = true ∧ row.cursor < page.oldestRetainedCursor

theorem Keeps.watermark_le (h : Keeps record history) : record.retentionWatermark ≤ history.length := by
  have hlast := h.last
  rcases h.watermark with hlt | ⟨hzero, hmark⟩
  · omega
  · omega

theorem Keeps.oldest (h : Keeps record history) :
    record.retentionWatermark < ((record.rows.map (·.cursor)).min?).getD (record.retentionWatermark + 1) := by
  cases hmin : (record.rows.map (·.cursor)).min? with
  | none => exact Nat.lt_succ_self _
  | some oldest =>
    obtain ⟨r, hr, rfl⟩ := List.mem_map.mp (List.min?_mem hmin)
    rw [h.retained] at hr
    exact (mem_above.mp hr).2

variable {after : Nat}

theorem Keeps.readInTx (h : Keeps record history) {limit : Nat} {page : SignalPage} (hlimit : 1 ≤ limit)
    (hread : record.readInTx after limit = .ok page) :
    PageOk history after page ∧ page.recordGeneration = record.recordGeneration := by
  unfold SignalRecord.readInTx at hread
  split at hread
  · cases hread
  rename_i hbehind
  have hafter : after ≤ history.length := h.last ▸ Nat.le_of_not_lt hbehind
  have hordered : Ordered RecordedSignal.cursor record.rows := h.retained ▸ h.numbered.ordered.above _
  cases hread
  refine ⟨?_, rfl⟩
  -- a row above the watermark is still kept; one below it lies before the oldest kept
  have hkept : ∀ row ∈ history, after < row.cursor →
      row ∈ record.rows ∨ after < record.retentionWatermark ∧ row.cursor ≤ record.retentionWatermark := by
    intro row hrow hlt
    by_cases hmark : record.retentionWatermark < row.cursor
    · exact Or.inl (h.retained ▸ mem_above.mpr ⟨hrow, hmark⟩)
    · exact Or.inr ⟨by omega, by omega⟩
  cases hlast : (page RecordedSignal.cursor after limit record.rows).getLast? with
  | none =>
    have hempty := fun r => page_empty (r := r) hlimit (List.getLast?_eq_none_iff.mp hlast)
    refine ⟨Nat.le_max_left _ _, Nat.max_le.mpr ⟨hafter, h.watermark_le⟩, fun row hrow hlt _ => ?_⟩
    rcases hkept row hrow hlt with hmem | ⟨hgap, hle⟩
    · exact absurd (hempty row hmem) (Nat.not_le_of_lt hlt)
    · exact Or.inr ⟨decide_eq_true hgap, Nat.lt_of_le_of_lt hle h.oldest⟩
  | some last =>
    have hpage := List.mem_of_getLast? hlast
    obtain ⟨hmem, hlt⟩ := mem_of_page hpage
    rw [h.retained] at hmem
    refine ⟨Nat.le_of_lt hlt, (h.numbered.bounds (mem_above.mp hmem).1).2, fun row hrow hlt hle => ?_⟩
    rcases hkept row hrow hlt with hmem | ⟨hgap, hle⟩
    · exact Or.inl (mem_page hordered hpage hmem hlt hle)
    · exact Or.inr ⟨decide_eq_true hgap, Nat.lt_of_le_of_lt hle h.oldest⟩

theorem PageOk.grow {page : SignalPage} {history' : List RecordedSignal} (h : PageOk history after page)
    (hn : Numbered RecordedSignal.cursor history') (hpre : history <+: history') : PageOk history' after page :=
  ⟨h.forward, Nat.le_trans h.bounded hpre.length_le, fun row hrow hlt hle =>
    h.complete row (hn.mem_prefix_of hpre hrow (Nat.le_trans hle h.bounded)) hlt hle⟩

/-! ## The transactions of the intake -/

variable {db : IntakeDb} {gap : CoverageGap} {row : RecordedSignal}

theorem insertGap_mono {g : CoverageGap} (h : g ∈ db.gaps.rows) : g ∈ (db.insertGap gap).gaps.rows := by
  unfold IntakeDb.insertGap
  cases hins : db.gaps.insert? gap with
  | none => exact h
  | some gaps => exact (Table.mem_insert? hins).mpr (Or.inl h)

theorem insertGap_fresh (gap : CoverageGap) (h : db.gaps.get? gap.gapId = none) :
    gap ∈ (db.insertGap gap).gaps.rows ∧ gap ∉ db.gaps.rows := by
  obtain ⟨gaps, hins⟩ := Table.insert?_isSome h
  constructor
  · unfold IntakeDb.insertGap
    rw [hins]
    exact (Table.mem_insert? hins).mpr (Or.inr rfl)
  · intro hmem
    exact Table.get?_eq_none.mp h gap hmem rfl

theorem takeUp_mono (now : Int) (s : RecordedSignal) (h : TakenUp db row) : TakenUp (db.takeUp now s) row := by
  obtain ⟨o, ho, hid⟩ := h
  unfold IntakeDb.takeUp
  cases hins : db.opportunities.insert? ⟨s.entry.sourceEventId, s.cursor, s.entry, s.recordedAt, now⟩ with
  | none => exact ⟨o, ho, hid⟩
  | some opportunities => exact ⟨o, (Table.mem_insert? hins).mpr (Or.inl ho), hid⟩

theorem takeUp_self (db : IntakeDb) (now : Int) (s : RecordedSignal) : TakenUp (db.takeUp now s) s := by
  cases hget : db.opportunities.get? s.entry.sourceEventId with
  | some o =>
    obtain ⟨ho, hid⟩ := Table.get?_eq_some.mp hget
    exact takeUp_mono now s ⟨o, ho, hid⟩
  | none =>
    let o : Opportunity := ⟨s.entry.sourceEventId, s.cursor, s.entry, s.recordedAt, now⟩
    obtain ⟨opportunities, hins⟩ := Table.insert?_isSome (r := o) hget
    refine ⟨o, ?_, rfl⟩
    unfold IntakeDb.takeUp
    rw [hins]
    exact (Table.mem_insert? hins).mpr (Or.inr rfl)

theorem takeUp_page (now : Int) (signals : List RecordedSignal) (db : IntakeDb) :
    (signals.foldl (IntakeDb.takeUp now) db).gaps = db.gaps ∧
      (∀ row, TakenUp db row → TakenUp (signals.foldl (IntakeDb.takeUp now) db) row) ∧
      ∀ s ∈ signals, TakenUp (signals.foldl (IntakeDb.takeUp now) db) s := by
  induction signals generalizing db with
  | nil => exact ⟨rfl, fun _ h => h, fun s hs => absurd hs List.not_mem_nil⟩
  | cons s signals ih =>
    obtain ⟨hgaps, hmono, hall⟩ := ih (db.takeUp now s)
    refine ⟨hgaps, fun row h => hmono row (takeUp_mono now s h), fun r hr => ?_⟩
    rcases List.mem_cons.mp hr with rfl | hr
    · exact hmono _ (takeUp_self db now _)
    · exact hall r hr

def Traced (db : IntakeDb) (row : RecordedSignal) : Prop := TakenUp db row ∨ ∃ gap ∈ db.gaps.rows, gap.Covers row

theorem commitPage_spec {cursor : Nat} {page : SignalPage} (now : Int)
    (hfresh : page.gap = true → db.gaps.get? (retentionGapId cursor page.oldestRetainedCursor) = none)
    (hpage : PageOk history cursor page) :
    (∀ row, Traced db row → Traced (db.commitPage cursor page now) row) ∧
      ∀ row ∈ history, cursor < row.cursor → row.cursor ≤ page.nextCursor →
        TakenUp (db.commitPage cursor page now) row ∨
          ∃ gap ∈ (db.commitPage cursor page now).gaps.rows, gap ∉ db.gaps.rows ∧ gap.Covers row := by
  let gap : CoverageGap :=
    ⟨retentionGapId cursor page.oldestRetainedCursor, .RETENTION, cursor, page.oldestRetainedCursor, now⟩
  let db₁ : IntakeDb := if page.gap then db.insertGap gap else db
  have hopp : db₁.opportunities = db.opportunities := by
    unfold db₁
    split
    · rfl
    · rfl
  have hgaps : ∀ g ∈ db.gaps.rows, g ∈ db₁.gaps.rows := by
    intro g hg
    unfold db₁
    split
    · exact insertGap_mono hg
    · exact hg
  obtain ⟨hsame, hmono, hall⟩ := takeUp_page now page.signals db₁
  have htaken : ∀ row, TakenUp (page.signals.foldl (IntakeDb.takeUp now) db₁) row →
      TakenUp (db.commitPage cursor page now) row := fun row h => h
  have hkeep : (db.commitPage cursor page now).gaps = db₁.gaps := hsame
  constructor
  · rintro row (⟨o, ho, hid⟩ | ⟨g, hg, hcovers⟩)
    · exact Or.inl (htaken row (hmono row ⟨o, hopp ▸ ho, hid⟩))
    · exact Or.inr ⟨g, hkeep ▸ hgaps g hg, hcovers⟩
  · intro row hrow hlt hle
    rcases hpage.complete row hrow hlt hle with hmem | ⟨hgap, hold⟩
    · exact Or.inl (htaken row (hall row hmem))
    · obtain ⟨hnew, hnot⟩ := insertGap_fresh gap (hfresh hgap)
      refine Or.inr ⟨gap, ?_, hnot, hlt, hold⟩
      rw [hkeep]
      unfold db₁
      rw [if_pos hgap]
      exact hnew

/-! ## The invariant -/

/-- What the poll holds is what the intake stores. -/
def PhaseOk (w : World) : Prop :=
  match w.phase with
  | .idle => True
  | .started cursor known => cursor = w.intake.cursorValue ∧ known = w.intake.cursorGeneration
  | .ahead cursor => cursor = w.intake.cursorValue
  | .answered cursor known page =>
    cursor = w.intake.cursorValue ∧ known = w.intake.cursorGeneration ∧
      PageOk (w.history page.recordGeneration) cursor page

structure Inv (w : World) : Prop where
  keeps : Keeps w.record (w.history w.record.recordGeneration)
  numbered : ∀ g, Numbered RecordedSignal.cursor (w.history g)
  current : w.record.recordGeneration ∈ w.generations
  unborn : ∀ g, g ∉ w.generations → w.history g = []
  reset : w.intake.cursorGeneration = none → w.intake.cursorValue = 0
  passed : ∀ g, w.intake.cursorGeneration = some g → w.intake.cursorValue ≤ (w.history g).length
  covered : ∀ g, w.intake.cursorGeneration = some g → ∀ row ∈ w.history g, row.cursor ≤ w.intake.cursorValue →
    Traced w.intake row
  phase : PhaseOk w

theorem Inv.start (generation : String) : Inv (World.start generation) where
  keeps := Keeps.create generation
  numbered _ := Numbered.nil
  current := List.mem_singleton.mpr rfl
  unborn _ _ := rfl
  reset _ := rfl
  passed g h := by cases h
  covered g h := by cases h
  phase := trivial

theorem Inv.promise {w : World} (h : Inv w) : StatePromise w where
  numbered := h.numbered
  retained := h.keeps.retained
  newest _ hrow := h.keeps.newest hrow
  once := w.intake.opportunities.nodup
  covered := h.covered

variable {C : Config} {w : World}

/-- Rows are only added to the histories. -/
def Grows (w w' : World) : Prop := ∀ g, w.history g <+: w'.history g

variable {w' : World}

theorem PhaseOk.grow (h : PhaseOk w) (hintake : w'.intake = w.intake) (hphase : w'.phase = w.phase)
    (hgrows : Grows w w') (hn : ∀ g, Numbered RecordedSignal.cursor (w'.history g)) : PhaseOk w' := by
  unfold PhaseOk at h ⊢
  rw [hphase, hintake]
  cases hw : w.phase with
  | idle => trivial
  | started cursor known => rwa [hw] at h
  | ahead cursor => rwa [hw] at h
  | answered cursor known page =>
    rw [hw] at h
    exact ⟨h.1, h.2.1, h.2.2.grow (hn _) (hgrows _)⟩

theorem StepPromise.of_intake (hintake : w'.intake = w.intake)
    (hmark : w'.record.recordGeneration = w.record.recordGeneration →
      w.record.retentionWatermark ≤ w'.record.retentionWatermark) : StepPromise w w' where
  watermark := hmark
  moved g _ _ row _ hlt hle := by
    rw [hintake] at hle
    exact absurd hle (Nat.not_le_of_lt hlt)
  back hpos hzero := by
    rw [hintake] at hzero
    exact absurd hzero (Nat.ne_of_gt hpos)
  replaced g h hne := by
    rw [hintake] at hne
    exact absurd h hne

/-! ## The steps of the record -/

theorem step_append (h : Inv w) (entry : SignalEntry) (now : Int) :
    World.step C w (.append entry now) = w ∨
      ∃ record', World.step C w (.append entry now) =
          { w with
            record := record'
            history := Function.update w.history w.record.recordGeneration
              (w.history w.record.recordGeneration ++ [⟨w.record.lastCursor + 1, entry, now⟩]) } ∧
        record'.recordGeneration = w.record.recordGeneration ∧
        w.record.retentionWatermark ≤ record'.retentionWatermark ∧
        Keeps record' (w.history w.record.recordGeneration ++ [⟨w.record.lastCursor + 1, entry, now⟩]) := by
  unfold World.step World.recorded
  rcases h.keeps.append C.retention_pos entry now with hsame | ⟨hlast, hgen, hmark, hkeeps⟩
  · left
    dsimp only
    rw [hsame, if_pos rfl]
  · right
    refine ⟨_, ?_, hgen, hmark, hkeeps⟩
    dsimp only
    rw [hlast, if_neg (Nat.succ_ne_self _)]

theorem Inv.append (h : Inv w) (entry : SignalEntry) (now : Int) :
    Inv (World.step C w (.append entry now)) ∧ StepPromise w (World.step C w (.append entry now)) := by
  rcases step_append (C := C) h entry now with hsame | ⟨record', hstep, hgen, hmark, hkeeps⟩
  · rw [hsame]
    exact ⟨h, .of_intake rfl fun _ => le_refl _⟩
  rw [hstep]
  refine ⟨?_, .of_intake rfl fun _ => hmark⟩
  let row : RecordedSignal := ⟨w.record.lastCursor + 1, entry, now⟩
  let history' := Function.update w.history w.record.recordGeneration (w.history w.record.recordGeneration ++ [row])
  have hsame : history' w.record.recordGeneration = w.history w.record.recordGeneration ++ [row] :=
    Function.update_self _ _ _
  have hother : ∀ g, g ≠ w.record.recordGeneration → history' g = w.history g := fun g hne =>
    Function.update_of_ne hne _ _
  have hnumbered : ∀ g, Numbered RecordedSignal.cursor (history' g) := by
    intro g
    by_cases hg : g = w.record.recordGeneration
    · rw [hg, hsame]
      exact hkeeps.numbered
    · exact hother g hg ▸ h.numbered g
  have hgrows : ∀ g, w.history g <+: history' g := by
    intro g
    by_cases hg : g = w.record.recordGeneration
    · rw [hg, hsame]
      exact List.prefix_append _ _
    · exact hother g hg ▸ List.prefix_rfl
  exact
    { keeps := by
        change Keeps record' (history' record'.recordGeneration)
        rw [hgen, hsame]
        exact hkeeps
      numbered := hnumbered
      current := by
        rw [hgen]
        exact h.current
      unborn := fun g hg => (hother g fun heq => hg (heq ▸ h.current)).trans (h.unborn g hg)
      reset := h.reset
      passed := fun g hg => Nat.le_trans (h.passed g hg) (hgrows g).length_le
      covered := fun g hg r hr hle =>
        h.covered g hg r ((hnumbered g).mem_prefix_of (hgrows g) hr (Nat.le_trans hle (h.passed g hg))) hle
      phase := h.phase.grow rfl rfl hgrows hnumbered }

theorem Inv.replace (h : Inv w) (generation : String) :
    Inv (World.step C w (.replace generation)) ∧ StepPromise w (World.step C w (.replace generation)) := by
  unfold World.step
  dsimp only
  split
  · exact ⟨h, .of_intake rfl fun _ => le_refl _⟩
  rename_i hnew
  constructor
  · exact
      { keeps := by
          rw [show (SignalRecord.create generation).recordGeneration = generation from rfl]
          dsimp only
          rw [h.unborn generation hnew]
          exact Keeps.create generation
        numbered := h.numbered
        current := List.mem_cons_self
        unborn := fun g hg => h.unborn g fun hmem => hg (List.mem_cons_of_mem _ hmem)
        reset := h.reset
        passed := h.passed
        covered := h.covered
        phase := h.phase }
  · refine .of_intake rfl fun heq => absurd h.current ?_
    rw [← heq]
    exact hnew

/-! ## The steps of the poll -/

theorem Inv.wait (h : Inv w) {phase : Phase} (hphase : PhaseOk { w with phase := phase }) :
    Inv { w with phase := phase } ∧ StepPromise w { w with phase := phase } :=
  ⟨⟨h.keeps, h.numbered, h.current, h.unborn, h.reset, h.passed, h.covered, hphase⟩,
    .of_intake rfl fun _ => le_refl _⟩

theorem Inv.call (h : Inv w) : Inv (World.step C w .call) ∧ StepPromise w (World.step C w .call) := by
  unfold World.step
  dsimp only
  split
  · rename_i cursor known hphase
    have hheld : cursor = w.intake.cursorValue ∧ known = w.intake.cursorGeneration := by
      have hok := h.phase
      unfold PhaseOk at hok
      rwa [hphase] at hok
    refine h.wait ?_
    unfold World.answer
    split
    · exact hheld.1
    · trivial
    · rename_i page hread
      split
      · unfold SignalRecord.read at hread
        split at hread
        · rename_i hlimit
          obtain ⟨hpage, hgen⟩ := h.keeps.readInTx hlimit.1 hread
          refine ⟨hheld.1, hheld.2, ?_⟩
          rw [hgen]
          exact hpage
        · cases hread
      · trivial
  · exact ⟨h, .of_intake rfl fun _ => le_refl _⟩

theorem Inv.goBack (h : Inv w) {gap : CoverageGap} {generation : Option String} {now : Int}
    (hfresh : w.intake.gaps.get? gap.gapId = none) (hafter : gap.afterCursor = w.intake.cursorValue) :
    let w' : World := { w with intake := (w.intake.insertGap gap).setCursor 0 now generation, phase := .idle }
    Inv w' ∧ StepPromise w w' := by
  intro w'
  obtain ⟨hmem, hnot⟩ := insertGap_fresh gap hfresh
  have hgap : ∃ g ∈ w'.intake.gaps.rows, g ∉ w.intake.gaps.rows ∧ g.afterCursor = w.intake.cursorValue :=
    ⟨gap, hmem, hnot, hafter⟩
  constructor
  · exact
      { keeps := h.keeps
        numbered := h.numbered
        current := h.current
        unborn := h.unborn
        reset := fun _ => rfl
        passed := fun _ _ => Nat.zero_le _
        covered := fun g _ r hr hle =>
          absurd (Nat.le_trans ((h.numbered g).bounds hr).1 hle) (Nat.not_succ_le_zero 0)
        phase := trivial }
  · exact
      { watermark := fun _ => le_refl _
        moved := fun g _ _ r _ hlt hle => absurd hlt (Nat.not_lt_of_le (Nat.le_trans hle (Nat.zero_le _)))
        back := fun _ _ => hgap
        replaced := fun _ _ _ => hgap }

theorem Inv.page (h : Inv w) {known : Option String} {page : SignalPage} {now : Int}
    (hphase : w.phase = .answered w.intake.cursorValue known page)
    (hfresh : page.gap = true →
      w.intake.gaps.get? (retentionGapId w.intake.cursorValue page.oldestRetainedCursor) = none)
    (hknown : ¬ (known ≠ none ∧ known ≠ some page.recordGeneration)) :
    let w' : World := { w with intake := w.intake.commitPage w.intake.cursorValue page now, phase := .idle }
    Inv w' ∧ StepPromise w w' := by
  intro w'
  have hheld : known = w.intake.cursorGeneration ∧ PageOk (w.history page.recordGeneration) w.intake.cursorValue page := by
    have hok := h.phase
    unfold PhaseOk at hok
    rw [hphase] at hok
    exact hok.2
  obtain ⟨rfl, hpage⟩ := hheld
  obtain ⟨hkept, hmoved⟩ := commitPage_spec now hfresh hpage
  have hgen : w.intake.cursorGeneration = none ∨ w.intake.cursorGeneration = some page.recordGeneration := by
    by_contra hneither
    exact hknown (not_or.mp hneither)
  constructor
  · refine
      { keeps := h.keeps
        numbered := h.numbered
        current := h.current
        unborn := h.unborn
        reset := fun hnone => by cases hnone
        passed := ?_
        covered := ?_
        phase := trivial }
    · rintro g ⟨⟩
      exact hpage.bounded
    · rintro g ⟨⟩ row hrow hle
      by_cases hlt : w.intake.cursorValue < row.cursor
      · rcases hmoved row hrow hlt hle with htaken | ⟨gap, hgap, -, hcovers⟩
        · exact Or.inl htaken
        · exact Or.inr ⟨gap, hgap, hcovers⟩
      · refine hkept row ?_
        rcases hgen with hnone | hsome
        · have hpos := ((h.numbered _).bounds hrow).1
          have hzero := h.reset hnone
          omega
        · exact h.covered _ hsome row hrow (Nat.le_of_not_lt hlt)
  · refine
      { watermark := fun _ => le_refl _
        moved := ?_
        back := ?_
        replaced := ?_ }
    · rintro g ⟨⟩ - row hrow hlt hle
      exact hmoved row hrow hlt hle
    · intro hpos hzero
      have hforward := hpage.forward
      have hnext : page.nextCursor = 0 := hzero
      omega
    · intro g hg hne
      rcases hgen with hnone | hsome
      · rw [hg] at hnone
        cases hnone
      · rw [hg] at hsome
        cases hsome
        exact absurd rfl hne

theorem Inv.commit (h : Inv w) {now : Int} (hfresh : GapIdsFresh C w (.commit now)) :
    Inv (World.step C w (.commit now)) ∧ StepPromise w (World.step C w (.commit now)) := by
  have hok := h.phase
  unfold PhaseOk at hok
  unfold GapIdsFresh World.gapIdOf at hfresh
  unfold World.step
  dsimp only
  cases hphase : w.phase with
  | idle => exact ⟨h, .of_intake rfl fun _ => le_refl _⟩
  | started cursor known => exact ⟨h, .of_intake rfl fun _ => le_refl _⟩
  | ahead cursor =>
    rw [hphase] at hok hfresh
    cases hok
    exact h.goBack (hfresh _ rfl) rfl
  | answered cursor known page =>
    rw [hphase] at hok hfresh
    obtain ⟨rfl, -, -⟩ := hok
    dsimp only at hfresh ⊢
    split
    · rename_i hknown
      rw [if_pos hknown] at hfresh
      exact h.goBack (hfresh _ rfl) rfl
    · rename_i hknown
      rw [if_neg hknown] at hfresh
      refine h.page hphase (fun hgap => ?_) hknown
      rw [if_pos hgap] at hfresh
      exact hfresh _ rfl

theorem Inv.step (h : Inv w) {a : Act} (hfresh : GapIdsFresh C w a) :
    Inv (World.step C w a) ∧ StepPromise w (World.step C w a) := by
  cases a with
  | append entry now => exact h.append entry now
  | replace generation => exact h.replace generation
  | start =>
    unfold World.step
    dsimp only
    split
    · exact h.wait ⟨rfl, rfl⟩
    · exact ⟨h, .of_intake rfl fun _ => le_refl _⟩
  | call => exact h.call
  | commit now => exact h.commit hfresh
  | abort => exact h.wait trivial

/-- **Every recorded signal is taken up once or its loss is written down**, in every run whose gap ids are fresh. -/
theorem signals_covered (C : Config) (generation : String) (acts : List Act)
    (h : Meets (World.step C) (GapIdsFresh C) (World.start generation) acts) :
    (∀ pre, pre <+: acts → StatePromise (pre.foldl (World.step C) (World.start generation))) ∧
      ∀ pre a, pre ++ [a] <+: acts →
        StepPromise (pre.foldl (World.step C) (World.start generation))
          ((pre ++ [a]).foldl (World.step C) (World.start generation)) := by
  have hinv : ∀ pre, pre <+: acts → Inv (pre.foldl (World.step C) (World.start generation)) := fun pre hpre =>
    (h.of_prefix hpre).invariant (fun _ _ hw hc => (hw.step hc).1) (.start generation)
  refine ⟨fun pre hpre => (hinv pre hpre).promise, fun pre a hpre => ?_⟩
  have hmeets := Meets.append.mp (h.of_prefix hpre)
  rw [List.foldl_append]
  exact ((hinv pre ((List.prefix_append _ _).trans hpre)).step hmeets.2.1).2

/-! ## Two runs -/

instance (C : Config) (w : World) (a : Act) : Decidable (GapIdsFresh C w a) :=
  match a with
  | .commit now => inferInstanceAs (Decidable (∀ id ∈ w.gapIdOf C now, w.intake.gaps.get? id = none))
  | .append _ _ => .isTrue trivial
  | .replace _ => .isTrue trivial
  | .start => .isTrue trivial
  | .call => .isTrue trivial
  | .abort => .isTrue trivial

instance (db : IntakeDb) (row : RecordedSignal) : Decidable (TakenUp db row) :=
  inferInstanceAs (Decidable (∃ o ∈ db.opportunities.rows, o.opportunityId = row.entry.sourceEventId))

def sampleConfig : Config where
  retention := 86400000000
  retention_pos := Int.natCast_nonneg 86400000000
  pageLimit := 100
  strftime _ := "20260105T143000"

def sampleSignal (sourceEventId : String) : SignalEntry :=
  ⟨sourceEventId, "orb", 756733, "BUY", none, 0, none, none, none, some "1 min"⟩

def day (n : Int) : Int := 86400000000 * n

def firstRecord : String := "gen-00000000000000000000000000000001"

/-- The first of two signals outlives the retention; the poll writes the gap it leaves. -/
def prunedRun : List Act :=
  [.append (sampleSignal "sig-00000000000000000000000000000001") (day 0),
    .append (sampleSignal "sig-00000000000000000000000000000002") (day 2), .start, .call, .commit (day 2)]

theorem signals_covered_pruned :
    Meets (World.step sampleConfig) (GapIdsFresh sampleConfig) (World.start firstRecord) prunedRun ∧
      StatePromise (prunedRun.foldl (World.step sampleConfig) (World.start firstRecord)) := by
  have hfresh : Meets (World.step sampleConfig) (GapIdsFresh sampleConfig) (World.start firstRecord) prunedRun := by
    decide +kernel
  exact ⟨hfresh, (signals_covered sampleConfig firstRecord prunedRun hfresh).1 prunedRun List.prefix_rfl⟩

/-- Another record takes the place of the first, and its first signal too outlives the retention. -/
def repeatedRun : List Act :=
  prunedRun ++
    [.replace "gen-00000000000000000000000000000002", .start, .call, .commit (day 2),
      .append (sampleSignal "sig-00000000000000000000000000000003") (day 3),
      .append (sampleSignal "sig-00000000000000000000000000000004") (day 5), .start, .call]

/-- **A signal is lost without a trace**: the second record's gap has the id of the first one's, so it is not written. -/
theorem repeated_gap_lost :
    ¬ StepPromise (repeatedRun.foldl (World.step sampleConfig) (World.start firstRecord))
      ((repeatedRun ++ [Act.commit (day 5)]).foldl (World.step sampleConfig) (World.start firstRecord)) := by
  intro h
  let lost : RecordedSignal := ⟨1, sampleSignal "sig-00000000000000000000000000000003", day 3⟩
  have hmoved := h.moved "gen-00000000000000000000000000000002" (by decide +kernel) (by decide +kernel) lost
    (by decide +kernel) (by decide +kernel) (by decide +kernel)
  rcases hmoved with htaken | ⟨gap, hgap, hnot, -⟩
  · revert htaken
    decide +kernel
  · revert gap
    decide +kernel

end MmrTrader.Signals
