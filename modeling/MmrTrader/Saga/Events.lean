import MmrTrader.Lib.GuardedRun
import MmrTrader.Saga.Model
import Mathlib.Tactic.Linarith

/-!
# No unprotected fill is left silent

A sent saga that no close ever owned is driven by broker events alone.  `Watched` pairs its row
with a ghost: whether an event that ends the entry order (`Filled`, a cancel or a reject) has been
applied.

* `entry_fill_bounds`, `applyEntryLeg_frame` — what an entry event does to a row;
* `chooseState_safety` — when the fields force `SAFETY_FAILED`.
-/

namespace MmrTrader.Saga

open MmrTrader.Lib

def endsEntry (e : BrokerOrderEvent) : Bool :=
  e.leg == .entry && (e.status.isFilled || e.status.isCancelled || e.status.isRejected)

/-- The row, and whether an event that ends the entry has been applied. -/
structure Watched where
  row : SagaState
  entryEnded : Bool

/-- `on_broker_event` for an event of the entry bracket (group generation 0). -/
def watch (w : Watched) (e : BrokerOrderEvent) : Watched :=
  match applyBrokerEvent w.row 0 e with
  | none => w
  | some row => ⟨row, w.entryEnded || endsEntry e⟩

/-- The row of an entry after its send: nothing recorded yet, and no close owned it.  A send may
    have been refused, may be ambiguous, or may have been retired as an orphan. -/
structure SentUnowned (s : SagaState) : Prop where
  state : s.state = .SUBMITTING ∨ s.state = .OUTCOME_UNKNOWN ∨ s.state = .CLOSED ∨ s.state = .NOT_SENT
  requested : 0 < s.requestedQuantity
  unfilled : s.filledQuantity = 0
  stopFilled : s.stopFilled = false
  targetFilled : s.targetFilled = false
  unseen : s.seenEventIds = []
  notHandedOver : s.handoverGeneration = none
  generation : s.protectionGeneration = 0

/-- A fill that nothing protects and nothing can still complete is an incident. -/
def NotSilent (w : Watched) : Prop :=
  0 < w.row.filledQuantity → w.row.stopFilled = false → w.row.targetFilled = false →
    w.row.stopWorking = false → w.entryEnded = true →
    w.row.state = .SAFETY_FAILED ∧ w.row.flattenRequested = true

/-- The events that leave an unprotected fill silent: the entry of a live saga ends with shares
    bought and no working stop, by a reject, or by a cancel after a part only, while no stop was
    refused. -/
def LeavesSilent (w : Watched) (e : BrokerOrderEvent) : Prop :=
  w.row.state.isTerminal = false ∧ e.eventId ∉ w.row.seenEventIds ∧ e.leg = .entry ∧
  0 < max w.row.filledQuantity e.filledQuantity ∧
  w.row.stopFilled = false ∧ w.row.targetFilled = false ∧ w.row.stopWorking = false ∧
  (e.status.isRejected = true ∨
    e.status.isCancelled = true ∧ w.row.stopRejected = false ∧
      max w.row.filledQuantity e.filledQuantity < w.row.requestedQuantity)

instance (w : Watched) (e : BrokerOrderEvent) : Decidable (LeavesSilent w e) :=
  inferInstanceAs (Decidable (_ ∧ _))

/-! ## What an entry event does to the fields -/

/-- An entry event leaves the exit legs, the ownership and the request alone. -/
structure EntryFrame (s t : SagaState) : Prop where
  stopWorking : t.stopWorking = s.stopWorking
  stopFilled : t.stopFilled = s.stopFilled
  targetFilled : t.targetFilled = s.targetFilled
  stopRejected : t.stopRejected = s.stopRejected
  requested : t.requestedQuantity = s.requestedQuantity
  handover : t.handoverGeneration = s.handoverGeneration
  generation : t.protectionGeneration = s.protectionGeneration
  state : t.state = s.state
  flatten : t.flattenRequested = s.flattenRequested
  seen : t.seenEventIds = s.seenEventIds

variable {t : SagaState}

theorem EntryFrame.trans {s u : SagaState} (h : EntryFrame s t) (h' : EntryFrame t u) : EntryFrame s u :=
  ⟨h'.1.trans h.1, h'.2.trans h.2, h'.3.trans h.3, h'.4.trans h.4, h'.5.trans h.5, h'.6.trans h.6,
    h'.7.trans h.7, h'.8.trans h.8, h'.9.trans h.9, h'.10.trans h.10⟩

theorem entryFlags_frame (s : SagaState) (status : OrderStatus) : EntryFrame s (entryFlags s status) := by
  unfold entryFlags
  split <;> split <;> exact ⟨rfl, rfl, rfl, rfl, rfl, rfl, rfl, rfl, rfl, rfl⟩

theorem entryFill_frame (s : SagaState) (status : OrderStatus) (filled : ℚ) :
    EntryFrame s (entryFill s status filled) := by
  unfold entryFill
  split <;> split <;> exact ⟨rfl, rfl, rfl, rfl, rfl, rfl, rfl, rfl, rfl, rfl⟩

theorem applyEntryLeg_frame (s : SagaState) (e : BrokerOrderEvent) : EntryFrame s (applyEntryLeg s e) := by
  have h := (entryFlags_frame s e.status).trans (entryFill_frame _ e.status e.filledQuantity)
  unfold applyEntryLeg
  dsimp only
  split
  · exact ⟨h.1, h.2, h.3, h.4, h.5, h.6, h.7, h.8, h.9, h.10⟩
  · exact h

theorem entryFlags_filled (s : SagaState) (status : OrderStatus) :
    (entryFlags s status).filledQuantity = s.filledQuantity := by
  unfold entryFlags
  split <;> split <;> rfl

theorem applyEntryLeg_filled (s : SagaState) (e : BrokerOrderEvent) :
    (applyEntryLeg s e).filledQuantity =
      if e.status.isFilled then max (max s.filledQuantity e.filledQuantity) s.requestedQuantity
      else max s.filledQuantity e.filledQuantity := by
  have hfill : ∀ t : SagaState, (entryFill t e.status e.filledQuantity).filledQuantity =
      if e.status.isFilled then max (max t.filledQuantity e.filledQuantity) t.requestedQuantity
      else max t.filledQuantity e.filledQuantity := by
    intro t
    unfold entryFill
    rcases le_or_gt e.filledQuantity t.filledQuantity with hle | hlt
    · rw [if_neg (not_lt.mpr hle), max_eq_left hle]
      split <;> simp [max_eq_right hle]
    · rw [if_pos hlt, max_eq_right hlt.le]
      split <;> simp
  have hfr := entryFlags_frame s e.status
  unfold applyEntryLeg
  dsimp only
  rw [apply_ite SagaState.filledQuantity, ite_self, hfill, entryFlags_filled, hfr.requested]

theorem applyEntryLeg_filled_le (s : SagaState) (e : BrokerOrderEvent) :
    max s.filledQuantity e.filledQuantity ≤ (applyEntryLeg s e).filledQuantity := by
  rw [applyEntryLeg_filled]
  split
  · exact le_max_left _ _
  · exact le_refl _

theorem applyEntryLeg_cancelled (s : SagaState) (e : BrokerOrderEvent)
    (h : (e.status.isCancelled || e.status.isRejected) = true) : (applyEntryLeg s e).entryCancelled = true := by
  have hfill : ∀ t : SagaState, (entryFill t e.status e.filledQuantity).entryCancelled = t.entryCancelled := by
    intro t
    unfold entryFill
    split <;> split <;> rfl
  have hflags : (entryFlags s e.status).entryCancelled = true := by
    unfold entryFlags
    rw [if_pos h]
  unfold applyEntryLeg
  dsimp only
  rw [apply_ite SagaState.entryCancelled, ite_self, hfill, hflags]

/-! ## The exit legs -/

/-- An exit event leaves the entry, the ownership and the state alone and forgets no exit fill. -/
structure ExitFrame (s t : SagaState) : Prop where
  filled : t.filledQuantity = s.filledQuantity
  stopFilled : s.stopFilled = true → t.stopFilled = true
  targetFilled : s.targetFilled = true → t.targetFilled = true
  requested : t.requestedQuantity = s.requestedQuantity
  handover : t.handoverGeneration = s.handoverGeneration
  generation : t.protectionGeneration = s.protectionGeneration
  state : t.state = s.state
  flatten : t.flattenRequested = s.flattenRequested

/-- A stop that stops working was refused or filled, unless the target had filled. -/
def StopAccounted (s t : SagaState) : Prop :=
  t.stopWorking = false → t.stopFilled = false → t.targetFilled = false →
    s.stopWorking = false ∨ t.stopRejected = true

theorem applyStopLeg_spec (s : SagaState) (status : OrderStatus) :
    ExitFrame s (applyStopLeg s status) ∧ StopAccounted s (applyStopLeg s status) := by
  obtain hs | hs := Bool.eq_false_or_eq_true s.targetFilled <;> cases status <;>
    refine ⟨⟨?_, ?_, ?_, ?_, ?_, ?_, ?_, ?_⟩, ?_⟩ <;>
    simp +contextual [applyStopLeg, StopAccounted, OrderStatus.isWorking, OrderStatus.isRejected,
      OrderStatus.isCancelled, OrderStatus.isFilled, hs]

theorem applyTargetLeg_spec (s : SagaState) (status : OrderStatus) :
    ExitFrame s (applyTargetLeg s status) ∧ (applyTargetLeg s status).stopWorking = s.stopWorking := by
  cases status <;> refine ⟨⟨?_, ?_, ?_, ?_, ?_, ?_, ?_, ?_⟩, ?_⟩ <;>
    simp [applyTargetLeg, OrderStatus.isWorking, OrderStatus.isRejected,
      OrderStatus.isCancelled, OrderStatus.isFilled]

/-! ## The next state -/

/-- Choosing the state changes no recorded fact. -/
structure ChoiceFrame (s t : SagaState) : Prop where
  filled : t.filledQuantity = s.filledQuantity
  stopWorking : t.stopWorking = s.stopWorking
  stopFilled : t.stopFilled = s.stopFilled
  targetFilled : t.targetFilled = s.targetFilled
  requested : t.requestedQuantity = s.requestedQuantity
  handover : t.handoverGeneration = s.handoverGeneration
  generation : t.protectionGeneration = s.protectionGeneration
  flatten : t.flattenRequested = s.flattenRequested
  owned : t.state = .CLOSE_OWNED → s.state = .CLOSE_OWNED

theorem chooseState_frame (s : SagaState) (e : BrokerOrderEvent) : ChoiceFrame s (chooseState s e) := by
  unfold chooseState
  dsimp only
  split
  · exact ⟨rfl, rfl, rfl, rfl, rfl, rfl, rfl, rfl, by simp⟩
  split
  · split <;> exact ⟨rfl, rfl, rfl, rfl, rfl, rfl, rfl, rfl, by simp⟩
  split
  · exact ⟨rfl, rfl, rfl, rfl, rfl, rfl, rfl, rfl, by simp⟩
  split
  · exact ⟨rfl, rfl, rfl, rfl, rfl, rfl, rfl, rfl, by simp⟩
  split
  · exact ⟨rfl, rfl, rfl, rfl, rfl, rfl, rfl, rfl, by simp⟩
  split
  · exact ⟨rfl, rfl, rfl, rfl, rfl, rfl, rfl, rfl, by simp⟩
  · exact ⟨rfl, rfl, rfl, rfl, rfl, rfl, rfl, rfl, id⟩

theorem chooseState_closed {s : SagaState} {e : BrokerOrderEvent} (hc : s.entryCancelled = true)
    (hf : s.filledQuantity ≤ 0) : (chooseState s e).state = .CLOSED := by
  simp [chooseState, hc, hf]

section
variable {s : SagaState} {e : BrokerOrderEvent} (hpos : 0 < s.filledQuantity)
  (hstop : s.stopFilled = false) (htarget : s.targetFilled = false) (hwork : s.stopWorking = false)
include hpos hstop htarget hwork

/-- An unprotected fill is an incident once it is complete, its stop was refused, or the entry
    reports `Filled`. -/
theorem chooseState_safety (h : s.requestedQuantity ≤ s.filledQuantity ∧ 0 < s.requestedQuantity ∨
      s.stopRejected = true ∨ e.leg = .entry ∧ e.status.isFilled = true) :
    (chooseState s e).state = .SAFETY_FAILED := by
  rcases h with ⟨h1, h2⟩ | h | ⟨h1, h2⟩
  · simp [chooseState, protectionConfirmed, hpos, hstop, htarget, hwork, h1, h2, not_le.mpr hpos]
  · simp [chooseState, protectionConfirmed, hpos, hstop, htarget, hwork, h, not_le.mpr hpos]
  · simp [chooseState, protectionConfirmed, hpos, hstop, htarget, hwork, h1, h2, not_le.mpr hpos]

/-- A part fill with no stop at all is only `PARTIALLY_FILLED`. -/
theorem chooseState_partial (hpart : s.filledQuantity < s.requestedQuantity)
    (hrej : s.stopRejected = false) (hst : e.status.isFilled = false) :
    (chooseState s e).state = .PARTIALLY_FILLED := by
  simp [chooseState, protectionConfirmed, hpos, hstop, htarget, hwork, hrej, hst, not_le.mpr hpart, hpart,
    not_le.mpr hpos]

end

/-! ## The invariant -/

structure WatchInv (w : Watched) : Prop where
  requested : 0 < w.row.requestedQuantity
  filled : 0 ≤ w.row.filledQuantity
  handover : w.row.handoverGeneration = none
  generation : w.row.protectionGeneration = 0
  notOwned : w.row.state ≠ .CLOSE_OWNED
  flatten : w.row.state = .SAFETY_FAILED → w.row.flattenRequested = true
  notSilent : NotSilent w
  /-- An entry that ended without a fill is not live, so a late fill is an incident. -/
  endedEmpty : w.entryEnded = true → w.row.filledQuantity ≤ 0 →
    w.row.state = .CLOSED ∨ w.row.state = .SAFETY_FAILED

/-- What an event can do to an unowned saga. -/
inductive WatchCase (w : Watched) (e : BrokerOrderEvent) : Prop where
  | ignored (h : watch w e = w) (hseen : e.eventId ∈ w.row.seenEventIds ∨ w.row.state.isTerminal = true)
  | afterFailure (hs : w.row.state = .SAFETY_FAILED) (hleg : e.leg = .entry)
      (h : watch w e = ⟨recordEntryAfterSafetyFailure w.row e, w.entryEnded || endsEntry e⟩)
  | reopened (hs : w.row.state = .NOT_SENT ∨ w.row.state = .CLOSED ∧ entryFillGrows w.row e = true)
      (h : watch w e = ⟨reopenTerminalRow w.row e, w.entryEnded || endsEntry e⟩)
  | live (hs : w.row.state.isTerminal = false) (hnew : e.eventId ∉ w.row.seenEventIds)
      (h : watch w e = ⟨onLiveEvent w.row e, w.entryEnded || endsEntry e⟩)

variable {w : Watched}

theorem watch_cases (hI : WatchInv w) (e : BrokerOrderEvent) : WatchCase w e := by
  have hgen := hI.generation
  have howned : closeOwnedOnce w.row = false := by simp [closeOwnedOnce, hI.handover, hgen]
  by_cases hseen : e.eventId ∈ w.row.seenEventIds
  · exact .ignored (by simp [watch, applyBrokerEvent, hseen]) (Or.inl hseen)
  by_cases hfail : w.row.state = .SAFETY_FAILED ∧ e.leg = .entry
  · exact .afterFailure hfail.1 hfail.2 (by simp [watch, applyBrokerEvent, hseen, hfail])
  by_cases hns : w.row.state = .NOT_SENT
  · exact .reopened (Or.inl hns) (by simp [watch, applyBrokerEvent, hseen, hns])
  by_cases hgrow : w.row.state = .CLOSED ∧ entryFillGrows w.row e = true
  · exact .reopened (Or.inr hgrow) (by simp [watch, applyBrokerEvent, hseen, hgrow, howned])
  have hgrow' : ¬ (w.row.state = .CLOSED ∧ closeOwnedOnce w.row = false ∧ entryFillGrows w.row e = true) :=
    fun h => hgrow ⟨h.1, h.2.2⟩
  cases hterm : w.row.state.isTerminal with
  | true =>
    refine .ignored ?_ (Or.inr hterm)
    simp only [watch, applyBrokerEvent, List.contains_eq_mem, hseen, hfail, hns, hgrow', hterm]
    simp
  | false =>
    refine .live hterm hseen ?_
    simp only [watch, applyBrokerEvent, List.contains_eq_mem, hseen, hfail, hns, hgrow', hterm, hgen,
      hI.notOwned]
    simp

/-- The fields `recordEvent` leaves alone are all but the event ids and the revision. -/
theorem onLiveEvent_eq {s : SagaState} (e : BrokerOrderEvent) (hs : s.state.isTerminal = false) :
    (onLiveEvent s e).state = (applyEvent s e).state ∧
    (onLiveEvent s e).filledQuantity = (applyEvent s e).filledQuantity ∧
    (onLiveEvent s e).stopWorking = (applyEvent s e).stopWorking ∧
    (onLiveEvent s e).stopFilled = (applyEvent s e).stopFilled ∧
    (onLiveEvent s e).targetFilled = (applyEvent s e).targetFilled ∧
    (onLiveEvent s e).requestedQuantity = (applyEvent s e).requestedQuantity ∧
    (onLiveEvent s e).handoverGeneration = (applyEvent s e).handoverGeneration ∧
    (onLiveEvent s e).protectionGeneration = (applyEvent s e).protectionGeneration ∧
    ((onLiveEvent s e).state = .SAFETY_FAILED → (onLiveEvent s e).flattenRequested = true) := by
  have hne : s.state ≠ .SAFETY_FAILED := by
    intro h
    rw [h] at hs
    cases hs
  unfold onLiveEvent recordEvent
  dsimp only
  by_cases hf : (applyEvent s e).state = .SAFETY_FAILED
  · rw [if_pos ⟨hf, hne⟩]
    exact ⟨rfl, rfl, rfl, rfl, rfl, rfl, rfl, rfl, fun _ => rfl⟩
  · rw [if_neg fun h => hf h.1]
    exact ⟨rfl, rfl, rfl, rfl, rfl, rfl, rfl, rfl, fun h => absurd h hf⟩

structure EventFrame (s t : SagaState) : Prop where
  filled : s.filledQuantity ≤ t.filledQuantity
  stopFilled : s.stopFilled = true → t.stopFilled = true
  targetFilled : s.targetFilled = true → t.targetFilled = true
  requested : t.requestedQuantity = s.requestedQuantity
  handover : t.handoverGeneration = s.handoverGeneration
  generation : t.protectionGeneration = s.protectionGeneration
  owned : t.state = .CLOSE_OWNED → s.state = .CLOSE_OWNED

theorem EntryFrame.toEventFrame {s : SagaState} (h : EntryFrame s t)
    (hf : s.filledQuantity ≤ t.filledQuantity) : EventFrame s t :=
  ⟨hf, fun hs => h.stopFilled.trans hs, fun hs => h.targetFilled.trans hs, h.requested, h.handover,
    h.generation, fun ht => h.state.symm.trans ht⟩

theorem ExitFrame.toEventFrame {s : SagaState} (h : ExitFrame s t) : EventFrame s t :=
  ⟨h.filled.ge, h.stopFilled, h.targetFilled, h.requested, h.handover, h.generation,
    fun ht => h.state.symm.trans ht⟩

theorem applyEntryLeg_grows (s : SagaState) (e : BrokerOrderEvent) :
    s.filledQuantity ≤ (applyEntryLeg s e).filledQuantity :=
  (le_max_left _ _).trans (applyEntryLeg_filled_le s e)

theorem applyLeg_frame (s : SagaState) (e : BrokerOrderEvent) : EventFrame s (applyLeg s e) := by
  unfold applyLeg
  split
  · exact (applyEntryLeg_frame s e).toEventFrame (applyEntryLeg_grows s e)
  · exact (applyStopLeg_spec s e.status).1.toEventFrame
  · exact (applyTargetLeg_spec s e.status).1.toEventFrame
  · exact ⟨le_refl _, id, id, rfl, rfl, rfl, id⟩

theorem applyEvent_frame (s : SagaState) (e : BrokerOrderEvent) : EventFrame s (applyEvent s e) := by
  have hl := applyLeg_frame s e
  have hc := chooseState_frame (applyLeg s e) e
  unfold applyEvent
  dsimp only
  split
  · exact ⟨hl.filled, hl.stopFilled, hl.targetFilled, hl.requested, hl.handover, hl.generation, by simp⟩
  · exact ⟨hl.filled.trans hc.filled.ge, fun h => hc.stopFilled.trans (hl.stopFilled h),
      fun h => hc.targetFilled.trans (hl.targetFilled h), hc.requested.trans hl.requested,
      hc.handover.trans hl.handover, hc.generation.trans hl.generation, fun h => hl.owned (hc.owned h)⟩

theorem applyEvent_ended {s : SagaState} {e : BrokerOrderEvent} (hreq : 0 < s.requestedQuantity)
    (hend : endsEntry e = true) (hf : (applyEvent s e).filledQuantity ≤ 0) :
    (applyEvent s e).state = .CLOSED := by
  simp only [endsEntry, Bool.and_eq_true, beq_iff_eq, Bool.or_eq_true] at hend
  obtain ⟨hleg, hst⟩ := hend
  have hlegrow : applyLeg s e = applyEntryLeg s e := by simp [applyLeg, hleg]
  unfold applyEvent at hf ⊢
  dsimp only at hf ⊢
  rw [hlegrow] at hf ⊢
  by_cases hrej : e.status.isRejected = true
  · rw [if_pos (by simp [hleg, hrej])]
  · rw [if_neg (by simp [hrej])] at hf ⊢
    rw [(chooseState_frame _ e).filled] at hf
    rcases hst with (hfil | hcan) | hrej'
    · rw [applyEntryLeg_filled, if_pos hfil] at hf
      exact absurd (le_max_right _ _ |>.trans hf) (not_le.mpr hreq)
    · exact chooseState_closed (applyEntryLeg_cancelled s e (by simp [hcan])) hf
    · exact absurd hrej' hrej

variable {st : OrderStatus}

theorem isFilled_of_cancelled (h : st.isCancelled = true) : st.isFilled = false := by
  cases st <;> first | rfl | cases h

theorem isFilled_of_rejected (h : st.isRejected = true) : st.isFilled = false := by
  cases st <;> first | rfl | cases h

theorem isRejected_of_cancelled (h : st.isCancelled = true) : st.isRejected = false := by
  cases st <;> first | rfl | cases h

/-- **A live saga whose fill ends unprotected fails safe**, unless the event is one of the silent
    ones. -/
theorem live_notSilent {e : BrokerOrderEvent} (hI : WatchInv w)
    (hlive : w.row.state.isTerminal = false) (hnew : e.eventId ∉ w.row.seenEventIds)
    (hok : ¬ LeavesSilent w e) (hpos : 0 < (applyEvent w.row e).filledQuantity)
    (hstop : (applyEvent w.row e).stopFilled = false) (htarget : (applyEvent w.row e).targetFilled = false)
    (hwork : (applyEvent w.row e).stopWorking = false) (hend : (w.entryEnded || endsEntry e) = true) :
    (applyEvent w.row e).state = .SAFETY_FAILED := by
  have hfr := applyEvent_frame w.row e
  have hstop₀ : w.row.stopFilled = false := by
    by_contra h
    simp [hfr.stopFilled (by simpa using h)] at hstop
  have htarget₀ : w.row.targetFilled = false := by
    by_contra h
    simp [hfr.targetFilled (by simpa using h)] at htarget
  -- a live saga whose entry ended before has a working stop
  have hbefore : w.entryEnded = true → w.row.stopWorking = true := by
    intro hended
    by_contra hw
    rcases le_or_gt w.row.filledQuantity 0 with hle | hgt
    · rcases hI.endedEmpty hended hle with h | h <;> rw [h] at hlive <;> cases hlive
    · have := (hI.notSilent hgt hstop₀ htarget₀ (by simpa using hw) hended).1
      rw [this] at hlive
      cases hlive
  have hch := chooseState_frame (applyLeg w.row e) e
  cases hleg : e.leg with
  | entry =>
    have hrow : applyLeg w.row e = applyEntryLeg w.row e := by simp [applyLeg, hleg]
    have hef := applyEntryLeg_frame w.row e
    by_cases hrej : e.status.isRejected = true
    · -- a rejected parent with shares bought and no stop is silent
      have heq : (applyEvent w.row e).filledQuantity = max w.row.filledQuantity e.filledQuantity ∧
          (applyEvent w.row e).stopWorking = w.row.stopWorking := by
        simp [applyEvent, hleg, hrej, hrow, applyEntryLeg_filled, isFilled_of_rejected hrej, hef.stopWorking]
      rw [heq.1] at hpos
      rw [heq.2] at hwork
      exact absurd ⟨hlive, hnew, hleg, hpos, hstop₀, htarget₀, hwork, Or.inl hrej⟩ hok
    · have happ : applyEvent w.row e = chooseState (applyEntryLeg w.row e) e := by
        simp [applyEvent, hleg, hrej, hrow]
      rw [hrow] at hch
      rw [happ, hch.filled] at hpos
      rw [happ, hch.stopWorking, hef.stopWorking] at hwork
      rw [happ]
      refine chooseState_safety hpos (hef.stopFilled.trans hstop₀) (hef.targetFilled.trans htarget₀)
        (hef.stopWorking.trans hwork) ?_
      by_cases hfil : e.status.isFilled = true
      · exact Or.inr (Or.inr ⟨hleg, hfil⟩)
      · by_cases hcan : e.status.isCancelled = true
        · rw [applyEntryLeg_filled, if_neg hfil] at hpos ⊢
          rw [hef.stopRejected, hef.requested]
          by_contra hno
          push Not at hno
          refine hok ⟨hlive, hnew, hleg, hpos, hstop₀, htarget₀, hwork, Or.inr ⟨hcan, by simpa using hno.2.1, ?_⟩⟩
          by_contra hge
          exact absurd hI.requested (not_lt.mpr (hno.1 (not_lt.mp hge)))
        · have hended : w.entryEnded = true := by simpa [endsEntry, hfil, hcan, hrej] using hend
          rw [hbefore hended] at hwork
          cases hwork
  | stop =>
    have hended : w.entryEnded = true := by simpa [endsEntry, hleg] using hend
    have hrow : applyLeg w.row e = applyStopLeg w.row e.status := by simp [applyLeg, hleg]
    have happ : applyEvent w.row e = chooseState (applyStopLeg w.row e.status) e := by
      simp [applyEvent, hleg, hrow]
    obtain ⟨-, hacc⟩ := applyStopLeg_spec w.row e.status
    rw [hrow] at hch
    rw [happ] at hpos hstop htarget hwork ⊢
    rw [hch.filled] at hpos
    rw [hch.stopFilled] at hstop
    rw [hch.targetFilled] at htarget
    rw [hch.stopWorking] at hwork
    refine chooseState_safety hpos hstop htarget hwork (Or.inr (Or.inl ?_))
    refine (hacc hwork hstop htarget).resolve_left fun h => ?_
    rw [hbefore hended] at h
    cases h
  | takeProfit =>
    have hended : w.entryEnded = true := by simpa [endsEntry, hleg] using hend
    have hrow : applyLeg w.row e = applyTargetLeg w.row e.status := by simp [applyLeg, hleg]
    have happ : applyEvent w.row e = chooseState (applyTargetLeg w.row e.status) e := by
      simp [applyEvent, hleg, hrow]
    rw [hrow] at hch
    rw [happ, hch.stopWorking, (applyTargetLeg_spec w.row e.status).2, hbefore hended] at hwork
    cases hwork
  | other text =>
    have hended : w.entryEnded = true := by simpa [endsEntry, hleg] using hend
    have hrow : applyLeg w.row e = w.row := by simp [applyLeg, hleg]
    have happ : applyEvent w.row e = chooseState w.row e := by simp [applyEvent, hleg, hrow]
    rw [hrow] at hch
    rw [happ, hch.stopWorking, hbefore hended] at hwork
    cases hwork

theorem applyEvent_entry_filled {s : SagaState} {e : BrokerOrderEvent} (hleg : e.leg = .entry) :
    (applyEvent s e).filledQuantity = (applyEntryLeg s e).filledQuantity := by
  have hrow : applyLeg s e = applyEntryLeg s e := by simp [applyLeg, hleg]
  unfold applyEvent
  dsimp only
  rw [hrow]
  split
  · rfl
  · exact (chooseState_frame _ e).filled

theorem applyEvent_grows {s : SagaState} {e : BrokerOrderEvent} (h : entryFillGrows s e = true) :
    s.filledQuantity < (applyEvent s e).filledQuantity := by
  simp only [entryFillGrows, Bool.and_eq_true, beq_iff_eq, Bool.or_eq_true, decide_eq_true_eq] at h
  obtain ⟨hleg, h | ⟨hst, h⟩⟩ := h
  · rw [applyEvent_entry_filled hleg]
    exact lt_of_lt_of_le h ((le_max_right _ _).trans (applyEntryLeg_filled_le s e))
  · rw [applyEvent_entry_filled hleg, applyEntryLeg_filled, if_pos hst]
    exact lt_of_lt_of_le h (le_max_right _ _)

theorem applyEvent_failed {s : SagaState} {e : BrokerOrderEvent} (hs : s.state ≠ .SAFETY_FAILED)
    (h : (applyEvent s e).state = .SAFETY_FAILED) : 0 < (applyEvent s e).filledQuantity := by
  have hstate : (applyLeg s e).state = s.state := by
    unfold applyLeg
    split
    · exact (applyEntryLeg_frame s e).state
    · exact (applyStopLeg_spec s e.status).1.state
    · exact (applyTargetLeg_spec s e.status).1.state
    · rfl
  unfold applyEvent at h ⊢
  dsimp only at h ⊢
  split at h
  · cases h
  · rename_i hrej
    rw [if_neg hrej, (chooseState_frame _ e).filled]
    unfold chooseState at h
    dsimp only at h
    split at h
    · cases h
    split at h
    · split at h <;> cases h
    split at h
    · rename_i hbad
      simp only [Bool.and_eq_true, decide_eq_true_eq] at hbad
      exact hbad.1.1
    split at h
    · cases h
    split at h
    · cases h
    split at h
    · cases h
    · exact absurd (hstate.symm.trans h) hs

theorem reopened_inv {e : BrokerOrderEvent} (hI : WatchInv w)
    (hs : w.row.state = .NOT_SENT ∨ w.row.state = .CLOSED ∧ entryFillGrows w.row e = true) :
    WatchInv ⟨reopenTerminalRow w.row e, w.entryEnded || endsEntry e⟩ := by
  set base : SagaState :=
    { w.row with state := .OUTCOME_UNKNOWN, errorCode := some "ORPHAN_ORDER_FOUND" }
  have hfr := applyEvent_frame base e
  have hnotOwned : (applyEvent base e).state ≠ .CLOSE_OWNED := fun h => by cases hfr.owned h
  have hge : 0 ≤ (applyEvent base e).filledQuantity := le_trans hI.filled hfr.filled
  unfold reopenTerminalRow recordEvent
  dsimp only
  by_cases hpos : (applyEvent base e).filledQuantity > 0
  · rw [if_pos hpos]
    exact ⟨lt_of_lt_of_eq hI.requested hfr.requested.symm, hge, hfr.handover.trans hI.handover,
      hfr.generation.trans hI.generation, by simp, fun _ => rfl, fun _ _ _ _ _ => ⟨rfl, rfl⟩,
      fun _ _ => Or.inr rfl⟩
  · rw [if_neg hpos]
    refine ⟨lt_of_lt_of_eq hI.requested hfr.requested.symm, hge, hfr.handover.trans hI.handover,
      hfr.generation.trans hI.generation, hnotOwned, ?_, fun h => absurd h hpos, ?_⟩
    · exact fun hfail => absurd (applyEvent_failed (by simp) hfail) hpos
    · intro hended hle
      rcases Bool.or_eq_true_iff.mp hended with hended | hended
      · -- a row whose entry had ended is reopened by a fill only
        rcases hs with hs | ⟨hs, hgrow⟩
        · have hempty : w.row.filledQuantity ≤ 0 := hfr.filled.trans hle
          rcases hI.endedEmpty hended hempty with h | h <;> rw [h] at hs <;> cases hs
        · have hgrow : w.row.filledQuantity < (applyEvent base e).filledQuantity :=
            applyEvent_grows (s := base) hgrow
          exact absurd (lt_of_le_of_lt hI.filled hgrow) hpos
      · exact Or.inl (applyEvent_ended (s := base) hI.requested hended hle)

/-- **One event keeps the invariant** unless it is silent. -/
theorem watch_inv (w : Watched) (e : BrokerOrderEvent) (hI : WatchInv w) (hok : ¬ LeavesSilent w e) :
    WatchInv (watch w e) := by
  cases watch_cases hI e with
  | ignored h _ => rw [h]; exact hI
  | afterFailure hs hleg h =>
    have hef := applyEntryLeg_frame w.row e
    have hstate : (recordEntryAfterSafetyFailure w.row e).state = .SAFETY_FAILED := hef.state.trans hs
    have hflat : (recordEntryAfterSafetyFailure w.row e).flattenRequested = true :=
      hef.flatten.trans (hI.flatten hs)
    rw [h]
    refine ⟨lt_of_lt_of_eq hI.requested hef.requested.symm, hI.filled.trans (applyEntryLeg_grows w.row e),
      hef.handover.trans hI.handover, hef.generation.trans hI.generation, ?_, fun _ => hflat,
      fun _ _ _ _ _ => ⟨hstate, hflat⟩, fun _ _ => Or.inr hstate⟩
    rw [hstate]
    simp
  | reopened hs h =>
    rw [h]
    exact reopened_inv hI hs
  | live hs hnew h =>
    obtain ⟨hstate, hfilled, hwork, hstop, htarget, hreq, hhand, hgen, hflat⟩ := onLiveEvent_eq e hs
    have hfr := applyEvent_frame w.row e
    rw [h]
    refine ⟨?_, ?_, ?_, ?_, ?_, hflat, ?_, ?_⟩
    · rw [hreq, hfr.requested]
      exact hI.requested
    · rw [hfilled]
      exact hI.filled.trans hfr.filled
    · rw [hhand, hfr.handover]
      exact hI.handover
    · rw [hgen, hfr.generation]
      exact hI.generation
    · rw [hstate]
      exact fun ho => hI.notOwned (hfr.owned ho)
    · intro h1 h2 h3 h4 h5
      dsimp only at h1 h2 h3 h4
      have hsafe : (onLiveEvent w.row e).state = .SAFETY_FAILED := by
        rw [hstate]
        exact live_notSilent hI hs hnew hok (hfilled ▸ h1) (hstop ▸ h2) (htarget ▸ h3) (hwork ▸ h4) h5
      exact ⟨hsafe, hflat hsafe⟩
    · intro hended hle
      dsimp only at hle ⊢
      rw [hstate]
      rw [hfilled] at hle
      rcases Bool.or_eq_true_iff.mp hended with hended | hended
      · rcases hI.endedEmpty hended (hfr.filled.trans hle) with h | h <;> rw [h] at hs <;> cases hs
      · exact Or.inl (applyEvent_ended hI.requested hended hle)

theorem watch_silent (w : Watched) (e : BrokerOrderEvent) (hI : WatchInv w) (hbad : LeavesSilent w e) :
    ¬ NotSilent (watch w e) := by
  obtain ⟨hlive, hnew, hleg, hpos, hstop, htarget, hwork, hst⟩ := hbad
  have hlivecase : watch w e = ⟨onLiveEvent w.row e, w.entryEnded || endsEntry e⟩ := by
    cases watch_cases hI e with
    | live _ _ h => exact h
    | ignored h hseen =>
      rcases hseen with hseen | hterm
      · exact absurd hseen hnew
      · rw [hterm] at hlive; cases hlive
    | afterFailure hs _ _ => rw [hs] at hlive; cases hlive
    | reopened hs _ =>
      rcases hs with hs | ⟨hs, -⟩ <;> rw [hs] at hlive <;> cases hlive
  have hrow : applyLeg w.row e = applyEntryLeg w.row e := by simp [applyLeg, hleg]
  have hef := applyEntryLeg_frame w.row e
  have hends : endsEntry e = true := by
    rcases hst with hrej | ⟨hcan, -, -⟩
    · simp [endsEntry, hleg, hrej]
    · simp [endsEntry, hleg, hcan]
  have hnf : e.status.isFilled = false := by
    rcases hst with hrej | ⟨hcan, -, -⟩
    · exact isFilled_of_rejected hrej
    · exact isFilled_of_cancelled hcan
  have hfil : (applyEntryLeg w.row e).filledQuantity = max w.row.filledQuantity e.filledQuantity := by
    rw [applyEntryLeg_filled, if_neg (by simp [hnf])]
  -- the row the event leaves: the fill is recorded, the exit legs are as they were
  have hafter : (applyEvent w.row e).state ≠ .SAFETY_FAILED ∧
      (applyEvent w.row e).stopFilled = false ∧ (applyEvent w.row e).targetFilled = false ∧
      (applyEvent w.row e).stopWorking = false := by
    rcases hst with hrej | ⟨hcan, hrej, hpart⟩
    · simp [applyEvent, hleg, hrej, hrow, hef.stopFilled, hef.targetFilled, hef.stopWorking, hstop, htarget, hwork]
    · have happ : applyEvent w.row e = chooseState (applyEntryLeg w.row e) e := by
        simp [applyEvent, isRejected_of_cancelled hcan, hrow]
      have hch := chooseState_frame (applyEntryLeg w.row e) e
      rw [happ, hch.stopFilled, hch.targetFilled, hch.stopWorking, hef.stopFilled, hef.targetFilled,
        hef.stopWorking, chooseState_partial (hfil ▸ hpos) (hef.stopFilled.trans hstop)
          (hef.targetFilled.trans htarget) (hef.stopWorking.trans hwork)
          (by rw [hfil, hef.requested]; exact hpart) (hef.stopRejected.trans hrej) hnf]
      exact ⟨by simp, hstop, htarget, hwork⟩
  obtain ⟨hstate, hfilled, hwork', hstop', htarget', -, -, -, -⟩ := onLiveEvent_eq e hlive
  intro hns
  rw [hlivecase] at hns
  refine hafter.1 (hstate ▸ (hns ?_ ?_ ?_ ?_ ?_).1)
  · exact lt_of_lt_of_eq hpos (hfil.symm.trans ((applyEvent_entry_filled hleg).symm.trans hfilled.symm))
  · exact hstop'.trans hafter.2.1
  · exact htarget'.trans hafter.2.2.1
  · exact hwork'.trans hafter.2.2.2
  · simp [hends]

theorem SentUnowned.inv {s : SagaState} (h : SentUnowned s) : WatchInv ⟨s, false⟩ := by
  refine ⟨h.requested, h.unfilled.ge, h.notHandedOver, h.generation, ?_, ?_, ?_, ?_⟩
  · rcases h.state with hs | hs | hs | hs <;> simp [hs]
  · rcases h.state with hs | hs | hs | hs <;> simp [hs]
  · intro _ _ _ _ hended
    cases hended
  · intro hended
    cases hended

/-- **When an unprotected fill stays silent.**  For every sent saga that no close owned and every
    sequence of broker events: the saga fails safe in every state with an unprotected fill whose
    entry is over, exactly when no event of the sequence is a silent one. -/
theorem silent_fill_iff (s : SagaState) (h : SentUnowned s) (events : List BrokerOrderEvent) :
    (∀ applied, applied <+: events → NotSilent (applied.foldl watch ⟨s, false⟩)) ↔
      Meets watch (fun w e => ¬ LeavesSilent w e) ⟨s, false⟩ events :=
  Meets.iff_prefixes (fun _ hI => hI.notSilent) watch_inv
    (fun w e hI hbad => watch_silent w e hI (not_not.mp hbad)) h.inv

/-! ## A silent fill, and one that is not -/

def entryEvent (id : String) (status : OrderStatus) (filled : ℚ) : BrokerOrderEvent :=
  ⟨"og-c1", .entry, status, filled, 10, 1, id, 0, none⟩

/-- A bracket of 10 shares that was sent. -/
def sentRow : SagaState :=
  { commandId := "c1", orderGroupId := "og-c1", orderRef := "ref-c1", state := .SUBMITTING
    accountId := "DU1", conid := 1, side := .BUY, requestedQuantity := 10, revision := 2 }

theorem sentRow_sent : SentUnowned sentRow :=
  ⟨Or.inl rfl, by norm_num [sentRow], rfl, rfl, rfl, rfl, rfl, rfl⟩

/-- A reject after 4 of 10 shares closes the saga, although no stop was ever reported. -/
theorem rejected_after_fill_is_silent :
    ¬ ∀ (s : SagaState) (events : List BrokerOrderEvent), SentUnowned s →
      NotSilent (events.foldl watch ⟨s, false⟩) := by
  intro h
  have hrej := h sentRow [entryEvent "e1" .Submitted 4, entryEvent "e2" .Inactive 4] sentRow_sent
  exact absurd (hrej (by decide +kernel) (by decide +kernel) (by decide +kernel) (by decide +kernel)
    (by decide +kernel)).1 (by decide +kernel)

/-- A stop that works before the entry ends keeps the promise. -/
theorem stop_then_cancel_not_silent :
    SentUnowned sentRow ∧ ∀ applied,
      applied <+: [entryEvent "e1" .Submitted 4, ⟨"og-c1", .stop, .PreSubmitted, 0, 4, 2, "e2", 0, none⟩,
        entryEvent "e3" .Cancelled 4] → NotSilent (applied.foldl watch ⟨sentRow, false⟩) :=
  ⟨sentRow_sent, (silent_fill_iff sentRow sentRow_sent _).mpr (by decide +kernel)⟩

end MmrTrader.Saga
