import MmrTrader.Saga.Events
import MmrTrader.Saga.Serial

/-!
# Late entry fills

* `SagaWorld`, `SagaAct` — a saga with what it told the breaker and the liquidation, and what can happen to it.
* `Unowned` — a saga that no close ever owned belongs to generation zero and has no pending legs.
* `Inv.act` — every act keeps what was filled and what was recorded of it.
* `late_entry_fill_kept_iff` — **a late entry fill is recorded in every state; it is an incident in every state that a
  fill should not reach, except while the saga is exiting.**
-/

namespace MmrTrader.Saga

/-! ## The saga and its surroundings -/

/-- The breaker signals of the saga. -/
inductive SignalKind where
  | RECONCILIATION_DIVERGENCE
  | PROTECTIVE_ORDER_FAILURE
  deriving DecidableEq

structure SagaWorld where
  stored : StoredSaga
  /-- Kind and key of every signal recorded. -/
  breaker : List (SignalKind × String)
  /-- Account and root of every liquidation started. -/
  liquidations : List (String × String)
  /-- Some close has owned the saga. -/
  everOwned : Bool

abbrev SagaWorld.row (w : SagaWorld) : SagaState := w.stored.row

/-- What a write tells the breaker: a row that `_reopen_terminal_row` reopens diverges. -/
def sagaSignals (op : SagaOp) (before after : SagaState) : List (SignalKind × String) :=
  (if op.eventId.isSome ∧ (before.state = .NOT_SENT ∨ before.state = .CLOSED) then
    [(.RECONCILIATION_DIVERGENCE, before.commandId)] else []) ++
  (if tripsAndLiquidates before after then [(.PROTECTIVE_ORDER_FAILURE, after.commandId)] else [])

def SagaWorld.commit (w : SagaWorld) (op : SagaOp) (new : SagaState) : SagaWorld where
  stored := w.stored.save new
  breaker := w.breaker ++ sagaSignals op w.row new
  liquidations := w.liquidations ++
    if tripsAndLiquidates w.row new then [(new.accountId, new.commandId)] else []
  everOwned := w.everOwned || new.state == .CLOSE_OWNED

def SagaWorld.write (w : SagaWorld) (op : SagaOp) (t : Int) : SagaWorld :=
  match op.buildRow t w.stored with
  | some new => w.commit op new
  | none => w

/-- What can happen to a saga.  `refuse` is a refusal between the VALIDATED and the SUBMITTING row. -/
inductive SagaAct where
  | refuse (code : String)
  | write (op : SagaOp) (t : Int)
  deriving DecidableEq

/-- The row `start` inserted is still there. -/
def SagaWorld.justValidated (w : SagaWorld) : Bool := w.row.state == .VALIDATED && w.row.revision == 1

/-- `_guard_and_submit` writes over the VALIDATED row only. -/
def SagaOp.canWrite (op : SagaOp) (w : SagaWorld) : Bool :=
  match op with
  | .submit .. => w.justValidated
  | _ => true

def SagaWorld.act (w : SagaWorld) : SagaAct → SagaWorld
  | .refuse code =>
    if w.justValidated then
      { w with
        stored := w.stored.save { w.row with
          state := .CLOSED
          errorCode := some code
          revision := w.row.revision + 1 } }
    else w
  | .write op t => if op.canWrite w then w.write op t else w

def SagaWorld.run (w : SagaWorld) (acts : List SagaAct) : SagaWorld := acts.foldl SagaWorld.act w

/-- The row that `start` inserts: validated, or closed when it is refused at once. -/
structure Inserted (s : SagaState) : Prop where
  state : s.state = .VALIDATED ∨ s.state = .CLOSED
  unfilled : s.filledQuantity = 0
  unseen : s.seenEventIds = []
  notHandedOver : s.handoverGeneration = none
  generation : s.protectionGeneration = 0
  pending : s.pendingGroups = []

def SagaWorld.start (s : SagaState) : SagaWorld := ⟨⟨s, []⟩, [], [], false⟩

def SagaAct.event? : SagaAct → Option BrokerOrderEvent
  | .write (.event e) _ => some e
  | .write (.reconcile e) _ => some e
  | _ => none

def IdsName (events : List BrokerOrderEvent) : Prop :=
  ∀ a ∈ events, ∀ b ∈ events, a.eventId = b.eventId →
    a.leg = b.leg ∧ a.status = b.status ∧ a.filledQuantity = b.filledQuantity

instance (events : List BrokerOrderEvent) : Decidable (IdsName events) :=
  inferInstanceAs (Decidable (∀ a ∈ events, ∀ b ∈ events, _ → _))

/-! ## The property -/

def ExitFilled (s : SagaState) : Prop := s.stopFilled = true ∨ s.targetFilled = true

instance (s : SagaState) : Decidable (ExitFilled s) := inferInstanceAs (Decidable (_ ∨ _))

/-- The saga has failed, and if it had not before, the breaker and the liquidation know. -/
def Incident (w w' : SagaWorld) : Prop :=
  w'.row.state = .SAFETY_FAILED ∧ (w.row.state ≠ .SAFETY_FAILED →
    w'.row.flattenRequested = true ∧
    (∃ signals, w'.breaker = w.breaker ++ signals ∧ (.PROTECTIVE_ORDER_FAILURE, w.row.commandId) ∈ signals) ∧
    w'.liquidations = w.liquidations ++ [(w.row.accountId, w.row.commandId)])

/-- The fill is recorded, and an incident where none should come. -/
def LateFillKept (w : SagaWorld) (e : BrokerOrderEvent) (w' : SagaWorld) : Prop :=
  e.filledQuantity ≤ w'.row.filledQuantity ∧
    (w.row.state.isTerminal = true ∨ ExitFilled w.row → Incident w w')

/-! ## Pending groups -/

theorem applyEntryLeg_pending (s : SagaState) (e : BrokerOrderEvent) :
    (applyEntryLeg s e).pendingGroups = s.pendingGroups := by
  have hflags : (entryFlags s e.status).pendingGroups = s.pendingGroups := by
    unfold entryFlags
    split <;> split <;> rfl
  have hfill : ∀ t : SagaState, (entryFill t e.status e.filledQuantity).pendingGroups = t.pendingGroups := by
    intro t
    unfold entryFill
    split <;> split <;> rfl
  unfold applyEntryLeg
  dsimp only
  rw [apply_ite SagaState.pendingGroups, ite_self, hfill, hflags]

theorem applyLeg_pending (s : SagaState) (e : BrokerOrderEvent) : (applyLeg s e).pendingGroups = s.pendingGroups := by
  unfold applyLeg
  split
  · exact applyEntryLeg_pending s e
  · unfold applyStopLeg
    dsimp only
    repeat' split
    all_goals rfl
  · unfold applyTargetLeg
    dsimp only
    repeat' split
    all_goals rfl
  · rfl

theorem applyEvent_pending (s : SagaState) (e : BrokerOrderEvent) :
    (applyEvent s e).pendingGroups = s.pendingGroups := by
  have hchoose : ∀ t : SagaState, (chooseState t e).pendingGroups = t.pendingGroups := by
    intro t
    unfold chooseState
    dsimp only
    repeat' split
    all_goals rfl
  unfold applyEvent
  dsimp only
  split
  · exact applyLeg_pending s e
  · rw [hchoose, applyLeg_pending]

/-! ## What a write does to an unowned saga -/

structure Unowned (st : StoredSaga) : Prop where
  notOwned : st.row.state ≠ .CLOSE_OWNED
  notHandedOver : st.row.handoverGeneration = none
  generation : st.row.protectionGeneration = 0
  pending : st.row.pendingGroups = []
  groups : ∀ g ∈ st.groups, g.2 = 0

theorem Unowned.closeOwnedOnce {st : StoredSaga} (h : Unowned st) : closeOwnedOnce st.row = false := by
  simp [Saga.closeOwnedOnce, h.notHandedOver, h.generation]

variable {st : StoredSaga}

theorem Unowned.groupGeneration (h : Unowned st) {group : String} {generation : Nat}
    (hg : st.groupGeneration group = some generation) : generation = 0 := by
  unfold StoredSaga.groupGeneration at hg
  split at hg
  · rename_i g hlookup
    obtain rfl := Option.some.inj hg
    obtain ⟨l, r, hsplit, -⟩ := List.lookup_eq_some_iff.mp hlookup
    exact h.groups (group, g) (hsplit ▸ List.mem_append_right _ List.mem_cons_self)
  · split at hg
    · exact (Option.some.inj hg).symm
    · cases hg

/-- What a write of an unowned saga leaves as it is; `event` is the broker event it records. -/
structure Written (s : SagaState) (event : Option BrokerOrderEvent) (new : SagaState) : Prop where
  group : new.orderGroupId = s.orderGroupId
  handover : new.handoverGeneration = s.handoverGeneration
  generation : new.protectionGeneration = s.protectionGeneration
  pending : new.pendingGroups = s.pendingGroups
  requested : new.requestedQuantity = s.requestedQuantity
  filled : s.filledQuantity ≤ new.filledQuantity
  seen : new.seenEventIds = s.seenEventIds ++ (event.map (·.eventId)).toList
  entry : ∀ e, event = some e → e.leg = .entry → e.filledQuantity ≤ new.filledQuantity ∧
    (e.status.isFilled = true → s.requestedQuantity ≤ new.filledQuantity)

theorem applyEntryLeg_reported (s : SagaState) (e : BrokerOrderEvent) :
    e.filledQuantity ≤ (applyEntryLeg s e).filledQuantity ∧
      (e.status.isFilled = true → s.requestedQuantity ≤ (applyEntryLeg s e).filledQuantity) := by
  refine ⟨(le_max_right _ _).trans (applyEntryLeg_filled_le s e), fun hfilled => ?_⟩
  rw [applyEntryLeg_filled, if_pos hfilled]
  exact le_max_right _ _

theorem written_applyEvent (s : SagaState) (e : BrokerOrderEvent) :
    Written s (some e) (recordEvent s (applyEvent s e) e) where
  group := (sameRecord_applyEvent s e).orderGroupId
  handover := (applyEvent_frame s e).handover
  generation := (applyEvent_frame s e).generation
  pending := applyEvent_pending s e
  requested := (applyEvent_frame s e).requested
  filled := (applyEvent_frame s e).filled
  seen := rfl
  entry := by
    rintro e' heq hleg
    obtain rfl := Option.some.inj heq
    change _ ≤ (applyEvent s e).filledQuantity ∧ (_ → _ ≤ (applyEvent s e).filledQuantity)
    rw [applyEvent_entry_filled hleg]
    exact applyEntryLeg_reported s e

variable {s new : SagaState}
variable {event : Option BrokerOrderEvent}

theorem Written.mark (h : Written s event new) (state : SagaStateName) (code : Option String) (flatten : Bool) :
    Written s event { new with state := state, errorCode := code, flattenRequested := flatten } :=
  ⟨h.group, h.handover, h.generation, h.pending, h.requested, h.filled, h.seen, h.entry⟩

theorem written_reopen (s : SagaState) (e : BrokerOrderEvent) : Written s (some e) (reopenTerminalRow s e) := by
  have h := written_applyEvent { s with state := .OUTCOME_UNKNOWN, errorCode := some "ORPHAN_ORDER_FOUND" } e
  have h' : Written s (some e) (recordEvent s
      (applyEvent { s with state := .OUTCOME_UNKNOWN, errorCode := some "ORPHAN_ORDER_FOUND" } e) e) :=
    ⟨h.group, h.handover, h.generation, h.pending, h.requested, h.filled, h.seen, h.entry⟩
  unfold reopenTerminalRow
  dsimp only
  split
  · exact h'.mark .SAFETY_FAILED (some "ORPHAN_ORDER_FILLED") true
  · exact h'

theorem written_live (s : SagaState) (e : BrokerOrderEvent) : Written s (some e) (onLiveEvent s e) := by
  unfold onLiveEvent
  dsimp only
  split
  · exact (written_applyEvent s e).mark _ _ true
  · exact written_applyEvent s e

theorem written_afterFailure (s : SagaState) (e : BrokerOrderEvent) :
    Written s (some e) (recordEntryAfterSafetyFailure s e) where
  group := (sameRecord_entryLeg s e).orderGroupId
  handover := (applyEntryLeg_frame s e).handover
  generation := (applyEntryLeg_frame s e).generation
  pending := applyEntryLeg_pending s e
  requested := (applyEntryLeg_frame s e).requested
  filled := applyEntryLeg_grows s e
  seen := rfl
  entry := by
    rintro e' heq -
    obtain rfl := Option.some.inj heq
    exact applyEntryLeg_reported s e

inductive UnownedEvent (s : SagaState) (e : BrokerOrderEvent) (new : SagaState) : Prop where
  | afterFailure (hstate : s.state = .SAFETY_FAILED) (h : new = recordEntryAfterSafetyFailure s e)
  | reopened (hstate : s.state = .NOT_SENT ∨ s.state = .CLOSED) (h : new = reopenTerminalRow s e)
  | live (hstate : s.state.isTerminal = false) (h : new = onLiveEvent s e)

theorem Unowned.applyBrokerEvent {st : StoredSaga} (h : Unowned st) {e : BrokerOrderEvent} {new : SagaState}
    (heq : applyBrokerEvent st.row 0 e = some new) : UnownedEvent st.row e new := by
  unfold Saga.applyBrokerEvent at heq
  split at heq
  · cases heq
  split at heq
  · rename_i hfailed
    exact .afterFailure hfailed.1 (Option.some.inj heq).symm
  split at heq
  · rename_i hstate
    exact .reopened (.inl hstate) (Option.some.inj heq).symm
  split at heq
  · rename_i hclosed
    exact .reopened (.inr hclosed.1) (Option.some.inj heq).symm
  split at heq
  · cases heq
  rename_i hlive
  rw [h.generation, if_neg (lt_irrefl 0), if_neg (lt_irrefl 0), if_neg h.notOwned] at heq
  exact .live (by simpa using hlive) (Option.some.inj heq).symm

variable {e : BrokerOrderEvent}

theorem UnownedEvent.written (h : UnownedEvent s e new) : Written s (some e) new := by
  cases h with
  | afterFailure hstate h => exact h ▸ written_afterFailure s e
  | reopened hstate h => exact h ▸ written_reopen s e
  | live hstate h => exact h ▸ written_live s e

/-- **Every write of an unowned saga**, unless a close takes it over. -/
theorem Unowned.written (h : Unowned st) {op : SagaOp} {t : Int}
    (hbuild : op.buildRow t st = some new) (hnot : new.state ≠ .CLOSE_OWNED) :
    Written st.row (SagaAct.write op t).event? new := by
  have hquiet : ∀ {u : SagaState}, u.orderGroupId = st.row.orderGroupId →
      u.handoverGeneration = st.row.handoverGeneration → u.protectionGeneration = st.row.protectionGeneration →
      u.pendingGroups = st.row.pendingGroups → u.requestedQuantity = st.row.requestedQuantity →
      u.filledQuantity = st.row.filledQuantity → u.seenEventIds = st.row.seenEventIds → Written st.row none u :=
    fun h₁ h₂ h₃ h₄ h₅ h₆ h₇ => ⟨h₁, h₂, h₃, h₄, h₅, h₆.ge, by simp [h₇], fun _ hn => by cases hn⟩
  have howned : ∀ root, ownedBy st.row root = false := by
    intro root
    simp [ownedBy, h.notOwned]
  cases op with
  | submit generation baseline now =>
    cases hbuild
    exact hquiet rfl rfl rfl rfl rfl rfl rfl
  | postSubmit outcome returnedAt now =>
    simp only [SagaOp.buildRow, afterDispatch] at hbuild
    split at hbuild
    · cases hbuild
    · cases hbuild
      cases outcome <;> exact hquiet rfl rfl rfl rfl rfl rfl rfl
  | event e =>
    simp only [SagaOp.buildRow] at hbuild
    split at hbuild
    · rename_i generation hgeneration
      obtain rfl := h.groupGeneration hgeneration
      exact (h.applyBrokerEvent hbuild).written
    · cases hbuild
  | handover accountId conid closeRootId cancels generation now =>
    simp only [SagaOp.buildRow, own] at hbuild
    split at hbuild
    · split at hbuild
      · cases hbuild
      · cases hbuild
        exact absurd rfl hnot
    · cases hbuild
  | expectReprotect closeRootId groups first now =>
    simp only [SagaOp.buildRow, howned, Bool.false_and, Bool.false_eq_true, if_false] at hbuild
    cases hbuild
  | release r keeper =>
    simp only [SagaOp.buildRow, howned, Bool.false_eq_true, if_false] at hbuild
    cases hbuild
  | closeAfterFull closeRootId now =>
    simp only [SagaOp.buildRow, howned, Bool.false_eq_true, if_false] at hbuild
    cases hbuild
  | retireOrphan enumeration settle =>
    simp only [SagaOp.buildRow] at hbuild
    split at hbuild
    · cases hbuild
      exact hquiet rfl rfl rfl rfl rfl rfl rfl
    · cases hbuild
  | reconcile e =>
    simp only [SagaOp.buildRow] at hbuild
    split at hbuild
    · cases hbuild
      exact written_reopen st.row e
    · cases hbuild

/-! ## The invariant -/

/-- What holds of a saga that no close ever owned, with the events of its run and of its future. -/
structure Kept (group : String) (events : List BrokerOrderEvent) (st : StoredSaga) : Prop where
  unowned : Unowned st
  group : st.row.orderGroupId = group
  filled : 0 ≤ st.row.filledQuantity
  recorded : ∀ e ∈ events, e.leg = .entry → e.eventId ∈ st.row.seenEventIds →
    e.filledQuantity ≤ st.row.filledQuantity ∧
      (e.status.isFilled = true → st.row.requestedQuantity ≤ st.row.filledQuantity)

def Inv (group : String) (events : List BrokerOrderEvent) (w : SagaWorld) : Prop :=
  w.everOwned = false → Kept group events w.stored

variable {group : String} {events : List BrokerOrderEvent}

theorem Kept.save (h : Kept group events st) (hids : IdsName events) (hevent : ∀ e, event = some e → e ∈ events)
    (hwritten : Written st.row event new) (hnot : new.state ≠ .CLOSE_OWNED) : Kept group events (st.save new) where
  unowned :=
    { notOwned := hnot
      notHandedOver := hwritten.handover.trans h.unowned.notHandedOver
      generation := hwritten.generation.trans h.unowned.generation
      pending := hwritten.pending.trans h.unowned.pending
      groups := by
        intro g hg
        have hpending : new.pendingGroups = [] := hwritten.pending.trans h.unowned.pending
        have hgeneration : new.protectionGeneration = 0 := hwritten.generation.trans h.unowned.generation
        simp only [StoredSaga.save, hpending, hgeneration, List.map_nil, List.nil_append, List.mem_append,
          List.mem_map] at hg
        rcases hg with ⟨name, -, rfl⟩ | hg
        · rfl
        · exact h.unowned.groups g hg }
  group := hwritten.group.trans h.group
  filled := h.filled.trans hwritten.filled
  recorded := by
    intro e he hleg hseen
    change e.eventId ∈ new.seenEventIds at hseen
    change e.filledQuantity ≤ new.filledQuantity ∧ (_ → new.requestedQuantity ≤ new.filledQuantity)
    rw [hwritten.seen, List.mem_append] at hseen
    rw [hwritten.requested]
    rcases hseen with hold | hnow
    · obtain ⟨hfill, hfull⟩ := h.recorded e he hleg hold
      exact ⟨hfill.trans hwritten.filled, fun hf => (hfull hf).trans hwritten.filled⟩
    · cases hev : event with
      | none =>
        rw [hev] at hnow
        cases hnow
      | some e' =>
        rw [hev] at hnow
        obtain ⟨hsameLeg, hstatus, hquantity⟩ := hids e he e' (hevent e' hev) (List.mem_singleton.mp hnow)
        rw [hstatus, hquantity]
        exact hwritten.entry e' hev (hsameLeg ▸ hleg)

theorem Inv.start (hs : Inserted s) (events : List BrokerOrderEvent) :
    Inv s.orderGroupId events (SagaWorld.start s) := fun _ =>
  { unowned :=
      { notOwned := by
          change s.state ≠ .CLOSE_OWNED
          rcases hs.state with h | h <;> rw [h] <;> decide
        notHandedOver := hs.notHandedOver
        generation := hs.generation
        pending := hs.pending
        groups := fun _ hg => absurd hg List.not_mem_nil }
    group := rfl
    filled := hs.unfilled.ge
    recorded := by
      intro e _ _ hseen
      change e.eventId ∈ s.seenEventIds at hseen
      rw [hs.unseen] at hseen
      cases hseen }

variable {w : SagaWorld}

/-- **One act.** -/
theorem Inv.act (h : Inv group events w) (hids : IdsName events) (a : SagaAct)
    (hevent : ∀ e, a.event? = some e → e ∈ events) : Inv group events (w.act a) := by
  cases a with
  | refuse code =>
    unfold SagaWorld.act
    dsimp only
    split
    · intro howned
      have hnone : ∀ e, (none : Option BrokerOrderEvent) = some e → e ∈ events := fun _ hn => by cases hn
      exact (h howned).save hids hnone
        ⟨rfl, rfl, rfl, rfl, rfl, le_refl _, by simp, fun _ hn => by cases hn⟩ (by simp)
    · exact h
  | write op t =>
    unfold SagaWorld.act
    dsimp only
    split
    · unfold SagaWorld.write
      cases hbuild : op.buildRow t w.stored with
      | none => exact h
      | some new =>
        intro howned
        change (w.everOwned || new.state == .CLOSE_OWNED) = false at howned
        rw [Bool.or_eq_false_iff, beq_eq_false_iff_ne] at howned
        have hkept := h howned.1
        exact hkept.save hids hevent (hkept.unowned.written hbuild howned.2) howned.2
    · exact h

/-- **A whole run.** -/
theorem Inv.run (h : Inv group events w) (hids : IdsName events) {acts : List SagaAct}
    (hevents : ∀ a ∈ acts, ∀ e, a.event? = some e → e ∈ events) : Inv group events (w.run acts) := by
  induction acts generalizing w with
  | nil => exact h
  | cons a rest ih =>
    exact ih (h.act hids a (hevents a List.mem_cons_self)) fun b hb => hevents b (List.mem_cons_of_mem _ hb)

/-! ## The event -/

theorem Kept.unseen (h : Kept group events st) (he : e ∈ events)
    (hgrows : entryFillGrows st.row e = true) : e.eventId ∉ st.row.seenEventIds := by
  simp only [entryFillGrows, Bool.and_eq_true, beq_iff_eq, Bool.or_eq_true, decide_eq_true_eq] at hgrows
  obtain ⟨hleg, hgrows⟩ := hgrows
  intro hseen
  obtain ⟨hfill, hfull⟩ := h.recorded e he hleg hseen
  rcases hgrows with hmore | ⟨hstatus, hless⟩
  · exact absurd hmore (not_lt.mpr hfill)
  · exact absurd hless (not_lt.mpr (hfull hstatus))

theorem Kept.late (h : Kept group events st) (he : e ∈ events) (hgrows : entryFillGrows st.row e = true) :
    ∃ new, applyBrokerEvent st.row 0 e = some new ∧ UnownedEvent st.row e new := by
  have hnew : ∃ new, applyBrokerEvent st.row 0 e = some new := by
    have hseen := h.unseen he hgrows
    have howned := h.unowned.closeOwnedOnce
    have hleg : e.leg = .entry := by
      simp only [entryFillGrows, Bool.and_eq_true, beq_iff_eq] at hgrows
      exact hgrows.1
    unfold applyBrokerEvent
    rw [if_neg (by simpa using hseen), h.unowned.generation, if_neg (lt_irrefl 0), if_neg (lt_irrefl 0)]
    cases hstate : st.row.state <;> simp [hleg, hgrows, howned, SagaStateName.isTerminal]
  obtain ⟨new, hnew⟩ := hnew
  exact ⟨new, hnew, h.unowned.applyBrokerEvent hnew⟩

theorem reopenTerminalRow_failed (hfilled : 0 ≤ s.filledQuantity) (hgrows : entryFillGrows s e = true) :
    (reopenTerminalRow s e).state = .SAFETY_FAILED ∧ (reopenTerminalRow s e).flattenRequested = true := by
  have hgrown : s.filledQuantity <
      (applyEvent { s with state := .OUTCOME_UNKNOWN, errorCode := some "ORPHAN_ORDER_FOUND" } e).filledQuantity :=
    applyEvent_grows (s := { s with state := .OUTCOME_UNKNOWN, errorCode := some "ORPHAN_ORDER_FOUND" }) hgrows
  unfold reopenTerminalRow
  dsimp only
  rw [if_pos (lt_of_le_of_lt hfilled hgrown)]
  exact ⟨rfl, rfl⟩

theorem chooseState_exitFilled (e : BrokerOrderEvent) (h : (s.stopFilled || s.targetFilled) = true) :
    (chooseState s e).state ≠ .SAFETY_FAILED := by
  unfold chooseState
  simp only [h, if_true]
  split
  · simp
  · split <;> simp

/-- While it exits, an entry event never makes a saga fail. -/
theorem applyEvent_exitFilled (hleg : e.leg = .entry) (hexit : ExitFilled s) : (applyEvent s e).state ≠ .SAFETY_FAILED := by
  have hrow : applyLeg s e = applyEntryLeg s e := by simp [applyLeg, hleg]
  have hframe := applyEntryLeg_frame s e
  have hfilled : ((applyEntryLeg s e).stopFilled || (applyEntryLeg s e).targetFilled) = true := by
    rw [hframe.stopFilled, hframe.targetFilled, Bool.or_eq_true]
    exact hexit
  unfold applyEvent
  dsimp only
  rw [hrow]
  split
  · simp
  · exact chooseState_exitFilled e hfilled

theorem onLiveEvent_state (s : SagaState) (e : BrokerOrderEvent) : (onLiveEvent s e).state = (applyEvent s e).state := by
  unfold onLiveEvent
  dsimp only
  split <;> rfl

theorem incident_commit (hlive : w.row.state ≠ .SAFETY_FAILED)
    (hstate : new.state = .SAFETY_FAILED) (hflatten : new.flattenRequested = true)
    (haccount : new.accountId = w.row.accountId) (hcommand : new.commandId = w.row.commandId) :
    Incident w (w.commit (.event e) new) := by
  have htrips : tripsAndLiquidates w.row new = true := by
    simp [tripsAndLiquidates, hstate, hlive]
  refine ⟨hstate, fun _ => ⟨hflatten, ⟨_, rfl, ?_⟩, ?_⟩⟩
  · refine List.mem_append_right _ ?_
    rw [if_pos htrips, hcommand]
    exact List.mem_singleton_self _
  · change w.liquidations ++ _ = _
    rw [if_pos htrips, haccount, hcommand]

/-- **Late entry fills.**  For every run of a saga that no close ever owned, and every event that reports more of its
entry than is recorded: the fill is recorded and is an incident where the saga is over or exiting, if and only if the
saga is over or no exit leg has filled. -/
theorem late_entry_fill_kept_iff (s : SagaState) (hs : Inserted s) (acts : List SagaAct) (e : BrokerOrderEvent) (t : Int)
    (hids : IdsName (e :: acts.filterMap SagaAct.event?))
    (hunowned : ((SagaWorld.start s).run acts).everOwned = false) (hgroup : e.orderGroupId = s.orderGroupId)
    (hgrows : entryFillGrows ((SagaWorld.start s).run acts).row e = true) :
    LateFillKept ((SagaWorld.start s).run acts) e (((SagaWorld.start s).run acts).act (.write (.event e) t)) ↔
      ((SagaWorld.start s).run acts).row.state.isTerminal = true ∨ ¬ ExitFilled ((SagaWorld.start s).run acts).row := by
  have hkept := (Inv.start hs (e :: acts.filterMap SagaAct.event?)).run hids
    (fun a ha e' he' => List.mem_cons_of_mem _ (List.mem_filterMap.mpr ⟨a, ha, he'⟩)) hunowned
  generalize (SagaWorld.start s).run acts = w at *
  obtain ⟨new, hnew, hcase⟩ := hkept.late List.mem_cons_self hgrows
  have hgeneration : w.stored.groupGeneration e.orderGroupId = some 0 := by
    cases hg : w.stored.groupGeneration e.orderGroupId with
    | some generation => rw [hkept.unowned.groupGeneration hg]
    | none =>
      unfold StoredSaga.groupGeneration at hg
      split at hg
      · cases hg
      · rw [if_pos (hgroup.trans hkept.group.symm)] at hg
        cases hg
  have hact : w.act (.write (.event e) t) = w.commit (.event e) new := by
    unfold SagaWorld.act SagaOp.canWrite
    dsimp only
    unfold SagaWorld.write SagaOp.buildRow
    dsimp only
    rw [hgeneration, if_pos rfl]
    dsimp only
    rw [hnew]
  rw [hact]
  have hleg : e.leg = .entry := by
    simp only [entryFillGrows, Bool.and_eq_true, beq_iff_eq] at hgrows
    exact hgrows.1
  have hreported : e.filledQuantity ≤ (w.commit (.event e) new).row.filledQuantity :=
    (hcase.written.entry e rfl hleg).1
  cases hcase with
  | afterFailure hstate hrow =>
    refine ⟨fun _ => .inl (by rw [hstate]; rfl), fun _ => ⟨hreported, fun _ => ⟨?_, fun hne => absurd hstate hne⟩⟩⟩
    rw [hrow]
    exact (applyEntryLeg_frame w.row e).state.trans hstate
  | reopened hstate hrow =>
    have hterminal : w.row.state.isTerminal = true := by
      rcases hstate with h | h <;> rw [h] <;> rfl
    refine ⟨fun _ => .inl hterminal, fun _ => ⟨hreported, fun _ => ?_⟩⟩
    obtain ⟨hfailed, hflatten⟩ := reopenTerminalRow_failed hkept.filled hgrows
    have hrecorded := recorded_reopen w.row e
    rw [hrow]
    refine incident_commit ?_ hfailed hflatten hrecorded.accountId hrecorded.commandId
    rcases hstate with h | h <;> rw [h] <;> decide
  | live hstate hrow =>
    have hnot : w.row.state ≠ .SAFETY_FAILED := by
      intro h
      rw [h] at hstate
      cases hstate
    constructor
    · intro hlate
      refine .inr fun hexit => ?_
      have hfailed := (hlate.2 (.inr hexit)).1
      change new.state = .SAFETY_FAILED at hfailed
      rw [hrow, onLiveEvent_state] at hfailed
      exact applyEvent_exitFilled hleg hexit hfailed
    · rintro (hterminal | hexit)
      · rw [hstate] at hterminal
        cases hterminal
      · refine ⟨hreported, ?_⟩
        rintro (hterminal | hfilled)
        · rw [hstate] at hterminal
          cases hterminal
        · exact absurd hfilled hexit

/-! ## A fill while the saga exits, and one after its close -/

/-- Four of ten shares are bought and their stop fills, with the target still working. -/
def exitingRun : List SagaAct :=
  [.write (.submit none 0 0) 0, .write (.event (entryEvent "e1" .Submitted 4)) 0,
   .write (.event ⟨"og-c1", .stop, .Submitted, 0, 10, 2, "e2", 0, none⟩) 0,
   .write (.event ⟨"og-c1", .takeProfit, .Submitted, 0, 10, 3, "e3", 0, none⟩) 0,
   .write (.event ⟨"og-c1", .stop, .Filled, 10, 10, 2, "e4", 0, none⟩) 0]

theorem validatedRow_inserted : Inserted validatedRow := ⟨.inl rfl, rfl, rfl, rfl, rfl, rfl⟩

/-- The other six shares are bought after the stop: the saga goes on exiting. -/
theorem late_entry_fill_while_exiting :
    ¬ ∀ (s : SagaState) (acts : List SagaAct) (e : BrokerOrderEvent) (t : Int), Inserted s →
      IdsName (e :: acts.filterMap SagaAct.event?) → ((SagaWorld.start s).run acts).everOwned = false →
      e.orderGroupId = s.orderGroupId → entryFillGrows ((SagaWorld.start s).run acts).row e = true →
      LateFillKept ((SagaWorld.start s).run acts) e (((SagaWorld.start s).run acts).act (.write (.event e) t)) := by
  intro h
  have hkept := h validatedRow exitingRun (entryEvent "e5" .Filled 10) 0 validatedRow_inserted (by decide +kernel)
    (by decide +kernel) rfl (by decide +kernel)
  exact absurd (hkept.2 (.inr (by decide +kernel))).1 (by decide +kernel)

def cancelledRun : List SagaAct :=
  [.write (.submit none 0 0) 0, .write (.event (entryEvent "e1" .Cancelled 0)) 0]

/-- A fill of the closed saga is an incident. -/
theorem late_entry_fill_after_close :
    LateFillKept ((SagaWorld.start validatedRow).run cancelledRun) (entryEvent "e2" .Filled 10)
      (((SagaWorld.start validatedRow).run cancelledRun).act (.write (.event (entryEvent "e2" .Filled 10)) 0)) :=
  (late_entry_fill_kept_iff validatedRow validatedRow_inserted cancelledRun (entryEvent "e2" .Filled 10) 0
    (by decide +kernel) (by decide +kernel) rfl (by decide +kernel)).mpr (.inl (by decide +kernel))

end MmrTrader.Saga
