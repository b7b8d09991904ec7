import MmrTrader.Lib.Optimistic
import MmrTrader.Saga.Model

/-!
# Saga writers: read, build, commit under the revision check

Every writer of a saga row reads it, builds a whole new row and saves it in one journal
transaction (`_persist`, `_persist_all`), with a retry from a fresh read on
`SagaRevisionConflict` (`_retrying`).  `SagaOp` lists the writers with their arguments;
`sagaProtocol` is the instance of the optimistic-update library they form.

The journal answers a commit whose event key it already holds with an equal mutation without
calling the writer, so the mutation's content (`SagaMutation`) matters: it does not carry every
field of the row.
-/

set_option autoImplicit false

namespace MmrTrader.Saga

open MmrTrader.Lib

/-- A saga row with its rows of `automated_order_saga_groups`, the newest first. -/
structure StoredSaga where
  row : SagaState
  groups : List (String × Nat)
  deriving DecidableEq

/-- The row and group part of `save_in_tx`. -/
def StoredSaga.save (st : StoredSaga) (new : SagaState) : StoredSaga :=
  ⟨new, new.pendingGroups.map (·, new.protectionGeneration + 1) ++
    new.activeGroups.map (·, new.protectionGeneration) ++ st.groups⟩

/-- `load_by_group`: the protection generation of the group; `none` when it is not this saga's. -/
def StoredSaga.groupGeneration (st : StoredSaga) (group : String) : Option Nat :=
  match st.groups.lookup group with
  | some generation => some generation
  | none => if group = st.row.orderGroupId then some 0 else none

/-- How `submit_bracket` ended. -/
inductive SendOutcome where
  | returned (orderIds : List Int)
  | brokerRejected
  | raised
  deriving DecidableEq

structure BrokerEnumeration where
  generationId : Nat
  startedAt : Int
  deriving DecidableEq

/-- The writers of one row.  `handover` without a conid is `handover_account`; `first` and `keeper`
    say whether the row is the first one `load_by_close_root` returns. -/
inductive SagaOp where
  | submit (sendGenerationId : Option Nat) (baselinePosition : ℚ) (now : Int)
  | postSubmit (outcome : SendOutcome) (returnedAt now : Int)
  | event (e : BrokerOrderEvent)
  | handover (accountId : String) (conid : Option Int) (closeRootId : String)
      (cancels : List ExpectedCancel) (generation : Nat) (now : Int)
  | expectReprotect (closeRootId : String) (groups : List String) (first : Bool) (now : Int)
  | release (r : Release) (keeper : Bool)
  | closeAfterFull (closeRootId : String) (now : Int)
  | retireOrphan (enumeration : BrokerEnumeration) (settle : Int)
  | reconcile (e : BrokerOrderEvent)
  deriving DecidableEq

/-- The SUBMITTING row of `_guard_and_submit`. -/
def submittingRow (validated : SagaState) (sendGenerationId : Option Nat) (baselinePosition : ℚ)
    (now : Int) : SagaState :=
  { validated with
    state := .SUBMITTING
    revision := validated.revision + 1
    sendGenerationId := sendGenerationId
    sendAttemptedAt := some now
    baselinePosition := some baselinePosition }

def dispatchChange (outcome : SendOutcome) (returnedAt : Int) (s : SagaState) : SagaState :=
  match outcome with
  | .returned orderIds => { s with submittedOrderIds := orderIds, sendReturnedAt := some returnedAt }
  | .brokerRejected =>
      { s with state := .CLOSED, errorCode := some "BROKER_REJECTED", sendReturnedAt := some returnedAt }
  | .raised =>
      { s with
        state := .OUTCOME_UNKNOWN
        errorCode := some "DISPATCH_AMBIGUOUS"
        sendReturnedAt := some returnedAt }

/-- `always`: only a send that returned is recorded whatever the state. -/
def SendOutcome.always : SendOutcome → Bool
  | .returned _ => true
  | _ => false

def afterDispatch (outcome : SendOutcome) (returnedAt : Int) (current : SagaState) : Option SagaState :=
  if current.state ≠ .SUBMITTING ∧ outcome.always = false then none
  else some { dispatchChange outcome returnedAt current with revision := current.revision + 1 }

def SagaStateName.isUnconfirmedSend : SagaStateName → Bool
  | .SUBMITTING | .OUTCOME_UNKNOWN => true
  | _ => false

def enumerationPostdatesSend (s : SagaState) (en : BrokerEnumeration) (now settle : Int) : Bool :=
  match s.sendGenerationId, s.sendAttemptedAt, s.sendReturnedAt with
  | some sent, some _, some returnedAt =>
      decide (en.generationId > sent) && decide (en.startedAt > returnedAt) && decide (now - returnedAt ≥ settle)
  | _, _, _ => false

/-- `load_live` of a handover. -/
def isLiveFor (s : SagaState) (accountId : String) (conid : Option Int) : Bool :=
  s.accountId == accountId && !s.state.isTerminal && (conid.all fun c => s.conid == c)

/-- `terminal_entries` and the event test of `reconcile_terminal_entries`. -/
def reconciles (s : SagaState) (e : BrokerOrderEvent) : Bool :=
  (s.state == .NOT_SENT || s.state == .CLOSED) && !(s.stopFilled || s.targetFilled) && !closeOwnedOnce s &&
    decide (e.filledQuantity > s.filledQuantity) && !s.seenEventIds.contains e.eventId

/-- The row an attempt writes for the row it read; `t` is the saga's clock.  `KeyError` (an event
    of another saga) writes nothing either. -/
def SagaOp.buildRow (op : SagaOp) (t : Int) (st : StoredSaga) : Option SagaState :=
  let s := st.row
  match op with
  | .submit generation baseline now => some (submittingRow s generation baseline now)
  | .postSubmit outcome returnedAt _ => afterDispatch outcome returnedAt s
  | .event e =>
      match st.groupGeneration e.orderGroupId with
      | some generation => applyBrokerEvent s generation e
      | none => none
  | .handover accountId conid closeRootId cancels generation _ =>
      if isLiveFor s accountId conid then own s closeRootId cancels generation else none
  | .expectReprotect closeRootId groups first _ =>
      if ownedBy s closeRootId && first && decide (s.pendingGroups ≠ groups) then
        some { s with pendingGroups := groups, revision := s.revision + 1 }
      else none
  | .release r keeper =>
      if ownedBy s r.closeRootId then some (if keeper then releaseKeeper s r else releaseMerged s) else none
  | .closeAfterFull closeRootId _ => if ownedBy s closeRootId then some (closeAfterFullRow s) else none
  | .retireOrphan enumeration settle =>
      if s.state.isUnconfirmedSend && enumerationPostdatesSend s enumeration t settle then
        some { s with state := .NOT_SENT, errorCode := some "ORPHAN_NOT_SENT", revision := s.revision + 1 }
      else none
  | .reconcile e => if reconciles s e then some (reopenTerminalRow s e) else none

def SagaOp.build (op : SagaOp) (t : Int) (st : StoredSaga) : Option StoredSaga :=
  (op.buildRow t st).map st.save

/-- The event key of `_mutation`.  Broker event ids start with `order:` or `promotion:`, so the two
    kinds never meet. -/
inductive JournalKey where
  | event (eventId : String)
  | saga (state : SagaStateName) (revision : Nat)
  deriving DecidableEq

/-- The journal mutation of a saga write: what `_matches` compares. -/
structure SagaMutation where
  accountId : String
  sourceTimestamp : Int
  state : SagaStateName
  fromState : Option SagaStateName
  orderGroupId : String
  orderRef : String
  errorCode : Option String
  filledQuantity : ℚ
  protectionWorking : Bool
  closeRootId : Option String
  revision : Nat
  deriving DecidableEq

def sagaMutation (new : SagaState) (now : Int) (fromState : Option SagaStateName) : SagaMutation :=
  { accountId := new.accountId
    sourceTimestamp := now
    state := new.state
    fromState := fromState
    orderGroupId := new.orderGroupId
    orderRef := new.orderRef
    errorCode := new.errorCode
    filledQuantity := new.filledQuantity
    protectionWorking := new.protectionWorking
    closeRootId := new.closeRootId
    revision := new.revision }

/-- The event id a write is recorded under, for the writers that apply a broker event. -/
def SagaOp.eventId : SagaOp → Option String
  | .event e => some e.eventId
  | .reconcile e => some e.eventId
  | _ => none

def SagaOp.writeTime (op : SagaOp) (t : Int) : Int :=
  match op with
  | .submit _ _ now => now
  | .postSubmit _ _ now => now
  | .handover _ _ _ _ _ now => now
  | .expectReprotect _ _ _ now => now
  | .release r _ => r.now
  | .closeAfterFull _ now => now
  | .event _ | .reconcile _ | .retireOrphan _ _ => t

/-- `from_state`: a handover and an expected re-protect leave it out. -/
def SagaOp.fromState (op : SagaOp) (base : SagaState) : Option SagaStateName :=
  match op with
  | .handover .. | .expectReprotect .. => none
  | _ => some base.state

def SagaOp.entry (op : SagaOp) (t : Int) (base new : StoredSaga) : JournalKey × SagaMutation :=
  (match op.eventId with
    | some id => .event id
    | none => .saga new.row.state new.row.revision,
   sagaMutation new.row (op.writeTime t) (op.fromState base.row))

/-- `_SAVE_ATTEMPTS`; the writers outside `_retrying` try once. -/
def SagaOp.attempts : SagaOp → Nat
  | .submit .. | .retireOrphan .. | .reconcile _ => 1
  | _ => 5

/-! ## What every write keeps -/

/-- Fields that no broker event touches. -/
structure SameRecord (s t : SagaState) : Prop where
  commandId : t.commandId = s.commandId
  orderGroupId : t.orderGroupId = s.orderGroupId
  accountId : t.accountId = s.accountId
  conid : t.conid = s.conid
  side : t.side = s.side
  planJson : t.planJson = s.planJson
  baselinePosition : t.baselinePosition = s.baselinePosition
  sendReturnedAt : t.sendReturnedAt = s.sendReturnedAt
  seenEventIds : t.seenEventIds = s.seenEventIds
  revision : t.revision = s.revision

theorem SameRecord.refl (s : SagaState) : SameRecord s s := ⟨rfl, rfl, rfl, rfl, rfl, rfl, rfl, rfl, rfl, rfl⟩

variable {s t : SagaState}

theorem SameRecord.trans {u : SagaState} (h : SameRecord s t) (h' : SameRecord t u) : SameRecord s u :=
  ⟨h'.1.trans h.1, h'.2.trans h.2, h'.3.trans h.3, h'.4.trans h.4, h'.5.trans h.5, h'.6.trans h.6,
    h'.7.trans h.7, h'.8.trans h.8, h'.9.trans h.9, h'.10.trans h.10⟩

theorem sameRecord_entryLeg (s : SagaState) (e : BrokerOrderEvent) : SameRecord s (applyEntryLeg s e) := by
  have hflags : SameRecord s (entryFlags s e.status) := by
    unfold entryFlags
    split <;> split <;> exact ⟨rfl, rfl, rfl, rfl, rfl, rfl, rfl, rfl, rfl, rfl⟩
  have hfill : ∀ t, SameRecord t (entryFill t e.status e.filledQuantity) := by
    intro t
    unfold entryFill
    split <;> split <;> exact ⟨rfl, rfl, rfl, rfl, rfl, rfl, rfl, rfl, rfl, rfl⟩
  have h := hflags.trans (hfill _)
  unfold applyEntryLeg
  dsimp only
  split
  · exact ⟨h.1, h.2, h.3, h.4, h.5, h.6, h.7, h.8, h.9, h.10⟩
  · exact h

theorem sameRecord_leg (s : SagaState) (e : BrokerOrderEvent) : SameRecord s (applyLeg s e) := by
  unfold applyLeg
  split
  · exact sameRecord_entryLeg s e
  · unfold applyStopLeg
    dsimp only
    repeat' split
    all_goals exact ⟨rfl, rfl, rfl, rfl, rfl, rfl, rfl, rfl, rfl, rfl⟩
  · unfold applyTargetLeg
    dsimp only
    repeat' split
    all_goals exact ⟨rfl, rfl, rfl, rfl, rfl, rfl, rfl, rfl, rfl, rfl⟩
  · exact SameRecord.refl s

theorem sameRecord_chooseState (s : SagaState) (e : BrokerOrderEvent) : SameRecord s (chooseState s e) := by
  unfold chooseState
  dsimp only
  repeat' split
  all_goals exact ⟨rfl, rfl, rfl, rfl, rfl, rfl, rfl, rfl, rfl, rfl⟩

theorem sameRecord_applyEvent (s : SagaState) (e : BrokerOrderEvent) : SameRecord s (applyEvent s e) := by
  have h := sameRecord_leg s e
  unfold applyEvent
  dsimp only
  split
  · exact ⟨h.1, h.2, h.3, h.4, h.5, h.6, h.7, h.8, h.9, h.10⟩
  · exact h.trans (sameRecord_chooseState _ e)

/-- What a recorded event leaves: one more event id and one more revision. -/
structure Recorded (s : SagaState) (eventId : String) (t : SagaState) : Prop where
  seenEventIds : t.seenEventIds = s.seenEventIds ++ [eventId]
  revision : t.revision = s.revision + 1
  commandId : t.commandId = s.commandId
  orderGroupId : t.orderGroupId = s.orderGroupId
  accountId : t.accountId = s.accountId
  conid : t.conid = s.conid
  side : t.side = s.side
  planJson : t.planJson = s.planJson
  baselinePosition : t.baselinePosition = s.baselinePosition
  sendReturnedAt : t.sendReturnedAt = s.sendReturnedAt

theorem SameRecord.recorded (h : SameRecord s t) (e : BrokerOrderEvent) : Recorded s e.eventId (recordEvent s t e) :=
  ⟨rfl, rfl, h.commandId, h.orderGroupId, h.accountId, h.conid, h.side, h.planJson, h.baselinePosition,
    h.sendReturnedAt⟩

theorem recorded_reopen (s : SagaState) (e : BrokerOrderEvent) : Recorded s e.eventId (reopenTerminalRow s e) := by
  have hbase : SameRecord s { s with state := .OUTCOME_UNKNOWN, errorCode := some "ORPHAN_ORDER_FOUND" } :=
    ⟨rfl, rfl, rfl, rfl, rfl, rfl, rfl, rfl, rfl, rfl⟩
  have h := hbase.trans (sameRecord_applyEvent _ e)
  unfold reopenTerminalRow
  dsimp only
  refine SameRecord.recorded ?_ e
  split
  · exact ⟨h.1, h.2, h.3, h.4, h.5, h.6, h.7, h.8, h.9, h.10⟩
  · exact h

theorem recorded_live (s : SagaState) (e : BrokerOrderEvent) : Recorded s e.eventId (onLiveEvent s e) := by
  have h := sameRecord_applyEvent s e
  unfold onLiveEvent
  dsimp only
  refine SameRecord.recorded ?_ e
  split
  · exact ⟨h.1, h.2, h.3, h.4, h.5, h.6, h.7, h.8, h.9, h.10⟩
  · exact h

theorem recorded_owned (s : SagaState) (e : BrokerOrderEvent) : Recorded s e.eventId (onOwnedEvent s e) := by
  unfold onOwnedEvent
  split
  · refine SameRecord.recorded ?_ e
    exact ⟨rfl, rfl, rfl, rfl, rfl, rfl, rfl, rfl, rfl, rfl⟩
  · refine SameRecord.recorded ?_ e
    unfold ownedBookkeeping
    split
    · exact sameRecord_entryLeg s e
    · exact ⟨rfl, rfl, rfl, rfl, rfl, rfl, rfl, rfl, rfl, rfl⟩
    · exact ⟨rfl, rfl, rfl, rfl, rfl, rfl, rfl, rfl, rfl, rfl⟩
    · exact SameRecord.refl s

variable {generation : Nat} {e : BrokerOrderEvent}

/-- **Every event that is not ignored is recorded.** -/
theorem applyBrokerEvent_recorded (h : applyBrokerEvent s generation e = some t) : Recorded s e.eventId t := by
  unfold applyBrokerEvent at h
  split at h
  · cases h
  split at h
  · cases h
    exact (sameRecord_entryLeg s e).recorded e
  split at h
  · cases h
    exact recorded_reopen s e
  split at h
  · cases h
    exact recorded_reopen s e
  split at h
  · cases h
  split at h
  · cases h
    refine SameRecord.recorded ?_ e
    exact ⟨rfl, rfl, rfl, rfl, rfl, rfl, rfl, rfl, rfl, rfl⟩
  split at h
  · cases h
    exact (SameRecord.refl s).recorded e
  split at h
  · cases h
    exact recorded_owned s e
  · cases h
    exact recorded_live s e

theorem applyBrokerEvent_seen (h : e.eventId ∈ s.seenEventIds) : applyBrokerEvent s generation e = none := by
  simp [applyBrokerEvent, h]

theorem releaseKeeper_record (s : SagaState) (r : Release) :
    (releaseKeeper s r).revision = s.revision + 1 ∧ (releaseKeeper s r).seenEventIds = s.seenEventIds := by
  have hbase : SameRecord { s with revision := s.revision + 1 } (releaseBase s r) :=
    ⟨rfl, rfl, rfl, rfl, rfl, rfl, rfl, rfl, rfl, rfl⟩
  have hstop := hbase.trans (sameRecord_applyEvent _ (releaseEvent r r.stopGroup .stop "stop" r.stopStatus))
  unfold releaseKeeper
  dsimp only
  split
  · rename_i group status _
    have h := hstop.trans (sameRecord_applyEvent _
      (releaseEvent r group .takeProfit "target" (status.getD (.other "Unknown"))))
    split
    · exact ⟨h.revision, h.seenEventIds⟩
    · exact ⟨h.revision, h.seenEventIds⟩
  · split
    · exact ⟨hstop.revision, hstop.seenEventIds⟩
    · exact ⟨hstop.revision, hstop.seenEventIds⟩

variable {op : SagaOp} {st : StoredSaga}

/-- **Every writer builds on the row it read**: one revision more, and no event id forgotten. -/
theorem buildRow_spec {t : Int} {new : SagaState} (h : op.buildRow t st = some new) :
    new.revision = st.row.revision + 1 ∧ st.row.seenEventIds ⊆ new.seenEventIds ∧
      ∀ id, op.eventId = some id → id ∈ new.seenEventIds := by
  have hrec : ∀ {e : BrokerOrderEvent} {u : SagaState}, Recorded st.row e.eventId u →
      u.revision = st.row.revision + 1 ∧ st.row.seenEventIds ⊆ u.seenEventIds ∧
        ∀ id, some e.eventId = some id → id ∈ u.seenEventIds := by
    intro e u hu
    refine ⟨hu.revision, by simp [hu.seenEventIds], ?_⟩
    intro id hid
    cases hid
    simp [hu.seenEventIds]
  cases op with
  | submit generation baseline now => cases h; exact ⟨rfl, List.Subset.refl _, by simp [SagaOp.eventId]⟩
  | postSubmit outcome returnedAt now =>
    simp only [SagaOp.buildRow, afterDispatch] at h
    split at h
    · cases h
    · cases h
      cases outcome <;> exact ⟨rfl, List.Subset.refl _, by simp [SagaOp.eventId]⟩
  | event e =>
    simp only [SagaOp.buildRow] at h
    split at h
    · exact hrec (applyBrokerEvent_recorded h)
    · cases h
  | handover accountId conid closeRootId cancels generation now =>
    simp only [SagaOp.buildRow, own] at h
    split at h
    · split at h
      · cases h
      · cases h
        exact ⟨rfl, List.Subset.refl _, by simp [SagaOp.eventId]⟩
    · cases h
  | expectReprotect closeRootId groups first now =>
    simp only [SagaOp.buildRow] at h
    split at h
    · cases h
      exact ⟨rfl, List.Subset.refl _, by simp [SagaOp.eventId]⟩
    · cases h
  | release r keeper =>
    simp only [SagaOp.buildRow] at h
    split at h
    · cases h
      split
      · have hk := releaseKeeper_record st.row r
        exact ⟨hk.1, hk.2.symm ▸ List.Subset.refl _, by simp [SagaOp.eventId]⟩
      · exact ⟨rfl, List.Subset.refl _, by simp [SagaOp.eventId]⟩
    · cases h
  | closeAfterFull closeRootId now =>
    simp only [SagaOp.buildRow] at h
    split at h
    · cases h
      exact ⟨rfl, List.Subset.refl _, by simp [SagaOp.eventId]⟩
    · cases h
  | retireOrphan enumeration settle =>
    simp only [SagaOp.buildRow] at h
    split at h
    · cases h
      exact ⟨rfl, List.Subset.refl _, by simp [SagaOp.eventId]⟩
    · cases h
  | reconcile e =>
    simp only [SagaOp.buildRow] at h
    split at h
    · cases h
      exact hrec (recorded_reopen st.row e)
    · cases h

theorem build_spec {t : Int} {st' : StoredSaga} (h : op.build t st = some st') :
    ∃ new, op.buildRow t st = some new ∧ st' = st.save new := by
  obtain ⟨new, hnew, rfl⟩ := Option.map_eq_some_iff.mp h
  exact ⟨new, hnew, rfl⟩

def sagaProtocol : Optimistic.Protocol StoredSaga SagaOp Int JournalKey SagaMutation where
  rev st := st.row.revision
  build := SagaOp.build
  entry := SagaOp.entry
  attempts := SagaOp.attempts
  build_rev h := by
    obtain ⟨new, hnew, rfl⟩ := build_spec h
    exact (buildRow_spec hnew).1

end MmrTrader.Saga
