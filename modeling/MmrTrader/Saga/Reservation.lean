import MmrTrader.Dispatch.Guard
import MmrTrader.Saga.Store
import MmrTrader.Saga.Events

/-!
# Entries of one account: lock, reservation, gross check and send

The starts of one process and what interleaves with them: each entry inserts its VALIDATED row,
takes the account entry lock, reads the in-flight entries, runs the dispatch guard, commits
SUBMITTING and calls `submit_bracket`; broker events, handovers, reconciliations and orphan
retirements write rows in between, and the process may restart.  A reduction skips the lock and
the list.  Row writes are atomic here: a writer's commit is checked against the revision it read.

* `inFlightEntries` — the reservation list.
-/

set_option autoImplicit false

namespace MmrTrader.Saga

open MmrTrader.Dispatch

/-- A row of `automated_order_sagas`. -/
structure EntryRow where
  saga : StoredSaga
  updatedAt : Int
  deriving DecidableEq

def EntryRow.commandId (r : EntryRow) : String := r.saga.row.commandId

def SagaStateName.mayWorkEntry : SagaStateName → Bool
  | .SUBMITTING | .OUTCOME_UNKNOWN | .ENTRY_WORKING | .PARTIALLY_FILLED | .SAFETY_FAILED | .CLOSE_OWNED => true
  | _ => false

/-- `unfilled` of `in_flight_entries`. -/
def unfilledPart (s : SagaState) : ℚ :=
  if s.state.mayWorkEntry && !s.entryCancelled then max 0 (s.requestedQuantity - s.filledQuantity) else 0

/-- `filled` of `in_flight_entries`. -/
def filledPart (s : SagaState) : ℚ := if s.stopFilled || s.targetFilled then 0 else s.filledQuantity

def entryLimitPrice (s : SagaState) : Option ℚ :=
  (s.planJson.bind fun plan => plan.legs.head?.bind (·.limitPrice)).filter (0 < ·)

/-- Does `in_flight_entries` list this row? -/
def countsInFlight (accountId excludeCommandId : String) (s : SagaState) : Bool :=
  decide (s.state ≠ .VALIDATED) && s.accountId == accountId && s.commandId != excludeCommandId &&
    s.side == .BUY && (decide (0 < unfilledPart s) || decide (0 < filledPart s))

/-- The list element of a row; `none` when it has no entry limit price. -/
def inFlightEntry (r : EntryRow) : Option InFlightEntry :=
  let s := r.saga.row
  (entryLimitPrice s).map fun price =>
    { orderGroupId := s.orderGroupId
      conid := s.conid
      unfilledQuantity := unfilledPart s
      filledQuantity := filledPart s
      limitPrice := price
      filledAt := s.filledAt.or (if 0 < filledPart s then some r.updatedAt else none)
      baselinePosition := s.baselinePosition }

/-- `in_flight_entries`; `none` when it raises. -/
def inFlightEntries (accountId excludeCommandId : String) (rows : List EntryRow) :
    Option (List InFlightEntry) :=
  (rows.filter fun r => countsInFlight accountId excludeCommandId r.saga.row).mapM inFlightEntry

/-! ## The system -/

/-- One `start` after the session risk approved it.  The last fields are what its callers promise:
    only approved BUY orders of the automated actions come here, and the approval was made for the
    order, without allocation evidence. -/
structure EntryStart where
  commandId : String
  conid : Int
  quantity : ℚ
  limitPrice : ℚ
  plan : BracketPlan
  approval : ApprovalContext
  request : GuardRequest
  artifactDigest : String
  artifactMaxGross : ℚ
  authorityDigest : Option String
  effectiveGrossCeiling : Option ℚ
  now : Int
  quantity_pos : 0 < quantity
  approved_quantity : approval.quantity = quantity
  approved_side : approval.side = .BUY
  approved_bare : approval.allocation = none
  automated : request.automated = true

def EntryStart.isReduction (e : EntryStart) : Bool := e.approval.riskDirection == .REDUCING

def EntryStart.validated (e : EntryStart) (accountId : String) : SagaState :=
  { commandId := e.commandId
    orderGroupId := "og-" ++ e.commandId
    orderRef := "mmr:og-" ++ e.commandId
    state := .VALIDATED
    accountId := accountId
    conid := e.conid
    side := .BUY
    requestedQuantity := e.quantity
    planJson := some e.plan
    revision := 1 }

def EntryStart.withAllocationEvidence (e : EntryStart) (inFlight : List InFlightEntry) : ApprovalContext :=
  match e.effectiveGrossCeiling with
  | none => e.approval
  | some ceiling =>
      { e.approval with
        allocation := some {
          artifactDigest := e.artifactDigest
          artifactMaxGross := e.artifactMaxGross
          authorityDigest := e.authorityDigest
          effectiveGrossCeiling := ceiling
          entryLimitPrice := e.limitPrice
          inFlightEntries := inFlight } }

structure ListRead where
  rows : List EntryRow
  entries : List InFlightEntry

structure GuardPass where
  list : ListRead
  readings : GuardReadings

inductive StartPhase where
  /-- The VALIDATED row is saved. -/
  | waiting
  /-- The account entry lock is held. -/
  | locked
  | listed (l : ListRead)
  | permitted (p : GuardPass)
  /-- SUBMITTING is committed; `submit_bracket` comes next. -/
  | committed (p : GuardPass)
  /-- `submit_bracket` was called. -/
  | sent
  | done

structure StartThread where
  start : EntryStart
  phase : StartPhase

/-- `entries` is a ghost: the command ids of the entries that committed SUBMITTING. -/
structure EntrySystem where
  rows : List EntryRow
  holder : Option Nat
  threads : List StartThread
  entries : List String

def EntrySystem.empty : EntrySystem := ⟨[], none, [], []⟩

inductive EntryAction where
  | start (e : EntryStart)
  | acquire (i : Nat)
  | readInFlight (i : Nat)
  | guard (i : Nat) (readings : GuardReadings)
  /-- The enumeration read, the send gate and the SUBMITTING commit. -/
  | commit (i : Nat) (enumeration : Except String (Option Nat)) (gate : Option String)
  | submit (i : Nat)
  | finish (i : Nat) (outcome : SendOutcome) (returnedAt : Int)
  /-- An exception leaves `start`, at any point. -/
  | raise (i : Nat)
  /-- Another writer of a row, from its read to its commit. -/
  | write (commandId : String) (op : SagaOp) (t : Int)
  | restart

/-- The writers outside `start`. -/
def SagaOp.isOutside : SagaOp → Bool
  | .event _ | .reconcile _ | .handover .. | .retireOrphan .. => true
  | _ => false

/-- `retire_orphans` takes the account lock first. -/
def SagaOp.mayRun (op : SagaOp) (holder : Option Nat) : Bool :=
  op.isOutside && (match op with
    | .retireOrphan .. => holder.isNone
    | _ => true)

variable (cfg : GuardConfig)

def saveRow (rows : List EntryRow) (commandId : String) (new : SagaState) (now : Int) : List EntryRow :=
  rows.map fun r => if r.commandId = commandId then ⟨r.saga.save new, now⟩ else r

def EntrySystem.setPhase (s : EntrySystem) (i : Nat) (e : EntryStart) (ph : StartPhase) : EntrySystem :=
  { s with threads := s.threads.set i ⟨e, ph⟩ }

/-- Leave the lock, if this thread holds it. -/
def EntrySystem.leave (s : EntrySystem) (i : Nat) (e : EntryStart) : EntrySystem :=
  { s.setPhase i e .done with holder := if s.holder = some i then none else s.holder }

def loadRow (rows : List EntryRow) (commandId : String) : Option EntryRow :=
  rows.find? fun r => r.commandId = commandId

def EntrySystem.rowOf (s : EntrySystem) (commandId : String) : Option EntryRow := loadRow s.rows commandId

/-- A save of `start` under the revision check; a conflict raises. -/
def EntrySystem.persist (s : EntrySystem) (e : EntryStart) (new : SagaState) : Option EntrySystem :=
  match s.rowOf e.commandId with
  | some r =>
      if r.saga.row.revision + 1 = new.revision then
        some { s with rows := saveRow s.rows e.commandId new e.now }
      else none
  | none => none

def EntrySystem.refuse (s : EntrySystem) (i : Nat) (e : EntryStart) (code : String) : EntrySystem :=
  let closed := { e.validated cfg.accountId with state := .CLOSED, errorCode := some code, revision := 2 }
  ((s.persist e closed).getD s).leave i e

def EntryStart.submitting (e : EntryStart) (accountId : String) (generation : Option Nat) : SagaState :=
  submittingRow (e.validated accountId) generation (e.approval.broker.reducibleQuantity e.conid) e.now

def entryStep (s : EntrySystem) : EntryAction → EntrySystem
  | .start e =>
      -- `start` returns the row a command already has
      if (s.rowOf e.commandId).isSome then s
      else
        { s with
          rows := s.rows ++ [⟨⟨e.validated cfg.accountId, []⟩, e.now⟩]
          threads := s.threads ++ [⟨e, .waiting⟩] }
  | .acquire i =>
      match s.threads[i]? with
      | some ⟨e, .waiting⟩ =>
          if e.isReduction then s.setPhase i e (.listed ⟨s.rows, []⟩)
          else if s.holder = none then { s.setPhase i e .locked with holder := some i }
          else s
      | _ => s
  | .readInFlight i =>
      match s.threads[i]? with
      | some ⟨e, .locked⟩ =>
          match inFlightEntries cfg.accountId e.commandId s.rows with
          | some entries => s.setPhase i e (.listed ⟨s.rows, entries⟩)
          | none => s.refuse cfg i e "IN_FLIGHT_STATE_UNAVAILABLE"
      | _ => s
  | .guard i readings =>
      match s.threads[i]? with
      | some ⟨e, .listed l⟩ =>
          match revalidate cfg (e.withAllocationEvidence l.entries) e.request readings e.now with
          | .ok () => s.setPhase i e (.permitted ⟨l, readings⟩)
          | .error code => s.refuse cfg i e code
      | _ => s
  | .commit i enumeration gate =>
      match s.threads[i]? with
      | some ⟨e, .permitted p⟩ =>
          match enumeration, gate with
          | .error _, _ => s.refuse cfg i e "BROKER_GENERATION_UNAVAILABLE"
          | .ok _, some code => s.refuse cfg i e code
          | .ok generation, none =>
              match s.persist e (e.submitting cfg.accountId generation) with
              | some s' =>
                  { s'.setPhase i e (.committed p) with
                    entries := if e.isReduction then s.entries else s.entries ++ [e.commandId] }
              | none => s.leave i e
      | _ => s
  | .submit i =>
      match s.threads[i]? with
      | some ⟨e, .committed _⟩ => s.setPhase i e .sent
      | _ => s
  | .finish i outcome returnedAt =>
      match s.threads[i]? with
      | some ⟨e, .sent⟩ =>
          match (s.rowOf e.commandId).bind fun r => afterDispatch outcome returnedAt r.saga.row with
          | some new => { s with rows := saveRow s.rows e.commandId new e.now }.leave i e
          | none => s.leave i e
      | _ => s
  | .raise i =>
      match s.threads[i]? with
      | some ⟨e, _⟩ => s.leave i e
      | none => s
  | .write commandId op t =>
      match s.rowOf commandId with
      | some r =>
          if op.mayRun s.holder then
            match op.buildRow t r.saga with
            | some new => { s with rows := saveRow s.rows commandId new (op.writeTime t) }
            | none => s
          else s
      | none => s
  | .restart => { s with threads := [], holder := none }

end MmrTrader.Saga

/-!
## The reservation of a sent entry

* `SentRow` — what holds of the row of an entry once it committed SUBMITTING, under every write;
* `SentRow.counted` — such a row is listed as in flight unless its entry or its exit is recorded
  as ended.
-/

namespace MmrTrader.Saga

open MmrTrader.Dispatch

/-- The unfilled part of the entry is recorded as ended: cancelled or rejected by the broker,
    refused at the send, or never sent. -/
def entryEnded (s : SagaState) : Bool :=
  s.entryCancelled || s.state == .NOT_SENT || (s.state == .CLOSED && s.errorCode == some "BROKER_REJECTED")

def exitFilled (s : SagaState) : Bool := s.stopFilled || s.targetFilled

/-! ## Rows that committed SUBMITTING -/

structure SentRow (s : SagaState) : Prop where
  requested : 0 < s.requestedQuantity
  filled : 0 ≤ s.filledQuantity
  sent : s.state ≠ .VALIDATED
  full : s.state = .PROTECTED → s.requestedQuantity ≤ s.filledQuantity
  exiting : s.state = .EXITING → exitFilled s = true
  closed : s.state = .CLOSED → entryEnded s = true ∨ exitFilled s = true

variable {s : SagaState}

/-- **A sent row is in flight** until its entry or its exit is recorded as ended. -/
theorem SentRow.counted (h : SentRow s) (hend : entryEnded s = false)
    (hexit : exitFilled s = false) : 0 < unfilledPart s ∨ 0 < filledPart s := by
  have hfilled : filledPart s = s.filledQuantity := by
    unfold filledPart
    rw [if_neg]
    exact Bool.not_eq_true _ ▸ hexit
  by_cases hwork : s.state.mayWorkEntry = true
  · have hcan : s.entryCancelled = false := by
      simp only [entryEnded, Bool.or_eq_false_iff] at hend
      exact hend.1.1
    rcases lt_or_ge s.filledQuantity s.requestedQuantity with hlt | hge
    · refine Or.inl ?_
      unfold unfilledPart
      rw [if_pos (by simp [hwork, hcan])]
      exact lt_max_of_lt_right (sub_pos.mpr hlt)
    · exact Or.inr (hfilled ▸ h.requested.trans_le hge)
  · cases hst : s.state with
    | VALIDATED => exact absurd hst h.sent
    | PROTECTED => exact Or.inr (hfilled ▸ h.requested.trans_le (h.full hst))
    | EXITING => rw [h.exiting hst] at hexit; cases hexit
    | CLOSED =>
      rcases h.closed hst with hc | hc
      · rw [hc] at hend; cases hend
      · rw [hc] at hexit; cases hexit
    | NOT_SENT => simp [entryEnded, hst] at hend
    | _ => simp [hst, SagaStateName.mayWorkEntry] at hwork

/-- States that say nothing about the fill. -/
def SagaStateName.isPlain : SagaStateName → Bool
  | .VALIDATED | .PROTECTED | .EXITING | .CLOSED => false
  | _ => true

variable {t : SagaState}

theorem SentRow.plain (h : SentRow s) (hreq : t.requestedQuantity = s.requestedQuantity)
    (hfil : s.filledQuantity ≤ t.filledQuantity) (hst : t.state.isPlain = true) : SentRow t := by
  refine ⟨hreq ▸ h.requested, h.filled.trans hfil, ?_, ?_, ?_, ?_⟩ <;>
    · intro heq
      rw [heq] at hst
      cases hst

theorem SentRow.keep (h : SentRow s) (hs : s.state ≠ .CLOSED) (hstate : t.state = s.state) (hf : EventFrame s t) : SentRow t := by
  refine ⟨hf.requested ▸ h.requested, h.filled.trans hf.filled, hstate ▸ h.sent, ?_, ?_, ?_⟩
  · intro hp
    exact hf.requested ▸ (h.full (hstate ▸ hp)).trans hf.filled
  · intro he
    have hexit := h.exiting (hstate ▸ he)
    simp only [exitFilled, Bool.or_eq_true] at hexit ⊢
    exact hexit.imp hf.stopFilled hf.targetFilled
  · intro hc
    exact absurd (hstate ▸ hc) hs

variable {e : BrokerOrderEvent}

theorem chooseState_sent (h : SentRow s) (hs : s.state ≠ .CLOSED) : SentRow (chooseState s e) := by
  unfold chooseState
  dsimp only
  split
  · rename_i hc
    simp only [Bool.and_eq_true] at hc
    exact ⟨h.requested, h.filled, by simp, by simp, by simp, fun _ => Or.inl (by simp [entryEnded, hc.1])⟩
  split
  · rename_i hx
    split
    · exact ⟨h.requested, h.filled, by simp, by simp, by simp, fun _ => Or.inr hx⟩
    · exact ⟨h.requested, h.filled, by simp, by simp, fun _ => hx, by simp⟩
  split
  · exact h.plain rfl (le_refl _) rfl
  split
  · rename_i hfull
    simp only [Bool.and_eq_true, decide_eq_true_eq] at hfull
    exact ⟨h.requested, h.filled, by simp, fun _ => hfull.1.1, by simp, by simp⟩
  split
  · exact h.plain rfl (le_refl _) rfl
  split
  · exact h.plain rfl (le_refl _) rfl
  · exact ⟨h.requested, h.filled, h.sent, h.full, h.exiting, fun hc => absurd hc hs⟩

theorem applyLeg_state (s : SagaState) (e : BrokerOrderEvent) : (applyLeg s e).state = s.state := by
  unfold applyLeg
  split
  · exact (applyEntryLeg_frame s e).state
  · exact (applyStopLeg_spec s e.status).1.state
  · exact (applyTargetLeg_spec s e.status).1.state
  · rfl

theorem applyEvent_sent (h : SentRow s) (hs : s.state ≠ .CLOSED) : SentRow (applyEvent s e) := by
  have hstate := applyLeg_state s e
  have hleg := h.keep hs hstate (applyLeg_frame s e)
  unfold applyEvent
  dsimp only
  split
  · -- a rejected parent: the rejection is recorded on the row
    rename_i hrej
    simp only [Bool.and_eq_true, beq_iff_eq] at hrej
    have hcan : (applyLeg s e).entryCancelled = true := by
      simp only [applyLeg, hrej.1]
      exact applyEntryLeg_cancelled s e (by simp [hrej.2])
    exact ⟨hleg.requested, hleg.filled, by simp, by simp, by simp, fun _ => Or.inl (by simp [entryEnded, hcan])⟩
  · exact chooseState_sent hleg (hstate.trans_ne hs)

theorem SentRow.record (h : SentRow t) : SentRow (recordEvent s t e) :=
  ⟨h.requested, h.filled, h.sent, h.full, h.exiting, h.closed⟩

theorem reopen_sent (h : SentRow s) : SentRow (reopenTerminalRow s e) := by
  have hbase : SentRow { s with state := .OUTCOME_UNKNOWN, errorCode := some "ORPHAN_ORDER_FOUND" } :=
    h.plain rfl (le_refl _) rfl
  have hev := applyEvent_sent (e := e) hbase (by simp)
  unfold reopenTerminalRow
  dsimp only
  refine SentRow.record ?_
  split
  · exact hev.plain rfl (le_refl _) rfl
  · exact hev

theorem live_sent (h : SentRow s) (hs : s.state ≠ .CLOSED) : SentRow (onLiveEvent s e) := by
  have hev := applyEvent_sent (e := e) h hs
  unfold onLiveEvent
  dsimp only
  refine SentRow.record ?_
  split
  · exact ⟨hev.requested, hev.filled, hev.sent, hev.full, hev.exiting, hev.closed⟩
  · exact hev

theorem owned_sent (h : SentRow s) (hs : s.state = .CLOSE_OWNED) : SentRow (onOwnedEvent s e) := by
  have hplain : s.state.isPlain = true := by
    rw [hs]
    rfl
  unfold onOwnedEvent
  split
  · exact SentRow.record (h.plain rfl (le_refl _) rfl)
  · refine SentRow.record ?_
    unfold ownedBookkeeping
    split
    · have hfr := applyEntryLeg_frame s e
      exact h.plain hfr.requested (applyEntryLeg_grows s e) (hfr.state ▸ hplain)
    · exact h.plain rfl (le_refl _) hplain
    · exact h.plain rfl (le_refl _) hplain
    · exact h

theorem applyBrokerEvent_sent {generation : Nat} (h : SentRow s)
    (hev : applyBrokerEvent s generation e = some t) : SentRow t := by
  unfold applyBrokerEvent at hev
  split at hev
  · cases hev
  split at hev
  · rename_i hsf
    cases hev
    have hfr := applyEntryLeg_frame s e
    exact SentRow.record (h.plain hfr.requested (applyEntryLeg_grows s e) (by rw [hfr.state, hsf.1]; rfl))
  split at hev
  · cases hev
    exact reopen_sent h
  split at hev
  · cases hev
    exact reopen_sent h
  split at hev
  · cases hev
  rename_i hterm
  have hs : s.state ≠ .CLOSED := by
    intro hc
    simp [hc, SagaStateName.isTerminal] at hterm
  split at hev
  · cases hev
    exact SentRow.record ⟨h.requested, h.filled, h.sent, h.full, h.exiting, h.closed⟩
  split at hev
  · cases hev
    exact SentRow.record h
  split at hev
  · rename_i howned
    cases hev
    exact owned_sent h howned
  · cases hev
    exact live_sent h hs

variable {op : SagaOp} {st : StoredSaga} {new : SagaState}

/-- Every writer outside `start` keeps a sent row a sent row. -/
theorem outside_sent {t : Int} (hop : op.isOutside = true)
    (h : SentRow st.row) (hb : op.buildRow t st = some new) : SentRow new := by
  cases op with
  | event e =>
    simp only [SagaOp.buildRow] at hb
    split at hb
    · exact applyBrokerEvent_sent h hb
    · cases hb
  | handover accountId conid closeRootId cancels generation now =>
    simp only [SagaOp.buildRow, own] at hb
    split at hb
    · split at hb
      · cases hb
      · cases hb
        exact h.plain rfl (le_refl _) rfl
    · cases hb
  | retireOrphan enumeration settle =>
    simp only [SagaOp.buildRow] at hb
    split at hb
    · cases hb
      exact h.plain rfl (le_refl _) rfl
    · cases hb
  | reconcile e =>
    simp only [SagaOp.buildRow] at hb
    split at hb
    · cases hb
      exact reopen_sent h
    · cases hb
  | _ => cases hop

variable {outcome : SendOutcome} {returnedAt : Int}

theorem afterDispatch_sent (h : SentRow s) (hd : afterDispatch outcome returnedAt s = some new) : SentRow new := by
  unfold afterDispatch at hd
  split at hd
  · cases hd
  · cases hd
    cases outcome with
    | returned ids => exact ⟨h.requested, h.filled, h.sent, h.full, h.exiting, h.closed⟩
    | brokerRejected => exact ⟨h.requested, h.filled, by simp [dispatchChange], by simp [dispatchChange],
        by simp [dispatchChange], fun _ => Or.inl (by simp [entryEnded, dispatchChange])⟩
    | raised => exact h.plain rfl (le_refl _) rfl

/-! ## The table of sent entries -/

structure SentEntry (accountId : String) (s : SagaState) : Prop where
  row : SentRow s
  account : s.accountId = accountId
  side : s.side = .BUY
  revision : 2 ≤ s.revision

/-- What a writer outside `start` leaves alone. -/
theorem outside_record {t : Int} (hop : op.isOutside = true) (hb : op.buildRow t st = some new) :
    new.commandId = st.row.commandId ∧ new.accountId = st.row.accountId ∧ new.side = st.row.side := by
  cases op with
  | event e =>
    simp only [SagaOp.buildRow] at hb
    split at hb
    · have h := applyBrokerEvent_recorded hb
      exact ⟨h.commandId, h.accountId, h.side⟩
    · cases hb
  | handover accountId conid closeRootId cancels generation now =>
    simp only [SagaOp.buildRow, own] at hb
    split at hb
    · split at hb
      · cases hb
      · cases hb
        exact ⟨rfl, rfl, rfl⟩
    · cases hb
  | retireOrphan enumeration settle =>
    simp only [SagaOp.buildRow] at hb
    split at hb
    · cases hb
      exact ⟨rfl, rfl, rfl⟩
    · cases hb
  | reconcile e =>
    simp only [SagaOp.buildRow] at hb
    split at hb
    · cases hb
      have h := recorded_reopen st.row e
      exact ⟨h.commandId, h.accountId, h.side⟩
    · cases hb
  | _ => cases hop

variable {accountId : String}

theorem SentEntry.outside {t : Int}
    (hop : op.isOutside = true) (h : SentEntry accountId st.row) (hb : op.buildRow t st = some new) :
    SentEntry accountId new := by
  obtain ⟨-, hacc, hside⟩ := outside_record hop hb
  have hrev := (buildRow_spec hb).1
  have hge := h.revision
  exact ⟨outside_sent hop h.row hb, hacc.trans h.account, hside.trans h.side, by omega⟩

theorem afterDispatch_record (h : afterDispatch outcome returnedAt s = some new) :
    new.commandId = s.commandId ∧ new.accountId = s.accountId ∧ new.side = s.side ∧
      new.revision = s.revision + 1 := by
  unfold afterDispatch at h
  split at h
  · cases h
  · cases h
    cases outcome <;> exact ⟨rfl, rfl, rfl, rfl⟩

theorem SentEntry.dispatched
    (h : SentEntry accountId s) (hd : afterDispatch outcome returnedAt s = some new) : SentEntry accountId new := by
  obtain ⟨-, hacc, hside, hrev⟩ := afterDispatch_record hd
  have hge := h.revision
  exact ⟨afterDispatch_sent h.row hd, hacc.trans h.account, hside.trans h.side, by omega⟩

theorem EntryStart.submitting_sent (e : EntryStart) (accountId : String) (generation : Option Nat) :
    SentEntry accountId (e.submitting accountId generation) :=
  ⟨⟨e.quantity_pos, le_refl _, by simp [EntryStart.submitting, submittingRow],
    by simp [EntryStart.submitting, submittingRow], by simp [EntryStart.submitting, submittingRow],
    by simp [EntryStart.submitting, submittingRow]⟩, rfl, rfl, le_refl _⟩

def SentTable (accountId : String) (rows : List EntryRow) (entries : List String) : Prop :=
  ∀ c ∈ entries, ∃ r, loadRow rows c = some r ∧ SentEntry accountId r.saga.row

variable {rows : List EntryRow} {c : String} {r : EntryRow}

theorem loadRow_commandId (h : loadRow rows c = some r) : r.commandId = c := by
  simpa using List.find?_some h

theorem loadRow_mem (h : loadRow rows c = some r) : r ∈ rows :=
  List.mem_of_find?_eq_some h

theorem loadRow_save_self (now : Int) (hid : new.commandId = c) (h : loadRow rows c = some r) :
    loadRow (saveRow rows c new now) c = some ⟨r.saga.save new, now⟩ := by
  induction rows with
  | nil => cases h
  | cons q rows ih =>
    simp only [loadRow, saveRow, List.map_cons, List.find?_cons] at h ih ⊢
    by_cases hq : q.commandId = c
    · simp only [hq, decide_true, Option.some.injEq] at h
      subst h
      have hnew : (⟨q.saga.save new, now⟩ : EntryRow).commandId = c := hid
      simp only [hq, if_true, hnew, decide_true]
    · simp only [hq, decide_false, if_false] at h ⊢
      exact ih h

theorem loadRow_save_other {d : String} (now : Int)
    (hid : new.commandId = c) (hne : d ≠ c) : loadRow (saveRow rows c new now) d = loadRow rows d := by
  induction rows with
  | nil => rfl
  | cons q rows ih =>
    simp only [loadRow, saveRow, List.map_cons, List.find?_cons] at ih ⊢
    by_cases hq : q.commandId = c
    · have hnew : ¬ (⟨q.saga.save new, now⟩ : EntryRow).commandId = d := by
        intro h
        exact hne (h.symm.trans hid)
      simp only [hq, if_true, hnew, Ne.symm hne, decide_false] at ih ⊢
      exact ih
    · simp only [hq, if_false]
      split
      · rfl
      · exact ih

variable {entries : List String}

theorem SentTable.save (now : Int) (h : SentTable accountId rows entries) (hid : new.commandId = c)
    (hnew : ∀ r, loadRow rows c = some r → SentEntry accountId r.saga.row → SentEntry accountId new) :
    SentTable accountId (saveRow rows c new now) entries := by
  intro d hd
  obtain ⟨r, hr, hsent⟩ := h d hd
  by_cases hdc : d = c
  · subst hdc
    exact ⟨_, loadRow_save_self now hid hr, hnew r hr hsent⟩
  · exact ⟨r, (loadRow_save_other now hid hdc).trans hr, hsent⟩

theorem SentTable.insert (h : SentTable accountId rows entries) (r : EntryRow) : SentTable accountId (rows ++ [r]) entries := by
  intro c hc
  obtain ⟨q, hq, hsent⟩ := h c hc
  refine ⟨q, ?_, hsent⟩
  unfold loadRow at hq ⊢
  rw [List.find?_append, hq]
  rfl

end MmrTrader.Saga
