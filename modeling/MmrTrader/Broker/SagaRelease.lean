import Mathlib.Data.List.Find
import MmrTrader.Broker.Sync
import MmrTrader.Saga.Events
import MmrTrader.Saga.Store

/-!
# After a release only the new legs count

The ownership operations of `ProtectiveOrderSaga` (`trader/automation/protective_order_saga.py`) on the
saga tables: `handover`, `expect_reprotect`, `release_after_partial` and `close_after_full`, with
broker events of any groups between them.

* `CloseWorld.act` — one operation or one event; `liquidated` lists the sagas `_trip_and_liquidate`
  was called for;
* `new_legs_count` — a release among any operations and events before and after it;
* `release_counts_more` — what the release does not promise: the keeper may be closed or failed, a
  failed saga still records its entry, and a loss of pending legs that another saga holds is not seen.
-/

namespace MmrTrader.Broker

open MmrTrader.Lib
open MmrTrader.Saga (SagaState SagaStateName BrokerOrderEvent OrderStatus Leg ExpectedCancel Release applyBrokerEvent
  applyEvent applyLeg applyEntryLeg applyStopLeg applyTargetLeg chooseState entryFlags entryFill protectionConfirmed isFlat
  isLost onOwnedEvent ownedBookkeeping onPendingEvent onLiveEvent reopenTerminalRow recordEntryAfterSafetyFailure recordEvent
  own ownedBy releaseBase releaseEvent releaseKeeper releaseMerged closeAfterFullRow tripsAndLiquidates isLiveFor)

/-! ## Operations -/

def SagaTables.byCommand (t : SagaTables) (commandId : String) : Option SagaState :=
  t.sagas.find? fun s => s.commandId == commandId

def SagaTables.loadMany (t : SagaTables) (p : SagaState → Bool) : List SagaState :=
  (t.sagas.filter p).insertionSort fun a b => a.commandId ≤ b.commandId

def SagaTables.loadLive (t : SagaTables) (accountId : String) (conid : Option Int) : List SagaState :=
  t.loadMany fun s => isLiveFor s accountId conid

def SagaTables.loadByCloseRoot (t : SagaTables) (closeRootId : String) : List SagaState :=
  t.loadMany fun s => ownedBy s closeRootId

def SagaTables.saveAll (t : SagaTables) (rows : List SagaState) : SagaTables := rows.foldl SagaTables.save t

/-- A broker event or an ownership operation; `handover` without a conid is `handover_account`. -/
inductive CloseAct where
  | event (e : BrokerOrderEvent)
  | handover (accountId : String) (conid : Option Int) (closeRootId : String) (cancels : List ExpectedCancel)
      (generation : Nat)
  | expectReprotect (closeRootId : String) (groups : List String)
  | release (r : Release)
  | closeAfterFull (closeRootId : String)

structure CloseWorld where
  tables : SagaTables
  /-- The sagas `_trip_and_liquidate` was called for. -/
  liquidated : List String

/-- `_trip_and_liquidate`, where it runs. -/
def CloseWorld.incident (w : CloseWorld) (failed : Bool) (commandId : String) : CloseWorld :=
  if failed then { w with liquidated := w.liquidated ++ [commandId] } else w

def CloseWorld.onBrokerEvent (w : CloseWorld) (e : BrokerOrderEvent) : CloseWorld :=
  match w.tables.loadByGroup e.orderGroupId with
  | none => w
  | some (s, generation) =>
      match applyBrokerEvent s generation e with
      | none => w
      | some new => CloseWorld.incident { w with tables := w.tables.save new } (tripsAndLiquidates s new) new.commandId

/-- `handover`, `handover_account`. -/
def SagaTables.handover (t : SagaTables) (accountId : String) (conid : Option Int) (closeRootId : String)
    (cancels : List ExpectedCancel) (generation : Nat) : SagaTables :=
  t.saveAll ((t.loadLive accountId conid).filterMap fun s => own s closeRootId cancels generation)

def SagaTables.expectReprotect (t : SagaTables) (closeRootId : String) (groups : List String) : SagaTables :=
  t.saveAll ((((t.loadByCloseRoot closeRootId).take 1).filter fun s => decide (s.pendingGroups ≠ groups)).map fun s =>
    { s with pendingGroups := groups, revision := s.revision + 1 })

def CloseWorld.releaseAfterPartial (w : CloseWorld) (r : Release) : CloseWorld :=
  match w.tables.loadByCloseRoot r.closeRootId with
  | [] => w
  | keeper :: merged =>
      let released := releaseKeeper keeper r
      CloseWorld.incident { w with tables := w.tables.saveAll (released :: merged.map releaseMerged) }
        (released.state == .SAFETY_FAILED) released.commandId

def SagaTables.closeAfterFull (t : SagaTables) (closeRootId : String) : SagaTables :=
  t.saveAll ((t.loadByCloseRoot closeRootId).map closeAfterFullRow)

def CloseWorld.act (w : CloseWorld) : CloseAct → CloseWorld
  | .event e => w.onBrokerEvent e
  | .handover accountId conid closeRootId cancels generation =>
      { w with tables := w.tables.handover accountId conid closeRootId cancels generation }
  | .expectReprotect closeRootId groups => { w with tables := w.tables.expectReprotect closeRootId groups }
  | .release r => w.releaseAfterPartial r
  | .closeAfterFull closeRootId => { w with tables := w.tables.closeAfterFull closeRootId }

def CloseWorld.run (w : CloseWorld) (acts : List CloseAct) : CloseWorld := acts.foldl CloseWorld.act w

theorem run_append (w : CloseWorld) (acts acts' : List CloseAct) : w.run (acts ++ acts') = (w.run acts).run acts' :=
  List.foldl_append

theorem run_cons (w : CloseWorld) (a : CloseAct) (acts : List CloseAct) : w.run (a :: acts) = (w.act a).run acts := rfl

/-! ## Rows after saves -/

/-- `command_id` is the primary key. -/
def SagaTables.Keyed (t : SagaTables) : Prop := (t.sagas.map (·.commandId)).Nodup

variable {t : SagaTables} {id : String} {s : SagaState}

theorem byCommand_id (h : t.byCommand id = some s) : s.commandId = id := by
  simpa using List.find?_some h

theorem SagaTables.Keyed.find (h : t.Keyed) (hs : s ∈ t.sagas) : t.byCommand s.commandId = some s := by
  obtain ⟨s', hs'⟩ := Option.isSome_iff_exists.mp
    (List.find?_isSome (p := fun r : SagaState => r.commandId == s.commandId).mpr ⟨s, hs, by simp⟩)
  have heq : s' = s := List.inj_on_of_nodup_map h (List.mem_of_find?_eq_some hs') hs (byCommand_id hs')
  rw [SagaTables.byCommand, hs', heq]

theorem keyed_save (h : t.Keyed) (new : SagaState) : (t.save new).Keyed := by
  have hids : (t.save new).sagas.map (·.commandId) = t.sagas.map (·.commandId) := by
    simp only [SagaTables.save, List.map_map]
    refine List.map_congr_left fun s _ => ?_
    simp only [Function.comp]
    split
    · rename_i heq
      exact heq.symm
    · rfl
  rw [SagaTables.Keyed, hids]
  exact h

theorem byCommand_save (t : SagaTables) (new : SagaState) (id : String) :
    (t.save new).byCommand id = if id = new.commandId then (t.byCommand id).map fun _ => new else t.byCommand id := by
  have hcomp : ((fun s : SagaState => s.commandId == id) ∘ fun s => if s.commandId = new.commandId then new else s) =
      fun s => s.commandId == id := by
    funext s
    simp only [Function.comp]
    split
    · rename_i heq
      rw [heq]
    · rfl
  rw [SagaTables.byCommand, SagaTables.save, List.find?_map, hcomp]
  cases hf : t.sagas.find? (fun s => s.commandId == id) with
  | none => simp [SagaTables.byCommand, hf]
  | some s =>
    have hid : s.commandId = id := byCommand_id (t := t) hf
    simp only [SagaTables.byCommand, hf, Option.map_some, hid]
    split <;> rfl

theorem saveAll_cons (t : SagaTables) (new : SagaState) (rows : List SagaState) :
    t.saveAll (new :: rows) = (t.save new).saveAll rows := rfl

theorem keyed_saveAll (h : t.Keyed) (rows : List SagaState) : (t.saveAll rows).Keyed := by
  induction rows generalizing t with
  | nil => exact h
  | cons new rows ih => exact ih (keyed_save h new)

variable {rows : List SagaState}

theorem byCommand_saveAll_other (h : ∀ r ∈ rows, r.commandId ≠ id) : (t.saveAll rows).byCommand id = t.byCommand id := by
  induction rows generalizing t with
  | nil => rfl
  | cons new rows ih =>
    rw [saveAll_cons, ih fun r hr => h r (List.mem_cons_of_mem _ hr), byCommand_save,
      if_neg fun heq => h new List.mem_cons_self heq.symm]

theorem byCommand_saveAll (hnodup : (rows.map (·.commandId)).Nodup) {r : SagaState}
    (hr : r ∈ rows) : (t.saveAll rows).byCommand r.commandId = (t.byCommand r.commandId).map fun _ => r := by
  induction rows generalizing t with
  | nil => cases hr
  | cons new rows ih =>
    obtain ⟨hnew, hrest⟩ := List.nodup_cons.mp hnodup
    rw [saveAll_cons]
    rcases List.mem_cons.mp hr with rfl | hr
    · rw [byCommand_saveAll_other fun s hs heq => hnew (List.mem_map.mpr ⟨s, hs, heq⟩), byCommand_save, if_pos rfl]
    · rw [ih hrest hr, byCommand_save, if_neg fun heq => hnew (List.mem_map.mpr ⟨r, hr, heq⟩)]

theorem mem_loadMany {p : SagaState → Bool} : s ∈ t.loadMany p ↔ s ∈ t.sagas ∧ p s = true := by
  rw [SagaTables.loadMany, (List.perm_insertionSort _ _).mem_iff, List.mem_filter]

theorem loadMany_nodup (h : t.Keyed) (p : SagaState → Bool) : ((t.loadMany p).map (·.commandId)).Nodup := by
  rw [SagaTables.loadMany, ((List.perm_insertionSort _ _).map _).nodup_iff]
  exact (List.filter_sublist.map _).nodup h

variable {s' : SagaState}

theorem byCommand_rebuilt (h : t.Keyed) {loaded : List SagaState} (hloaded : ∀ s ∈ loaded, s ∈ t.sagas)
    (hnodup : (loaded.map (·.commandId)).Nodup) {f : SagaState → Option SagaState}
    (hf : ∀ s s', f s = some s' → s'.commandId = s.commandId) (hs' : (t.saveAll (loaded.filterMap f)).byCommand id = some s') :
    ∃ s, t.byCommand id = some s ∧ (s' = s ∨ s ∈ loaded ∧ f s = some s') := by
  have hids : ((loaded.filterMap f).map (·.commandId)).Nodup := by
    have hsub : ((loaded.filterMap f).map (·.commandId)).Sublist (loaded.map (·.commandId)) := by
      clear hnodup hloaded hs'
      induction loaded with
      | nil => exact .slnil
      | cons s loaded ih =>
        cases hfs : f s with
        | none =>
          rw [List.filterMap_cons_none hfs, List.map_cons]
          exact ih.cons _
        | some new =>
          rw [List.filterMap_cons_some hfs, List.map_cons, List.map_cons, hf s new hfs]
          exact ih.cons_cons _
    exact hsub.nodup hnodup
  by_cases hany : ∃ r ∈ loaded.filterMap f, r.commandId = id
  · obtain ⟨r, hr, rfl⟩ := hany
    obtain ⟨s, hs, hfs⟩ := List.mem_filterMap.mp hr
    have hfind := h.find (hloaded s hs)
    rw [← hf s r hfs] at hfind
    rw [byCommand_saveAll hids hr, hfind] at hs'
    cases hs'
    exact ⟨s, hfind, Or.inr ⟨hs, hfs⟩⟩
  · rw [byCommand_saveAll_other fun r hr heq => hany ⟨r, hr, heq⟩] at hs'
    exact ⟨s', hs', Or.inl rfl⟩

/-! ## Rows -/

/-- What broker events leave alone. -/
structure GroupFrame (s t : SagaState) : Prop where
  commandId : t.commandId = s.commandId
  orderGroupId : t.orderGroupId = s.orderGroupId
  generation : t.protectionGeneration = s.protectionGeneration
  active : t.activeGroups = s.activeGroups
  pending : t.pendingGroups = s.pendingGroups
  lost : t.pendingProtectionLost = s.pendingProtectionLost

theorem GroupFrame.refl (s : SagaState) : GroupFrame s s := ⟨rfl, rfl, rfl, rfl, rfl, rfl⟩

variable {u : SagaState}

theorem GroupFrame.trans {t : SagaState} (h : GroupFrame s t) (h' : GroupFrame t u) : GroupFrame s u :=
  ⟨h'.1.trans h.1, h'.2.trans h.2, h'.3.trans h.3, h'.4.trans h.4, h'.5.trans h.5, h'.6.trans h.6⟩

theorem applyEntryLeg_groups (s : SagaState) (e : BrokerOrderEvent) : GroupFrame s (applyEntryLeg s e) := by
  have hflags : GroupFrame s (entryFlags s e.status) := by
    unfold entryFlags
    split <;> split <;> exact ⟨rfl, rfl, rfl, rfl, rfl, rfl⟩
  have hfill : ∀ t, GroupFrame t (entryFill t e.status e.filledQuantity) := by
    intro t
    unfold entryFill
    split <;> split <;> exact ⟨rfl, rfl, rfl, rfl, rfl, rfl⟩
  have h := hflags.trans (hfill _)
  unfold applyEntryLeg
  dsimp only
  split
  · exact ⟨h.1, h.2, h.3, h.4, h.5, h.6⟩
  · exact h

theorem applyStopLeg_eq (s : SagaState) (status : OrderStatus) : ∃ working rejected filled,
    applyStopLeg s status = { s with stopWorking := working, stopRejected := rejected, stopFilled := filled } ∧
      (filled = s.stopFilled ∨ status = .Filled) := by
  have hcancel : ∀ status : OrderStatus, status = .Cancelled ∨ status = .ApiCancelled →
      applyStopLeg s status = if s.targetFilled then { s with stopWorking := false }
        else { s with stopWorking := false, stopRejected := true } := by
    rintro status (rfl | rfl)
    · rfl
    · rfl
  have hcancelled : ∀ status : OrderStatus, status = .Cancelled ∨ status = .ApiCancelled → ∃ working rejected filled,
      applyStopLeg s status = { s with stopWorking := working, stopRejected := rejected, stopFilled := filled } ∧
        (filled = s.stopFilled ∨ status = .Filled) := by
    intro status h
    rw [hcancel status h]
    split
    · exact ⟨false, s.stopRejected, s.stopFilled, rfl, Or.inl rfl⟩
    · exact ⟨false, true, s.stopFilled, rfl, Or.inl rfl⟩
  cases status with
  | Filled => exact ⟨false, s.stopRejected, true, rfl, Or.inr rfl⟩
  | Cancelled => exact hcancelled _ (Or.inl rfl)
  | ApiCancelled => exact hcancelled _ (Or.inr rfl)
  | _ => exact ⟨_, _, s.stopFilled, rfl, Or.inl rfl⟩

theorem applyTargetLeg_eq (s : SagaState) (status : OrderStatus) : ∃ working rejected filled,
    applyTargetLeg s status = { s with targetWorking := working, targetRejected := rejected, targetFilled := filled } ∧
      (filled = s.targetFilled ∨ status = .Filled) := by
  cases status with
  | Filled => exact ⟨false, s.targetRejected, true, rfl, Or.inr rfl⟩
  | _ => exact ⟨_, _, s.targetFilled, rfl, Or.inl rfl⟩

theorem applyStopLeg_groups (s : SagaState) (status : OrderStatus) : GroupFrame s (applyStopLeg s status) := by
  obtain ⟨working, rejected, filled, heq, -⟩ := applyStopLeg_eq s status
  rw [heq]
  exact ⟨rfl, rfl, rfl, rfl, rfl, rfl⟩

theorem applyTargetLeg_groups (s : SagaState) (status : OrderStatus) : GroupFrame s (applyTargetLeg s status) := by
  obtain ⟨working, rejected, filled, heq, -⟩ := applyTargetLeg_eq s status
  rw [heq]
  exact ⟨rfl, rfl, rfl, rfl, rfl, rfl⟩

theorem chooseState_groups (s : SagaState) (e : BrokerOrderEvent) : GroupFrame s (chooseState s e) := by
  unfold chooseState
  dsimp only
  repeat' split
  all_goals exact ⟨rfl, rfl, rfl, rfl, rfl, rfl⟩

theorem applyEvent_groups (s : SagaState) (e : BrokerOrderEvent) : GroupFrame s (applyEvent s e) := by
  have hleg : GroupFrame s (applyLeg s e) := by
    unfold applyLeg
    split
    · exact applyEntryLeg_groups s e
    · exact applyStopLeg_groups s e.status
    · exact applyTargetLeg_groups s e.status
    · exact .refl s
  unfold applyEvent
  dsimp only
  split
  · exact ⟨hleg.1, hleg.2, hleg.3, hleg.4, hleg.5, hleg.6⟩
  · exact hleg.trans (chooseState_groups _ e)

/-! ### The released row -/

def releaseLegs (r : Release) : List String := r.stopGroup :: (r.target.map (·.1)).toList

/-- The status a release gives for its target; a missing one is unknown. -/
def targetFilled (r : Release) : Prop := ∃ group status, r.target = some (group, status) ∧ status = some .Filled

/-- No exit unless `p`. -/
structure ExitsOnly (p : Prop) (s : SagaState) : Prop where
  entry : s.entryCancelled = false
  exit : s.stopFilled = true ∨ s.targetFilled = true ∨ s.state = .EXITING ∨ s.state = .CLOSED → p

variable {p : Prop}

theorem chooseState_exit (h : ExitsOnly p s) (e : BrokerOrderEvent) : ExitsOnly p (chooseState s e) := by
  obtain ⟨hentry, hexit⟩ := h
  unfold chooseState
  dsimp only
  rw [hentry, Bool.false_and, if_neg Bool.false_ne_true]
  split
  · rename_i hfilled
    have hp : p := hexit (by simpa using (Bool.or_eq_true_iff.mp hfilled).imp_right Or.inl)
    split
    · exact ⟨rfl, fun _ => hp⟩
    · exact ⟨rfl, fun _ => hp⟩
  · rename_i hunfilled
    have hno : s.stopFilled = false ∧ s.targetFilled = false := by simpa using hunfilled
    have hstate : ∀ t : SagaState, t.entryCancelled = false → t.stopFilled = false → t.targetFilled = false →
        t.state ≠ .EXITING → t.state ≠ .CLOSED → ExitsOnly p t := by
      intro t ht hs htf hx hc
      refine ⟨ht, ?_⟩
      rintro (h | h | h | h)
      · rw [hs] at h
        cases h
      · rw [htf] at h
        cases h
      · exact absurd h hx
      · exact absurd h hc
    repeat' split
    all_goals first
      | exact hstate _ rfl hno.1 hno.2 (by rintro ⟨⟩) (by rintro ⟨⟩)
      | exact ⟨rfl, hexit⟩

variable {status : OrderStatus}

theorem applyStopLeg_exit (h : ExitsOnly p s) (hp : status = .Filled → p) : ExitsOnly p (applyStopLeg s status) := by
  obtain ⟨working, rejected, filled, heq, hfilled⟩ := applyStopLeg_eq s status
  rw [heq]
  rcases hfilled with rfl | hfilled
  · exact ⟨h.entry, h.exit⟩
  · exact ⟨h.entry, fun _ => hp hfilled⟩

theorem applyTargetLeg_exit (h : ExitsOnly p s) (hp : status = .Filled → p) : ExitsOnly p (applyTargetLeg s status) := by
  obtain ⟨working, rejected, filled, heq, hfilled⟩ := applyTargetLeg_eq s status
  rw [heq]
  rcases hfilled with rfl | hfilled
  · exact ⟨h.entry, h.exit⟩
  · exact ⟨h.entry, fun _ => hp hfilled⟩

variable {e : BrokerOrderEvent}

theorem applyEvent_exit (h : ExitsOnly p s)
    (hleg : e.leg = .stop ∨ e.leg = .takeProfit) (hp : e.status = .Filled → p) : ExitsOnly p (applyEvent s e) := by
  have hnext : ExitsOnly p (applyLeg s e) := by
    unfold applyLeg
    rcases hleg with hleg | hleg
    · rw [hleg]
      exact applyStopLeg_exit h hp
    · rw [hleg]
      exact applyTargetLeg_exit h hp
  have hentry : (e.leg == Leg.entry) = false := by
    rcases hleg with hleg | hleg
    · rw [hleg]
      rfl
    · rw [hleg]
      rfl
  unfold applyEvent
  rw [hentry, Bool.false_and]
  exact chooseState_exit hnext e

def judgedRow (s : SagaState) (r : Release) : SagaState :=
  let released := applyEvent (releaseBase s r) (releaseEvent r r.stopGroup .stop "stop" r.stopStatus)
  match r.target with
  | some (group, status) =>
      applyEvent released (releaseEvent r group .takeProfit "target" (status.getD (.other "Unknown")))
  | none => released

theorem judgedRow_groups (s : SagaState) (r : Release) : GroupFrame (releaseBase s r) (judgedRow s r) := by
  have hstop := applyEvent_groups (releaseBase s r) (releaseEvent r r.stopGroup .stop "stop" r.stopStatus)
  unfold judgedRow
  dsimp only
  split
  · exact hstop.trans (applyEvent_groups _ _)
  · exact hstop

theorem judgedRow_exit (s : SagaState) (r : Release) :
    ExitsOnly (r.stopStatus = .Filled ∨ targetFilled r) (judgedRow s r) := by
  have hbase : ExitsOnly (r.stopStatus = .Filled ∨ targetFilled r) (releaseBase s r) := by
    refine ⟨rfl, ?_⟩
    rintro (h | h | h | h) <;> cases h
  have hstop : ExitsOnly (r.stopStatus = .Filled ∨ targetFilled r)
      (applyEvent (releaseBase s r) (releaseEvent r r.stopGroup .stop "stop" r.stopStatus)) :=
    applyEvent_exit hbase (Or.inl rfl) Or.inl
  unfold judgedRow
  dsimp only
  split
  · rename_i group status htarget
    refine applyEvent_exit hstop (Or.inr rfl) fun hfilled => Or.inr ⟨group, status, htarget, ?_⟩
    cases status with
    | some status => exact congrArg some hfilled
    | none => cases hfilled
  · exact hstop

structure ReleasedRow (keeper : SagaState) (r : Release) (k : SagaState) : Prop where
  commandId : k.commandId = keeper.commandId
  orderGroupId : k.orderGroupId = keeper.orderGroupId
  generation : k.protectionGeneration = keeper.protectionGeneration + 1
  active : k.activeGroups = releaseLegs r
  pending : k.pendingGroups = []
  isProtected : k.state = .PROTECTED →
    r.stopStatus.isReleaseStop = true ∧ r.protectionProblem = false ∧ keeper.pendingProtectionLost = false
  otherwise : k.state ≠ .PROTECTED → k.state = .SAFETY_FAILED ∧ k.flattenRequested = true ∨
    (k.state = .EXITING ∨ k.state = .CLOSED) ∧ (r.stopStatus = .Filled ∨ targetFilled r)

/-- **What a release makes of its keeper.** -/
theorem releaseKeeper_outcome (s : SagaState) (r : Release) : ReleasedRow s r (releaseKeeper s r) := by
  have hframe := judgedRow_groups s r
  have hexit := judgedRow_exit s r
  have heq : releaseKeeper s r =
      if r.protectionProblem || s.pendingProtectionLost || !r.stopStatus.isReleaseStop ||
          !((judgedRow s r).state == .PROTECTED || (judgedRow s r).state == .EXITING || (judgedRow s r).state == .CLOSED) then
        { judgedRow s r with
          state := .SAFETY_FAILED
          flattenRequested := true
          errorCode := some ((judgedRow s r).errorCode.getD "PROTECTION_LOST_DURING_CLOSE") }
      else judgedRow s r := rfl
  rw [heq]
  split
  · refine ⟨hframe.commandId, hframe.orderGroupId, hframe.generation, hframe.active, hframe.pending, fun h => ?_,
      fun _ => Or.inl ⟨rfl, rfl⟩⟩
    cases h
  · rename_i hjudged
    simp only [Bool.or_eq_true, Bool.not_eq_true', not_or, Bool.not_eq_true, Bool.not_eq_false, beq_iff_eq] at hjudged
    obtain ⟨⟨⟨hproblem, hlost⟩, hstop⟩, hstate⟩ := hjudged
    refine ⟨hframe.commandId, hframe.orderGroupId, hframe.generation, hframe.active, hframe.pending,
      fun _ => ⟨hstop, hproblem, hlost⟩, fun hnot => Or.inr ?_⟩
    rcases hstate with (h | h) | h
    · exact absurd h hnot
    · exact ⟨Or.inl h, hexit.exit (Or.inr (Or.inr (Or.inl h)))⟩
    · exact ⟨Or.inr h, hexit.exit (Or.inr (Or.inr (Or.inr h)))⟩

/-! ### Rows over time -/

/-- A saga's row never goes back a generation, and within one it forgets no loss of a pending leg. -/
structure Moves (s s' : SagaState) : Prop where
  commandId : s'.commandId = s.commandId
  orderGroupId : s'.orderGroupId = s.orderGroupId
  generation : s.protectionGeneration ≤ s'.protectionGeneration
  lost : s'.protectionGeneration = s.protectionGeneration → s.pendingProtectionLost = true →
    s'.pendingProtectionLost = true
  sent : 0 < s.protectionGeneration → s.state ≠ .NOT_SENT → s'.state ≠ .NOT_SENT

theorem Moves.refl (s : SagaState) : Moves s s := ⟨rfl, rfl, le_refl _, fun _ h => h, fun _ h => h⟩

theorem Moves.trans {t : SagaState} (h : Moves s t) (h' : Moves t u) : Moves s u where
  commandId := h'.commandId.trans h.commandId
  orderGroupId := h'.orderGroupId.trans h.orderGroupId
  generation := h.generation.trans h'.generation
  lost heq hlost := by
    have hle := h.generation
    have hle' := h'.generation
    exact h'.lost (by omega) (h.lost (by omega) hlost)
  sent hpos hstate := h'.sent (hpos.trans_le h.generation) (h.sent hpos hstate)

theorem GroupFrame.moves {t : SagaState} (h : GroupFrame s t)
    (hsent : 0 < s.protectionGeneration → s.state ≠ .NOT_SENT → t.state ≠ .NOT_SENT) : Moves s t :=
  ⟨h.commandId, h.orderGroupId, h.generation.ge, fun _ hl => h.lost.trans hl, hsent⟩

theorem chooseState_sent (h : s.state ≠ .NOT_SENT) (e : BrokerOrderEvent) : (chooseState s e).state ≠ .NOT_SENT := by
  unfold chooseState
  dsimp only
  repeat' split
  all_goals first
    | exact h
    | (rintro ⟨⟩)

theorem applyLeg_state (s : SagaState) (e : BrokerOrderEvent) : (applyLeg s e).state = s.state := by
  unfold applyLeg
  split
  · exact (Saga.applyEntryLeg_frame s e).state
  · obtain ⟨_, _, _, heq, -⟩ := applyStopLeg_eq s e.status
    rw [heq]
  · obtain ⟨_, _, _, heq, -⟩ := applyTargetLeg_eq s e.status
    rw [heq]
  · rfl

theorem applyEvent_sent (h : s.state ≠ .NOT_SENT) (e : BrokerOrderEvent) : (applyEvent s e).state ≠ .NOT_SENT := by
  unfold applyEvent
  dsimp only
  split
  · rintro ⟨⟩
  · exact chooseState_sent (by rw [applyLeg_state]; exact h) e

theorem recordEvent_moves {t : SagaState} (h : Moves s t) (e : BrokerOrderEvent) : Moves s (recordEvent s t e) :=
  ⟨h.commandId, h.orderGroupId, h.generation, h.lost, h.sent⟩

theorem ownedBookkeeping_groups (s : SagaState) (e : BrokerOrderEvent) :
    GroupFrame s (ownedBookkeeping s e) ∧ (ownedBookkeeping s e).state = s.state := by
  unfold ownedBookkeeping
  split
  · exact ⟨applyEntryLeg_groups s e, (Saga.applyEntryLeg_frame s e).state⟩
  · exact ⟨⟨rfl, rfl, rfl, rfl, rfl, rfl⟩, rfl⟩
  · exact ⟨⟨rfl, rfl, rfl, rfl, rfl, rfl⟩, rfl⟩
  · exact ⟨.refl s, rfl⟩

theorem onOwnedEvent_moves (s : SagaState) (e : BrokerOrderEvent) : Moves s (onOwnedEvent s e) := by
  unfold onOwnedEvent
  split
  · refine recordEvent_moves ?_ e
    refine ⟨rfl, rfl, le_refl _, fun _ hl => hl, fun _ _ => ?_⟩
    rintro ⟨⟩
  · obtain ⟨hframe, hstate⟩ := ownedBookkeeping_groups s e
    exact recordEvent_moves (hframe.moves fun _ h => by rw [hstate]; exact h) e

theorem onLiveEvent_moves (s : SagaState) (e : BrokerOrderEvent) : Moves s (onLiveEvent s e) := by
  have hframe := applyEvent_groups s e
  unfold onLiveEvent
  dsimp only
  refine recordEvent_moves ?_ e
  split
  · exact ⟨hframe.commandId, hframe.orderGroupId, hframe.generation.ge, fun _ hl => hframe.lost.trans hl,
      fun _ h => applyEvent_sent h e⟩
  · exact hframe.moves fun _ h => applyEvent_sent h e

/-- A row that a close never owned; it is reopened. -/
theorem reopenTerminalRow_moves (e : BrokerOrderEvent)
    (h : 0 < s.protectionGeneration → s.state = .NOT_SENT) : Moves s (reopenTerminalRow s e) := by
  have hframe := applyEvent_groups { s with state := .OUTCOME_UNKNOWN, errorCode := some "ORPHAN_ORDER_FOUND" } e
  unfold reopenTerminalRow
  dsimp only
  refine recordEvent_moves ?_ e
  split
  · exact ⟨hframe.commandId, hframe.orderGroupId, hframe.generation.ge, fun _ hl => hframe.lost.trans hl,
      fun hpos hs => absurd (h hpos) hs⟩
  · exact ⟨hframe.commandId, hframe.orderGroupId, hframe.generation.ge, fun _ hl => hframe.lost.trans hl,
      fun hpos hs => absurd (h hpos) hs⟩

variable {new : SagaState} {g : Nat}

/-- **One broker event.** -/
theorem applyBrokerEvent_moves (h : applyBrokerEvent s g e = some new) : Moves s new := by
  unfold applyBrokerEvent at h
  split at h
  · cases h
  · split at h
    · cases h
      exact recordEvent_moves ((applyEntryLeg_groups s e).moves fun _ hs => by
        rw [(Saga.applyEntryLeg_frame s e).state]
        exact hs) e
    · split at h
      · rename_i hnot
        cases h
        exact reopenTerminalRow_moves e fun _ => hnot
      · split at h
        · rename_i hclosed
          cases h
          refine reopenTerminalRow_moves e fun hpos => ?_
          have hnever := hclosed.2.1
          simp only [Saga.closeOwnedOnce, Bool.or_eq_false_iff, decide_eq_false_iff_not] at hnever
          exact absurd hpos hnever.2
        · split at h
          · cases h
          · split at h
            · cases h
              refine recordEvent_moves ?_ e
              exact ⟨rfl, rfl, le_refl _, fun _ hl => by simp [hl], fun _ hs => hs⟩
            · split at h
              · cases h
                exact recordEvent_moves (.refl s) e
              · split at h
                · cases h
                  exact onOwnedEvent_moves s e
                · cases h
                  exact onLiveEvent_moves s e

theorem own_moves {closeRootId : String} {cancels : List ExpectedCancel} {generation : Nat}
    (h : own s closeRootId cancels generation = some new) : Moves s new := by
  unfold own at h
  dsimp only at h
  split at h
  · cases h
  · cases h
    refine ⟨rfl, rfl, le_refl _, fun _ hl => hl, fun _ _ => ?_⟩
    rintro ⟨⟩

theorem releaseKeeper_moves (s : SagaState) (r : Release) : Moves s (releaseKeeper s r) := by
  have h := releaseKeeper_outcome s r
  refine ⟨h.commandId, h.orderGroupId, by rw [h.generation]; omega, fun heq => ?_, fun _ _ hstate => ?_⟩
  · rw [h.generation] at heq
    omega
  · rcases h.otherwise (by rw [hstate]; rintro ⟨⟩) with ⟨hs, -⟩ | ⟨hs | hs, -⟩
    · rw [hstate] at hs
      cases hs
    · rw [hstate] at hs
      cases hs
    · rw [hstate] at hs
      cases hs

/-! ## Worlds -/

variable {w : CloseWorld}

theorem act_keyed (h : w.tables.Keyed) (a : CloseAct) : (w.act a).tables.Keyed := by
  have hincident : ∀ (w : CloseWorld) failed id, w.tables.Keyed → (w.incident failed id).tables.Keyed := by
    intro w failed id hw
    unfold CloseWorld.incident
    split
    · exact hw
    · exact hw
  cases a with
  | event e =>
    simp only [CloseWorld.act, CloseWorld.onBrokerEvent]
    split
    · exact h
    · split
      · exact h
      · exact hincident _ _ _ (keyed_save h _)
  | handover accountId conid closeRootId cancels generation => exact keyed_saveAll h _
  | expectReprotect closeRootId groups => exact keyed_saveAll h _
  | release r =>
    simp only [CloseWorld.act, CloseWorld.releaseAfterPartial]
    split
    · exact h
    · exact hincident _ _ _ (keyed_saveAll h _)
  | closeAfterFull closeRootId => exact keyed_saveAll h _

@[simp] theorem incident_tables (w : CloseWorld) (failed : Bool) (id : String) : (w.incident failed id).tables = w.tables := by
  unfold CloseWorld.incident
  split
  · rfl
  · rfl

variable {group : String}

theorem loadByGroup_byCommand (h : t.Keyed) (hload : t.loadByGroup group = some (s, g)) : t.byCommand s.commandId = some s := by
  unfold SagaTables.loadByGroup at hload
  split at hload
  · rename_i found hrow
    cases hload
    obtain ⟨⟨id, g'⟩, -, hrow⟩ := Option.bind_eq_some_iff.mp hrow
    obtain ⟨s', hs', heq⟩ := Option.map_eq_some_iff.mp hrow
    cases heq
    exact h.find (List.mem_of_find?_eq_some hs')
  · obtain ⟨s', hs', heq⟩ := Option.map_eq_some_iff.mp hload
    cases heq
    exact h.find (List.mem_of_find?_eq_some hs')

/-- **One act moves every row.** -/
theorem act_moves (h : w.tables.Keyed) (a : CloseAct)
    (hs' : (w.act a).tables.byCommand id = some s') : ∃ s, w.tables.byCommand id = some s ∧ Moves s s' := by
  have hrebuilt : ∀ (loaded : List SagaState) (f : SagaState → Option SagaState), (∀ s ∈ loaded, s ∈ w.tables.sagas) →
      (loaded.map (·.commandId)).Nodup → (∀ s new, f s = some new → Moves s new) →
      (w.tables.saveAll (loaded.filterMap f)).byCommand id = some s' →
      ∃ s, w.tables.byCommand id = some s ∧ Moves s s' := by
    intro loaded f hloaded hnodup hf hfind
    obtain ⟨s, hs, rfl | ⟨-, hfs⟩⟩ :=
      byCommand_rebuilt h hloaded hnodup (fun s new hnew => (hf s new hnew).commandId) hfind
    · exact ⟨s', hs, .refl s'⟩
    · exact ⟨s, hs, hf s s' hfs⟩
  cases a with
  | event e =>
    simp only [CloseWorld.act, CloseWorld.onBrokerEvent] at hs'
    split at hs'
    · exact ⟨s', hs', .refl s'⟩
    · rename_i s g hload
      split at hs'
      · exact ⟨s', hs', .refl s'⟩
      · rename_i new hnew
        have hmoves := applyBrokerEvent_moves hnew
        rw [incident_tables, byCommand_save] at hs'
        split at hs'
        · rename_i hid
          rw [hid, hmoves.commandId, loadByGroup_byCommand h hload] at hs'
          cases hs'
          exact ⟨s, by rw [hid, hmoves.commandId, loadByGroup_byCommand h hload], hmoves⟩
        · exact ⟨s', hs', .refl s'⟩
  | handover accountId conid closeRootId cancels generation =>
    exact hrebuilt _ _ (fun s hs => (mem_loadMany.mp hs).1) (loadMany_nodup h _) (fun s new hnew => own_moves hnew) hs'
  | expectReprotect closeRootId groups =>
    simp only [CloseWorld.act, SagaTables.expectReprotect, ← List.filterMap_eq_map] at hs'
    have hsub : (((w.tables.loadByCloseRoot closeRootId).take 1).filter fun s => decide (s.pendingGroups ≠ groups)).Sublist
        (w.tables.loadByCloseRoot closeRootId) := List.filter_sublist.trans (List.take_sublist _ _)
    refine hrebuilt _ _ (fun s hs => (mem_loadMany.mp (hsub.subset hs)).1) ((hsub.map _).nodup (loadMany_nodup h _)) ?_ hs'
    intro s new hnew
    cases hnew
    exact ⟨rfl, rfl, le_refl _, fun _ hl => hl, fun _ hstate => hstate⟩
  | release r =>
    simp only [CloseWorld.act, CloseWorld.releaseAfterPartial] at hs'
    split at hs'
    · exact ⟨s', hs', .refl s'⟩
    · rename_i keeper merged hload
      rw [incident_tables] at hs'
      have hnodup : ((keeper :: merged).map (·.commandId)).Nodup := hload ▸ loadMany_nodup h _
      have hrows : releaseKeeper keeper r :: merged.map releaseMerged = (keeper :: merged).filterMap fun s =>
          some (if s.commandId = keeper.commandId then releaseKeeper s r else releaseMerged s) := by
        rw [List.filterMap_cons_some (by rw [if_pos rfl])]
        congr 1
        rw [← List.filterMap_eq_map]
        refine List.filterMap_congr fun s hs => ?_
        have hne : s.commandId ≠ keeper.commandId := by
          intro heq
          exact (List.nodup_cons.mp hnodup).1 (List.mem_map.mpr ⟨s, hs, heq⟩)
        rw [if_neg hne]
        rfl
      rw [hrows] at hs'
      refine hrebuilt _ _ (fun s hs => ?_) hnodup ?_ hs'
      · rw [← hload] at hs
        exact (mem_loadMany.mp hs).1
      · intro s new hnew
        cases hnew
        split
        · exact releaseKeeper_moves s r
        · refine ⟨rfl, rfl, le_refl _, fun _ hl => hl, fun _ _ => ?_⟩
          rintro ⟨⟩
  | closeAfterFull closeRootId =>
    simp only [CloseWorld.act, SagaTables.closeAfterFull, ← List.filterMap_eq_map] at hs'
    refine hrebuilt _ _ (fun s hs => (mem_loadMany.mp hs).1) (loadMany_nodup h _) ?_ hs'
    intro s new hnew
    cases hnew
    refine ⟨rfl, rfl, le_refl _, fun _ hl => hl, fun _ _ => ?_⟩
    rintro ⟨⟩

theorem run_keyed (h : w.tables.Keyed) (acts : List CloseAct) : (w.run acts).tables.Keyed := by
  induction acts generalizing w with
  | nil => exact h
  | cons a acts ih => exact ih (act_keyed h a)

/-- **Any acts move every row.** -/
theorem run_moves (h : w.tables.Keyed) (acts : List CloseAct) (hs' : (w.run acts).tables.byCommand id = some s') :
    ∃ s, w.tables.byCommand id = some s ∧ Moves s s' := by
  induction acts generalizing w with
  | nil => exact ⟨s', hs', .refl s'⟩
  | cons a acts ih =>
    obtain ⟨s₁, hs₁, hmoves⟩ := ih (act_keyed h a) hs'
    obtain ⟨s, hs, hmoves'⟩ := act_moves h a hs₁
    exact ⟨s, hs, hmoves'.trans hmoves⟩

/-! ## Groups after saves -/

/-- The groups `save_in_tx` writes for a row. -/
def savedGroups (s : SagaState) : List String := s.pendingGroups ++ s.activeGroups

theorem loadByGroup_lookup {commandId : String}
    (hlookup : t.groups.lookup group = some (commandId, g)) (hs : t.byCommand commandId = some s) :
    t.loadByGroup group = some (s, g) := by
  have hrow : t.byGroupRow group = some (s, g) := by
    rw [SagaTables.byGroupRow, hlookup, Option.bind_some]
    exact congrArg (Option.map (·, g)) hs
  rw [SagaTables.loadByGroup, hrow]

theorem lookup_not_mem {rows : List (String × String × Nat)} (h : group ∉ rows.map (·.1)) : rows.lookup group = none := by
  induction rows with
  | nil => rfl
  | cons row rows ih =>
    rw [List.map_cons, List.mem_cons, not_or] at h
    rw [List.lookup_cons, show (group == row.1) = false by simpa using h.1, ih h.2]

theorem loadByGroup_save (h : t.Keyed) (hkeep : ∀ s ∈ t.sagas, s.commandId = new.commandId → s.orderGroupId = new.orderGroupId)
    (hgroup : group ∉ savedGroups new) (hload : t.loadByGroup group = some (s, g)) :
    ∃ s', (t.save new).loadByGroup group = some (s', g) ∧ (t.save new).byCommand s.commandId = some s' ∧
      s'.commandId = s.commandId := by
  have hs := loadByGroup_byCommand h hload
  obtain ⟨s', hs'⟩ : ∃ s', (t.save new).byCommand s.commandId = some s' := by
    rw [byCommand_save, hs]
    split
    · exact ⟨new, rfl⟩
    · exact ⟨s, rfl⟩
  have hlookup : (t.save new).groups.lookup group = t.groups.lookup group := by
    rw [savedGroups, List.mem_append, not_or] at hgroup
    rw [SagaTables.save, List.append_assoc, List.lookup_append, List.lookup_append, lookup_not_mem, lookup_not_mem]
    · rfl
    · simpa using hgroup.2
    · simpa using hgroup.1
  refine ⟨s', ?_, hs', byCommand_id hs'⟩
  unfold SagaTables.loadByGroup at hload
  split at hload
  · rename_i found hrow
    cases hload
    obtain ⟨⟨id, g'⟩, hfound, hrow⟩ := Option.bind_eq_some_iff.mp hrow
    obtain ⟨s₁, hs₁, heq⟩ := Option.map_eq_some_iff.mp hrow
    cases heq
    have hid : s.commandId = id := byCommand_id (t := t) hs₁
    refine loadByGroup_lookup (hlookup.trans hfound) ?_
    rw [← hid]
    exact hs'
  · rename_i hrow
    obtain ⟨s₁, hs₁, heq⟩ := Option.map_eq_some_iff.mp hload
    cases heq
    have hnone : (t.save new).byGroupRow group = none := by
      rw [SagaTables.byGroupRow, hlookup]
      cases hl : t.groups.lookup group with
      | none => rfl
      | some found =>
        obtain ⟨id, g'⟩ := found
        have hmiss : t.byCommand id = none := by
          rw [SagaTables.byGroupRow, hl, Option.bind_some] at hrow
          exact Option.map_eq_none_iff.mp hrow
        have hmiss' : (t.save new).byCommand id = none := by
          rw [byCommand_save, hmiss]
          split <;> rfl
        rw [Option.bind_some]
        exact congrArg (Option.map (·, g')) hmiss'
    have hcomp : ∀ r ∈ t.sagas, ((fun r : SagaState => r.orderGroupId == group) ∘ fun r =>
        if r.commandId = new.commandId then new else r) r = (r.orderGroupId == group) := by
      intro r hr
      simp only [Function.comp]
      split
      · rename_i heq
        rw [← hkeep r hr heq]
      · rfl
    have hfind : (t.save new).sagas.find? (fun r => r.orderGroupId == group) =
        some (if s.commandId = new.commandId then new else s) := by
      rw [SagaTables.save, List.find?_map, List.find?_congr hcomp, hs₁]
      rfl
    have hrow' : s' = if s.commandId = new.commandId then new else s := by
      rw [byCommand_save, hs] at hs'
      split at hs'
      · rename_i heq
        rw [if_pos heq]
        cases hs'
        rfl
      · rename_i hne
        rw [if_neg hne]
        cases hs'
        rfl
    rw [SagaTables.loadByGroup, hnone, hfind, hrow']
    rfl

theorem loadByGroup_saveAll (h : t.Keyed) (hnodup : (rows.map (·.commandId)).Nodup)
    (hkeep : ∀ r ∈ rows, ∀ s ∈ t.sagas, s.commandId = r.commandId → s.orderGroupId = r.orderGroupId)
    (hgroup : ∀ r ∈ rows, group ∉ savedGroups r) (hload : t.loadByGroup group = some (s, g)) :
    ∃ s', (t.saveAll rows).loadByGroup group = some (s', g) ∧ (t.saveAll rows).byCommand s.commandId = some s' := by
  induction rows generalizing t s with
  | nil => exact ⟨s, hload, loadByGroup_byCommand h hload⟩
  | cons new rows ih =>
    obtain ⟨hnew, hrest⟩ := List.nodup_cons.mp hnodup
    obtain ⟨s₁, hload₁, hs₁, hid⟩ := loadByGroup_save h (hkeep new List.mem_cons_self) (hgroup new List.mem_cons_self) hload
    have hkeep₁ : ∀ r ∈ rows, ∀ s ∈ (t.save new).sagas, s.commandId = r.commandId → s.orderGroupId = r.orderGroupId := by
      intro r hr s hs heq
      obtain ⟨old, hold, rfl⟩ := List.mem_map.mp hs
      split at heq
      · exact absurd (List.mem_map.mpr ⟨r, hr, heq.symm⟩) hnew
      · rename_i hne
        rw [if_neg hne]
        exact hkeep r (List.mem_cons_of_mem _ hr) old hold heq
    obtain ⟨s', hload', hs'⟩ := ih (keyed_save h new) hrest hkeep₁ (fun r hr => hgroup r (List.mem_cons_of_mem _ hr)) hload₁
    rw [saveAll_cons]
    exact ⟨s', hload', hid ▸ hs'⟩

/-! ## Events around a release -/

/-- Nothing but one saga's row changes, and no liquidation starts. -/
structure OnlyRow (w w' : CloseWorld) (id : String) (new : SagaState) : Prop where
  row : w'.tables.byCommand id = some new
  others : ∀ other, other ≠ id → w'.tables.byCommand other = w.tables.byCommand other
  liquidated : w'.liquidated = w.liquidated

theorem event_onlyRow (h : w.tables.Keyed)
    (hload : w.tables.loadByGroup e.orderGroupId = some (s, g)) (hnew : applyBrokerEvent s g e = some new)
    (hstate : new.state = s.state) : OnlyRow w (w.act (.event e)) s.commandId new := by
  have hid := (applyBrokerEvent_moves hnew).commandId
  have hact : w.act (.event e) = { w with tables := w.tables.save new } := by
    have hquiet : tripsAndLiquidates s new = false := by
      rw [tripsAndLiquidates, hstate]
      cases s.state <;> rfl
    simp only [CloseWorld.act, CloseWorld.onBrokerEvent, hload, hnew, hquiet]
    rfl
  rw [hact]
  refine ⟨?_, fun other hother => ?_, rfl⟩
  · rw [byCommand_save, if_pos hid.symm, loadByGroup_byCommand h hload]
    rfl
  · rw [byCommand_save, if_neg (by rw [hid]; exact hother)]

theorem event_ignored (hload : w.tables.loadByGroup e.orderGroupId = some (s, g)) (hnone : applyBrokerEvent s g e = none) :
    w.act (.event e) = w := by
  simp only [CloseWorld.act, CloseWorld.onBrokerEvent, hload, hnone]

/-- The event is new, and a close owns the saga that expects the leg. -/
structure PendingEvent (w : CloseWorld) (e : BrokerOrderEvent) (s : SagaState) : Prop where
  pending : ∃ g, w.tables.loadByGroup e.orderGroupId = some (s, g) ∧ s.protectionGeneration < g
  owned : s.state = .CLOSE_OWNED
  unseen : e.eventId ∉ s.seenEventIds

/-- **Before the release a pending leg's event only records a loss.** -/
theorem pending_recorded (h : w.tables.Keyed)
    (he : PendingEvent w e s) : OnlyRow w (w.act (.event e)) s.commandId { s with
      pendingProtectionLost := s.pendingProtectionLost || isLost s e
      seenEventIds := s.seenEventIds ++ [e.eventId]
      revision := s.revision + 1 } := by
  obtain ⟨⟨g, hload, hg⟩, howned, hunseen⟩ := he
  have hnew : applyBrokerEvent s g e = some (onPendingEvent s e) := by
    unfold applyBrokerEvent
    simp [howned, hunseen, hg, SagaStateName.isTerminal]
  have hrow : onPendingEvent s e = { s with
      pendingProtectionLost := s.pendingProtectionLost || isLost s e
      seenEventIds := s.seenEventIds ++ [e.eventId]
      revision := s.revision + 1 } := by
    simp [onPendingEvent, recordEvent, howned]
  rw [← hrow]
  exact event_onlyRow h hload hnew rfl

/-- **A retired leg's event is recorded and changes nothing else**, unless the saga failed and the leg
    is its entry. -/
theorem retired_recorded (h : w.tables.Keyed)
    (hload : w.tables.loadByGroup e.orderGroupId = some (s, g)) (hg : g < s.protectionGeneration)
    (hsent : s.state ≠ .NOT_SENT) (hentry : ¬ (s.state = .SAFETY_FAILED ∧ e.leg = .entry)) :
    w.act (.event e) = w ∨ OnlyRow w (w.act (.event e)) s.commandId { s with
      seenEventIds := s.seenEventIds ++ [e.eventId]
      revision := s.revision + 1 } := by
  have howned : Saga.closeOwnedOnce s = true := by
    simp only [Saga.closeOwnedOnce, Bool.or_eq_true, decide_eq_true_eq]
    exact Or.inr (Nat.lt_of_le_of_lt (Nat.zero_le g) hg)
  by_cases hunseen : e.eventId ∈ s.seenEventIds
  · exact Or.inl (event_ignored hload (by simp [applyBrokerEvent, hunseen]))
  · by_cases hterminal : s.state.isTerminal = true
    · refine Or.inl (event_ignored hload ?_)
      simp [applyBrokerEvent, hunseen, hentry, hsent, howned, hterminal]
    · have hnot : ¬ g > s.protectionGeneration := by omega
      have hnew : applyBrokerEvent s g e = some (recordEvent s s e) := by
        simp [applyBrokerEvent, hunseen, hentry, hsent, howned, hterminal, hnot, hg]
      exact Or.inr (event_onlyRow h hload hnew rfl)

/-! ## A release -/

def NotMerged (merged : List SagaState) (group : String) : Prop := ∀ s ∈ merged, group ∉ savedGroups s

structure Released (r : Release) (keeper : SagaState) (merged : List SagaState) (before after : CloseWorld)
    (k : SagaState) : Prop where
  row : ReleasedRow keeper r k
  stored : after.tables.byCommand keeper.commandId = some k
  /-- A failed keeper is liquidated. -/
  liquidated : after.liquidated = before.liquidated ++ if k.state = .SAFETY_FAILED then [keeper.commandId] else []
  /-- The other sagas of the root are closed. -/
  closed : ∀ s ∈ merged, ∃ m, after.tables.byCommand s.commandId = some m ∧ m.state = .CLOSED
  others : ∀ id, (∀ s ∈ keeper :: merged, s.commandId ≠ id) → after.tables.byCommand id = before.tables.byCommand id
  /-- The keeper's other groups keep their generation, which is an older one now. -/
  retired : ∀ group g, before.tables.loadByGroup group = some (keeper, g) → group ∉ releaseLegs r → NotMerged merged group →
    after.tables.loadByGroup group = some (k, g)
  /-- The released legs are of the new generation. -/
  legs : ∀ group ∈ releaseLegs r, NotMerged merged group →
    after.tables.loadByGroup group = some (k, k.protectionGeneration)

theorem release_released (h : w.tables.Keyed) {r : Release} {keeper : SagaState} {merged : List SagaState}
    (hload : w.tables.loadByCloseRoot r.closeRootId = keeper :: merged) :
    Released r keeper merged w (w.act (.release r)) (releaseKeeper keeper r) := by
  have hrow := releaseKeeper_outcome keeper r
  have hstored : ∀ s ∈ keeper :: merged, s ∈ w.tables.sagas := fun s hs => (mem_loadMany.mp (hload ▸ hs)).1
  have hnodup : ((keeper :: merged).map (·.commandId)).Nodup := hload ▸ loadMany_nodup h _
  have hids : (releaseKeeper keeper r :: merged.map releaseMerged).map (·.commandId) =
      (keeper :: merged).map (·.commandId) := by
    rw [List.map_cons, List.map_cons, hrow.commandId, List.map_map]
    rfl
  have hnodup' := hids ▸ hnodup
  have htables : (w.act (.release r)).tables =
      w.tables.saveAll (releaseKeeper keeper r :: merged.map releaseMerged) := by
    simp only [CloseWorld.act, CloseWorld.releaseAfterPartial, hload, incident_tables]
  have hkeeper : w.tables.byCommand keeper.commandId = some keeper := h.find (hstored keeper List.mem_cons_self)
  have hk : (w.act (.release r)).tables.byCommand keeper.commandId = some (releaseKeeper keeper r) := by
    rw [htables]
    have hfind := byCommand_saveAll (t := w.tables) hnodup' List.mem_cons_self
    rw [hrow.commandId, hkeeper] at hfind
    exact hfind
  -- every saved row belongs to the same entry bracket as the stored one
  have hsame : ∀ s ∈ w.tables.sagas, ∀ s' ∈ keeper :: merged, s.commandId = s'.commandId →
      s.orderGroupId = s'.orderGroupId := by
    intro s hs s' hs' heq
    rw [List.inj_on_of_nodup_map h hs (hstored s' hs') heq]
  have hkeepMerged : ∀ row ∈ merged.map releaseMerged, ∀ s ∈ w.tables.sagas, s.commandId = row.commandId →
      s.orderGroupId = row.orderGroupId := by
    intro row hr s hs heq
    obtain ⟨m, hm, rfl⟩ := List.mem_map.mp hr
    exact hsame s hs m (List.mem_cons_of_mem _ hm) heq
  have hkeepKeeper : ∀ s ∈ w.tables.sagas, s.commandId = (releaseKeeper keeper r).commandId →
      s.orderGroupId = (releaseKeeper keeper r).orderGroupId := by
    intro s hs heq
    rw [hrow.orderGroupId]
    rw [hrow.commandId] at heq
    exact hsame s hs keeper List.mem_cons_self heq
  have hnotMerged : ∀ group, NotMerged merged group → ∀ row ∈ merged.map releaseMerged, group ∉ savedGroups row := by
    intro group hgroup row hr
    obtain ⟨m, hm, rfl⟩ := List.mem_map.mp hr
    exact hgroup m hm
  refine ⟨hrow, hk, ?_, fun s hs => ?_, fun id hid => ?_, fun group g hgroup hnot hmerged => ?_, fun group hleg hmerged => ?_⟩
  · simp only [CloseWorld.act, CloseWorld.releaseAfterPartial, hload, CloseWorld.incident, beq_iff_eq, hrow.commandId]
    split
    · rfl
    · exact (List.append_nil _).symm
  · refine ⟨releaseMerged s, ?_, rfl⟩
    have hmem : releaseMerged s ∈ releaseKeeper keeper r :: merged.map releaseMerged :=
      List.mem_cons_of_mem _ (List.mem_map.mpr ⟨s, hs, rfl⟩)
    have hfind := byCommand_saveAll (t := w.tables) hnodup' hmem
    rw [show (releaseMerged s).commandId = s.commandId from rfl, h.find (hstored s (List.mem_cons_of_mem _ hs))] at hfind
    rw [htables]
    exact hfind
  · rw [htables]
    refine byCommand_saveAll_other fun row hr heq => ?_
    have hmem : id ∈ (keeper :: merged).map (·.commandId) := by
      rw [← hids]
      exact List.mem_map.mpr ⟨row, hr, heq⟩
    obtain ⟨s, hs, hsid⟩ := List.mem_map.mp hmem
    exact hid s hs hsid
  · have hkeep : ∀ row ∈ releaseKeeper keeper r :: merged.map releaseMerged, ∀ s ∈ w.tables.sagas,
        s.commandId = row.commandId → s.orderGroupId = row.orderGroupId := by
      intro row hr
      rcases List.mem_cons.mp hr with rfl | hr
      · exact hkeepKeeper
      · exact hkeepMerged row hr
    have hapart : ∀ row ∈ releaseKeeper keeper r :: merged.map releaseMerged, group ∉ savedGroups row := by
      intro row hr
      rcases List.mem_cons.mp hr with rfl | hr
      · rw [savedGroups, hrow.pending, hrow.active]
        exact hnot
      · exact hnotMerged group hmerged row hr
    obtain ⟨s', hload', hs'⟩ := loadByGroup_saveAll h hnodup' hkeep hapart hgroup
    rw [← htables] at hload' hs'
    rw [hload', Option.some.inj (hs'.symm.trans hk)]
  · have hlookup : (w.tables.save (releaseKeeper keeper r)).groups.lookup group =
        some ((releaseKeeper keeper r).commandId, (releaseKeeper keeper r).protectionGeneration) := by
      have hfirst : ∀ legs : List String, group ∈ legs →
          (legs.map (·, (releaseKeeper keeper r).commandId, (releaseKeeper keeper r).protectionGeneration)).lookup group =
            some ((releaseKeeper keeper r).commandId, (releaseKeeper keeper r).protectionGeneration) := by
        intro legs hlegs
        induction legs with
        | nil => cases hlegs
        | cons leg legs ih =>
          rw [List.map_cons, List.lookup_cons]
          by_cases heq : group = leg
          · rw [show (group == leg) = true by simpa using heq]
          · rw [show (group == leg) = false by simpa using heq]
            exact ih ((List.mem_cons.mp hlegs).resolve_left heq)
      rw [SagaTables.save, hrow.pending, hrow.active, List.map_nil, List.nil_append, List.lookup_append,
        hfirst _ hleg]
      rfl
    have hsaved : (w.tables.save (releaseKeeper keeper r)).byCommand (releaseKeeper keeper r).commandId =
        some (releaseKeeper keeper r) := by
      rw [byCommand_save, if_pos rfl, hrow.commandId, hkeeper]
      rfl
    obtain ⟨hnew, hrest⟩ := List.nodup_cons.mp hnodup'
    have hkeep : ∀ row ∈ merged.map releaseMerged, ∀ s ∈ (w.tables.save (releaseKeeper keeper r)).sagas,
        s.commandId = row.commandId → s.orderGroupId = row.orderGroupId := by
      intro row hr s hs heq
      obtain ⟨old, hold, rfl⟩ := List.mem_map.mp hs
      split at heq
      · exact absurd (List.mem_map.mpr ⟨row, hr, heq.symm⟩) hnew
      · rename_i hne
        rw [if_neg hne]
        exact hkeepMerged row hr old hold heq
    obtain ⟨s', hload', hs'⟩ := loadByGroup_saveAll (keyed_save h _) hrest hkeep (hnotMerged group hmerged)
      (loadByGroup_lookup hlookup hsaved)
    rw [← saveAll_cons, ← htables] at hload' hs'
    rw [hrow.commandId] at hs'
    rw [hload', Option.some.inj (hs'.symm.trans hk)]

structure NewLegsCount (w : CloseWorld) (pre : List CloseAct) (r : Release) (post : List CloseAct) (keeper : SagaState)
    (merged : List SagaState) : Prop where
  released : ∃ k, Released r keeper merged (w.run pre) (w.run (pre ++ [.release r])) k ∧
    -- a pending leg that the keeper lost while it was owned keeps it from being protected
    ∀ p e q s, pre = p ++ .event e :: q → PendingEvent (w.run p) e s → s.commandId = keeper.commandId →
      s.protectionGeneration = keeper.protectionGeneration → isLost s e = true → k.state ≠ .PROTECTED
  pending : ∀ p e q s, pre = p ++ .event e :: q → PendingEvent (w.run p) e s →
    OnlyRow (w.run p) (w.run (p ++ [.event e])) s.commandId { s with
      pendingProtectionLost := s.pendingProtectionLost || isLost s e
      seenEventIds := s.seenEventIds ++ [e.eventId]
      revision := s.revision + 1 }
  retired : ∀ p e q s g, post = p ++ .event e :: q →
    (w.run (pre ++ .release r :: p)).tables.loadByGroup e.orderGroupId = some (s, g) →
    s.commandId = keeper.commandId → g < s.protectionGeneration → ¬ (s.state = .SAFETY_FAILED ∧ e.leg = .entry) →
    w.run (pre ++ .release r :: (p ++ [.event e])) = w.run (pre ++ .release r :: p) ∨
      OnlyRow (w.run (pre ++ .release r :: p))
        (w.run (pre ++ .release r :: (p ++ [.event e]))) s.commandId { s with
          seenEventIds := s.seenEventIds ++ [e.eventId]
          revision := s.revision + 1 }

/-- **After a release only the new legs count.** -/
theorem new_legs_count {w : CloseWorld} (h : w.tables.Keyed) (pre : List CloseAct) (r : Release) (post : List CloseAct)
    {keeper : SagaState} {merged : List SagaState}
    (hload : (w.run pre).tables.loadByCloseRoot r.closeRootId = keeper :: merged) :
    NewLegsCount w pre r post keeper merged := by
  have hkeyed := run_keyed h pre
  have hrel := release_released hkeyed hload
  have hkeeper : (w.run pre).tables.byCommand keeper.commandId = some keeper :=
    hkeyed.find (mem_loadMany.mp (hload ▸ List.mem_cons_self)).1
  refine ⟨⟨releaseKeeper keeper r, ?_, ?_⟩, ?_, ?_⟩
  · rw [run_append]
    exact hrel
  · rintro p e q s rfl hpending hid hgen hlost hprotected
    have hone := pending_recorded (run_keyed h p) hpending
    rw [run_append, run_cons] at hkeeper
    obtain ⟨s₁, hs₁, hmoves⟩ := run_moves (act_keyed (run_keyed h p) (.event e)) q hkeeper
    rw [← hid, hone.row] at hs₁
    cases hs₁
    have hkept := hmoves.lost hgen.symm (by simp [hlost])
    rw [(hrel.row.isProtected hprotected).2.2] at hkept
    cases hkept
  · rintro p e q s rfl hpending
    rw [run_append]
    exact pending_recorded (run_keyed h p) hpending
  · rintro p e q s g - hgroup hid hg hentry
    have hafter := run_keyed h (pre ++ .release r :: p)
    have hs := loadByGroup_byCommand hafter hgroup
    rw [run_append, run_cons] at hs
    obtain ⟨k, hk, hmoves⟩ := run_moves (act_keyed hkeyed (.release r)) p hs
    rw [hid, hrel.stored] at hk
    cases hk
    have hsent : s.state ≠ .NOT_SENT := by
      refine hmoves.sent (by rw [hrel.row.generation]; omega) fun hstate => ?_
      rcases hrel.row.otherwise (by rw [hstate]; rintro ⟨⟩) with ⟨hs, -⟩ | ⟨hs | hs, -⟩
      · rw [hstate] at hs
        cases hs
      · rw [hstate] at hs
        cases hs
      · rw [hstate] at hs
        cases hs
    have hsplit : w.run (pre ++ .release r :: (p ++ [.event e])) =
        (w.run (pre ++ .release r :: p)).act (.event e) := by
      rw [← List.cons_append, ← List.append_assoc, run_append]
      rfl
    rw [hsplit]
    exact retired_recorded hafter hgroup hg hsent hentry

/-! ## Releases -/

section Releases

def ownedSaga (commandId group : String) : SagaState where
  commandId := commandId
  orderGroupId := group
  orderRef := "mmr:" ++ group
  state := .CLOSE_OWNED
  accountId := "DU1"
  conid := 265598
  side := .BUY
  requestedQuantity := 100
  filledQuantity := 100
  protectionQuantity := 100
  stopWorking := true
  closeRootId := some "root"
  handoverGeneration := some 1

def ownedWorld (sagas : List SagaState) : CloseWorld := ⟨⟨sagas, []⟩, []⟩

def legEvent (group : String) (leg : Leg) (status : OrderStatus) (filled : ℚ) (eventId : String) : BrokerOrderEvent :=
  ⟨group, leg, status, filled, 100, 0, eventId, 0, none⟩

/-- Forty shares remain. -/
def releaseForty (stopStatus : OrderStatus) (target : Option (String × Option OrderStatus)) : Release :=
  ⟨"root", 40, "stop-1", stopStatus, target, false, 0⟩

/-- The new stop is rejected before the release, and the old one is cancelled after it. -/
theorem new_legs_count_sample : ∃ keeper, NewLegsCount (ownedWorld [ownedSaga "c1" "g1"])
    [.expectReprotect "root" ["stop-1"], .event (legEvent "stop-1" .stop .Rejected 0 "e1")] (releaseForty .Submitted none)
    [.event (legEvent "g1" .stop .Cancelled 0 "e2")] keeper [] := by
  refine ⟨{ ownedSaga "c1" "g1" with
    pendingGroups := ["stop-1"], pendingProtectionLost := true, seenEventIds := ["e1"], revision := 2 }, ?_⟩
  have hkeyed : (ownedWorld [ownedSaga "c1" "g1"]).tables.Keyed := List.nodup_singleton _
  exact new_legs_count hkeyed _ _ _ (by decide +kernel)

/-- **What a release does not promise**: a keeper whose stop is gone is not live; after its failure the
    entry of the retired bracket still changes it; and a loss of legs that another saga expects, one that
    failed in the meantime, is not seen. -/
theorem release_counts_more :
    (((ownedWorld [ownedSaga "c1" "g1"]).run [.expectReprotect "root" ["stop-1"],
        .release (releaseForty .Cancelled none)]).tables.sagas.all fun s => s.state.isTerminal) = true ∧
    ((((ownedWorld [ownedSaga "c1" "g1"]).run [.expectReprotect "root" ["stop-1"],
        .release (releaseForty .Cancelled none)]).tables.loadByGroup "g1").map fun found =>
          (found.2, found.1.protectionGeneration, found.1.filledQuantity)) = some (0, 1, 40) ∧
    (((ownedWorld [ownedSaga "c1" "g1"]).run [.expectReprotect "root" ["stop-1"], .release (releaseForty .Cancelled none),
        .event (legEvent "g1" .entry .Filled 100 "e1")]).tables.byCommand "c1").map (·.filledQuantity) = some 100 ∧
    (((ownedWorld [ownedSaga "c1" "g1", ownedSaga "c2" "g2"]).run [.expectReprotect "root" ["stop-1", "target-1"],
        .event (legEvent "g1" .stop .Cancelled 0 "e1"), .event (legEvent "target-1" .takeProfit .Rejected 0 "e2"),
        .release (releaseForty .Submitted (some ("target-1", some .Rejected)))]).tables.byCommand "c2").map
          (fun s => (s.state, s.activeGroups)) = some (.PROTECTED, ["stop-1", "target-1"]) := by
  refine ⟨?_, ?_, ?_, ?_⟩
  · decide +kernel
  · decide +kernel
  · decide +kernel
  · decide +kernel

end Releases

end MmrTrader.Broker
