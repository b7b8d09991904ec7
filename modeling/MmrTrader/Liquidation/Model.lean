import Mathlib.Algebra.Order.Ring.Rat
import Mathlib.Data.List.Sort
import Mathlib.Data.Rat.Defs
import MmrTrader.Lib.Table
import MmrTrader.Saga.Model

/-!
# Exit owners

Executable model of `trader/trading/exit_owner.py`: one close per position, one flatten per account.
Every claim runs inside a transaction of the liquidation service; a raise leaves the table as it was.

* `claimScoped`, `claimAccount` — start a root, join one, upgrade it, or refuse;
* `upgradeGoal`, `finish` — the only changes of a row, besides the supersession by a flatten;
* `OwnersInv` — at most one active owner of each scope.
-/

set_option autoImplicit false

namespace MmrTrader.Liquidation

open MmrTrader.Lib

/-- What the liquidation service can raise; `constraint` is a violated key of the journal, `other` any
    exception of a port or of a missing row. -/
inductive Exc where
  | exitInProgress (rootId : String)
  | refused (code : String)
  | valueError
  | runState
  | staleDispatch
  | brokerChangesBusy
  | liquidationBusy
  | constraint
  | other
  deriving DecidableEq

inductive OwnerKind where
  | scopedClose
  | accountFlatten
  deriving DecidableEq

/-- `GOAL_ZERO`, `GOAL_PARTIAL`. -/
inductive OwnerGoal where
  | zero
  | part
  deriving DecidableEq

inductive OwnerState where
  | ACTIVE
  | SUPERSEDED
  | RELEASED
  | FAILED_SAFE
  deriving DecidableEq

structure ExitOwnerRow where
  rootId : String
  accountId : String
  conid : Option Int
  kind : OwnerKind
  goal : OwnerGoal
  goalQuantity : Option ℚ
  state : OwnerState
  deriving DecidableEq

inductive ClaimOutcome where
  | CLAIMED
  | JOINED
  | UPGRADED
  | JOINED_FLATTEN
  deriving DecidableEq

structure ExitClaim where
  rootId : String
  outcome : ClaimOutcome
  superseded : List String
  deriving DecidableEq

abbrev Owners := Table ExitOwnerRow.rootId

def checkRootId (rootId : String) : Except Exc Unit :=
  if rootId = "" ∨ rootId.contains ':' then .error .valueError else .ok ()

def ExitOwnerRow.ownsConid (o : ExitOwnerRow) (accountId : String) (conid : Int) : Bool :=
  o.accountId == accountId && o.conid == some conid && o.kind == .scopedClose && o.state == .ACTIVE

def ExitOwnerRow.ownsScoped (o : ExitOwnerRow) (accountId : String) : Bool :=
  o.accountId == accountId && o.kind == .scopedClose && o.state == .ACTIVE

def ExitOwnerRow.ownsAccount (o : ExitOwnerRow) (accountId : String) : Bool :=
  o.accountId == accountId && o.kind == .accountFlatten && o.state == .ACTIVE

def ownerFor (owners : Owners) (accountId : String) (conid : Int) : Option ExitOwnerRow :=
  owners.rows.find? (·.ownsConid accountId conid)

def accountOwner (owners : Owners) (accountId : String) : Option ExitOwnerRow :=
  owners.rows.find? (·.ownsAccount accountId)

def insertOwner (owners : Owners) (rootId accountId : String) (conid : Option Int) (kind : OwnerKind)
    (goal : OwnerGoal) (goalQuantity : Option ℚ) : Except Exc Owners :=
  match owners.insert? ⟨rootId, accountId, conid, kind, goal, goalQuantity, .ACTIVE⟩ with
  | some owners' => .ok owners'
  | none => .error .valueError

def upgradeGoal (owners : Owners) (rootId : String) : Owners :=
  owners.updateWhere (fun o => o.rootId == rootId && o.state == .ACTIVE)
    (fun o => { o with goal := .zero, goalQuantity := none }) fun _ => rfl

/-- `finish_in_tx`; its callers pass RELEASED or FAILED_SAFE. -/
def finishOwner (owners : Owners) (rootId : String) (state : OwnerState) : Owners :=
  owners.updateWhere (fun o => o.rootId == rootId && o.state == .ACTIVE) (fun o => { o with state := state })
    fun _ => rfl

/-- The supersession of `claim_account_in_tx`. -/
def supersedeScoped (owners : Owners) (accountId : String) : Owners :=
  owners.updateWhere (·.ownsScoped accountId) (fun o => { o with state := .SUPERSEDED }) fun _ => rfl

def claimScoped (owners : Owners) (accountId : String) (conid : Int) (rootId : String)
    (goalQuantity : Option ℚ) : Except Exc (ExitClaim × Owners) := do
  checkRootId rootId
  match accountOwner owners accountId, ownerFor owners accountId conid with
  | some flatten, _ =>
      if goalQuantity.isSome then .error (.exitInProgress flatten.rootId)
      else .ok (⟨flatten.rootId, .JOINED_FLATTEN, []⟩, owners)
  | none, some owner =>
      if owner.rootId = rootId then .ok (⟨owner.rootId, .JOINED, []⟩, owners)
      else if goalQuantity.isSome then .error (.exitInProgress owner.rootId)
      else if owner.goal = .part then .ok (⟨owner.rootId, .UPGRADED, []⟩, upgradeGoal owners owner.rootId)
      else .ok (⟨owner.rootId, .JOINED, []⟩, owners)
  | none, none => do
      let goal := if goalQuantity.isSome then .part else .zero
      let owners' ← insertOwner owners rootId accountId (some conid) .scopedClose goal goalQuantity
      .ok (⟨rootId, .CLAIMED, []⟩, owners')

def claimAccount (owners : Owners) (accountId rootId : String) : Except Exc (ExitClaim × Owners) := do
  checkRootId rootId
  match accountOwner owners accountId with
  | some flatten =>
      .ok (⟨flatten.rootId, if flatten.rootId = rootId then .CLAIMED else .JOINED_FLATTEN, []⟩, owners)
  | none => do
      let taken := (owners.rows.filter (·.ownsScoped accountId)).map (·.rootId)
      let owners' ← insertOwner (supersedeScoped owners accountId) rootId accountId none .accountFlatten .zero none
      .ok (⟨rootId, .CLAIMED, taken.insertionSort (· ≤ ·)⟩, owners')

end MmrTrader.Liquidation

/-!
## Journal rows of the liquidation service

The rows of `LiquidationRunStore` in `trader/trading/liquidation_service.py`: runs, children and joins.

* `OldJournal.migrate` — the journal that migrations 35 and 36 leave.
-/

namespace MmrTrader.Liquidation

open MmrTrader.Lib
open MmrTrader.Saga (OrderStatus Side)

inductive RunState where
  | REQUESTED
  | CANCELLING_ENTRIES
  | CANCELLING
  | VERIFYING
  | REDUCING
  | REPROTECTING
  | OUTCOME_UNKNOWN
  | FLAT
  | CLOSED
  | DONE
  | REDUCE_FAILED
  | SUPERSEDED
  | FAILED_SAFE
  deriving DecidableEq

inductive Scope where
  | account
  | conid
  deriving DecidableEq

/-- `zero`, `partial`, `reprotect`. -/
inductive RunGoal where
  | zero
  | part
  | reprotect
  deriving DecidableEq

/-- The phase column; `start` is the empty text. -/
inductive Phase where
  | start
  | legacy
  | cancel
  | reduce
  | reprotect
  deriving DecidableEq

structure LiquidationRun where
  accountId : String
  causeCommandId : String
  state : RunState
  deadline : Int
  generationId : Option Nat := none
  scope : Scope := .account
  conid : Option Int := none
  goal : RunGoal := .zero
  goalQuantity : Option ℚ := none
  phase : Phase := .start
  openedGeneration : Option Nat := none
  stopPrice : Option ℚ := none
  targetPrice : Option ℚ := none
  remainingQuantity : Option ℚ := none
  escalated : Bool := false
  supersededBy : Option String := none
  cleanupPending : Bool := false
  routine : Bool := false
  preSp1Open : Bool := false
  updatedAt : Int := 0
  deriving DecidableEq

inductive ChildState where
  | PLANNED
  | UNKNOWN
  | WORKING
  | PENDING_CANCEL
  | FILLED
  | CANCELLED
  | REJECTED
  | ABSENT
  | NOT_SENT
  deriving DecidableEq

inductive ChildKind where
  | cancel
  | reduce
  | reprotectStop
  | reprotectTarget
  deriving DecidableEq

/-- `ChildRef`, with its `updated_at`.  A pre-SP1 wildcard has a `refPrefix` and no conid. -/
structure ChildRef where
  childId : String
  rootId : String
  ownerRootId : String
  accountId : String
  conid : Option Int
  kind : ChildKind
  attempt : Nat
  state : ChildState
  fenceGeneration : Nat
  side : Option Side := none
  quantity : Option ℚ := none
  price : Option ℚ := none
  ocaGroup : Option String := none
  targetOrderEntityId : Option String := none
  filledAtSend : ℚ := 0
  filledQuantity : ℚ := 0
  outstandingQuantity : Option ℚ := none
  observedGeneration : Option Nat := none
  sentGeneration : Option Nat := none
  orderEntityId : Option String := none
  refPrefix : Option String := none
  updatedAt : Int := 0
  deriving DecidableEq

inductive RequestedGoal where
  | account
  | zero
  | part
  | reprotect
  deriving DecidableEq

structure JoinRow where
  commandId : String
  rootId : String
  accountId : String
  conid : Option Int
  outcome : ClaimOutcome
  requestedGoal : RequestedGoal
  requestedQuantity : Option ℚ
  deriving DecidableEq

abbrev Runs := Table LiquidationRun.causeCommandId
abbrev Children := Table ChildRef.childId
abbrev Joins := Table JoinRow.commandId

/-- The journal tables of the service and of the owner registry. -/
structure Db where
  runs : Runs
  owners : Owners
  children : Children
  joins : Joins
  deriving DecidableEq

/-! ## The upgrade of an older journal -/

/-- The states of a run before the upgrade. -/
inductive OldState where
  | REQUESTED
  | CANCELLING_ENTRIES
  | VERIFYING
  | REDUCING
  | OUTCOME_UNKNOWN
  | FLAT
  | FAILED_SAFE
  deriving DecidableEq

/-- `_OPEN_BEFORE_SP1`. -/
def OldState.isOpen : OldState → Bool
  | .FLAT | .FAILED_SAFE => false
  | _ => true

def OldState.toRunState : OldState → RunState
  | .REQUESTED => .REQUESTED
  | .CANCELLING_ENTRIES => .CANCELLING_ENTRIES
  | .VERIFYING => .VERIFYING
  | .REDUCING => .REDUCING
  | .OUTCOME_UNKNOWN => .OUTCOME_UNKNOWN
  | .FLAT => .FLAT
  | .FAILED_SAFE => .FAILED_SAFE

/-- A row of migration 25. -/
structure OldRun where
  causeCommandId : String
  accountId : String
  state : OldState
  deadline : Int
  generationId : Option Nat
  updatedAt : Int
  deriving DecidableEq

/-- The journal before the upgrade, in the order of `updated_at, cause_command_id`. -/
structure OldJournal where
  runs : List OldRun
  nodup : (runs.map OldRun.causeCommandId).Nodup

def OldJournal.takesOver (j : OldJournal) (accountId : String) : Option OldRun :=
  j.runs.find? fun r => r.accountId == accountId && r.state.isOpen

/-- Does this run become its account's active owner? -/
def OldJournal.isFirst (j : OldJournal) (r : OldRun) : Bool :=
  (j.takesOver r.accountId).map (·.causeCommandId) == some r.causeCommandId

/-- A run after migrations 36 and 133. -/
def OldJournal.migrateRun (j : OldJournal) (r : OldRun) : LiquidationRun :=
  let base : LiquidationRun :=
    { accountId := r.accountId, causeCommandId := r.causeCommandId, state := r.state.toRunState,
      deadline := r.deadline, generationId := r.generationId, preSp1Open := true, updatedAt := r.updatedAt }
  if r.state.isOpen = false then base
  else if j.isFirst r then { base with phase := .legacy }
  else { base with state := .SUPERSEDED, supersededBy := (j.takesOver r.accountId).map (·.causeCommandId) }

def OldJournal.migrateOwner (j : OldJournal) (r : OldRun) : ExitOwnerRow :=
  ⟨r.causeCommandId, r.accountId, none, .accountFlatten, .zero, none, if j.isFirst r then .ACTIVE else .SUPERSEDED⟩

def migrateJoin (r : OldRun) : JoinRow :=
  ⟨r.causeCommandId, r.causeCommandId, r.accountId, none, .CLAIMED, .account, none⟩

/-- The journal after migrations 35, 36 and 133; an empty old one gives the empty journal. -/
def OldJournal.migrate (j : OldJournal) : Db where
  runs := ⟨j.runs.map j.migrateRun, by
    have hkey : LiquidationRun.causeCommandId ∘ j.migrateRun = OldRun.causeCommandId := by
      funext r
      simp only [Function.comp, OldJournal.migrateRun]
      split
      · rfl
      · split <;> rfl
    simpa [List.map_map, hkey] using j.nodup⟩
  owners := ⟨(j.runs.filter (·.state.isOpen)).map j.migrateOwner, by
    have hsub : ((j.runs.filter (·.state.isOpen)).map OldRun.causeCommandId).Sublist
        (j.runs.map OldRun.causeCommandId) := (List.filter_sublist).map _
    rw [List.map_map]
    exact j.nodup.sublist hsub⟩
  children := Table.empty
  joins := ⟨j.runs.map migrateJoin, by
    rw [List.map_map]
    exact j.nodup⟩

end MmrTrader.Liquidation
