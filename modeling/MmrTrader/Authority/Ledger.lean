import Mathlib.Algebra.Order.Ring.Rat
import MmrTrader.Dispatch.Allocation

/-!
# The ledger of allocation authorities

Executable model of `trader/data/allocation_authority_store.py`.  Rows are only appended, in the order of their
`entry_id`; the newest row of a digest is its state.

* `Gross` — `max_gross_allocation`, a float that may be NaN.
* `validateOverrideReduction` — the check of an override against the row it was read from.
* `judge`, `Ledger.candidates` — the search of `active_for` and `authority_for_dispatch`.
* `AuthorityCall`, `Phase`, `Desk`, `Act`, `Desk.step` — calls that interleave: each reads the newest row outside
  the transaction in which it appends its own.
-/

set_option autoImplicit false

namespace MmrTrader.Authority

open Dispatch (AllocationStage)

/-- A float: comparisons with NaN are false. -/
inductive Gross where
  | nan
  | number (q : ℚ)
  deriving DecidableEq

namespace Gross

/-- `a > b`. -/
def above : Gross → Gross → Bool
  | .number a, .number b => decide (b < a)
  | _, _ => false

/-- `a >= b`. -/
def atLeast : Gross → Gross → Bool
  | .number a, .number b => decide (b ≤ a)
  | _, _ => false

end Gross

inductive AuthorityEvent where
  | ISSUED
  | ACTIVATED
  | DEACTIVATED
  | REVOKED
  | SUPERSEDED
  | OVERRIDE
  deriving DecidableEq

def AuthorityEvent.active : AuthorityEvent → Bool
  | .ISSUED => true
  | .ACTIVATED => true
  | .OVERRIDE => true
  | _ => false

/-- The columns that every transition copies. -/
structure Attested where
  strategyId : String
  accountMode : String
  allowlistDigest : String
  rulesetDigest : String
  evidenceDigest : String
  publicKeyId : String
  operator : String
  issuedAt : Int
  deriving DecidableEq

structure AuthorityRecord where
  entryId : Nat
  authorityDigest : String
  attested : Attested
  accountId : String
  artifactDigest : String
  stage : AllocationStage
  maxGross : Gross
  reason : String
  expiresAt : Int
  event : AuthorityEvent
  supersededBy : Option String
  commandId : Option String
  deriving DecidableEq

/-- The rows in the order of `entry_id`, which a sequence draws. -/
structure Ledger where
  rows : List AuthorityRecord
  ordered : rows.Pairwise fun a b => a.entryId < b.entryId
  drawn : ∀ r ∈ rows, r.entryId ≤ rows.length

namespace Ledger

/-- `ORDER BY entry_id DESC LIMIT 1`. -/
def latest (l : Ledger) (digest : String) : Option AuthorityRecord :=
  (l.rows.filter fun r => r.authorityDigest == digest).getLast?

/-- `INSERT INTO allocation_authorities`, with the next `entry_id`. -/
def append (l : Ledger) (row : AuthorityRecord) : Ledger where
  rows := l.rows ++ [{ row with entryId := l.rows.length + 1 }]
  ordered := by
    rw [List.pairwise_append]
    refine ⟨l.ordered, List.pairwise_singleton _ _, ?_⟩
    intro a ha b hb
    obtain rfl := List.mem_singleton.mp hb
    exact Nat.lt_succ_of_le (l.drawn a ha)
  drawn := by
    intro r hr
    rw [List.length_append, List.length_singleton]
    rcases List.mem_append.mp hr with hr | hr
    · exact Nat.le_succ_of_le (l.drawn r hr)
    · obtain rfl := List.mem_singleton.mp hr
      exact le_refl _

/-- The digests of an account and artifact, newest row first, each once. -/
def candidates (l : Ledger) (accountId artifactDigest : String) : List String :=
  ((l.rows.filter fun r => r.accountId == accountId && r.artifactDigest == artifactDigest).reverse.map
    AuthorityRecord.authorityDigest).eraseDups

end Ledger

inductive AuthorityError where
  | unknownStage
  | ceilingExceeded
  | overrideRejected
  deriving DecidableEq

def stageRank : AllocationStage → Option Nat
  | .CANARY => some 0
  | .SCALE_1 => some 1
  | .SCALE_2 => some 2
  | .STEADY => some 3
  | .other _ => none

def validateSignedCeiling (stage : AllocationStage) (maxGross : Gross) : Except AuthorityError Unit :=
  match stage.maxCeiling with
  | none => .error .unknownStage
  | some ceiling => if maxGross.above (.number ceiling) then .error .ceilingExceeded else .ok ()

/-- A positive ceiling is checked against its stage, a zero one only needs a known stage. -/
def checkCeiling (newStage : AllocationStage) (newMaxGross : Gross) : Except AuthorityError Unit :=
  if newMaxGross.above (.number 0) then validateSignedCeiling newStage newMaxGross
  else if newStage.maxCeiling = none then .error .unknownStage
  else .ok ()

def validateOverrideReduction (current : AuthorityRecord) (newStage : AllocationStage) (newMaxGross : Gross) :
    Except AuthorityError Unit := do
  checkCeiling newStage newMaxGross
  match stageRank newStage, stageRank current.stage with
  | some new, some old =>
    if new > old then
      .error .overrideRejected
    else if newMaxGross.above current.maxGross then
      .error .overrideRejected
    else if new = old ∧ newMaxGross.atLeast current.maxGross then
      .error .overrideRejected
    else .ok ()
  | _, _ => .error .unknownStage

/-- One row of `_active_from_rows`: the row to return, or nothing. -/
def judge (includeSuspended : Bool) (now : Int) (latest : AuthorityRecord) : Option AuthorityRecord :=
  if ¬ latest.event.active then none
  else if latest.expiresAt ≤ now then none
  else if (Gross.number 0).atLeast latest.maxGross ∧ ¬ includeSuspended then none
  else some latest

/-! ## Calls that interleave -/

inductive AuthorityCall where
  | activated (digest commandId : String)
  | deactivated (digest commandId reason : String)
  | revoked (digest reason : String)
  | superseded (digest supersededBy reason : String)
  | override (accountId artifactDigest : String) (newStage : AllocationStage) (newMaxGross : Gross) (reason : String)
  | dispatch (accountId artifactDigest : String)
  deriving DecidableEq

/-- What `active_for` is asked for. -/
inductive Goal where
  | override (newStage : AllocationStage) (newMaxGross : Gross) (reason : String)
  | dispatch
  deriving DecidableEq

/-- Where a call stands.  `mark` is the number of rows when it began. -/
inductive Phase where
  | searching (goal : Goal) (now : Int) (mark : Nat) (rest : List String)
  /-- About to append `row`, made from `base`. -/
  | ready (base row : AuthorityRecord)
  /-- `authority_for_dispatch` returned. -/
  | returned (mark : Nat) (authority : AuthorityRecord)
  deriving DecidableEq

structure Desk where
  ledger : Ledger
  calls : Nat → Option Phase

inductive Act where
  | begin (i : Nat) (call : AuthorityCall) (now : Int)
  | next (i : Nat)
  /-- The call raises, or its thread dies. -/
  | die (i : Nat)

/-- The row a transition appends: a copy of the row it read. -/
def transition (base : AuthorityRecord) (event : AuthorityEvent) (reason : String) (supersededBy commandId : Option String) :
    AuthorityRecord :=
  { base with event := event, reason := reason, supersededBy := supersededBy, commandId := commandId }

def overrideRow (base : AuthorityRecord) (newStage : AllocationStage) (newMaxGross : Gross) (reason : String) :
    AuthorityRecord :=
  { base with
    stage := newStage, maxGross := newMaxGross, event := .OVERRIDE, reason := reason, supersededBy := none,
    commandId := none }

def strip (text : String) : String :=
  String.ofList ((text.toList.dropWhile Char.isWhitespace).reverse.dropWhile Char.isWhitespace).reverse

/-- The first step of a call; `none` when it raises. -/
def Ledger.begin (l : Ledger) (now : Int) : AuthorityCall → Option Phase
  | .activated digest commandId =>
    (l.latest digest).map fun base => .ready base (transition base .ACTIVATED base.reason none (some commandId))
  | .deactivated digest commandId reason =>
    (l.latest digest).map fun base => .ready base (transition base .DEACTIVATED reason none (some commandId))
  | .revoked digest reason => (l.latest digest).map fun base => .ready base (transition base .REVOKED reason none none)
  | .superseded digest supersededBy reason =>
    (l.latest digest).map fun base => .ready base (transition base .SUPERSEDED reason (some supersededBy) none)
  | .override accountId artifactDigest newStage newMaxGross reason =>
    if strip reason = "" then none
    else some (.searching (.override newStage newMaxGross (strip reason)) now l.rows.length
      (l.candidates accountId artifactDigest))
  | .dispatch accountId artifactDigest =>
    some (.searching .dispatch now l.rows.length (l.candidates accountId artifactDigest))

def Ledger.look (l : Ledger) (goal : Goal) (now : Int) (mark : Nat) (digest : String) (rest : List String) :
    Option Phase :=
  match l.latest digest with
  | none => some (.searching goal now mark rest)
  | some latest =>
    match judge (goal = .dispatch) now latest with
    | none => some (.searching goal now mark rest)
    | some base =>
      match goal with
      | .dispatch => some (.returned mark base)
      | .override newStage newMaxGross reason =>
        match validateOverrideReduction base newStage newMaxGross with
        | .ok _ => some (.ready base (overrideRow base newStage newMaxGross reason))
        | .error _ => none

def Desk.set (s : Desk) (i : Nat) (p : Option Phase) : Desk := { s with calls := Function.update s.calls i p }

def Desk.step (s : Desk) : Act → Desk
  | .begin i call now => s.set i (s.ledger.begin now call)
  | .next i =>
    match s.calls i with
    | some (.searching _ _ _ []) => s.set i none
    | some (.searching goal now mark (digest :: rest)) => s.set i (s.ledger.look goal now mark digest rest)
    | some (.ready _ row) => { s with ledger := s.ledger.append row }.set i none
    | _ => s
  | .die i => s.set i none

def Desk.run (l : Ledger) (acts : List Act) : Desk := acts.foldl Desk.step ⟨l, fun _ => none⟩

/-! ## Reading the ledger -/

variable {l : Ledger} {digest : String} {r : AuthorityRecord}

theorem Ledger.latest_spec (h : l.latest digest = some r) :
    r ∈ l.rows ∧ r.authorityDigest = digest ∧ ∀ a ∈ l.rows, a.authorityDigest = digest → a.entryId ≤ r.entryId := by
  obtain ⟨front, hfront⟩ := List.getLast?_eq_some_iff.mp h
  have hmem : r ∈ l.rows.filter fun r => r.authorityDigest == digest :=
    hfront ▸ List.mem_append_right _ (List.mem_singleton_self _)
  refine ⟨(List.mem_filter.mp hmem).1, beq_iff_eq.mp (List.mem_filter.mp hmem).2, ?_⟩
  intro a ha had
  have hin : a ∈ front ++ [r] := hfront ▸ List.mem_filter.mpr ⟨ha, beq_iff_eq.mpr had⟩
  have hord := l.ordered.filter fun r => r.authorityDigest == digest
  rw [hfront, List.pairwise_append] at hord
  rcases List.mem_append.mp hin with hin | hin
  · exact (hord.2.2 a hin r (List.mem_singleton_self _)).le
  · obtain rfl := List.mem_singleton.mp hin
    exact le_refl _

variable {a : AuthorityRecord}

theorem Ledger.eq_of_entryId {b : AuthorityRecord} (ha : a ∈ l.rows) (hb : b ∈ l.rows) (h : a.entryId = b.entryId) : a = b := by
  have hnodup : (l.rows.map AuthorityRecord.entryId).Nodup := List.pairwise_map.mpr (l.ordered.imp fun h => h.ne)
  exact List.inj_on_of_nodup_map hnodup ha hb h

theorem mem_append : a ∈ (l.append r).rows ↔ a ∈ l.rows ∨ a = { r with entryId := l.rows.length + 1 } := by
  simp [Ledger.append]

/-- What the search returns is the row it looked at. -/
theorem judge_eq {suspended : Bool} {now : Int} (h : judge suspended now r = some a) : a = r := by
  unfold judge at h
  split at h
  · cases h
  · split at h
    · cases h
    · split at h
      · cases h
      · exact (Option.some.inj h).symm

end MmrTrader.Authority
