import MmrTrader.Lib.GuardedRun
import MmrTrader.Promotion.ActivationStages

/-!
# A revoked or suspended authority stays away

* `Promise` — revocation is for good in both ledgers, refuses every later activation and hides the authority from every
  search; a canary digest that was suspended is not activated again, nor authorized once it was active.
* `Fresh` — a step appends no row over a revocation of its digest, records no activation over a deactivation, and
  authorizes with a digest that was not active before.
* `stays_away` — every run whose steps are fresh keeps the promise.
* `revocation_hidden` — a run in which it fails.
-/

namespace MmrTrader.Promotion.Live

open Lib
open Authority (AuthorityRecord Ledger judge judge_eq)

variable {D : Type} [DecidableEq D]

/-! ## The promise -/

/-- The first `mark` rows hold no revocation of a digest. -/
def Unrevoked {R : Type} (key : R → String) (p : R → Bool) (rows : List R) (mark : Nat) (digest : String) : Prop :=
  mark ≤ rows.length ∧ ¬ Holds key p (rows.take mark) digest

def CanaryUnrevoked (rows : List AuthorityLedgerEntry) (mark : Nat) (digest : String) : Prop :=
  Unrevoked AuthorityLedgerEntry.authorityDigest AuthorityLedgerEntry.revoked rows mark digest

def AllocationUnrevoked (l : Ledger) (mark : Nat) (digest : String) : Prop :=
  Unrevoked AuthorityRecord.authorityDigest revokedRow l.rows mark digest

/-- What a call returned is no authority that was revoked before it began, or before it looked. -/
def ReturnedOk (canary : List AuthorityLedgerEntry) (l : Ledger) : Returned → Prop
  | .canaryActivated mark digest => CanaryUnrevoked canary mark digest
  | .allocationActivated mark digest => AllocationUnrevoked l mark digest
  | .found mark digest => AllocationUnrevoked l mark digest
  | _ => True

structure Promise (s : Services D) : Prop where
  canaryRevoked : ∀ d, Holds AuthorityLedgerEntry.authorityDigest AuthorityLedgerEntry.revoked s.canary d →
    AuthorityLedgerEntry.isRevoked s.canary d = true
  allocationRevoked : ∀ d, Holds AuthorityRecord.authorityDigest revokedRow s.allocation.rows d →
    allocationRevoked s.allocation d = true
  returned : ∀ r ∈ s.returned, ReturnedOk s.canary s.allocation r
  suspended : s.stage.committed.Pairwise fun c' c => ¬ Reactivates c' c
  authorized : s.stage.committed.Pairwise fun c' c => ¬ Reauthorizes c' c
  deactivated : NoneAfter AuthorityLedgerEntry.authorityDigest AuthorityLedgerEntry.deactivated
    AuthorityLedgerEntry.activated s.canary

/-! ## The condition -/

/-- The canary row that a step appends. -/
def canaryRow? (s : Services D) : Act D → Option AuthorityLedgerEntry
  | .next i _ true => (s.tasks i).bind fun t => match t.phase with
    | .writing row _ => some row
    | _ => none
  | _ => none

/-- The allocation row that a step appends. -/
def allocationRow? (s : Services D) : Act D → Option AuthorityRecord
  | .next i _ true => (s.tasks i).bind fun t => match t.phase with
    | .allocationWriting row _ _ => some row
    | _ => none
  | _ => none

/-- The transition that a step commits. -/
def committed? (s : Services D) : Act D → Option (Commit D)
  | .next i _ commits => (s.tasks i).bind fun t => match t.phase with
    | .persist _ => commit? s.stage i commits
    | _ => none
  | _ => none

/-- A step appends a revocation, or no row of its digest is one. -/
def OverNoRevocation {R : Type} (key : R → String) (p : R → Bool) (rows : List R) (row : R) : Prop :=
  p row = true ∨ ¬ Holds key p rows (key row)

instance {R : Type} (key : R → String) (p : R → Bool) (rows : List R) (row : R) :
    Decidable (OverNoRevocation key p rows row) := inferInstanceAs (Decidable (_ ∨ _))

/-- **The condition of a step.** -/
def Fresh (s : Services D) (a : Act D) : Prop :=
  (∀ row ∈ canaryRow? s a,
    OverNoRevocation AuthorityLedgerEntry.authorityDigest AuthorityLedgerEntry.revoked s.canary row ∧
    (row.activated = false ∨
      ¬ Holds AuthorityLedgerEntry.authorityDigest AuthorityLedgerEntry.deactivated s.canary row.authorityDigest)) ∧
  (∀ row ∈ allocationRow? s a, OverNoRevocation AuthorityRecord.authorityDigest revokedRow s.allocation.rows row) ∧
  ∀ c ∈ committed? s a, ∀ c' ∈ s.stage.committed, ¬ Reauthorizes c' c

instance (s : Services D) (a : Act D) : Decidable (Fresh s a) := inferInstanceAs (Decidable (_ ∧ _ ∧ _))

/-! ## Marks -/

section marks

variable {R : Type} {key : R → String} {p : R → Bool} {rows : List R} {mark : Nat} {digest : String}

theorem Unrevoked.append (h : Unrevoked key p rows mark digest) (r : R) : Unrevoked key p (rows ++ [r]) mark digest := by
  refine ⟨h.1.trans (List.length_append ▸ Nat.le_add_right _ _), ?_⟩
  rw [List.take_append_of_le_length h.1]
  exact h.2

theorem Absorbs.unrevoked (h : Absorbs key p rows) (hlast : (lastOf key rows digest).any p = false)
    (hmark : mark ≤ rows.length) : Unrevoked key p rows mark digest := by
  refine ⟨hmark, fun ⟨a, ha, hkey, hp⟩ => ?_⟩
  obtain ⟨r, hr, hrp⟩ := h digest ⟨a, List.mem_of_mem_take ha, hkey, hp⟩
  rw [hr, Option.any_some, hrp] at hlast
  cases hlast

end marks

/-! ## The invariant -/

/-- The activation that a call goes on with passed the revocation check. -/
def NextOk (canary : List AuthorityLedgerEntry) (mark : Nat) : Next D → Prop
  | .authorize a _ => CanaryUnrevoked canary mark a.digest
  | .activate a => CanaryUnrevoked canary mark a.digest
  | .recordActivated a => CanaryUnrevoked canary mark a.digest
  | .activated a => CanaryUnrevoked canary mark a.digest
  | _ => True

def GoalOk (l : Ledger) (mark : Nat) : Goal D → Prop
  | .activate a => AllocationUnrevoked l mark a.digest
  | _ => True

def PhaseOk (C : Config) (canary : List AuthorityLedgerEntry) (l : Ledger) (canaryMark allocationMark : Nat) : Phase D → Prop
  | .currentStage a => CanaryUnrevoked canary canaryMark a.digest
  | .recording _ next => NextOk canary canaryMark next
  | .writing _ next => NextOk canary canaryMark next
  | .load args next => ArgsOk C args ∧ NextOk canary canaryMark next
  | .persist next => NextOk canary canaryMark next
  | .searching goal _ _ => GoalOk l allocationMark goal
  | .allocating _ _ result => ReturnedOk canary l result
  | .allocationWriting _ _ result => ReturnedOk canary l result
  | _ => True

structure TaskOk (C : Config) (canary : List AuthorityLedgerEntry) (l : Ledger) (t : Task D) : Prop where
  canaryMark : t.canaryMark ≤ canary.length
  allocationMark : t.allocationMark ≤ l.rows.length
  phase : PhaseOk C canary l t.canaryMark t.allocationMark t.phase

structure Inv (C : Config) (s : Services D) : Prop where
  stage : StageOk C s.stage
  canary : Absorbs AuthorityLedgerEntry.authorityDigest AuthorityLedgerEntry.revoked s.canary
  allocation : Absorbs AuthorityRecord.authorityDigest revokedRow s.allocation.rows
  deactivated : NoneAfter AuthorityLedgerEntry.authorityDigest AuthorityLedgerEntry.deactivated
    AuthorityLedgerEntry.activated s.canary
  tasks : ∀ i t, s.tasks i = some t → TaskOk C s.canary s.allocation t
  returned : ∀ r ∈ s.returned, ReturnedOk s.canary s.allocation r

variable {C : Config} {s : Services D} {i : Nat} {t : Task D}

omit [DecidableEq D] in
theorem Inv.start (C : Config) : Inv C (Services.start (D := D)) where
  stage := StageOk.start C
  canary := Absorbs.nil
  allocation := Absorbs.nil
  deactivated := List.Pairwise.nil
  tasks _ _ h := by cases h
  returned _ h := absurd h List.not_mem_nil

omit [DecidableEq D] in
theorem Inv.promise (h : Inv C s) : Promise s where
  canaryRevoked d hd := by
    obtain ⟨r, hr, hp⟩ := h.canary d hd
    unfold AuthorityLedgerEntry.isRevoked AuthorityLedgerEntry.latest
    rw [hr, Option.any_some, hp]
  allocationRevoked d hd := by
    obtain ⟨r, hr, hp⟩ := h.allocation d hd
    unfold allocationRevoked
    change (lastOf AuthorityRecord.authorityDigest s.allocation.rows d).any revokedRow = true
    rw [hr, Option.any_some, hp]
  returned := h.returned
  suspended := h.stage.never
  authorized := h.stage.fresh
  deactivated := h.deactivated

/-! ## What a call holds stays true while rows are appended -/

theorem ReturnedOk.canary {canary : List AuthorityLedgerEntry} {l : Ledger} {r : Returned} (h : ReturnedOk canary l r)
    (row : AuthorityLedgerEntry) : ReturnedOk (canary ++ [row]) l r := by
  cases r with
  | canaryActivated mark digest => exact Unrevoked.append h row
  | _ => exact h

variable {l : Ledger}

theorem ReturnedOk.allocation {canary : List AuthorityLedgerEntry} {r : Returned} (h : ReturnedOk canary l r)
    (row : AuthorityRecord) : ReturnedOk canary (l.append row) r := by
  cases r with
  | allocationActivated mark digest => exact Unrevoked.append h _
  | found mark digest => exact Unrevoked.append h _
  | _ => exact h

omit [DecidableEq D] in
theorem NextOk.canary {canary : List AuthorityLedgerEntry} {mark : Nat} {next : Next D} (h : NextOk canary mark next)
    (row : AuthorityLedgerEntry) : NextOk (canary ++ [row]) mark next := by
  cases next with
  | authorize a fromStage => exact Unrevoked.append h row
  | activate a => exact Unrevoked.append h row
  | recordActivated a => exact Unrevoked.append h row
  | activated a => exact Unrevoked.append h row
  | _ => exact trivial

variable {goal : Goal D}

omit [DecidableEq D] in
theorem GoalOk.allocation {mark : Nat} (h : GoalOk l mark goal) (row : AuthorityRecord) : GoalOk (l.append row) mark goal := by
  cases goal with
  | activate a => exact Unrevoked.append h _
  | _ => exact trivial

omit [DecidableEq D] in
theorem PhaseOk.canary {canary : List AuthorityLedgerEntry} {l : Ledger} {m n : Nat} {p : Phase D}
    (h : PhaseOk C canary l m n p) (row : AuthorityLedgerEntry) : PhaseOk C (canary ++ [row]) l m n p := by
  cases p with
  | currentStage a => exact Unrevoked.append h row
  | recording r next => exact NextOk.canary h row
  | writing r next => exact NextOk.canary h row
  | load args next => exact ⟨h.1, h.2.canary row⟩
  | persist next => exact NextOk.canary h row
  | allocating r rest result => exact ReturnedOk.canary h row
  | allocationWriting r rest result => exact ReturnedOk.canary h row
  | _ => exact h

omit [DecidableEq D] in
theorem PhaseOk.allocation {canary : List AuthorityLedgerEntry} {m n : Nat} {p : Phase D}
    (h : PhaseOk C canary l m n p) (row : AuthorityRecord) : PhaseOk C canary (l.append row) m n p := by
  cases p with
  | searching goal now rest => exact GoalOk.allocation h row
  | allocating r rest result => exact ReturnedOk.allocation h row
  | allocationWriting r rest result => exact ReturnedOk.allocation h row
  | _ => exact h

omit [DecidableEq D] in
theorem TaskOk.canary {canary : List AuthorityLedgerEntry} {l : Ledger} (h : TaskOk C canary l t)
    (row : AuthorityLedgerEntry) : TaskOk C (canary ++ [row]) l t :=
  ⟨h.canaryMark.trans (List.length_append ▸ Nat.le_add_right _ _), h.allocationMark, h.phase.canary row⟩

omit [DecidableEq D] in
theorem TaskOk.allocation {canary : List AuthorityLedgerEntry} (h : TaskOk C canary l t)
    (row : AuthorityRecord) : TaskOk C canary (l.append row) t :=
  ⟨h.canaryMark, h.allocationMark.trans (by simp [Ledger.append]), h.phase.allocation row⟩

/-! ## Steps -/

omit [DecidableEq D] in
/-- The table of calls changes at one place. -/
theorem Inv.update (h : Inv C s) {q : Option (Task D)} (hq : ∀ t, q = some t → TaskOk C s.canary s.allocation t) :
    Inv C { s with tasks := Function.update s.tasks i q } := by
  refine ⟨h.stage, h.canary, h.allocation, h.deactivated, fun j t ht => ?_, h.returned⟩
  by_cases hj : j = i
  · subst hj
    exact hq t ((Function.update_self (f := s.tasks) j q).symm.trans ht)
  · exact h.tasks j t ((Function.update_of_ne hj _ _).symm.trans ht)

omit [DecidableEq D] in
theorem Inv.raise (h : Inv C s) (i : Nat) : Inv C (s.raise i) := h.update fun t ht => by cases ht

omit [DecidableEq D] in
theorem Inv.goOn (h : Inv C s) (ht : TaskOk C s.canary s.allocation t) {p : Phase D}
    (hp : PhaseOk C s.canary s.allocation t.canaryMark t.allocationMark p) : Inv C (s.goOn i t p) :=
  h.update fun t' ht' => by
    cases ht'
    exact ⟨ht.canaryMark, ht.allocationMark, hp⟩

omit [DecidableEq D] in
theorem Inv.returning (h : Inv C s) (r : Returned) (hr : ReturnedOk s.canary s.allocation r) :
    Inv C { s with returned := s.returned ++ [r] } := by
  refine ⟨h.stage, h.canary, h.allocation, h.deactivated, h.tasks, fun a ha => ?_⟩
  rcases List.mem_append.mp ha with ha | ha
  · exact h.returned a ha
  · rwa [List.mem_singleton.mp ha]

omit [DecidableEq D] in
theorem Inv.finish (h : Inv C s) (i : Nat) (r : Returned) (hr : ReturnedOk s.canary s.allocation r) : Inv C (s.finish i r) :=
  (h.returning r hr).raise i

omit [DecidableEq D] in
theorem Inv.appendCanary (h : Inv C s) {row : AuthorityLedgerEntry}
    (hrevoked : OverNoRevocation AuthorityLedgerEntry.authorityDigest AuthorityLedgerEntry.revoked s.canary row)
    (hactivated : row.activated = false ∨
      ¬ Holds AuthorityLedgerEntry.authorityDigest AuthorityLedgerEntry.deactivated s.canary row.authorityDigest) :
    Inv C { s with canary := s.canary ++ [row] } :=
  ⟨h.stage, h.canary.append hrevoked, h.allocation, h.deactivated.append hactivated,
    fun i t ht => (h.tasks i t ht).canary row, fun r hr => (h.returned r hr).canary row⟩

omit [DecidableEq D] in
theorem Inv.appendAllocation (h : Inv C s) {row : AuthorityRecord}
    (hrevoked : OverNoRevocation AuthorityRecord.authorityDigest revokedRow s.allocation.rows row) :
    Inv C { s with allocation := s.allocation.append row } :=
  ⟨h.stage, h.canary, h.allocation.append hrevoked, h.deactivated,
    fun i t ht => (h.tasks i t ht).allocation row, fun r hr => (h.returned r hr).allocation row⟩

omit [DecidableEq D] in
theorem Inv.stages (h : Inv C s) {w : World D} (hw : StageOk C w) : Inv C { s with stage := w } :=
  ⟨hw, h.canary, h.allocation, h.deactivated, h.tasks, h.returned⟩

omit [DecidableEq D] in
theorem argsOk_authorize (a : Activation D) : ArgsOk C (a.authorizeArgs C) := by
  rintro - d hd
  obtain rfl := Option.some.inj hd
  rfl

omit [DecidableEq D] in
theorem argsOk_activate (a : Activation D) : ArgsOk C (a.activateArgs C) := fun h => absurd h (by decide : "CANARY_ACTIVE" ≠ "CANARY_AUTHORIZED")

omit [DecidableEq D] in
theorem argsOk_suspend (strategyId reason source : String) (now : Int) :
    ArgsOk C (suspendArgs (D := D) strategyId reason source now) :=
  fun h => absurd h (by decide : "CANARY_SUSPENDED" ≠ "CANARY_AUTHORIZED")

omit [DecidableEq D] in
theorem Inv.resume (h : Inv C s) (ht : TaskOk C s.canary s.allocation t) {next : Next D}
    (hn : NextOk s.canary t.canaryMark next) (record : Option StageRecord) : Inv C (s.resume C i t record next) := by
  cases next with
  | authorize a fromStage =>
    simp only [Services.resume]
    split
    · exact h.goOn ht ⟨argsOk_authorize a, hn⟩
    · exact h.goOn ht ⟨argsOk_activate a, hn⟩
  | activate a => exact h.goOn ht ⟨argsOk_activate a, hn⟩
  | recordActivated a => exact h.goOn ht hn
  | activated a => exact h.finish i (.canaryActivated t.canaryMark a.digest) hn
  | recordDeactivated commandId reason =>
    simp only [Services.resume]
    split
    · exact h.finish i (.canaryDeactivated none) trivial
    · exact h.goOn ht trivial
  | deactivated digest => exact h.finish i (.canaryDeactivated (some digest)) trivial
  | recorded => exact h.finish i .recorded trivial

omit [DecidableEq D] in
theorem Inv.allocate (h : Inv C s) (ht : TaskOk C s.canary s.allocation t) (result : Returned)
    (hr : ReturnedOk s.canary s.allocation result) (rest : List AllocationRecording) :
    Inv C (s.allocate i t result rest) := by
  cases rest with
  | nil => exact h.finish i result hr
  | cons r rest => exact h.goOn ht hr

omit [DecidableEq D] in
theorem Inv.found (h : Inv C s) (ht : TaskOk C s.canary s.allocation t)
    (hg : GoalOk s.allocation t.allocationMark goal) (base : AuthorityRecord) : Inv C (s.found i t base goal) := by
  cases goal with
  | activate a => exact h.allocate ht (.allocationActivated t.allocationMark a.digest) hg _
  | suspend commandId reason => exact h.goOn ht trivial
  | override newStage newMaxGross reason =>
    simp only [Services.found]
    split
    · exact h.goOn ht trivial
    · exact h.raise i
  | active => exact h.raise i
  | dispatch => exact h.raise i

omit [DecidableEq D] in
theorem Inv.exhausted (h : Inv C s) (ht : TaskOk C s.canary s.allocation t)
    (hg : GoalOk s.allocation t.allocationMark goal) : Inv C (s.exhausted i t goal) := by
  cases goal with
  | activate a => exact h.allocate ht (.allocationActivated t.allocationMark a.digest) hg (Services.activationRecords a none)
  | _ => exact h.raise i

omit [DecidableEq D] in
/-- A row that a search returns is no revocation. -/
theorem judge_not_revoked {suspended : Bool} {now : Int} {latest base : AuthorityRecord}
    (h : judge suspended now latest = some base) : revokedRow latest = false := by
  unfold judge at h
  split at h
  · cases h
  · rename_i hactive
    unfold revokedRow
    rw [decide_eq_false_iff_not]
    intro hrevoked
    rw [hrevoked] at hactive
    exact hactive (by decide)

omit [DecidableEq D] in
theorem Inv.look (h : Inv C s) (ht : TaskOk C s.canary s.allocation t)
    (hg : GoalOk s.allocation t.allocationMark goal) (now : Int) (digest : String) (rest : List String) :
    Inv C (s.look i t goal now digest rest) := by
  unfold Services.look
  split
  · exact h.goOn ht hg
  · rename_i base hbase
    obtain ⟨latest, hlatest, hjudge⟩ := Option.bind_eq_some_iff.mp hbase
    obtain rfl := judge_eq hjudge
    have hdigest : base.authorityDigest = digest := by
      have hlast : lastOf AuthorityRecord.authorityDigest s.allocation.rows digest = some base := hlatest
      exact (lastOf_mem hlast).2
    have hunrevoked : AllocationUnrevoked s.allocation s.allocation.rows.length base.authorityDigest := by
      refine Absorbs.unrevoked h.allocation ?_ (Nat.le_refl _)
      change (s.allocation.latest base.authorityDigest).any revokedRow = false
      rw [hdigest, hlatest, Option.any_some, judge_not_revoked hjudge]
    exact (h.returning (.found s.allocation.rows.length base.authorityDigest) hunrevoked).found ht hg base

theorem Inv.loadStage (h : Inv C s) (ht : TaskOk C s.canary s.allocation t) {args : TransitionArgs D} {next : Next D}
    (hargs : ArgsOk C args) (hn : NextOk s.canary t.canaryMark next) : Inv C (s.loadStage C i t args next) := by
  have hstage := h.stages (h.stage.load hargs i)
  unfold Services.loadStage
  dsimp only
  split
  · exact hstage.goOn ht hn
  · exact hstage.raise i

theorem Inv.persistStage (h : Inv C s) (ht : TaskOk C s.canary s.allocation t) {next : Next D}
    (hn : NextOk s.canary t.canaryMark next) (receivedTs : Int) (commits : Bool)
    (hfresh : ∀ c ∈ commit? s.stage i commits, ∀ c' ∈ s.stage.committed, ¬ Reauthorizes c' c) :
    Inv C (s.persistStage C i t next receivedTs commits) := by
  have hstage := h.stages (h.stage.persist i receivedTs commits hfresh)
  unfold Services.persistStage
  dsimp only
  split
  · exact hstage.raise i
  · split
    · exact hstage.resume ht hn _
    · exact hstage.raise i

theorem Inv.next (h : Inv C s) (hi : s.tasks i = some t) {receivedTs : Int} {commits : Bool}
    (hfresh : Fresh s (.next i receivedTs commits)) : Inv C (s.next C i t receivedTs commits) := by
  have ht := h.tasks i t hi
  have hphase := ht.phase
  obtain ⟨hcanary, hallocation, hcommit⟩ := hfresh
  unfold Services.next
  cases hp : t.phase with
  | revokedDigests a rest revoked =>
    cases rest with
    | nil =>
      dsimp only
      split
      · exact h.raise i
      · exact h.goOn ht trivial
    | cons digest rest => exact h.goOn ht trivial
  | isRevoked a =>
    dsimp only
    split
    · exact h.raise i
    · rename_i hnot
      exact h.goOn ht (Absorbs.unrevoked h.canary (Bool.not_eq_true _ ▸ hnot) ht.canaryMark)
  | currentStage a =>
    rw [hp] at hphase
    dsimp only
    split
    · exact h.goOn ht hphase
    · exact h.goOn ht hphase
    · exact h.goOn ht hphase
    · exact h.raise i
  | currentActive strategyId reason commandId source now =>
    dsimp only
    split
    · exact h.goOn ht ⟨argsOk_suspend _ _ _ _, trivial⟩
    · exact h.raise i
  | recording r next =>
    rw [hp] at hphase
    dsimp only
    split
    · exact h.raise i
    · exact h.resume ht hphase none
    · exact h.goOn ht hphase
  | writing row next =>
    rw [hp] at hphase
    dsimp only
    split
    · rename_i hcommits
      subst hcommits
      have hrow := hcanary row (by simp [canaryRow?, hi, hp])
      exact (h.appendCanary hrow.1 hrow.2).resume (ht.canary row) (hphase.canary row) none
    · exact h.raise i
  | load args next =>
    rw [hp] at hphase
    exact h.loadStage ht hphase.1 hphase.2
  | persist next =>
    rw [hp] at hphase
    exact h.persistStage ht hphase receivedTs commits fun c hc => hcommit c (by simpa [committed?, hi, hp] using hc)
  | allocationRevoked a =>
    dsimp only
    split
    · exact h.raise i
    · rename_i hnot
      exact h.goOn ht (Absorbs.unrevoked h.allocation (Bool.not_eq_true _ ▸ hnot) ht.allocationMark)
  | searching goal now rest =>
    rw [hp] at hphase
    cases rest with
    | nil => exact h.exhausted ht hphase
    | cons digest rest => exact h.look ht hphase now digest rest
  | allocating r rest result =>
    rw [hp] at hphase
    dsimp only
    split
    · exact h.raise i
    · exact h.allocate ht result hphase rest
    · exact h.goOn ht hphase
  | allocationWriting row rest result =>
    rw [hp] at hphase
    dsimp only
    split
    · rename_i hcommits
      subst hcommits
      have hrow := hallocation row (by simp [allocationRow?, hi, hp])
      exact (h.appendAllocation hrow).allocate (ht.allocation row) result (ReturnedOk.allocation hphase row) rest
    · exact h.raise i

omit [DecidableEq D] in
theorem begin_ok {canary : List AuthorityLedgerEntry} {call : Call D} {p : Phase D}
    (h : call.begin canary l = some p) (m n : Nat) : PhaseOk C canary l m n p := by
  cases call with
  | transition args =>
    simp only [Call.begin] at h
    split at h
    · cases h
    · rename_i hother
      cases h
      exact ⟨fun htext => absurd (Or.inl htext) hother, trivial⟩
  | recordCanary r =>
    cases h
    exact trivial
  | recordAllocation r =>
    cases h
    exact trivial
  | activeFor accountId artifactDigest now =>
    cases h
    exact trivial
  | activeForAccount accountId now =>
    cases h
    exact trivial
  | authorityForDispatch accountId artifactDigest now =>
    cases h
    exact trivial
  | _ =>
    simp only [Call.begin] at h
    split at h
    · cases h
    · cases h
      exact trivial

theorem Inv.step (h : Inv C s) (a : Act D) (hfresh : Fresh s a) : Inv C (s.step C a) := by
  cases a with
  | begin i call =>
    simp only [Services.step]
    split
    · rename_i p hi hp
      exact h.goOn (t := ⟨s.canary.length, s.allocation.rows.length, p⟩)
        ⟨Nat.le_refl _, Nat.le_refl _, begin_ok hp _ _⟩ (begin_ok hp _ _)
    · exact h
  | next i receivedTs commits =>
    simp only [Services.step]
    cases hi : s.tasks i with
    | none => exact h
    | some t => exact h.next hi hfresh
  | die i => exact (h.stages (h.stage.die i)).raise i

/-- **A revoked or suspended authority stays away.**  In every run whose steps are fresh the promise holds in every
    state reached. -/
theorem stays_away (C : Config) {acts : List (Act D)} (h : Meets (Services.step C) Fresh Services.start acts)
    (pre : List (Act D)) (hpre : pre <+: acts) : Promise (pre.foldl (Services.step C) Services.start) :=
  ((h.of_prefix hpre).invariant (I := Inv C) (fun _ a hs hf => hs.step a hf) (Inv.start C)).promise

/-! ## Two runs -/

def sampleConfig : Config where
  canary _ := ⟨"s", "a", "live", "", "", "", .number 0, [], "", "", 0, 100⟩
  allocation _ := ⟨⟨"s", "live", "", "", "", "", "", 0⟩, "a", "", .CANARY, .number 0, 100⟩
  isoformat _ := ""

/-- A window that passes the gate. -/
def sampleWindow : EvidenceWindow Empty :=
  { strategyId := "s", asOf := 0, windowResetAt := none, firstEventAt := none, lastEventAt := none, calendarDays := [0, 29],
    sessionIds := List.replicate 20 "", roundTripIds := List.replicate 50 "", instrumentIds := List.replicate 5 "",
    corrections := [], breakerTrips := [], costBreaches := [], drawdownBreaches := [], stale := false, eventCount := 0,
    divergences := [], duplicates := [], unresolvedAlerts := [], missedFlats := [], replayMismatches := [],
    roundTripRecords := ["a", "b", "c"].map fun key => ⟨some 1, some key⟩ }

/-- A call that takes at most `steps` steps, with nothing in between. -/
def alone (call : Call Empty) (steps : Nat) : List (Act Empty) := .begin 0 call :: List.replicate steps (.next 0 0 true)

def paperStage (toStage : String) : List (Act Empty) :=
  alone (.transition ⟨"s", toStage, "r", "operator", 0, some sampleWindow, none, none, none, none⟩) 2

def sampleActivate (digest : String) : List (Act Empty) :=
  alone (.activateCanary ⟨digest, "r", "c", "operator", 0, some sampleWindow⟩ true) 14

def sampleDeactivate : List (Act Empty) := alone (.deactivateCanary "s" "r" "c" "operator" 0) 5

def sampleRevoke : List (Act Empty) := alone (.recordCanary (.revoked "d" "r")) 2

/-- An active authority is suspended and revoked; it is refused, and another one is activated. -/
def freshRun : List (Act Empty) :=
  paperStage "PAPER_COLLECTING" ++ paperStage "PAPER_PASSED" ++ sampleActivate "d" ++ sampleDeactivate ++ sampleRevoke ++
    sampleActivate "d" ++ sampleActivate "e"

theorem stays_away_fresh :
    Promise (freshRun.foldl (Services.step sampleConfig) Services.start) ∧
      (freshRun.foldl (Services.step sampleConfig) Services.start).returned.drop 2 =
        [.canaryActivated 0 "d", .canaryDeactivated (some "d"), .recorded, .canaryActivated 4 "e"] := by
  have hfresh : Meets (Services.step sampleConfig) Fresh Services.start freshRun := by decide +kernel
  exact ⟨stays_away sampleConfig hfresh freshRun (List.prefix_refl _), by decide +kernel⟩

/-- The active authority is revoked, its strategy is deactivated, and the same authority is activated again. -/
def hiddenRun : List (Act Empty) :=
  paperStage "PAPER_COLLECTING" ++ paperStage "PAPER_PASSED" ++ sampleActivate "d" ++ sampleRevoke ++ sampleDeactivate ++
    sampleActivate "d"

/-- The rows after the revocation hide it. -/
theorem revocation_hidden :
    ¬ ∀ acts : List (Act Empty), Promise (acts.foldl (Services.step sampleConfig) Services.start) := by
  intro h
  have hrun : ((hiddenRun.foldl (Services.step sampleConfig) Services.start).canary.any fun r =>
        decide (r.authorityDigest = "d") && r.revoked) = true ∧
      AuthorityLedgerEntry.isRevoked (hiddenRun.foldl (Services.step sampleConfig) Services.start).canary "d" = false := by
    decide +kernel
  obtain ⟨r, hr, hrow⟩ := List.any_eq_true.mp hrun.1
  obtain ⟨hdigest, hrevoked⟩ := Bool.and_eq_true _ _ ▸ hrow
  have hkept := (h hiddenRun).canaryRevoked "d" ⟨r, hr, of_decide_eq_true hdigest, hrevoked⟩
  rw [hrun.2] at hkept
  cases hkept

end MmrTrader.Promotion.Live
