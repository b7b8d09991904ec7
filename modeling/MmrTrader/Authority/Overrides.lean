import MmrTrader.Authority.Ledger
import MmrTrader.Lib.GuardedRun
import MmrTrader.Lib.Table

/-!
# When an override is lost

* `Below` — no stage above and no gross above; `Descending` — the rows of each digest go down in `entry_id` order.
* `Kept` — the promise: the ledger descends, and what `authority_for_dispatch` returns is below every row of its
  digest that was there when it was called.
* `Current` — the row a call is about to append is below every override appended since the call read its base, and
  its gross is a number.
* `stale_copy_lifts_override` — a run that breaks the promise.
* `overrides_kept_iff` — a run keeps it in every state exactly when each append is current.
-/

namespace MmrTrader.Authority

open Lib
open Dispatch (AllocationStage)

def StageBelow (s t : AllocationStage) : Prop :=
  s = t ∨ ∃ m n, stageRank s = some m ∧ stageRank t = some n ∧ m ≤ n

def GrossBelow (a b : Gross) : Prop := a = b ∨ ∃ x y, a = .number x ∧ b = .number y ∧ x ≤ y

/-- The authority of `a` is not above that of `b`. -/
def Below (a b : AuthorityRecord) : Prop := StageBelow a.stage b.stage ∧ GrossBelow a.maxGross b.maxGross

/-- In the order of `entry_id` no row of a digest rises. -/
def Descending (l : Ledger) : Prop :=
  ∀ a ∈ l.rows, ∀ b ∈ l.rows, a.authorityDigest = b.authorityDigest → a.entryId < b.entryId → Below b a

/-- **An override is never lost.** -/
structure Kept (s : Desk) : Prop where
  descending : Descending s.ledger
  dispatch : ∀ i mark authority, s.calls i = some (.returned mark authority) → ∀ o ∈ s.ledger.rows,
    o.authorityDigest = authority.authorityDigest → o.entryId ≤ mark → Below authority o

/-- The append of a call accounts for the overrides since its read. -/
def Current (s : Desk) : Act → Prop
  | .next i => ∀ base row, s.calls i = some (.ready base row) → (∃ q, row.maxGross = .number q) ∧
      ∀ o ∈ s.ledger.rows, o.authorityDigest = base.authorityDigest → base.entryId < o.entryId → o.event = .OVERRIDE →
        Below row o
  | _ => True

theorem StageBelow.trans {a b c : AllocationStage} (h : StageBelow a b) (h' : StageBelow b c) : StageBelow a c := by
  rcases h with rfl | ⟨m, n, hm, hn, hle⟩
  · exact h'
  · rcases h' with rfl | ⟨n', k, hn', hk, hle'⟩
    · exact Or.inr ⟨m, n, hm, hn, hle⟩
    · obtain rfl := Option.some.inj (hn.symm.trans hn')
      exact Or.inr ⟨m, k, hm, hk, hle.trans hle'⟩

theorem GrossBelow.trans {a b c : Gross} (h : GrossBelow a b) (h' : GrossBelow b c) : GrossBelow a c := by
  rcases h with rfl | ⟨x, y, rfl, rfl, hle⟩
  · exact h'
  · rcases h' with rfl | ⟨y', z, hy, rfl, hle'⟩
    · exact Or.inr ⟨x, y, rfl, rfl, hle⟩
    · cases hy
      exact Or.inr ⟨x, z, rfl, rfl, hle.trans hle'⟩

theorem Below.refl (a : AuthorityRecord) : Below a a := ⟨Or.inl rfl, Or.inl rfl⟩

theorem Below.trans {a b c : AuthorityRecord} (h : Below a b) (h' : Below b c) : Below a c :=
  ⟨h.1.trans h'.1, h.2.trans h'.2⟩

def Numbered (l : Ledger) : Prop := ∀ r ∈ l.rows, ∃ q, r.maxGross = .number q

/-! ## What a call is about to append -/

variable {s : Desk} {base row : AuthorityRecord}

theorem validateOverrideReduction_below {newStage : AllocationStage} {newMaxGross : Gross}
    (h : validateOverrideReduction base newStage newMaxGross = .ok ()) (hbase : ∃ q, base.maxGross = .number q)
    (hnew : ∃ q, newMaxGross = .number q) : StageBelow newStage base.stage ∧ GrossBelow newMaxGross base.maxGross := by
  obtain ⟨x, hx⟩ := hbase
  obtain ⟨q, rfl⟩ := hnew
  unfold validateOverrideReduction at h
  obtain ⟨_, -, h⟩ := bind_ok h
  cases hnew : stageRank newStage with
  | none =>
    rw [hnew] at h
    cases h
  | some new =>
    cases hold : stageRank base.stage with
    | none =>
      rw [hnew, hold] at h
      cases h
    | some old =>
      rw [hnew, hold] at h
      dsimp only at h
      split at h
      · cases h
      · rename_i hrank
        split at h
        · cases h
        · rename_i hgross
          refine ⟨Or.inr ⟨new, old, hnew, hold, Nat.le_of_not_lt hrank⟩, Or.inr ⟨q, x, rfl, hx, ?_⟩⟩
          rw [hx] at hgross
          simpa [Gross.above] using hgross

/-- A call that is ready to append: its row is of the digest of its base and not above it, and every row appended
since is at least as high as the base or as an override appended since. -/
structure Ready (l : Ledger) (base row : AuthorityRecord) : Prop where
  mem : base ∈ l.rows
  digest : row.authorityDigest = base.authorityDigest
  below : (∃ q, row.maxGross = .number q) → Below row base
  copied : row.event ≠ .OVERRIDE → row.stage = base.stage ∧ row.maxGross = base.maxGross
  since : ∀ r ∈ l.rows, r.authorityDigest = base.authorityDigest → base.entryId < r.entryId →
    Below base r ∨ ∃ o ∈ l.rows, o.authorityDigest = base.authorityDigest ∧ base.entryId < o.entryId ∧
      o.event = .OVERRIDE ∧ Below o r

/-- What holds of a call wherever it stands. -/
def PhaseOk (l : Ledger) : Phase → Prop
  | .searching _ _ mark _ => mark ≤ l.rows.length
  | .ready base row => Ready l base row
  | .returned mark authority => mark ≤ l.rows.length ∧ ∀ o ∈ l.rows,
      o.authorityDigest = authority.authorityDigest → o.entryId ≤ mark → Below authority o

variable {l : Ledger} {p : Phase} {digest : String}

/-- A row made from the newest one. -/
theorem Ready.of_latest (h : l.latest digest = some base) (hdigest : row.authorityDigest = base.authorityDigest)
    (hbelow : (∃ q, row.maxGross = .number q) → Below row base)
    (hcopied : row.event ≠ .OVERRIDE → row.stage = base.stage ∧ row.maxGross = base.maxGross) : Ready l base row := by
  obtain ⟨hmem, hd, hnewest⟩ := Ledger.latest_spec h
  refine ⟨hmem, hdigest, hbelow, hcopied, fun r hr hrd hlt => ?_⟩
  exact absurd (hnewest r hr (hrd.trans hd)) (Nat.not_le_of_lt hlt)

theorem transition_ready (h : l.latest digest = some base) {event : AuthorityEvent} {reason : String}
    {supersededBy commandId : Option String} : Ready l base (transition base event reason supersededBy commandId) :=
  Ready.of_latest h rfl (fun _ => Below.refl base) fun _ => ⟨rfl, rfl⟩

variable {now : Int}

theorem begin_ok {call : AuthorityCall} (h : l.begin now call = some p) : PhaseOk l p := by
  cases call with
  | activated digest commandId =>
    obtain ⟨base, hbase, rfl⟩ := Option.map_eq_some_iff.mp h
    exact transition_ready hbase
  | deactivated digest commandId reason =>
    obtain ⟨base, hbase, rfl⟩ := Option.map_eq_some_iff.mp h
    exact transition_ready hbase
  | revoked digest reason =>
    obtain ⟨base, hbase, rfl⟩ := Option.map_eq_some_iff.mp h
    exact transition_ready hbase
  | superseded digest supersededBy reason =>
    obtain ⟨base, hbase, rfl⟩ := Option.map_eq_some_iff.mp h
    exact transition_ready hbase
  | override accountId artifactDigest newStage newMaxGross reason =>
    simp only [Ledger.begin] at h
    split at h
    · cases h
    · cases h
      exact le_refl _
  | dispatch accountId artifactDigest =>
    cases h
    exact le_refl _

variable {goal : Goal} {mark : Nat}
variable {rest : List String}

theorem look_ok (hd : Descending l) (hn : Numbered l)
    (hmark : mark ≤ l.rows.length) (h : l.look goal now mark digest rest = some p) : PhaseOk l p := by
  unfold Ledger.look at h
  cases hlatest : l.latest digest with
  | none =>
    rw [hlatest] at h
    cases h
    exact hmark
  | some latest =>
    rw [hlatest] at h
    dsimp only at h
    cases hjudge : judge (goal = .dispatch) now latest with
    | none =>
      rw [hjudge] at h
      cases h
      exact hmark
    | some base =>
      obtain rfl := judge_eq hjudge
      rw [hjudge] at h
      obtain ⟨hmem, hdigest, hnewest⟩ := Ledger.latest_spec hlatest
      cases goal with
      | dispatch =>
        cases h
        refine ⟨hmark, fun o ho hod _ => ?_⟩
        rcases Nat.lt_or_eq_of_le (hnewest o ho (hod.trans hdigest)) with hlt | heq
        · exact hd o ho base hmem hod hlt
        · rw [Ledger.eq_of_entryId ho hmem heq]
          exact Below.refl base
      | override newStage newMaxGross reason =>
        dsimp only at h
        cases hvalid : validateOverrideReduction base newStage newMaxGross with
        | error e =>
          rw [hvalid] at h
          cases h
        | ok _ =>
          rw [hvalid] at h
          cases h
          exact Ready.of_latest hlatest rfl (validateOverrideReduction_below hvalid (hn base hmem))
            fun hne => absurd rfl hne

/-! ## Appending -/

theorem Ready.below_all (h : Ready l base row) (hd : Descending l) (hnum : ∃ q, row.maxGross = .number q)
    (hcur : ∀ o ∈ l.rows, o.authorityDigest = base.authorityDigest → base.entryId < o.entryId → o.event = .OVERRIDE →
      Below row o) {r : AuthorityRecord} (hr : r ∈ l.rows) (hrd : r.authorityDigest = base.authorityDigest) :
    Below row r := by
  have hrow := h.below hnum
  rcases Nat.lt_trichotomy r.entryId base.entryId with hlt | heq | hgt
  · exact hrow.trans (hd r hr base h.mem hrd hlt)
  · rw [Ledger.eq_of_entryId hr h.mem heq]
    exact hrow
  · rcases h.since r hr hrd hgt with hbase | ⟨o, ho, hod, hlt, hevent, hor⟩
    · exact hrow.trans hbase
    · exact (hcur o ho hod hlt hevent).trans hor

variable {base' row' : AuthorityRecord}

/-- A later append keeps what a waiting call relies on. -/
theorem Ready.append (h : Ready l base row) (h' : Ready l base' row') (hd : Descending l) : Ready (l.append row') base row := by
  refine ⟨mem_append.mpr (Or.inl h.mem), h.digest, h.below, h.copied, ?_⟩
  intro r hr hrd hlt
  rcases mem_append.mp hr with hr | rfl
  · refine (h.since r hr hrd hlt).imp id ?_
    rintro ⟨o, ho, hrest⟩
    exact ⟨o, mem_append.mpr (Or.inl ho), hrest⟩
  · by_cases hevent : row'.event = .OVERRIDE
    · exact Or.inr ⟨_, mem_append.mpr (Or.inr rfl), hrd, hlt, hevent, Below.refl _⟩
    · -- a copy is as high as its base, which is before or after ours
      have hcopy := h'.copied hevent
      have hsame : Below base' { row' with entryId := l.rows.length + 1 } := ⟨Or.inl hcopy.1.symm, Or.inl hcopy.2.symm⟩
      have hdigest : base'.authorityDigest = base.authorityDigest := h'.digest.symm.trans hrd
      rcases Nat.lt_trichotomy base'.entryId base.entryId with hbefore | heq | hafter
      · exact Or.inl ((hd base' h'.mem base h.mem hdigest hbefore).trans hsame)
      · rw [Ledger.eq_of_entryId h'.mem h.mem heq] at hsame
        exact Or.inl hsame
      · rcases h.since base' h'.mem hdigest hafter with hbase | ⟨o, ho, hod, hob, hoe, hor⟩
        · exact Or.inl (hbase.trans hsame)
        · exact Or.inr ⟨o, mem_append.mpr (Or.inl ho), hod, hob, hoe, hor.trans hsame⟩

theorem PhaseOk.append (h : PhaseOk l p) (h' : Ready l base' row') (hd : Descending l) : PhaseOk (l.append row') p := by
  have hlen : l.rows.length ≤ (l.append row').rows.length := by simp [Ledger.append]
  cases p with
  | searching goal now mark rest => exact le_trans h hlen
  | ready base row => exact Ready.append h h' hd
  | returned mark authority =>
    refine ⟨le_trans h.1 hlen, fun o ho hod hmark => ?_⟩
    rcases mem_append.mp ho with ho | rfl
    · exact h.2 o ho hod hmark
    · exact absurd (le_trans hmark h.1) (Nat.not_succ_le_self _)

/-! ## Runs -/

/-- What every state of a run of current appends keeps. -/
structure Inv (s : Desk) : Prop where
  descending : Descending s.ledger
  numbered : Numbered s.ledger
  calls : ∀ i p, s.calls i = some p → PhaseOk s.ledger p

theorem Inv.kept (h : Inv s) : Kept s :=
  ⟨h.descending, fun i _ _ hp => (h.calls i _ hp).2⟩

variable {i : Nat}

theorem Inv.set (h : Inv s) {q : Option Phase} (hq : ∀ p, q = some p → PhaseOk s.ledger p) : Inv (s.set i q) := by
  refine ⟨h.descending, h.numbered, fun j p hp => ?_⟩
  by_cases hj : j = i
  · subst hj
    exact hq p (by simpa [Desk.set] using hp)
  · exact h.calls j p (by simpa [Desk.set, hj] using hp)

theorem Inv.append (h : Inv s) (hready : s.calls i = some (.ready base row)) (hcur : Current s (.next i)) :
    Inv { s with ledger := s.ledger.append row } := by
  have hr : Ready s.ledger base row := h.calls i _ hready
  obtain ⟨hnum, hover⟩ := hcur base row hready
  refine ⟨?_, ?_, fun j p hp => (h.calls j p hp).append hr h.descending⟩
  · intro a ha b hb hab hlt
    rcases mem_append.mp ha with ha | rfl
    · rcases mem_append.mp hb with hb | rfl
      · exact h.descending a ha b hb hab hlt
      · exact hr.below_all h.descending hnum hover ha (hab.trans hr.digest)
    · rcases mem_append.mp hb with hb | rfl
      · exact absurd (s.ledger.drawn b hb) (Nat.not_le_of_lt (Nat.lt_of_succ_lt hlt))
      · exact absurd hlt (Nat.lt_irrefl _)
  · intro r hr'
    rcases mem_append.mp hr' with hr' | rfl
    · exact h.numbered r hr'
    · exact hnum

theorem Inv.clear (h : Inv s) (i : Nat) : Inv (s.set i none) := h.set fun p hp => by cases hp

theorem step_idle (h : s.calls i = none) : s.step (.next i) = s := by simp only [Desk.step, h]

theorem step_returned {authority : AuthorityRecord} (h : s.calls i = some (.returned mark authority)) :
    s.step (.next i) = s := by simp only [Desk.step, h]

theorem step_exhausted (h : s.calls i = some (.searching goal now mark [])) :
    s.step (.next i) = s.set i none := by simp only [Desk.step, h]

theorem step_searching (h : s.calls i = some (.searching goal now mark (digest :: rest))) :
    s.step (.next i) = s.set i (s.ledger.look goal now mark digest rest) := by simp only [Desk.step, h]

theorem step_ready (h : s.calls i = some (.ready base row)) :
    s.step (.next i) = Desk.set { s with ledger := s.ledger.append row } i none := by simp only [Desk.step, h]

theorem Inv.step (h : Inv s) (a : Act) (hcur : Current s a) : Inv (s.step a) := by
  cases a with
  | begin i call now => exact h.set fun p hp => begin_ok hp
  | die i => exact h.clear i
  | next i =>
    cases hp : s.calls i with
    | none => rwa [step_idle hp]
    | some p =>
      cases p with
      | returned mark authority => rwa [step_returned hp]
      | ready base row =>
        rw [step_ready hp]
        exact (h.append hp hcur).clear i
      | searching goal now mark rest =>
        cases rest with
        | nil =>
          rw [step_exhausted hp]
          exact h.clear i
        | cons digest rest =>
          rw [step_searching hp]
          exact h.set fun p hl => look_ok h.descending h.numbered (h.calls i _ hp) hl

theorem Inv.broken (h : Inv s) (a : Act) (hcur : ¬ Current s a) : ¬ Kept (s.step a) := by
  intro hkept
  refine hcur ?_
  cases a with
  | begin i call now => trivial
  | die i => trivial
  | next i =>
    intro base row hready
    have hr : Ready s.ledger base row := h.calls i _ hready
    have hnew : ({ row with entryId := s.ledger.rows.length + 1 } : AuthorityRecord) ∈ (s.ledger.append row).rows :=
      mem_append.mpr (Or.inr rfl)
    have hdesc : Descending (s.ledger.append row) := by
      rw [step_ready hready] at hkept
      exact hkept.descending
    have hbelow : ∀ o ∈ s.ledger.rows, o.authorityDigest = base.authorityDigest → Below row o := by
      intro o ho hod
      have hlt : o.entryId < s.ledger.rows.length + 1 := Nat.lt_succ_of_le (s.ledger.drawn o ho)
      have hnewest := hdesc o (mem_append.mpr (Or.inl ho)) _ hnew (hod.trans hr.digest.symm) hlt
      exact hnewest
    refine ⟨?_, fun o ho hod _ _ => hbelow o ho hod⟩
    obtain ⟨q, hq⟩ := h.numbered base hr.mem
    rcases (hbelow base hr.mem rfl).2 with heq | ⟨x, y, hx, -, -⟩
    · exact ⟨q, heq.trans hq⟩
    · exact ⟨x, hx⟩

/-- **When an override is never lost**: over every interleaving, from a ledger that descends, the promise holds in every
state exactly when each call appends a number that is not above any override of its digest appended since its read. -/
theorem overrides_kept_iff (l : Ledger) (hd : Descending l) (hn : Numbered l) (acts : List Act) :
    (∀ pre, pre <+: acts → Kept (Desk.run l pre)) ↔ Meets Desk.step Current ⟨l, fun _ => none⟩ acts :=
  Meets.iff_prefixes (I := Inv) (fun _ h => h.kept) (fun _ a h hc => h.step a hc) (fun _ a h hc => h.broken a hc)
    ⟨hd, hn, fun _ _ hp => by cases hp⟩

def sampleAuthority : AuthorityRecord where
  entryId := 1
  authorityDigest := "digest"
  attested := ⟨"strategy", "live", "allowlist", "ruleset", "evidence", "key", "operator", 0⟩
  accountId := "DU1"
  artifactDigest := "artifact"
  stage := .CANARY
  maxGross := .number (6 / 100)
  reason := "issued"
  expiresAt := 1000
  event := .ISSUED
  supersededBy := none
  commandId := none

def sampleLedger : Ledger := ⟨[sampleAuthority], List.pairwise_singleton _ _, by simp [sampleAuthority]⟩

theorem sampleLedger_descending : Descending sampleLedger := by
  intro a ha b hb _ hlt
  obtain rfl := List.mem_singleton.mp ha
  obtain rfl := List.mem_singleton.mp hb
  exact absurd hlt (Nat.lt_irrefl _)

theorem sampleLedger_numbered : Numbered sampleLedger := by
  intro r hr
  obtain rfl := List.mem_singleton.mp hr
  exact ⟨_, rfl⟩

def sampleOverride (gross : Gross) : List Act :=
  [.begin 1 (.override "DU1" "artifact" .CANARY gross "breaker trip") 0, .next 1, .next 1]

theorem overrides_kept_sample : Kept (Desk.run sampleLedger (sampleOverride (.number 0))) := by
  refine (overrides_kept_iff sampleLedger sampleLedger_descending sampleLedger_numbered (sampleOverride (.number 0))).mpr
    ?_ _ (List.prefix_refl _)
  refine ⟨trivial, ?_, ?_, trivial⟩
  · intro base row hready
    have hsearch : (Desk.run sampleLedger ((sampleOverride (.number 0)).take 1)).calls 1 =
        some (.searching (.override .CANARY (.number 0) "breaker trip") 0 1 ["digest"]) := by decide +kernel
    exact absurd (hsearch.symm.trans hready) (by simp)
  · intro base row hready
    have hrow : (Desk.run sampleLedger ((sampleOverride (.number 0)).take 2)).calls 1 =
        some (.ready sampleAuthority (overrideRow sampleAuthority .CANARY (.number 0) "breaker trip")) := by decide +kernel
    cases hrow.symm.trans hready
    refine ⟨⟨0, rfl⟩, fun o ho _ hlt _ => ?_⟩
    obtain rfl : o = sampleAuthority := List.mem_singleton.mp ho
    exact absurd hlt (Nat.lt_irrefl _)

/-- The promise, over every interleaving. -/
def OverridesKept (l : Ledger) : Prop := ∀ acts, Kept (Desk.run l acts)

/-- **A stale copy lifts an override**: an activation reads the row, an override to zero returns, then the activation
appends its copy. -/
theorem stale_copy_lifts_override : ¬ OverridesKept sampleLedger := by
  intro h
  have hd := (h (.begin 0 (.activated "digest" "cmd") 0 :: sampleOverride (.number 0) ++ [.next 0])).descending
  have hbelow := hd
    { overrideRow sampleAuthority .CANARY (.number 0) "breaker trip" with entryId := 2 } (by decide +kernel)
    { transition sampleAuthority .ACTIVATED "issued" none (some "cmd") with entryId := 3 } (by decide +kernel) rfl
    (by decide)
  rcases hbelow.2 with heq | ⟨x, y, hx, hy, hle⟩
  · exact absurd heq (by decide +kernel)
  · cases hx
    cases hy
    exact absurd hle (by decide +kernel)

end MmrTrader.Authority
