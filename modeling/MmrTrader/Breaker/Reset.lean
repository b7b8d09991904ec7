import MmrTrader.Breaker.Commits
import MmrTrader.Lib.GuardedRun

/-!
# When a reset clears a trip it has not examined

Each call of the breaker is its own thread: a `record` reads the clock and the state and then commits; a `reset` reads
the state, reads the clock, asks its two ports and then commits.  The clock may be set to any time.

* `Pool`, `Pool.step` — the clock, the journal and the calls in flight.
* `Told` — what holds of every step: only a reset's commit leaves `TRIPPED`, a change of the breaker is one revision
  and one event, and a known incident changes nothing.
* `Examined` — a reset that clears a trip has read it, and no daily loss was recorded in its session.
* `Orderly` — no signal trips the breaker while a reset that has read an earlier trip is in flight, a daily loss finds
  the breaker clear or tripped by a daily loss of its session, and the clock does not go back.
* `masked_loss_cleared` — a run in which a reset is not examined; `resets_examined` — orderly
  runs keep it.
-/

set_option autoImplicit false

namespace MmrTrader.Breaker

open Lib Journal
open Command (Json)
open Authority (strip)

structure ResetRequest where
  commandId : String
  reason : String
  operatorAuthority : String
  deriving DecidableEq

inductive Phase where
  /-- A `record` that has read the clock. -/
  | clocked (signal : BreakerSignal) (kind : SignalKind) (now : Int)
  /-- It has read the state, and is about to run its transaction. -/
  | recording (signal : BreakerSignal) (kind : SignalKind) (now : Int) (previous : BreakerState)
  /-- A `reset` that has read a tripped state. -/
  | examined (request : ResetRequest) (read : BreakerState)
  /-- It has read the clock and passed the session check. -/
  | timed (request : ResetRequest) (read : BreakerState) (now : Int)
  /-- `reset_ready()` has answered. -/
  | ready (request : ResetRequest) (read : BreakerState) (now : Int)
  /-- `reconciliation_complete(command_id)` has answered: it is about to run its transaction. -/
  | reconciled (request : ResetRequest) (read : BreakerState) (now : Int)
  /-- `onTrip` tells whether the hook was called. -/
  | returned (state : BreakerState) (onTrip : Bool)
  | raised (e : JournalError BreakerError)
  deriving DecidableEq

def Phase.holds : Phase → Option BreakerState
  | .examined _ read => some read
  | .timed _ read _ => some read
  | .ready _ read _ => some read
  | .reconciled _ read _ => some read
  | _ => none

structure Pool where
  clock : Int
  journal : BreakerJournal
  calls : Nat → Option Phase

def Pool.set (s : Pool) (i : Nat) (p : Option Phase) : Pool := { s with calls := Function.update s.calls i p }

inductive Act where
  | tick (micros : Int)
  | seed
  | record (i : Nat) (signal : BreakerSignal)
  | reset (i : Nat) (request : ResetRequest)
  /-- The next statement of call `i`; `answer` is what its port says. -/
  | next (i : Nat) (answer : Bool)
  | die (i : Nat)
  | compact (completedAt : Int) (commits : Bool)

def refused (message : String) : Phase := .raised (.producer (.refused message))

namespace CircuitBreaker

variable (B : CircuitBreaker)

/-- `record`, to its first reading. -/
def beginRecord (signal : BreakerSignal) (clock : Int) : Phase :=
  match SignalKind.ofName signal.kind with
  | none => .raised (.producer (.unknownSignal signal.kind))
  | some kind => .clocked signal kind clock

/-- `reset`, to its first reading. -/
def beginReset (request : ResetRequest) (own : BreakerTables) : Phase :=
  if request.commandId = "" ∨ strip request.reason = "" ∨ strip request.operatorAuthority = "" then
    refused "command, reason, and operator authority are required"
  else
    match B.row own with
    | none => .raised (.producer .notSeeded)
    | some current =>
      match current.state with
      | .CLEAR => .returned current false
      | .TRIPPED => .examined request current

/-- The result of a call's transaction. -/
def outcome (previous : BreakerState) : Except (JournalError BreakerError) BreakerState → Phase
  | .ok state => .returned state (previous.state = .CLEAR ∧ state.state = .TRIPPED)
  | .error e => .raised e

def next (s : Pool) (i : Nat) (answer : Bool) : Pool :=
  match s.calls i with
  | some (.clocked signal kind now) =>
    match B.row s.journal.tables.own with
    | none => s.set i (some (.raised (.producer .notSeeded)))
    | some previous => s.set i (some (.recording signal kind now previous))
  | some (.recording signal kind now previous) =>
    let (result, journal) := mutateBatchWork s.journal (B.applySignal kind signal now s.clock)
    { s with journal := journal }.set i (some (outcome previous result))
  | some (.examined request read) =>
    if B.sameSessionLoss read s.clock then
      s.set i (some (refused "daily-loss breaker may reset only in the next session"))
    else s.set i (some (.timed request read s.clock))
  | some (.timed request read now) =>
    if answer then s.set i (some (.ready request read now))
    else s.set i (some (refused "semantic readiness preconditions are not satisfied"))
  | some (.ready request read now) =>
    if answer then s.set i (some (.reconciled request read now))
    else s.set i (some (refused "reconciliation is incomplete"))
  | some (.reconciled request read now) =>
    let (result, journal) := mutateBatchWork s.journal (B.reset request.commandId (strip request.reason) now s.clock)
    { s with journal := journal }.set i (some (outcome read result))
  | _ => s

def step (s : Pool) : Act → Pool
  | .tick micros => { s with clock := s.clock + micros }
  | .seed => { s with journal := { s.journal with tables := { s.journal.tables with own := B.seed s.journal.tables.own } } }
  | .record i signal => s.set i (some (beginRecord signal s.clock))
  | .reset i request => s.set i (some (B.beginReset request s.journal.tables.own))
  | .next i answer => B.next s i answer
  | .die i => s.set i none
  | .compact completedAt commits => { s with journal := compact s.journal s.clock completedAt commits }

def start (clock : Int) : Pool :=
  ⟨clock, JournalState.empty (B.seed ⟨Table.empty, Table.empty⟩), fun _ => none⟩

def run (clock : Int) (acts : List Act) : Pool := acts.foldl B.step (B.start clock)

/-! ## The promise -/

def state (s : Pool) : Option BreakerState := B.row s.journal.tables.own

/-- The reset that is about to commit. -/
def Resets (s : Pool) (a : Act) (read : BreakerState) (now : Int) : Prop :=
  ∃ i answer request, a = .next i answer ∧ s.calls i = some (.reconciled request read now)

/-- What one step does to the breaker. -/
structure Told (s s' : Pool) (a : Act) : Prop where
  /-- Only a reset's commit leaves `TRIPPED`. -/
  leaves : ∀ b b', B.state s = some b → B.state s' = some b' → b.state = .TRIPPED → b'.state = .CLEAR →
    ∃ read now, Resets s a read now
  /-- A change of the breaker is one of its state, one revision and one event. -/
  changes : ∀ b, B.state s = some b → ∃ b', B.state s' = some b' ∧ (b' = b ∨ b'.state ≠ b.state ∧
    b'.revision = b.revision + 1 ∧ ∃ row, s'.journal.tables.journal = s.journal.tables.journal ++ [row])
  /-- A known incident changes nothing. -/
  known : ∀ i answer signal kind now previous, a = .next i answer → s.calls i = some (.recording signal kind now previous) →
    s.journal.tables.own.incidents.get? (B.incidentId kind signal.occurredAt signal.key) ≠ none →
    s'.journal.tables = s.journal.tables

/-- A reset that clears a trip has read that trip, and no daily loss was recorded in its session. -/
def Examined (s s' : Pool) (a : Act) : Prop :=
  ∀ b b' read now, B.state s = some b → B.state s' = some b' → b.state = .TRIPPED → b'.state = .CLEAR →
    Resets s a read now → read = b ∧ ∀ d ∈ s.journal.tables.own.incidents.rows, d.signalKind = .DAILY_LOSS_BREACH →
      B.sessionKey d.recordedAt ≠ B.sessionKey now

/-- A daily loss of the session of `t` keeps the breaker tripped. -/
def Covers (b : BreakerState) (t : Int) : Prop :=
  b.state = .TRIPPED ∧ b.reasonCode = some .DAILY_LOSS_BREACH ∧
    ∃ trippedAt, b.trippedAt = some trippedAt ∧ B.sessionKey trippedAt = B.sessionKey t

/-- The step that the promise needs: what a new signal finds, and where the clock goes. -/
def Orderly (s : Pool) : Act → Prop
  | .tick micros => 0 ≤ micros
  | .next i _ => ∀ signal kind now previous b, s.calls i = some (.recording signal kind now previous) → B.state s = some b →
      s.journal.tables.own.incidents.get? (B.incidentId kind signal.occurredAt signal.key) = none →
      (b.state = .CLEAR → B.HasReason kind signal now s.journal.tables.own →
        ∀ k p, s.calls k = some p → p.holds = none) ∧
      (b.state = .TRIPPED → kind = .DAILY_LOSS_BREACH → B.Covers b now)
  | _ => True

/-! ## Every run -/

structure Sound (s : Pool) : Prop where
  journaled : B.Journaled s.journal.tables
  seeded : ∃ b, B.state s = some b

variable {B} {s : Pool}
variable {t t' : BreakerDb}

theorem Journaled.of_same (h : B.Journaled t) (hown : t'.own = t.own) (hjournal : t'.journal.Sublist t.journal) :
    B.Journaled t' := by
  refine ⟨fun row hr ht => ?_, fun row hr n hn => ?_⟩
  · rw [hown]
    exact h.incidents row (hjournal.subset hr) ht
  · rw [hown]
    exact h.revisions row (hjournal.subset hr) n hn

theorem Journaled.of_journals {b b' : BreakerState} (h : B.Journaled t) (hb : B.row t.own = some b)
    (hb' : B.row t'.own = some b') (hle : b.revision ≤ b'.revision)
    (hincidents : ∀ d ∈ t.own.incidents.rows, d ∈ t'.own.incidents.rows) (hj : Journals b' t t') : B.Journaled t' := by
  obtain ⟨new, hrows, hevent, hrevision⟩ := hj
  refine ⟨fun row hr ht => ?_, fun row hr n hn => ⟨b', hb', ?_⟩⟩
  · rw [hrows] at hr
    rcases List.mem_append.mp hr with hr | hr
    · obtain ⟨d, hd, hdid⟩ := h.incidents row hr ht
      exact ⟨d, hincidents d hd, hdid⟩
    · obtain rfl := List.mem_singleton.mp hr
      exact hevent ht
  · rw [hrows] at hr
    rcases List.mem_append.mp hr with hr | hr
    · obtain ⟨c, hc, hcn⟩ := h.revisions row hr n hn
      obtain rfl := Option.some.inj (hb.symm.trans hc)
      exact hcn.trans hle
    · obtain rfl := List.mem_singleton.mp hr
      exact (hrevision n hn).le

/-- What one step does to the tables: nothing, a compaction, a new incident or a reset. -/
inductive Moves (s s' : Pool) (a : Act) : Prop where
  | same (h : s'.journal.tables = s.journal.tables)
  | compacted (completedAt : Int) (commits : Bool) (ha : a = .compact completedAt commits)
      (h : s'.journal.tables.own = s.journal.tables.own)
      (hj : s'.journal.tables.journal.Sublist s.journal.tables.journal)
  | recorded (i : Nat) (answer : Bool) (signal : BreakerSignal) (kind : SignalKind) (now : Int) (previous : BreakerState)
      (ha : a = .next i answer) (hcall : s.calls i = some (.recording signal kind now previous))
      (h : B.Recorded kind signal now s.journal.tables s'.journal.tables)
  | cleared (i : Nat) (answer : Bool) (request : ResetRequest) (read : BreakerState) (now : Int)
      (ha : a = .next i answer) (hcall : s.calls i = some (.reconciled request read now))
      (h : B.Cleared request.commandId (strip request.reason) now s.journal.tables s'.journal.tables)

theorem seed_of_row {own : BreakerTables} {b : BreakerState} (h : B.row own = some b) : B.seed own = own := by
  unfold seed
  split
  · rename_i breaker hinsert
    have hnone := (Table.insert?_eq_some hinsert).1
    cases hnone.symm.trans h
  · rfl

theorem next_moves (h : B.Sound s) (i : Nat) (answer : Bool) : Moves (B := B) s (B.next s i answer) (.next i answer) := by
  cases hcall : s.calls i with
  | none => exact .same (by simp only [next, hcall])
  | some p =>
    cases p with
    | clocked signal kind now =>
      refine .same ?_
      simp only [next, hcall]
      split <;> rfl
    | examined request read =>
      refine .same ?_
      simp only [next, hcall]
      split <;> rfl
    | timed request read now =>
      refine .same ?_
      simp only [next, hcall]
      split <;> rfl
    | ready request read now =>
      refine .same ?_
      simp only [next, hcall]
      split <;> rfl
    | returned state onTrip => exact .same (by simp only [next, hcall])
    | raised e => exact .same (by simp only [next, hcall])
    | recording signal kind now previous =>
      cases hcommit : mutateBatchWork s.journal (B.applySignal kind signal now s.clock) with
      | mk result journal =>
        have hstep : B.next s i answer = { s with journal := journal }.set i (some (outcome previous result)) := by
          simp only [next, hcall, hcommit]
        rw [hstep]
        rcases applySignal_spec hcommit h.journaled with hsame | hrecorded
        · exact .same hsame
        · exact .recorded i answer signal kind now previous rfl hcall hrecorded
    | reconciled request read now =>
      cases hcommit : mutateBatchWork s.journal (B.reset request.commandId (strip request.reason) now s.clock) with
      | mk result journal =>
        have hstep : B.next s i answer = { s with journal := journal }.set i (some (outcome read result)) := by
          simp only [next, hcall, hcommit]
        rw [hstep]
        rcases reset_spec hcommit h.journaled with hsame | hcleared
        · exact .same hsame
        · exact .cleared i answer request read now rfl hcall hcleared

variable {i : Nat}

theorem next_calls (B : CircuitBreaker) (s : Pool) {k : Nat} (answer : Bool) (hk : k ≠ i) : (B.next s i answer).calls k = s.calls k := by
  have hset : ∀ (t : Pool) q, (t.set i q).calls k = t.calls k := fun t q => Function.update_of_ne hk _ _
  unfold next
  split
  · split <;> exact hset _ _
  · exact hset _ _
  · split <;> exact hset _ _
  · split <;> exact hset _ _
  · split <;> exact hset _ _
  · exact hset _ _
  · rfl

theorem step_moves (h : B.Sound s) (a : Act) : Moves (B := B) s (B.step s a) a := by
  cases a with
  | tick micros => exact .same rfl
  | record i signal => exact .same rfl
  | reset i request => exact .same rfl
  | die i => exact .same rfl
  | next i answer => exact next_moves h i answer
  | seed =>
    obtain ⟨b, hb⟩ := h.seeded
    refine .same ?_
    simp only [step, seed_of_row hb]
  | compact completedAt commits =>
    refine .compacted completedAt commits rfl ?_ ?_
    · simp only [step, compact]
      split <;> rfl
    · simp only [step, compact]
      split
      · exact List.filter_sublist
      · exact List.Sublist.refl _

variable {s' : Pool} {a : Act}

theorem Moves.sound (h : B.Sound s) (hm : Moves (B := B) s s' a) : B.Sound s' := by
  cases hm with
  | same hsame => exact ⟨hsame ▸ h.journaled, by rw [state, hsame]; exact h.seeded⟩
  | compacted completedAt commits ha hown hj => exact ⟨h.journaled.of_same hown hj, by rw [state, hown]; exact h.seeded⟩
  | recorded i answer signal kind now previous ha hcall hr =>
    obtain ⟨b, b', hb, hb', hcase, hjournals⟩ := hr.state
    refine ⟨h.journaled.of_journals hb hb' ?_ (fun d hd => ?_) hjournals, b', hb'⟩
    · rcases hcase with ⟨rfl, -⟩ | ⟨-, -, code, message, rfl, -⟩
      · exact le_refl _
      · exact Nat.le_succ _
    · rw [hr.stored]
      exact List.mem_append_left _ hd
  | cleared i answer request read now ha hcall hc =>
    obtain ⟨b, hb, -, hb', hjournals⟩ := hc.state
    refine ⟨h.journaled.of_journals hb hb' (Nat.le_succ _) (fun d hd => ?_) hjournals, _, hb'⟩
    rw [hc.incidents]
    exact hd

theorem Moves.told (h : B.Sound s) (hm : Moves (B := B) s s' a) : B.Told s s' a := by
  obtain ⟨b, hb⟩ := h.seeded
  cases hm with
  | same hsame =>
    have hstate : B.state s' = B.state s := by rw [state, state, hsame]
    refine ⟨fun c c' hc hc' ht hn => ?_, fun c hc => ⟨c, hstate.trans hc, Or.inl rfl⟩, fun _ _ _ _ _ _ _ _ _ => hsame⟩
    obtain rfl := Option.some.inj (hc.symm.trans (hstate.symm.trans hc'))
    cases ht.symm.trans hn
  | compacted completedAt commits ha hown hj =>
    have hstate : B.state s' = B.state s := by rw [state, state, hown]
    refine ⟨fun c c' hc hc' ht hn => ?_, fun c hc => ⟨c, hstate.trans hc, Or.inl rfl⟩, fun _ _ _ _ _ _ ha' => ?_⟩
    · obtain rfl := Option.some.inj (hc.symm.trans (hstate.symm.trans hc'))
      cases ht.symm.trans hn
    · cases ha.symm.trans ha'
  | recorded i answer signal kind now previous ha hcall hr =>
    obtain ⟨c, c', hc, hc', hcase, row, hrow, -⟩ := hr.state
    refine ⟨fun d d' hd hd' ht hn => ?_, fun d hd => ⟨c', hc', ?_⟩, fun k _ _ _ _ _ ha' hcall' hknown => ?_⟩
    · obtain rfl := Option.some.inj (hc.symm.trans hd)
      obtain rfl := Option.some.inj (hc'.symm.trans hd')
      rcases hcase with ⟨rfl, -⟩ | ⟨hclear, -⟩
      · cases ht.symm.trans hn
      · cases ht.symm.trans hclear
    · obtain rfl := Option.some.inj (hc.symm.trans hd)
      refine hcase.imp And.left ?_
      rintro ⟨hclear, -, code, message, rfl, -⟩
      refine ⟨fun htrip => ?_, rfl, row, hrow⟩
      cases htrip.trans hclear
    · cases ha.symm.trans ha'
      cases hcall.symm.trans hcall'
      exact absurd hr.fresh hknown
  | cleared i answer request read now ha hcall hc =>
    obtain ⟨c, hcs, htripped, hc', row, hrow, -⟩ := hc.state
    refine ⟨fun _ _ _ _ _ _ => ⟨read, now, i, answer, request, ha, hcall⟩, fun d hd => ⟨_, hc', Or.inr ?_⟩,
      fun k _ _ _ _ _ ha' hcall' _ => ?_⟩
    · obtain rfl := Option.some.inj (hcs.symm.trans hd)
      refine ⟨fun hstate => ?_, rfl, row, hrow⟩
      cases hstate.trans htripped
    · cases ha.symm.trans ha'
      cases hcall.symm.trans hcall'

theorem start_state (clock : Int) :
    B.state (B.start clock) = some B.seedRow ∧ (B.start clock).journal.tables.own.incidents = Table.empty := by
  have hempty : (Table.empty : Table BreakerState.accountId).get? B.seedRow.accountId = none := rfl
  obtain ⟨t, ht⟩ := Table.insert?_isSome hempty
  have hseed : B.seed ⟨Table.empty, Table.empty⟩ = ⟨t, Table.empty⟩ := by
    unfold seed
    rw [ht]
  unfold state start JournalState.empty row
  rw [hseed]
  exact ⟨(Table.get?_insert? ht _).trans (if_pos rfl), rfl⟩

theorem start_sound (clock : Int) : B.Sound (B.start clock) where
  journaled := by
    refine ⟨?_, ?_⟩ <;> intro row hr <;> cases hr
  seeded := ⟨_, (start_state clock).1⟩

theorem run_sound (clock : Int) (acts : List Act) : B.Sound (B.run clock acts) := by
  unfold run
  induction acts using List.reverseRecOn with
  | nil => exact start_sound clock
  | append_singleton acts a ih =>
    rw [List.foldl_append]
    exact (step_moves ih a).sound ih

/-- **Every step of every run**, of any calls in any order. -/
theorem step_told (clock : Int) (acts : List Act) (a : Act) : B.Told (B.run clock acts) (B.run clock (acts ++ [a])) a := by
  have hs := run_sound (B := B) clock acts
  unfold run at hs ⊢
  rw [List.foldl_append]
  exact (step_moves hs a).told hs

/-! ## Orderly runs -/

/-- The breaker accounts for a daily loss recorded at `t`, at `now`: it is tripped by a daily loss of its session, or
that session is over. -/
def Accounts (B : CircuitBreaker) (b : BreakerState) (now t : Int) : Prop :=
  B.Covers b t ∨ B.sessionKey t < B.sessionKey now

def Losses (B : CircuitBreaker) (own : BreakerTables) (b : BreakerState) (now : Int) : Prop :=
  ∀ d ∈ own.incidents.rows, d.signalKind = .DAILY_LOSS_BREACH → B.Accounts b now d.recordedAt

/-- What a reset that has read the clock knows, if it still knows the breaker. -/
structure Timed (B : CircuitBreaker) (own : BreakerTables) (read : BreakerState) (now : Int) : Prop where
  tripped : ∀ t, read.trippedAt = some t → t ≤ now
  passed : B.sameSessionLoss read now = false
  losses : B.Losses own read now

/-- What holds of a call wherever it stands, the breaker being `b`. -/
def PhaseOk (B : CircuitBreaker) (own : BreakerTables) (clock : Int) (b : BreakerState) : Phase → Prop
  | .clocked _ _ now => now ≤ clock
  | .recording _ _ now _ => now ≤ clock
  | .examined _ read => read = b ∨ b.state = .CLEAR
  | .timed _ read now => now ≤ clock ∧ (read = b ∧ B.Timed own read now ∨ b.state = .CLEAR)
  | .ready _ read now => now ≤ clock ∧ (read = b ∧ B.Timed own read now ∨ b.state = .CLEAR)
  | .reconciled _ read now => now ≤ clock ∧ (read = b ∧ B.Timed own read now ∨ b.state = .CLEAR)
  | _ => True

/-- What every state of an orderly run keeps. -/
structure Inv (B : CircuitBreaker) (s : Pool) (b : BreakerState) : Prop where
  state : B.state s = some b
  tripped : ∀ t, b.trippedAt = some t → t ≤ s.clock
  losses : B.Losses s.journal.tables.own b s.clock
  calls : ∀ i p, s.calls i = some p → B.PhaseOk s.journal.tables.own s.clock b p

variable {own : BreakerTables} {clock : Int} {b : BreakerState}
variable {now : Int}

theorem Accounts.later {now' t : Int} (h : B.Accounts b now t) (hle : now ≤ now') : B.Accounts b now' t :=
  h.imp id fun hlt => hlt.trans_le (B.session_mono now now' hle)

variable {read : BreakerState}

theorem Timed.over (h : B.Timed own read now) {d : Incident}
    (hd : d ∈ own.incidents.rows) (hkind : d.signalKind = .DAILY_LOSS_BREACH) : B.sessionKey d.recordedAt < B.sessionKey now := by
  rcases h.losses d hd hkind with ⟨-, hcode, t, ht, hkey⟩ | hlt
  · have hle := B.session_mono t now (h.tripped t ht)
    have hne : B.sessionKey t ≠ B.sessionKey now := by
      have hpassed := h.passed
      unfold sameSessionLoss at hpassed
      rw [hcode, ht] at hpassed
      simpa using hpassed
    rw [← hkey]
    exact lt_of_le_of_ne hle hne
  · exact hlt

/-- A step that leaves the row and the incidents alone, and does not set the clock back. -/
theorem Inv.keep (h : B.Inv s b) (hown : s'.journal.tables.own = s.journal.tables.own) (hclock : s.clock ≤ s'.clock)
    (hcalls : ∀ i p, s'.calls i = some p → s.calls i = some p ∨ B.PhaseOk s.journal.tables.own s'.clock b p) : B.Inv s' b := by
  have hstate : B.state s' = B.state s := by rw [CircuitBreaker.state, CircuitBreaker.state, hown]
  refine ⟨hstate.trans h.state, fun t ht => (h.tripped t ht).trans hclock, fun d hd hkind => ?_, fun i p hp => ?_⟩
  · rw [hown] at hd
    exact (h.losses d hd hkind).later hclock
  · rw [hown]
    rcases hcalls i p hp with hp | hp
    · have hok := h.calls i p hp
      cases p with
      | clocked signal kind now => exact le_trans hok hclock
      | recording signal kind now previous => exact le_trans hok hclock
      | examined request read => exact hok
      | timed request read now => exact ⟨hok.1.trans hclock, hok.2⟩
      | ready request read now => exact ⟨hok.1.trans hclock, hok.2⟩
      | reconciled request read now => exact ⟨hok.1.trans hclock, hok.2⟩
      | returned state onTrip => trivial
      | raised e => trivial
    · exact hp

/-- A call of an unchanged breaker moves on. -/
theorem Inv.set (h : B.Inv s b) {q : Option Phase} (hq : ∀ p, q = some p → B.PhaseOk s.journal.tables.own s.clock b p) : B.Inv (s.set i q) b := by
  refine h.keep rfl (le_refl _) fun k p hp => ?_
  by_cases hk : k = i
  · subst hk
    exact Or.inr (hq p (by simpa [Pool.set] using hp))
  · exact Or.inl (by simpa [Pool.set, hk] using hp)

theorem beginReset_ok (h : B.Inv s b) (request : ResetRequest) :
    B.PhaseOk s.journal.tables.own s.clock b (B.beginReset request s.journal.tables.own) := by
  unfold beginReset
  split
  · trivial
  · have hrow : B.row s.journal.tables.own = some b := h.state
    rw [hrow]
    cases hstate : b.state with
    | CLEAR => simp only [hstate]; trivial
    | TRIPPED => simp only [hstate]; exact Or.inl rfl

theorem beginRecord_ok (signal : BreakerSignal) : B.PhaseOk own clock b (beginRecord signal clock) := by
  unfold beginRecord
  split
  · trivial
  · exact le_refl _

theorem outcome_ok (previous : BreakerState) (result : Except (JournalError BreakerError) BreakerState) :
    B.PhaseOk own clock b (outcome previous result) := by
  cases result <;> trivial

variable {answer : Bool}

theorem Inv.next_quiet (h : B.Inv s b) {p : Phase} (hcall : s.calls i = some p)
    (hrecording : ∀ signal kind now previous, p ≠ .recording signal kind now previous)
    (hreconciled : ∀ request read now, p ≠ .reconciled request read now) : B.Inv (B.next s i answer) b := by
  have hok := h.calls i p hcall
  cases p with
  | recording signal kind now previous => exact absurd rfl (hrecording _ _ _ _)
  | reconciled request read now => exact absurd rfl (hreconciled _ _ _)
  | returned state onTrip =>
    simp only [next, hcall]
    exact h
  | raised e =>
    simp only [next, hcall]
    exact h
  | clocked signal kind now =>
    simp only [next, hcall]
    split
    · exact h.set (by rintro _ ⟨⟩; trivial)
    · exact h.set (by rintro _ ⟨⟩; exact hok)
  | examined request read =>
    simp only [next, hcall]
    split
    · exact h.set (by rintro _ ⟨⟩; trivial)
    · rename_i hpassed
      refine h.set ?_
      rintro _ ⟨⟩
      refine ⟨le_refl _, hok.imp ?_ id⟩
      rintro rfl
      exact ⟨rfl, h.tripped, by simpa using hpassed, h.losses⟩
  | timed request read now =>
    simp only [next, hcall]
    split
    · exact h.set (by rintro _ ⟨⟩; exact hok)
    · exact h.set (by rintro _ ⟨⟩; trivial)
  | ready request read now =>
    simp only [next, hcall]
    split
    · exact h.set (by rintro _ ⟨⟩; exact hok)
    · exact h.set (by rintro _ ⟨⟩; trivial)

variable {journal : BreakerJournal}

/-- A new incident of an orderly run. -/
theorem Inv.recorded (h : B.Inv s b) {kind : SignalKind} {signal : BreakerSignal}
    (hnow : now ≤ s.clock) (hr : B.Recorded kind signal now s.journal.tables journal.tables)
    (hclear : b.state = .CLEAR → B.HasReason kind signal now s.journal.tables.own → ∀ k p, s.calls k = some p → p.holds = none)
    (htrip : b.state = .TRIPPED → kind = .DAILY_LOSS_BREACH → B.Covers b now) : ∃ b', B.Inv { s with journal := journal } b' := by
  obtain ⟨c, b', hc, hb', hcase, -⟩ := hr.state
  obtain rfl := Option.some.inj (h.state.symm.trans hc)
  have hmem : ∀ d ∈ journal.tables.own.incidents.rows,
      d ∈ s.journal.tables.own.incidents.rows ∨ d = B.incident kind signal now := fun d hd => by
    rw [hr.stored] at hd
    exact (List.mem_append.mp hd).imp id List.mem_singleton.mp
  refine ⟨b', ?_⟩
  rcases hcase with ⟨rfl, hquiet⟩ | ⟨hstate, hreason, code, message, rfl, hcode⟩
  · -- no trip: a new daily loss is covered by the row
    have hnew : kind = .DAILY_LOSS_BREACH → B.Covers b' now := fun hkind => by
      cases hstate : b'.state with
      | CLEAR => exact absurd (hkind ▸ by decide) (hquiet hstate)
      | TRIPPED => exact htrip hstate hkind
    have hlosses : ∀ now' : Int, B.Losses s.journal.tables.own b' now' → B.Losses journal.tables.own b' now' := by
      intro now' hl d hd hkind
      rcases hmem d hd with hd | rfl
      · exact hl d hd hkind
      · exact Or.inl (hnew hkind)
    refine ⟨hb', h.tripped, hlosses _ h.losses, fun i p hp => ?_⟩
    have hok := h.calls i p hp
    have htimed : ∀ read now', read = b' ∧ B.Timed s.journal.tables.own read now' ∨ b'.state = .CLEAR →
        read = b' ∧ B.Timed journal.tables.own read now' ∨ b'.state = .CLEAR := by
      intro read now' ht
      refine ht.imp ?_ id
      rintro ⟨rfl, hread⟩
      exact ⟨rfl, hread.tripped, hread.passed, hlosses _ hread.losses⟩
    cases p with
    | timed request read now' => exact ⟨hok.1, htimed read now' hok.2⟩
    | ready request read now' => exact ⟨hok.1, htimed read now' hok.2⟩
    | reconciled request read now' => exact ⟨hok.1, htimed read now' hok.2⟩
    | clocked => exact hok
    | recording => exact hok
    | examined => exact hok
    | returned => trivial
    | raised => trivial
  · -- a trip: every earlier loss is over, and no reset is in flight
    refine ⟨hb', fun t ht => ?_, fun d hd hkind => ?_, fun i p hp => ?_⟩
    · cases ht
      exact hnow
    · rcases hmem d hd with hd | rfl
      · rcases h.losses d hd hkind with ⟨htripped, -⟩ | hlt
        · cases htripped.symm.trans hstate
        · exact Or.inr hlt
      · have hkind' : kind = .DAILY_LOSS_BREACH := hkind
        refine Or.inl ⟨rfl, ?_, now, rfl, rfl⟩
        rw [← hkind', ← hcode (hkind' ▸ by decide)]
        rfl
    · have hnone := hclear hstate hreason i p hp
      have hok := h.calls i p hp
      cases p with
      | timed => cases hnone
      | ready => cases hnone
      | reconciled => cases hnone
      | examined => cases hnone
      | clocked => exact hok
      | recording => exact hok
      | returned => trivial
      | raised => trivial

/-- The commit of a reset. -/
theorem Inv.cleared (h : B.Inv s b) {commandId reason : String}
    (hnow : now ≤ s.clock) (hread : read = b ∧ B.Timed s.journal.tables.own read now ∨ b.state = .CLEAR)
    (hc : B.Cleared commandId reason now s.journal.tables journal.tables) : ∃ b', B.Inv { s with journal := journal } b' := by
  obtain ⟨c, hcs, htripped, hc', -⟩ := hc.state
  obtain rfl := Option.some.inj (h.state.symm.trans hcs)
  rcases hread with ⟨rfl, htimed⟩ | hclear
  · refine ⟨_, hc', h.tripped, fun d hd hkind => ?_, fun i p hp => ?_⟩
    · rw [hc.incidents] at hd
      exact Or.inr ((htimed.over hd hkind).trans_le (B.session_mono now s.clock hnow))
    · have hok := h.calls i p hp
      cases p with
      | timed => exact ⟨hok.1, Or.inr rfl⟩
      | ready => exact ⟨hok.1, Or.inr rfl⟩
      | reconciled => exact ⟨hok.1, Or.inr rfl⟩
      | examined => exact Or.inr rfl
      | clocked => exact hok
      | recording => exact hok
      | returned => trivial
      | raised => trivial
  · cases htripped.symm.trans hclear

theorem Inv.next (h : B.Inv s b) (hs : B.Sound s) (ho : B.Orderly s (.next i answer)) : ∃ b', B.Inv (B.next s i answer) b' := by
  cases hcall : s.calls i with
  | none =>
    refine ⟨b, ?_⟩
    simp only [CircuitBreaker.next, hcall]
    exact h
  | some p =>
    have hok := h.calls i p hcall
    cases p with
    | recording signal kind now previous =>
      cases hcommit : mutateBatchWork s.journal (B.applySignal kind signal now s.clock) with
      | mk result journal =>
        have hstep : B.next s i answer = { s with journal := journal }.set i (some (outcome previous result)) := by
          simp only [CircuitBreaker.next, hcall, hcommit]
        rw [hstep]
        obtain ⟨b', h'⟩ : ∃ b', B.Inv { s with journal := journal } b' := by
          rcases applySignal_spec hcommit hs.journaled with hsame | hr
          · exact ⟨b, h.keep (congrArg Tables.own hsame) (le_refl _) fun k p hp => Or.inl hp⟩
          · obtain ⟨hclear, htrip⟩ := ho signal kind now previous b hcall h.state hr.fresh
            exact h.recorded hok hr hclear htrip
        exact ⟨b', h'.set (by rintro _ ⟨⟩; exact outcome_ok _ _)⟩
    | reconciled request read now =>
      cases hcommit : mutateBatchWork s.journal (B.reset request.commandId (strip request.reason) now s.clock) with
      | mk result journal =>
        have hstep : B.next s i answer = { s with journal := journal }.set i (some (outcome read result)) := by
          simp only [CircuitBreaker.next, hcall, hcommit]
        rw [hstep]
        obtain ⟨b', h'⟩ : ∃ b', B.Inv { s with journal := journal } b' := by
          rcases reset_spec hcommit hs.journaled with hsame | hc
          · exact ⟨b, h.keep (congrArg Tables.own hsame) (le_refl _) fun k p hp => Or.inl hp⟩
          · exact h.cleared hok.1 hok.2 hc
        exact ⟨b', h'.set (by rintro _ ⟨⟩; exact outcome_ok _ _)⟩
    | clocked => exact ⟨b, h.next_quiet hcall (by rintro _ _ _ _ ⟨⟩) (by rintro _ _ _ ⟨⟩)⟩
    | examined => exact ⟨b, h.next_quiet hcall (by rintro _ _ _ _ ⟨⟩) (by rintro _ _ _ ⟨⟩)⟩
    | timed => exact ⟨b, h.next_quiet hcall (by rintro _ _ _ _ ⟨⟩) (by rintro _ _ _ ⟨⟩)⟩
    | ready => exact ⟨b, h.next_quiet hcall (by rintro _ _ _ _ ⟨⟩) (by rintro _ _ _ ⟨⟩)⟩
    | returned => exact ⟨b, h.next_quiet hcall (by rintro _ _ _ _ ⟨⟩) (by rintro _ _ _ ⟨⟩)⟩
    | raised => exact ⟨b, h.next_quiet hcall (by rintro _ _ _ _ ⟨⟩) (by rintro _ _ _ ⟨⟩)⟩

theorem Inv.step (h : B.Inv s b) (hs : B.Sound s) (ho : B.Orderly s a) : ∃ b', B.Inv (B.step s a) b' := by
  cases a with
  | next i answer => exact h.next hs ho
  | tick micros => exact ⟨b, h.keep rfl (le_add_of_nonneg_right ho) fun k p hp => Or.inl hp⟩
  | record i signal => exact ⟨b, h.set (by rintro _ ⟨⟩; exact beginRecord_ok signal)⟩
  | reset i request => exact ⟨b, h.set (by rintro _ ⟨⟩; exact beginReset_ok h request)⟩
  | die i => exact ⟨b, h.set (by rintro _ ⟨⟩)⟩
  | seed => exact ⟨b, h.keep (seed_of_row h.state) (le_refl _) fun k p hp => Or.inl hp⟩
  | compact completedAt commits =>
    refine ⟨b, h.keep ?_ (le_refl _) fun k p hp => Or.inl hp⟩
    simp only [CircuitBreaker.step, compact]
    split <;> rfl

theorem Inv.examined (h : B.Inv s b) (a : Act) : B.Examined s (B.step s a) a := by
  rintro c c' read now hc hc' htripped hclear ⟨i, answer, request, rfl, hcall⟩
  obtain rfl := Option.some.inj (h.state.symm.trans hc)
  rcases (h.calls i _ hcall).2 with ⟨rfl, htimed⟩ | hb
  · exact ⟨rfl, fun d hd hkind => (htimed.over hd hkind).ne⟩
  · cases htripped.symm.trans hb

theorem start_inv (clock : Int) : B.Inv (B.start clock) B.seedRow := by
  obtain ⟨hstate, hincidents⟩ := start_state (B := B) clock
  refine ⟨hstate, ?_, fun d hd => ?_, ?_⟩
  · rintro t ⟨⟩
  · rw [hincidents] at hd
    cases hd
  · rintro i p ⟨⟩

/-- What the breaker promises of every step: only an examined reset clears a trip. -/
def Promised (B : CircuitBreaker) (clock : Int) (acts : List Act) : Prop :=
  ∀ pre a, pre ++ [a] <+: acts → B.Told (B.run clock pre) (B.run clock (pre ++ [a])) a ∧
    B.Examined (B.run clock pre) (B.run clock (pre ++ [a])) a

/-- **Orderly runs keep the promise**, over every interleaving of records and resets. -/
theorem resets_examined (B : CircuitBreaker) (clock : Int) (acts : List Act)
    (h : Meets B.step B.Orderly (B.start clock) acts) : B.Promised clock acts := by
  intro pre a hpre
  refine ⟨step_told clock pre a, ?_⟩
  have hstep : ∀ s a, (B.Sound s ∧ ∃ b, B.Inv s b) → B.Orderly s a → B.Sound (B.step s a) ∧ ∃ b, B.Inv (B.step s a) b := by
    rintro s a ⟨hs, b, hb⟩ ho
    exact ⟨(step_moves hs a).sound hs, hb.step hs ho⟩
  have hmeets := h.of_prefix ((List.prefix_append pre [a]).trans hpre)
  obtain ⟨-, b, hb⟩ := hmeets.invariant hstep ⟨start_sound clock, _, start_inv clock⟩
  unfold run
  rw [List.foldl_append]
  exact hb.examined a

end CircuitBreaker

def dayMicros : Int := 24 * 60 * 60 * 1000000

def sampleBreaker : CircuitBreaker where
  accountId := "DU1"
  sha256 := id
  isoformat := toString
  sessionKey t := t / dayMicros
  session_mono _ _ h := Int.ediv_le_ediv (by decide) h
  disconnectGrace := 30 * 1000000

/-- A signal, to its commit. -/
def recordActs (i : Nat) (kind key : String) : List Act := [.record i ⟨kind, 0, "", key⟩, .next i true, .next i true]

/-- A reset, up to its commit. -/
def resetActs (i : Nat) (commandId : String) : List Act :=
  [.reset i ⟨commandId, "reviewed", "operator:alice"⟩, .next i true, .next i true, .next i true]

def nextSession : List Act :=
  recordActs 0 "DAILY_LOSS_BREACH" "loss" ++ [.tick dayMicros] ++ resetActs 1 "reset-1" ++ [.next 1 true]

theorem orderly_of_phase {s : Pool} {i : Nat} {answer : Bool} {p : Phase} (hcall : s.calls i = some p)
    (hp : ∀ signal kind now previous, p ≠ .recording signal kind now previous) :
    sampleBreaker.Orderly s (.next i answer) :=
  fun _ _ _ _ _ hrecording => absurd (Option.some.inj (hcall.symm.trans hrecording)) (hp _ _ _ _)

theorem resets_examined_sample : sampleBreaker.Promised 0 nextSession := by
  refine sampleBreaker.resets_examined 0 nextSession ⟨trivial, ?_, ?_, ?_, trivial, ?_, ?_, ?_, ?_, trivial⟩
  · exact orderly_of_phase (p := .clocked ⟨"DAILY_LOSS_BREACH", 0, "", "loss"⟩ .DAILY_LOSS_BREACH 0) (by decide +kernel)
      (by rintro _ _ _ _ ⟨⟩)
  · -- the one commit of a record finds the breaker clear and no other call
    intro signal kind now previous b hcall hb hfresh
    have hseed : sampleBreaker.state (sampleBreaker.run 0 (nextSession.take 2)) = some sampleBreaker.seedRow := by decide +kernel
    obtain rfl := Option.some.inj (hseed.symm.trans hb)
    refine ⟨fun _ _ k p hp => ?_, nofun⟩
    by_cases hk : k = 0
    · subst hk
      cases hcall.symm.trans hp
      rfl
    · have hnext := sampleBreaker.next_calls (sampleBreaker.run 0 (nextSession.take 1)) true hk
      have hnone : (sampleBreaker.run 0 (nextSession.take 1)).calls k = none := Function.update_of_ne hk _ _
      cases hnone.symm.trans (hnext.symm.trans hp)
  · exact Int.le_of_lt (by decide)
  · exact orderly_of_phase (p := .examined ⟨"reset-1", "reviewed", "operator:alice"⟩
      ⟨"DU1", .TRIPPED, some .DAILY_LOSS_BREACH, some "daily loss breach", 2, some 0, none, none⟩) (by decide +kernel)
      (by rintro _ _ _ _ ⟨⟩)
  · exact orderly_of_phase (p := .timed ⟨"reset-1", "reviewed", "operator:alice"⟩
      ⟨"DU1", .TRIPPED, some .DAILY_LOSS_BREACH, some "daily loss breach", 2, some 0, none, none⟩ dayMicros)
      (by decide +kernel) (by rintro _ _ _ _ ⟨⟩)
  · exact orderly_of_phase (p := .ready ⟨"reset-1", "reviewed", "operator:alice"⟩
      ⟨"DU1", .TRIPPED, some .DAILY_LOSS_BREACH, some "daily loss breach", 2, some 0, none, none⟩ dayMicros)
      (by decide +kernel) (by rintro _ _ _ _ ⟨⟩)
  · exact orderly_of_phase (p := .reconciled ⟨"reset-1", "reviewed", "operator:alice"⟩
      ⟨"DU1", .TRIPPED, some .DAILY_LOSS_BREACH, some "daily loss breach", 2, some 0, none, none⟩ dayMicros)
      (by decide +kernel) (by rintro _ _ _ _ ⟨⟩)

/-- **A daily loss hidden by another trip is reset in its session.** -/
theorem masked_loss_cleared : ¬ sampleBreaker.Promised 0
    (recordActs 0 "PROTECTIVE_ORDER_FAILURE" "stop" ++ recordActs 1 "DAILY_LOSS_BREACH" "loss" ++ resetActs 2 "reset-2" ++ [.next 2 true]) := by
  intro h
  obtain ⟨-, hexamined⟩ := h _ _ (List.prefix_refl _)
  obtain ⟨-, hlosses⟩ := hexamined
    ⟨"DU1", .TRIPPED, some .PROTECTIVE_ORDER_FAILURE, some "protective order failure", 2, some 0, none, none⟩
    ⟨"DU1", .CLEAR, none, some "reviewed", 3, some 0, some 0, some "reset-2"⟩
    ⟨"DU1", .TRIPPED, some .PROTECTIVE_ORDER_FAILURE, some "protective order failure", 2, some 0, none, none⟩ 0
    (by decide +kernel) (by decide +kernel) rfl rfl ⟨2, true, ⟨"reset-2", "reviewed", "operator:alice"⟩, rfl, by decide +kernel⟩
  exact hlosses ⟨"DU1|DAILY_LOSS_BREACH|loss", "DU1", .DAILY_LOSS_BREACH, "", 0, 0⟩ (by decide +kernel) rfl rfl

end MmrTrader.Breaker
