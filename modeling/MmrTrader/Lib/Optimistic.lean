import Mathlib.Data.List.Perm.Basic
import MmrTrader.Lib.GuardedRun

/-!
# Optimistic updates of one row, with an idempotency ledger

Several threads update one shared row.  Each reads the row, builds a whole new one, and commits it
under a revision check; a lost race starts again from a fresh read, a limited number of times.
Before the revision check the commit looks its key up in a ledger of recorded writes: an equal
entry answers the commit without a write, a different one makes it fail.

* `Protocol` — the operations: what they build, under which key, with how many attempts;
* `State`, `Action`, `step` — every interleaving of reads and commits, where the rest of a
  thread's transaction may also conflict or raise;
* `Wf.step` — what holds in every interleaving: a base with the stored revision is the stored row,
  and the revision counts the writes;
* `serial_step` — the row is the result of the completed operations one at a time in commit order,
  provided an answer from the ledger is only given to operations that have nothing left to do.
-/

namespace MmrTrader.Lib.Optimistic

/-- The operations on a row `R`; `T` is the clock value an attempt reads, `K × M` a ledger entry. -/
structure Protocol (R Op T K M : Type) where
  rev : R → Nat
  /-- The row an operation writes for the row it read; `none` when it has nothing to write. -/
  build : Op → T → R → Option R
  entry : Op → T → R → R → K × M
  attempts : Op → Nat
  build_rev : ∀ {op : Op} {t : T} {r r' : R}, build op t r = some r' → rev r' = rev r + 1

inductive Phase (R T : Type) where
  | start (left : Nat)
  | holding (left : Nat) (t : T) (base new : R)
  | done
  | failed

structure Thread (R Op T : Type) where
  op : Op
  phase : Phase R T

def Thread.isDone {R Op T : Type} (th : Thread R Op T) : Bool :=
  match th.phase with
  | .done => true
  | _ => false

/-- The stored row, the ledger and the threads.  `log` and `writes` are ghosts: the operations
    that completed, in order, and the number of rows written. -/
structure State (R Op T K M : Type) where
  row : R
  ledger : List (K × M)
  threads : List (Thread R Op T)
  log : List (Op × T)
  writes : Nat

/-- What the rest of a thread's transaction does. -/
inductive Rest where
  | commits
  | conflicts
  | raises
  deriving DecidableEq

inductive Action (Op T : Type) where
  | spawn (op : Op)
  | read (i : Nat) (t : T)
  | commit (i : Nat) (rest : Rest)

variable {R Op T K M : Type} [DecidableEq K] [DecidableEq M] (P : Protocol R Op T K M)

/-- Apply one operation to the row, alone. -/
def Protocol.apply (r : R) (op : Op × T) : R := (P.build op.1 op.2 r).getD r

/-- After a conflict: another attempt, or give up. -/
def retry (left : Nat) : Phase R T := if left = 0 then .failed else .start left

def State.setPhase (s : State R Op T K M) (i : Nat) (op : Op) (ph : Phase R T) : State R Op T K M :=
  { s with threads := s.threads.set i ⟨op, ph⟩ }

/-- The thread returns. -/
def State.complete (s : State R Op T K M) (i : Nat) (op : Op) (t : T) : State R Op T K M :=
  { s.setPhase i op .done with log := s.log ++ [(op, t)] }

def step (s : State R Op T K M) : Action Op T → State R Op T K M
  | .spawn op => { s with threads := s.threads ++ [⟨op, .start (P.attempts op)⟩] }
  | .read i t =>
      match s.threads[i]? with
      | some ⟨op, .start (left + 1)⟩ =>
          match P.build op t s.row with
          | none => s.complete i op t
          | some new => s.setPhase i op (.holding left t s.row new)
      | _ => s
  | .commit i rest =>
      match s.threads[i]? with
      | some ⟨op, .holding left t base new⟩ =>
          match rest with
          | .conflicts => s.setPhase i op (retry left)
          | .raises => s.setPhase i op .failed
          | .commits =>
              match s.ledger.lookup (P.entry op t base new).1 with
              | some m => if m = (P.entry op t base new).2 then s.complete i op t else s.setPhase i op .failed
              | none =>
                  if P.rev s.row + 1 = P.rev new then
                    { s.complete i op t with
                      row := new
                      ledger := s.ledger ++ [P.entry op t base new]
                      writes := s.writes + 1 }
                  else s.setPhase i op (retry left)
      | _ => s

/-- What one action can do to thread `i`, in a state where it runs `op`. -/
inductive Move (s : State R Op T K M) (a : Action Op T) (i : Nat) (op : Op) : State R Op T K M → Prop where
  | nothing (left : Nat) (t : T) (ha : a = .read i t) (hth : s.threads[i]? = some ⟨op, .start (left + 1)⟩)
      (hb : P.build op t s.row = none) : Move s a i op (s.complete i op t)
  | take (left : Nat) (t : T) (new : R) (hth : s.threads[i]? = some ⟨op, .start (left + 1)⟩)
      (hb : P.build op t s.row = some new) : Move s a i op (s.setPhase i op (.holding left t s.row new))
  | lose (left : Nat) (t : T) (base new : R) (ph : Phase R T)
      (hth : s.threads[i]? = some ⟨op, .holding left t base new⟩)
      (hph : ph = .failed ∨ 0 < left ∧ ph = .start left) : Move s a i op (s.setPhase i op ph)
  | replay (left : Nat) (t : T) (base new : R) (ha : a = .commit i .commits)
      (hth : s.threads[i]? = some ⟨op, .holding left t base new⟩)
      (hl : s.ledger.lookup (P.entry op t base new).1 = some (P.entry op t base new).2) :
      Move s a i op (s.complete i op t)
  | write (left : Nat) (t : T) (base new : R) (hth : s.threads[i]? = some ⟨op, .holding left t base new⟩)
      (hk : s.ledger.lookup (P.entry op t base new).1 = none) (hr : P.rev s.row + 1 = P.rev new) :
      Move s a i op { s.complete i op t with
        row := new, ledger := s.ledger ++ [P.entry op t base new], writes := s.writes + 1 }

theorem retry_eq (left : Nat) : (retry left : Phase R T) = .failed ∨ 0 < left ∧ retry left = (.start left : Phase R T) := by
  unfold retry
  split
  · exact Or.inl rfl
  · exact Or.inr ⟨by omega, rfl⟩

/-- **What one action can do.** -/
theorem step_cases (s : State R Op T K M) (a : Action Op T) :
    step P s a = s ∨ (∃ op, a = .spawn op ∧
        step P s a = { s with threads := s.threads ++ [⟨op, .start (P.attempts op)⟩] }) ∨
      ∃ i th, s.threads[i]? = some th ∧ th.isDone = false ∧ Move P s a i th.op (step P s a) := by
  cases a with
  | spawn op => exact Or.inr (Or.inl ⟨op, rfl, rfl⟩)
  | read i t =>
    simp only [step]
    split
    · rename_i op left hth
      refine Or.inr (Or.inr ⟨i, _, hth, rfl, ?_⟩)
      split
      · rename_i hb
        exact .nothing left t rfl hth hb
      · rename_i new hb
        exact .take left t new hth hb
    · exact Or.inl rfl
  | commit i rest =>
    simp only [step]
    split
    · rename_i op left t base new hth
      refine Or.inr (Or.inr ⟨i, _, hth, rfl, ?_⟩)
      split
      · exact .lose left t base new _ hth (retry_eq left)
      · exact .lose left t base new _ hth (Or.inl rfl)
      · split
        · rename_i m hm
          split
          · rename_i heq
            exact .replay left t base new rfl hth (heq ▸ hm)
          · exact .lose left t base new _ hth (Or.inl rfl)
        · rename_i hm
          split
          · rename_i hr
            exact .write left t base new hth hm hr
          · exact .lose left t base new _ hth (retry_eq left)
    · exact Or.inl rfl

omit [DecidableEq K] [DecidableEq M] in
theorem setPhase_self {s : State R Op T K M} {i : Nat} {th : Thread R Op T} (h : s.threads[i]? = some th)
    (op : Op) (ph : Phase R T) : (s.setPhase i op ph).threads[i]? = some ⟨op, ph⟩ := by
  have hlt : i < s.threads.length := (List.getElem?_eq_some_iff.mp h).1
  simp [State.setPhase, List.getElem?_set_self hlt]

variable {op : Op}
variable {s' : State R Op T K M} {a : Action Op T}

omit [DecidableEq M] in
theorem Move.thread {s : State R Op T K M} {i : Nat} (h : Move P s a i op s') : ∃ ph, s'.threads[i]? = some ⟨op, ph⟩ := by
  cases h with
  | nothing left t ha hth hb => exact ⟨_, setPhase_self hth op _⟩
  | take left t new hth hb => exact ⟨_, setPhase_self hth op _⟩
  | lose left t base new ph hth hph => exact ⟨_, setPhase_self hth op _⟩
  | replay left t base new ha hth hl => exact ⟨_, setPhase_self hth op _⟩
  | write left t base new hth hk hr => exact ⟨_, setPhase_self hth op _⟩

variable {j : Nat}

omit [DecidableEq M] in
theorem Move.other {s : State R Op T K M} {i : Nat} (h : Move P s a i op s') (hij : i ≠ j) : s'.threads[j]? = s.threads[j]? := by
  cases h <;> simp [State.complete, State.setPhase, List.getElem?_set_ne hij]

/-- A thread keeps its phase unless the action is its own move. -/
theorem step_thread {s : State R Op T K M} (a : Action Op T) {th : Thread R Op T} (h : s.threads[j]? = some th) :
    (step P s a).threads[j]? = some th ∨ th.isDone = false ∧ Move P s a j th.op (step P s a) := by
  rcases step_cases P s a with heq | ⟨op, -, heq⟩ | ⟨i, th', hth, hd, hmove⟩
  · left
    rw [heq]
    exact h
  · left
    rw [heq]
    have hlt : j < s.threads.length := (List.getElem?_eq_some_iff.mp h).1
    simpa [List.getElem?_append_left hlt] using h
  · by_cases hij : i = j
    · subst hij
      obtain rfl : th' = th := Option.some.inj (hth.symm.trans h)
      exact Or.inr ⟨hd, hmove⟩
    · left
      rw [hmove.other P hij]
      exact h

theorem step_ops {s : State R Op T K M} (a : Action Op T) {th : Thread R Op T} (h : (step P s a).threads[j]? = some th) :
    (∃ th', s.threads[j]? = some th' ∧ th'.op = th.op) ∨ a = .spawn th.op := by
  rcases step_cases P s a with heq | ⟨op, ha, heq⟩ | ⟨i, th', hth, hd, hmove⟩
  · rw [heq] at h
    exact Or.inl ⟨th, h, rfl⟩
  · rw [heq] at h
    rcases Nat.lt_or_ge j s.threads.length with hlt | hge
    · left
      rw [List.getElem?_append_left hlt] at h
      exact ⟨th, h, rfl⟩
    · right
      rw [List.getElem?_append_right hge, List.getElem?_singleton] at h
      split at h
      · cases h
        exact ha
      · cases h
  · left
    have hset : ∀ ph, (s.threads.set i ⟨th'.op, ph⟩)[j]? = some th → ∃ th', s.threads[j]? = some th' ∧ th'.op = th.op := by
      intro ph hj
      by_cases hij : i = j
      · subst hij
        have hlt : i < s.threads.length := (List.getElem?_eq_some_iff.mp hth).1
        rw [List.getElem?_set_self hlt] at hj
        cases hj
        exact ⟨th', hth, rfl⟩
      · rw [List.getElem?_set_ne hij] at hj
        exact ⟨th, hj, rfl⟩
    generalize step P s a = s' at hmove h
    cases hmove <;> exact hset _ h

/-! ## Serial equivalence -/

/-- The operations of the threads that returned. -/
def State.doneOps (s : State R Op T K M) : List Op := (s.threads.filter Thread.isDone).map (·.op)

/-- Holds in every interleaving, whatever the ledger answers. -/
structure Wf (r₀ : R) (s : State R Op T K M) : Prop where
  counted : P.rev s.row = P.rev r₀ + s.writes
  completed : (s.log.map (·.1)).Perm s.doneOps
  /-- A base with the stored revision is the stored row. -/
  bases : ∀ th ∈ s.threads, ∀ left t base new, th.phase = .holding left t base new →
    P.build th.op t base = some new ∧ P.rev r₀ ≤ P.rev base ∧ P.rev base ≤ P.rev s.row ∧
      (P.rev base = P.rev s.row → base = s.row)

omit [DecidableEq K] [DecidableEq M] in
theorem Wf.base_eq {r₀ : R} {s : State R Op T K M} (h : Wf P r₀ s) {i left : Nat} {t : T}
    {base new : R} (hth : s.threads[i]? = some ⟨op, .holding left t base new⟩)
    (hr : P.rev s.row + 1 = P.rev new) : base = s.row ∧ P.build op t s.row = some new := by
  obtain ⟨hb, -, hle, hbase⟩ := h.bases _ (List.mem_of_getElem? hth) left t base new rfl
  have hrev := P.build_rev hb
  obtain rfl : base = s.row := hbase (by omega)
  exact ⟨rfl, hb⟩

/-- An answer from the ledger is harmless when the operation has nothing left to write. -/
def Harmless (s : State R Op T K M) : Action Op T → Prop
  | .commit i .commits => ∀ op left t base new, s.threads[i]? = some ⟨op, .holding left t base new⟩ →
      s.ledger.lookup (P.entry op t base new).1 = some (P.entry op t base new).2 → P.build op t s.row = none
  | _ => True

theorem doneOps_set {l : List (Thread R Op T)} {i : Nat} {th : Thread R Op T} (h : l[i]? = some th)
    (hd : th.isDone = false) (ph : Phase R T) :
    (((l.set i ⟨th.op, ph⟩).filter Thread.isDone).map (·.op)).Perm
      ((l.filter Thread.isDone).map (·.op) ++
        if (⟨th.op, ph⟩ : Thread R Op T).isDone then [th.op] else []) := by
  induction l generalizing i with
  | nil => simp at h
  | cons x xs ih =>
    cases i with
    | zero =>
      simp only [List.getElem?_cons_zero, Option.some.injEq] at h
      subst h
      simp only [List.set_cons_zero, List.filter_cons, hd]
      split
      · simp only [List.map_cons]
        exact (List.perm_append_singleton _ _).symm
      · simp
    | succ i =>
      simp only [List.getElem?_cons_succ] at h
      simp only [List.set_cons_succ, List.filter_cons]
      split
      · simp only [List.map_cons, List.cons_append]
        exact (ih h).cons _
      · exact ih h

section
omit [DecidableEq K] [DecidableEq M]
variable {r₀ : R} {s : State R Op T K M} {i : Nat} {th : Thread R Op T}

/-- A thread that returns without a write. -/
theorem Wf.complete (h : Wf P r₀ s) (hth : s.threads[i]? = some th) (hd : th.isDone = false) (t : T) :
    Wf P r₀ (s.complete i th.op t) := by
  refine ⟨h.counted, ?_, ?_⟩
  · have hperm := doneOps_set hth hd .done
    simp only [State.complete, State.setPhase, State.doneOps, List.map_append] at hperm ⊢
    exact (h.completed.append_right [th.op]).trans hperm.symm
  · intro x hx left t' base new hph
    rcases List.mem_or_eq_of_mem_set hx with hx | rfl
    · exact h.bases x hx left t' base new hph
    · cases hph

theorem Wf.rephase (h : Wf P r₀ s) (hth : s.threads[i]? = some th) (hd : th.isDone = false) {ph : Phase R T}
    (hnd : (⟨th.op, ph⟩ : Thread R Op T).isDone = false)
    (hh : ∀ left t base new, ph = .holding left t base new → base = s.row ∧ P.build th.op t base = some new) :
    Wf P r₀ (s.setPhase i th.op ph) := by
  refine ⟨h.counted, ?_, ?_⟩
  · have hperm := doneOps_set hth hd ph
    rw [hnd] at hperm
    simp only [Bool.false_eq_true, if_false, List.append_nil] at hperm
    exact h.completed.trans hperm.symm
  · intro x hx left t base new hph
    rcases List.mem_or_eq_of_mem_set hx with hx | rfl
    · exact h.bases x hx left t base new hph
    · obtain ⟨rfl, hb⟩ := hh left t base new hph
      have hc := h.counted
      exact ⟨hb, by omega, Nat.le_refl _, fun _ => rfl⟩

theorem Wf.write (h : Wf P r₀ s) (hth : s.threads[i]? = some th) (hd : th.isDone = false) (t : T) {new : R}
    (hr : P.rev s.row + 1 = P.rev new) (entry : K × M) :
    Wf P r₀ { s.complete i th.op t with row := new, ledger := s.ledger ++ [entry], writes := s.writes + 1 } := by
  refine ⟨?_, (h.complete P hth hd t).completed, ?_⟩
  · have hc := h.counted
    show P.rev new = P.rev r₀ + (s.writes + 1)
    omega
  · intro x hx left' t' base' new' hph
    rcases List.mem_or_eq_of_mem_set hx with hx | rfl
    · obtain ⟨hb', hge', hle', -⟩ := h.bases x hx left' t' base' new' hph
      refine ⟨hb', hge', ?_, ?_⟩
      · show P.rev base' ≤ P.rev new
        omega
      · intro heq
        have heq : P.rev base' = P.rev new := heq
        omega
    · cases hph

theorem Wf.spawn (h : Wf P r₀ s) (op : Op) (left : Nat) :
    Wf P r₀ { s with threads := s.threads ++ [⟨op, .start left⟩] } := by
  refine ⟨h.counted, ?_, ?_⟩
  · have hnot : (⟨op, .start left⟩ : Thread R Op T).isDone = false := rfl
    simp only [State.doneOps, List.filter_append, List.filter_cons, hnot]
    simpa [State.doneOps] using h.completed
  · intro x hx left' t base new hph
    rcases List.mem_append.mp hx with hx | hx
    · exact h.bases x hx left' t base new hph
    · rw [List.mem_singleton.mp hx] at hph
      cases hph

end

/-- **Every action keeps the bases true.** -/
theorem Wf.step {r₀ : R} {s : State R Op T K M} (h : Wf P r₀ s) (a : Action Op T) : Wf P r₀ (step P s a) := by
  rcases step_cases P s a with heq | ⟨op, -, heq⟩ | ⟨i, th, hth, hd, hmove⟩
  · rw [heq]
    exact h
  · rw [heq]
    exact h.spawn P op _
  · generalize Optimistic.step P s a = s' at hmove ⊢
    cases hmove with
    | nothing left t ha hth' hb => exact h.complete P hth hd t
    | take left t new hth' hb => exact h.rephase P hth hd rfl fun _ _ _ _ heq => by cases heq; exact ⟨rfl, hb⟩
    | lose left t base new ph hth' hph =>
      rcases hph with rfl | ⟨-, rfl⟩ <;> exact h.rephase P hth hd rfl (by simp)
    | replay left t base new ha hth' hl => exact h.complete P hth hd t
    | write left t base new hth' hk hr => exact h.write P hth hd t hr _

/-- **Serial equivalence**: the row is the result of the completed operations, one at a time. -/
theorem serial_step {r₀ : R} {s : State R Op T K M} (h : Wf P r₀ s) (hs : s.row = s.log.foldl P.apply r₀)
    (a : Action Op T) (hok : Harmless P s a) : (step P s a).row = (step P s a).log.foldl P.apply r₀ := by
  have hsame : ∀ {op : Op} {t : T}, P.build op t s.row = none →
      s.row = (s.log ++ [(op, t)]).foldl P.apply r₀ := by
    intro op t hb
    rw [List.foldl_append, ← hs]
    simp [Protocol.apply, hb]
  rcases step_cases P s a with heq | ⟨op, -, heq⟩ | ⟨i, th, hth, hd, hmove⟩
  · rw [heq]
    exact hs
  · rw [heq]
    exact hs
  · generalize step P s a = s' at hmove ⊢
    cases hmove with
    | nothing left t ha hth' hb => exact hsame hb
    | take left t new hth' hb => exact hs
    | lose left t base new ph hth' hph => exact hs
    | replay left t base new ha hth' hl =>
      subst ha
      exact hsame (hok _ left t base new hth' hl)
    | write left t base new hth' hk hr =>
      obtain ⟨-, hb⟩ := h.base_eq P hth' hr
      show new = (s.log ++ [(th.op, t)]).foldl P.apply r₀
      rw [List.foldl_append, ← hs]
      simp [Protocol.apply, hb]

theorem row_changes (s : State R Op T K M) (a : Action Op T) :
    (step P s a).row = s.row ∨ ∃ op t, (step P s a).log = s.log ++ [(op, t)] := by
  rcases step_cases P s a with heq | ⟨op, -, heq⟩ | ⟨i, th, hth, hd, hmove⟩
  · exact Or.inl (by rw [heq])
  · exact Or.inl (by rw [heq])
  · generalize step P s a = s' at hmove ⊢
    cases hmove with
    | nothing left t ha hth' hb => exact Or.inl rfl
    | take left t new hth' hb => exact Or.inl rfl
    | lose left t base new ph hth' hph => exact Or.inl rfl
    | replay left t base new ha hth' hl => exact Or.inl rfl
    | write left t base new hth' hk hr => exact Or.inr ⟨th.op, t, rfl⟩

theorem rev_mono (s : State R Op T K M) (a : Action Op T) : P.rev s.row ≤ P.rev (step P s a).row := by
  rcases step_cases P s a with heq | ⟨op, -, heq⟩ | ⟨i, th, hth, hd, hmove⟩
  · exact Nat.le_of_eq (congrArg (fun u => P.rev u.row) heq.symm)
  · exact Nat.le_of_eq (congrArg (fun u => P.rev u.row) heq.symm)
  · generalize step P s a = s' at hmove ⊢
    cases hmove with
    | nothing left t ha hth' hb => exact Nat.le_refl _
    | take left t new hth' hb => exact Nat.le_refl _
    | lose left t base new ph hth' hph => exact Nat.le_refl _
    | replay left t base new ha hth' hl => exact Nat.le_refl _
    | write left t base new hth' hk hr =>
      show P.rev s.row ≤ P.rev new
      omega

end MmrTrader.Lib.Optimistic
