import Mathlib.Data.List.Induction
import Mathlib.Logic.Function.Basic

/-!
# Snapshot isolation

A store has one optional row for each key.  A transaction reads the store of its `BEGIN` and its
own writes; its commit fails only when a transaction that committed in between wrote one of the
rows it wrote itself.

* `Store`, `Conn` — the committed rows, and one open transaction's view of them;
* `System`, `State`, `step` — every interleaving of `BEGIN`, `COMMIT` and `ROLLBACK`; transactions
  that run under the one write lock never overlap each other;
* `Wf` — the store is the replay of the commits, and a snapshot is the replay of those that were
  committed at its `BEGIN`;
* `Wf.no_lost_update` — a row that a transaction writes is, when it commits, the row it read.
  Nothing of the kind holds for the rows it only reads.
-/

set_option autoImplicit false

namespace MmrTrader.Lib.Snapshot

abbrev Store (K : Type) (V : K → Type) := (k : K) → Option (V k)

/-- An open transaction: the store at its `BEGIN`, what it sees now and the keys it wrote. -/
structure Conn (K : Type) (V : K → Type) where
  base : Store K V
  view : Store K V
  wrote : List K
  view_eq : ∀ k, k ∉ wrote → view k = base k

variable {K T : Type} {V : K → Type}

/-- `BEGIN`. -/
def Conn.start (s : Store K V) : Conn K V := ⟨s, s, [], fun _ _ => rfl⟩

variable [DecidableEq K]

/-- Insert or overwrite one row. -/
def Conn.put (c : Conn K V) (k : K) (v : V k) : Conn K V where
  base := c.base
  view := Function.update c.view k (some v)
  wrote := k :: c.wrote
  view_eq := by
    intro k' hk'
    rw [Function.update_of_ne (List.ne_of_not_mem_cons hk')]
    exact c.view_eq k' (List.not_mem_of_not_mem_cons hk')

omit [DecidableEq K] in
@[simp] theorem Conn.start_base (s : Store K V) : (Conn.start s).base = s := rfl
omit [DecidableEq K] in
@[simp] theorem Conn.start_view (s : Store K V) : (Conn.start s).view = s := rfl
omit [DecidableEq K] in
@[simp] theorem Conn.start_wrote (s : Store K V) : (Conn.start s).wrote = [] := rfl
@[simp] theorem Conn.put_base (c : Conn K V) (k : K) (v : V k) : (c.put k v).base = c.base := rfl
@[simp] theorem Conn.put_wrote (c : Conn K V) (k : K) (v : V k) : (c.put k v).wrote = k :: c.wrote := rfl

@[simp] theorem Conn.put_view_self (c : Conn K V) (k : K) (v : V k) : (c.put k v).view k = some v := by
  simp [Conn.put]

variable {k : K}

theorem Conn.put_view_ne (c : Conn K V) {k' : K} (v : V k) (h : k' ≠ k) : (c.put k v).view k' = c.view k' := by
  simp [Conn.put, Function.update_of_ne h]

def Conn.writeTo (c : Conn K V) (s : Store K V) : Store K V := fun k => if k ∈ c.wrote then c.view k else s k

variable {c : Conn K V}

theorem Conn.writeTo_of_mem (h : k ∈ c.wrote) (s : Store K V) : c.writeTo s k = c.view k := by
  simp [Conn.writeTo, h]

theorem Conn.writeTo_of_not_mem (h : k ∉ c.wrote) (s : Store K V) : c.writeTo s k = s k := by
  simp [Conn.writeTo, h]

/-- The transactions of a system: what each does on its connection (`none` when it raises) and
    whether it runs under the write lock. -/
structure System (K : Type) (V : K → Type) (T : Type) where
  body : T → Conn K V → Option (Conn K V)
  locked : T → Bool
  body_base : ∀ {tx : T} {s : Store K V} {c : Conn K V}, body tx (Conn.start s) = some c → c.base = s

/-- A committed transaction. -/
structure Done (K : Type) (V : K → Type) (T : Type) where
  tx : T
  conn : Conn K V

/-- An open transaction; `born` is the number of commits before its `BEGIN`. -/
structure Open (K : Type) (V : K → Type) (T : Type) extends Done K V T where
  born : Nat

/-- The committed rows, the open transactions and, as a ghost, the commits in order. -/
structure State (K : Type) (V : K → Type) (T : Type) where
  store : Store K V
  opens : List (Open K V T)
  log : List (Done K V T)

def State.init : State K V T := ⟨fun _ => none, [], []⟩

/-- What committed since the transaction's `BEGIN`. -/
def State.since (s : State K V T) (o : Open K V T) : List (Done K V T) := s.log.drop o.born

/-- Somebody who committed since `BEGIN` wrote one of its rows. -/
def State.conflicts (s : State K V T) (o : Open K V T) : Bool :=
  (s.since o).any fun d => d.conn.wrote.any fun k => k ∈ o.conn.wrote

inductive Action (T : Type) where
  | start (tx : T)
  | commit (i : Nat)
  | rollback (i : Nat)

variable (S : System K V T)

def step (s : State K V T) : Action T → State K V T
  | .start tx =>
      -- a second batch waits for the write lock
      if S.locked tx && s.opens.any (fun o => S.locked o.tx) then s else
      match S.body tx (Conn.start s.store) with
      | some conn => { s with opens := s.opens ++ [⟨⟨tx, conn⟩, s.log.length⟩] }
      | none => s
  | .commit i =>
      match s.opens[i]? with
      | some o =>
          if s.conflicts o then { s with opens := s.opens.eraseIdx i }
          else
            { store := o.conn.writeTo s.store
              opens := s.opens.eraseIdx i
              log := s.log ++ [o.toDone] }
      | none => s
  | .rollback i => { s with opens := s.opens.eraseIdx i }

/-- The rows after a list of commits. -/
def replay (log : List (Done K V T)) : Store K V :=
  log.foldl (fun s d => d.conn.writeTo s) fun _ => none

@[simp] theorem replay_nil : replay ([] : List (Done K V T)) = fun _ => none := rfl

@[simp] theorem replay_snoc (log : List (Done K V T)) (d : Done K V T) :
    replay (log ++ [d]) = d.conn.writeTo (replay log) := by simp [replay]

/-- A transaction ran on the rows of its `BEGIN`. -/
def Ran (d : Done K V T) (pre : List (Done K V T)) : Prop :=
  d.conn.base = replay pre ∧ S.body d.tx (Conn.start (replay pre)) = some d.conn

/-- A transaction that committed after `pre`: it ran on the rows of a `BEGIN` before that, and the
    rows it wrote have not changed since. -/
structure Committed (d : Done K V T) (pre : List (Done K V T)) : Prop where
  ran : ∃ n ≤ pre.length, Ran S d (pre.take n)
  fresh : ∀ k ∈ d.conn.wrote, d.conn.base k = replay pre k

/-- Holds in every interleaving. -/
structure Wf (s : State K V T) : Prop where
  store : s.store = replay s.log
  opens : ∀ o ∈ s.opens, o.born ≤ s.log.length ∧ Ran S o.toDone (s.log.take o.born)
  committed : ∀ pre d post, s.log = pre ++ d :: post → Committed S d pre

theorem Wf.init : Wf S (State.init : State K V T) := by
  refine ⟨rfl, fun o ho => ?_, fun pre d post h => ?_⟩
  · cases ho
  · simp [State.init] at h

variable {S}

theorem replay_append_of_not_mem {l l' : List (Done K V T)} (h : ∀ d ∈ l', k ∉ d.conn.wrote) :
    replay (l ++ l') k = replay l k := by
  induction l' using List.reverseRecOn with
  | nil => rw [List.append_nil]
  | append_singleton l' d ih =>
    rw [← List.append_assoc, replay_snoc, Conn.writeTo_of_not_mem (h d (by simp))]
    exact ih fun d' hd' => h d' (by simp [hd'])

variable {s : State K V T} {o : Open K V T}

/-- **No lost update.** -/
theorem Wf.no_lost_update (h : Wf S s) (ho : o ∈ s.opens) (hc : s.conflicts o = false)
    (hk : k ∈ o.conn.wrote) : o.conn.base k = replay s.log k := by
  obtain ⟨-, hbase, -⟩ := h.opens o ho
  have hsince : ∀ d ∈ s.log.drop o.born, k ∉ d.conn.wrote := by
    intro d hd hkd
    have : s.conflicts o = true := by
      simp only [State.conflicts, State.since, List.any_eq_true, decide_eq_true_eq]
      exact ⟨d, hd, k, hkd, hk⟩
    rw [hc] at this
    cases this
  rw [hbase]
  conv_rhs => rw [← List.take_append_drop o.born s.log]
  exact (replay_append_of_not_mem hsince).symm

theorem Wf.commits (h : Wf S s) (ho : o ∈ s.opens) (hc : s.conflicts o = false) : Committed S o.toDone s.log :=
  ⟨⟨o.born, h.opens o ho⟩, fun _ hk => h.no_lost_update ho hc hk⟩

/-- **Step lemma.** -/
theorem Wf.step {s : State K V T} (h : Wf S s) (a : Action T) : Wf S (step S s a) := by
  cases a with
  | start tx =>
    simp only [Snapshot.step]
    split
    · exact h
    · split
      · rename_i conn hbody
        refine ⟨h.store, fun o ho => ?_, h.committed⟩
        rcases List.mem_append.mp ho with ho | ho
        · exact h.opens o ho
        · obtain rfl := List.mem_singleton.mp ho
          refine ⟨Nat.le_refl _, ?_⟩
          rw [List.take_length]
          exact ⟨(S.body_base hbody).trans h.store, h.store ▸ hbody⟩
      · exact h
  | commit i =>
    simp only [Snapshot.step]
    split
    · rename_i o ho
      have hmem : o ∈ s.opens := List.mem_of_getElem? ho
      split
      · exact ⟨h.store, fun o' ho' => h.opens o' (List.mem_of_mem_eraseIdx ho'), h.committed⟩
      · rename_i hc
        have hcom := h.commits hmem (by simpa using hc)
        refine ⟨by simp [h.store], fun o' ho' => ?_, fun pre d post heq => ?_⟩
        · obtain ⟨hle, hran⟩ := h.opens o' (List.mem_of_mem_eraseIdx ho')
          refine ⟨by simp; omega, ?_⟩
          rwa [List.take_append_of_le_length hle]
        · rcases List.eq_nil_or_concat post with rfl | ⟨post', d', rfl⟩
          · obtain ⟨rfl, hd⟩ := List.append_inj' heq rfl
            cases hd
            exact hcom
          · have heq' : s.log ++ [o.toDone] = (pre ++ d :: post') ++ [d'] := by simpa using heq
            exact h.committed pre d post' (List.append_inj' heq' rfl).1
    · exact h
  | rollback i =>
    exact ⟨h.store, fun o ho => h.opens o (List.mem_of_mem_eraseIdx ho), h.committed⟩

end MmrTrader.Lib.Snapshot
