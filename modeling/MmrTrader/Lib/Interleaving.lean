import Mathlib.Logic.Function.Basic

/-!
# Programs that run interleaved on a shared state

A program is a tree of atomic steps.  Each step may write the shared state and is told an answer of the
outside; between two steps of a program anything the other programs and the outside do may happen.

* `Prog` — programs, with exceptions; `atomic` and `read` are the steps.
* `System`, `World`, `Label`, `run` — a pool of programs; a schedule is a list of labels.
* `Safe R G Q p s` — from `s`, with the others keeping to `R`, every step of `p` keeps to `G` and what it
  returns satisfies `Q`; one rule for each way of building a program.
* `Quiet`, `WritesLast` — programs that write nothing, and programs whose only write is the step they
  return with.
* `Steps G` — programs each of whose steps keeps to `G`; `System.step_cases` reads a step of a pool off it.
* `Follows Move Q p x` — each program keeps a place, and a step moves it; `System.follow_run` is the invariant rule.
* `Sound.run` — what every step of a pool keeps; `Sound.thread` — what one program of it does.
-/

namespace MmrTrader.Lib.Interleaving

/-- A program over a shared state `σ` that is told an answer `A` at each step. -/
inductive Prog (σ A ε α : Type) where
  | done (r : Except ε α)
  | step (write : A → σ → σ) (next : A → σ → Prog σ A ε α)

variable {σ A ε α β : Type}

namespace Prog

def bind : Prog σ A ε α → (α → Prog σ A ε β) → Prog σ A ε β
  | .done (.ok a), f => f a
  | .done (.error e), _ => .done (.error e)
  | .step write next, f => .step write fun a s => (next a s).bind f

instance : Monad (Prog σ A ε) where
  pure a := .done (.ok a)
  bind := Prog.bind

def raise (e : ε) : Prog σ A ε α := .done (.error e)

/-- `try`: what the program raises is a value of what follows. -/
def attempt : Prog σ A ε α → Prog σ A ε (Except ε α)
  | .done r => .done (.ok r)
  | .step write next => .step write fun a s => (next a s).attempt

/-- A step that may write. -/
def atomic (f : A → EStateM ε σ α) : Prog σ A ε α :=
  .step
    (fun a s => match f a s with
      | .ok _ s' => s'
      | .error _ s' => s')
    fun a s => match f a s with
      | .ok v _ => .done (.ok v)
      | .error e _ => .done (.error e)

def read (f : A → σ → Except ε α) : Prog σ A ε α := .step (fun _ s => s) fun a s => .done (f a s)

/-- A check of values the program already has. -/
def check (x : Except ε α) : Prog σ A ε α := .done x

def refuseIf (c : Prop) [Decidable c] (e : ε) : Prog σ A ε Unit := if c then raise e else pure ()

def onlyIf (c : Prop) [Decidable c] (x : Prog σ A ε Unit) : Prog σ A ε Unit := if c then x else pure ()

end Prog

/-! ## Pools -/

/-- What may run: the program of each request, and what the outside does on its own. -/
structure System (σ A ε α K E : Type) where
  main : K → Prog σ A ε α
  env : E → σ → σ

/-- A schedule entry.  `start` on a busy slot stands for a process that died there. -/
inductive Label (A ε K E : Type) where
  | start (i : Nat) (k : K)
  | go (i : Nat) (a : A)
  | fail (i : Nat) (e : ε)
  | env (e : E)

structure World (σ A ε α : Type) where
  shared : σ
  threads : Nat → Option (Prog σ A ε α)

variable {K E : Type}

def World.set (w : World σ A ε α) (i : Nat) (p : Prog σ A ε α) : World σ A ε α :=
  { w with threads := fun j => if j = i then some p else w.threads j }

/-- Program `i` makes its next step. -/
def World.go (w : World σ A ε α) (i : Nat) (a : A) : World σ A ε α :=
  match w.threads i with
  | some (.step write next) => { w with shared := write a w.shared }.set i (next a w.shared)
  | _ => w

/-- Program `i` ends with an exception of the outside. -/
def World.fail (w : World σ A ε α) (i : Nat) (e : ε) : World σ A ε α :=
  match w.threads i with
  | some (.step _ _) => w.set i (.done (.error e))
  | _ => w

namespace System

variable (S : System σ A ε α K E)

def step (w : World σ A ε α) : Label A ε K E → World σ A ε α
  | .start i k => w.set i (S.main k)
  | .go i a => w.go i a
  | .fail i e => w.fail i e
  | .env e => { w with shared := S.env e w.shared }

def run (w : World σ A ε α) (ls : List (Label A ε K E)) : World σ A ε α := ls.foldl S.step w

end System

@[simp] theorem World.set_shared (w : World σ A ε α) (i : Nat) (p : Prog σ A ε α) : (w.set i p).shared = w.shared := rfl

@[simp] theorem World.set_self (w : World σ A ε α) (i : Nat) (p : Prog σ A ε α) :
    (w.set i p).threads i = some p := if_pos rfl

variable {i : Nat}

theorem World.set_other (w : World σ A ε α) {j : Nat} (p : Prog σ A ε α) (h : j ≠ i) :
    (w.set i p).threads j = w.threads j := if_neg h

theorem World.go_cases (w : World σ A ε α) (i : Nat) (a : A) :
    (∃ write next, w.threads i = some (.step write next) ∧
      w.go i a = { w with shared := write a w.shared }.set i (next a w.shared)) ∨
    w.go i a = w := by
  unfold World.go
  split
  · exact Or.inl ⟨_, _, ‹_›, rfl⟩
  · exact Or.inr rfl

theorem World.fail_cases (w : World σ A ε α) (i : Nat) (e : ε) :
    (∃ write next, w.threads i = some (.step write next) ∧ w.fail i e = w.set i (.done (.error e))) ∨
    w.fail i e = w := by
  unfold World.fail
  split
  · exact Or.inl ⟨_, _, ‹_›, rfl⟩
  · exact Or.inr rfl

theorem System.run_append (S : System σ A ε α K E) (w : World σ A ε α) (ls ls' : List (Label A ε K E)) :
    S.run w (ls ++ ls') = S.run (S.run w ls) ls' := List.foldl_append

/-! ## What a program does while others run -/

/-- From `s`: each step keeps to `G`, whatever kept to `R` came before it, and the result satisfies `Q`. -/
def Safe (R G : σ → σ → Prop) (Q : Except ε α → σ → Prop) : Prog σ A ε α → σ → Prop
  | .done r, s => Q r s
  | .step write next, s =>
    ∀ s', R s s' → ∀ a, G s' (write a s') ∧ Safe R G Q (next a s') (write a s')

variable {R G G' : σ → σ → Prop} {Q Q' : Except ε α → σ → Prop} {s s' : σ} {p : Prog σ A ε α}
variable {v : α}

theorem Safe.pure (h : Q (.ok v) s) : Safe R G Q (Pure.pure v : Prog σ A ε α) s := h

variable {e : ε}

theorem Safe.raise (h : Q (.error e) s) : Safe R G Q (Prog.raise e : Prog σ A ε α) s := h

theorem Safe.mono (h : Safe R G Q p s) (hG : ∀ s s', G s s' → G' s s') (hQ : ∀ r s, Q r s → Q' r s) :
    Safe R G' Q' p s := by
  induction p generalizing s with
  | done r => exact hQ r s h
  | step write next ih =>
    intro s' hs a
    obtain ⟨hg, hn⟩ := h s' hs a
    exact ⟨hG _ _ hg, ih a s' hn⟩

theorem Safe.later (h : Safe R G Q p s) (hs : R s s') (hR : ∀ a b c, R a b → R b c → R a c)
    (hQ : ∀ r a b, R a b → Q r a → Q r b) : Safe R G Q p s' := by
  cases p with
  | done r => exact hQ r s s' hs h
  | step write next => exact fun t ht a => h t (hR _ _ _ hs ht) a

/-- What a program's steps and the others' steps keep to leads from the start to the end. -/
theorem Safe.since {s₀ : σ} (h : Safe R R Q p s) (hs : R s₀ s) (hR : ∀ a b c, R a b → R b c → R a c) :
    Safe R R (fun r t => Q r t ∧ R s₀ t) p s := by
  induction p generalizing s with
  | done r => exact ⟨h, hs⟩
  | step write next ih =>
    intro s' hs' a
    obtain ⟨hg, hn⟩ := h s' hs' a
    exact ⟨hg, ih a s' hn (hR _ _ _ hs (hR _ _ _ hs' hg))⟩

variable {f : α → Prog σ A ε β}

theorem Safe.bind {Q' : Except ε β → σ → Prop} (h : Safe R G Q p s)
    (hok : ∀ v s', Q (.ok v) s' → Safe R G Q' (f v) s') (herr : ∀ e s', Q (.error e) s' → Q' (.error e) s') :
    Safe R G Q' (p >>= f) s := by
  induction p generalizing s with
  | done r =>
    cases r with
    | ok v => exact hok v s h
    | error e => exact herr e s h
  | step write next ih =>
    intro s' hs a
    obtain ⟨hg, hn⟩ := h s' hs a
    exact ⟨hg, ih a s' hn⟩

theorem Safe.atomic {f : A → EStateM ε σ α}
    (h : ∀ s', R s s' → ∀ a, match f a s' with
      | .ok v t => G s' t ∧ Q (.ok v) t
      | .error e t => G s' t ∧ Q (.error e) t) : Safe R G Q (Prog.atomic f) s := by
  intro s' hs a
  have h := h s' hs a
  cases hf : f a s' with
  | ok v t =>
    rw [hf] at h
    simp only [hf]
    exact h
  | error e t =>
    rw [hf] at h
    simp only [hf]
    exact h

theorem Safe.read {f : A → σ → Except ε α} (h : ∀ s', R s s' → ∀ a, G s' s' ∧ Q (f a s') s') :
    Safe R G Q (Prog.read f) s := h

theorem Safe.check {x : Except ε α} (h : Q x s) : Safe R G Q (Prog.check x : Prog σ A ε α) s := h

/-! ## Programs that write once -/

def Quiet : Prog σ A ε α → Prop
  | .done _ => True
  | .step write next => ∀ a s, write a s = s ∧ Quiet (next a s)

def WritesLast : Prog σ A ε α → Prop
  | .done _ => True
  | .step write next => ∀ a s, (write a s = s ∨ ∃ v, next a s = .done (.ok v)) ∧ WritesLast (next a s)

theorem Quiet.writesLast (h : Quiet p) : WritesLast p := by
  induction p with
  | done r => trivial
  | step write next ih => exact fun a s => ⟨Or.inl (h a s).1, ih a s (h a s).2⟩

theorem Quiet.read (f : A → σ → Except ε α) : Quiet (Prog.read f) := fun _ _ => ⟨rfl, trivial⟩

theorem Quiet.done (r : Except ε α) : Quiet (Prog.done r : Prog σ A ε α) := trivial

theorem Quiet.bind (h : Quiet p) (hf : ∀ v, Quiet (f v)) : Quiet (p >>= f) := by
  induction p with
  | done r =>
    cases r with
    | ok v => exact hf v
    | error e => trivial
  | step write next ih => exact fun a s => ⟨(h a s).1, ih a s (h a s).2⟩

theorem Quiet.bind_writesLast (h : Quiet p) (hf : ∀ v, WritesLast (f v)) : WritesLast (p >>= f) := by
  induction p with
  | done r =>
    cases r with
    | ok v => exact hf v
    | error e => trivial
  | step write next ih => exact fun a s => ⟨Or.inl (h a s).1, ih a s (h a s).2⟩

theorem WritesLast.atomic {f : A → EStateM ε σ α} (h : ∀ a s e t, f a s = .error e t → t = s) :
    WritesLast (Prog.atomic f) := by
  intro a s
  cases hf : f a s with
  | ok v t =>
    refine ⟨Or.inr ⟨v, ?_⟩, ?_⟩
    · simp only [hf]
    · simp only [hf]
      trivial
  | error e t =>
    refine ⟨Or.inl ?_, ?_⟩
    · simp only [hf]
      exact h a s e t hf
    · simp only [hf]
      trivial

/-- Nothing is left to write once a program is done. -/
theorem WritesLast.map {f : α → β} (h : WritesLast p) : WritesLast (p >>= fun v => Pure.pure (f v)) := by
  induction p with
  | done r => cases r <;> trivial
  | step write next ih =>
    intro a s
    obtain ⟨hw, hn⟩ := h a s
    refine ⟨hw.imp id ?_, ih a s hn⟩
    rintro ⟨v, hv⟩
    exact ⟨f v, congrArg (fun q => Prog.bind q fun v => Pure.pure (f v)) hv⟩

theorem Quiet.safe (h : Quiet p) (hG : ∀ s s', R s s' → G s' s') : Safe R G (fun _ _ => True) p s := by
  induction p generalizing s with
  | done r => trivial
  | step write next ih =>
    intro s' hs a
    obtain ⟨hw, hn⟩ := h a s'
    rw [hw]
    exact ⟨hG s s' hs, ih a s' hn⟩

theorem Safe.attempt {Q' : Except ε (Except ε α) → σ → Prop} (h : Safe R G Q p s)
    (hQ : ∀ r s', Q r s' → Q' (.ok r) s') : Safe R G Q' p.attempt s := by
  induction p generalizing s with
  | done r => exact hQ r s h
  | step write next ih =>
    intro s' hs a
    obtain ⟨hg, hn⟩ := h s' hs a
    exact ⟨hg, ih a s' hn⟩

/-! ## Programs whose steps keep to a relation -/

/-- Each step, from whatever state, keeps to `G`. -/
def Steps (G : σ → σ → Prop) : Prog σ A ε α → Prop
  | .done _ => True
  | .step write next => ∀ a s, G s (write a s) ∧ Steps G (next a s)

theorem Steps.pure : Steps G (Pure.pure v : Prog σ A ε α) := trivial

theorem Steps.raise : Steps G (Prog.raise e : Prog σ A ε α) := trivial

theorem Steps.bind (h : Steps G p) (hf : ∀ v, Steps G (f v)) : Steps G (p >>= f) := by
  induction p with
  | done r =>
    cases r with
    | ok v => exact hf v
    | error e => trivial
  | step write next ih => exact fun a s => ⟨(h a s).1, ih a s (h a s).2⟩

theorem Steps.attempt (h : Steps G p) : Steps G p.attempt := by
  induction p with
  | done r => trivial
  | step write next ih => exact fun a s => ⟨(h a s).1, ih a s (h a s).2⟩

theorem Steps.atomic {f : A → EStateM ε σ α}
    (h : ∀ a s, match f a s with
      | .ok _ t => G s t
      | .error _ t => G s t) : Steps G (Prog.atomic f) := by
  intro a s
  have h := h a s
  cases hf : f a s with
  | ok v t =>
    rw [hf] at h
    simp only [hf]
    exact ⟨h, trivial⟩
  | error e t =>
    rw [hf] at h
    simp only [hf]
    exact ⟨h, trivial⟩

theorem Steps.read {f : A → σ → Except ε α} (h : ∀ s, G s s) : Steps G (Prog.read f) := fun _ s => ⟨h s, trivial⟩

/-- Every program of the pool keeps to `G`. -/
def AllSteps (G : σ → σ → Prop) (w : World σ A ε α) : Prop := ∀ i p, w.threads i = some p → Steps G p

theorem AllSteps.set {w : World σ A ε α} (h : AllSteps G w) (hp : Steps G p) : AllSteps G (w.set i p) := by
  intro j q hq
  by_cases hj : j = i
  · subst hj
    rw [World.set_self] at hq
    cases hq
    exact hp
  · rw [World.set_other w p hj] at hq
    exact h j q hq

/-- **What one step of a pool does to the shared state**: a program's step, the outside's, or nothing. -/
theorem System.step_cases {S : System σ A ε α K E} {w : World σ A ε α} (hmain : ∀ k, Steps G (S.main k)) (h : AllSteps G w)
    (l : Label A ε K E) :
    AllSteps G (S.step w l) ∧
      ((S.step w l).shared = w.shared ∨ (∃ i a, l = .go i a ∧ G w.shared (S.step w l).shared) ∨
        ∃ e, l = .env e ∧ (S.step w l).shared = S.env e w.shared) := by
  cases l with
  | start i k => exact ⟨h.set (hmain k), Or.inl rfl⟩
  | go i a =>
    show AllSteps G (w.go i a) ∧ ((w.go i a).shared = w.shared ∨ _)
    rcases w.go_cases i a with ⟨write, next, ht, hgo⟩ | hgo
    · obtain ⟨hG, hnext⟩ := h i _ ht a w.shared
      refine ⟨?_, Or.inr (Or.inl ⟨i, a, rfl, ?_⟩)⟩
      · rw [hgo]
        exact AllSteps.set (w := { w with shared := write a w.shared }) h hnext
      · show G w.shared (w.go i a).shared
        rw [hgo]
        exact hG
    · rw [hgo]
      exact ⟨h, Or.inl rfl⟩
  | fail i e =>
    show AllSteps G (w.fail i e) ∧ ((w.fail i e).shared = w.shared ∨ _)
    rcases w.fail_cases i e with ⟨write, next, ht, hfail⟩ | hfail
    · rw [hfail]
      exact ⟨h.set (p := .done (.error e)) trivial, Or.inl rfl⟩
    · rw [hfail]
      exact ⟨h, Or.inl rfl⟩
  | env e => exact ⟨h, Or.inr (Or.inr ⟨e, rfl, rfl⟩)⟩

/-! ## Programs that keep a place of their own -/

variable {φ : Type} {Move : φ → σ → σ → φ → Prop} {x : φ}

/-- From the place `x`: each step, from whatever state, is a move to a place from which the rest goes on; the result
fits the place where it comes. -/
def Follows (Move : φ → σ → σ → φ → Prop) (Q : Except ε α → φ → Prop) : Prog σ A ε α → φ → Prop
  | .done r, x => Q r x
  | .step write next, x => ∀ a s, ∃ y, Move x s (write a s) y ∧ Follows Move Q (next a s) y

theorem Follows.of_steps {Q : Except ε α → φ → Prop} (h : Steps G p) (hG : ∀ s t, G s t → Move x s t x) (hQ : ∀ r, Q r x) :
    Follows Move Q p x := by
  induction p with
  | done r => exact hQ r
  | step write next ih => exact fun a s => ⟨x, hG _ _ (h a s).1, ih a s (h a s).2⟩

theorem Follows.bind {Q : Except ε α → φ → Prop} {Q' : Except ε β → φ → Prop} (h : Follows Move Q p x)
    (hok : ∀ v y, Q (.ok v) y → Follows Move Q' (f v) y) (herr : ∀ e y, Q (.error e) y → Q' (.error e) y) :
    Follows Move Q' (p >>= f) x := by
  induction p generalizing x with
  | done r =>
    cases r with
    | ok v => exact hok v x h
    | error e => exact herr e x h
  | step write next ih =>
    intro a s
    obtain ⟨y, hmove, hnext⟩ := h a s
    exact ⟨y, hmove, ih a s hnext⟩

theorem Follows.attempt {Q : Except ε α → φ → Prop} {T : Except ε (Except ε α) → φ → Prop} (h : Follows Move Q p x)
    (hQ : ∀ r y, Q r y → T (.ok r) y) : Follows Move T p.attempt x := by
  induction p generalizing x with
  | done r => exact hQ r x h
  | step write next ih =>
    intro a s
    obtain ⟨y, hmove, hnext⟩ := h a s
    exact ⟨y, hmove, ih a s hnext⟩

theorem Follows.atomic {Q : Except ε α → φ → Prop} {f : A → EStateM ε σ α}
    (h : ∀ a s, ∃ y, match f a s with
      | .ok v t => Move x s t y ∧ Q (.ok v) y
      | .error e t => Move x s t y ∧ Q (.error e) y) : Follows Move Q (Prog.atomic f) x := by
  intro a s
  obtain ⟨y, h⟩ := h a s
  refine ⟨y, ?_⟩
  cases hf : f a s with
  | ok v t =>
    rw [hf] at h
    simp only [hf]
    exact h
  | error e t =>
    rw [hf] at h
    simp only [hf]
    exact h

/-- Every program of the pool goes on from its place. -/
def AllFollow (Move : φ → σ → σ → φ → Prop) (places : Nat → φ) (w : World σ A ε α) : Prop :=
  ∀ i p, w.threads i = some p → Follows Move (fun _ _ => True) p (places i)

variable {places : Nat → φ}

theorem AllFollow.set {w : World σ A ε α} (h : AllFollow Move places w)
    (hp : Follows Move (fun _ _ => True) p x) : AllFollow Move (Function.update places i x) (w.set i p) := by
  intro j q hq
  by_cases hj : j = i
  · subst hj
    rw [World.set_self] at hq
    cases hq
    rwa [Function.update_self]
  · rw [World.set_other w p hj] at hq
    rw [Function.update_of_ne hj]
    exact h j q hq

/-- **What the moves of the programs and the outside keep, holds in every run**, of the state and of where each program
stands; a program starts at `x`. -/
theorem System.follow_run {S : System σ A ε α K E} {I : σ → (Nat → φ) → Prop}
    (hmain : ∀ k, Follows Move (fun _ _ => True) (S.main k) x)
    (hstart : ∀ s places i, I s places → I s (Function.update places i x))
    (hmove : ∀ s t places i y, I s places → Move (places i) s t y → I t (Function.update places i y))
    (henv : ∀ e s places, I s places → I (S.env e s) places) {w : World σ A ε α}
    (h : AllFollow Move places w) (hinv : I w.shared places) (ls : List (Label A ε K E)) :
    ∃ places', AllFollow Move places' (S.run w ls) ∧ I (S.run w ls).shared places' := by
  induction ls generalizing w places with
  | nil => exact ⟨places, h, hinv⟩
  | cons l ls ih =>
    rw [System.run, List.foldl_cons]
    cases l with
    | start i k => exact ih (h.set (hmain k)) (hstart _ _ i hinv)
    | go i a =>
      rcases w.go_cases i a with ⟨write, next, ht, hgo⟩ | hgo
      · obtain ⟨y, hm, hnext⟩ := h i _ ht a w.shared
        refine ih (w := w.go i a) (?_ : AllFollow Move (Function.update places i y) _) ?_
        · rw [hgo]
          exact AllFollow.set (w := { w with shared := write a w.shared }) h hnext
        · rw [hgo]
          exact hmove _ _ _ _ _ hinv hm
      · refine ih (w := w.go i a) (?_ : AllFollow Move places _) ?_
        · rwa [hgo]
        · rwa [hgo]
    | fail i e =>
      rcases w.fail_cases i e with ⟨write, next, ht, hfail⟩ | hfail
      · refine ih (w := w.fail i e) (?_ : AllFollow Move (Function.update places i (places i)) _) ?_
        · rw [hfail]
          exact h.set (p := .done (.error e)) trivial
        · rwa [hfail, Function.update_eq_self]
      · refine ih (w := w.fail i e) (?_ : AllFollow Move places _) ?_
        · rwa [hfail]
        · rwa [hfail]
    | env e => exact ih (w := { w with shared := S.env e w.shared }) h (henv e _ _ hinv)

/-! ## Runs of a pool -/

/-- `R` is what every step of the pool keeps to; it leads from states with `Inv` to states with `Inv`.  `Q` is what
every result satisfies from then on. -/
structure Sound (S : System σ A ε α K E) (Inv : σ → Prop) (R : σ → σ → Prop) (Q : Except ε α → σ → Prop) : Prop where
  refl : ∀ s, Inv s → R s s
  trans : ∀ s t u, R s t → R t u → R s u
  inv : ∀ s t, R s t → Inv t
  env : ∀ e s, Inv s → R s (S.env e s)
  main : ∀ k s, Inv s → Safe R R Q (S.main k) s
  later : ∀ r s t, R s t → Q r s → Q r t
  raised : ∀ e s, Q (.error e) s

/-- The state is fine and every program of the pool is safe in it. -/
structure Steady (Inv : σ → Prop) (R : σ → σ → Prop) (Q : Except ε α → σ → Prop) (w : World σ A ε α) : Prop where
  inv : Inv w.shared
  safe : ∀ i p, w.threads i = some p → Safe R R Q p w.shared

variable {S : System σ A ε α K E} {Inv : σ → Prop} {w : World σ A ε α}

theorem Steady.init (h : Inv w.shared) (hi : ∀ i, w.threads i = none) : Steady Inv R Q w :=
  ⟨h, fun i p hp => by rw [hi i] at hp; cases hp⟩

theorem Steady.set (h : Steady Inv R Q w) (hp : Safe R R Q p w.shared) : Steady Inv R Q (w.set i p) := by
  refine ⟨h.inv, ?_⟩
  intro j q hq
  by_cases hj : j = i
  · subst hj
    rw [World.set_self] at hq
    cases hq
    exact hp
  · rw [World.set_other w p hj] at hq
    exact h.safe j q hq

/-- The shared state moved on under `R`. -/
theorem Sound.moved (hS : Sound S Inv R Q) (h : Steady Inv R Q w) {t : σ} (ht : R w.shared t) :
    Steady Inv R Q { w with shared := t } :=
  ⟨hS.inv _ _ ht, fun i p hp => (h.safe i p hp).later ht hS.trans hS.later⟩

theorem Sound.step (hS : Sound S Inv R Q) (h : Steady Inv R Q w) (l : Label A ε K E) :
    Steady Inv R Q (S.step w l) ∧ R w.shared (S.step w l).shared := by
  have hrefl := hS.refl _ h.inv
  cases l with
  | start i k => exact ⟨h.set (hS.main k _ h.inv), hrefl⟩
  | go i a =>
    show Steady Inv R Q (w.go i a) ∧ R w.shared (w.go i a).shared
    rcases w.go_cases i a with ⟨write, next, ht, hgo⟩ | hgo
    · obtain ⟨hR, hnext⟩ := h.safe i _ ht w.shared hrefl a
      rw [hgo]
      exact ⟨(hS.moved h hR).set hnext, hR⟩
    · rw [hgo]
      exact ⟨h, hrefl⟩
  | fail i e =>
    show Steady Inv R Q (w.fail i e) ∧ R w.shared (w.fail i e).shared
    rcases w.fail_cases i e with ⟨write, next, ht, hfail⟩ | hfail
    · rw [hfail]
      exact ⟨h.set (p := .done (.error e)) (hS.raised e _), hrefl⟩
    · rw [hfail]
      exact ⟨h, hrefl⟩
  | env e =>
    have hR := hS.env e _ h.inv
    exact ⟨hS.moved h hR, hR⟩

/-- **Every run of the pool keeps to `R`.** -/
theorem Sound.run (hS : Sound S Inv R Q) (h : Steady Inv R Q w) (ls : List (Label A ε K E)) :
    Steady Inv R Q (S.run w ls) ∧ R w.shared (S.run w ls).shared := by
  induction ls generalizing w with
  | nil => exact ⟨h, hS.refl _ h.inv⟩
  | cons l ls ih =>
    obtain ⟨h', hR⟩ := hS.step h l
    obtain ⟨h'', hR'⟩ := ih h'
    exact ⟨h'', hS.trans _ _ _ hR hR'⟩

/-- The label neither restarts nor breaks program `i`. -/
def Label.Spares (i : Nat) : Label A ε K E → Prop
  | .start j _ => j ≠ i
  | .fail j _ => j ≠ i
  | _ => True

variable {l : Label A ε K E}

theorem Sound.thread_step (hS : Sound S Inv R Q) (h : Steady Inv R Q w) (hQ : ∀ r s t, R s t → Q' r s → Q' r t)
    (hp : w.threads i = some p) (hsafe : Safe R G Q' p w.shared) (hl : l.Spares i) :
    ∃ p', (S.step w l).threads i = some p' ∧ Safe R G Q' p' (S.step w l).shared := by
  have hrefl := hS.refl _ h.inv
  cases l with
  | start j k =>
    refine ⟨p, ?_, hsafe⟩
    exact (World.set_other w _ (Ne.symm hl)).trans hp
  | go j a =>
    show ∃ p', (w.go j a).threads i = some p' ∧ Safe R G Q' p' (w.go j a).shared
    rcases w.go_cases j a with ⟨write, next, ht, hgo⟩ | hgo
    · rw [hgo]
      by_cases hj : i = j
      · subst hj
        rw [hp] at ht
        cases ht
        exact ⟨next a w.shared, World.set_self _ _ _, (hsafe w.shared hrefl a).2⟩
      · refine ⟨p, (World.set_other _ _ hj).trans hp, ?_⟩
        exact hsafe.later (h.safe j _ ht w.shared hrefl a).1 hS.trans hQ
    · rw [hgo]
      exact ⟨p, hp, hsafe⟩
  | fail j e =>
    show ∃ p', (w.fail j e).threads i = some p' ∧ Safe R G Q' p' (w.fail j e).shared
    rcases w.fail_cases j e with ⟨write, next, ht, hfail⟩ | hfail
    · rw [hfail]
      exact ⟨p, (World.set_other _ _ (Ne.symm hl)).trans hp, hsafe⟩
    · rw [hfail]
      exact ⟨p, hp, hsafe⟩
  | env e => exact ⟨p, hp, hsafe.later (hS.env e _ h.inv) hS.trans hQ⟩

variable {ls : List (Label A ε K E)}

/-- **What one program does while the pool runs.** -/
theorem Sound.thread (hS : Sound S Inv R Q) (h : Steady Inv R Q w) (hQ : ∀ r s t, R s t → Q' r s → Q' r t)
    (hp : w.threads i = some p) (hsafe : Safe R G Q' p w.shared) (hls : ∀ l ∈ ls, l.Spares i) :
    ∃ p', (S.run w ls).threads i = some p' ∧ Safe R G Q' p' (S.run w ls).shared := by
  induction ls generalizing w p with
  | nil => exact ⟨p, hp, hsafe⟩
  | cons l ls ih =>
    obtain ⟨p', hp', hsafe'⟩ := hS.thread_step h hQ hp hsafe (hls l List.mem_cons_self)
    exact ih (hS.step h l).1 hp' hsafe' fun l' hl' => hls l' (List.mem_cons_of_mem l hl')

theorem Safe.go (hp : w.threads i = some p) (hsafe : Safe R G Q p w.shared) (hR : R w.shared w.shared)
    (hG : G w.shared w.shared) (a : A) : G w.shared (w.go i a).shared := by
  unfold World.go
  rw [hp]
  cases p with
  | done r => exact hG
  | step write next => exact (hsafe w.shared hR a).1

/-! ## Refused programs -/

/-- Every program of the pool that still has steps to make writes last. -/
def AllWriteLast (w : World σ A ε α) : Prop := ∀ i p, w.threads i = some p → WritesLast p

theorem AllWriteLast.set (h : AllWriteLast w) (hp : WritesLast p) : AllWriteLast (w.set i p) := by
  intro j q hq
  by_cases hj : j = i
  · subst hj
    rw [World.set_self] at hq
    cases hq
    exact hp
  · rw [World.set_other w p hj] at hq
    exact h j q hq

theorem AllWriteLast.step (hmain : ∀ k, WritesLast (S.main k)) (h : AllWriteLast w) (l : Label A ε K E) :
    AllWriteLast (S.step w l) := by
  cases l with
  | start i k => exact h.set (hmain k)
  | go i a =>
    show AllWriteLast (w.go i a)
    rcases w.go_cases i a with ⟨write, next, ht, hgo⟩ | hgo
    · rw [hgo]
      exact AllWriteLast.set (w := { w with shared := write a w.shared }) h (h i _ ht a w.shared).2
    · rw [hgo]
      exact h
  | fail i e =>
    show AllWriteLast (w.fail i e)
    rcases w.fail_cases i e with ⟨write, next, ht, hfail⟩ | hfail
    · rw [hfail]
      exact h.set (p := .done (.error e)) trivial
    · rw [hfail]
      exact h
  | env e => exact h

theorem AllWriteLast.run (hmain : ∀ k, WritesLast (S.main k)) (h : AllWriteLast w) (ls : List (Label A ε K E)) :
    AllWriteLast (S.run w ls) := by
  induction ls generalizing w with
  | nil => exact h
  | cons l ls ih => exact ih (h.step hmain l)

/-- The label does not take slot `i` again. -/
def Label.Leaves (i : Nat) : Label A ε K E → Prop
  | .start j _ => j ≠ i
  | _ => True

variable {r : Except ε α}

theorem System.done_step (hw : w.threads i = some (.done r)) (hl : l.Leaves i) : (S.step w l).threads i = some (.done r) := by
  cases l with
  | start j k => exact (World.set_other w _ (Ne.symm hl)).trans hw
  | go j a =>
    show (w.go j a).threads i = _
    rcases w.go_cases j a with ⟨write, next, ht, hgo⟩ | hgo
    · rw [hgo]
      refine (World.set_other _ _ ?_).trans hw
      rintro rfl
      rw [hw] at ht
      cases ht
    · rw [hgo]
      exact hw
  | fail j e =>
    show (w.fail j e).threads i = _
    rcases w.fail_cases j e with ⟨write, next, ht, hfail⟩ | hfail
    · rw [hfail]
      refine (World.set_other _ _ ?_).trans hw
      rintro rfl
      rw [hw] at ht
      cases ht
    · rw [hfail]
      exact hw
  | env e => exact hw

/-- A finished program stays finished until its slot is taken again. -/
theorem System.done_stays (hw : w.threads i = some (.done r))
    (hls : ∀ l ∈ ls, l.Leaves i) : (S.run w ls).threads i = some (.done r) := by
  induction ls generalizing w with
  | nil => exact hw
  | cons l ls ih =>
    exact ih (System.done_step hw (hls l List.mem_cons_self)) fun l' hl' => hls l' (List.mem_cons_of_mem l hl')

/-- **A program that ends with an exception wrote nothing.** -/
theorem System.refused_wrote_nothing (h : AllWriteLast w) {a : A}
    (hls : ∀ l ∈ ls, l.Leaves i) (hend : (S.run (w.go i a) ls).threads i = some (.done (.error e))) :
    (w.go i a).shared = w.shared := by
  rcases w.go_cases i a with ⟨write, next, ht, hgo⟩ | hgo
  · rw [hgo] at hend ⊢
    rcases (h i _ ht a w.shared).1 with hsame | ⟨v, hv⟩
    · exact hsame
    · have hthread : ({ w with shared := write a w.shared }.set i (next a w.shared)).threads i =
          some (.done (.ok v)) := by rw [World.set_self, hv]
      have hdone := System.done_stays (S := S) hthread hls
      rw [hdone] at hend
      cases hend
  · rw [hgo]

end MmrTrader.Lib.Interleaving
