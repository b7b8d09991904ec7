/-!
# Transactions on a database

A transaction body is an `EStateM` computation: it reads and writes the database and may raise in the
middle, with the writes made so far still in its state.  `transaction` is the surrounding
`BEGIN … COMMIT`: whatever raises, the COMMIT included, is followed by a ROLLBACK.

* `transaction_ok` — a transaction that returns did exactly what its body did.
* `transaction_error` — a transaction that raises changes nothing.
* `Tx.bind_ok`, `Tx.bind_error` — what a sequence of statements did.
* `Tx.Atomic` — a computation that changes nothing when it raises, with the rules for building one.
* `Tx.Spec` — from a state with `P` it returns with `Q` or raises with `E`; one rule for each way of building one.
-/

namespace MmrTrader.Lib

variable {ε σ α β : Type}

/-- `BEGIN`, the body, `COMMIT`.  `commit` is what the COMMIT raises, if it does. -/
def transaction (commit : Option ε) (body : EStateM ε σ α) : EStateM ε σ α := fun db =>
  match body db, commit with
  | .ok a db', none => .ok a db'
  | .ok _ _, some e => .error e db
  | .error e _, _ => .error e db

variable {body : EStateM ε σ α} {db db' : σ}
variable {commit : Option ε}

theorem transaction_ok {a : α} (h : transaction commit body db = .ok a db') : body db = .ok a db' := by
  unfold transaction at h
  cases hb : body db with
  | error e s => rw [hb] at h; cases h
  | ok b s =>
    rw [hb] at h
    cases commit with
    | none => exact h
    | some e => cases h

theorem transaction_error {e : ε} (h : transaction commit body db = .error e db') : db' = db := by
  unfold transaction at h
  cases hb : body db with
  | error e s => rw [hb] at h; cases h; rfl
  | ok b s =>
    rw [hb] at h
    cases commit with
    | none => cases h
    | some e => cases h; rfl

/-- What a transaction without a failing COMMIT raises comes from its body. -/
theorem transaction_raised {e : ε} (h : transaction none body db = .error e db') : ∃ mid, body db = .error e mid := by
  unfold transaction at h
  cases hb : body db with
  | error e s => rw [hb] at h; cases h; exact ⟨s, rfl⟩
  | ok b s => rw [hb] at h; cases h

namespace Tx

variable {x : EStateM ε σ α} {f : α → EStateM ε σ β} {db db' : σ} {b : β}

theorem bind_ok (h : (x >>= f) db = .ok b db') : ∃ a mid, x db = .ok a mid ∧ f a mid = .ok b db' := by
  change EStateM.bind x f db = _ at h
  unfold EStateM.bind at h
  cases hx : x db with
  | ok a mid => rw [hx] at h; exact ⟨a, mid, rfl, h⟩
  | error e mid => rw [hx] at h; cases h

variable {e : ε}

theorem bind_error (h : (x >>= f) db = .error e db') :
    x db = .error e db' ∨ ∃ a mid, x db = .ok a mid ∧ f a mid = .error e db' := by
  change EStateM.bind x f db = _ at h
  unfold EStateM.bind at h
  cases hx : x db with
  | ok a mid => rw [hx] at h; exact Or.inr ⟨a, mid, rfl, h⟩
  | error e mid => rw [hx] at h; cases h; exact Or.inl rfl

theorem get_bind_ok {f : σ → EStateM ε σ β} (h : (get >>= f) db = .ok b db') :
    f db db = .ok b db' := h

theorem get_bind_error {f : σ → EStateM ε σ β} (h : (get >>= f) db = .error e db') :
    f db db = .error e db' := h

/-- A refusal. -/
def refuseIf (c : Prop) [Decidable c] (e : ε) : EStateM ε σ Unit :=
  if c then throw e else pure ()

variable {c : Prop}

theorem refuseIf_bind_ok [Decidable c] {f : Unit → EStateM ε σ β}
    (h : (refuseIf c e >>= f) db = .ok b db') : ¬ c ∧ f () db = .ok b db' := by
  unfold refuseIf at h
  split at h
  · cases h
  · rename_i hc
    exact ⟨hc, h⟩

theorem refuseIf_bind_error [Decidable c] {e' : ε} {f : Unit → EStateM ε σ β}
    (h : (refuseIf c e >>= f) db = .error e' db') : (c ∧ e' = e) ∨ (¬ c ∧ f () db = .error e' db') := by
  unfold refuseIf at h
  split at h
  · cases h
    exact Or.inl ⟨‹_›, rfl⟩
  · exact Or.inr ⟨‹_›, h⟩

theorem refuseIf_ok [Decidable c] (h : refuseIf c e db = .ok () db') : ¬ c ∧ db' = db := by
  unfold refuseIf at h
  split at h
  · cases h
  · cases h
    exact ⟨‹_›, rfl⟩

/-- A statement that runs under a condition. -/
def onlyIf (c : Prop) [Decidable c] (x : EStateM ε σ Unit) : EStateM ε σ Unit :=
  if c then x else pure ()

theorem onlyIf_ok [Decidable c] {x : EStateM ε σ Unit} (h : onlyIf c x db = .ok () db') :
    (c ∧ x db = .ok () db') ∨ (¬ c ∧ db' = db) := by
  unfold onlyIf at h
  split at h
  · exact Or.inl ⟨‹_›, h⟩
  · cases h
    exact Or.inr ⟨‹_›, rfl⟩

/-- A check that either passes with a value or raises, and never writes. -/
def check (x : Except ε α) : EStateM ε σ α :=
  match x with
  | .ok a => pure a
  | .error e => throw e

theorem check_bind_ok {x : Except ε α} (h : (check x >>= f) db = .ok b db') : ∃ a, x = .ok a ∧ f a db = .ok b db' := by
  cases x with
  | ok a => exact ⟨a, rfl, h⟩
  | error e => cases h

theorem check_bind_error {x : Except ε α}
    (h : (check x >>= f) db = .error e db') : x = .error e ∨ ∃ a, x = .ok a ∧ f a db = .error e db' := by
  cases x with
  | ok a => exact Or.inr ⟨a, rfl, h⟩
  | error e' => cases h; exact Or.inl rfl

variable {a : α}

theorem check_ok {x : Except ε α} (h : check x db = .ok a db') : x = .ok a ∧ db' = db := by
  cases x with
  | ok b => cases h; exact ⟨rfl, rfl⟩
  | error e => cases h

/-- A computation that changes nothing when it raises. -/
def Atomic (x : EStateM ε σ α) : Prop :=
  ∀ (db db' : σ) (e : ε), x db = .error e db' → db' = db

theorem Atomic.transaction (commit : Option ε) (body : EStateM ε σ α) : Atomic (transaction commit body) :=
  fun _ _ _ h => transaction_error h

theorem Atomic.throw (e : ε) : Atomic (throw e : EStateM ε σ α) := by
  intro db db' e' h
  cases h
  rfl

theorem Atomic.check_bind {x : Except ε α} (hf : ∀ a, Atomic (f a)) : Atomic (check x >>= f) := by
  intro db db' e h
  cases x with
  | ok a => exact hf a db db' e h
  | error e => cases h; rfl

variable {ε' : Type}

/-- Mapping what is raised and what is returned writes nothing. -/
theorem Atomic.adapt (hx : Atomic x) (f : ε → ε') : Atomic (x.adaptExcept f) := by
  intro db db' e h
  unfold EStateM.adaptExcept at h
  cases hr : x db with
  | ok a s => rw [hr] at h; cases h
  | error e s => rw [hr] at h; cases h; exact hx _ _ _ hr

theorem adapt_ok {f : ε → ε'} (h : x.adaptExcept f db = .ok a db') : x db = .ok a db' := by
  unfold EStateM.adaptExcept at h
  cases hr : x db with
  | ok a s => rw [hr] at h; cases h; rfl
  | error e s => rw [hr] at h; cases h

theorem Atomic.map (hx : Atomic x) (f : α → β) : Atomic (f <$> x) := by
  intro db db' e h
  change EStateM.map f x db = _ at h
  unfold EStateM.map at h
  cases hr : x db with
  | ok a s => rw [hr] at h; cases h
  | error e s => rw [hr] at h; cases h; exact hx _ _ _ hr

theorem map_ok {f : α → β} (h : (f <$> x) db = .ok b db') : ∃ a, x db = .ok a db' ∧ f a = b := by
  change EStateM.map f x db = _ at h
  unfold EStateM.map at h
  cases hr : x db with
  | ok a s => rw [hr] at h; cases h; exact ⟨a, rfl, rfl⟩
  | error e s => rw [hr] at h; cases h

theorem map_error {f : α → β} (h : (f <$> x) db = .error e db') : x db = .error e db' := by
  change EStateM.map f x db = _ at h
  unfold EStateM.map at h
  cases hr : x db with
  | ok a s => rw [hr] at h; cases h
  | error e s => rw [hr] at h; cases h; rfl

theorem ok_map (h : x db = .ok a db') (f : α → β) : (f <$> x) db = .ok (f a) db' := by
  change EStateM.map f x db = _
  unfold EStateM.map
  rw [h]

/-! ## Pre- and postconditions -/

/-- From a state with `P`, the computation returns with `Q` or raises with `E`. -/
def Spec (P : σ → Prop) (x : EStateM ε σ α) (Q : α → σ → Prop) (E : ε → σ → Prop) : Prop :=
  ∀ s, P s → match x s with
    | .ok a s' => Q a s'
    | .error e s' => E e s'

variable {P P' : σ → Prop} {Q Q' : α → σ → Prop} {R : β → σ → Prop} {E E' : ε → σ → Prop}
variable {s s' : σ}

theorem Spec.of_ok (h : Spec P x Q E) (hs : P s) (hx : x s = .ok a s') : Q a s' := by
  have := h s hs
  rw [hx] at this
  exact this

theorem Spec.of_error (h : Spec P x Q E) (hs : P s) (hx : x s = .error e s') : E e s' := by
  have := h s hs
  rw [hx] at this
  exact this

theorem Spec.pure {a : α} (h : ∀ s, P s → Q a s) : Spec P (pure a : EStateM ε σ α) Q E :=
  fun s hs => h s hs

theorem Spec.throw {e : ε} (h : ∀ s, P s → E e s) : Spec P (throw e : EStateM ε σ α) Q E :=
  fun s hs => h s hs

theorem Spec.bind (hx : Spec P x Q E) (hf : ∀ a, Spec (Q a) (f a) R E) : Spec P (x >>= f) R E := by
  intro s hs
  have h := hx s hs
  change match EStateM.bind x f s with
    | .ok a s' => R a s'
    | .error e s' => E e s'
  unfold EStateM.bind
  cases hr : x s with
  | ok a s' => rw [hr] at h; exact hf a s' h
  | error e s' => rw [hr] at h; exact h

theorem Spec.conseq (h : Spec P' x Q' E') (hP : ∀ s, P s → P' s)
    (hQ : ∀ a s, Q' a s → Q a s) (hE : ∀ e s, E' e s → E e s) : Spec P x Q E := by
  intro s hs
  have h := h s (hP s hs)
  cases hr : x s with
  | ok a s' => rw [hr] at h; exact hQ a s' h
  | error e s' => rw [hr] at h; exact hE e s' h

theorem Spec.of_pre {p : Prop} (hp : ∀ s, P s → p) (h : p → Spec P x Q E) : Spec P x Q E :=
  fun s hs => h (hp s hs) s hs

theorem get_bind_run (f : σ → EStateM ε σ β) (s : σ) : (get >>= f) s = f s s := rfl

/-- A read: what follows knows the state it is in. -/
theorem Spec.get_bind {f : σ → EStateM ε σ β} (hf : ∀ v, Spec (fun s => P s ∧ s = v) (f v) R E) :
    Spec P (get >>= f) R E :=
  fun s hs => hf s s ⟨hs, rfl⟩

theorem Spec.onlyIf {c : Prop} [Decidable c] {x : EStateM ε σ Unit} {Q : Unit → σ → Prop} (h : c → Spec P x Q E)
    (h' : ¬ c → ∀ s, P s → Q () s) : Spec P (onlyIf c x) Q E := by
  unfold Tx.onlyIf
  split
  · exact h ‹_›
  · exact Spec.pure (h' ‹_›)

end Tx

end MmrTrader.Lib
