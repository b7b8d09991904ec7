import MmrTrader.Lib.Interleaving

/-!
# Pools that crash

A crash may come between any two steps: every program of the pool is gone, and `reboot` says what the next
process finds of the shared state.

* `Turn`, `System.turn`, `System.lives` — a schedule with crashes in it.
* `Guarded G` — programs whose every step keeps to `G`, as long as the others keep to `R`.
* `Sound.lives` — what every step, crash and restart keeps.
* `Sound.turn_cases` — everything one turn can do to the shared state.
-/

namespace MmrTrader.Lib.Interleaving

variable {σ A ε α β K E : Type}

inductive Turn (A ε K E : Type) where
  | live (l : Label A ε K E)
  | crash

namespace System

variable (S : System σ A ε α K E) (reboot : σ → σ)

def turn (w : World σ A ε α) : Turn A ε K E → World σ A ε α
  | .live l => S.step w l
  | .crash => ⟨reboot w.shared, fun _ => none⟩

def lives (w : World σ A ε α) (ts : List (Turn A ε K E)) : World σ A ε α := ts.foldl (S.turn reboot) w

theorem lives_append (w : World σ A ε α) (ts ts' : List (Turn A ε K E)) :
    S.lives reboot w (ts ++ ts') = S.lives reboot (S.lives reboot w ts) ts' := List.foldl_append

end System

variable {S : System σ A ε α K E} {reboot : σ → σ} {Inv : σ → Prop} {R G G' : σ → σ → Prop}
  {Q : Except ε α → σ → Prop} {w : World σ A ε α} {p : Prog σ A ε α} {s : σ}

/-- What is left to do of each program keeps to `G`. -/
def Guarded (R G : σ → σ → Prop) (w : World σ A ε α) : Prop :=
  ∀ i p, w.threads i = some p → Safe R G (fun _ _ => True) p w.shared

theorem Guarded.set (h : Guarded R G w) {i : Nat} (hp : Safe R G (fun _ _ => True) p w.shared) :
    Guarded R G (w.set i p) := by
  intro j q hq
  by_cases hj : j = i
  · subst hj
    rw [World.set_self] at hq
    cases hq
    exact hp
  · rw [World.set_other w p hj] at hq
    exact h j q hq

theorem Guarded.moved (hS : Sound S Inv R Q) (h : Guarded R G w) {t : σ} (ht : R w.shared t) :
    Guarded R G { w with shared := t } :=
  fun i p hp => (h i p hp).later ht hS.trans fun _ _ _ _ _ => trivial

/-- **Everything one turn can do**: nothing, a step of a program that keeps to `G`, a step of the outside, a crash. -/
theorem Sound.turn_cases (hS : Sound S Inv R Q) (hmain : ∀ k s, Inv s → Safe R G (fun _ _ => True) (S.main k) s)
    (h : Steady Inv R Q w) (hg : Guarded R G w) (hboot : ∀ s, Inv s → R s (reboot s)) (t : Turn A ε K E) :
    (Steady Inv R Q (S.turn reboot w t) ∧ R w.shared (S.turn reboot w t).shared) ∧
      Guarded R G (S.turn reboot w t) ∧
      ((S.turn reboot w t).shared = w.shared ∨
        (∃ i a, t = .live (.go i a) ∧ G w.shared (S.turn reboot w t).shared) ∨
        (∃ e, t = .live (.env e) ∧ (S.turn reboot w t).shared = S.env e w.shared) ∨
        t = .crash ∧ (S.turn reboot w t).shared = reboot w.shared) := by
  have hrefl := hS.refl _ h.inv
  cases t with
  | crash =>
    have hR := hboot _ h.inv
    refine ⟨⟨⟨hS.inv _ _ hR, fun i p hp => ?_⟩, hR⟩, fun i p hp => ?_, Or.inr (Or.inr (Or.inr ⟨rfl, rfl⟩))⟩
    · cases hp
    · cases hp
  | live l =>
    refine ⟨hS.step h l, ?_⟩
    cases l with
    | start i k => exact ⟨hg.set (hmain k _ h.inv), Or.inl rfl⟩
    | go i a =>
      show Guarded R G (w.go i a) ∧ ((w.go i a).shared = w.shared ∨ _)
      rcases w.go_cases i a with ⟨write, next, ht, hgo⟩ | hgo
      · obtain ⟨hG, hnext⟩ := hg i _ ht w.shared hrefl a
        have hR := (h.safe i _ ht w.shared hrefl a).1
        rw [hgo]
        refine ⟨(Guarded.moved hS hg hR).set hnext, Or.inr (Or.inl ⟨i, a, rfl, ?_⟩)⟩
        show G w.shared (w.go i a).shared
        rw [hgo]
        exact hG
      · rw [hgo]
        exact ⟨hg, Or.inl rfl⟩
    | fail i e =>
      show Guarded R G (w.fail i e) ∧ ((w.fail i e).shared = w.shared ∨ _)
      rcases w.fail_cases i e with ⟨write, next, ht, hfail⟩ | hfail
      · rw [hfail]
        exact ⟨hg.set (p := .done (.error e)) trivial, Or.inl rfl⟩
      · rw [hfail]
        exact ⟨hg, Or.inl rfl⟩
    | env e => exact ⟨Guarded.moved hS hg (hS.env e _ h.inv), Or.inr (Or.inr (Or.inl ⟨e, rfl, rfl⟩))⟩

/-- **Every run with crashes keeps to `R`.** -/
theorem Sound.lives (hS : Sound S Inv R Q) (hmain : ∀ k s, Inv s → Safe R G (fun _ _ => True) (S.main k) s)
    (hboot : ∀ s, Inv s → R s (reboot s)) (h : Steady Inv R Q w) (hg : Guarded R G w) (ts : List (Turn A ε K E)) :
    Steady Inv R Q (S.lives reboot w ts) ∧ Guarded R G (S.lives reboot w ts) ∧
      R w.shared (S.lives reboot w ts).shared := by
  induction ts generalizing w with
  | nil => exact ⟨h, hg, hS.refl _ h.inv⟩
  | cons t ts ih =>
    obtain ⟨⟨h', hR⟩, hg', -⟩ := hS.turn_cases hmain h hg hboot t
    obtain ⟨h'', hg'', hR'⟩ := ih h' hg'
    exact ⟨h'', hg'', hS.trans _ _ _ hR hR'⟩

end MmrTrader.Lib.Interleaving
