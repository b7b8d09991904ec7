import Mathlib.Data.List.Basic

/-!
# Runs whose steps all meet a condition

A system is a total step function `step : σ → α → σ`; a run is a list of actions folded over a
start state.  `Meets step cond s as` says that every action of the run satisfies `cond` in the
state it is taken in.

* `Meets.invariant` — an invariant that every step meeting the condition preserves holds at the
  end of every such run (hence in every state it passes through, since prefixes meet it too).
* `Meets.append` — splitting a run.
* `Meets.iff_prefixes` — a condition is exact when a step that breaks it breaks the property too.
-/

namespace MmrTrader.Lib

variable {σ α : Type}

/-- Every action of the run meets `cond` in the state before it. -/
def Meets (step : σ → α → σ) (cond : σ → α → Prop) : σ → List α → Prop
  | _, [] => True
  | s, a :: as => cond s a ∧ Meets step cond (step s a) as

instance Meets.decidable (step : σ → α → σ) (cond : σ → α → Prop) [∀ s a, Decidable (cond s a)] :
    ∀ s as, Decidable (Meets step cond s as)
  | _, [] => .isTrue trivial
  | s, a :: as =>
    have := Meets.decidable step cond (step s a) as
    inferInstanceAs (Decidable (cond s a ∧ Meets step cond (step s a) as))

variable {step : σ → α → σ} {cond : σ → α → Prop}
variable {s : σ} {as : List α}

theorem Meets.append {bs : List α} :
    Meets step cond s (as ++ bs) ↔ Meets step cond s as ∧ Meets step cond (as.foldl step s) bs := by
  induction as generalizing s with
  | nil => simp [Meets]
  | cons a as ih => simp [Meets, ih, and_assoc]

variable {I : σ → Prop}

/-- **Invariant rule.** -/
theorem Meets.invariant (hstep : ∀ s a, I s → cond s a → I (step s a))
    (hs : I s) (hm : Meets step cond s as) : I (as.foldl step s) := by
  induction as generalizing s with
  | nil => exact hs
  | cons a as ih => exact ih (hstep s a hs hm.1) hm.2

theorem Meets.of_prefix {pre : List α} (hm : Meets step cond s as) (h : pre <+: as) : Meets step cond s pre := by
  obtain ⟨rest, rfl⟩ := h
  exact (Meets.append.mp hm).1

/-- **Exactness.**  If the invariant gives the property, and a step from an invariant state that
    fails the condition makes the property fail, then the property holds in every state of the run
    exactly when every step meets the condition. -/
theorem Meets.iff_prefixes {P : σ → Prop} (hP : ∀ s, I s → P s)
    (hstep : ∀ s a, I s → cond s a → I (step s a)) (hviol : ∀ s a, I s → ¬ cond s a → ¬ P (step s a)) (hs : I s) :
    (∀ pre, pre <+: as → P (pre.foldl step s)) ↔ Meets step cond s as := by
  constructor
  · intro h
    induction as generalizing s with
    | nil => trivial
    | cons a as ih =>
      have hcond : cond s a := by
        by_contra hc
        exact hviol s a hs hc (h [a] ⟨as, rfl⟩)
      refine ⟨hcond, ih (hstep s a hs hcond) fun pre hpre => ?_⟩
      exact h (a :: pre) (List.cons_prefix_cons.mpr ⟨rfl, hpre⟩)
  · intro hm pre hpre
    exact hP _ ((hm.of_prefix hpre).invariant hstep hs)

end MmrTrader.Lib
