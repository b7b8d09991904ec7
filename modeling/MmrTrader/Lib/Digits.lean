import Mathlib.Init

/-!
# Decimal texts and separators

* `mem_toString_int` — an integer is written in digits, with a sign before them.
* `append_cons_inj`, `append_cons_inj_right` — a text is cut in one way only at the first separator, and at the last one.
-/

namespace MmrTrader.Lib

variable {n : Nat}
variable {c : Char}

theorem isDigit_of_mem_repr (h : c ∈ (Nat.repr n).toList) : c.isDigit = true := by
  rw [Nat.toList_repr] at h
  exact Nat.isDigit_of_mem_toDigits (by decide) (by decide) h

theorem mem_toString_int {n : Int} (h : c ∈ (toString n).toList) : c = '-' ∨ c.isDigit = true := by
  rw [Int.toString_eq_repr, Int.repr_eq_if] at h
  split at h
  · exact .inr (isDigit_of_mem_repr h)
  · rw [String.toList_append, List.mem_append] at h
    rcases h with h | h
    · have hdash : ("-" : String).toList = ['-'] := rfl
      rw [hdash] at h
      exact .inl (List.mem_singleton.mp h)
    · exact .inr (isDigit_of_mem_repr h)

variable {m : Nat}

theorem toDigits_injective (h : Nat.toDigits 10 m = Nat.toDigits 10 n) : m = n := by
  rw [← Nat.ofDigitChars_ten_toDigits (n := m), h, Nat.ofDigitChars_ten_toDigits]

theorem toString_nat_inj (h : (toString m).toList = (toString n).toList) : m = n := by
  change (Nat.repr m).toList = (Nat.repr n).toList at h
  rw [Nat.toList_repr, Nat.toList_repr] at h
  exact toDigits_injective h

variable {α : Type}

/-- The texts before and after the first separator. -/
theorem append_cons_inj {sep : α} {a a' b b' : List α} (ha : sep ∉ a) (ha' : sep ∉ a')
    (h : a ++ sep :: b = a' ++ sep :: b') : a = a' ∧ b = b' := by
  induction a generalizing a' with
  | nil =>
    cases a' with
    | nil => exact ⟨rfl, (List.cons.inj h).2⟩
    | cons x a' =>
      obtain rfl : sep = x := (List.cons.inj h).1
      exact absurd List.mem_cons_self ha'
  | cons x a ih =>
    cases a' with
    | nil =>
      obtain rfl : x = sep := (List.cons.inj h).1
      exact absurd List.mem_cons_self ha
    | cons y a' =>
      obtain ⟨hxy, hrest⟩ := List.cons.inj h
      obtain ⟨rfl, rfl⟩ := ih (fun hm => ha (List.mem_cons_of_mem _ hm)) (fun hm => ha' (List.mem_cons_of_mem _ hm)) hrest
      exact ⟨by rw [hxy], rfl⟩

/-- The texts before and after the last separator. -/
theorem append_cons_inj_right {sep : α} {a a' b b' : List α} (hb : sep ∉ b) (hb' : sep ∉ b')
    (h : a ++ sep :: b = a' ++ sep :: b') : a = a' ∧ b = b' := by
  have hreverse := congrArg List.reverse h
  simp only [List.reverse_append, List.reverse_cons, List.append_assoc, List.singleton_append] at hreverse
  obtain ⟨hright, hleft⟩ := append_cons_inj (fun hm => hb (List.mem_reverse.mp hm)) (fun hm => hb' (List.mem_reverse.mp hm)) hreverse
  exact ⟨List.reverse_inj.mp hleft, List.reverse_inj.mp hright⟩

end MmrTrader.Lib
