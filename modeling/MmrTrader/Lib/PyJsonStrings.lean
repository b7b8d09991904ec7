import MmrTrader.Lib.PyJson

/-!
# Strings and numbers are read back

* `Whole` — no high surrogate directly before a low one: the strings that a JSON text can spell.
* `scanString_quote` — a whole string is read back from what is written for it.
* `matchNumber_text` — a literal is read back when no digit, point, mark or sign follows.
* `readLiteral_int`, `readLiteral_float` — and its number with it.
-/

namespace MmrTrader.Lib.PyJson

open CanonicalJson (hexDigit)

variable {F E : Type}

/-! ## Strings -/

/-- The strings that a JSON text can spell. -/
def Whole (s : Text) : Prop := s.IsChain fun c d => ¬ (isHigh c = true ∧ isLow d = true)

theorem hexValue_hexDigit (n : Fin 16) : hexValue (point (hexDigit n.val)) = some n := by
  have hall : ∀ n : Fin 16, hexValue (point (hexDigit n.val)) = some n := by decide
  exact hall n

variable {c : CodePoint}

theorem readFourHex_fourHex (hc : c.val < 0x10000) :
    readFourHex (point (hexDigit (c.val / 4096 % 16))) (point (hexDigit (c.val / 256 % 16))) (point (hexDigit (c.val / 16 % 16)))
      (point (hexDigit (c.val % 16))) = some c := by
  have h3 := hexValue_hexDigit ⟨c.val / 4096 % 16, by omega⟩
  have h2 := hexValue_hexDigit ⟨c.val / 256 % 16, by omega⟩
  have h1 := hexValue_hexDigit ⟨c.val / 16 % 16, by omega⟩
  have h0 := hexValue_hexDigit ⟨c.val % 16, by omega⟩
  simp only [readFourHex, h3, h2, h1, h0, Option.bind_eq_bind, Option.bind_some, Option.pure_def, Option.some.injEq]
  apply Fin.ext
  show ((c.val / 4096 % 16 * 16 + c.val / 256 % 16) * 16 + c.val / 16 % 16) * 16 + c.val % 16 = c.val
  omega

def BeginsLow (t : Text) : Prop :=
  ∃ l1 l2 l3 l4 after low, t = point '\\' :: point 'u' :: l1 :: l2 :: l3 :: l4 :: after ∧
    readFourHex l1 l2 l3 l4 = some low ∧ isLow low = true

section
-- the equations of `scanString`, which every lemma below unfolds
attribute [local simp] scanString.eq_def
end

theorem scanString_short {d : CodePoint} (h : unescape d = some c) (hd : d ≠ point 'u') (t : Text) :
    scanString (E := E) (point '\\' :: d :: t) = push c (scanString t) := by
  rw [scanString.eq_def]
  simp [hd, h]

theorem scanString_plain (hq : c ≠ point '"') (hb : c ≠ point '\\') (hc : ¬ c.val < 32) (t : Text) :
    scanString (E := E) (c :: t) = push c (scanString t) := by
  rw [scanString.eq_def]
  simp only [hq, hb, if_false]
  exact if_neg hc

variable {t : Text}

theorem scanString_unit (hc : c.val < 0x10000) (h : isHigh c = true → ¬ BeginsLow t) :
    scanString (E := E) (unicodeEscape c.val ++ t) = push c (scanString t) := by
  have hread := readFourHex_fourHex hc
  rw [unicodeEscape, fourHex, List.cons_append, List.cons_append, List.cons_append, List.cons_append, List.cons_append,
    List.cons_append, List.nil_append, scanString.eq_def]
  simp only [point_inj, Char.reduceEq, if_false, if_true, hread]
  split
  · rename_i hhigh
    split
    · rename_i s u l1 l2 l3 l4 after
      split
      · rename_i hsu
        obtain ⟨rfl, rfl⟩ := hsu
        cases hlow : readFourHex l1 l2 l3 l4 with
        | none =>
          -- the bad escape is an error when it is read on its own, too
          simp only
          rw [scanString.eq_def (point '\\' :: _)]
          simp [hlow, push]
        | some low =>
          have hnot : isLow low = false := by
            cases hl : isLow low with
            | false => rfl
            | true => exact absurd ⟨l1, l2, l3, l4, after, low, rfl, hlow, hl⟩ (h hhigh)
          simp [hnot]
      · rfl
    · rfl
  · rfl

theorem scanString_pair (hc : 0x10000 ≤ c.val) (t : Text) :
    scanString (E := E) (unicodeEscape (0xD800 + (c.val - 0x10000) / 0x400) ++
      (unicodeEscape (0xDC00 + (c.val - 0x10000) % 0x400) ++ t)) = push c (scanString t) := by
  have hlt := c.isLt
  obtain ⟨high, hhigh⟩ : ∃ high : CodePoint, high.val = 0xD800 + (c.val - 0x10000) / 0x400 := ⟨⟨_, by omega⟩, rfl⟩
  obtain ⟨low, hlow⟩ : ∃ low : CodePoint, low.val = 0xDC00 + (c.val - 0x10000) % 0x400 := ⟨⟨_, by omega⟩, rfl⟩
  have hreadHigh := readFourHex_fourHex (c := high) (by omega)
  have hreadLow := readFourHex_fourHex (c := low) (by omega)
  have hisHigh : isHigh high = true := by
    simp only [isHigh, Bool.and_eq_true, decide_eq_true_eq]
    omega
  have hisLow : isLow low = true := by
    simp only [isLow, Bool.and_eq_true, decide_eq_true_eq]
    omega
  have hjoin : joinPair high low = c := by
    apply Fin.ext
    show 0x10000 + high.val % 0x400 * 0x400 + low.val % 0x400 = c.val
    omega
  rw [← hhigh, ← hlow]
  simp only [unicodeEscape, fourHex, List.cons_append, List.nil_append]
  rw [scanString.eq_def]
  simp [hreadHigh, hreadLow, hisHigh, hisLow, hjoin]

/-- How one character is written. -/
theorem escapeChar_cases (c : CodePoint) :
    (∃ d, unescape d = some c ∧ d ≠ point 'u' ∧ escapeChar c = [point '\\', d]) ∨
    (c ≠ point '"' ∧ c ≠ point '\\' ∧ ¬ c.val < 32 ∧ c.val < 127 ∧ escapeChar c = [c]) ∨
    (c.val < 0x10000 ∧ escapeChar c = unicodeEscape c.val) ∨
    (0x10000 ≤ c.val ∧ escapeChar c =
      unicodeEscape (0xD800 + (c.val - 0x10000) / 0x400) ++ unicodeEscape (0xDC00 + (c.val - 0x10000) % 0x400)) := by
  unfold escapeChar
  cases hshort : shortEscapes.lookup c with
  | some d =>
    have hall : ∀ pair ∈ shortEscapes, unescape pair.2 = some pair.1 ∧ pair.2 ≠ point 'u' :=
      @of_decide_eq_true _ (List.decidableBAll _ _) rfl
    obtain ⟨before, after, hsplit, -⟩ := List.lookup_eq_some_iff.mp hshort
    obtain ⟨hread, hu⟩ := hall (c, d) (hsplit ▸ List.mem_append_right _ List.mem_cons_self)
    exact .inl ⟨d, hread, hu, rfl⟩
  | none =>
    simp only
    split
    · rename_i hplain
      simp only [Bool.and_eq_true, decide_eq_true_eq] at hplain
      refine .inr (.inl ⟨?_, ?_, by omega, by omega, rfl⟩)
      · rintro rfl
        exact absurd hshort (by decide)
      · rintro rfl
        exact absurd hshort (by decide)
    · split
      · rename_i hlt
        exact .inr (.inr (.inl ⟨hlt, rfl⟩))
      · rename_i hlt
        exact .inr (.inr (.inr ⟨Nat.le_of_not_lt hlt, rfl⟩))

theorem not_beginsLow_escapeChar (hc : isLow c = false) (t : Text) : ¬ BeginsLow (escapeChar c ++ t) := by
  rintro ⟨l1, l2, l3, l4, after, low, heq, hread, hlow⟩
  rcases escapeChar_cases c with ⟨d, -, hu, hesc⟩ | ⟨-, hb, -, -, hesc⟩ | ⟨hlt, hesc⟩ | ⟨hle, hesc⟩
  · rw [hesc] at heq
    exact hu (List.cons.inj (List.cons.inj heq).2).1
  · rw [hesc] at heq
    exact hb (List.cons.inj heq).1
  · rw [hesc, unicodeEscape, fourHex] at heq
    simp only [List.cons_append, List.cons.injEq, true_and] at heq
    obtain ⟨rfl, rfl, rfl, rfl, -⟩ := heq
    rw [readFourHex_fourHex hlt] at hread
    cases hread
    rw [hc] at hlow
    cases hlow
  · have hltc := c.isLt
    obtain ⟨high, hhigh⟩ : ∃ high : CodePoint, high.val = 0xD800 + (c.val - 0x10000) / 0x400 := ⟨⟨_, by omega⟩, rfl⟩
    rw [hesc, ← hhigh, unicodeEscape, fourHex] at heq
    simp only [List.cons_append, List.cons.injEq, true_and] at heq
    obtain ⟨rfl, rfl, rfl, rfl, -⟩ := heq
    rw [readFourHex_fourHex (by omega)] at hread
    cases hread
    simp only [isLow, Bool.and_eq_true, decide_eq_true_eq] at hlow
    omega

theorem scanString_escapeChar (h : isHigh c = true → ¬ BeginsLow t) :
    scanString (E := E) (escapeChar c ++ t) = push c (scanString t) := by
  rcases escapeChar_cases c with ⟨d, hread, hu, hesc⟩ | ⟨hq, hb, hc, -, hesc⟩ | ⟨hlt, hesc⟩ | ⟨hle, hesc⟩
  · rw [hesc]
    exact scanString_short hread hu t
  · rw [hesc]
    exact scanString_plain hq hb hc t
  · rw [hesc]
    exact scanString_unit hlt h
  · rw [hesc, List.append_assoc]
    exact scanString_pair hle t

/-- **A whole string is read back.** -/
theorem scanString_quote {s : Text} (h : Whole s) (rest : Text) :
    scanString (E := E) (s.flatMap escapeChar ++ (point '"' :: rest)) = .ok (s, rest) := by
  induction s with
  | nil =>
    rw [List.flatMap_nil, List.nil_append, scanString.eq_def]
    simp
  | cons c s ih =>
    have hnext : isHigh c = true → ¬ BeginsLow (s.flatMap escapeChar ++ (point '"' :: rest)) := by
      intro hhigh
      cases s with
      | nil =>
        rintro ⟨l1, l2, l3, l4, after, low, heq, -, -⟩
        exact absurd (point_injective (List.cons.inj heq).1) (by decide)
      | cons d s =>
        have hlow : isLow d = false := by
          cases hd : isLow d with
          | false => rfl
          | true => exact absurd ⟨hhigh, hd⟩ (List.isChain_cons_cons.mp h).1
        rw [List.flatMap_cons, List.append_assoc]
        exact not_beginsLow_escapeChar hlow _
    rw [List.flatMap_cons, List.append_assoc, scanString_escapeChar hnext, ih (List.isChain_of_isChain_cons h)]
    rfl

/-- Two characters that are the halves of a third are read back as that one. -/
example : scanString (E := Empty) (escapeChar 0xD83D ++ escapeChar 0xDE00 ++ [point '"']) = .ok ([point '😀'], []) := by
  decide +kernel

/-! ## Numbers -/

/-- No digit stands at the front. -/
def NoDigit (t : Text) : Prop := ∀ c rest, t = c :: rest → isDigit c = false

/-- The text goes on with nothing that belongs to a number. -/
def Stops (t : Text) : Prop :=
  ∀ c rest, t = c :: rest → isDigit c = false ∧ c ≠ point '.' ∧ isExponentMark c = false

theorem Stops.nil : Stops [] := by
  rintro _ _ ⟨⟩

theorem Stops.cons (hd : isDigit c = false) (hp : c ≠ point '.') (he : isExponentMark c = false) : Stops (c :: t) := by
  rintro _ _ ⟨⟩
  exact ⟨hd, hp, he⟩

theorem Stops.noDigit (h : Stops t) : NoDigit t := fun c rest heq => (h c rest heq).1

theorem takeWhile_digits {ds : Text} (hd : ∀ c ∈ ds, isDigit c = true) (ht : NoDigit t) :
    (ds ++ t).takeWhile isDigit = ds ∧ (ds ++ t).dropWhile isDigit = t := by
  rw [List.takeWhile_append_of_pos hd, List.dropWhile_append_of_pos hd]
  cases t with
  | nil => simp
  | cons c t =>
    have hc := ht c t rfl
    simp [hc]

theorem not_mark_of_digit (h : isDigit c = true) : isSign c = false ∧ c ≠ point '-' := by
  simp only [isDigit, Bool.and_eq_true, decide_eq_true_eq] at h
  have hne : ∀ d : Char, d.toNat < 48 → c ≠ point d := by
    rintro d hd rfl
    rw [val_point] at h
    omega
  refine ⟨?_, hne '-' (by decide)⟩
  simp [isSign, hne '+' (by decide), hne '-' (by decide)]

theorem matchFraction_text {f : Option Text} (hf : ∀ digits, f = some digits → AreDigits digits) (ht : NoDigit t)
    (hpoint : ∀ rest, t ≠ point '.' :: rest) : matchFraction (fractionText f ++ t) = (f, t) := by
  cases f with
  | none =>
    cases t with
    | nil => rfl
    | cons c t =>
      have hc : c ≠ point '.' := by
        rintro rfl
        exact hpoint t rfl
      simp [fractionText, matchFraction, hc]
  | some digits =>
    obtain ⟨hne, hall⟩ := hf digits rfl
    obtain ⟨htake, hdrop⟩ := takeWhile_digits hall ht
    simp only [fractionText, List.cons_append, matchFraction, htake, hdrop]
    simp [hne]

variable {e : Option (Text × Text)}

theorem matchExponent_text (he : ∀ mark digits, e = some (mark, digits) → mark ∈ marks ∧ AreDigits digits) (ht : Stops t) :
    matchExponent (exponentText e ++ t) = (e, t) := by
  cases e with
  | none =>
    cases t with
    | nil => rfl
    | cons c t =>
      obtain ⟨-, -, hmark⟩ := ht c t rfl
      simp [exponentText, matchExponent, hmark]
  | some pair =>
    obtain ⟨mark, digits⟩ := pair
    obtain ⟨hmark, hne, hall⟩ := he mark digits rfl
    obtain ⟨htake, hdrop⟩ := takeWhile_digits hall ht.noDigit
    -- the sign is told from a digit
    cases digits with
    | nil => exact absurd rfl hne
    | cons d digits =>
      have hsign := (not_mark_of_digit (hall d List.mem_cons_self)).1
      rw [List.cons_append] at htake hdrop
      simp only [marks, List.mem_cons, List.not_mem_nil, or_false] at hmark
      rcases hmark with rfl | rfl | rfl | rfl | rfl | rfl
      · simp [exponentText, matchExponent, isExponentMark, hsign, htake, hdrop]
      · simp [exponentText, matchExponent, isExponentMark, hsign, htake, hdrop]
      all_goals simp [exponentText, matchExponent, isExponentMark, isSign, htake, hdrop]

theorem exponent_stops (he : ∀ mark digits, e = some (mark, digits) → mark ∈ marks ∧ AreDigits digits) (ht : Stops t) :
    NoDigit (exponentText e ++ t) ∧
    ∀ rest, exponentText e ++ t ≠ point '.' :: rest := by
  cases e with
  | none => exact ⟨ht.noDigit, fun rest heq => (ht _ rest heq).2.1 rfl⟩
  | some pair =>
    obtain ⟨mark, digits⟩ := pair
    obtain ⟨hmark, -⟩ := he mark digits rfl
    have hhead : ∃ c more, mark = c :: more ∧ isDigit c = false ∧ c ≠ point '.' := by
      have hall : ∀ mark ∈ marks, (mark.head?.any fun c => !isDigit c && c != point '.') = true := by decide
      have hthis := hall mark hmark
      cases mark with
      | nil => cases hthis
      | cons c more =>
        refine ⟨c, more, rfl, ?_⟩
        simpa using hthis
    obtain ⟨c, more, rfl, hdigit, hpoint⟩ := hhead
    refine ⟨?_, ?_⟩
    · rintro _ _ ⟨⟩
      exact hdigit
    · rintro rest heq
      exact hpoint (List.cons.inj heq).1

/-- **A literal is read back.** -/
theorem matchNumber_text {l : Literal} (hl : l.WellFormed) (ht : Stops t) : matchNumber (l.text ++ t) = some (l, t) := by
  obtain ⟨negative, integer, fraction, exponent⟩ := l
  obtain ⟨⟨hne, hall⟩, hzero, hfraction, hexponent⟩ := hl
  simp only at hne hall hzero hfraction hexponent
  obtain ⟨hdigit, hpoint⟩ := exponent_stops hexponent ht
  have hexp := matchExponent_text hexponent ht
  have hfrac := matchFraction_text hfraction hdigit hpoint
  have hfracDigit : NoDigit (fractionText fraction ++ (exponentText exponent ++ t)) := by
    cases fraction with
    | none => exact hdigit
    | some digits =>
      rintro _ _ ⟨⟩
      decide
  have hunsigned : matchUnsigned negative (integer ++ (fractionText fraction ++ (exponentText exponent ++ t))) = some (⟨negative, integer, fraction, exponent⟩, t) := by
    cases integer with
    | nil => exact absurd rfl hne
    | cons c integer =>
      have hc := hall c List.mem_cons_self
      rw [List.cons_append, matchUnsigned, if_pos hc]
      by_cases h0 : c = point '0'
      · obtain rfl := hzero integer (by rw [h0])
        simp [h0, hfrac, hexp]
      · obtain ⟨htake, hdrop⟩ := takeWhile_digits (fun d hd => hall d (List.mem_cons_of_mem _ hd)) hfracDigit
        simp [h0, htake, hdrop, hfrac, hexp]
  cases negative with
  | true =>
    simp only [Literal.text, if_true, List.cons_append, List.append_assoc, matchNumber]
    exact hunsigned
  | false =>
    simp only [Literal.text, Bool.false_eq_true, if_false, List.append_assoc, List.nil_append]
    cases integer with
    | nil => exact absurd rfl hne
    | cons c integer =>
      have hminus := (not_mark_of_digit (hall c List.mem_cons_self)).2
      rw [List.cons_append, matchNumber, if_neg hminus]
      rw [List.cons_append] at hunsigned
      exact hunsigned

theorem digits_areDigits (n : Nat) : AreDigits (digits n) := by
  refine ⟨?_, ?_⟩
  · intro h
    exact Nat.toDigits_ne_nil (List.map_eq_nil_iff.mp h)
  · intro c hc
    obtain ⟨d, hd, rfl⟩ := List.mem_map.mp hc
    have hdigit := Nat.isDigit_of_mem_toDigits (by decide) (by decide) hd
    simp only [Char.isDigit, Bool.and_eq_true, decide_eq_true_eq, UInt32.le_iff_toNat_le] at hdigit
    obtain ⟨hlow, hhigh⟩ := hdigit
    simp only [isDigit, val_point, Bool.and_eq_true]
    exact ⟨decide_eq_true hlow, decide_eq_true hhigh⟩

theorem ofDigits_digits (n : Nat) : ofDigits (digits n) = n := by
  have hback := Nat.ofDigitChars_ten_toDigits (n := n)
  rw [Nat.ofDigitChars_eq_foldl] at hback
  rw [ofDigits, digits, List.foldl_map]
  simpa [Nat.mul_comm] using hback

variable {n : Nat}

theorem toDigits_head (h : 0 < n) : (Nat.toDigits 10 n).head? ≠ some '0' := by
  induction n using Nat.strongRecOn with
  | ind n ih =>
    by_cases hlt : n < 10
    · rw [Nat.toDigits_of_lt_base hlt]
      have hall : ∀ n < 10, 0 < n → [Nat.digitChar n].head? ≠ some '0' := by decide
      exact hall n hlt h
    · rw [Nat.toDigits_of_base_le (by decide) (by omega)]
      have hrest := ih (n / 10) (by omega) (by omega)
      cases hd : Nat.toDigits 10 (n / 10) with
      | nil => exact absurd hd Nat.toDigits_ne_nil
      | cons c rest =>
        rw [hd] at hrest
        exact hrest

theorem digits_zero {rest : Text} (h : digits n = point '0' :: rest) : rest = [] := by
  by_cases h0 : n = 0
  · subst h0
    exact (List.cons.inj h).2.symm
  · have hhead := toDigits_head (Nat.pos_of_ne_zero h0)
    rw [digits] at h
    cases hd : Nat.toDigits 10 n with
    | nil => exact absurd hd Nat.toDigits_ne_nil
    | cons c more =>
      rw [hd, List.map_cons] at h
      rw [hd] at hhead
      exact absurd (congrArg some (point_injective (List.cons.inj h).1)) hhead

theorem intLiteral_wellFormed (i : Int) : (intLiteral i).WellFormed where
  integer := digits_areDigits _
  zero := fun _ h => digits_zero h
  fraction := by
    intro ds h
    cases h
  exponent := by
    intro mark ds h
    cases h

theorem toInt_intLiteral (i : Int) : (intLiteral i).toInt = i := by
  simp only [Literal.toInt, intLiteral, ofDigits_digits, decide_eq_true_eq]
  split <;> omega

variable [FloatText F]

theorem readLiteral_int {i : Int} (h : ¬ maxStrDigits < (digits i.natAbs).length) :
    readLiteral (E := E) (intLiteral i) = .ok (.int (F := F) i) := by
  have hfloat : (intLiteral i).isFloat = false := rfl
  have hdigits : ¬ maxStrDigits < (intLiteral i).integer.length := h
  rw [readLiteral, hfloat, if_neg (by decide), if_neg hdigits, toInt_intLiteral]

theorem readLiteral_float {x : F} (h : FloatText.isFinite x = true) :
    readLiteral (E := E) (FloatText.repr x) = .ok (.float x) := by
  rw [readLiteral, FloatText.repr_isFloat x h, if_pos rfl, FloatText.ofText_repr x h]

end MmrTrader.Lib.PyJson
