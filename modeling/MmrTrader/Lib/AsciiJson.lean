import MmrTrader.Lib.CanonicalJson

/-!
# JSON text in ASCII

* `asciiChar` — a character of a string as `json.dumps` writes it by default: short escapes, `\uXXXX`, and two of
  these for a character outside the basic plane.
* `unicodeEscape_append` — four digits are read back.
* `ascii` — the strings are read off a text in one way.
-/

namespace MmrTrader.Lib.CanonicalJson

/-- `\uXXXX`. -/
def unicodeEscape (n : Nat) : List Char :=
  ['\\', 'u', hexDigit (n / 4096 % 16), hexDigit (n / 256 % 16), hexDigit (n / 16 % 16), hexDigit (n % 16)]

/-- A character of a string, as `py_encode_basestring_ascii` writes it. -/
def asciiChar (c : Char) : List Char :=
  if c.toNat < 127 then escapeChar c
  else if c.toNat < 65536 then unicodeEscape c.toNat
  else unicodeEscape (55296 + (c.toNat - 65536) / 1024) ++ unicodeEscape (56320 + (c.toNat - 65536) % 1024)

def asciiQuote (s : String) : List Char := '"' :: (s.toList.flatMap asciiChar ++ ['"'])

/-! ## Four digits -/

variable {n : Nat}
variable {m : Nat}

theorem hexDigit_inj (hm : m < 16) (hn : n < 16) (h : hexDigit m = hexDigit n) : m = n := by
  have hall : ∀ m < 16, ∀ n < 16, hexDigit m = hexDigit n → m = n := by decide
  exact hall m hm n hn h

variable {s t : List Char}

theorem unicodeEscape_append (hm : m < 65536) (hn : n < 65536)
    (h : unicodeEscape m ++ s = unicodeEscape n ++ t) : m = n ∧ s = t := by
  simp only [unicodeEscape, List.cons_append, List.nil_append, List.cons.injEq, true_and] at h
  obtain ⟨h3, h2, h1, h0, hst⟩ := h
  have d3 := hexDigit_inj (Nat.mod_lt _ (by decide)) (Nat.mod_lt _ (by decide)) h3
  have d2 := hexDigit_inj (Nat.mod_lt _ (by decide)) (Nat.mod_lt _ (by decide)) h2
  have d1 := hexDigit_inj (Nat.mod_lt _ (by decide)) (Nat.mod_lt _ (by decide)) h1
  have d0 := hexDigit_inj (Nat.mod_lt _ (by decide)) (Nat.mod_lt _ (by decide)) h0
  refine ⟨?_, hst⟩
  omega

/-! ## One character -/

/-- How one character is written. -/
inductive Written : Char → List Char → Prop where
  | itself {c : Char} (h : c ≠ '"') (h' : c ≠ '\\') : Written c [c]
  | short {c d : Char} (h : d ≠ 'u') (hesc : escapeChar c = ['\\', d]) : Written c ['\\', d]
  | code {c : Char} (h : c.toNat < 65536) : Written c (unicodeEscape c.toNat)
  | pair {c : Char} (h : 65536 ≤ c.toNat) : Written c
      (unicodeEscape (55296 + (c.toNat - 65536) / 1024) ++ unicodeEscape (56320 + (c.toNat - 65536) % 1024))

theorem special_written : ∀ c ∈ special, Written c (escapeChar c) := by
  have hall : (special.all fun c => decide (c.toNat < 127) &&
      ((['"', '\\', 'n', 'r', 't', 'b', 'f'].any fun d => escapeChar c == ['\\', d]) ||
        escapeChar c == unicodeEscape c.toNat)) = true := by decide +kernel
  intro c hc
  have hwritten := List.all_eq_true.mp hall c hc
  simp only [Bool.and_eq_true, Bool.or_eq_true, decide_eq_true_eq, List.any_eq_true, beq_iff_eq] at hwritten
  obtain ⟨hlt, ⟨d, hd, hesc⟩ | hesc⟩ := hwritten
  · rw [hesc]
    refine .short ?_ hesc
    rintro rfl
    exact absurd hd (by decide)
  · rw [hesc]
    exact .code (hlt.trans (by decide))

theorem asciiChar_written (c : Char) : Written c (asciiChar c) := by
  unfold asciiChar
  split
  · by_cases hc : c ∈ special
    · exact special_written c hc
    · rw [escapeChar_plain hc]
      refine .itself ?_ ?_
      · rintro rfl
        exact hc (by decide)
      · rintro rfl
        exact hc (by decide)
  · split
    · rename_i h
      exact .code h
    · rename_i h
      exact .pair (Nat.le_of_not_lt h)

variable {c : Char}

/-- No character stands at the first half of a pair. -/
theorem toNat_not_surrogate (hn : n < 1048576) : c.toNat ≠ 55296 + n / 1024 := by
  have hvalid := c.valid
  have heq : c.toNat = c.val.toNat := rfl
  simp only [UInt32.isValidChar, Nat.isValidChar] at hvalid
  omega

theorem toNat_lt (c : Char) : c.toNat < 1114112 := by
  have hvalid := c.valid
  have heq : c.toNat = c.val.toNat := rfl
  simp only [UInt32.isValidChar, Nat.isValidChar] at hvalid
  omega

variable {x : List Char}

theorem Written.append {d : Char} {y : List Char} (hx : Written c x) (hy : Written d y) (h : x ++ s = y ++ t) :
    c = d ∧ s = t := by
  cases hx with
  | itself hq hb =>
    cases hy with
    | itself _ _ => simpa using h
    | short _ _ => exact absurd (List.cons.inj h).1 hb
    | code _ => exact absurd (List.cons.inj h).1 hb
    | pair _ => exact absurd (List.cons.inj h).1 hb
  | short hu hesc =>
    cases hy with
    | itself _ hb => exact absurd (List.cons.inj h).1.symm hb
    | short _ hesc' =>
      obtain ⟨hde, hst⟩ := List.cons.inj (List.cons.inj h).2
      refine ⟨escapeChar_prefix_eq ?_, hst⟩
      rw [hesc, hesc', hde]
    | code _ => exact absurd (List.cons.inj (List.cons.inj h).2).1 hu
    | pair _ => exact absurd (List.cons.inj (List.cons.inj h).2).1 hu
  | code hc =>
    cases hy with
    | itself _ hb => exact absurd (List.cons.inj h).1.symm hb
    | short hu _ => exact absurd (List.cons.inj (List.cons.inj h).2).1.symm hu
    | code hd =>
      obtain ⟨hnat, hst⟩ := unicodeEscape_append hc hd h
      exact ⟨Char.toNat_inj.mp hnat, hst⟩
    | pair hd =>
      have hlt := toNat_lt d
      rw [List.append_assoc] at h
      obtain ⟨hnat, -⟩ := unicodeEscape_append hc (by omega) h
      exact absurd hnat (toNat_not_surrogate (by omega))
  | pair hc =>
    have hclt := toNat_lt c
    cases hy with
    | itself _ hb => exact absurd (List.cons.inj h).1.symm hb
    | short hu _ => exact absurd (List.cons.inj (List.cons.inj h).2).1.symm hu
    | code hd =>
      rw [List.append_assoc] at h
      obtain ⟨hnat, -⟩ := unicodeEscape_append (by omega) hd h
      exact absurd hnat.symm (toNat_not_surrogate (by omega))
    | pair hd =>
      have hdlt := toNat_lt d
      rw [List.append_assoc, List.append_assoc] at h
      obtain ⟨hhigh, hlow⟩ := unicodeEscape_append (by omega) (by omega) h
      obtain ⟨hlow, hst⟩ := unicodeEscape_append (by omega) (by omega) hlow
      refine ⟨Char.toNat_inj.mp ?_, hst⟩
      omega

theorem Written.ne_quote (h : Written c x) (s : List Char) : ∃ d rest, x ++ s = d :: rest ∧ d ≠ '"' := by
  cases h with
  | itself hq _ => exact ⟨c, s, rfl, hq⟩
  | short _ _ => exact ⟨_, _, rfl, by decide⟩
  | code _ => exact ⟨_, _, rfl, by decide⟩
  | pair _ => exact ⟨_, _, rfl, by decide⟩

/-! ## Strings -/

theorem asciiChars_append (x y s t : List Char) (h : x.flatMap asciiChar ++ '"' :: s = y.flatMap asciiChar ++ '"' :: t) :
    x = y ∧ s = t := by
  induction x generalizing y with
  | nil =>
    cases y with
    | nil => exact ⟨rfl, (List.cons.inj h).2⟩
    | cons d y =>
      obtain ⟨e, rest, he, hne⟩ := (asciiChar_written d).ne_quote (y.flatMap asciiChar ++ '"' :: t)
      rw [List.flatMap_cons, List.append_assoc, he] at h
      exact absurd (List.cons.inj h).1.symm hne
  | cons c x ih =>
    rw [List.flatMap_cons, List.append_assoc] at h
    cases y with
    | nil =>
      obtain ⟨e, rest, he, hne⟩ := (asciiChar_written c).ne_quote (x.flatMap asciiChar ++ '"' :: s)
      rw [he] at h
      exact absurd (List.cons.inj h).1 hne
    | cons d y =>
      rw [List.flatMap_cons, List.append_assoc] at h
      obtain ⟨rfl, hrest⟩ := (asciiChar_written c).append (asciiChar_written d) h
      obtain ⟨rfl, hst⟩ := ih y hrest
      exact ⟨rfl, hst⟩

/-- `ensure_ascii=True`. -/
def ascii : Quoting where
  write := asciiQuote
  head _ := ⟨_, rfl⟩
  read x y s t h := by
    simp only [asciiQuote, List.cons_append, List.append_assoc, List.nil_append, List.cons.injEq, true_and] at h
    obtain ⟨hxy, hst⟩ := asciiChars_append _ _ _ _ h
    exact ⟨String.toList_injective hxy, hst⟩

example : asciiQuote "a\né😀" = "\"a\\n\\u00e9\\ud83d\\ude00\"".toList := by decide +kernel

end MmrTrader.Lib.CanonicalJson
