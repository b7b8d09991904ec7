import MmrTrader.Lib.AsciiJson

/-!
# Text as code points

* `CodePoint`, `Text` — a string whose characters may be surrogates.
* `isHigh`, `isLow`, `joinPair` — the two halves of a character outside the basic plane.
* `encodeUtf8` — `str.encode`; no surrogate can be written.
* `decodeUtf8_ascii` — ASCII bytes are their own characters.
-/

set_option autoImplicit false

namespace MmrTrader.Lib

/-- A character of a Python string. -/
abbrev CodePoint := Fin 0x110000

abbrev Text := List CodePoint

def point (c : Char) : CodePoint := ⟨c.toNat, CanonicalJson.toNat_lt c⟩

def text (s : String) : Text := s.toList.map point

variable {c d : Char}

theorem point_injective (h : point c = point d) : c = d := by
  have hval : (point c).val = (point d).val := by rw [h]
  exact Char.toNat_inj.mp hval

@[simp] theorem point_inj : point c = point d ↔ c = d :=
  ⟨point_injective, congrArg point⟩

@[simp] theorem val_point (c : Char) : (point c).val = c.toNat := rfl

/-! ## Surrogates -/

def isHigh (c : CodePoint) : Bool := 0xD800 ≤ c.val && c.val ≤ 0xDBFF

def isLow (c : CodePoint) : Bool := 0xDC00 ≤ c.val && c.val ≤ 0xDFFF

/-- `Py_UNICODE_JOIN_SURROGATES`. -/
def joinPair (high low : CodePoint) : CodePoint := ⟨0x10000 + high.val % 0x400 * 0x400 + low.val % 0x400, by omega⟩

/-- Two units that are a high half and a low half stand for one character. -/
def joinPairs : Text → Text
  | [] => []
  | [c] => [c]
  | c :: d :: rest => if isHigh c && isLow d then joinPair c d :: joinPairs rest else c :: joinPairs (d :: rest)

/-! ## Writing bytes -/

/-- One character in UTF-8. -/
def encodeChar (c : CodePoint) : Option (List UInt8) :=
  if c.val < 0x80 then some [UInt8.ofNat c.val]
  else if c.val < 0x800 then some [UInt8.ofNat (0xC0 + c.val / 64), UInt8.ofNat (0x80 + c.val % 64)]
  else if isHigh c || isLow c then none
  else if c.val < 0x10000 then
    some [UInt8.ofNat (0xE0 + c.val / 4096), UInt8.ofNat (0x80 + c.val / 64 % 64), UInt8.ofNat (0x80 + c.val % 64)]
  else
    some [UInt8.ofNat (0xF0 + c.val / 262144), UInt8.ofNat (0x80 + c.val / 4096 % 64), UInt8.ofNat (0x80 + c.val / 64 % 64),
      UInt8.ofNat (0x80 + c.val % 64)]

/-- `str.encode("utf-8")`: a surrogate is a `UnicodeEncodeError`. -/
def encodeUtf8 : Text → Option (List UInt8)
  | [] => some []
  | c :: rest => do
    let bytes ← encodeChar c
    let more ← encodeUtf8 rest
    return bytes ++ more

/-! ## Reading bytes -/

def isTail (b : UInt8) : Bool := 0x80 ≤ b.toNat && b.toNat ≤ 0xBF

/-- The character of this number, not below the least one that needs so many bytes. -/
def charOf (least n : Nat) : Option CodePoint :=
  if h : n < 0x110000 then if least ≤ n then some ⟨n, h⟩ else none else none

/-- `bytes.decode("utf-8", "surrogatepass")`. -/
def decodeUtf8 : List UInt8 → Option Text
  | [] => some []
  | a :: rest =>
    if a.toNat < 0x80 then do
      let c ← charOf 0 a.toNat
      let more ← decodeUtf8 rest
      return c :: more
    else if a.toNat < 0xC0 then none
    else if a.toNat < 0xE0 then
      match rest with
      | b :: rest =>
        if isTail b then do
          let c ← charOf 0x80 ((a.toNat - 0xC0) * 64 + (b.toNat - 0x80))
          let more ← decodeUtf8 rest
          return c :: more
        else none
      | _ => none
    else if a.toNat < 0xF0 then
      match rest with
      | b :: c :: rest =>
        if isTail b && isTail c then do
          let c ← charOf 0x800 ((a.toNat - 0xE0) * 4096 + (b.toNat - 0x80) * 64 + (c.toNat - 0x80))
          let more ← decodeUtf8 rest
          return c :: more
        else none
      | _ => none
    else if a.toNat < 0xF8 then
      match rest with
      | b :: c :: d :: rest =>
        if isTail b && isTail c && isTail d then do
          let c ← charOf 0x10000
            ((a.toNat - 0xF0) * 262144 + (b.toNat - 0x80) * 4096 + (c.toNat - 0x80) * 64 + (d.toNat - 0x80))
          let more ← decodeUtf8 rest
          return c :: more
        else none
      | _ => none
    else none

/-- The order of the bytes of a unit. -/
inductive Endian where
  | big
  | little
  deriving DecidableEq

/-- The two-byte units; a single byte at the end is truncated data. -/
def units16 (order : Endian) : List UInt8 → Option Text
  | [] => some []
  | [_] => none
  | a :: b :: rest => do
    let c ← charOf 0 (match order with
      | .big => a.toNat * 256 + b.toNat
      | .little => b.toNat * 256 + a.toNat)
    let more ← units16 order rest
    return c :: more

/-- `bytes.decode("utf-16-be", "surrogatepass")`, or with `"utf-16-le"`. -/
def decodeUtf16 (order : Endian) (bytes : List UInt8) : Option Text := (units16 order bytes).map joinPairs

/-- `bytes.decode("utf-32-be", "surrogatepass")`, or with `"utf-32-le"`. -/
def decodeUtf32 (order : Endian) : List UInt8 → Option Text
  | [] => some []
  | a :: b :: c :: d :: rest => do
    let ch ← charOf 0 (match order with
      | .big => ((a.toNat * 256 + b.toNat) * 256 + c.toNat) * 256 + d.toNat
      | .little => ((d.toNat * 256 + c.toNat) * 256 + b.toNat) * 256 + a.toNat)
    let more ← decodeUtf32 order rest
    return ch :: more
  | _ => none

/-! ## ASCII -/

def IsAscii (t : Text) : Prop := ∀ c ∈ t, c.val < 0x80

def asciiBytes (t : Text) : List UInt8 := t.map fun c => UInt8.ofNat c.val

variable {t : Text}

theorem IsAscii.append {s : Text} (hs : IsAscii s) (ht : IsAscii t) : IsAscii (s ++ t) := by
  intro c hc
  rcases List.mem_append.mp hc with hc | hc
  · exact hs c hc
  · exact ht c hc

theorem IsAscii.cons {c : CodePoint} (hc : c.val < 0x80) (ht : IsAscii t) : IsAscii (c :: t) := by
  intro d hd
  rcases List.mem_cons.mp hd with rfl | hd
  · exact hc
  · exact ht d hd

theorem IsAscii.nil : IsAscii [] := by
  intro c hc
  cases hc

theorem encodeUtf8_ascii (h : IsAscii t) : encodeUtf8 t = some (asciiBytes t) := by
  induction t with
  | nil => rfl
  | cons c t ih =>
    have hc := h c List.mem_cons_self
    rw [encodeUtf8, ih fun d hd => h d (List.mem_cons_of_mem _ hd), encodeChar, if_pos hc]
    rfl

theorem decodeUtf8_cons {c : CodePoint} (hc : c.val < 0x80) (bytes : List UInt8) :
    decodeUtf8 (UInt8.ofNat c.val :: bytes) = (decodeUtf8 bytes).map (c :: ·) := by
  have hbyte : (UInt8.ofNat c.val).toNat = c.val := by
    rw [UInt8.toNat_ofNat']
    omega
  have hchar : charOf 0 c.val = some c := by simp [charOf, c.isLt]
  rw [decodeUtf8.eq_def]
  simp only [hbyte, hc, if_true, hchar]
  cases decodeUtf8 bytes <;> rfl

theorem decodeUtf8_ascii (h : IsAscii t) : decodeUtf8 (asciiBytes t) = some t := by
  induction t with
  | nil => rfl
  | cons c t ih =>
    have hrest := ih fun d hd => h d (List.mem_cons_of_mem _ hd)
    rw [asciiBytes] at hrest
    rw [asciiBytes, List.map_cons, decodeUtf8_cons (h c List.mem_cons_self), hrest]
    rfl

end MmrTrader.Lib
