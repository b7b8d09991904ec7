import Mathlib.Data.Nat.Notation

/-!
# Aware datetimes and their ISO text

* `DateTime` — a wall-clock time with an offset from UTC; the fields are in range by construction;
* `isoformat`, `fromIsoformat` — the text, and the reader of the texts `isoformat` writes;
* `fromIsoformat_isoformat` — the round trip.
-/

set_option autoImplicit false

namespace MmrTrader.Lib

structure UtcOffset where
  negative : Bool
  hours : Nat
  minutes : Nat
  seconds : Nat
  microseconds : Nat
  deriving DecidableEq

def UtcOffset.inRange (z : UtcOffset) : Bool :=
  decide (z.hours < 24 ∧ z.minutes < 60 ∧ z.seconds < 60 ∧ z.microseconds < 1000000) &&
    -- zero has one sign
    !(z.negative && z.hours == 0 && z.minutes == 0 && z.seconds == 0 && z.microseconds == 0)

structure WallTime where
  year : Nat
  month : Nat
  day : Nat
  hour : Nat
  minute : Nat
  second : Nat
  microsecond : Nat
  deriving DecidableEq

def WallTime.inRange (w : WallTime) : Bool :=
  decide (1 ≤ w.year ∧ w.year < 10000 ∧ 1 ≤ w.month ∧ w.month ≤ 12 ∧ 1 ≤ w.day ∧ w.day ≤ 31 ∧ w.hour < 24 ∧
    w.minute < 60 ∧ w.second < 60 ∧ w.microsecond < 1000000)

/-- An aware datetime. -/
structure DateTime where
  wall : WallTime
  offset : UtcOffset
  wall_inRange : wall.inRange = true
  offset_inRange : offset.inRange = true
  deriving DecidableEq

/-- An aware datetime in UTC. -/
structure UtcTime where
  wall : WallTime
  inRange : wall.inRange = true
  deriving DecidableEq

def daysFromCivil (year month day : Nat) : Int :=
  let y : Int := if month ≤ 2 then (year : Int) - 1 else year
  let era := y / 400
  let yearOfEra := y - era * 400
  let monthFromMarch : Int := ((month : Int) + 9) % 12
  let dayOfYear := (153 * monthFromMarch + 2) / 5 + day - 1
  let dayOfEra := yearOfEra * 365 + yearOfEra / 4 - yearOfEra / 100 + dayOfYear
  era * 146097 + dayOfEra - 719468

def UtcOffset.micros (z : UtcOffset) : Int :=
  let size : Int := ((z.hours * 60 + z.minutes) * 60 + z.seconds) * 1000000 + z.microseconds
  if z.negative then -size else size

def DateTime.instant (d : DateTime) : Int :=
  let w := d.wall
  (((daysFromCivil w.year w.month w.day * 24 + w.hour) * 60 + w.minute) * 60 + w.second) * 1000000 + w.microsecond -
    d.offset.micros

/-! ## Writing -/

def twoDigits (n : Nat) : List Char := [Nat.digitChar (n / 10), Nat.digitChar (n % 10)]

def fourDigits (n : Nat) : List Char := twoDigits (n / 100) ++ twoDigits (n % 100)

def sixDigits (n : Nat) : List Char := fourDigits (n / 100) ++ twoDigits (n % 100)

/-- `.ffffff`, left out when zero. -/
def writeMicros (us : Nat) : List Char := if us = 0 then [] else '.' :: sixDigits us

def UtcOffset.write (z : UtcOffset) : List Char :=
  (if z.negative then '-' else '+') :: (twoDigits z.hours ++ ':' :: (twoDigits z.minutes ++
    if z.seconds = 0 ∧ z.microseconds = 0 then [] else ':' :: (twoDigits z.seconds ++ writeMicros z.microseconds)))

def isoformat (d : DateTime) : List Char :=
  let w := d.wall
  fourDigits w.year ++ '-' :: (twoDigits w.month ++ '-' :: (twoDigits w.day ++ 'T' :: (twoDigits w.hour ++
    ':' :: (twoDigits w.minute ++ ':' :: (twoDigits w.second ++ (writeMicros w.microsecond ++ d.offset.write))))))

/-! ## Reading -/

def readTwo : List Char → Option (Nat × List Char)
  | a :: b :: rest => if a.isDigit && b.isDigit then some (Nat.ofDigitChars 10 [a, b] 0, rest) else none
  | _ => none

def readFour (s : List Char) : Option (Nat × List Char) := do
  let (a, s) ← readTwo s
  let (b, s) ← readTwo s
  return (a * 100 + b, s)

def readSix (s : List Char) : Option (Nat × List Char) := do
  let (a, s) ← readFour s
  let (b, s) ← readTwo s
  return (a * 100 + b, s)

def readChar (c : Char) : List Char → Option (List Char)
  | a :: rest => if a = c then some rest else none
  | [] => none

def readMicros : List Char → Option (Nat × List Char)
  | '.' :: rest => readSix rest
  | rest => some (0, rest)

def readOffsetSeconds : List Char → Option (Nat × Nat)
  | [] => some (0, 0)
  | ':' :: rest => do
      let (s, rest) ← readTwo rest
      let (us, rest) ← readMicros rest
      if rest = [] then some (s, us) else none
  | _ => none

def readSign (c : Char) : Option Bool :=
  if c = '-' then some true else if c = '+' then some false else none

def readOffset : List Char → Option UtcOffset
  | sign :: rest => do
      let negative ← readSign sign
      let (h, rest) ← readTwo rest
      let rest ← readChar ':' rest
      let (m, rest) ← readTwo rest
      let (s, us) ← readOffsetSeconds rest
      return ⟨negative, h, m, s, us⟩
  | [] => none

/-- `datetime.fromisoformat`, for the texts `isoformat` writes; `none` is `ValueError`. -/
def fromIsoformat (text : List Char) : Option DateTime := do
  let (year, s) ← readFour text
  let s ← readChar '-' s
  let (month, s) ← readTwo s
  let s ← readChar '-' s
  let (day, s) ← readTwo s
  let s ← readChar 'T' s
  let (hour, s) ← readTwo s
  let s ← readChar ':' s
  let (minute, s) ← readTwo s
  let s ← readChar ':' s
  let (second, s) ← readTwo s
  let (us, s) ← readMicros s
  let offset ← readOffset s
  let wall : WallTime := ⟨year, month, day, hour, minute, second, us⟩
  if h : wall.inRange = true ∧ offset.inRange = true then some ⟨wall, offset, h.1, h.2⟩ else none

/-! ## The round trip -/

variable {n : Nat}

@[simp] theorem readTwo_twoDigits (h : n < 100) (rest : List Char) : readTwo (twoDigits n ++ rest) = some (n, rest) := by
  have h₁ : n / 10 < 10 := by omega
  have h₂ : n % 10 < 10 := by omega
  have hval : Nat.ofDigitChars 10 [Nat.digitChar (n / 10), Nat.digitChar (n % 10)] 0 = n := by
    rw [Nat.ofDigitChars_cons_digitChar_of_lt_ten h₁, Nat.ofDigitChars_cons_digitChar_of_lt_ten h₂,
      Nat.ofDigitChars_nil]
    omega
  simp [readTwo, twoDigits, Nat.isDigit_digitChar, h₁, h₂, hval]

@[simp] theorem readFour_fourDigits (h : n < 10000) (rest : List Char) : readFour (fourDigits n ++ rest) = some (n, rest) := by
  have h₁ : n / 100 < 100 := by omega
  have h₂ : n % 100 < 100 := by omega
  have hval : n / 100 * 100 + n % 100 = n := by omega
  simp [readFour, fourDigits, List.append_assoc, readTwo_twoDigits h₁, readTwo_twoDigits h₂, hval]

@[simp] theorem readSix_sixDigits (h : n < 1000000) (rest : List Char) : readSix (sixDigits n ++ rest) = some (n, rest) := by
  have h₁ : n / 100 < 10000 := by omega
  have h₂ : n % 100 < 100 := by omega
  have hval : n / 100 * 100 + n % 100 = n := by omega
  simp [readSix, sixDigits, List.append_assoc, readFour_fourDigits h₁, readTwo_twoDigits h₂, hval]

@[simp] theorem readChar_cons (c : Char) (rest : List Char) : readChar c (c :: rest) = some rest := by
  simp [readChar]

/-- What follows the microseconds does not start with a dot. -/
theorem readMicros_writeMicros {us : Nat} (h : us < 1000000) {rest : List Char} (hrest : ∀ s, rest ≠ '.' :: s) :
    readMicros (writeMicros us ++ rest) = some (us, rest) := by
  unfold writeMicros
  split
  · rename_i hz
    subst hz
    rw [List.nil_append]
    unfold readMicros
    split
    · rename_i s
      exact absurd rfl (hrest s)
    · rfl
  · rw [List.cons_append]
    exact readSix_sixDigits h rest

theorem readOffset_write {z : UtcOffset} (h : z.inRange = true) : readOffset z.write = some z := by
  obtain ⟨neg, hh, mm, ss, us⟩ := z
  obtain ⟨⟨hhh, hm, hs, hus⟩, -⟩ : (hh < 24 ∧ mm < 60 ∧ ss < 60 ∧ us < 1000000) ∧ _ := by
    simpa [UtcOffset.inRange] using h
  have hsign : readSign (if neg then '-' else '+') = some neg := by
    cases neg <;> decide
  have hsec : readOffsetSeconds (if ss = 0 ∧ us = 0 then [] else ':' :: (twoDigits ss ++ writeMicros us)) = some (ss, us) := by
    split
    · rename_i hz
      obtain ⟨rfl, rfl⟩ := hz
      rfl
    · have hmic : readMicros (writeMicros us) = some (us, []) := by
        have := readMicros_writeMicros hus fun s (hs : [] = '.' :: s) => by cases hs
        rwa [List.append_nil] at this
      simp [readOffsetSeconds, readTwo_twoDigits (show ss < 100 by omega), hmic]
  simp only [UtcOffset.write, readOffset, hsign, Option.bind_eq_bind, Option.bind_some]
  rw [readTwo_twoDigits (by omega)]
  simp only [Option.bind_some, readChar_cons]
  rw [readTwo_twoDigits (by omega)]
  simp only [Option.bind_some, hsec]
  rfl

/-- **The text of a datetime reads back as the datetime.** -/
theorem fromIsoformat_isoformat (d : DateTime) : fromIsoformat (isoformat d) = some d := by
  obtain ⟨⟨y, mo, da, h, mi, s, us⟩, z, hw, hz⟩ := d
  obtain ⟨-, hy, -, hmo, -, hda, hh, hmi, hs, hus⟩ : 1 ≤ y ∧ y < 10000 ∧ 1 ≤ mo ∧ mo ≤ 12 ∧ 1 ≤ da ∧ da ≤ 31 ∧ h < 24 ∧
      mi < 60 ∧ s < 60 ∧ us < 1000000 := by
    simpa [WallTime.inRange] using hw
  have hoff : ∀ t, z.write ≠ '.' :: t := by
    intro t ht
    simp only [UtcOffset.write, List.cons.injEq] at ht
    cases hneg : z.negative <;> simp [hneg] at ht
  simp only [isoformat, fromIsoformat, Option.bind_eq_bind]
  rw [readFour_fourDigits hy]
  simp only [Option.bind_some, readChar_cons]
  rw [readTwo_twoDigits (by omega)]
  simp only [Option.bind_some, readChar_cons]
  rw [readTwo_twoDigits (by omega)]
  simp only [Option.bind_some, readChar_cons]
  rw [readTwo_twoDigits (by omega)]
  simp only [Option.bind_some, readChar_cons]
  rw [readTwo_twoDigits (by omega)]
  simp only [Option.bind_some, readChar_cons]
  rw [readTwo_twoDigits (by omega)]
  simp only [Option.bind_some]
  rw [readMicros_writeMicros hus hoff]
  simp only [Option.bind_some, readOffset_write hz]
  rw [dif_pos ⟨hw, hz⟩]

end MmrTrader.Lib
