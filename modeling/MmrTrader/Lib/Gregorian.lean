import Mathlib.Data.List.Lex
import Mathlib.Order.Fin.Basic
import Mathlib.Order.Basic
import Mathlib.Tactic.IntervalCases
import MmrTrader.Lib.Calendar
import MmrTrader.Lib.CodePoints

/-!
# Valid dates, and times in UTC

* `Date`, `Date.toordinal` — `datetime.date`, whose days exist, and its day number.
* `dateFromIsoformat_isoformat` — the text read back.
* `Timestamp` — an aware datetime in UTC; `parseTs_iso` — its text with `Z`, read back.
-/

namespace MmrTrader.Lib

/-! ## Day numbers -/

def isLeap (year : Nat) : Bool := year % 4 == 0 && (year % 100 != 0 || year % 400 == 0)

def monthLength (leap : Bool) (month : Nat) : Nat :=
  [31, if leap then 29 else 28, 31, 30, 31, 30, 31, 31, 30, 31, 30, 31].getD (month - 1) 0

def daysBeforeMonth (leap : Bool) (month : Nat) : Nat :=
  [0, 31, 59, 90, 120, 151, 181, 212, 243, 273, 304, 334].getD (month - 1) 0 + if 2 < month && leap then 1 else 0

def daysBeforeYear (year : Nat) : Nat :=
  let y := year - 1
  y * 365 + y / 4 - y / 100 + y / 400

structure Date extends CivilDate where
  exists_day : day ≤ monthLength (isLeap year) month
  deriving DecidableEq

/-- `date.toordinal`; 0001-01-01 is day 1. -/
def Date.toordinal (d : Date) : Nat := daysBeforeYear d.year + daysBeforeMonth (isLeap d.year) d.month + d.day

theorem daysBeforeYear_succ {year : Nat} (h : 1 ≤ year) :
    daysBeforeYear (year + 1) = daysBeforeYear year + 365 + if isLeap year then 1 else 0 := by
  obtain ⟨y, rfl⟩ : ∃ y, year = y + 1 := ⟨year - 1, by omega⟩
  have hdiv : ∀ k, (y + 1) / k = y / k + if (y + 1) % k = 0 then 1 else 0 := fun k => by
    rw [Nat.succ_div]
    simp only [Nat.dvd_iff_mod_eq_zero]
  have hcentury : (y + 1) % 100 = 0 → (y + 1) % 4 = 0 := by omega
  have hera : (y + 1) % 400 = 0 → (y + 1) % 100 = 0 := by omega
  have hle : y / 100 ≤ y / 4 := by omega
  have hleap : isLeap (y + 1) = true ↔ (y + 1) % 4 = 0 ∧ ((y + 1) % 100 ≠ 0 ∨ (y + 1) % 400 = 0) := by
    simp [isLeap]
  simp only [daysBeforeYear, Nat.add_sub_cancel, hdiv, hleap]
  generalize y / 4 = a at *
  generalize y / 100 = b at *
  by_cases h4 : (y + 1) % 4 = 0 <;> by_cases h100 : (y + 1) % 100 = 0 <;> by_cases h400 : (y + 1) % 400 = 0 <;>
    simp_all <;> omega

variable {a b : Nat}

theorem daysBeforeYear_mono (ha : 1 ≤ a) (h : a ≤ b) : daysBeforeYear a ≤ daysBeforeYear b := by
  induction h with
  | refl => exact Nat.le_refl _
  | step h ih =>
    rw [Nat.succ_eq_add_one, daysBeforeYear_succ (ha.trans h)]
    omega

variable {m : Nat}

theorem daysBeforeMonth_add (leap : Bool) {m' : Nat} (hm : 1 ≤ m) (h : m < m') (hm' : m' ≤ 12) :
    daysBeforeMonth leap m + monthLength leap m ≤ daysBeforeMonth leap m' := by
  have hall : ∀ leap : Bool, ∀ m < 13, ∀ m' < 13, 1 ≤ m → m < m' →
      daysBeforeMonth leap m + monthLength leap m ≤ daysBeforeMonth leap m' := by decide
  exact hall leap m (by omega) m' (by omega) hm h

theorem daysBeforeMonth_year (leap : Bool) (hm : 1 ≤ m) (hm' : m ≤ 12) :
    daysBeforeMonth leap m + monthLength leap m ≤ 365 + if leap then 1 else 0 := by
  have hall : ∀ leap : Bool, ∀ m < 13, 1 ≤ m → daysBeforeMonth leap m + monthLength leap m ≤ 365 + if leap then 1 else 0 := by
    decide
  exact hall leap m (by omega) hm

namespace Date

/-- The order of the fields, which is Python's. -/
def Before (d e : Date) : Prop :=
  d.year < e.year ∨ d.year = e.year ∧ (d.month < e.month ∨ d.month = e.month ∧ d.day < e.day)

variable {d e : Date}

theorem toordinal_lt (h : d.Before e) : d.toordinal < e.toordinal := by
  obtain ⟨⟨y, m, n, hy, hy', hm, hm', hn, hn'⟩, hday⟩ := d
  obtain ⟨⟨y', m', n', hiy, hiy', him, him', hin, hin'⟩, hday'⟩ := e
  simp only [Before, toordinal] at h hday hday' ⊢
  rcases h with h | ⟨rfl, h | ⟨rfl, h⟩⟩
  · have hyear := daysBeforeYear_mono (by omega) (Nat.succ_le_of_lt h)
    rw [Nat.succ_eq_add_one, daysBeforeYear_succ hy] at hyear
    have hmonth := daysBeforeMonth_year (isLeap y) hm hm'
    omega
  · have hmonth := daysBeforeMonth_add (isLeap y) hm h him'
    omega
  · omega

theorem before_or (h : d ≠ e) : d.Before e ∨ e.Before d := by
  obtain ⟨⟨y, m, n, hr⟩, hday⟩ := d
  obtain ⟨⟨y', m', n', hr'⟩, hday'⟩ := e
  simp only [Before]
  by_contra hnot
  apply h
  obtain rfl : y = y' := by omega
  obtain rfl : m = m' := by omega
  obtain rfl : n = n' := by omega
  rfl

theorem toordinal_injective : Function.Injective toordinal := by
  intro d e h
  by_contra hne
  rcases before_or hne with hlt | hlt <;> exact absurd (toordinal_lt hlt) (by omega)

instance : LinearOrder Date := LinearOrder.lift' toordinal toordinal_injective

theorem lt_iff : d < e ↔ d.Before e := by
  have hord : d < e ↔ d.toordinal < e.toordinal := Iff.rfl
  rw [hord]
  constructor
  · intro h
    rcases before_or (fun heq : d = e => absurd h (by rw [heq]; omega)) with hlt | hlt
    · exact hlt
    · exact absurd (toordinal_lt hlt) (by omega)
  · exact toordinal_lt

end Date

/-! ## The text of a date -/

/-- `date.isoformat`, as code points. -/
def Date.iso (d : Date) : Text := d.isoformat.map point

variable {n : Nat}

theorem point_digitChar_lt (h : m < n) (hn : n < 10) : point (Nat.digitChar m) < point (Nat.digitChar n) := by
  have hall : ∀ n < 10, ∀ m < n, point (Nat.digitChar m) < point (Nat.digitChar n) := by decide
  exact hall n hn m h

theorem twoDigits_lt (h : a < b) (hb : b < 100) (x y : Text) : (twoDigits a).map point ++ x < (twoDigits b).map point ++ y := by
  simp only [twoDigits, List.map_cons, List.map_nil, List.cons_append, List.nil_append, List.cons_lt_cons_iff]
  by_cases htens : a / 10 = b / 10
  · right
    exact ⟨by rw [htens], Or.inl (point_digitChar_lt (by omega) (by omega))⟩
  · exact Or.inl (point_digitChar_lt (by omega) (by omega))

theorem append_lt_append (s : Text) {x y : Text} (h : x < y) : s ++ x < s ++ y := by
  induction s with
  | nil => exact h
  | cons c s ih => exact List.cons_lt_cons_iff.mpr (Or.inr ⟨rfl, ih⟩)

/-- **Dates are ordered as their texts are.** -/
theorem Date.iso_lt {d e : Date} (h : d < e) : d.iso < e.iso := by
  have hd := d.inRange
  have he := e.inRange
  simp only [iso, CivilDate.isoformat, fourDigits, List.map_append, List.map_cons, List.append_assoc]
  rcases Date.lt_iff.mp h with h | ⟨hy, h | ⟨hm, h⟩⟩
  · by_cases hhundreds : d.year / 100 = e.year / 100
    · rw [hhundreds]
      exact append_lt_append _ (twoDigits_lt (by omega) (by omega) _ _)
    · exact twoDigits_lt (by omega) (by omega) _ _
  · rw [hy]
    refine append_lt_append _ (append_lt_append _ (List.cons_lt_cons_iff.mpr (Or.inr ⟨rfl, ?_⟩)))
    exact twoDigits_lt h (by omega) _ _
  · rw [hy, hm]
    refine append_lt_append _ (append_lt_append _ (List.cons_lt_cons_iff.mpr (Or.inr ⟨rfl, append_lt_append _ ?_⟩)))
    refine List.cons_lt_cons_iff.mpr (Or.inr ⟨rfl, ?_⟩)
    have hday := twoDigits_lt h (by omega) [] []
    rwa [List.append_nil, List.append_nil] at hday

theorem Date.iso_le {d e : Date} : d.iso ≤ e.iso ↔ d ≤ e := by
  constructor
  · intro h
    by_contra hnot
    exact absurd (iso_lt (not_le.mp hnot)) (not_lt.mpr h)
  · intro h
    rcases h.lt_or_eq with hlt | rfl
    · exact (iso_lt hlt).le
    · exact le_refl _

/-- The characters of a text; what is no character of its own reads as NUL. -/
def chars (t : Text) : List Char := t.map fun c => Char.ofNat c.val

theorem chars_map_point (s : List Char) : chars (s.map point) = s := by
  rw [chars, List.map_map]
  exact List.map_id'' (fun c => Char.ofNat_toNat c) s

/-- `date.fromisoformat`, of the texts `isoformat` writes. -/
def dateFromIsoformat (t : Text) : Option Date := do
  let (year, s) ← readFour (chars t)
  let s ← readChar '-' s
  let (month, s) ← readTwo s
  let s ← readChar '-' s
  let (day, s) ← readTwo s
  if h : s = [] ∧ (1 ≤ year ∧ year < 10000 ∧ 1 ≤ month ∧ month ≤ 12 ∧ 1 ≤ day ∧ day ≤ 31) ∧
      day ≤ monthLength (isLeap year) month then
    some ⟨⟨year, month, day, h.2.1⟩, h.2.2⟩
  else none

theorem dateFromIsoformat_iso (d : Date) : dateFromIsoformat d.iso = some d := by
  obtain ⟨⟨year, month, day, hr⟩, hday⟩ := d
  have hr' := hr
  obtain ⟨-, hy, -, hm, -, hd⟩ := hr'
  unfold dateFromIsoformat
  rw [Date.iso, chars_map_point]
  simp only [CivilDate.isoformat, readFour_fourDigits hy, readChar, readTwo_twoDigits (by omega : month < 100),
    readTwo_twoDigits_nil (by omega : day < 100), bind, Option.bind, if_true]
  rw [dif_pos ⟨trivial, hr, hday⟩]

/-! ## Times in UTC -/

/-- An aware datetime in UTC. -/
structure Timestamp where
  date : Date
  hour : Nat
  minute : Nat
  second : Nat
  microsecond : Nat
  inRange : hour < 24 ∧ minute < 60 ∧ second < 60 ∧ microsecond < 1000000
  deriving DecidableEq

namespace Timestamp

/-- Microseconds since the day before 0001-01-01. -/
def micros (t : Timestamp) : Nat :=
  (((t.date.toordinal * 24 + t.hour) * 60 + t.minute) * 60 + t.second) * 1000000 + t.microsecond

theorem micros_injective : Function.Injective micros := by
  rintro ⟨d, h, m, s, u, hr⟩ ⟨d', h', m', s', u', hr'⟩ heq
  simp only [micros] at heq
  obtain rfl : u = u' := by omega
  obtain rfl : s = s' := by omega
  obtain rfl : m = m' := by omega
  obtain rfl : h = h' := by omega
  obtain rfl : d = d' := Date.toordinal_injective (by omega)
  rfl

instance : LinearOrder Timestamp := LinearOrder.lift' micros micros_injective

def wall (t : Timestamp) : WallTime := ⟨t.date.year, t.date.month, t.date.day, t.hour, t.minute, t.second, t.microsecond⟩

theorem wall_inRange (t : Timestamp) : t.wall.inRange = true := by
  have hd := t.date.inRange
  have ht := t.inRange
  apply decide_eq_true
  simp only [wall]
  omega

def aware (t : Timestamp) : DateTime := ⟨t.wall, UTC, t.wall_inRange, UTC_inRange⟩

def ofWall (w : WallTime) : Option Timestamp :=
  if h : ((1 ≤ w.year ∧ w.year < 10000 ∧ 1 ≤ w.month ∧ w.month ≤ 12 ∧ 1 ≤ w.day ∧ w.day ≤ 31) ∧
      w.day ≤ monthLength (isLeap w.year) w.month) ∧ w.hour < 24 ∧ w.minute < 60 ∧ w.second < 60 ∧ w.microsecond < 1000000 then
    some ⟨⟨⟨w.year, w.month, w.day, h.1.1⟩, h.1.2⟩, w.hour, w.minute, w.second, w.microsecond, h.2⟩
  else none

theorem ofWall_wall (t : Timestamp) : ofWall t.wall = some t := dif_pos ⟨⟨t.date.inRange, t.date.exists_day⟩, t.inRange⟩

end Timestamp

/-- `str.replace`, from after `skip` characters of a match. -/
def replaceFrom (pattern new : List Char) : Nat → List Char → List Char
  | _, [] => []
  | skip + 1, _ :: rest => replaceFrom pattern new skip rest
  | 0, c :: rest =>
    if pattern.isPrefixOf (c :: rest) then new ++ replaceFrom pattern new (pattern.length - 1) rest
    else c :: replaceFrom pattern new 0 rest

def replaceAll (pattern new s : List Char) : List Char := replaceFrom pattern new 0 s

theorem replaceAll_append {p : Char} {pattern new body : List Char} (h : p ∉ body) (tail : List Char) :
    replaceAll (p :: pattern) new (body ++ tail) = body ++ replaceAll (p :: pattern) new tail := by
  induction body with
  | nil => rfl
  | cons c body ih =>
    rw [List.mem_cons, not_or] at h
    obtain ⟨hne, hbody⟩ := h
    have hno : ¬ (p :: pattern).isPrefixOf (c :: (body ++ tail)) = true := by
      simp [hne]
    rw [List.cons_append, replaceAll, replaceFrom, if_neg hno]
    exact congrArg (c :: ·) (ih hbody)

/-- `_as_utc` of an aware datetime; `none` is `OverflowError`. -/
def asUtc (d : DateTime) : Option Timestamp :=
  if d.offset = UTC then Timestamp.ofWall d.wall else d.toUtc.bind fun t => Timestamp.ofWall t.wall

/-- `_iso`: the text with `Z` for `+00:00`. -/
def Timestamp.iso (t : Timestamp) : Text := (replaceAll "+00:00".toList "Z".toList (isoformat t.aware)).map point

def parseTs (t : Text) : Option Timestamp :=
  (fromIsoformat (replaceAll "Z".toList "+00:00".toList (chars t))).bind asUtc

/-- The two marks that the texts of a UTC time have in their offset alone. -/
def IsMark (c : Char) : Prop := c = '+' ∨ c = 'Z'

variable {c : Char}

theorem twoDigits_plain (hc : IsMark c) (hn : n < 100) : c ∉ twoDigits n := by
  have hdigit : ∀ n < 10, '+' ≠ Nat.digitChar n ∧ 'Z' ≠ Nat.digitChar n := by decide
  have htens := hdigit (n / 10) (by omega)
  have hones := hdigit (n % 10) (by omega)
  rcases hc with rfl | rfl <;> simp [twoDigits, htens, hones]

theorem fourDigits_plain (hc : IsMark c) (hn : n < 10000) : c ∉ fourDigits n := by
  simp only [fourDigits, List.mem_append, not_or]
  exact ⟨twoDigits_plain hc (by omega), twoDigits_plain hc (by omega)⟩

theorem writeMicros_plain (hc : IsMark c) (hn : n < 1000000) : c ∉ writeMicros n := by
  unfold writeMicros
  split
  · exact List.not_mem_nil
  · have hdot : c ≠ '.' := by rcases hc with rfl | rfl <;> decide
    simp only [sixDigits, List.mem_cons, List.mem_append, not_or]
    exact ⟨hdot, fourDigits_plain hc (by omega), twoDigits_plain hc (by omega)⟩

/-- The part of a UTC time's text before its offset. -/
theorem isoformat_aware (t : Timestamp) : ∃ body, isoformat t.aware = body ++ "+00:00".toList ∧ ∀ c, IsMark c → c ∉ body := by
  have hoffset : UTC.write = "+00:00".toList := by decide
  have hd := t.date.inRange
  have ht := t.inRange
  refine ⟨fourDigits t.date.year ++ '-' :: (twoDigits t.date.month ++ '-' :: (twoDigits t.date.day ++ 'T' ::
    (twoDigits t.hour ++ ':' :: (twoDigits t.minute ++ ':' :: (twoDigits t.second ++ writeMicros t.microsecond))))), ?_, ?_⟩
  · show isoformat ⟨t.wall, UTC, _, _⟩ = _
    simp only [isoformat, hoffset, List.append_assoc, List.cons_append]
    rfl
  · intro c hc
    have hplain : c ≠ '-' ∧ c ≠ 'T' ∧ c ≠ ':' := by rcases hc with rfl | rfl <;> decide
    simp only [List.mem_append, List.mem_cons, not_or]
    exact ⟨fourDigits_plain hc (by omega), hplain.1, twoDigits_plain hc (by omega), hplain.1, twoDigits_plain hc (by omega),
      hplain.2.1, twoDigits_plain hc (by omega), hplain.2.2, twoDigits_plain hc (by omega), hplain.2.2,
      twoDigits_plain hc (by omega), writeMicros_plain hc (by omega)⟩

/-- **A written time is read back.** -/
theorem parseTs_iso (t : Timestamp) : parseTs t.iso = some t := by
  obtain ⟨body, hbody, hnot⟩ := isoformat_aware t
  have hz : replaceAll "+00:00".toList "Z".toList (isoformat t.aware) = body ++ "Z".toList := by
    rw [hbody]
    exact replaceAll_append (hnot '+' (Or.inl rfl)) _
  have hplus : replaceAll "Z".toList "+00:00".toList (body ++ "Z".toList) = isoformat t.aware := by
    rw [hbody]
    exact replaceAll_append (hnot 'Z' (Or.inr rfl)) _
  rw [parseTs, Timestamp.iso, chars_map_point, hz, hplus, fromIsoformat_isoformat, Option.bind_some, asUtc]
  show (if UTC = UTC then Timestamp.ofWall t.wall else _) = some t
  rw [if_pos rfl, Timestamp.ofWall_wall]

end MmrTrader.Lib
