import MmrTrader.Lib.IsoTime

/-!
# Dates and UTC times

* `CivilDate` — `datetime.date`, and its text of ten characters; `CivilDate.isoformat_injective`.
* `DateTime.toUtc` — `astimezone(timezone.utc)`.
-/

set_option autoImplicit false

namespace MmrTrader.Lib

/-! ## Dates -/

structure CivilDate where
  year : Nat
  month : Nat
  day : Nat
  inRange : 1 ≤ year ∧ year < 10000 ∧ 1 ≤ month ∧ month ≤ 12 ∧ 1 ≤ day ∧ day ≤ 31
  deriving DecidableEq

def CivilDate.isoformat (d : CivilDate) : List Char :=
  fourDigits d.year ++ '-' :: (twoDigits d.month ++ '-' :: twoDigits d.day)

theorem CivilDate.length_isoformat (d : CivilDate) : d.isoformat.length = 10 := rfl

theorem readTwo_twoDigits_nil {n : Nat} (h : n < 100) : readTwo (twoDigits n) = some (n, []) := by
  have hread := readTwo_twoDigits h []
  rwa [List.append_nil] at hread

theorem CivilDate.isoformat_injective {d e : CivilDate} (h : d.isoformat = e.isoformat) : d = e := by
  have hd := d.inRange
  have he := e.inRange
  have hyear := congrArg readFour h
  rw [isoformat, isoformat, readFour_fourDigits hd.2.1, readFour_fourDigits he.2.1] at hyear
  obtain ⟨hy, hmonth⟩ := Prod.mk.inj (Option.some.inj hyear)
  have hmonth := congrArg readTwo (List.cons.inj hmonth).2
  rw [readTwo_twoDigits (by omega), readTwo_twoDigits (by omega)] at hmonth
  obtain ⟨hm, hday⟩ := Prod.mk.inj (Option.some.inj hmonth)
  have hday := congrArg readTwo (List.cons.inj hday).2
  rw [readTwo_twoDigits_nil (by omega), readTwo_twoDigits_nil (by omega)] at hday
  obtain ⟨hd', -⟩ := Prod.mk.inj (Option.some.inj hday)
  cases d
  cases e
  cases hy
  cases hm
  cases hd'
  rfl

/-! ## Times -/

theorem isoformat_injective {d e : DateTime} (h : isoformat d = isoformat e) : d = e := by
  have hread := congrArg fromIsoformat h
  rw [fromIsoformat_isoformat, fromIsoformat_isoformat] at hread
  exact Option.some.inj hread

def UTC : UtcOffset := ⟨false, 0, 0, 0, 0⟩

theorem UTC_inRange : UTC.inRange = true := by decide

def UtcTime.aware (t : UtcTime) : DateTime := ⟨t.wall, UTC, t.inRange, UTC_inRange⟩

def UtcTime.isoformat (t : UtcTime) : List Char := Lib.isoformat t.aware

theorem UtcTime.isoformat_injective {t u : UtcTime} (h : t.isoformat = u.isoformat) : t = u := by
  obtain ⟨w, hw⟩ := t
  obtain ⟨w', hw'⟩ := u
  have heq := congrArg DateTime.wall (Lib.isoformat_injective h)
  obtain rfl : w = w' := heq
  rfl

/-- The civil date of a day, counted from 1970-01-01; the inverse of `daysFromCivil`. -/
def civilFromDays (days : Int) : Int × Nat × Nat :=
  let z := days + 719468
  let era := z / 146097
  let dayOfEra := z - era * 146097
  let yearOfEra := (dayOfEra - dayOfEra / 1460 + dayOfEra / 36524 - dayOfEra / 146096) / 365
  let dayOfYear := dayOfEra - (365 * yearOfEra + yearOfEra / 4 - yearOfEra / 100)
  let monthFromMarch := (5 * dayOfYear + 2) / 153
  let day := dayOfYear - (153 * monthFromMarch + 2) / 5 + 1
  let month := if monthFromMarch < 10 then monthFromMarch + 3 else monthFromMarch - 9
  (yearOfEra + era * 400 + if month ≤ 2 then 1 else 0, month.toNat, day.toNat)

/-- `astimezone(timezone.utc)`; `none` is `OverflowError`. -/
def DateTime.toUtc (d : DateTime) : Option UtcTime :=
  let second := d.instant / 1000000
  let (year, month, day) := civilFromDays (second / 86400)
  let rest := (second % 86400).toNat
  let wall : WallTime := ⟨year.toNat, month, day, rest / 3600, rest / 60 % 60, rest % 60, (d.instant % 1000000).toNat⟩
  if h : wall.inRange = true then some ⟨wall, h⟩ else none

example : (DateTime.toUtc ⟨⟨2024, 2, 29, 20, 30, 0, 5⟩, ⟨true, 5, 0, 0, 0⟩, by decide, by decide⟩).map UtcTime.isoformat =
    some "2024-03-01T01:30:00.000005+00:00".toList := by decide +kernel

end MmrTrader.Lib
