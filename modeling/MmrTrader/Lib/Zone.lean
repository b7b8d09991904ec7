import Mathlib.Data.Int.Order.Basic

/-!
# Civil dates of a time zone

* `Zone` — the date on the wall of a zone at each instant, and the instant each date begins; the two are
  adjoint, so the date never goes back and each date is one interval of instants.
* `Zone.fixed` — a zone with a constant offset from UTC.
-/

set_option autoImplicit false

namespace MmrTrader.Lib

/-- Instants are microseconds since the epoch, dates are days. -/
structure Zone where
  date : Int → Int
  midnight : Int → Int
  midnight_le {d t : Int} : midnight d ≤ t ↔ d ≤ date t

namespace Zone

def dayMicros : Int := 24 * 60 * 60 * 1000000

/-- The zone that is `offset` ahead of UTC all year. -/
def fixed (offset : Int) : Zone where
  date t := (t + offset) / dayMicros
  midnight d := d * dayMicros - offset
  midnight_le := by
    intro d t
    rw [Int.le_ediv_iff_mul_le (by decide)]
    omega

end Zone

end MmrTrader.Lib
