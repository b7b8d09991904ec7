import Mathlib.Data.Nat.Notation

/-!
# Python's decimals

* `Decimal` — sign, coefficient and exponent, or a special value.
* `Decimal.str` — `str(value)`: plain digits near the point, else with an exponent.
-/

set_option autoImplicit false

namespace MmrTrader.Lib

inductive Decimal where
  | finite (negative : Bool) (coefficient : Nat) (exponent : Int)
  | infinite (negative : Bool)
  | nan
  deriving DecidableEq

/-- `%+d`. -/
def signedText (n : Int) : List Char := (if 0 ≤ n then '+' else '-') :: Nat.toDigits 10 n.natAbs

/-- The digits of a coefficient with the point at `dot`. -/
def pointAt (digits : List Char) (dot : Int) : List Char :=
  if dot ≤ 0 then '0' :: '.' :: (List.replicate (-dot).toNat '0' ++ digits)
  else if digits.length ≤ dot then digits ++ List.replicate (dot - digits.length).toNat '0'
  else digits.take dot.toNat ++ '.' :: digits.drop dot.toNat

def Decimal.str : Decimal → List Char
  | .finite negative coefficient exponent =>
    let digits := Nat.toDigits 10 coefficient
    let left := exponent + digits.length
    let dot := if exponent ≤ 0 ∧ -6 < left then left else 1
    (if negative then ['-'] else []) ++ pointAt digits dot ++ if left = dot then [] else 'E' :: signedText (left - dot)
  | .infinite negative => (if negative then ['-'] else []) ++ "Infinity".toList
  | .nan => "NaN".toList

example : [Decimal.finite false 100 (-2), .finite true 5 (-9), .finite false 12 3, .finite false 0 0].map Decimal.str =
    ["1.00".toList, "-5E-9".toList, "1.2E+4".toList, "0".toList] := by decide +kernel

end MmrTrader.Lib
