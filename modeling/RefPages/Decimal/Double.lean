/-!
# Double precision numbers

A finite double is a whole number of units of 2⁻¹⁰⁷⁴ whose size needs at most 53 binary digits, so
sums, products and comparisons are arithmetic of whole numbers.

* `Double` is the type; `Double.ofRatio` rounds a quotient to the nearest double, a tie to the even
  one, and to infinity beyond the largest.
* `roundDiv` is the rounding of a quotient to a whole number.
* `Double.add`, `Double.mul` and `Double.negate` round the exact result.
-/

set_option autoImplicit false
namespace RefPages
namespace Decimal

/-- The whole number nearest to `num / den`; a tie goes to the even one. -/
def roundDiv (num den : Nat) : Nat :=
  let floor := num / den
  let twice := 2 * (num % den)
  if twice < den ∨ (twice = den ∧ floor % 2 = 0) then floor else floor + 1

/-- A double: not a number, an infinity, or `scaled` units of 2⁻¹⁰⁷⁴ with a sign. -/
inductive Double where
  | nan
  | infinity (negative : Bool)
  | finite (negative : Bool) (scaled : Nat)
  deriving DecidableEq, Repr

/-- The unit of finite doubles is one over this. -/
def unitsPerOne : Nat := Nat.pow 2 1074

namespace Double

/-- The double nearest to `num / den`, with a sign. -/
def ofRatio (negative : Bool) (num den : Nat) : Double :=
  let units := num * unitsPerOne
  let spacing := Nat.pow 2 ((units / den).log2 + 1 - 53)
  let scaled := roundDiv units (den * spacing) * spacing
  if scaled < Nat.pow 2 (1024 + 1074) then .finite negative scaled else .infinity negative

/-- Zero. -/
def zero : Double := .finite false 0

/-- The double nearest to a whole number. -/
def ofNat (n : Nat) : Double :=
  ofRatio false n 1

/-- The number with the other sign. -/
def negate : Double → Double
  | .nan => .nan
  | .infinity negative => .infinity !negative
  | .finite negative scaled => .finite (!negative) scaled

/-- The sum of two doubles. -/
def add : Double → Double → Double
  | .nan, _ => .nan
  | _, .nan => .nan
  | .infinity s, .infinity t => if s = t then .infinity s else .nan
  | .infinity s, .finite .. => .infinity s
  | .finite .., .infinity t => .infinity t
  | .finite s m, .finite t n =>
    if s = t then ofRatio s (m + n) unitsPerOne
    else if m = n then zero
    else if n < m then ofRatio s (m - n) unitsPerOne
    else ofRatio t (n - m) unitsPerOne

/-- The product of two doubles. -/
def mul : Double → Double → Double
  | .nan, _ => .nan
  | _, .nan => .nan
  | .infinity s, .infinity t => .infinity (s != t)
  | .infinity s, .finite t n => if n = 0 then .nan else .infinity (s != t)
  | .finite s m, .infinity t => if m = 0 then .nan else .infinity (s != t)
  | .finite s m, .finite t n => ofRatio (s != t) (m * n) (unitsPerOne * unitsPerOne)

/-- How many decimal digits a number has. -/
def digitCount (n : Nat) : Nat :=
  (Nat.toDigits 10 n).length

/-- The double nearest to `digits · 10 ^ exponent`. Exponents far outside the range of doubles are
not multiplied out. -/
def ofDecimal (negative : Bool) (digits : Nat) (exponent : Int) : Double :=
  if digits = 0 then .finite negative 0
  else if 400 < exponent then .infinity negative
  else if exponent + digitCount digits < -400 then .finite negative 0
  else if 0 ≤ exponent then ofRatio negative (digits * Nat.pow 10 exponent.toNat) 1
  else ofRatio negative digits (Nat.pow 10 (-exponent).toNat)

end Double
end Decimal
end RefPages
