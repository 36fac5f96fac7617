import RefPages.Decimal.Double

/-!
# The fewest digits that read back

* `shortest scaled` gives decimal digits and an exponent for a positive finite double: as few digits
  as read back as the same double, and of those the nearest. Seventeen always suffice.
* `Double.toText` writes a double with these digits: positionally from 10⁻⁴ up to below 10¹⁶, with a
  digit after the point, and with an exponent of at least two digits beyond.
-/

set_option autoImplicit false
namespace RefPages
namespace Decimal

/-- The exponent of the leading decimal digit of `num / den`. -/
def leadingExponent (num den : Nat) : Int :=
  if den ≤ num then (Double.digitCount (num / den) : Int) - 1
  else -(Double.digitCount ((den + num - 1) / num - 1) : Int)

/-- `digits · 10 ^ exponent`. -/
structure Numeral where
  digits : Nat
  exponent : Int
  deriving DecidableEq, Repr

/-- Does the numeral read back as the finite double of this size? -/
def Numeral.readsAs (n : Numeral) (scaled : Nat) : Bool :=
  Double.ofDecimal false n.digits n.exponent = .finite false scaled

/-- The nearest numeral with `count` digits that reads back, if there is one. -/
def numeralOf? (scaled count : Nat) : Option Numeral :=
  let exponent := leadingExponent scaled unitsPerOne - (count - 1 : Nat)
  let num := if 0 ≤ exponent then scaled else scaled * Nat.pow 10 (-exponent).toNat
  let den := if 0 ≤ exponent then unitsPerOne * Nat.pow 10 exponent.toNat else unitsPerOne
  let nearest := roundDiv num den
  let floor := num / den
  let other := if nearest = floor then floor + 1 else floor
  ([nearest, other].map fun digits => (⟨digits, exponent⟩ : Numeral)).find? (·.readsAs scaled)

/-- The numeral without zeros at its end. -/
def Numeral.reduce : (fuel : Nat) → Numeral → Numeral
  | 0, n => n
  | fuel + 1, n =>
    if n.digits ≠ 0 ∧ n.digits % 10 = 0 then reduce fuel ⟨n.digits / 10, n.exponent + 1⟩ else n

/-- The numeral of fewest digits that reads back as a positive finite double. -/
def shortest (scaled : Nat) : Numeral :=
  let candidate := (List.range 17).findSome? fun k => numeralOf? scaled (k + 1)
  (candidate.getD ⟨scaled, -1074⟩).reduce 20

/-- Text of an exponent: a sign and at least two digits. -/
def exponentText (e : Int) : String :=
  let digits := toString e.natAbs
  "e" ++ (if e < 0 then "-" else "+") ++ (if digits.length < 2 then "0" else "") ++ digits

/-- Zeros in a row. -/
def zeros (n : Nat) : String :=
  String.ofList (List.replicate n '0')

/-- A numeral as text. -/
def Numeral.toText (n : Numeral) : String :=
  let digits := toString n.digits
  let lead := n.exponent + digits.length - 1
  if -4 ≤ lead ∧ lead < 16 then
    if 0 ≤ n.exponent then digits ++ zeros n.exponent.toNat ++ ".0"
    else if 0 ≤ lead then
      let whole := (lead + 1).toNat
      String.ofList (digits.toList.take whole) ++ "." ++ String.ofList (digits.toList.drop whole)
    else "0." ++ zeros (-lead - 1).toNat ++ digits
  else
    let tail := digits.toList.drop 1
    String.ofList (digits.toList.take 1) ++ (if tail.isEmpty then "" else "." ++ String.ofList tail)
      ++ exponentText lead

/-- A double as text. -/
def Double.toText : Double → String
  | .nan => "nan"
  | .infinity negative => if negative then "-inf" else "inf"
  | .finite negative scaled =>
    (if negative then "-" else "")
      ++ (if scaled = 0 then "0.0" else (shortest scaled).toText)

end Decimal
end RefPages
