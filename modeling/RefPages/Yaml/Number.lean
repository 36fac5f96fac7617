import RefPages.Decimal.Limit
import RefPages.Decimal.Shortest
import RefPages.Text.Blank
import RefPages.Text.DecimalDigit
import RefPages.Text.LowerCase
import RefPages.Text.Split
import RefPages.Yaml.Fault

/-!
# Numbers

A scalar tagged as a number is read more liberally than the notations of plain numbers are: white
space around the number and digits of any script are allowed. Half of a surrogate pair stands in no
number.

* `readIntBase` and `readDecimal` read the text of one number.
* `intOfScalar` and `floatOfScalar` read a scalar: underscores do not count, a sign, then a notation
  by its first characters, or parts to base sixty between colons.
-/

set_option autoImplicit false
namespace RefPages
namespace Yaml

open Text Decimal

/-- White space that may stand around a number. -/
def isNumberBlank (p : Point) : Bool :=
  p.char?.any fun c => isBlank c && !(0x1C ≤ c.toNat && c.toNat ≤ 0x1F)

/-- The text without the white space around it. -/
def trimNumber (ps : List Point) : List Point :=
  ((ps.dropWhile isNumberBlank).reverse.dropWhile isNumberBlank).reverse

/-- Is the number negative, and its text without the sign. -/
def splitSign : List Point → Bool × List Point
  | .char '-' :: ps => (true, ps)
  | .char '+' :: ps => (false, ps)
  | ps => (false, ps)

/-- The value of a digit to a base up to sixteen. -/
def digitIn? (base : Nat) (p : Point) : Option Nat := do
  let c ← p.char?
  ((digitValue? c).or (hexValue? c)).filter (· < base)

/-- The number that digits to a base stand for; there has to be one. -/
def digitsNumber? (base : Nat) (ps : List Point) : Option Nat :=
  if ps.isEmpty then none
  else (ps.mapM (digitIn? base)).map fun ds => ds.foldl (fun n d => base * n + d) 0

/-- The digits without the mark of their base in front. -/
def dropBaseMark (base : Nat) : List Point → List Point
  | .char '0' :: .char c :: rest =>
    let marks := match base with
      | 2 => ['b', 'B']
      | 8 => ['o', 'O']
      | 16 => ['x', 'X']
      | _ => []
    if c ∈ marks then rest else .char '0' :: .char c :: rest
  | ps => ps

/-- Reads an integer to a base. Only decimal digits are limited in number. -/
def readIntBase (base : Nat) (ps : List Point) : Except ValueFault Int :=
  let (negative, digits) := splitSign (trimNumber ps)
  match digitsNumber? base (dropBaseMark base digits) with
  | none => .error (.notInt base ps)
  | some n =>
    if base = 10 ∧ digitLimit < digits.length then .error (.tooManyDigits digits.length)
    else .ok (if negative then -(n : Int) else n)

/-- Reads an unsigned decimal number with an optional fraction and exponent. -/
def readUnsigned? (negative : Bool) (ps : List Point) : Option Double :=
  let isDigit := fun p => (digitIn? 10 p).isSome
  let whole := ps.takeWhile isDigit
  let (fraction, ps) :=
    match ps.dropWhile isDigit with
    | .char '.' :: rest => (rest.takeWhile isDigit, rest.dropWhile isDigit)
    | rest => ([], rest)
  let exponent? : Option Int :=
    match ps with
    | [] => some 0
    | e :: rest =>
      if e = .char 'e' || e = .char 'E' then
        let (down, digits) := splitSign rest
        (digitsNumber? 10 digits).map fun n => if down then -(n : Int) else n
      else none
  match digitsNumber? 10 (whole ++ fraction), exponent? with
  | some digits, some exponent =>
    some (Double.ofDecimal negative digits (exponent - fraction.length))
  | _, _ => none

/-- Reads a decimal number, an infinity or not-a-number. -/
def readDecimal (ps : List Point) : Except ValueFault Double :=
  let (negative, body) := splitSign (trimNumber ps)
  let word := lowerPoints [] body
  if word = points "inf" || word = points "infinity" then .ok (.infinity negative)
  else if word = points "nan" then .ok .nan
  else
    match readUnsigned? negative body with
    | some d => .ok d
    | none => .error (.notFloat ps)

/-- The text without underscores. -/
def dropUnderscores (ps : List Point) : List Point :=
  ps.filter (· ≠ .char '_')

/-- The integer of a scalar. -/
def intOfScalar (ps : List Point) : Except ValueFault Int := do
  let ps := dropUnderscores ps
  if ps.isEmpty then .error .emptyNumber
  else
    let (negative, ps) := splitSign ps
    let n : Int ←
      match ps with
      | [] => .error .emptyNumber
      | [.char '0'] => .ok 0
      | .char '0' :: .char 'b' :: rest => readIntBase 2 rest
      | .char '0' :: .char 'x' :: rest => readIntBase 16 rest
      | .char '0' :: _ => readIntBase 8 ps
      | _ =>
        if .char ':' ∈ ps then do
          let parts ← (splitOn (.char ':') ps).mapM (readIntBase 10)
          .ok (parts.foldl (fun n part => 60 * n + part) 0)
        else readIntBase 10 ps
    .ok (if negative then -n else n)

/-- The sum of parts to base sixty, the last part first, rounded at every step. The place of a part
has to be within the range of doubles. -/
def sumSixtieths (parts : List Double) : Except ValueFault Double := do
  let (sum, _) ← parts.foldlM
    (fun (sum, base) part =>
      match Double.ofNat base with
      | .infinity _ => .error .placeTooLarge
      | place => .ok (sum.add (part.mul place), 60 * base))
    (Double.zero, 1)
  .ok sum

/-- The number with a full stop of a scalar. -/
def floatOfScalar (ps : List Point) : Except ValueFault Double := do
  let ps := lowerPoints [] (dropUnderscores ps)
  if ps.isEmpty then .error .emptyNumber
  else
    let (negative, ps) := splitSign ps
    if ps = points ".nan" then .ok .nan
    else
      let d : Double ←
        if ps = points ".inf" then .ok (Double.infinity false)
        else if .char ':' ∈ ps then do
          let parts ← (splitOn (.char ':') ps).mapM readDecimal
          sumSixtieths parts.reverse
        else readDecimal ps
      .ok (if negative then d.negate else d)

end Yaml
end RefPages
