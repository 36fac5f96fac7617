import RefPages.Yaml.Separator

/-!
# Dates and times in YAML

* `Timestamp` holds the numbers of a date, or of a date with a time, an optional fraction and an
  optional offset, as they are written.
* `Timestamp.ofChars?` reads the notation; nothing is checked about the ranges of the numbers.
* `Timestamp.standsForItself`: a plain scalar in this notation is a timestamp, except that a date by
  itself needs two digits for the month and two for the day.
-/

set_option autoImplicit false
namespace RefPages
namespace Yaml

/-- A digit of the decimal notation. -/
def isDigit (c : Char) : Bool :=
  '0' ≤ c && c ≤ '9'

/-- The number that decimal digits stand for. -/
def decimalNumber (cs : List Char) : Nat :=
  cs.foldl (fun n c => 10 * n + (c.toNat - 0x30)) 0

/-- The offset of a time from universal time. -/
inductive Offset where
  | none
  | universal
  | hoursMinutes (negative : Bool) (hours minutes : Nat)
  deriving DecidableEq, Repr

/-- A time of day as it is written; the fraction is a string of digits. -/
structure Clock where
  hour : Nat
  minute : Nat
  second : Nat
  fraction : List Char := []
  offset : Offset := .none
  deriving DecidableEq, Repr

/-- A date, with or without a time of day. -/
structure Timestamp where
  year : Nat
  month : Nat
  day : Nat
  clock? : Option Clock := none
  deriving DecidableEq, Repr

/-- Exactly `n` digits in front. -/
def digits? (n : Nat) (cs : List Char) : Option (Nat × List Char) :=
  let front := cs.take n
  if front.length = n && front.all isDigit then some (decimalNumber front, cs.drop n) else none

/-- One digit or two in front, as many as there are. -/
def oneOrTwoDigits? (cs : List Char) : Option (Nat × List Char) :=
  (digits? 2 cs).or (digits? 1 cs)

/-- What follows the character `c`. -/
def char? (c : Char) : List Char → Option (List Char)
  | d :: rest => if d = c then some rest else none
  | [] => none

/-- The offset that ends a time. -/
def offset? : List Char → Option Offset
  | [] => some .none
  | cs =>
    match cs.dropWhile isBlankOrTab with
    | ['Z'] => some .universal
    | sign :: cs =>
      if sign = '+' || sign = '-' then do
        let (hours, cs) ← oneOrTwoDigits? cs
        match cs with
        | [] => some (.hoursMinutes (sign = '-') hours 0)
        | _ =>
          let cs ← char? ':' cs
          let (minutes, cs) ← digits? 2 cs
          if cs.isEmpty then some (.hoursMinutes (sign = '-') hours minutes) else none
      else none
    | [] => none

/-- What follows the mark between a date and a time. -/
def timeMark? : List Char → Option (List Char)
  | 'T' :: cs => some cs
  | 't' :: cs => some cs
  | c :: cs => if isBlankOrTab c then some (cs.dropWhile isBlankOrTab) else none
  | [] => none

/-- The time of day after a date. -/
def timeOfDay? (cs : List Char) : Option Clock := do
  let cs ← timeMark? cs
  let (hour, cs) ← oneOrTwoDigits? cs
  let cs ← char? ':' cs
  let (minute, cs) ← digits? 2 cs
  let cs ← char? ':' cs
  let (second, cs) ← digits? 2 cs
  let (fraction, cs) :=
    match cs with
    | '.' :: cs => (cs.takeWhile isDigit, cs.dropWhile isDigit)
    | cs => ([], cs)
  let offset ← offset? cs
  some { hour, minute, second, fraction, offset }

namespace Timestamp

/-- Reads the whole of a text as a date, with or without a time. -/
def ofChars? (cs : List Char) : Option Timestamp := do
  let (year, cs) ← digits? 4 cs
  let cs ← char? '-' cs
  let (month, cs) ← oneOrTwoDigits? cs
  let cs ← char? '-' cs
  let (day, cs) ← oneOrTwoDigits? cs
  match cs with
  | [] => some { year, month, day }
  | cs =>
    let clock ← timeOfDay? cs
    some { year, month, day, clock? := some clock }

/-- Is a plain scalar of these characters a timestamp? -/
def standsForItself (cs : List Char) : Bool :=
  match ofChars? cs with
  | some t => t.clock?.isSome || cs.length = 10
  | none => false

end Timestamp
end Yaml
end RefPages
