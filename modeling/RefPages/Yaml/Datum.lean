import RefPages.Text.Lines
import RefPages.Yaml.Base64
import RefPages.Yaml.Number
import RefPages.Yaml.Tag

/-!
# Data: the values of scalars

* `Datum` is the value of a scalar. A text with halves of surrogate pairs is a datum of its own.
* `Moment.ofTimestamp` checks the numbers of a timestamp.
* `Datum.sameKey` says when two data are the same key of a mapping: numbers are compared by value, a
  truth value counts as zero or one.
* `Datum.toText` and `Datum.shown` are a datum by itself and inside a collection; `Datum.checked`
  refuses to write an integer that is too long.
-/

set_option autoImplicit false
namespace RefPages
namespace Yaml

open Text Decimal

/-! ## Dates and times -/

/-- A day of the calendar. -/
structure Day where
  year : Nat
  month : Nat
  day : Nat
  deriving DecidableEq, Repr

/-- A day and a time of day; the offset from universal time is in seconds. -/
structure Moment where
  date : Day
  hour : Nat
  minute : Nat
  second : Nat
  micro : Nat
  offset? : Option Int
  deriving DecidableEq, Repr

/-- Has the year a 29th of February? -/
def isLeap (year : Nat) : Bool :=
  year % 4 = 0 && (year % 100 ≠ 0 || year % 400 = 0)

/-- How many days a month has. -/
def daysIn (year month : Nat) : Nat :=
  if month = 2 then if isLeap year then 29 else 28
  else if month ∈ [4, 6, 9, 11] then 30
  else 31

/-- The day of a timestamp, if there is such a day. -/
def Day.ofTimestamp (t : Timestamp) : Except ValueFault Day :=
  if t.year = 0 then .error (.year t.year)
  else if t.month < 1 ∨ 12 < t.month then .error .month
  else if t.day < 1 ∨ daysIn t.year t.month < t.day then .error .day
  else .ok ⟨t.year, t.month, t.day⟩

/-- The offset of a time, which is less than a day. -/
def Offset.seconds : Offset → Except ValueFault (Option Int)
  | .none => .ok Option.none
  | .universal => .ok (some 0)
  | .hoursMinutes negative hours minutes =>
    let size : Int := hours * 3600 + minutes * 60
    let seconds := if negative then -size else size
    if size < 86400 then .ok (some seconds) else .error (.offset seconds)

/-- The microseconds of a fraction of a second; further digits are dropped. -/
def microseconds (fraction : List Char) : Nat :=
  let digits := fraction.take 6
  decimalNumber digits * Nat.pow 10 (6 - digits.length)

/-- The moment of a date with a time, if there is such a moment. -/
def Moment.ofTimestamp (t : Timestamp) (clock : Clock) : Except ValueFault Moment := do
  let offset? ← clock.offset.seconds
  let date ← Day.ofTimestamp t
  if 23 < clock.hour then .error .hour
  else if 59 < clock.minute then .error .minute
  else if 59 < clock.second then .error .second
  else
    .ok ⟨date, clock.hour, clock.minute, clock.second, microseconds clock.fraction, offset?⟩

/-- The days before a day since the start of the calendar. -/
def Day.count (d : Day) : Int :=
  let y := d.year - 1
  let before := ((List.range (d.month - 1)).map fun m => daysIn d.year (m + 1)).foldl (· + ·) 0
  (365 * y + y / 4 - y / 100 + y / 400 + before + d.day : Nat)

/-- The microseconds of a moment since the start of the calendar in universal time, or in its own if
it has no offset. -/
def Moment.count (m : Moment) : Int :=
  let seconds := ((m.date.count * 24 + m.hour) * 60 + m.minute) * 60 + m.second
  (seconds - m.offset?.getD 0) * 1000000 + m.micro

/-- A number with zeros in front. -/
def padded (width n : Nat) : String :=
  let digits := toString n
  zeros (width - digits.length) ++ digits

/-- A day as text. -/
def Day.text (d : Day) : String :=
  padded 4 d.year ++ "-" ++ padded 2 d.month ++ "-" ++ padded 2 d.day

/-- A moment as text. -/
def Moment.text (m : Moment) : String :=
  let offset :=
    match m.offset? with
    | none => ""
    | some seconds =>
      (if seconds < 0 then "-" else "+") ++ padded 2 (seconds.natAbs / 3600) ++ ":"
        ++ padded 2 (seconds.natAbs / 60 % 60)
  m.date.text ++ " " ++ padded 2 m.hour ++ ":" ++ padded 2 m.minute ++ ":" ++ padded 2 m.second
    ++ (if m.micro = 0 then "" else "." ++ padded 6 m.micro) ++ offset

/-- A day inside a collection. -/
def Day.shown (d : Day) : String :=
  "datetime.date(" ++ joinWith ", " ([d.year, d.month, d.day].map toString) ++ ")"

/-- A moment inside a collection; seconds and microseconds are left out where they are zero. -/
def Moment.shown (m : Moment) : String :=
  let smallest :=
    if m.micro ≠ 0 then [m.second, m.micro] else if m.second ≠ 0 then [m.second] else []
  let zone :=
    match m.offset? with
    | none => []
    | some 0 => ["tzinfo=datetime.timezone.utc"]
    | some seconds => ["tzinfo=datetime.timezone(" ++ spanText seconds ++ ")"]
  let fields := [m.date.year, m.date.month, m.date.day, m.hour, m.minute] ++ smallest
  "datetime.datetime(" ++ joinWith ", " (fields.map toString ++ zone) ++ ")"

/-! ## Data -/

/-- The value of a scalar. -/
inductive Datum where
  | null
  | bool (b : Bool)
  | int (n : Int)
  | float (d : Double)
  | text (s : String)
  | rough (ps : List Point)
  | bytes (bs : List UInt8)
  | date (d : Day)
  | moment (m : Moment)
  deriving DecidableEq, Repr

namespace Datum

/-- The text of points. -/
def ofPoints (ps : List Point) : Datum :=
  match chars? ps with
  | some cs => text (String.ofList cs)
  | none => rough ps

/-- Is the datum a text with halves of surrogate pairs? -/
def isRough : Datum → Bool
  | rough _ => true
  | _ => false

/-- The truth value of a spelling in any letter case. -/
def boolOfScalar (ps : List Point) : Except ValueFault Bool :=
  let word := lowerPoints [] ps
  if word ∈ ["yes", "true", "on"].map points then .ok true
  else if word ∈ ["no", "false", "off"].map points then .ok false
  else .error (.notBool word)

/-- The date or moment of a scalar. One line feed at the end does not count. -/
def timeOfScalar (ps : List Point) : Except ValueFault Datum :=
  match (chars? ps).bind fun cs => Timestamp.ofChars? (dropFinalNewline cs) with
  | none => .error .notTimestamp
  | some t =>
    match t.clock? with
    | none => (Day.ofTimestamp t).map .date
    | some clock => (Moment.ofTimestamp t clock).map .moment

/-- A whole number or a float as a quotient over the unit of doubles, if it is finite. -/
def scaled? : Datum → Option Int
  | .bool b => some (if b then unitsPerOne else 0)
  | .int n => some (n * unitsPerOne)
  | .float (.finite negative scaled) => some (if negative then -(scaled : Int) else scaled)
  | _ => none

/-- Are two data the same key of a mapping? -/
def sameKey (a b : Datum) : Bool :=
  match a, b with
  | .moment m, .moment n => m.offset?.isSome = n.offset?.isSome && m.count = n.count
  | a, b =>
    match a.scaled?, b.scaled? with
    | some x, some y => x = y
    | _, _ => a = b

/-- A datum inside a collection. -/
def shown : Datum → String
  | .null => "None"
  | .bool true => "True"
  | .bool false => "False"
  | .int n => toString n
  | .float d => d.toText
  | .text s => quoted s
  | .rough ps => quotedPoints ps
  | .bytes bs => quotedBytes bs
  | .date d => d.shown
  | .moment m => m.shown

/-- A datum by itself. A text with halves of surrogate pairs is no string, and is shown as in a
collection. -/
def toText : Datum → String
  | .text s => s
  | .date d => d.text
  | .moment m => m.text
  | d => d.shown

/-- A text of a datum, unless the datum is an integer that is too long. -/
def checked (d : Datum) (text : String) : Except ValueFault String :=
  match d with
  | .int n => if n.natAbs < writingLimit then .ok text else .error .tooLongToWrite
  | _ => .ok text

end Datum
end Yaml
end RefPages
