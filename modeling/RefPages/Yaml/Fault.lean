import RefPages.Text.Quoted

/-!
# What can go wrong when YAML is loaded

* `ValueFault`: a scalar that is tagged as a number, a truth value or a timestamp does not denote
  one, a default entry leads back to itself, an escape names no character, or an integer is too long
  to be read or written. `ValueFault.message` words it.
* `LoadFault`: such a fault, or a text that is not YAML of the supported kinds.
-/

set_option autoImplicit false
namespace RefPages
namespace Yaml

open Text

/-- A span of time in whole seconds, as days and the seconds of a day. -/
def spanText (seconds : Int) : String :=
  let days := seconds.fdiv 86400
  let rest := seconds.fmod 86400
  let pieces :=
    (if days = 0 then [] else ["days=" ++ toString days])
      ++ (if rest = 0 then [] else ["seconds=" ++ toString rest])
  "datetime.timedelta(" ++ (if pieces.isEmpty then "0" else ", ".intercalate pieces) ++ ")"

/-- A scalar does not denote a value of its kind, or a value cannot be written. -/
inductive ValueFault where
  | emptyNumber
  | notInt (base : Nat) (text : List Point)
  | tooManyDigits (count : Nat)
  | tooLongToWrite
  | notFloat (text : List Point)
  | placeTooLarge
  | notBool (text : List Point)
  | notTimestamp
  | timestampOfMapping
  | endlessDefault
  | year (n : Nat)
  | month
  | day
  | hour
  | minute
  | second
  | offset (seconds : Int)
  | codePoint
  | codePointSize
  deriving DecidableEq, Repr

/-- The fault in words. A text that is no integer is shown up to two hundred characters. -/
def ValueFault.message : ValueFault → String
  | .emptyNumber => "string index out of range"
  | .notInt base text =>
    "invalid literal for int() with base " ++ toString base ++ ": "
      ++ String.ofList ((quotedPoints text).toList.take 200)
  | .tooManyDigits count =>
    "Exceeds the limit (4300 digits) for integer string conversion: value has " ++ toString count
      ++ " digits; use sys.set_int_max_str_digits() to increase the limit"
  | .tooLongToWrite =>
    "Exceeds the limit (4300 digits) for integer string conversion; "
      ++ "use sys.set_int_max_str_digits() to increase the limit"
  | .notFloat text => "could not convert string to float: " ++ quotedPoints text
  | .placeTooLarge => "int too large to convert to float"
  | .notBool text => quotedPoints text
  | .notTimestamp => "'NoneType' object has no attribute 'groupdict'"
  | .timestampOfMapping => "expected string or bytes-like object, got 'list'"
  | .endlessDefault => "maximum recursion depth exceeded"
  | .year n => "year " ++ toString n ++ " is out of range"
  | .month => "month must be in 1..12"
  | .day => "day is out of range for month"
  | .hour => "hour must be in 0..23"
  | .minute => "minute must be in 0..59"
  | .second => "second must be in 0..59"
  | .offset seconds =>
    "offset must be a timedelta strictly between -timedelta(hours=24) and timedelta(hours=24), not "
      ++ spanText seconds ++ "."
  | .codePoint => "chr() arg not in range(0x110000)"
  | .codePointSize => "Python int too large to convert to C int"

/-- Why a text could not be loaded. -/
inductive LoadFault where
  | malformed (reason : String)
  | value (fault : ValueFault)
  deriving DecidableEq, Repr

end Yaml
end RefPages
