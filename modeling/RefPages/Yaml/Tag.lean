import RefPages.Text.Point
import RefPages.Yaml.Timestamp

/-!
# Tags, and what a plain scalar stands for

A plain scalar is a text unless it looks like a null, a truth value, a number, a timestamp, a merge
key, a default key or an indicator. The notations are those of YAML 1.1. Writer and reader share
this classification: a text that would be read as something else is written in quotes.

* `Tag` names the kinds of node; `Tag.ofUri` reads a tag in full.
* `Tag.ofPlain` classifies a plain scalar, and `Tag.ofPoints` any scalar as if it were plain. One
  line feed at the end does not count.
-/

set_option autoImplicit false
namespace RefPages
namespace Yaml

/-- The kind of a node. -/
inductive Tag where
  | null
  | bool
  | int
  | float
  | binary
  | timestamp
  | omap
  | pairs
  | set
  | text
  | sequence
  | mapping
  | merge
  | defaultKey
  | other (uri : String)
  deriving DecidableEq, Repr

/-- What the tags of the standard kinds start with. -/
def standardTags : String := "tag:yaml.org,2002:"

/-- The kind that a tag names. -/
def Tag.ofUri (uri : String) : Tag :=
  let kinds : List (String × Tag) :=
    [("null", .null), ("bool", .bool), ("int", .int), ("float", .float), ("binary", .binary),
     ("timestamp", .timestamp), ("omap", .omap), ("pairs", .pairs), ("set", .set), ("str", .text),
     ("seq", .sequence), ("map", .mapping), ("merge", .merge), ("value", .defaultKey)]
  match kinds.find? fun kind => standardTags ++ kind.1 = uri with
  | some (_, tag) => tag
  | none => .other uri

/-! ## Notations -/

/-- A digit or an underscore. -/
def isDigitMark (c : Char) : Bool :=
  isDigit c || c = '_'

/-- The text without a sign in front. -/
def dropSign : List Char → List Char
  | '-' :: cs => cs
  | '+' :: cs => cs
  | cs => cs

/-- A digit, then digits and underscores. -/
def isNumeral : List Char → Bool
  | [] => false
  | c :: rest => isDigit c && rest.all isDigitMark

/-- Nothing, or an exponent: a letter `e`, a sign and digits. -/
def isExponentOrEmpty : List Char → Bool
  | [] => true
  | e :: sign :: digits =>
    (e = 'e' || e = 'E') && (sign = '-' || sign = '+') && !digits.isEmpty && digits.all isDigit
  | _ => false

/-- The pieces between colons. -/
def colonPieces (cs : List Char) : List (List Char) :=
  match cs with
  | [] => [[]]
  | c :: rest =>
    match c, colonPieces rest with
    | ':', pieces => [] :: pieces
    | c, piece :: pieces => (c :: piece) :: pieces
    | c, [] => [[c]]

/-- A part of a number to base sixty after the first: a number below sixty in one digit or two. -/
def isSixtieth : List Char → Bool
  | [c] => isDigit c
  | [c, d] => '0' ≤ c && c ≤ '5' && isDigit d
  | _ => false

/-- Does the notation have several parts to base sixty, the first of which `first` admits? -/
def isSexagesimal (first : List Char → Bool) (cs : List Char) : Bool :=
  match colonPieces cs with
  | piece :: next :: rest => first piece && (next :: rest).all isSixtieth
  | _ => false

/-- The notations of integers: binary, octal, decimal, hexadecimal, and to base sixty. -/
def isIntForm (cs : List Char) : Bool :=
  let cs := dropSign cs
  let nonZero : List Char → Bool := fun
    | [] => false
    | c :: rest => '1' ≤ c && c ≤ '9' && rest.all isDigitMark
  match cs with
  | '0' :: 'b' :: digits => !digits.isEmpty && digits.all fun c => c = '0' || c = '1' || c = '_'
  | '0' :: 'x' :: digits =>
    !digits.isEmpty && digits.all fun c =>
      isDigitMark c || ('a' ≤ c && c ≤ 'f') || ('A' ≤ c && c ≤ 'F')
  | ['0'] => true
  | '0' :: digits => digits.all fun c => ('0' ≤ c && c ≤ '7') || c = '_'
  | cs => nonZero cs || isSexagesimal nonZero cs

/-- The notations of numbers with a full stop, among them infinity and not-a-number. -/
def isFloatForm (cs : List Char) : Bool :=
  let unsigned := dropSign cs
  let whole := unsigned.takeWhile (· != '.')
  let fraction := (unsigned.dropWhile (· != '.')).drop 1
  let stop := '.' ∈ unsigned
  let signed := unsigned.length < cs.length
  let tail := isExponentOrEmpty (fraction.dropWhile isDigitMark)
  stop &&
    ((isNumeral whole && tail)
      || (!signed && whole.isEmpty && isNumeral (fraction.takeWhile isDigitMark) && tail)
      || (isSexagesimal isNumeral whole && fraction.all isDigitMark)
      || (whole.isEmpty && fraction ∈ ["inf".toList, "Inf".toList, "INF".toList])
      || (!signed && whole.isEmpty && fraction ∈ ["nan".toList, "NaN".toList, "NAN".toList]))

/-- The spellings of truth values. -/
def boolSpellings : List (List Char) :=
  ["yes", "Yes", "YES", "no", "No", "NO", "true", "True", "TRUE", "false", "False", "FALSE",
   "on", "On", "ON", "off", "Off", "OFF"].map String.toList

/-- The spellings of null. -/
def nullSpellings : List (List Char) :=
  ["~", "null", "Null", "NULL"].map String.toList

/-- The kind whose notation the characters are in, if any; `[]` is not considered. -/
def impliedTag? (cs : List Char) : Option Tag :=
  if cs ∈ boolSpellings then some .bool
  else if isFloatForm cs then some .float
  else if isIntForm cs then some .int
  else if cs = ['<', '<'] then some .merge
  else if cs ∈ nullSpellings then some .null
  else if Timestamp.standsForItself cs then some .timestamp
  else if cs = ['='] then some .defaultKey
  else if cs ∈ [['!'], ['&'], ['*']] then some (.other (standardTags ++ "yaml"))
  else none

/-- The text without one line feed at its end. -/
def dropFinalNewline (cs : List Char) : List Char :=
  if cs.getLast? = some '\n' then cs.dropLast else cs

/-- What a plain scalar stands for. -/
def Tag.ofPlain (cs : List Char) : Tag :=
  if cs.isEmpty then .null else (impliedTag? (dropFinalNewline cs)).getD .text

/-- What a scalar stands for as if it were plain. With half of a surrogate pair it is in none of the
notations. -/
def Tag.ofPoints (ps : List Text.Point) : Tag :=
  match Text.chars? ps with
  | some cs => ofPlain cs
  | none => .text

end Yaml
end RefPages
