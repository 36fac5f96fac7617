import RefPages.Text.Hex
import RefPages.Yaml.Separator
import RefPages.Yaml.Tag

/-!
# Writing scalars

A text is written plain if it can be read back as that text, else between apostrophes, else between
double quotes with escapes. Lines are not folded, so the width of a line does not matter.

* `Style.ofText` chooses the style.
* `writeScalar` writes a text as the value of a key in a mapping at the top.
* `writeMapping` writes the whole mapping, one key to a line.
-/

set_option autoImplicit false
namespace RefPages
namespace Yaml

open Text

/-- May the character only be written as an escape? -/
def isSpecial (c : Char) : Bool :=
  !(c = '\n' || (' ' ≤ c && c ≤ '~') || c = '\x85'
    || (0xA0 ≤ c.toNat && c.toNat ≤ 0xFFFD && c.toNat ≠ 0xFEFF)
    || (0x10000 ≤ c.toNat && c.toNat < 0x10FFFF))

/-- Does the text start like a mark of the notation? -/
def startsWithMark : List Char → Bool
  | [] => false
  | c :: rest =>
    c ∈ "#,[]\x7b\x7d&*!|>'\"%@\x60".toList || (c ∈ ['?', ':', '-'] && atSeparator rest)
      || "---".toList.isPrefixOf (c :: rest) || "...".toList.isPrefixOf (c :: rest)

/-- Does a colon before a separator, or a number sign after one, stand after the first character?
`after` says that the text follows a separator. -/
def holdsMark (after : Bool) : List Char → Bool
  | [] => false
  | c :: rest =>
    (c = ':' && atSeparator rest) || (c = '#' && after) || holdsMark (isSeparator c) rest

/-- Does a character of the first class stand directly before one of the second? -/
def hasPair (first second : Char → Bool) : List Char → Bool
  | c :: d :: rest => (first c && second d) || hasPair first second (d :: rest)
  | _ => false

/-- Does the text read back as itself when it is written as it is? -/
def fitsPlain (cs : List Char) : Bool :=
  match cs with
  | [] => false
  | c :: rest =>
    !startsWithMark cs && !holdsMark (isSeparator c) rest
      && !cs.any isWrittenBreak && !cs.any isSpecial
      && !isSpace c && !(cs.getLast?.any isSpace)
      && Tag.ofPlain cs = .text

/-- Can the text be written between apostrophes? -/
def fitsSingle (cs : List Char) : Bool :=
  !cs.any isSpecial && !hasPair isWrittenBreak isSpace cs && !hasPair isSpace isWrittenBreak cs

/-- The ways to write a scalar. -/
inductive Style where
  | plain
  | single
  | double
  deriving DecidableEq, Repr

/-- The way a text is written. -/
def Style.ofText (cs : List Char) : Style :=
  if fitsPlain cs then .plain else if fitsSingle cs then .single else .double

/-! ## Between apostrophes -/

/-- The text between apostrophes: an apostrophe is written twice, and so is a line feed that starts
a run of line breaks; the line after the run is indented. `afterBreak` says that the text follows a
line break. -/
def singleBody (afterBreak : Bool) : List Char → List Char
  | [] => if afterBreak then [' ', ' '] else []
  | c :: rest =>
    if isWrittenBreak c then
      (if !afterBreak && c = '\n' then ['\n', '\n'] else [c]) ++ singleBody true rest
    else
      (if afterBreak then [' ', ' '] else []) ++ (if c = '\'' then ['\'', '\''] else [c])
        ++ singleBody false rest

/-! ## Between double quotes -/

/-- The escapes that have a letter of their own. -/
def letterEscapes : List (Char × Char) :=
  [('\x00', '0'), ('\x07', 'a'), ('\x08', 'b'), ('\t', 't'), ('\n', 'n'), ('\x0b', 'v'),
   ('\x0c', 'f'), ('\r', 'r'), ('\x1b', 'e'), ('"', '"'), ('\\', '\\'), ('\x85', 'N'),
   ('\u2028', 'L'), ('\u2029', 'P')]

/-- Does a character stand for itself between double quotes? -/
def standsInDouble (c : Char) : Bool :=
  (' ' ≤ c && c ≤ '~' && c ≠ '"' && c ≠ '\\')
    || (0xA0 ≤ c.toNat && c.toNat ≤ 0xFFFD && c ∉ ['\u2028', '\u2029', '\ufeff'])

/-- A character between double quotes. -/
def doubleChar (c : Char) : List Char :=
  if standsInDouble c then [c]
  else
    match letterEscapes.lookup c with
    | some letter => ['\\', letter]
    | none =>
      if c.toNat ≤ 0xFF then ['\\', 'x'] ++ hexPadded .upper 2 c.toNat
      else if c.toNat ≤ 0xFFFF then ['\\', 'u'] ++ hexPadded .upper 4 c.toNat
      else ['\\', 'U'] ++ hexPadded .upper 8 c.toNat

/-- A text in the style that suits it. -/
def writeScalar (cs : List Char) : List Char :=
  match Style.ofText cs with
  | .plain => cs
  | .single => '\'' :: singleBody false cs ++ ['\'']
  | .double => '"' :: cs.flatMap doubleChar ++ ['"']

/-- A mapping of texts whose keys are plain words, a line or more to each entry. -/
def writeMapping (entries : List (String × String)) : String :=
  entries.foldr
    (fun (key, value) text =>
      key ++ ": " ++ String.ofList (writeScalar value.toList) ++ "\n" ++ text)
    ""

end Yaml
end RefPages
