import RefPages.Text.Hex
import RefPages.Text.Point
import RefPages.Text.Printable

/-!
# Texts shown in quotes

How a text or a run of bytes is shown inside a message or inside a list: between apostrophes, or
between double quotes when it holds an apostrophe and no double quote. The enclosing quote and the
backslash are escaped, tab, line feed and carriage return have escapes of their own, and what is not
printable is written by its number. Half of a surrogate pair is not printable.

* `quoted` shows a text, `quotedPoints` a text with halves of pairs, `quotedBytes` a run of bytes.
-/

set_option autoImplicit false
namespace RefPages
namespace Text

/-- The quote that encloses a text. -/
def enclosingQuote (ps : List Point) : Char :=
  if .char '\'' ∈ ps ∧ .char '"' ∉ ps then '"' else '\''

/-- What is not printable, by its number. -/
def numberEscape (n : Nat) : List Char :=
  if n < 0x100 then ['\\', 'x'] ++ hexPadded .lower 2 n
  else if n < 0x10000 then ['\\', 'u'] ++ hexPadded .lower 4 n
  else ['\\', 'U'] ++ hexPadded .lower 8 n

/-- One point between `quote`s; `shown` are the characters that stand for themselves. -/
def quotedPoint (shown : Char → Bool) (quote : Char) : Point → List Char
  | .char c =>
    if c = quote ∨ c = '\\' then ['\\', c]
    else if c = '\t' then ['\\', 't']
    else if c = '\n' then ['\\', 'n']
    else if c = '\r' then ['\\', 'r']
    else if shown c then [c]
    else numberEscape c.toNat
  | p => numberEscape p.code

/-- The points between the quotes that suit them. -/
def quotedBy (shown : Char → Bool) (ps : List Point) : String :=
  let quote := enclosingQuote ps
  String.ofList (quote :: ps.flatMap (quotedPoint shown quote) ++ [quote])

/-- A text with halves of surrogate pairs in quotes. -/
def quotedPoints (ps : List Point) : String :=
  quotedBy isPrintable ps

/-- A text in quotes. -/
def quoted (s : String) : String :=
  quotedPoints (points s)

/-- Bytes in quotes, marked by a leading `b`; only printable ASCII stands for itself. -/
def quotedBytes (bytes : List UInt8) : String :=
  let ascii := fun c : Char => ' ' ≤ c && c ≤ '~'
  "b" ++ quotedBy ascii (bytes.map fun b => .char (Char.ofNat b.toNat))

end Text
end RefPages
