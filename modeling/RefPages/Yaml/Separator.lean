/-!
# Line breaks and separators

The character classes that writing and reading share.

* `isBreak`: the characters that break a line. `isWrittenBreak` leaves out the carriage return,
  which is never written as itself.
* `isSeparator`: blanks, tabs and line breaks, which set off the marks of the notation.
* `atSeparator`: the text is over or goes on with a separator.
-/

set_option autoImplicit false
namespace RefPages
namespace Yaml

/-- A character that breaks a line in written text. -/
def isWrittenBreak (c : Char) : Bool :=
  c = '\n' || c = '\x85' || c = '\u2028' || c = '\u2029'

/-- A character that breaks a line. -/
def isBreak (c : Char) : Bool :=
  c = '\r' || isWrittenBreak c

/-- A blank. -/
def isSpace (c : Char) : Bool :=
  c = ' '

/-- A blank or a tab. -/
def isBlankOrTab (c : Char) : Bool :=
  c = ' ' || c = '\t'

/-- A blank, a tab, a line break or a NUL: what separates the marks of the notation. -/
def isSeparator (c : Char) : Bool :=
  c = '\x00' || isBlankOrTab c || isBreak c

/-- Is the text over, or does it go on with a separator? -/
def atSeparator : List Char → Bool
  | [] => true
  | c :: _ => isSeparator c

end Yaml
end RefPages
