import RefPages.Yaml.Separator

/-!
# A place in a text

Reading YAML depends on where a character stands: simple keys must end on their line, and nesting is
by column. A cursor carries the characters still to be read and the place of the first of them.

* `Cursor.advance` passes one character and `Cursor.skip` several; `rest_skip` says what is left.
* `Cursor.takeWhile` passes a run of a class.
* `Cursor.lineBreak?` passes one line break, whatever its spelling.
-/

set_option autoImplicit false
namespace RefPages
namespace Yaml

/-- The characters still to be read, and the place of the first of them. -/
structure Cursor where
  rest : List Char
  index : Nat := 0
  line : Nat := 0
  column : Nat := 0
  deriving DecidableEq, Repr

namespace Cursor

/-- The place after one character. A byte order mark takes no column, and the carriage return of a
pair does not end the line. -/
def advance (c : Cursor) : Cursor :=
  match c.rest with
  | [] => c
  | ch :: tail =>
    if isWrittenBreak ch || (ch = '\r' && tail.head? != some '\n') then
      ⟨tail, c.index + 1, c.line + 1, 0⟩
    else ⟨tail, c.index + 1, c.line, if ch = '\ufeff' then c.column else c.column + 1⟩

/-- The place after `n` characters. -/
def skip (c : Cursor) : (n : Nat) → Cursor
  | 0 => c
  | n + 1 => c.advance.skip n

@[simp] theorem rest_advance (c : Cursor) : c.advance.rest = c.rest.drop 1 := by
  unfold advance
  split
  · simp_all
  · split <;> simp_all

@[simp] theorem rest_skip (c : Cursor) (n : Nat) : (c.skip n).rest = c.rest.drop n := by
  induction n generalizing c with
  | zero => simp [skip]
  | succ n ih => simp [skip, ih]

/-- Is the next character of a class? -/
def sees (c : Cursor) (p : Char → Bool) : Bool :=
  c.rest.head?.any p

/-- Is the text over, or is the next character of a class? -/
def endsAt (c : Cursor) (p : Char → Bool) : Bool :=
  c.rest.head?.all p

/-- The run of a class in front, and the place after it. -/
def takeWhile (c : Cursor) (p : Char → Bool) : List Char × Cursor :=
  let run := c.rest.takeWhile p
  (run, c.skip run.length)

/-- The place after the run of a class in front. -/
def dropWhile (c : Cursor) (p : Char → Bool) : Cursor :=
  (c.takeWhile p).2

/-- The line break in front as it is read, and the place after it. -/
def lineBreak? (c : Cursor) : Option (Char × Cursor) :=
  match c.rest with
  | '\r' :: '\n' :: _ => some ('\n', c.skip 2)
  | ch :: _ =>
    if ch = '\u2028' || ch = '\u2029' then some (ch, c.advance)
    else if isBreak ch then some ('\n', c.advance)
    else none
  | [] => none

/-- The place after a comment, if one starts here. -/
def skipComment (c : Cursor) : Cursor :=
  if c.sees (· = '#') then c.dropWhile (!isBreak ·) else c

/-- Do three equal marks in front, followed by a separator, start or end a document? -/
def atDocumentMark (c : Cursor) : Bool :=
  ("---".toList.isPrefixOf c.rest || "...".toList.isPrefixOf c.rest) && atSeparator (c.rest.drop 3)

end Cursor
end Yaml
end RefPages
