import RefPages.Text.Hex
import RefPages.Yaml.Cursor
import RefPages.Yaml.Fault

/-!
# Reading scalars

The four notations of a scalar, each read from a cursor.

* `readQuoted` reads a scalar between apostrophes or double quotes. A line break in it is folded:
  the first line feed becomes a blank unless more line breaks follow. An escape between double
  quotes may name half of a surrogate pair; two halves in a row stay two.
* `readPlain` reads a plain scalar, which may go on over lines that are indented more than the
  collection it is in.
* `readBlock` reads a literal or folded block.

The loops take the count of characters left as fuel; every round passes at least one.
-/

set_option autoImplicit false
namespace RefPages
namespace Yaml

open Text

/-- A scalar or a part of one, and the place after it. -/
abbrev Read := List Char × Cursor

/-- What a run of line breaks becomes: the first is kept unless it is a line feed, which is a blank
if it is the only one. -/
def foldBreaks (first : Char) (breaks : List Char) : List Char :=
  (if first ≠ '\n' then [first] else if breaks.isEmpty then [' '] else []) ++ breaks

/-! ## In quotes -/

/-- The line breaks after the first inside quotes, with the blanks between them. -/
def quotedBreaks : (fuel : Nat) → Cursor → Except LoadFault Read
  | 0, c => .ok ([], c)
  | fuel + 1, c =>
    if c.atDocumentMark then .error (.malformed "a document mark inside quotes")
    else
      let c := c.dropWhile isBlankOrTab
      match c.lineBreak? with
      | some (br, c) => do
        let (breaks, c) ← quotedBreaks fuel c
        .ok (br :: breaks, c)
      | none => .ok ([], c)

/-- The characters that a letter after a backslash stands for. -/
def escapeLetters : List (Char × Char) :=
  [('0', '\x00'), ('a', '\x07'), ('b', '\x08'), ('t', '\t'), ('\t', '\t'), ('n', '\n'),
   ('v', '\x0b'), ('f', '\x0c'), ('r', '\r'), ('e', '\x1b'), (' ', ' '), ('"', '"'), ('\\', '\\'),
   ('/', '/'), ('N', '\x85'), ('_', '\xa0'), ('L', '\u2028'), ('P', '\u2029')]

/-- How many digits follow a letter that announces a code point. -/
def escapeWidth? : Char → Option Nat
  | 'x' => some 2
  | 'u' => some 4
  | 'U' => some 8
  | _ => none

/-- The point of a code. -/
def pointOfCode (n : Nat) : Except LoadFault Point :=
  match Point.ofCode? n with
  | some p => .ok p
  | none => .error (.value (if n < 0x80000000 then .codePoint else .codePointSize))

/-- What an escape stands for; the cursor is after the backslash. An escaped line break stands for
the line breaks after it. -/
def readEscape (fuel : Nat) (c : Cursor) : Except LoadFault (List Point × Cursor) :=
  match c.rest with
  | [] => .error (.malformed "an escape at the end of the text")
  | ch :: tail =>
    match escapeLetters.lookup ch, escapeWidth? ch, c.lineBreak? with
    | some meant, _, _ => .ok ([.char meant], c.advance)
    | none, some width, _ =>
      match hexNumber? (tail.take width) with
      | some n =>
        if (tail.take width).length = width then do
          let meant ← pointOfCode n
          .ok ([meant], c.skip (1 + width))
        else .error (.malformed "an escape with too few digits")
      | none => .error (.malformed "an escape with a character that is no digit")
    | none, none, some (_, c) => do
      let (breaks, c) ← quotedBreaks fuel c
      .ok (breaks.map .char, c)
    | none, none, none => .error (.malformed "an unknown escape")

/-- The scalar up to its closing quote; the cursor is inside the quotes. -/
def quotedRest (quote : Char) : (fuel : Nat) → Cursor → Except LoadFault (List Point × Cursor)
  | 0, _ => .error (.malformed "the end of the text inside quotes")
  | fuel + 1, c =>
    match c.rest with
    | [] => .error (.malformed "the end of the text inside quotes")
    | ch :: tail =>
      let more := fun (piece : List Point) (c : Cursor) => do
        let (text, c) ← quotedRest quote fuel c
        .ok (piece ++ text, c)
      if ch = quote then
        if quote = '\'' ∧ tail.head? = some '\'' then more [.char '\''] (c.skip 2)
        else .ok ([], c.advance)
      else if quote = '"' ∧ ch = '\\' then do
        let (piece, c) ← readEscape fuel c.advance
        more piece c
      else if isBlankOrTab ch || isBreak ch then
        let (blanks, c) := c.takeWhile isBlankOrTab
        match c.lineBreak? with
        | some (br, c) => do
          let (breaks, c) ← quotedBreaks fuel c
          more ((foldBreaks br breaks).map .char) c
        | none => more (blanks.map .char) c
      else more [.char ch] c.advance

/-- The quoted scalar whose opening quote is in front. -/
def readQuoted (quote : Char) (c : Cursor) : Except LoadFault (List Point × Cursor) :=
  quotedRest quote c.rest.length c.advance

/-! ## Plain -/

/-- The characters that end a plain scalar inside brackets. -/
def isFlowMark (c : Char) : Bool :=
  c ∈ ",[]\x7b\x7d".toList

/-- The plain characters in front: up to a separator, a colon before a separator, and inside
brackets also up to a mark of theirs. -/
def plainRun (flow : Bool) : List Char → List Char
  | [] => []
  | ch :: rest =>
    if isSeparator ch
      || (ch = ':' && (atSeparator rest || (flow && rest.head?.any isFlowMark)))
      || (flow && (ch = '?' || isFlowMark ch))
    then [] else ch :: plainRun flow rest

/-- The line breaks after the first in a plain scalar, or nothing where a document mark follows. -/
def plainBreaks : (fuel : Nat) → Cursor → Option (List Char) × Cursor
  | 0, c => (some [], c)
  | fuel + 1, c =>
    if c.sees isSpace then plainBreaks fuel c.advance
    else
      match c.lineBreak? with
      | some (br, c) =>
        if c.atDocumentMark then (none, c)
        else
          let (breaks, c) := plainBreaks fuel c
          (breaks.map (br :: ·), c)
      | none => (some [], c)

/-- What stands between two runs of plain characters: its meaning, the place after it, and whether a
line ended. No meaning at all ends the scalar. -/
def plainGap (c : Cursor) : List Char × Cursor × Bool :=
  let (blanks, c) := c.takeWhile isSpace
  match c.lineBreak? with
  | none => (blanks, c, false)
  | some (br, c) =>
    if c.atDocumentMark then ([], c, true)
    else
      match plainBreaks c.rest.length c with
      | (none, c) => ([], c, true)
      | (some breaks, c) => (foldBreaks br breaks, c, true)

/-- The runs of a plain scalar from `c` on, after the gap `gap`. Lines after the first have to be
indented to column `indent` unless inside brackets. -/
def plainRest (flow : Bool) (indent : Int) :
    (fuel : Nat) → (gap : List Char) → (lineEnded : Bool) → Cursor → List Char × Cursor × Bool
  | 0, _, lineEnded, c => ([], c, lineEnded)
  | fuel + 1, gap, lineEnded, c =>
    let run := if c.sees (· = '#') then [] else plainRun flow c.rest
    if run.isEmpty then ([], c, lineEnded)
    else
      let (next, c, lineEnded) := plainGap (c.skip run.length)
      if next.isEmpty || c.sees (· = '#') || (!flow && c.column < indent) then
        (gap ++ run, c, lineEnded)
      else
        let (text, c, lineEnded) := plainRest flow indent fuel next lineEnded c
        (gap ++ run ++ text, c, lineEnded)

/-- The plain scalar in front, the place after it and the blanks that follow, and whether a line
ended there. -/
def readPlain (flow : Bool) (indent : Int) (c : Cursor) : List Char × Cursor × Bool :=
  plainRest flow indent (c.rest.length + 1) [] false c

/-! ## Blocks -/

/-- What becomes of the line breaks at the end of a block. -/
inductive Chomping where
  | strip
  | clip
  | keep
  deriving DecidableEq, Repr

/-- The marks after the one that starts a block: chomping and indentation, in any order. -/
def blockMarks (c : Cursor) : Except LoadFault (Chomping × Option Nat × Cursor) := do
  let chomping? : Cursor → Option (Chomping × Cursor) := fun c =>
    match c.rest with
    | '+' :: _ => some (.keep, c.advance)
    | '-' :: _ => some (.strip, c.advance)
    | _ => none
  let indent? : Cursor → Except LoadFault (Option Nat × Cursor) := fun c =>
    match c.rest with
    | ch :: _ =>
      if ch = '0' then .error (.malformed "an indentation of zero")
      else if '1' ≤ ch ∧ ch ≤ '9' then .ok (some (ch.toNat - 0x30), c.advance)
      else .ok (none, c)
    | [] => .ok (none, c)
  let (chomping, indent, c) ←
    match chomping? c with
    | some (chomping, c) => do
      let (indent, c) ← indent? c
      pure (chomping, indent, c)
    | none => do
      let (indent, c) ← indent? c
      match indent, chomping? c with
      | some n, some (chomping, c) => pure (chomping, some n, c)
      | indent, _ => pure (.clip, indent, c)
  if c.endsAt fun ch => ch = ' ' || isBreak ch then .ok (chomping, indent, c)
  else .error (.malformed "an unknown mark of a block")

/-- The place after the rest of a line that may hold nothing but a comment. -/
def skipEmptyLine (c : Cursor) : Except LoadFault Cursor :=
  let c := (c.dropWhile isSpace).skipComment
  if c.endsAt isBreak then .ok ((c.lineBreak?.map (·.2)).getD c)
  else .error (.malformed "text where only a comment may stand")

/-- The place after blanks, up to a column. -/
def skipIndent (indent : Nat) (c : Cursor) : Cursor :=
  c.skip (min (c.rest.takeWhile isSpace).length (indent - c.column))

/-- The line breaks in front, with the indentation of the lines between them. -/
def blockBreaks (indent : Nat) : (fuel : Nat) → Cursor → Read
  | 0, c => ([], skipIndent indent c)
  | fuel + 1, c =>
    let c := skipIndent indent c
    match c.lineBreak? with
    | some (br, c) =>
      let (breaks, c) := blockBreaks indent fuel c
      (br :: breaks, c)
    | none => ([], c)

/-- The line breaks and blanks in front, and the largest column reached by blanks. -/
def blockLead : (fuel : Nat) → (widest : Nat) → Cursor → List Char × Nat × Cursor
  | 0, widest, c => ([], widest, c)
  | fuel + 1, widest, c =>
    if c.sees isSpace then
      let c := c.advance
      blockLead fuel (max widest c.column) c
    else
      match c.lineBreak? with
      | some (br, c) =>
        let (breaks, widest, c) := blockLead fuel widest c
        (br :: breaks, widest, c)
      | none => ([], widest, c)

/-- The lines of a block at column `indent`: their text, the last line break, the line breaks after
it, and the place after them. -/
def blockLines (folded : Bool) (indent : Nat) :
    (fuel : Nat) → (breaks : List Char) → Cursor → List Char × List Char × List Char × Cursor
  | 0, breaks, c => ([], [], breaks, c)
  | fuel + 1, breaks, c =>
    if c.column = indent ∧ c.rest ≠ [] then
      let flush := !c.sees isBlankOrTab
      let (run, c) := c.takeWhile (!isBreak ·)
      let (br, c) :=
        match c.lineBreak? with
        | some (br, c) => ([br], c)
        | none => ([], c)
      let (next, c) := blockBreaks indent c.rest.length c
      if c.column = indent ∧ c.rest ≠ [] then
        let glue :=
          if folded && br = ['\n'] && flush && !c.sees isBlankOrTab then
            if next.isEmpty then [' '] else []
          else br
        let (text, rest) := blockLines folded indent fuel next c
        (breaks ++ run ++ glue ++ text, rest)
      else (breaks ++ run, br, next, c)
    else ([], [], breaks, c)

/-- The block whose mark is in front, in a collection at column `parent`. -/
def readBlock (folded : Bool) (parent : Int) (c : Cursor) : Except LoadFault Read := do
  let (chomping, increment?, c) ← blockMarks c.advance
  let c ← skipEmptyLine c
  let least := (max (parent + 1) 1).toNat
  let (indent, breaks, c) :=
    match increment? with
    | some n =>
      let indent := least + n - 1
      let (breaks, c) := blockBreaks indent c.rest.length c
      (indent, breaks, c)
    | none =>
      let (breaks, widest, c) := blockLead c.rest.length 0 c
      (max least widest, breaks, c)
  let (text, br, breaks, c) := blockLines folded indent (c.rest.length + 1) breaks c
  .ok (text ++ (match chomping with
    | .strip => []
    | .clip => br
    | .keep => br ++ breaks), c)

end Yaml
end RefPages
