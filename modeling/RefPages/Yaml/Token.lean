import RefPages.Decimal.Limit
import RefPages.Text.Utf8
import RefPages.Yaml.ScalarReader

/-!
# Tokens

A text of YAML is cut into tokens. Indentation becomes start and end tokens of block collections,
and a simple key, which is only known as a key when its colon is met, gets its key token put in
front of it afterwards. A text that cannot be cut to its end has tokens all the same: those that are
settled before the fault is met.

* `Token` is the type of tokens.
* `TokenState` is the state between two tokens: the place, the tokens so far, the open indentations,
  and for every open bracket the place where a simple key may have started.
* `Scan` holds the tokens of a text and the fault behind them; `Scan.ofChars` gives them.
-/

set_option autoImplicit false
namespace RefPages
namespace Yaml

open Text

/-- A directive in front of a document. -/
inductive Directive where
  | version (major : Nat)
  | tagHandle (handle uri : String)
  | reserved
  deriving DecidableEq, Repr

/-- The tokens of YAML. -/
inductive Token where
  | directive (d : Directive)
  | documentStart
  | documentEnd
  | blockSequenceStart
  | blockMappingStart
  | blockEnd
  | flowSequenceStart
  | flowSequenceEnd
  | flowMappingStart
  | flowMappingEnd
  | blockEntry
  | flowEntry
  | key
  | value
  | reference (name : String)
  | anchor (name : String)
  | tag (handle? : Option String) (suffix : String)
  | scalar (text : List Point) (plain : Bool)
  deriving DecidableEq, Repr

/-- The token of a scalar that is a text of characters. -/
def Token.ofChars (text : List Char) (plain : Bool) : Token :=
  .scalar (text.map .char) plain

/-! ## Names, tags and directives -/

/-- A character of an anchor's or a handle's name. -/
def isNameChar (c : Char) : Bool :=
  c.isAlphanum || c = '-' || c = '_'

/-- A character of a tag. -/
def isUriChar (c : Char) : Bool :=
  c.isAlphanum || c ∈ "-;/?:@&=+$,_.!~*'()[]%".toList

/-- The bytes that a run of `%` escapes in front stands for. -/
def uriBytes : (fuel : Nat) → List Char → Except LoadFault (List UInt8)
  | fuel + 1, '%' :: rest =>
    match hexNumber? (rest.take 2) with
    | some n =>
      if 2 ≤ rest.length then do
        let bytes ← uriBytes fuel (rest.drop 2)
        .ok (UInt8.ofNat n :: bytes)
      else .error (.malformed "an escape with too few digits")
    | none => .error (.malformed "an escape with a character that is no digit")
  | _, _ => .ok []

/-- The text of a tag, its escapes resolved. -/
def uriText : (fuel : Nat) → List Char → Except LoadFault (List Char)
  | _, [] => .ok []
  | 0, _ => .ok []
  | fuel + 1, c :: rest =>
    if c = '%' then do
      let bytes ← uriBytes (rest.length + 1) (c :: rest)
      match utf8Decode bytes with
      | .ok text => do
        let more ← uriText fuel (rest.drop (3 * bytes.length - 1))
        .ok (text ++ more)
      | .error _ => .error (.malformed "escapes that are no text")
    else do
      let more ← uriText fuel rest
      .ok (c :: more)

/-- The tag text in front, not empty. -/
def readUri (c : Cursor) : Except LoadFault (String × Cursor) := do
  let (run, c) := c.takeWhile isUriChar
  if run.isEmpty then .error (.malformed "a tag without text")
  else
    let text ← uriText run.length run
    .ok (String.ofList text, c)

/-- The tag handle in front: an exclamation mark, or a name between two. -/
def readHandle (c : Cursor) : Except LoadFault (String × Cursor) :=
  match c.rest with
  | '!' :: ' ' :: _ => .ok ("!", c.advance)
  | '!' :: rest =>
    let name := rest.takeWhile isNameChar
    match rest.drop name.length with
    | '!' :: _ => .ok (String.ofList ('!' :: name ++ ['!']), c.skip (name.length + 2))
    | _ => .error (.malformed "a tag handle without its second mark")
  | _ => .error (.malformed "no tag handle where one is needed")

/-- A blank or a line break: what ends a tag. -/
def isTagEnd (c : Char) : Bool :=
  c = ' ' || isBreak c

/-- The tag in front. -/
def readTag (c : Cursor) : Except LoadFault (Token × Cursor) := do
  let tail := c.rest.drop 1
  let (token, c) ←
    match tail with
    | '<' :: _ => do
      let (uri, c) ← readUri (c.skip 2)
      if c.sees (· = '>') then pure (Token.tag none uri, c.advance)
      else .error (.malformed "a tag in angle brackets that is not closed")
    | _ =>
      if atSeparator tail then pure (Token.tag none "!", c.advance)
      else if '!' ∈ tail.takeWhile (!isTagEnd ·) then do
        let (handle, c) ← readHandle c
        let (uri, c) ← readUri c
        pure (Token.tag (some handle) uri, c)
      else do
        let (uri, c) ← readUri c.advance
        pure (Token.tag (some "!") uri, c)
  if c.endsAt isTagEnd then .ok (token, c) else .error (.malformed "a tag that does not end")

/-- The name of the anchor or reference in front. -/
def readName (c : Cursor) : Except LoadFault (String × Cursor) :=
  let (name, c) := c.advance.takeWhile isNameChar
  if name.isEmpty then .error (.malformed "an anchor without a name")
  else if c.endsAt fun ch => isSeparator ch || ch ∈ "?:,]\x7d%@\x60".toList then
    .ok (String.ofList name, c)
  else .error (.malformed "an anchor that does not end")

/-- The number in front, which is limited in its digits as any number is. -/
def readNumber (c : Cursor) : Except LoadFault (Nat × Cursor) :=
  let (digits, c) := c.takeWhile fun ch => '0' ≤ ch && ch ≤ '9'
  if digits.isEmpty then .error (.malformed "no number where one is needed")
  else if Decimal.digitLimit < digits.length then
    .error (.value (.tooManyDigits digits.length))
  else .ok (digits.foldl (fun n ch => 10 * n + (ch.toNat - 0x30)) 0, c)

/-- The directive in front, and the place after its line. -/
def readDirective (c : Cursor) : Except LoadFault (Token × Cursor) := do
  let (name, c) := c.advance.takeWhile isNameChar
  if name.isEmpty || !c.endsAt isTagEnd then .error (.malformed "a directive without a name")
  else
    let (directive, c) ←
      if name = "YAML".toList then do
        let (major, c) ← readNumber (c.dropWhile isSpace)
        if !c.sees (· = '.') then .error (.malformed "a version without a full stop")
        else
          let (_, c) ← readNumber c.advance
          if c.endsAt isTagEnd then pure (Directive.version major, c)
          else .error (.malformed "a version that does not end")
      else if name = "TAG".toList then do
        let (handle, c) ← readHandle (c.dropWhile isSpace)
        if !c.sees isSpace then .error (.malformed "a tag handle that does not end")
        else
          let (uri, c) ← readUri (c.dropWhile isSpace)
          if c.endsAt isTagEnd then pure (Directive.tagHandle handle uri, c)
          else .error (.malformed "a tag that does not end")
      else pure (Directive.reserved, c.dropWhile (!isBreak ·))
    let c ← skipEmptyLine c
    .ok (.directive directive, c)

/-! ## Between two tokens -/

/-- Where a simple key may have started: how many tokens came before it, and its place. A required
key is one without which the text would make no sense. -/
structure KeyStart where
  before : Nat
  required : Bool
  index : Nat
  line : Nat
  column : Nat
  deriving DecidableEq, Repr

/-- The state between two tokens. `keys` holds an entry for the block level and one for every open
bracket, the innermost first. -/
structure TokenState where
  cursor : Cursor
  tokens : List Token := []
  indent : Int := -1
  indents : List Int := []
  keys : List (Option KeyStart) := [none]
  keyAllowed : Bool := true
  deriving DecidableEq, Repr

namespace TokenState

/-- Is the place inside brackets? -/
def inFlow (s : TokenState) : Bool :=
  1 < s.keys.length

/-- The state with one more token. -/
def emit (s : TokenState) (t : Token) : TokenState :=
  { s with tokens := s.tokens ++ [t] }

/-- The state at another place. -/
def moveTo (s : TokenState) (c : Cursor) : TokenState :=
  { s with cursor := c }

/-- Has the key start been left behind: on an earlier line, or more than 1024 characters back? -/
def isStale (s : TokenState) (k : KeyStart) : Bool :=
  k.line != s.cursor.line || s.cursor.index - k.index > 1024

/-- The state without the key starts that have been left behind. -/
def dropStale (s : TokenState) : Except LoadFault TokenState :=
  if s.keys.any (·.any fun k => s.isStale k && k.required) then
    .error (.malformed "a key without its colon")
  else .ok { s with keys := s.keys.map (·.filter (!s.isStale ·)) }

/-- The state without a key start at this level. -/
def dropKey (s : TokenState) : Except LoadFault TokenState :=
  match s.keys with
  | some k :: rest =>
    if k.required then .error (.malformed "a key without its colon")
    else .ok { s with keys := none :: rest }
  | _ => .ok s

/-- The state in which a simple key may start here, if one is allowed. -/
def saveKey (s : TokenState) : Except LoadFault TokenState :=
  if s.keyAllowed then do
    let required := !s.inFlow && s.indent == s.cursor.column
    let s ← s.dropKey
    let k : KeyStart :=
      ⟨s.tokens.length, required, s.cursor.index, s.cursor.line, s.cursor.column⟩
    .ok { s with keys := some k :: s.keys.drop 1 }
  else .ok s

/-- The innermost indentation that is not deeper than `column`, the ones around it, and how many
were left. -/
def outdent (column : Int) : (indent : Int) → (outer : List Int) → Int × List Int × Nat
  | indent, [] => (indent, [], 0)
  | indent, next :: outer =>
    if column < indent then
      let (indent, outer, count) := outdent column next outer
      (indent, outer, count + 1)
    else (indent, next :: outer, 0)

/-- Closes the block collections that are indented deeper than `column`. -/
def unwind (s : TokenState) (column : Int) : TokenState :=
  if s.inFlow then s
  else
    let (indent, indents, count) := outdent column s.indent s.indents
    { s with indent, indents, tokens := s.tokens ++ List.replicate count .blockEnd }

/-- The state with a further indentation, if `column` is deeper than the current one. -/
def indentTo? (s : TokenState) (column : Nat) : Option TokenState :=
  if s.indent < column then some { s with indent := column, indents := s.indent :: s.indents }
  else none

/-- The state in which a block collection has been opened here, if this place is deeper. -/
def openBlock (s : TokenState) (start : Token) : TokenState :=
  match s.indentTo? s.cursor.column with
  | some s => s.emit start
  | none => s

/-! ### The kinds of token -/

/-- A mark that closes all blocks: a directive or the start or end of a document. -/
def leaveBlocks (s : TokenState) : Except LoadFault TokenState := do
  let s ← (s.unwind (-1)).dropKey
  .ok { s with keyAllowed := false }

/-- An opening bracket. -/
def openFlow (s : TokenState) (start : Token) : Except LoadFault TokenState := do
  let s ← s.saveKey
  .ok ({ s with keys := none :: s.keys, keyAllowed := true }.moveTo s.cursor.advance |>.emit start)

/-- A closing bracket. -/
def closeFlow (s : TokenState) (stop : Token) : Except LoadFault TokenState := do
  let s ← s.dropKey
  if s.inFlow then
    .ok ({ s with keys := s.keys.drop 1, keyAllowed := false }.moveTo s.cursor.advance |>.emit stop)
  else .error (.malformed "a closing bracket without an opening one")

/-- A comma between entries in brackets. -/
def flowEntry (s : TokenState) : Except LoadFault TokenState := do
  let s ← s.dropKey
  .ok ({ s with keyAllowed := true }.moveTo s.cursor.advance |>.emit .flowEntry)

/-- The dash of a block entry. -/
def blockEntry (s : TokenState) : Except LoadFault TokenState :=
  if !s.inFlow && !s.keyAllowed then .error (.malformed "an entry where none may stand")
  else do
    let s := if s.inFlow then s else s.openBlock .blockSequenceStart
    let s ← s.dropKey
    .ok ({ s with keyAllowed := true }.moveTo s.cursor.advance |>.emit .blockEntry)

/-- The question mark of a key. -/
def explicitKey (s : TokenState) : Except LoadFault TokenState :=
  if !s.inFlow && !s.keyAllowed then .error (.malformed "a key where none may stand")
  else do
    let s := if s.inFlow then s else s.openBlock .blockMappingStart
    let s ← s.dropKey
    .ok ({ s with keyAllowed := !s.inFlow }.moveTo s.cursor.advance |>.emit .key)

/-- The colon of a value. If a simple key may have started, it did: its token is put in front of it,
and in front of that the start of the mapping if the key is its first. -/
def valueMark (s : TokenState) : Except LoadFault TokenState := do
  let s ←
    match s.keys with
    | some k :: rest =>
      let s := { s with keys := none :: rest }
      let (s, start) :=
        match if s.inFlow then none else s.indentTo? k.column with
        | some s => (s, [Token.blockMappingStart])
        | none => (s, [])
      pure { s with
        tokens := s.tokens.take k.before ++ start ++ [.key] ++ s.tokens.drop k.before
        keyAllowed := false }
    | _ =>
      if !s.inFlow && !s.keyAllowed then .error (.malformed "a value where none may stand")
      else do
        let s := if s.inFlow then s else s.openBlock .blockMappingStart
        let s ← { s with keyAllowed := !s.inFlow }.dropKey
        pure s
  .ok (s.moveTo s.cursor.advance |>.emit .value)

/-- A scalar, an anchor, a reference or a tag: anything that a simple key may start with. -/
def content (s : TokenState) (read : Cursor → Except LoadFault (Token × Cursor)) :
    Except LoadFault TokenState := do
  let s ← s.saveKey
  let (token, c) ← read s.cursor
  .ok ({ s with keyAllowed := false }.moveTo c |>.emit token)

/-- A plain scalar, after which a key may start again if a line has ended. -/
def plain (s : TokenState) : Except LoadFault TokenState := do
  let s ← s.saveKey
  let (text, c, lineEnded) := readPlain s.inFlow (s.indent + 1) s.cursor
  .ok ({ s with keyAllowed := lineEnded }.moveTo c |>.emit (.ofChars text true))

/-- A literal or folded block. -/
def block (s : TokenState) (folded : Bool) : Except LoadFault TokenState := do
  let s ← s.dropKey
  let (text, c) ← readBlock folded s.indent s.cursor
  .ok ({ s with keyAllowed := true }.moveTo c |>.emit (.ofChars text false))

/-! ### One step -/

/-- The place of the next token, and whether a line ended on the way. -/
def gap : (fuel : Nat) → (lineEnded : Bool) → Cursor → Cursor × Bool
  | 0, lineEnded, c => (c, lineEnded)
  | fuel + 1, lineEnded, c =>
    let c := (c.dropWhile isSpace).skipComment
    match c.lineBreak? with
    | some (_, c) => gap fuel true c
    | none => (c, lineEnded)

/-- The state before the next token. A line end allows a simple key again outside brackets. -/
def toNextToken (s : TokenState) : Except LoadFault TokenState := do
  let c := if s.cursor.index = 0 ∧ s.cursor.sees (· = '\ufeff') then s.cursor.advance else s.cursor
  let (c, lineEnded) := gap (c.rest.length + 1) false c
  let s ← { s with cursor := c, keyAllowed := s.keyAllowed || (lineEnded && !s.inFlow) }.dropStale
  .ok (s.unwind c.column)

/-- May a plain scalar start here? -/
def startsPlain (s : TokenState) (ch : Char) (rest : List Char) : Bool :=
  !(isSeparator ch || ch ∈ "-?:,[]\x7b\x7d#&*!|>'\"%@\x60".toList)
    || (!atSeparator rest && (ch = '-' || (!s.inFlow && (ch = '?' || ch = ':'))))

/-- The state after the token whose first character is `ch`. -/
def token (s : TokenState) (ch : Char) (rest : List Char) : Except LoadFault TokenState :=
  let c := s.cursor
  let quotedScalar := fun c => do
    let (text, c) ← readQuoted ch c
    .ok (Token.scalar text false, c)
  if ch = '%' && c.column = 0 then do
    let s ← s.leaveBlocks
    let (token, c) ← readDirective s.cursor
    .ok (s.moveTo c |>.emit token)
  else if c.column = 0 && c.atDocumentMark then do
    let s ← s.leaveBlocks
    .ok (s.moveTo (c.skip 3) |>.emit (if ch = '-' then .documentStart else .documentEnd))
  else if ch = '[' then s.openFlow .flowSequenceStart
  else if ch = '\x7b' then s.openFlow .flowMappingStart
  else if ch = ']' then s.closeFlow .flowSequenceEnd
  else if ch = '\x7d' then s.closeFlow .flowMappingEnd
  else if ch = ',' then s.flowEntry
  else if ch = '-' && atSeparator rest then s.blockEntry
  else if ch = '?' && (s.inFlow || atSeparator rest) then s.explicitKey
  else if ch = ':' && (s.inFlow || atSeparator rest) then s.valueMark
  else if ch = '*' then s.content fun c => do
    let (name, c) ← readName c
    .ok (.reference name, c)
  else if ch = '&' then s.content fun c => do
    let (name, c) ← readName c
    .ok (.anchor name, c)
  else if ch = '!' then s.content readTag
  else if ch = '|' && !s.inFlow then s.block false
  else if ch = '>' && !s.inFlow then s.block true
  else if ch = '\'' || ch = '"' then s.content quotedScalar
  else if s.startsPlain ch rest then s.plain
  else .error (.malformed "a character that starts no token")

/-- The state after the next token, and whether there is one. At the end of the text all blocks are
left. -/
def round (s : TokenState) : Except LoadFault (Bool × TokenState) := do
  let s ← s.toNextToken
  match s.cursor.rest with
  | [] => do
    let s ← s.leaveBlocks
    .ok (false, s)
  | ch :: rest => do
    let s ← s.token ch rest
    .ok (true, s)

/-- The tokens that are settled: no key token can be put in front of them any more. -/
def settled (s : TokenState) : List Token :=
  let starts := s.keys.filterMap (·.filter (!s.isStale ·))
  s.tokens.take (starts.foldl (fun count k => min count k.before) s.tokens.length)

end TokenState

/-- The tokens of a text, as far as it can be cut, and what keeps the rest from being cut. -/
structure Scan where
  tokens : List Token
  fault? : Option LoadFault := none
  deriving DecidableEq, Repr

/-- The tokens from a state to the end of the text. -/
def TokenState.run : (fuel : Nat) → TokenState → Scan
  | 0, s => ⟨s.settled, some (.malformed "a token without characters")⟩
  | fuel + 1, s =>
    match s.round with
    | .ok (true, s) => run fuel s
    | .ok (false, s) => { tokens := s.tokens }
    | .error fault => ⟨s.settled, some fault⟩

/-- May the character stand in a text of YAML at all? -/
def isReadable (c : Char) : Bool :=
  c = '\t' || c = '\n' || c = '\r' || (' ' ≤ c && c ≤ '~') || c = '\x85'
    || (0xA0 ≤ c.toNat && c.toNat ≤ 0xFFFD) || 0x10000 ≤ c.toNat

/-- The tokens of a text. A character that may not stand in it is met before all of them. -/
def Scan.ofChars (cs : List Char) : Scan :=
  if cs.all isReadable then TokenState.run (cs.length + 1) { cursor := { rest := cs } }
  else ⟨[], some (.malformed "a character that may not stand in the text")⟩

end Yaml
end RefPages
