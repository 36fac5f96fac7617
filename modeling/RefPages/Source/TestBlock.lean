import RefPages.Source.Scan

/-!
# Labelled blocks of tests

A block of tests is `@("label")`, attributes, `unittest` and a body in braces.

* `closeBlock?` reads the body up to the brace that closes it, passing over braces inside literals
  and comments.
* `header?` reads everything up to the opening brace.
* `testBlocks` are the labels and bodies of the blocks in a text, from the left, one after the
  other. It stops at a block that is never closed.
-/

set_option autoImplicit false
namespace RefPages
namespace Source

open Text

/-! ## The body -/

/-- What the characters of a body belong to. -/
inductive BodyPart where
  | code
  | literal (quote : Char)
  | escape (quote : Char)
  | lineComment
  | blockComment
  deriving DecidableEq, Repr

/-- Is `c` one of the three quotes that open a literal? -/
def isQuote (c : Char) : Bool :=
  c = '"' || c = '\'' || c = '\x60'

/-- Puts a character in front of a body that has been read. -/
def consBody (c : Char) (result : Option (List Char × List Char)) :
    Option (List Char × List Char) :=
  result.map fun (body, rest) => (c :: body, rest)

/-- The body in front, inside `depth` further braces, and what follows the brace that closes it. A
backslash in a literal takes the next character with it, except between backticks. -/
def closeBlock? : (part : BodyPart) → (depth : Nat) → List Char → Option (List Char × List Char)
  | _, _, [] => none
  | .code, depth, '/' :: '/' :: rest =>
    consBody '/' (consBody '/' (closeBlock? .lineComment depth rest))
  | .code, depth, '/' :: '*' :: rest =>
    consBody '/' (consBody '*' (closeBlock? .blockComment depth rest))
  | .code, depth, c :: rest =>
    if isQuote c then consBody c (closeBlock? (.literal c) depth rest)
    else if c = '\x7b' then consBody c (closeBlock? .code (depth + 1) rest)
    else if c = '\x7d' then
      match depth with
      | 0 => some ([], rest)
      | depth + 1 => consBody c (closeBlock? .code depth rest)
    else consBody c (closeBlock? .code depth rest)
  | .literal quote, depth, c :: rest =>
    if c = '\\' ∧ quote ≠ '\x60' then consBody c (closeBlock? (.escape quote) depth rest)
    else if c = quote then consBody c (closeBlock? .code depth rest)
    else consBody c (closeBlock? (.literal quote) depth rest)
  | .escape quote, depth, c :: rest => consBody c (closeBlock? (.literal quote) depth rest)
  | .lineComment, depth, c :: rest =>
    consBody c (closeBlock? (if c = '\n' then .code else .lineComment) depth rest)
  | .blockComment, depth, '*' :: '/' :: rest =>
    consBody '*' (consBody '/' (closeBlock? .code depth rest))
  | .blockComment, depth, c :: rest => consBody c (closeBlock? .blockComment depth rest)

theorem consBody_eq_some_iff {c : Char} {result : Option (List Char × List Char)}
    {body rest : List Char} :
    consBody c result = some (body, rest) ↔
      ∃ tail, body = c :: tail ∧ result = some (tail, rest) := by
  cases result with
  | none => simp [consBody]
  | some p =>
    simp only [consBody, Option.map_some, Option.some.injEq, Prod.mk.injEq]
    constructor
    · rintro ⟨rfl, rfl⟩
      exact ⟨p.1, rfl, rfl⟩
    · rintro ⟨tail, rfl, rfl⟩
      exact ⟨rfl, rfl⟩

/-- A closed body, its brace and the rest are the whole text. -/
theorem eq_append_of_closeBlock? {part : BodyPart} {depth : Nat} {cs body rest : List Char}
    (h : closeBlock? part depth cs = some (body, rest)) : cs = body ++ '\x7d' :: rest := by
  fun_induction closeBlock? part depth cs generalizing body <;>
    simp_all [consBody_eq_some_iff] <;> grind

theorem length_of_closeBlock? {part : BodyPart} {depth : Nat} {cs body rest : List Char}
    (h : closeBlock? part depth cs = some (body, rest)) : rest.length < cs.length := by
  rw [eq_append_of_closeBlock? h]
  simp
  omega

/-! ## The header -/

/-- What follows the opening brace, after attributes and the keyword. The keyword may also be the
end of the last attribute's word. -/
def opening? (cs : List Char) : Option (List Char) :=
  match cs with
  | '@' :: tail =>
    match _h : word? tail with
    | none => none
    | some (word, rest) =>
      if "unittest".toList.isSuffixOf word && word.length > 8
          && (skip? "\x7b" (skipBlanks rest)).isSome
      then skip? "\x7b" (skipBlanks rest)
      else opening? (skipBlanks rest)
  | cs => (skip? "unittest" cs).bind fun rest => skip? "\x7b" (skipBlanks rest)
termination_by cs.length
decreasing_by
  have := length_of_word? _h
  have := length_skipBlanks_le rest
  simp only [List.length_cons]
  omega

/-- The label of the header in front, and what follows its brace. -/
def header? (cs : List Char) : Option (List Char × List Char) := do
  let cs ← skip? "@(\"" cs
  let label := cs.takeWhile (· != '"')
  if label.isEmpty then none
  let cs ← skip? "\")" (cs.dropWhile (· != '"'))
  let cs ← opening? (skipBlanks cs)
  some (label, cs)

theorem length_of_opening? {cs rest : List Char} (h : opening? cs = some rest) :
    rest.length < cs.length := by
  fun_induction opening? cs with
  | case1 => simp at h
  | case2 tail word after hw _ =>
    have := length_of_word? hw
    have := length_skipBlanks_le after
    have := length_of_skip? h
    simp only [List.length_cons]
    omega
  | case3 tail word after hw _ ih =>
    have := length_of_word? hw
    have := length_skipBlanks_le after
    have := ih h
    simp only [List.length_cons]
    omega
  | case4 cs _ =>
    obtain ⟨after, h1, h2⟩ := Option.bind_eq_some_iff.1 h
    have := length_of_skip? h1
    have := length_skipBlanks_le after
    have := length_of_skip? h2
    have h8 : "unittest".toList.length = 8 := by decide
    omega

theorem length_of_header? {cs label rest : List Char} (h : header? cs = some (label, rest)) :
    rest.length < cs.length := by
  simp only [header?, Option.bind_eq_bind, Option.bind_eq_some_iff] at h
  obtain ⟨c1, h1, h⟩ := h
  split at h
  · simp at h
  · simp only [Option.bind_eq_some_iff, Option.some.injEq,
      Prod.mk.injEq] at h
    obtain ⟨c2, h2, c3, h3, -, rfl⟩ := h
    have := length_of_skip? h1
    have := length_dropWhile_le (· != '"') c1
    have := length_of_skip? h2
    have := length_skipBlanks_le c2
    have := length_of_opening? h3
    omega

/-! ## All blocks -/

/-- The labels and bodies of the blocks in a text. -/
def testBlocks (cs : List Char) : List (List Char × List Char) :=
  match _h : findFirst header? cs with
  | none => []
  | some (label, inner) =>
    match _h' : closeBlock? .code 0 inner with
    | none => []
    | some (body, rest) => (label, body) :: testBlocks rest
termination_by cs.length
decreasing_by
  obtain ⟨tail, ht, hh⟩ := exists_of_findFirst _h
  have := ht.length_le
  have := length_of_header? hh
  have := length_of_closeBlock? _h'
  omega

end Source
end RefPages
