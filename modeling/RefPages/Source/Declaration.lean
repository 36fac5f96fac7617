import RefPages.Source.Scan
import RefPages.Text.Lines
import RefPages.Text.Split

/-!
# The declaration of an operation and the comment on top of it

An operation is declared as `void name(ref Evaluation …)`.

* `declaration?` reads the declaration and gives the name; `identifier?` is the name of the first
  one in a text.
* `narrative?` is the text of the documentation comment that sits directly on top of a declaration:
  consecutive `///` lines, then a line that holds the declaration after any number of attributes.
  The topmost such comment counts, even when it is empty.
-/

set_option autoImplicit false
namespace RefPages
namespace Source

open Text

/-- The name declared by the declaration in front. -/
def declaration? (cs : List Char) : Option (List Char) := do
  let cs ← skip? "void" cs
  let cs ← someBlanks? cs
  let (name, cs) ← word? cs
  let cs ← skip? "(" (skipBlanks cs)
  let cs ← skip? "ref" (skipBlanks cs)
  let cs ← someBlanks? cs
  let cs ← skip? "Evaluation" cs
  if atWordEnd cs then some name else none

/-- The name of the first declaration. -/
def identifier? (cs : List Char) : Option (List Char) :=
  findFirst declaration? cs

/-! ## Attributes -/

/-- A blank or a tab: what a line may be indented with. -/
def isIndent (c : Char) : Bool :=
  c = ' ' || c = '\t'

/-- What follows an attribute's own text: `@word`, with an argument in parentheses that ends on the
same line if there is a parenthesis at all, or one of five keywords. -/
def attributeText? : List Char → Option (List Char)
  | '@' :: cs =>
    match word? cs with
    | none => none
    | some (_, '(' :: rest) =>
      match rest.dropWhile fun c => c != ')' && c != '\n' with
      | ')' :: rest => some rest
      | _ => none
    | some (_, rest) => some rest
  | cs => ["public", "package", "static", "pure", "nothrow"].findSome? (skip? · cs)

/-- What follows the blanks after an attribute, one line feed at most, and not nothing. -/
def attributeGap? (cs : List Char) : Option (List Char) :=
  match cs.dropWhile isIndent with
  | '\n' :: rest => some (rest.dropWhile isIndent)
  | rest => if rest.length < cs.length then some rest else none

/-- What follows an attribute and the blanks after it. -/
def attribute? (cs : List Char) : Option (List Char) :=
  (attributeText? cs).bind attributeGap?

theorem length_of_attributeText? {cs rest : List Char} (h : attributeText? cs = some rest) :
    rest.length ≤ cs.length := by
  unfold attributeText? at h
  split at h
  · rename_i tail
    split at h
    · simp at h
    · rename_i w tail' hw
      have h1 := length_of_word? hw
      split at h
      · rename_i tail'' hd
        simp only [Option.some.injEq] at h
        subst h
        have h2 := length_dropWhile_le (fun c => c != ')' && c != '\n') tail'
        rw [hd] at h2
        simp only [List.length_cons] at *
        omega
      · simp at h
    · rename_i hw
      simp only [Option.some.injEq] at h
      subst h
      have := length_of_word? hw
      simp only [List.length_cons]
      omega
  · obtain ⟨lit, -, hlit⟩ := List.exists_of_findSome?_eq_some h
    have := length_of_skip? hlit
    omega

theorem length_of_attributeGap? {cs rest : List Char} (h : attributeGap? cs = some rest) :
    rest.length < cs.length := by
  unfold attributeGap? at h
  split at h
  · rename_i tail hd
    simp only [Option.some.injEq] at h
    subst h
    have h1 := length_dropWhile_le isIndent cs
    have h2 := length_dropWhile_le isIndent tail
    rw [hd] at h1
    simp only [List.length_cons] at h1
    omega
  · simp only [Option.ite_none_right_eq_some, Option.some.injEq] at h
    rw [← h.2]
    exact h.1

theorem length_of_attribute? {cs rest : List Char} (h : attribute? cs = some rest) :
    rest.length < cs.length := by
  simp only [attribute?, Option.bind_eq_some_iff] at h
  obtain ⟨mid, h1, h2⟩ := h
  have := length_of_attributeText? h1
  have := length_of_attributeGap? h2
  omega

/-- Is there a declaration after any number of attributes? -/
def declares (cs : List Char) : Bool :=
  (declaration? cs).isSome ||
    match _h : attribute? cs with
    | some rest => declares rest
    | none => false
termination_by cs.length
decreasing_by exact length_of_attribute? _h

/-! ## The comment -/

/-- Is the line a documentation comment? -/
def isCommentLine (line : List Char) : Bool :=
  "///".toList.isPrefixOf (line.dropWhile isIndent)

/-- The characters of lines, with line feeds between them. -/
def unlines (lines : List (List Char)) : List Char :=
  ['\n'].intercalate lines

/-- The comment lines directly on top of a declaration; `run` are the comment lines just passed, the
last one first. -/
def commentRun? (run : List (List Char)) : List (List Char) → Option (List (List Char))
  | [] => none
  | line :: rest =>
    if isCommentLine line then commentRun? (line :: run) rest
    else if !run.isEmpty && declares ((unlines (line :: rest)).dropWhile isIndent) then
      some run.reverse
    else commentRun? [] rest

/-- A comment line without its mark and the white space around it. -/
def commentText (line : List Char) : List Char :=
  let line := trim line
  trim (if "///".toList.isPrefixOf line then line.drop 3 else line)

/-- The text of the comment on top of a declaration, in one line; nothing if it is empty. -/
def narrative? (cs : List Char) : Option String := do
  let run ← commentRun? [] (splitOn '\n' cs)
  let pieces := (splitLines (unlines run)).map commentText
  match pieces.filter (!·.isEmpty) with
  | [] => none
  | pieces => some (joinWith " " (pieces.map String.ofList))

end Source
end RefPages
