import RefPages.Source.Scan

/-!
# Expectations

The statements shown as usage are those that start with a call of `expect` and go on after it.

* `statementRest?` reads such a statement after its `expect(`. It is cut into tokens, each a literal
  between double quotes or one other character, up to the first semicolon that is no token; it is
  taken when some closing parenthesis among the tokens has a further token after it.
* `expectations` are the statements of a text, from the left, one after the other.
-/

set_option autoImplicit false
namespace RefPages
namespace Source

open Text

/-- How far a statement has been read. -/
inductive Progress where
  | arguments
  | closed
  | chained
  deriving DecidableEq, Repr

/-- How far it has been read after one more token; `closes` says that it is a closing
parenthesis. -/
def Progress.next (closes : Bool) : Progress → Progress
  | .arguments => if closes then .closed else .arguments
  | .closed => .chained
  | .chained => .chained

/-- What the characters of a statement belong to. -/
inductive StatementPart where
  | code
  | literal
  | escape
  deriving DecidableEq, Repr

/-- The statement in front, through its semicolon, and what follows. A line feed cannot be escaped
inside a literal. -/
def statementRest? (progress : Progress) (part : StatementPart) :
    List Char → Option (List Char × List Char)
  | [] => none
  | c :: rest =>
    let more := fun progress part =>
      (statementRest? progress part rest).map fun (text, rest) => (c :: text, rest)
    match part with
    | .code =>
      if c = ';' then if progress = .chained then some ([c], rest) else none
      else if c = '"' then more progress .literal
      else more (progress.next (c = ')')) .code
    | .literal =>
      if c = '"' then more (progress.next false) .code
      else if c = '\\' then more progress .escape
      else more progress .literal
    | .escape => if c = '\n' then none else more progress .literal

theorem eq_append_of_statementRest? {progress : Progress} {part : StatementPart}
    {cs text rest : List Char} (h : statementRest? progress part cs = some (text, rest)) :
    cs = text ++ rest := by
  induction cs generalizing progress part text with
  | nil => simp [statementRest?] at h
  | cons c tail ih =>
    have key : ∀ {progress part} {text : List Char},
        (statementRest? progress part tail).map (fun (t, r) => (c :: t, r)) = some (text, rest) →
          c :: tail = text ++ rest := by
      intro progress part text h
      obtain ⟨⟨t, r⟩, h1, h2⟩ := Option.map_eq_some_iff.1 h
      simp only [Prod.mk.injEq] at h2
      obtain ⟨rfl, rfl⟩ := h2
      simp [ih h1]
    simp only [statementRest?] at h
    split at h
    · split at h
      · simp only [Option.ite_none_right_eq_some, Option.some.injEq, Prod.mk.injEq] at h
        simp [← h.2.1, h.2.2]
      · split at h <;> exact key h
    · split at h
      · exact key h
      · split at h <;> exact key h
    · split at h
      · simp at h
      · exact key h

/-- The statement in front, and what follows. -/
def expectationAt? (cs : List Char) : Option (List Char × List Char) := do
  let after ← skip? "expect(" cs
  let (text, rest) ← statementRest? .arguments .code after
  some ("expect(".toList ++ text, rest)

theorem length_of_expectationAt? {cs text rest : List Char}
    (h : expectationAt? cs = some (text, rest)) : rest.length < cs.length := by
  simp only [expectationAt?, Option.bind_eq_bind, Option.bind_eq_some_iff, Prod.exists,
    Option.some.injEq, Prod.mk.injEq] at h
  obtain ⟨after, h1, t, r, h2, -, rfl⟩ := h
  have h1 := length_of_skip? h1
  have h2 := congrArg List.length (eq_append_of_statementRest? h2)
  have h7 : "expect(".toList.length = 7 := by decide
  simp only [List.length_append] at h2
  omega

/-- The statements of a text; `inWord` says that it follows a word character, where `expect` is no
word of its own. -/
def expectations (inWord : Bool) (cs : List Char) : List (List Char) :=
  match _h : (if inWord then none else expectationAt? cs) with
  | some (text, rest) => text :: expectations false rest
  | none =>
    match cs with
    | [] => []
    | c :: rest => expectations (isWordChar c) rest
termination_by cs.length
decreasing_by
  · split at _h
    · simp at _h
    · exact length_of_expectationAt? _h
  · simp

end Source
end RefPages
