import RefPages.Source.TypeList
import RefPages.Text.LowerCase

/-!
# Other names of an operation

* `aliasAt?` reads `alias X = Y`.
* `aliasPairs` are the names and targets in a text, from the left; the search goes on after a
  target, so a target is not read as the start of a further alias.
* `aliases` are the names given to a target, letter case of the target aside.
-/

set_option autoImplicit false
namespace RefPages
namespace Source

open Text

/-- The name and the target of the alias in front, and what follows. -/
def aliasAt? (cs : List Char) : Option ((List Char × List Char) × List Char) := do
  let cs ← skip? "alias" cs
  let cs ← someBlanks? cs
  let (name, cs) ← word? cs
  let cs ← skip? "=" (skipBlanks cs)
  let (target, cs) ← word? (skipBlanks cs)
  some ((name, target), cs)

theorem length_of_aliasAt? {cs rest : List Char} {pair : List Char × List Char}
    (h : aliasAt? cs = some (pair, rest)) : rest.length < cs.length := by
  simp only [aliasAt?, Option.bind_eq_bind, Option.bind_eq_some_iff, Prod.exists,
    Option.some.injEq, Prod.mk.injEq] at h
  obtain ⟨c1, h1, c2, h2, name, c3, h3, c4, h4, target, c5, h5, -, rfl⟩ := h
  have := length_of_skip? h1
  have := length_of_someBlanks? h2
  have := length_of_word? h3
  have := length_of_skip? h4
  have := length_of_word? h5
  have := length_skipBlanks_le c3
  have := length_skipBlanks_le c4
  omega

/-- The names and targets of the aliases in a text; `inWord` says that it follows a word character,
where `alias` is no word of its own. -/
def aliasPairs (inWord : Bool) (cs : List Char) : List (List Char × List Char) :=
  match _h : (if inWord then none else aliasAt? cs) with
  | some (pair, rest) => pair :: aliasPairs true rest
  | none =>
    match cs with
    | [] => []
    | c :: rest => aliasPairs (isWordChar c) rest
termination_by cs.length
decreasing_by
  · split at _h
    · simp at _h
    · exact length_of_aliasAt? _h
  · simp

/-- The other names of the operation `name`. -/
def aliases (name : String) (cs : List Char) : List String :=
  let target := lowerCase name
  let named := (aliasPairs false cs).filter fun pair =>
    lowerCase (String.ofList pair.2) = target && String.ofList pair.1 ≠ name
  distinct (named.map fun pair => String.ofList pair.1)

end Source
end RefPages
