/-!
# Lines

* `isLineBoundary`: the characters that end a line; a carriage return and a line feed together end
  one line.
* `splitLines` cuts a text at them, with no empty piece after a final one.
* `unifyNewlines` turns every carriage return, with or without a line feed, into a line feed.
* `joinWith` puts a separator between pieces; `joinLines` is the case of the line feed.
-/

set_option autoImplicit false
namespace RefPages
namespace Text

/-- The characters that end a line. -/
def isLineBoundary (c : Char) : Bool :=
  c ∈ ['\n', '\r', '\x0b', '\x0c', '\x1c', '\x1d', '\x1e', '\x85', '\u2028', '\u2029']

/-- The lines of a text, without the characters that end them. -/
def splitLines : List Char → List (List Char)
  | [] => []
  | '\r' :: '\n' :: rest => [] :: splitLines rest
  | c :: rest =>
    if isLineBoundary c then [] :: splitLines rest
    else
      match splitLines rest with
      | [] => [[c]]
      | line :: lines => (c :: line) :: lines

/-- The lines of a text. -/
def lines (s : String) : List String :=
  (splitLines s.toList).map String.ofList

/-- The text with every line ending of its own kind written as a line feed. -/
def unifyNewlines : List Char → List Char
  | [] => []
  | '\r' :: '\n' :: rest => '\n' :: unifyNewlines rest
  | '\r' :: rest => '\n' :: unifyNewlines rest
  | c :: rest => c :: unifyNewlines rest

/-- The pieces with `sep` between them. -/
def joinWith (sep : String) : List String → String
  | [] => ""
  | [piece] => piece
  | piece :: next :: rest => piece ++ sep ++ joinWith sep (next :: rest)

/-- The lines with a line feed between them. -/
def joinLines (pieces : List String) : String :=
  joinWith "\n" pieces

@[simp] theorem joinWith_nil (sep : String) : joinWith sep [] = "" := rfl

@[simp] theorem joinWith_singleton (sep piece : String) : joinWith sep [piece] = piece := rfl

theorem joinWith_cons_cons (sep piece next : String) (rest : List String) :
    joinWith sep (piece :: next :: rest) = piece ++ sep ++ joinWith sep (next :: rest) := rfl

theorem joinWith_ne_empty {sep piece : String} (h : piece ≠ "") (rest : List String) :
    joinWith sep (piece :: rest) ≠ "" := by
  cases rest with
  | nil => exact h
  | cons next rest =>
    rw [joinWith_cons_cons]
    simp [h]

end Text
end RefPages
