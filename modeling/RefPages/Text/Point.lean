/-!
# Points

An escape can name half of a surrogate pair. Such a half is no character, so a text that is built
from escapes is a list of points.

* `Point` is a character or half of a pair, and `Point.ofCode?` the point of a code.
* `points` are those of a string. `chars?` are the characters of points that are nothing else;
  `chars?_map_char` says that they are read back.
-/

set_option autoImplicit false
namespace RefPages
namespace Text

/-- A character, or half of a surrogate pair: `half n` is the code `0xD800 + n`. -/
inductive Point where
  | char (c : Char)
  | half (n : Fin 0x800)
  deriving DecidableEq, Repr

namespace Point

/-- The code of a point. -/
def code : Point → Nat
  | char c => c.toNat
  | half n => 0xD800 + n.val

/-- The point of a code, if there is one. -/
def ofCode? (n : Nat) : Option Point :=
  if n < 0x110000 then
    if 0xD800 ≤ n ∧ n ≤ 0xDFFF then some (half (Fin.ofNat 0x800 (n - 0xD800)))
    else some (char (Char.ofNat n))
  else none

/-- The character that a point is. -/
def char? : Point → Option Char
  | char c => some c
  | half _ => none

end Point

/-- The points of a string. -/
def points (s : String) : List Point :=
  s.toList.map .char

/-- The characters of a text without halves of pairs. -/
def chars? (ps : List Point) : Option (List Char) :=
  ps.mapM Point.char?

theorem chars?_map_char (cs : List Char) : chars? (cs.map .char) = some cs := by
  induction cs with
  | nil => rfl
  | cons c cs ih => simp_all [chars?, Point.char?]

end Text
end RefPages
