/-!
# Hexadecimal numerals of fixed width

* `hexPadded` writes a number with a given count of digits, the most significant first.
* `hexValue?` reads one digit of either case, and `hexValue?_digit` says that it reads what is
  written; `hexNumber?` reads several.
-/

set_option autoImplicit false
namespace RefPages
namespace Text

/-- Which letters stand for the digits above nine. -/
inductive HexCase where
  | lower
  | upper
  deriving DecidableEq, Repr

/-- The digit of a value below sixteen. -/
def HexCase.digit (case : HexCase) (n : Nat) : Char :=
  if n < 10 then Char.ofNat (0x30 + n)
  else Char.ofNat ((match case with | .lower => 0x61 | .upper => 0x41) + (n - 10))

/-- The last `width` digits of `n`. -/
def hexPadded (case : HexCase) : (width : Nat) → (n : Nat) → List Char
  | 0, _ => []
  | width + 1, n => hexPadded case width (n / 16) ++ [case.digit (n % 16)]

@[simp] theorem length_hexPadded (case : HexCase) (width n : Nat) :
    (hexPadded case width n).length = width := by
  induction width generalizing n with
  | zero => rfl
  | succ width ih => simp [hexPadded, ih]

/-- The value of a hexadecimal digit. -/
def hexValue? (c : Char) : Option Nat :=
  if '0' ≤ c ∧ c ≤ '9' then some (c.toNat - 0x30)
  else if 'a' ≤ c ∧ c ≤ 'f' then some (c.toNat - 0x61 + 10)
  else if 'A' ≤ c ∧ c ≤ 'F' then some (c.toNat - 0x41 + 10)
  else none

/-- A digit reads back as its value. -/
theorem hexValue?_digit (case : HexCase) {n : Nat} (h : n < 16) :
    hexValue? (case.digit n) = some n := by
  have key : ∀ m : Fin 16, hexValue? (case.digit m) = some m.val := by
    cases case <;> decide
  exact key ⟨n, h⟩

/-- The number that hexadecimal digits stand for, the most significant first. -/
def hexNumber? (cs : List Char) : Option Nat :=
  cs.foldlM (fun n c => (hexValue? c).map (16 * n + ·)) 0

end Text
end RefPages
