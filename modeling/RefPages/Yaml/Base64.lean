/-!
# Base 64

* `base64Decode?` reads bytes from their notation in base 64. Characters outside the alphabet are
  passed over, and reading stops at the padding that completes a group of four. A group that is left
  open is an error.
-/

set_option autoImplicit false
namespace RefPages
namespace Yaml

/-- The value of a character of the alphabet. -/
def base64Value? (c : Char) : Option Nat :=
  if 'A' ≤ c ∧ c ≤ 'Z' then some (c.toNat - 0x41)
  else if 'a' ≤ c ∧ c ≤ 'z' then some (c.toNat - 0x61 + 26)
  else if '0' ≤ c ∧ c ≤ '9' then some (c.toNat - 0x30 + 52)
  else if c = '+' then some 62
  else if c = '/' then some 63
  else none

/-- The bytes from here on: `seen` characters of the current group have been read, `carry` are the
bits they left over, and `pads` marks of padding have just been passed. -/
def base64From (seen carry pads : Nat) : List Char → Option (List UInt8)
  | [] => if seen = 0 then some [] else none
  | c :: rest =>
    if c = '=' then
      if 2 ≤ seen ∧ 4 ≤ seen + pads + 1 then some []
      else base64From seen carry (if 2 ≤ seen then pads + 1 else pads) rest
    else
      match base64Value? c with
      | none => base64From seen carry pads rest
      | some v =>
        match seen with
        | 0 => base64From 1 v 0 rest
        | 1 => (base64From 2 (v % 16) 0 rest).map (UInt8.ofNat (carry * 4 + v / 16) :: ·)
        | 2 => (base64From 3 (v % 4) 0 rest).map (UInt8.ofNat (carry * 16 + v / 4) :: ·)
        | _ => (base64From 0 0 0 rest).map (UInt8.ofNat (carry * 64 + v) :: ·)

/-- The bytes that ASCII characters stand for. -/
def base64Decode? (cs : List Char) : Option (List UInt8) :=
  if cs.all (·.toNat < 128) then base64From 0 0 0 cs else none

end Yaml
end RefPages
