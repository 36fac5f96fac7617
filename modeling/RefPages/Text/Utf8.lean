import RefPages.Text.Hex
import RefPages.Text.Lines

/-!
# UTF-8

* `utf8Encode` writes a text as bytes.
* `utf8Decode` reads bytes, or reports the first run of bytes that cannot be read: a byte that
  starts no character, a character cut short by a byte that does not continue it, or one cut short
  by the end of the bytes.
* `DecodeFault.message` words the report.
* `readText` decodes a file: UTF-8, with every line ending turned into a line feed.
-/

set_option autoImplicit false
namespace RefPages
namespace Text

/-- The bytes of a text. -/
def utf8Encode (s : String) : List UInt8 :=
  s.toList.flatMap String.utf8EncodeChar

/-- Why bytes are no text. -/
inductive DecodeReason where
  | startByte
  | continuationByte
  | endOfData
  deriving DecidableEq, Repr

/-- The bytes from position `first` on, `size` of them, are no character. -/
structure DecodeFault where
  first : Nat
  size : Nat
  byte : UInt8
  reason : DecodeReason
  deriving DecidableEq, Repr

/-- The reason in words. -/
def DecodeReason.message : DecodeReason → String
  | .startByte => "invalid start byte"
  | .continuationByte => "invalid continuation byte"
  | .endOfData => "unexpected end of data"

/-- The report of a run of bytes that cannot be read. -/
def DecodeFault.message (fault : DecodeFault) : String :=
  let place :=
    if fault.size = 1 then
      "byte 0x" ++ String.ofList (hexPadded .lower 2 fault.byte.toNat) ++ " in position "
        ++ toString fault.first
    else
      "bytes in position " ++ toString fault.first ++ "-"
        ++ toString (fault.first + fault.size - 1)
  "'utf-8' codec can't decode " ++ place ++ ": " ++ fault.reason.message

/-- A character whose first bytes have been read: where it starts, its first byte, how many bytes it
has so far and how many are owed, the bits read, and the bounds of the next byte. -/
structure OpenChar where
  first : Nat
  byte : UInt8
  seen : Nat
  owed : Nat
  bits : Nat
  low : Nat
  high : Nat

/-- The character a first byte above `0x7F` opens. The second byte is bounded so that no character
has two encodings and none is a surrogate or beyond the last code point. -/
def openChar? (pos : Nat) (b : UInt8) : Option OpenChar :=
  let n := b.toNat
  if 0xC2 ≤ n ∧ n ≤ 0xDF then some ⟨pos, b, 1, 1, n - 0xC0, 0x80, 0xBF⟩
  else if n = 0xE0 then some ⟨pos, b, 1, 2, 0, 0xA0, 0xBF⟩
  else if n = 0xED then some ⟨pos, b, 1, 2, n - 0xE0, 0x80, 0x9F⟩
  else if 0xE1 ≤ n ∧ n ≤ 0xEF then some ⟨pos, b, 1, 2, n - 0xE0, 0x80, 0xBF⟩
  else if n = 0xF0 then some ⟨pos, b, 1, 3, 0, 0x90, 0xBF⟩
  else if 0xF1 ≤ n ∧ n ≤ 0xF3 then some ⟨pos, b, 1, 3, n - 0xF0, 0x80, 0xBF⟩
  else if n = 0xF4 then some ⟨pos, b, 1, 3, n - 0xF0, 0x80, 0x8F⟩
  else none

/-- The bytes from position `pos` on, after those of a character that is still open. -/
def decodeFrom (pos : Nat) (pending : Option OpenChar) :
    List UInt8 → Except DecodeFault (List Char)
  | [] =>
    match pending with
    | none => .ok []
    | some o => .error ⟨o.first, o.seen, o.byte, .endOfData⟩
  | b :: rest =>
    match pending with
    | none =>
      if b.toNat < 0x80 then (decodeFrom (pos + 1) none rest).map (Char.ofNat b.toNat :: ·)
      else
        match openChar? pos b with
        | none => .error ⟨pos, 1, b, .startByte⟩
        | some o => decodeFrom (pos + 1) (some o) rest
    | some o =>
      if o.low ≤ b.toNat ∧ b.toNat ≤ o.high then
        let bits := o.bits * 64 + (b.toNat - 0x80)
        if o.owed = 1 then (decodeFrom (pos + 1) none rest).map (Char.ofNat bits :: ·)
        else
          let o' : OpenChar :=
            { o with seen := o.seen + 1, owed := o.owed - 1, bits, low := 0x80, high := 0xBF }
          decodeFrom (pos + 1) (some o') rest
      else .error ⟨o.first, o.seen, o.byte, .continuationByte⟩

/-- The characters that bytes encode. -/
def utf8Decode (bytes : List UInt8) : Except DecodeFault (List Char) :=
  decodeFrom 0 none bytes

/-- The text of a file. -/
def readText (bytes : List UInt8) : Except DecodeFault String :=
  (utf8Decode bytes).map fun cs => String.ofList (unifyNewlines cs)

end Text
end RefPages
