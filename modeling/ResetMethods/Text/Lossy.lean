/-!
# ResetMethods.Text.Lossy

Bytes as text, whatever the bytes are.

* `decodeLossy` : the text of bytes in UTF-8, where the replacement character stands for every
  longest run of bytes that starts a character and does not complete it, and for every other byte
  that no character starts with.
-/

namespace ResetMethods
namespace Text

def replacement : Char := '\ufffd'

/-- What the first byte of a character of more than one byte holds: its leading bits, and the ranges
of the bytes that must follow. They shut out overlong forms and surrogates. -/
def leadByte? (b : Nat) : Option (Nat × List (Nat × Nat)) :=
  let any := (0x80, 0xBF)
  if 0xC2 ≤ b ∧ b ≤ 0xDF then some (b - 0xC0, [any])
  else if b = 0xE0 then some (0, [(0xA0, 0xBF), any])
  else if b = 0xED then some (13, [(0x80, 0x9F), any])
  else if 0xE1 ≤ b ∧ b ≤ 0xEF then some (b - 0xE0, [any, any])
  else if b = 0xF0 then some (0, [(0x90, 0xBF), any, any])
  else if 0xF1 ≤ b ∧ b ≤ 0xF3 then some (b - 0xF0, [any, any, any])
  else if b = 0xF4 then some (4, [(0x80, 0x8F), any, any])
  else none

/-- Reads following bytes as long as they lie in their ranges. The result is the code point, if none
is missing, and the bytes not read. -/
def followingBytes (value : Nat) : List (Nat × Nat) → List UInt8 → Option Nat × List UInt8
  | [], bytes => (some value, bytes)
  | _ :: _, [] => (none, [])
  | (low, high) :: ranges, b :: bytes =>
    if low ≤ b.toNat ∧ b.toNat ≤ high then
      followingBytes (value * 64 + b.toNat % 64) ranges bytes
    else (none, b :: bytes)

/-- The text of some bytes, at most `fuel` characters of it. -/
def decodeWithin : Nat → List UInt8 → List Char
  | 0, _ => []
  | _, [] => []
  | fuel + 1, b :: bytes =>
    if b.toNat < 0x80 then Char.ofNat b.toNat :: decodeWithin fuel bytes
    else
      match leadByte? b.toNat with
      | none => replacement :: decodeWithin fuel bytes
      | some (value, ranges) =>
        match followingBytes value ranges bytes with
        | (some code, rest) => Char.ofNat code :: decodeWithin fuel rest
        | (none, rest) => replacement :: decodeWithin fuel rest

def decodeLossy (bytes : ByteArray) : String :=
  match String.fromUTF8? bytes with
  | some text => text
  | none => String.ofList (decodeWithin bytes.size bytes.toList)

end Text
end ResetMethods
