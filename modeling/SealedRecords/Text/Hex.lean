import SealedRecords.Text.Blank
import SealedRecords.Text.Quoted
import SealedRecords.Text.Utf8

/-!
# Hexadecimal texts

Bytes are written with two lower-case digits each and read with digits of either case. Reading
checks the number of digits first and then reports the first byte that is no digit.
-/

namespace SealedRecords.Hex

open SealedRecords

/-- The lower-case digit of a number below sixteen. -/
def digit (n : UInt8) : Char := Char.ofNat (if n < 10 then 48 + n.toNat else 87 + n.toNat)

/-- Two lower-case digits per byte. -/
def encodeChars (b : Bytes) : List Char := b.flatMap fun x => [digit (x / 16), digit (x % 16)]

/-- Two lower-case digits per byte. -/
def encode (b : Bytes) : String := String.ofList (encodeChars b)

/-- The value of a digit, given as its byte. -/
def value? (b : UInt8) : Option UInt8 :=
  if 48 ≤ b && b ≤ 57 then some (b - 48)
  else if 97 ≤ b && b ≤ 102 then some (b - 87)
  else if 65 ≤ b && b ≤ 70 then some (b - 55)
  else none

/-- Why a text is not hexadecimal. -/
inductive Fault where
  /-- The text has an odd number of bytes. -/
  | oddLength
  /-- The first byte that is no digit, and its offset. -/
  | invalidDigit (byte : UInt8) (index : Nat)
  deriving DecidableEq, Repr

/-- The wording of a fault. The byte is shown as the character of its value. -/
def Fault.message : Fault → String
  | .oddLength => "Odd number of digits"
  | .invalidDigit b i =>
    let shown := Quoted.char (Char.ofNat b.toNat)
    s!"Invalid character {shown} at position {i}"

/-- Reads pairs of digits, the first of which stands at offset `i`. -/
def decodePairs (i : Nat) : Bytes → Except Fault Bytes
  | [] => .ok []
  | [_] => .error .oddLength
  | a :: b :: r =>
    match value? a, value? b with
    | none, _ => .error (.invalidDigit a i)
    | some _, none => .error (.invalidDigit b (i + 1))
    | some x, some y => (decodePairs (i + 2) r).map ((x * 16 + y) :: ·)

/-- Reads the bytes of a text as digits; the parity of their number is checked first. -/
def decode (b : Bytes) : Except Fault Bytes :=
  if b.length % 2 = 1 then .error .oddLength else decodePairs 0 b

/-- Reads a text as digits, blanks at both ends left out. -/
def decodeTrimmed (s : String) : Except Fault Bytes := decode (Utf8.encode (Blank.trim s))

end SealedRecords.Hex
