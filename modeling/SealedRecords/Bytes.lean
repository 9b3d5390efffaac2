/-!
# Bytes

Payloads, keys, references and frames are lists of bytes. This file fixes the operations the
library needs on them: exclusive or, the order that sorts references and key names, and the
four-byte big-endian word that counts the bytes of a reference.

> `ofWord_toWord`: a count below `2 ^ 32` is read back from its word.
-/

namespace SealedRecords

/-- A sequence of bytes. -/
abbrev Bytes := List UInt8

namespace Bytes

/-- Exclusive or, byte by byte; the shorter operand decides the length. -/
def xor (a b : Bytes) : Bytes := List.zipWith (· ^^^ ·) a b

@[simp] theorem length_xor (a b : Bytes) : (xor a b).length = min a.length b.length := by
  simp [xor]

/-- Whether `a` sorts before `b`: the first differing byte decides, and a proper beginning of a
text comes before the text. -/
def before : Bytes → Bytes → Bool
  | [], b => !b.isEmpty
  | _ :: _, [] => false
  | x :: xs, y :: ys => x < y || (x == y && before xs ys)

/-! ## Big-endian words -/

/-- The four bytes of a count, most significant first. Only counts below `2 ^ 32` fit. -/
def toWord (n : Nat) : Bytes :=
  [UInt8.ofNat (n / 16777216), UInt8.ofNat (n / 65536), UInt8.ofNat (n / 256), UInt8.ofNat n]

/-- The number that bytes denote in base 256, most significant first. -/
def ofWord (b : Bytes) : Nat := b.foldl (fun n x => n * 256 + x.toNat) 0

@[simp] theorem length_toWord (n : Nat) : (toWord n).length = 4 := rfl

theorem ofWord_toWord {n : Nat} (h : n < 4294967296) : ofWord (toWord n) = n := by
  simp [ofWord, toWord, UInt8.toNat_ofNat']
  omega

end Bytes

end SealedRecords
