import SealedRecords.Bytes

/-!
# AES with 256-bit keys

The block cipher of FIPS 197 in the forward direction, which is all that counter mode needs. A
block is four columns of four bytes. The substitution box is computed from its definition, the
inverse in the field of 256 elements followed by an affine map, and not copied as a table.
-/

namespace SealedRecords.Aes

open SealedRecords

/-! ## The field of 256 elements -/

/-- Multiplication by `x` modulo `x ^ 8 + x ^ 4 + x ^ 3 + x + 1`. -/
def double (b : UInt8) : UInt8 := if b < 0x80 then b + b else (b + b) ^^^ 0x1B

/-- The product of two field elements, from the `n` lowest bits of the first. -/
def timesBits : Nat → UInt8 → UInt8 → UInt8
  | 0, _, _ => 0
  | n + 1, a, b =>
    (if a % 2 = 1 then b else 0) ^^^ timesBits n (a / 2) (double b)

/-- The product of two field elements. -/
def times (a b : UInt8) : UInt8 := timesBits 8 a b

/-- `a ^ (2 ^ n - 2)` for `n` at least one. -/
def powerChain : Nat → UInt8 → UInt8
  | 0, _ => 1
  | 1, _ => 1
  | n + 1, a =>
    let r := times (powerChain n a) a
    times r r

/-- The multiplicative inverse, and zero for zero: the 254th power. -/
def inverse (a : UInt8) : UInt8 := powerChain 8 a

/-- A cyclic shift to the left by `n` bits, for `n` below eight. -/
def rotate (b n : UInt8) : UInt8 := (b <<< n) ||| (b >>> (8 - n))

/-- The substitution of one byte. -/
def substitute (a : UInt8) : UInt8 :=
  let b := inverse a
  b ^^^ rotate b 1 ^^^ rotate b 2 ^^^ rotate b 3 ^^^ rotate b 4 ^^^ 0x63

/-- All substitutions, in the order of the byte. -/
def box : Vector UInt8 256 := Vector.ofFn fun i => substitute (UInt8.ofNat i.val)

/-- The substitution of one byte, looked up. -/
def sub (a : UInt8) : UInt8 := box.get ⟨a.toNat, UInt8.toNat_lt a⟩

/-! ## Columns and blocks -/

/-- Four bytes of a block or of a round key. -/
structure Column where
  b0 : UInt8
  b1 : UInt8
  b2 : UInt8
  b3 : UInt8
  deriving DecidableEq, Repr

/-- Exclusive or of two columns. -/
def Column.add (u v : Column) : Column :=
  ⟨u.b0 ^^^ v.b0, u.b1 ^^^ v.b1, u.b2 ^^^ v.b2, u.b3 ^^^ v.b3⟩

/-- The substitution of every byte. -/
def Column.sub (u : Column) : Column := ⟨Aes.sub u.b0, Aes.sub u.b1, Aes.sub u.b2, Aes.sub u.b3⟩

/-- The product with the fixed polynomial `3 y ^ 3 + y ^ 2 + y + 2`. -/
def Column.mix (u : Column) : Column :=
  let all := u.b0 ^^^ u.b1 ^^^ u.b2 ^^^ u.b3
  ⟨u.b0 ^^^ all ^^^ double (u.b0 ^^^ u.b1), u.b1 ^^^ all ^^^ double (u.b1 ^^^ u.b2),
    u.b2 ^^^ all ^^^ double (u.b2 ^^^ u.b3), u.b3 ^^^ all ^^^ double (u.b3 ^^^ u.b0)⟩

/-- Sixteen bytes, column by column. -/
structure Block where
  c0 : Column
  c1 : Column
  c2 : Column
  c3 : Column
  deriving DecidableEq, Repr

/-- The column of the four bytes at the front; missing bytes are zero. -/
def Column.ofBytes (b : Bytes) : Column := ⟨b.getD 0 0, b.getD 1 0, b.getD 2 0, b.getD 3 0⟩

/-- The bytes of a column. -/
def Column.toBytes (u : Column) : Bytes := [u.b0, u.b1, u.b2, u.b3]

namespace Block

/-- The block of the sixteen bytes at the front; missing bytes are zero. -/
def ofBytes (b : Bytes) : Block :=
  ⟨.ofBytes b, .ofBytes (b.drop 4), .ofBytes (b.drop 8), .ofBytes (b.drop 12)⟩

/-- The bytes of a block. -/
def toBytes (s : Block) : Bytes :=
  s.c0.toBytes ++ s.c1.toBytes ++ s.c2.toBytes ++ s.c3.toBytes

@[simp] theorem length_toBytes (s : Block) : s.toBytes.length = 16 := rfl

/-- Exclusive or of two blocks. -/
def add (s k : Block) : Block := ⟨s.c0.add k.c0, s.c1.add k.c1, s.c2.add k.c2, s.c3.add k.c3⟩

/-- The substitution of every byte. -/
def sub (s : Block) : Block := ⟨s.c0.sub, s.c1.sub, s.c2.sub, s.c3.sub⟩

/-- Row `r` of the block, turned to the left by `r` columns. -/
def shiftRows (s : Block) : Block :=
  ⟨⟨s.c0.b0, s.c1.b1, s.c2.b2, s.c3.b3⟩, ⟨s.c1.b0, s.c2.b1, s.c3.b2, s.c0.b3⟩,
    ⟨s.c2.b0, s.c3.b1, s.c0.b2, s.c1.b3⟩, ⟨s.c3.b0, s.c0.b1, s.c1.b2, s.c2.b3⟩⟩

/-- The mixing of every column. -/
def mix (s : Block) : Block := ⟨s.c0.mix, s.c1.mix, s.c2.mix, s.c3.mix⟩

/-- A chain of columns in which each adds the one before it, starting from `first`. -/
def chain (s : Block) (first : Column) : Block :=
  let c0 := s.c0.add first
  let c1 := s.c1.add c0
  let c2 := s.c2.add c1
  ⟨c0, c1, c2, s.c3.add c2⟩

end Block

/-! ## Round keys and rounds -/

/-- The `n` pairs of round keys from a pair on; `rcon` is the next round constant. -/
def expand : Nat → UInt8 → Block → Block → List Block
  | 0, _, _, _ => []
  | n + 1, rcon, k0, k1 =>
    let t := k1.c3
    let k0' := k0.chain ⟨sub t.b1 ^^^ rcon, sub t.b2, sub t.b3, sub t.b0⟩
    let k1' := k1.chain k0'.c3.sub
    k0 :: k1 :: expand n (double rcon) k0' k1'

/-- The fifteen round keys of a 32-byte key. -/
def roundKeys (key : Bytes) : List Block :=
  (expand 8 1 (.ofBytes key) (.ofBytes (key.drop 16))).take 15

/-- The rounds with the remaining round keys; the last one does not mix. -/
def rounds : Block → List Block → Block
  | s, [] => s
  | s, [k] => s.sub.shiftRows.add k
  | s, k :: ks => rounds (s.sub.shiftRows.mix.add k) ks

/-- The encryption of a block under a list of round keys. -/
def encryptWith (keys : List Block) (s : Block) : Block :=
  match keys with
  | [] => s
  | k :: ks => rounds (s.add k) ks

end SealedRecords.Aes
