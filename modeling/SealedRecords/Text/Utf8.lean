import SealedRecords.Bytes

/-!
# UTF-8

A byte sequence is cut into pieces from the left: a character, a run of bytes that cannot begin
or continue one, or an end inside a sequence that is valid so far. Strict reading (`decode`)
stops at the first piece that is not a character and reports where it starts; lenient reading
(`lossy`) puts U+FFFD in its place and goes on.
-/

namespace SealedRecords.Utf8

open SealedRecords

/-- The bytes of a text. -/
def encode (s : String) : Bytes := s.toList.flatMap String.utf8EncodeChar

/-- What stands at the front of a byte sequence. -/
inductive Piece where
  /-- A character in its shortest form. -/
  | char (c : Char)
  /-- `size` bytes that belong to no character. -/
  | invalid (size : Nat)
  /-- The end of the input inside a sequence that is valid so far. -/
  | incomplete
  deriving DecidableEq, Repr

/-- A continuation byte. -/
def isTail (b : UInt8) : Bool := 0x80 ≤ b && b ≤ 0xBF

/-- The second bytes that may follow the lead `a` of a three-byte sequence: no overlong form and
no surrogate. -/
def isSecondOfThree (a b : UInt8) : Bool :=
  if a = 0xE0 then 0xA0 ≤ b && b ≤ 0xBF
  else if a = 0xED then 0x80 ≤ b && b ≤ 0x9F
  else isTail b

/-- The second bytes that may follow the lead `a` of a four-byte sequence: no overlong form and
nothing above U+10FFFF. -/
def isSecondOfFour (a b : UInt8) : Bool :=
  if a = 0xF0 then 0x90 ≤ b && b ≤ 0xBF
  else if a = 0xF4 then 0x80 ≤ b && b ≤ 0x8F
  else isTail b

/-- The character of a two-byte sequence. -/
def scalar2 (a b : UInt8) : Char := Char.ofNat ((a.toNat - 0xC0) * 64 + (b.toNat - 0x80))

/-- The character of a three-byte sequence. -/
def scalar3 (a b c : UInt8) : Char :=
  Char.ofNat ((a.toNat - 0xE0) * 4096 + (b.toNat - 0x80) * 64 + (c.toNat - 0x80))

/-- The character of a four-byte sequence. -/
def scalar4 (a b c d : UInt8) : Char :=
  Char.ofNat ((a.toNat - 0xF0) * 262144 + (b.toNat - 0x80) * 4096 + (c.toNat - 0x80) * 64 +
    (d.toNat - 0x80))

/-- The pieces of a byte sequence, in order. The bytes of an invalid piece are the longest
beginning of a character that the input holds there, and at least one byte. -/
def pieces : Bytes → List Piece
  | [] => []
  | a :: r =>
    if a < 0x80 then .char (Char.ofNat a.toNat) :: pieces r
    else if 0xC2 ≤ a && a ≤ 0xDF then
      match r with
      | [] => [.incomplete]
      | b :: r₁ =>
        if isTail b then .char (scalar2 a b) :: pieces r₁ else .invalid 1 :: pieces (b :: r₁)
    else if 0xE0 ≤ a && a ≤ 0xEF then
      match r with
      | [] => [.incomplete]
      | b :: r₁ =>
        if isSecondOfThree a b then
          match r₁ with
          | [] => [.incomplete]
          | c :: r₂ =>
            if isTail c then .char (scalar3 a b c) :: pieces r₂
            else .invalid 2 :: pieces (c :: r₂)
        else .invalid 1 :: pieces (b :: r₁)
    else if 0xF0 ≤ a && a ≤ 0xF4 then
      match r with
      | [] => [.incomplete]
      | b :: r₁ =>
        if isSecondOfFour a b then
          match r₁ with
          | [] => [.incomplete]
          | c :: r₂ =>
            if isTail c then
              match r₂ with
              | [] => [.incomplete]
              | d :: r₃ =>
                if isTail d then .char (scalar4 a b c d) :: pieces r₃
                else .invalid 3 :: pieces (d :: r₃)
            else .invalid 2 :: pieces (c :: r₂)
        else .invalid 1 :: pieces (b :: r₁)
    else .invalid 1 :: pieces r

/-- Why a byte sequence is no text: the offset of the first piece that is no character, and its
size unless the input ends inside it. -/
structure Fault where
  index : Nat
  size : Option Nat
  deriving DecidableEq, Repr

/-- The wording of a fault. -/
def Fault.message (e : Fault) : String :=
  match e.size with
  | some n => s!"invalid utf-8 sequence of {n} bytes from index {e.index}"
  | none => s!"incomplete utf-8 byte sequence from index {e.index}"

/-- The characters of a sequence of pieces, the first of which starts at offset `i`. -/
def chars (i : Nat) : List Piece → Except Fault (List Char)
  | [] => .ok []
  | .char c :: ps => (chars (i + c.utf8Size) ps).map (c :: ·)
  | .invalid n :: _ => .error ⟨i, some n⟩
  | .incomplete :: _ => .error ⟨i, none⟩

/-- The text that the bytes encode, or the first fault. -/
def decode (b : Bytes) : Except Fault String := (chars 0 (pieces b)).map String.ofList

/-- The replacement character for bytes that are no text. -/
def replacement : Char := Char.ofNat 0xFFFD

/-- The text of the bytes with each piece that is no character replaced. -/
def lossy (b : Bytes) : String :=
  String.ofList ((pieces b).map fun | .char c => c | _ => replacement)

end SealedRecords.Utf8
