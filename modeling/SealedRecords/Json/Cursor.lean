import SealedRecords.Json.Fault

/-!
# Reading JSON byte by byte

A reader works on the bytes that are left and knows the position it has reached. A fault is about
the position reached, or about the byte that would be read next. After a fault the reader stands
where it was found, so that what follows a faulty element can still be looked at.
-/

namespace SealedRecords.Json

open SealedRecords

/-- The bytes that are left and the position reached. -/
structure Cursor where
  rest : Bytes
  line : Nat := 1
  column : Nat := 0
  deriving DecidableEq, Repr

/-- A cursor after reading a byte. -/
def Cursor.after (c : Cursor) (b : UInt8) (rest : Bytes) : Cursor :=
  if b = 0x0A then ⟨rest, c.line + 1, 0⟩ else ⟨rest, c.line, c.column + 1⟩

/-- A computation that reads bytes. -/
abbrev Reader := ExceptT Fault (StateM Cursor)

namespace Reader

/-- The byte that would be read next. -/
def peek : Reader (Option UInt8) := do return (← get).rest.head?

/-- Reads a byte, if one is left. -/
def next : Reader (Option UInt8) := do
  let c ← get
  match c.rest with
  | [] => return none
  | b :: rest =>
    set (c.after b rest)
    return some b

/-- Reads a byte and forgets it. -/
def skip : Reader Unit := do
  let _ ← next

/-- The number of bytes that are left. -/
def left : Reader Nat := do return (← get).rest.length

/-- A fault at the position reached. -/
def fail (issue : Issue) : Reader α := do
  let c ← get
  throw ⟨issue, c.line, c.column⟩

/-- A fault about the byte that would be read next. -/
def failNext (issue : Issue) : Reader α := do
  let c ← get
  match c.rest with
  | [] => throw ⟨issue, c.line, c.column⟩
  | b :: rest =>
    let c := c.after b rest
    throw ⟨issue, c.line, c.column⟩

/-- Whether a byte is a blank of JSON. -/
def isBlank (b : UInt8) : Bool := b = 0x20 || b = 0x0A || b = 0x09 || b = 0x0D

/-- The cursor behind the blanks of `rest`. -/
def afterBlanks (c : Cursor) : Bytes → Cursor
  | [] => { c with rest := [] }
  | b :: rest =>
    if isBlank b then afterBlanks (c.after b rest) rest else { c with rest := b :: rest }

/-- Skips blanks and looks at the byte behind them. -/
def peekToken : Reader (Option UInt8) := do
  modify fun c => afterBlanks c c.rest
  peek

/-- Reads the rest of a word whose first letter has been read. -/
def word : Bytes → Reader Unit
  | [] => return
  | b :: bs => do
    match ← next with
    | none => fail .endInValue
    | some x => if x = b then word bs else fail .expectedWord

end Reader

/-- Whether a byte is a decimal digit. -/
def isDigit (b : UInt8) : Bool := 48 ≤ b && b ≤ 57

/-- The value of a decimal digit. -/
def digitValue (b : UInt8) : Nat := b.toNat - 48

end SealedRecords.Json
