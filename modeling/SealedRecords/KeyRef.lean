import SealedRecords.Text.Hex

/-!
# Key references

A key reference is the byte sequence that a sealed envelope carries instead of its key. For
people it is shown as text when it is text without control characters, and in hexadecimal
otherwise, so that a reference read from a frame cannot bring a line break into a log.
-/

namespace SealedRecords

/-- The name of a key, as it travels in frames and headers. -/
structure KeyRef where
  bytes : Bytes
  deriving DecidableEq, Repr

/-- The Unicode category Cc: U+0000 to U+001F and U+007F to U+009F. -/
def isControl (c : Char) : Bool := c.toNat < 0x20 || (0x7F ≤ c.toNat && c.toNat ≤ 0x9F)

namespace KeyRef

/-- The reference that is the UTF-8 form of a text. -/
def ofText (s : String) : KeyRef := ⟨Utf8.encode s⟩

/-- The text of a reference in UTF-8. -/
def text? (r : KeyRef) : Option String := (Utf8.decode r.bytes).toOption

/-- A reference in hexadecimal. -/
def hexText (r : KeyRef) : String := "0x" ++ Hex.encode r.bytes

/-- How a reference is shown: as text if it is text without control characters, else in
hexadecimal. -/
def display (r : KeyRef) : String :=
  match r.text? with
  | some s => if s.toList.any isControl then r.hexText else s
  | none => r.hexText

/-- The number of bytes. -/
def size (r : KeyRef) : Nat := r.bytes.length

/-- Whether a reference has no byte. -/
def isEmpty (r : KeyRef) : Bool := r.bytes.isEmpty

/-- Inserts a reference into an ascending list, once. -/
def insertSorted (r : KeyRef) : List KeyRef → List KeyRef
  | [] => [r]
  | s :: rs =>
    if r = s then s :: rs
    else if Bytes.before r.bytes s.bytes then r :: s :: rs
    else s :: insertSorted r rs

/-- The distinct references of a list, in ascending order. -/
def sortUnique (rs : List KeyRef) : List KeyRef := rs.foldr insertSorted []

end KeyRef

end SealedRecords
