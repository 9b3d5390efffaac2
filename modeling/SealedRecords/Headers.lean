import SealedRecords.KeyRef
import SealedRecords.Text.Outline
import SealedRecords.Text.Quoted

/-!
# Record headers

An ordered list of named values; a name may occur more than once and a value may be absent. The
last entry of a name counts. One name is kept for the key reference of a record, and an entry of
it without a value says that the record has none.
-/

namespace SealedRecords

/-- A named value of a record. -/
structure Header where
  name : String
  value : Option Bytes
  deriving DecidableEq, Repr

/-- The headers of a record, the oldest first. -/
structure Headers where
  entries : List Header := []
  deriving DecidableEq, Repr

namespace Headers

/-- The name under which the key reference travels. -/
def keyRefName : String := "keKeyReference"

/-- Appends an entry. -/
def add (h : Headers) (name : String) (value : Option Bytes) : Headers :=
  ⟨h.entries ++ [⟨name, value⟩]⟩

/-- Removes every entry of a name. -/
def remove (h : Headers) (name : String) : Headers :=
  ⟨h.entries.filter fun e => e.name != name⟩

/-- The entries of a name, the oldest first. -/
def all (h : Headers) (name : String) : List Header := h.entries.filter fun e => e.name == name

/-- The last entry of a name. -/
def last? (h : Headers) (name : String) : Option Header :=
  h.entries.reverse.find? fun e => e.name == name

/-- The reference in the last entry kept for it. -/
def keyRef? (h : Headers) : Option KeyRef :=
  (h.last? keyRefName).bind fun e => e.value.map KeyRef.mk

/-- Appends an entry for a reference or for its absence. -/
def addKeyRef (h : Headers) (r : Option KeyRef) : Headers := h.add keyRefName (r.map KeyRef.bytes)

/-- The number of entries. -/
def size (h : Headers) : Nat := h.entries.length

end Headers

/-- The shape of a header list. -/
def Headers.outline (h : Headers) : Outline :=
  .record "Headers" [("entries", .list (h.entries.map fun e =>
    .record "Header" [("name", .word (Quoted.text e.name)),
      ("value", .option (fun b => .word (Quoted.bytes b)) e.value)] false))] false

end SealedRecords
