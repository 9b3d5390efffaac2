import SealedRecords.Keys.Store
import SealedRecords.RecordCipher

/-!
# References that name stored keys

The reference of a stored key is the UTF-8 form of its name. A provider reads references as
names; an extractor computes the name for a record, and a record without a name has no
reference.
-/

namespace SealedRecords

/-- Answers references that are names of stored keys. -/
def KeyStore.provider (s : KeyStore) : KeyProvider := fun r =>
  match r.text? with
  | some name => { key := s.get? name }
  | none => { key := none, notes := [.unnamedReference r] }

/-- Why no reference could be computed for a record. -/
inductive ExtractionError where
  /-- The data key could not be wrapped. -/
  | wrapFailed (cause : CipherError)
  /-- A cause that an extractor states in its own words. -/
  | other (text : String)
  deriving DecidableEq, Repr

/-- The wording of an error. -/
def ExtractionError.message : ExtractionError → String
  | .wrapFailed e => e.message
  | .other text => text

/-- Computes the reference of a record from its topic and its key, with random bytes if it needs
them. -/
abbrev Extractor (α : Type) :=
  (topic : String) → (key : α) → StateM RandomTape (Except ExtractionError (Option KeyRef))

namespace Extractor

/-- An extractor that needs no randomness and does not fail. -/
def pure (f : String → α → Option KeyRef) : Extractor α := fun topic key =>
  Pure.pure (.ok (f topic key))

/-- The extractor of the references of key names. -/
def ofNames (f : String → α → Option String) : Extractor α :=
  pure fun topic key => (f topic key).map KeyRef.ofText

/-- An extractor that always fails, with `text`. -/
def unavailable (text : String) : Extractor α := fun _ _ => Pure.pure (.error (.other text))

/-- The reference of a record whose key may be absent; without a key there is none. -/
def ofRecord (extractor : Extractor α) (topic : String) :
    Option α → StateM RandomTape (Except ExtractionError (Option KeyRef))
  | none => Pure.pure (.ok none)
  | some key => extractor topic key

end Extractor

end SealedRecords
