import SealedRecords.Keys.Naming

/-!
# Wrapped data keys

Each record gets a fresh random data key. The data key is encrypted under a master key, and the
result, the wrapped key, is the reference of the record: whoever holds the master key can open
the record, and nobody has to store the data key.
-/

namespace SealedRecords

/-- The length of a data key if none is given. -/
def defaultKeyLength : Nat := 32

/-- A key that encrypts keys. -/
structure MasterKey where
  cipher : Cipher
  key : Bytes

namespace MasterKey

/-- Encrypts a data key. -/
def wrap (m : MasterKey) (dataKey : Bytes) : StateM RandomTape (Except CipherError Bytes) :=
  m.cipher.encrypt m.key dataKey

/-- Decrypts a wrapped key. A failure is reported and gives no key. -/
def unwrap (m : MasterKey) (wrapped : Bytes) : Lookup :=
  match m.cipher.decrypt m.key wrapped with
  | .ok key => { key := some key }
  | .error e => { key := none, notes := [.unwrapFailed e] }

/-- Answers references that are wrapped keys. -/
def provider (m : MasterKey) : KeyProvider := fun r => m.unwrap r.bytes

/-- Draws a data key of `length` bytes for every record; its wrapped form is the reference. -/
def extractor (m : MasterKey) (length : Nat) : Extractor α := fun _ _ => do
  let dataKey ← RandomTape.draw length
  match ← m.wrap dataKey with
  | .ok wrapped => return .ok (some ⟨wrapped⟩)
  | .error e => return .error (.wrapFailed e)

end MasterKey

end SealedRecords
