import SealedRecords.RandomTape

/-!
# Ciphers

A cipher encrypts and decrypts bytes under a key. Encryption may draw random bytes; decryption
is a function of the key and the ciphertext.
-/

namespace SealedRecords

/-- Why a cipher gives no result. -/
inductive CipherError where
  /-- The key does not have the 32 bytes that the cipher needs. -/
  | invalidKeyLength (actual : Nat)
  /-- The input is shorter than a nonce and a tag. -/
  | tooShort (actual : Nat)
  /-- The tag does not belong to the ciphertext. -/
  | tagMismatch
  /-- A cause that a cipher states in its own words. -/
  | other (text : String)
  deriving DecidableEq, Repr

/-- The wording of a cipher error. -/
def CipherError.message : CipherError → String
  | .invalidKeyLength n => s!"invalid key length (expected 32 bytes, got {n})"
  | .tooShort n => s!"ciphertext too short ({n} bytes, need at least 28)"
  | .tagMismatch => "AES-GCM tag mismatch"
  | .other text => text

/-- An encryption algorithm. Both functions take the key first. -/
structure Cipher where
  encrypt : (key data : Bytes) → StateM RandomTape (Except CipherError Bytes)
  decrypt : (key data : Bytes) → Except CipherError Bytes

namespace Cipher

/-- A cipher that a failure of its device makes useless: every call fails with `text`. -/
def broken (text : String) : Cipher where
  encrypt := fun _ _ => pure (.error (.other text))
  decrypt := fun _ _ => .error (.other text)

/-- The bytes that a masked text starts with. -/
def maskTag : Bytes := [0x78, 0x6F, 0x72, 0x3A]

/-- The data combined with the key, repeated, by exclusive or. -/
def mask (key data : Bytes) : Bytes :=
  data.mapIdx fun i x => x ^^^ key.getD (i % key.length) 0

/-- A toy cipher without randomness: a tag and the data masked with the repeated key. An empty
key masks nothing and is refused; decryption looks for the tag first. -/
def masking : Cipher where
  encrypt := fun key data =>
    pure (if key.isEmpty then .error (.other "empty key") else .ok (maskTag ++ mask key data))
  decrypt := fun key data =>
    if maskTag.isPrefixOf data then
      if key.isEmpty then .error (.other "empty key")
      else .ok (mask key (data.drop maskTag.length))
    else .error (.other "missing xor tag")

end Cipher

end SealedRecords
