import SealedRecords.Cipher.Basic
import SealedRecords.Envelope

/-!
# Errors of encryption under a reference

A payload cannot be encrypted or decrypted because no key answers to the reference, or because
the cipher failed with the key that does. Writing an envelope can also fail for the frame's sake.
-/

namespace SealedRecords

/-- Why a payload could not be encrypted or decrypted under a reference. -/
inductive CryptoError where
  /-- No key answers to the reference. -/
  | keyNotFound (keyRef : KeyRef)
  /-- The cipher failed with the key of the reference. -/
  | cipherFailure (keyRef : KeyRef) (cause : CipherError)
  deriving DecidableEq, Repr

/-- The reference that an error is about. -/
def CryptoError.keyRef : CryptoError → KeyRef
  | .keyNotFound r => r
  | .cipherFailure r _ => r

/-- The wording of an error. -/
def CryptoError.message : CryptoError → String
  | .keyNotFound r => s!"no key found for key reference {r.display}"
  | .cipherFailure r e => s!"cipher failed for key reference {r.display}: {e.message}"

/-- Why a payload could not be put into an envelope. -/
inductive SealingError where
  | envelope (cause : EnvelopeError)
  | crypto (cause : CryptoError)
  deriving DecidableEq, Repr

/-- The wording of an error. -/
def SealingError.message : SealingError → String
  | .envelope e => "envelope error: " ++ e.message
  | .crypto e => "crypto error: " ++ e.message

end SealedRecords
