import SealedRecords.KeyRef

/-!
# Envelopes

The wire format: six magic bytes, the length of the key reference in four big-endian bytes, the
reference and the body. A frame whose length is zero carries a payload in clear; bytes that do
not start with the magic are a raw payload.
-/

namespace SealedRecords

/-- What a byte sequence is as an envelope. -/
inductive Envelope where
  /-- A payload without a frame. -/
  | raw (body : Bytes)
  /-- A framed payload in clear. -/
  | plain (body : Bytes)
  /-- A framed ciphertext and the reference of its key. -/
  | sealed (keyRef : KeyRef) (ciphertext : Bytes)
  deriving DecidableEq, Repr

/-- Why an envelope cannot be read or written. -/
inductive EnvelopeError where
  /-- The frame needs `needed` bytes and the input has `available`. -/
  | malformed (needed available : Nat)
  /-- A reference whose length does not fit the frame. -/
  | keyRefTooLarge (size : Nat)
  /-- A sealed frame cannot carry an empty reference. -/
  | emptyKeyRef
  deriving DecidableEq, Repr

namespace Envelope

/-- The six bytes that start every frame. -/
def magic : Bytes := [0x2B, 0x45, 0x2B, 0x1B, 0x2B, 0x46]

/-- The bytes before the reference: the magic and the length. -/
def headerSize : Nat := 10

/-- The largest length that the frame can declare. -/
def maxKeyRefSize : Nat := 4294967295

/-- Whether the input starts with the magic. -/
def hasMagic (b : Bytes) : Bool := magic.isPrefixOf b

/-- The reference of a sealed envelope. -/
def keyRef? : Envelope → Option KeyRef
  | .sealed r _ => some r
  | .raw _ => none
  | .plain _ => none

/-- The payload or the ciphertext. -/
def body : Envelope → Bytes
  | .raw b => b
  | .plain b => b
  | .sealed _ c => c

/-- Whether the envelope has a frame. -/
def isFramed : Envelope → Bool
  | .raw _ => false
  | .plain _ => true
  | .sealed _ _ => true

/-- The number of bytes on the wire. -/
def wireSize : Envelope → Nat
  | .raw b => b.length
  | .plain b => headerSize + b.length
  | .sealed r c => headerSize + r.size + c.length

/-- The word for the kind of envelope. -/
def kind : Envelope → String
  | .raw _ => "raw"
  | .plain _ => "plain"
  | .sealed _ _ => "sealed"

/-- Appends bytes to a buffer. -/
def put (b : Bytes) : StateM Bytes Unit := fun dst => ((), dst ++ b)

/-- Appends a frame in clear to a buffer. -/
def encodePlain (payload : Bytes) : StateM Bytes Unit := do
  put magic
  put (Bytes.toWord 0)
  put payload

/-- Appends a sealed frame to a buffer. A reference that is empty or too long for the frame is
refused before anything is written. -/
def encodeSealed (r : KeyRef) (ciphertext : Bytes) : StateM Bytes (Except EnvelopeError Unit) := do
  if r.isEmpty then return .error .emptyKeyRef
  else if maxKeyRefSize < r.size then return .error (.keyRefTooLarge r.size)
  else
    put magic
    put (Bytes.toWord r.size)
    put r.bytes
    put ciphertext
    return .ok ()

/-- Reads an envelope. Only an input that starts with the magic can fail. -/
def decode (b : Bytes) : Except EnvelopeError Envelope :=
  if hasMagic b then
    if b.length < headerSize then .error (.malformed headerSize b.length)
    else
      let size := Bytes.ofWord ((b.drop magic.length).take 4)
      let rest := b.drop headerSize
      if size = 0 then .ok (.plain rest)
      else if rest.length < size then .error (.malformed (headerSize + size) b.length)
      else .ok (.sealed ⟨rest.take size⟩ (rest.drop size))
  else .ok (.raw b)

end Envelope

/-- The wording of an envelope error. -/
def EnvelopeError.message : EnvelopeError → String
  | .malformed needed available =>
    s!"malformed envelope: need {needed} bytes, only {available} available"
  | .keyRefTooLarge size =>
    s!"key reference too large ({size} bytes, max {Envelope.maxKeyRefSize})"
  | .emptyKeyRef => "key reference must not be empty"

end SealedRecords
