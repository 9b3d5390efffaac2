import SealedRecords.Codec
import SealedRecords.RecordCipher
import SealedRecords.Slots
import SealedRecords.Text.Outline

/-!
# The shapes of the library's values

How the values and the parts of the library appear in an outline. Parts that work with keys show
which parts they are made of and nothing of the keys.
-/

namespace SealedRecords

/-- The shape of a byte sequence. -/
def bytesOutline (b : Bytes) : Outline := .word (Quoted.bytes b)

/-- The shape of a reference: its display. -/
def KeyRef.outline (r : KeyRef) : Outline := .word ("KeyRef(" ++ r.display ++ ")")

/-- The shape of an envelope. -/
def Envelope.outline : Envelope → Outline
  | .raw b => .tuple "Raw" [bytesOutline b]
  | .plain b => .tuple "Plain" [bytesOutline b]
  | .sealed r c =>
    .record "Sealed" [("key_ref", r.outline), ("ciphertext", bytesOutline c)] false

/-- The shape of an envelope error. -/
def EnvelopeError.outline : EnvelopeError → Outline
  | .malformed needed available =>
    .record "Malformed" [("needed", .number needed), ("available", .number available)] false
  | .keyRefTooLarge size =>
    .record "KeyRefTooLarge" [("size", .number size), ("max", .number Envelope.maxKeyRefSize)]
      false
  | .emptyKeyRef => .word "EmptyKeyRef"

/-- The shape of a cipher error. -/
def CipherError.outline : CipherError → Outline
  | .invalidKeyLength n =>
    .record "InvalidKeyLen" [("expected", .number 32), ("actual", .number n)] false
  | .tooShort n => .record "TooShort" [("len", .number n), ("min", .number 28)] false
  | .tagMismatch => .word "TagMismatch"
  | .other text => .word (Quoted.text text)

/-- The shape of an error of encryption under a reference. -/
def CryptoError.outline : CryptoError → Outline
  | .keyNotFound r => .record "KeyNotFound" [("key_ref", r.outline)] false
  | .cipherFailure r e =>
    .record "CipherFailure" [("key_ref", r.outline), ("source", e.outline)] false

/-- The shape of an opened envelope. -/
def Opened.outline (o : Opened) : Outline :=
  .record "Opened" [("key_ref", .option KeyRef.outline o.keyRef),
    ("payload", match o.payload with
      | .ok b => .tuple "Ok" [bytesOutline b]
      | .error e => .tuple "Err" [e.outline])] false

/-- The parts that serdes and key providers are made of. -/
inductive Part where
  /-- AES-GCM with additional data. -/
  | gcm (aad : Bytes)
  /-- A master key; the key itself is not shown. -/
  | masterKey
  /-- A generator of data keys of a length. -/
  | keyGenerator (length : Nat)
  /-- The references that are names. -/
  | plainNames
  | envelopeEncoder
  | envelopeDecoder
  | serde
  | jsonCodec
  | textCodec
  | bytesCodec
  /-- What builds serdes that seal. -/
  | serdeFactory
  /-- What builds the serializers of a producer. -/
  | producerFactory
  | serdePair
  | serializerPair
  | sealingSerializer (channel : Option ChannelId)
  | openingDeserializer
  | announcingSerializer (channel : Option ChannelId)
  deriving DecidableEq, Repr

/-- A part that shows nothing of itself. -/
def closed (name : String) : Outline := .record name [] true

/-- The shape of a channel. -/
def channelOutline (c : ChannelId) : Outline := .record "KeyRefChannel" [("id", .number c)] false

/-- The shape of a part. -/
def Part.outline : Part → Outline
  | .gcm aad =>
    .record "AesGcmAlgorithm" [("aad", .list (aad.map fun b => .number b.toNat))] false
  | .masterKey =>
    .record "AlgorithmMasterKey" [("master_key", .word (Quoted.text "<redacted>"))] true
  | .keyGenerator n => .record "RandomKeyGenerator" [("key_len", .number n)] false
  | .plainNames => .word "PlainKeyNames"
  | .envelopeEncoder => closed "EnvelopeEncoder"
  | .envelopeDecoder => closed "EnvelopeDecoder"
  | .serde => closed "Serde"
  | .jsonCodec => .word "JsonSerde"
  | .textCodec => .word "StringSerde"
  | .bytesCodec => .word "BytesSerde"
  | .serdeFactory => closed "CryptoSerdeFactory"
  | .producerFactory => closed "CryptoSerializerPairFactory"
  | .serdePair =>
    .record "SerdePair" [("key", closed "Serde"), ("value", closed "Serde")] false
  | .serializerPair => closed "SerializerPair"
  | .sealingSerializer c =>
    .record "CryptoSerializer"
      [("encoder", closed "EnvelopeEncoder"), ("channel", .option channelOutline c)] true
  | .openingDeserializer =>
    .record "CryptoDeserializer" [("decoder", closed "EnvelopeDecoder")] true
  | .announcingSerializer c =>
    .record "KeyRefSerializer" [("channel", .option channelOutline c)] true

end SealedRecords
