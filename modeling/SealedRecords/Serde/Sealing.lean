import SealedRecords.Serde.Basic

/-!
# Sealing serializers

The key side of a record computes the reference of its key, writes it into the headers and, if it
has a channel, publishes it for the value side. The value side seals the written value under the
reference that it finds: in its slot if it has a channel, else in the headers. A slot is emptied
before anything can fail, so a reference is used for one value at most.

A value that cannot be encrypted is left out, and never sent in clear. Reading is the reverse: a
value that cannot be decrypted is read as absent, and the headers tell the reference.
-/

namespace SealedRecords

/-- The channel of a serializer, if it has one. -/
abbrev Pairing := Option ChannelId

namespace Serializer

/-- Announces a reference, or its absence: to the headers, and on the channel if there is one. -/
def announce (channel : Pairing) (thread : Thread) (topic : String) (ref : Option KeyRef) :
    SerdeM Unit := do
  SerdeM.note [.referenceExtracted topic ref.isSome]
  SerdeM.onHeaders fun h => h.addKeyRef ref
  match channel with
  | none => return ()
  | some c =>
    SerdeM.note [.referencePublished c ref.isSome]
    SerdeM.onSlots fun s => ((), s.publish thread c ref)

/-- Computes and announces the reference of a record before its key is written. If it cannot be
computed nothing is announced. -/
def announcing (extractor : Extractor α) (channel : Pairing) (inner : Serializer α) :
    Serializer α := fun thread topic key => do
  match ← SerdeM.account (Act.drawing (extractor.ofRecord topic key)) with
  | .error e => throw (.keyReference e)
  | .ok ref =>
    announce channel thread topic ref
    inner thread topic key

/-- Empties the slot of a channel and tells what was in it. -/
def takeSlot (channel : Pairing) (thread : Thread) : SerdeM (Option (Option KeyRef)) :=
  match channel with
  | some c => some <$> SerdeM.onSlots (Slots.take thread c)
  | none => return none

/-- Puts a written value into an envelope. A value that cannot be encrypted is left out. -/
def sealPayload (cipher : RecordCipher) (topic : String) (ref : Option KeyRef) (payload : Bytes) :
    SerdeM (Option Bytes) := do
  match ← SerdeM.account (cipher.encode ref payload) with
  | .ok b => return some b
  | .error (.crypto e) =>
    SerdeM.note [.recordDropped topic e]
    return none
  | .error (.envelope e) => throw (.envelope e)

/-- Seals what the inner serializer writes. -/
def sealing (cipher : RecordCipher) (channel : Pairing) (inner : Serializer α) :
    Serializer α := fun thread topic value => do
  let pending ← takeSlot channel thread
  match ← inner thread topic value with
  | none => return none
  | some payload =>
    match pending with
    | some slot => sealPayload cipher topic slot payload
    | none => sealPayload cipher topic (← SerdeM.headers).keyRef? payload

end Serializer

/-- Opens what the inner deserializer reads, and appends the reference of the envelope to the
headers once the value has been read. -/
def Deserializer.opening (cipher : RecordCipher) (inner : Deserializer α) : Deserializer α :=
  fun thread topic data => do
    match data with
    | none => return none
    | some b =>
      match ← SerdeM.account (cipher.decode b) with
      | .error e => throw (.envelope e)
      | .ok opened =>
        let value ← inner thread topic opened.payload.toOption
        SerdeM.onHeaders fun h => h.addKeyRef opened.keyRef
        return value

end SealedRecords
