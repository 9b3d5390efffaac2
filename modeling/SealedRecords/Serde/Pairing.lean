import SealedRecords.Serde.Sealing

/-!
# Building serdes

The ways in which serializers are put together. The two sides of a pair share a channel that
nobody else has. A self-aware serde finds the reference in the value itself and uses a channel of
its own between its two layers. Serdes without a channel rely on the headers.
-/

namespace SealedRecords

/-- The serdes of the keys and the values of records. -/
structure SerdePair (κ ν : Type) where
  key : Serde κ
  value : Serde ν

/-- The serializers of the keys and the values of records. -/
structure SerializerPair (κ ν : Type) where
  key : Serializer κ
  value : Serializer ν

namespace Serde

/-- A serde that seals and opens, with or without a channel. -/
def wrap (cipher : RecordCipher) (channel : Pairing) (inner : Serde α) : Serde α where
  serializer := .sealing cipher channel inner.serializer
  deserializer := .opening cipher inner.deserializer

/-- A serde that seals under the reference in the headers. -/
def sealingByHeaders (cipher : RecordCipher) (inner : Serde α) : Serde α := wrap cipher none inner

/-- A pair whose channel is `channel`: the key side announces, the value side seals and opens. -/
def paired (cipher : RecordCipher) (extractor : Extractor κ) (channel : ChannelId)
    (key : Serde κ) (value : Serde ν) : SerdePair κ ν where
  key := ⟨.announcing extractor (some channel) key.serializer, key.deserializer⟩
  value := wrap cipher (some channel) value

/-- A serde whose reference is in the value: its serializer announces and then seals, by way of
`channel`. -/
def selfAware (cipher : RecordCipher) (extractor : Extractor α) (channel : ChannelId)
    (inner : Serde α) : Serde α :=
  let wrapped := wrap cipher (some channel) inner
  ⟨.announcing extractor (some channel) wrapped.serializer, wrapped.deserializer⟩

/-- Builds a pair on a new channel. -/
def buildPair (cipher : RecordCipher) (extractor : Extractor κ) (key : Serde κ)
    (value : Serde ν) : SerdeM (ChannelId × SerdePair κ ν) := do
  let channel ← SerdeM.onSlots Slots.create
  SerdeM.note [.pairBuilt channel]
  return (channel, paired cipher extractor channel key value)

/-- Builds a self-aware serde on a new channel. -/
def buildSelfAware (cipher : RecordCipher) (extractor : Extractor α) (inner : Serde α) :
    SerdeM (ChannelId × Serde α) := do
  let channel ← SerdeM.onSlots Slots.create
  SerdeM.note [.selfAwareBuilt channel]
  return (channel, selfAware cipher extractor channel inner)

end Serde

/-- The two serializers of a producer, which are paired by the headers alone. -/
def SerializerPair.byHeaders (cipher : RecordCipher) (extractor : Extractor κ)
    (key : Serializer κ) (value : Serializer ν) : SerializerPair κ ν where
  key := .announcing extractor none key
  value := .sealing cipher none value

end SealedRecords
