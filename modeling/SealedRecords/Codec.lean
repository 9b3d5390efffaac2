import SealedRecords.Headers
import SealedRecords.Json.Order
import SealedRecords.Keys.Naming

/-!
# Payload codecs

A codec turns values into bytes and bytes into values, without any encryption. It may look at the
headers of the record and change them; changes made before a failure stay. Absent values and
absent bytes are passed through.
-/

namespace SealedRecords

/-- Why a value could not be written or read. -/
inductive SerdeError where
  | envelope (cause : EnvelopeError)
  /-- No reference could be computed for the record. -/
  | keyReference (cause : ExtractionError)
  | utf8 (cause : Utf8.Fault)
  | json (cause : Json.Fault)
  /-- A cause that a codec states in its own words. -/
  | codec (text : String)
  deriving DecidableEq, Repr

/-- The wording of an error. -/
def SerdeError.message : SerdeError → String
  | .envelope e => "envelope error: " ++ e.message
  | .keyReference e => "key reference extraction failed: " ++ e.message
  | .utf8 e => "invalid UTF-8 payload: " ++ e.message
  | .json e => "json error: " ++ e.message
  | .codec text => "codec error: " ++ text

/-- A computation of a codec, which may change the headers. -/
abbrev CodecM := ExceptT SerdeError (StateM Headers)

/-- Turns values into bytes and back, for records of a topic. -/
structure Codec (α : Type) where
  serialize : (topic : String) → Option α → CodecM (Option Bytes)
  deserialize : (topic : String) → Option Bytes → CodecM (Option α)

namespace Codec

/-- A codec that pays no attention to topic and headers and passes absence through. -/
def ofFunctions (write : α → Bytes) (read : Bytes → Except SerdeError α) : Codec α where
  serialize := fun _ v => return v.map write
  deserialize := fun _ b =>
    match b with
    | none => return none
    | some b =>
      match read b with
      | .ok v => return some v
      | .error e => throw e

/-- Bytes as they are. -/
def bytes : Codec Bytes := ofFunctions id .ok

/-- Reads bytes as a text. -/
def readText (b : Bytes) : Except SerdeError String :=
  match Utf8.decode b with
  | .ok s => .ok s
  | .error e => .error (.utf8 e)

/-- Texts in UTF-8. -/
def text : Codec String := ofFunctions Utf8.encode readText

/-- A value as a JSON text. -/
def ofJson (write : α → JsonValue) (read : Bytes → Except Json.Fault α) : Codec α :=
  ofFunctions (fun v => Utf8.encode (write v).render) fun b =>
    match read b with
    | .ok v => .ok v
    | .error e => .error (.json e)

/-- Any JSON value. -/
def json : Codec JsonValue := ofJson id Json.parse

/-- Orders. -/
def order : Codec Order := ofJson Order.toJson Order.parse

/-- Texts whose codec meddles with the headers: writing announces the topic as the reference of
the record, reading leaves a mark that says whether there was anything to read. -/
def meddling : Codec String where
  serialize := fun topic v => do
    modify fun h => h.addKeyRef (some (KeyRef.ofText topic))
    text.serialize topic v
  deserialize := fun topic b => do
    modify fun h => h.add "seen" (some (Utf8.encode (if b.isSome then "some" else "none")))
    text.deserialize topic b

/-- A codec that refuses everything. -/
def refusing : Codec α where
  serialize := fun _ _ => throw (.codec "value rejected")
  deserialize := fun _ _ => throw (.codec "payload rejected")

/-- A codec for which everything is absent. -/
def absent : Codec α where
  serialize := fun _ _ => return none
  deserialize := fun _ _ => return none

end Codec

end SealedRecords
