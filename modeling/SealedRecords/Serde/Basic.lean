import SealedRecords.Codec
import SealedRecords.RecordCipher
import SealedRecords.Slots

/-!
# Serializers and deserializers

Writing and reading the values of records, with everything that it may touch: the headers of the
record, the slots of the channels, and the account of random bytes, cipher calls and events. What
was touched before a failure stays touched.
-/

namespace SealedRecords

/-- What a serializer or deserializer works on. -/
structure Exchange where
  activity : Activity
  slots : Slots := {}
  headers : Headers := {}

/-- A computation on an exchange. -/
abbrev SerdeM := ExceptT SerdeError (StateM Exchange)

namespace SerdeM

/-- Runs a computation that keeps the account. -/
def account (x : Act α) : SerdeM α := ExceptT.mk fun s =>
  let (a, activity) := x s.activity
  (.ok a, { s with activity := activity })

/-- Runs a codec on the headers. -/
def codec (x : CodecM α) : SerdeM α := ExceptT.mk fun s =>
  let (a, headers) := x.run s.headers
  (a, { s with headers := headers })

/-- Changes the slots. -/
def onSlots (x : StateM Slots α) : SerdeM α := ExceptT.mk fun s =>
  let (a, slots) := x s.slots
  (.ok a, { s with slots := slots })

/-- Changes the headers. -/
def onHeaders (f : Headers → Headers) : SerdeM Unit := ExceptT.mk fun s =>
  (.ok (), { s with headers := f s.headers })

/-- The headers as they are now. -/
def headers : SerdeM Headers := ExceptT.mk fun s => (.ok s.headers, s)

/-- Reports events. -/
def note (es : List Event) : SerdeM Unit := account (Act.note es)

/-! ## Running -/

/-- What a computation ends with on an exchange, and the exchange that it leaves. -/
def exec (x : SerdeM α) (s : Exchange) : Except SerdeError α × Exchange := x.run.run s

@[simp] theorem exec_pure (a : α) (s : Exchange) : (pure a : SerdeM α).exec s = (.ok a, s) := rfl

@[simp] theorem exec_throw (e : SerdeError) (s : Exchange) :
    (throw e : SerdeM α).exec s = (.error e, s) := rfl

theorem exec_bind (x : SerdeM α) (f : α → SerdeM β) (s : Exchange) :
    (x >>= f).exec s =
      match x.exec s with
      | (.ok a, s') => (f a).exec s'
      | (.error e, s') => (.error e, s') := by
  show (ExceptT.bindCont f (x.exec s).1).run (x.exec s).2 = _
  cases x.exec s with
  | mk y s' => cases y <;> rfl

@[simp] theorem exec_account (x : Act α) (s : Exchange) :
    (account x).exec s =
      (.ok (x.exec s.activity).1, { s with activity := (x.exec s.activity).2 }) := rfl

@[simp] theorem exec_note (es : List Event) (s : Exchange) :
    (note es).exec s =
      (.ok (), { s with activity := { s.activity with log := s.activity.log ++ es } }) := rfl

@[simp] theorem exec_codec (x : CodecM α) (s : Exchange) :
    (codec x).exec s = ((x.run s.headers).1, { s with headers := (x.run s.headers).2 }) := rfl

@[simp] theorem exec_onSlots (x : StateM Slots α) (s : Exchange) :
    (onSlots x).exec s = (.ok (x s.slots).1, { s with slots := (x s.slots).2 }) := rfl

@[simp] theorem exec_onHeaders (f : Headers → Headers) (s : Exchange) :
    (onHeaders f).exec s = (.ok (), { s with headers := f s.headers }) := rfl

@[simp] theorem exec_headers (s : Exchange) : headers.exec s = (.ok s.headers, s) := rfl

end SerdeM

/-- Writes the value of a record of a topic, on a thread. -/
abbrev Serializer (α : Type) := Thread → (topic : String) → Option α → SerdeM (Option Bytes)

/-- Reads the value of a record of a topic, on a thread. -/
abbrev Deserializer (α : Type) := Thread → (topic : String) → Option Bytes → SerdeM (Option α)

/-- A serializer and a deserializer of the same values. -/
structure Serde (α : Type) where
  serializer : Serializer α
  deserializer : Deserializer α

/-- The serde of a codec alone. -/
def Codec.serde (c : Codec α) : Serde α where
  serializer := fun _ topic v => SerdeM.codec (c.serialize topic v)
  deserializer := fun _ topic b => SerdeM.codec (c.deserialize topic b)

end SealedRecords
