import SealedRecords.Event

/-!
# Encryption under a reference

A record cipher finds the key that answers to a reference and runs a cipher with it. It keeps
account of what it does: the random bytes it draws, the keys it looks up, the cipher calls it
makes and the events it reports. On top of it, payloads are put into envelopes and taken out of
them.

A payload leaves in clear only if it has no reference at all: with a reference the outcome is a
sealed frame or an error.
-/

namespace SealedRecords

/-- How often the cipher was called. -/
structure Calls where
  encryptions : Nat := 0
  decryptions : Nat := 0
  deriving DecidableEq, Repr

/-- The account of a sequence of actions. -/
structure Activity where
  tape : RandomTape
  /-- How often a key was looked up. -/
  lookups : Nat := 0
  calls : Calls := {}
  log : List Event := []

/-- A computation that keeps the account. -/
abbrev Act := StateM Activity

namespace Act

/-- Reports events. -/
def note (es : List Event) : Act Unit := fun a => ((), { a with log := a.log ++ es })

/-- Runs a computation that draws random bytes. -/
def drawing (x : StateM RandomTape α) : Act α := fun a =>
  let (y, t) := x a.tape
  (y, { a with tape := t })

/-- Counts one look-up of a key. -/
def countLookup : Act Unit := fun a => ((), { a with lookups := a.lookups + 1 })

/-- Counts one call of the cipher's encryption. -/
def countEncryption : Act Unit := fun a =>
  ((), { a with calls := { a.calls with encryptions := a.calls.encryptions + 1 } })

/-- Counts one call of the cipher's decryption. -/
def countDecryption : Act Unit := fun a =>
  ((), { a with calls := { a.calls with decryptions := a.calls.decryptions + 1 } })

/-- What a computation gives from an account, and the account that it leaves. -/
def exec (x : Act α) (a : Activity) : α × Activity := x a

@[simp] theorem exec_pure (x : α) (a : Activity) : (pure x : Act α).exec a = (x, a) := rfl

theorem exec_bind (x : Act α) (f : α → Act β) (a : Activity) :
    (x >>= f).exec a = (f (x.exec a).1).exec (x.exec a).2 := rfl

@[simp] theorem exec_note (es : List Event) (a : Activity) :
    (note es).exec a = ((), { a with log := a.log ++ es }) := rfl

@[simp] theorem exec_countEncryption (a : Activity) : countEncryption.exec a =
    ((), { a with calls := { a.calls with encryptions := a.calls.encryptions + 1 } }) := rfl

@[simp] theorem exec_countDecryption (a : Activity) : countDecryption.exec a =
    ((), { a with calls := { a.calls with decryptions := a.calls.decryptions + 1 } }) := rfl

@[simp] theorem exec_drawing (x : StateM RandomTape α) (a : Activity) :
    (drawing x).exec a = ((x a.tape).1, { a with tape := (x a.tape).2 }) := rfl

end Act

/-- The key that a provider has for a reference, and what it reports on the way. -/
structure Lookup where
  key : Option Bytes
  notes : List LookupNote := []
  deriving DecidableEq, Repr

/-- Answers references with keys. -/
abbrev KeyProvider := KeyRef → Lookup

/-- A provider that knows the listed keys; of two keys for a reference the later one counts. -/
def KeyProvider.ofList (keys : List (KeyRef × Bytes)) : KeyProvider := fun r =>
  { key := (keys.reverse.find? fun p => p.1 == r).map Prod.snd }

/-- A cipher together with the keys that references name. -/
structure RecordCipher where
  keys : KeyProvider
  cipher : Cipher

/-- What an envelope held: the reference of a sealed frame, and the payload unless it could not
be decrypted. -/
structure Opened where
  keyRef : Option KeyRef
  payload : Except CryptoError Bytes

/-- What reading an envelope reports. -/
def Envelope.events : Envelope → List Event
  | .raw b => [.rawPassed b.length]
  | .plain b => [.clearFrameRead b.length]
  | .sealed _ _ => []

namespace RecordCipher

/-- The key of a reference, with the provider's report. -/
def resolve (c : RecordCipher) (r : KeyRef) : Act (Option Bytes) := do
  Act.countLookup
  let found := c.keys r
  Act.note (found.notes.map .lookup)
  return found.key

/-- Encrypts data under a reference. -/
def encrypt (c : RecordCipher) (r : KeyRef) (data : Bytes) : Act (Except CryptoError Bytes) := do
  match ← c.resolve r with
  | none =>
    Act.note [.encryptionKeyMissing r]
    return .error (.keyNotFound r)
  | some key =>
    Act.countEncryption
    match ← Act.drawing (c.cipher.encrypt key data) with
    | .ok b => return .ok b
    | .error e =>
      Act.note [.encryptionFailed r e]
      return .error (.cipherFailure r e)

/-- Decrypts data under a reference. -/
def decrypt (c : RecordCipher) (r : KeyRef) (data : Bytes) : Act (Except CryptoError Bytes) := do
  match ← c.resolve r with
  | none =>
    Act.note [.decryptionKeyMissing r]
    return .error (.keyNotFound r)
  | some key =>
    Act.countDecryption
    match c.cipher.decrypt key data with
    | .ok b => return .ok b
    | .error e =>
      Act.note [.decryptionFailed r e]
      return .error (.cipherFailure r e)

/-- Puts a payload into a sealed frame. Without a reference the payload is returned as it is; an
empty reference is refused before any key is looked up. -/
def encode (c : RecordCipher) (ref : Option KeyRef) (payload : Bytes) :
    Act (Except SealingError Bytes) := do
  match ref with
  | none =>
    Act.note [.sentInClear]
    return .ok payload
  | some r =>
    if r.isEmpty then return .error (.envelope .emptyKeyRef)
    else
      match ← c.encrypt r payload with
      | .error e => return .error (.crypto e)
      | .ok ciphertext =>
        match Envelope.encodeSealed r ciphertext [] with
        | (.error e, _) => return .error (.envelope e)
        | (.ok (), b) => return .ok b

/-- Takes a payload out of an envelope. Only a malformed frame is an error; a payload that cannot
be decrypted is reported together with its reference. -/
def decode (c : RecordCipher) (b : Bytes) : Act (Except EnvelopeError Opened) := do
  match Envelope.decode b with
  | .error e => return .error e
  | .ok env =>
    Act.note env.events
    match env with
    | .raw body => return .ok ⟨none, .ok body⟩
    | .plain body => return .ok ⟨none, .ok body⟩
    | .sealed r ciphertext =>
      let payload ← c.decrypt r ciphertext
      return .ok ⟨some r, payload⟩

end RecordCipher

end SealedRecords
