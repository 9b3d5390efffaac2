import SealedRecords.CryptoError

/-!
# Log events

What the library reports while it works, as causes. Level, wording and fields of an event are
functions of the cause; how an event becomes a line is the business of the program that prints
it. No event carries a payload or a key.
-/

namespace SealedRecords

/-- How important an event is, the most important first. -/
inductive Level where
  | error
  | warn
  | info
  | debug
  | trace
  deriving DecidableEq, Repr

/-- The position of a level, counted from the most important. -/
def Level.rank : Level → Nat
  | .error => 1
  | .warn => 2
  | .info => 3
  | .debug => 4
  | .trace => 5

/-- The word for a level. -/
def Level.name : Level → String
  | .error => "ERROR"
  | .warn => "WARN"
  | .info => "INFO"
  | .debug => "DEBUG"
  | .trace => "TRACE"

/-- A value in an event. -/
inductive FieldValue where
  /-- A text that a line shows as it is. -/
  | shown (text : String)
  /-- A text that a line shows in quotes. -/
  | text (text : String)
  | number (n : Nat)
  | flag (b : Bool)
  deriving DecidableEq, Repr

/-- A value as plain text. -/
def FieldValue.plain : FieldValue → String
  | .shown s => s
  | .text s => s
  | .number n => toString n
  | .flag b => if b then "true" else "false"

/-- What a key provider reports while it looks for a key. -/
inductive LookupNote where
  /-- The reference does not denote a key name. -/
  | unnamedReference (keyRef : KeyRef)
  /-- The reference does not unwrap to a data key. -/
  | unwrapFailed (cause : CipherError)
  deriving DecidableEq, Repr

/-- What the library reports. -/
inductive Event where
  /-- The input of `size` bytes has no frame. -/
  | rawPassed (size : Nat)
  /-- The frame carries `size` bytes in clear. -/
  | clearFrameRead (size : Nat)
  /-- A key provider's report. -/
  | lookup (note : LookupNote)
  /-- No key answers to the reference of a payload to encrypt. -/
  | encryptionKeyMissing (keyRef : KeyRef)
  /-- The cipher failed to encrypt. -/
  | encryptionFailed (keyRef : KeyRef) (cause : CipherError)
  /-- No key answers to the reference of a payload to decrypt. -/
  | decryptionKeyMissing (keyRef : KeyRef)
  /-- The cipher failed to decrypt. -/
  | decryptionFailed (keyRef : KeyRef) (cause : CipherError)
  /-- A payload without a reference is left in clear. -/
  | sentInClear
  /-- The key side has, or has not, found a reference for a record. -/
  | referenceExtracted (topic : String) (present : Bool)
  /-- A reference, or its absence, is published on a channel. -/
  | referencePublished (channel : Nat) (present : Bool)
  /-- A record could not be encrypted and is left out. -/
  | recordDropped (topic : String) (cause : CryptoError)
  /-- A pair of serdes with a channel was built. -/
  | pairBuilt (channel : Nat)
  /-- A serde that finds its reference in the value was built. -/
  | selfAwareBuilt (channel : Nat)
  /-- A key was read from a key directory. -/
  | keyLoaded (name : String)
  /-- A command needs keys and has no key directory. -/
  | noKeyDirectory
  /-- A key directory was read. -/
  | keysLoaded (directory : String) (count : Nat)
  /-- A command writes a frame in clear. -/
  | framedInClear (payloadSize : Nat)
  /-- A command has sealed a payload. -/
  | payloadSealed (keyRef : KeyRef) (payloadSize envelopeSize : Nat)
  /-- A command has written a new key. -/
  | keyGenerated (name path : String)
  deriving DecidableEq, Repr

namespace Event

/-- The importance of an event. -/
def level : Event → Level
  | .rawPassed _ => .trace
  | .clearFrameRead _ => .trace
  | .lookup _ => .warn
  | .encryptionKeyMissing _ => .warn
  | .encryptionFailed _ _ => .error
  | .decryptionKeyMissing _ => .warn
  | .decryptionFailed _ _ => .error
  | .sentInClear => .debug
  | .referenceExtracted _ _ => .trace
  | .referencePublished _ _ => .trace
  | .recordDropped _ _ => .debug
  | .pairBuilt _ => .debug
  | .selfAwareBuilt _ => .debug
  | .keyLoaded _ => .debug
  | .noKeyDirectory => .warn
  | .keysLoaded _ _ => .debug
  | .framedInClear _ => .debug
  | .payloadSealed _ _ _ => .debug
  | .keyGenerated _ _ => .info

/-- The wording of an event. -/
def message : Event → String
  | .rawPassed _ => "no envelope magic, passing through raw payload"
  | .clearFrameRead _ => "envelope without key reference, payload is not encrypted"
  | .lookup (.unnamedReference _) => "key reference does not map to a key name"
  | .lookup (.unwrapFailed _) => "failed to unwrap data key"
  | .encryptionKeyMissing _ => "no key found for key reference"
  | .encryptionFailed _ _ => "error while encrypting data"
  | .decryptionKeyMissing _ => "no key found, record cannot be decrypted"
  | .decryptionFailed _ _ => "error while decrypting data"
  | .sentInClear => "no key reference, data will be sent unencrypted"
  | .referenceExtracted _ _ => "extracted key reference"
  | .referencePublished _ _ => "publishing key reference"
  | .recordDropped _ _ => "record dropped, no encrypted output"
  | .pairBuilt _ => "building key/value serde pair"
  | .selfAwareBuilt _ => "building self-aware serde"
  | .keyLoaded _ => "loaded key"
  | .noKeyDirectory => "no key directory configured, no key will resolve"
  | .keysLoaded _ _ => "loaded key directory"
  | .framedInClear _ => "framing payload without encryption"
  | .payloadSealed _ _ _ => "sealed payload"
  | .keyGenerated _ _ => "generated key"

/-- The named values of an event, in the order in which a line shows them. -/
def fields : Event → List (String × FieldValue)
  | .rawPassed n => [("len", .number n)]
  | .clearFrameRead n => [("len", .number n)]
  | .lookup (.unnamedReference r) => [("key_ref", .shown r.display)]
  | .lookup (.unwrapFailed e) => [("error", .shown e.message)]
  | .encryptionKeyMissing r => [("key_ref", .shown r.display)]
  | .encryptionFailed r e => [("key_ref", .shown r.display), ("error", .shown e.message)]
  | .decryptionKeyMissing r => [("key_ref", .shown r.display)]
  | .decryptionFailed r e => [("key_ref", .shown r.display), ("error", .shown e.message)]
  | .sentInClear => []
  | .referenceExtracted topic present => [("topic", .text topic), ("present", .flag present)]
  | .referencePublished channel present =>
    [("channel", .number channel), ("present", .flag present)]
  | .recordDropped topic e => [("topic", .text topic), ("error", .shown e.message)]
  | .pairBuilt channel => [("channel", .number channel)]
  | .selfAwareBuilt channel => [("channel", .number channel)]
  | .keyLoaded name => [("name", .text name)]
  | .noKeyDirectory => []
  | .keysLoaded dir n => [("dir", .shown dir), ("keys", .number n)]
  | .framedInClear n => [("payload_size", .number n)]
  | .payloadSealed r n m =>
    [("key_ref", .shown r.display), ("payload_size", .number n), ("envelope_size", .number m)]
  | .keyGenerated name path => [("name", .shown name), ("path", .shown path)]

end Event

end SealedRecords
