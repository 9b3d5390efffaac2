import SealedRecords.Cipher.Gcm
import SealedRecords.Command.Arguments
import SealedRecords.Command.LogLine
import SealedRecords.Command.Output
import SealedRecords.Host
import SealedRecords.Keys.Naming

/-!
# Running commands

What each command does, on any host. A command either has a result to print or ends with an
error, which has an exit code and a message; it never has both. Keys are read only when they are
needed, and nothing is written before everything that can be checked has been checked.
-/

namespace SealedRecords

namespace Command

/-- Why a command has no result. -/
inductive Failure where
  /-- A file could not be read. -/
  | readFailed (path : String) (cause : OsError)
  /-- The standard input could not be read. -/
  | inputFailed (cause : OsError)
  /-- A directory could not be made. -/
  | createFailed (path : String) (cause : OsError)
  /-- A file could not be opened for writing, or not be written. -/
  | writeFailed (path : String) (cause : OsError)
  /-- An envelope on the command line is not hexadecimal. -/
  | invalidHex (cause : Hex.Fault)
  /-- The command `verb` met a faulty envelope. -/
  | envelope (verb : String) (cause : EnvelopeError)
  /-- The command `verb` could not encrypt or decrypt. -/
  | crypto (verb : String) (cause : CryptoError)
  /-- The key directory could not be loaded. -/
  | keysNotLoaded (cause : KeyStoreError)
  /-- A new key was refused. -/
  | invalidKey (cause : KeyStoreError)
  /-- A new key has no directory to go to. -/
  | noKeyDirectory
  deriving DecidableEq, Repr

/-- The exit code for a failed file operation. -/
def osExitCode : OsError → Nat
  | .permissionDenied => 50
  | .notFound => 64
  | .alreadyExists => 1
  | _ => 125

/-- The exit code for a refused key or key directory. -/
def keyStoreExitCode : KeyStoreError → Nat
  | .invalidName _ => 64
  | _ => 78

/-- The exit code for a faulty envelope. -/
def envelopeExitCode : EnvelopeError → Nat
  | .malformed _ _ => 60
  | _ => 64

namespace Failure

/-- The exit code of a failed command. -/
def exitCode : Failure → Nat
  | .readFailed _ e => osExitCode e
  | .inputFailed e => osExitCode e
  | .createFailed _ e => osExitCode e
  | .writeFailed _ e => osExitCode e
  | .invalidHex _ => 60
  | .envelope _ e => envelopeExitCode e
  | .crypto _ _ => 3
  | .keysNotLoaded e => keyStoreExitCode e
  | .invalidKey e => keyStoreExitCode e
  | .noKeyDirectory => 64

/-- The message of a failed command. -/
def message : Failure → String
  | .readFailed path e => s!"failed reading {path}: {e.message}"
  | .inputFailed e => "failed reading stdin: " ++ e.message
  | .createFailed path e => s!"failed creating {path}: {e.message}"
  | .writeFailed path e => s!"failed writing {path}: {e.message}"
  | .invalidHex e => "--data-hex is not valid hex: " ++ e.message
  | .envelope verb e => s!"{verb} failed: {e.message}"
  | .crypto verb e => s!"{verb} failed: {e.message}"
  | .keysNotLoaded e => "failed loading keys: " ++ e.message
  | .invalidKey e => "invalid key: " ++ e.message
  | .noKeyDirectory => "keygen requires --key-dir (or RECSEAL_KEY_DIR)"

end Failure

/-- A command at work: it asks the host, keeps the account, and may fail. -/
abbrev Work (m : Type → Type) := ExceptT Failure (StateT Activity m)

namespace Work

variable {m : Type → Type} [Monad m]

/-- Asks the host. -/
def ask (x : m α) : Work m α := ExceptT.lift (StateT.lift x)

/-- Asks the host for something that can fail. -/
def attempt (x : m (Except OsError α)) (failure : OsError → Failure) : Work m α := do
  match ← ask x with
  | .ok a => return a
  | .error e => throw (failure e)

/-- Runs a computation that keeps the account. -/
def account (x : Act α) : Work m α := ExceptT.lift fun a => pure (x a)

end Work

variable {m : Type → Type} [Monad m]

/-- The content of a file, or the standard input. -/
def readBytes (host : Host m) (path : Option String) : Work m Bytes :=
  match path with
  | some path => Work.attempt (host.fileContent path) (.readFailed path)
  | none => Work.attempt host.readInput .inputFailed

/-- The payload to seal. A text on the command line is taken in UTF-8. -/
def readPayload (host : Host m) : Source → Work m Bytes
  | .given text => return Utf8.encode text
  | .file path => readBytes host (some path)
  | .input => readBytes host none

/-- The envelope to open or inspect. A text on the command line is hexadecimal. -/
def readEnvelope (host : Host m) : Source → Work m Bytes
  | .given text =>
    match Hex.decodeTrimmed text with
    | .ok b => return b
    | .error e => throw (.invalidHex e)
  | .file path => readBytes host (some path)
  | .input => readBytes host none

/-- The keys of the key directory; none without a directory. -/
def loadKeys (host : Host m) (options : Options) : Work m KeyStore := do
  match options.keyDirectory with
  | none =>
    Work.account (Act.note [.noKeyDirectory])
    return {}
  | some dir =>
    let (result, events) := KeyStore.ofDirectory {} dir (← Work.ask (host.listDirectory dir))
    Work.account (Act.note events)
    match result with
    | .error e => throw (.keysNotLoaded e)
    | .ok store =>
      Work.account (Act.note [.keysLoaded dir store.size])
      return store

/-- The cipher of the commands, over given keys. -/
def recordCipher (options : Options) (store : KeyStore) : RecordCipher where
  keys := store.provider
  cipher := Gcm.cipher (match options.aad with
    | some aad => Utf8.encode aad
    | none => [])

/-- Puts a payload into an envelope: in clear without a key name, else sealed. -/
def runSeal (host : Host m) (options : Options) (keyName : Option String) (source : Source) :
    Work m Bytes := do
  let payload ← readPayload host source
  match keyName with
  | none =>
    Work.account (Act.note [.framedInClear payload.length])
    return sealedEnvelope options.format none payload.length (Envelope.encodePlain payload []).2
  | some name =>
    let r := KeyRef.ofText name
    let store ← loadKeys host options
    match ← Work.account ((recordCipher options store).encode (some r) payload) with
    | .error (.envelope e) => throw (.envelope "seal" e)
    | .error (.crypto e) => throw (.crypto "seal" e)
    | .ok envelope =>
      Work.account (Act.note [.payloadSealed r payload.length envelope.length])
      return sealedEnvelope options.format (some r) payload.length envelope

/-- Takes the payload out of an envelope. -/
def runUnseal (host : Host m) (options : Options) (source : Source) : Work m Bytes := do
  let data ← readEnvelope host source
  let store ← loadKeys host options
  match ← Work.account ((recordCipher options store).decode data) with
  | .error e => throw (.envelope "open" e)
  | .ok opened =>
    match opened.payload with
    | .ok payload => return openedPayload options.format opened.keyRef payload
    | .error e => throw (.crypto "open" e)

/-- Shows what an envelope says about itself; no keys are needed. -/
def runInspect (host : Host m) (options : Options) (source : Source) : Work m Bytes := do
  let data ← readEnvelope host source
  match Envelope.decode data with
  | .error e => throw (.envelope "inspect" e)
  | .ok envelope =>
    Work.account (Act.note envelope.events)
    return inspected options.format envelope

/-- The mode of a new key file: its owner may read and write it. -/
def keyFileMode : Nat := 0o600

/-- The path of the file for a key. -/
def keyFilePath (dir name : String) : String := KeyStore.pathBelow dir (name ++ ".key")

/-- What the file for a key holds. -/
def keyFileContent (key : Bytes) : Bytes := line (Hex.encode key)

/-- Makes a new key. The name is checked before anything is made; the random bytes are drawn
first in any case. Nothing takes back what was made if a later step fails: without room for the
key its file is there and empty. -/
def runKeygen (host : Host m) (options : Options) (name : String) (force : Bool) :
    Work m Bytes := do
  match options.keyDirectory with
  | none => throw .noKeyDirectory
  | some dir =>
    let key ← Work.account (Act.drawing (RandomTape.draw Gcm.keySize))
    match KeyStore.insert {} name key with
    | .error e => throw (.invalidKey e)
    | .ok _ =>
      Work.attempt (host.makeDirectories (dir.length + 1) dir) (.createFailed dir)
      let path := keyFilePath dir name
      let file ← Work.attempt (host.openFile path (!force) keyFileMode) (.writeFailed path)
      Work.attempt (host.write file (keyFileContent key)) (.writeFailed path)
      Work.account (Act.note [.keyGenerated name path])
      return keyFile options.format name path key.length

/-- The name of the program. -/
def programName : String := "recseal"

/-- The version of the program. -/
def programVersion : String := "0.1.0"

/-- The name and the version, or more about the program. What the program was built for (`target`,
`target_os` and `target_arch`) is known to a build and not to the library, and is left out. -/
def versionText (extended : Bool) : Bytes :=
  if extended then
    line s!"name: {programName}" ++ line s!"version: {programVersion}" ++
      line ("envelope_magic: " ++ Hex.encode Envelope.magic) ++
      line s!"cipher: AES-256-GCM (key {Gcm.keySize} bytes, nonce {Gcm.nonceSize} bytes)"
  else line s!"{programName} {programVersion}"

/-- Runs a command. -/
def run (host : Host m) (call : Invocation) : Work m Bytes :=
  match call.verb with
  | .seal keyName source => runSeal host call.options keyName source
  | .unseal source => runUnseal host call.options source
  | .inspect source => runInspect host call.options source
  | .keygen name force => runKeygen host call.options name force
  | .version extended => return versionText extended

/-! ## What a caller sees -/

/-- What is left of a finished command. A command that panics did not get its output out: the
standard output has taken some of it at most. -/
structure Outcome where
  exitCode : Nat
  output : Bytes := []
  log : List Event := []
  failure : Option String := none
  panic : Option String := none

/-- The exit code of a command that panics. -/
def panicExitCode : Nat := 101

/-- Whether a result is printed as it is. The program does not look whether such bytes got out;
with a line that did not it panics. -/
def Invocation.printsBare (call : Invocation) : Bool :=
  match call.verb with
  | .seal _ _ | .unseal _ => call.options.format == .raw
  | _ => false

/-- What a caller sees of a result, by what became of printing it. -/
def Invocation.printed (call : Invocation) (output : Bytes) (log : List Event) :
    Except OsError Unit → Outcome
  | .ok () => { exitCode := 0, output := output, log := log }
  | .error e =>
    if call.printsBare then { exitCode := 0, output := output, log := log }
    else { exitCode := panicExitCode, output := output, log := log,
           panic := some ("failed printing to stdout: " ++ e.message) }

/-- Runs a command from an account, prints its result, and tells what a caller sees of it. -/
def outcome (host : Host m) (call : Invocation) (start : Activity) : m Outcome := do
  let (result, account) ← (run host call).run start
  let log := loggedEvents call.options.logLevel account.log
  match result with
  | .ok output => return call.printed output log (← host.print output)
  | .error e => return { exitCode := e.exitCode, log := log, failure := some e.message }

/-- How the program is used. -/
def usageText : String :=
  programName ++ " [OPTIONS] seal [KEY] | open | inspect | keygen NAME | version"

/-- What a caller sees of a command line that is not run. -/
def Refusal.outcome : Refusal → Outcome
  | .usage => { exitCode := 2, failure := some ("usage: " ++ usageText) }
  | .help => { exitCode := 0, output := line usageText }
  | .version => { exitCode := 0, output := versionText false }

end Command

end SealedRecords
