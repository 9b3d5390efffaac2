import SealedRecords.Command.Run

/-!
# The command line

The real system as a host, and the program: it takes its words, its environment, its input and
its random bytes from the system, runs the command, and prints what a caller is to see.
-/

namespace SealedRecords.Command

open SealedRecords

/-- The number and the words of an error of the system. -/
def errorDetails : IO.Error → UInt32 × String
  | .alreadyExists _ code text => (code, text)
  | .otherError code text => (code, text)
  | .resourceBusy code text => (code, text)
  | .resourceVanished code text => (code, text)
  | .unsupportedOperation code text => (code, text)
  | .hardwareFault code text => (code, text)
  | .unsatisfiedConstraints code text => (code, text)
  | .illegalOperation code text => (code, text)
  | .protocolError code text => (code, text)
  | .timeExpired code text => (code, text)
  | .interrupted _ code text => (code, text)
  | .noFileOrDirectory _ code text => (code, text)
  | .invalidArgument _ code text => (code, text)
  | .permissionDenied _ code text => (code, text)
  | .resourceExhausted _ code text => (code, text)
  | .inappropriateType _ code text => (code, text)
  | .noSuchThing _ code text => (code, text)
  | .unexpectedEof => (0, "unexpected end of file")
  | .userError text => (0, text)

/-- The number of an error. Some operations report it as the negative of a 32-bit word. -/
def errorNumber (code : UInt32) : Nat :=
  if 0x80000000 ≤ code then (0 - code).toNat else code.toNat

/-- The cause of an error of the system. -/
def osErrorOf (e : IO.Error) : OsError :=
  let (code, text) := errorDetails e
  match errorNumber code with
  | 2 => .notFound
  | 13 => .permissionDenied
  | 17 => .alreadyExists
  | 20 => .notADirectory
  | 21 => .isADirectory
  | 36 => .nameTooLong
  | 40 => .tooManyLinks
  | n => .other s!"{text} (os error {n})"

/-- Runs an operation of the system and catches its error. -/
def caught (x : IO α) : IO (Except OsError α) := do
  try
    return .ok (← x)
  catch e =>
    return .error (osErrorOf e)

/-- All that is left of a stream. -/
partial def readAll (stream : IO.FS.Stream) (start : ByteArray) : IO ByteArray := do
  let chunk ← stream.read 65536
  if chunk.isEmpty then return start else readAll stream (start ++ chunk)

/-- The rights that three bits of a mode give. -/
def rightsOf (bits : Nat) : IO.AccessRight where
  read := bits / 4 % 2 = 1
  write := bits / 2 % 2 = 1
  execution := bits % 2 = 1

/-- Opens a file that is made with a mode. -/
def openNewFile (path : String) (mode : Nat) : IO IO.FS.Handle := do
  let file ← IO.FS.Handle.mk path .writeNew
  IO.setAccessRights path ⟨rightsOf (mode / 64), rightsOf (mode / 8), rightsOf mode⟩
  return file

/-- What an entry of a directory is. Only key files are read. -/
def entryKindOf (entry : IO.FS.DirEntry) : IO EntryKind := do
  match ← caught (do return (← entry.path.symlinkMetadata).type) with
  | .error e => return .unreachable e
  | .ok .symlink => return .symlink
  | .ok .file =>
    if (KeyStore.keyName? entry.fileName).isSome then
      match ← caught (IO.FS.readBinFile entry.path) with
      | .ok content => return .file content.toList
      | .error e => return .closedFile e
    else return .file []
  | .ok _ => return .other

/-- A directory as the system takes it. -/
def systemPath (path : String) := (IO.FS.DirEntry.mk path "").root

/-- The entries of a directory. -/
def directoryEntries (path : String) : IO (List DirEntry) := do
  let entries ← (systemPath path).readDir
  entries.toList.mapM fun entry => do
    return ⟨Utf8.encode entry.fileName, ← entryKindOf entry⟩

/-- The system as a host. -/
def systemHost : Host IO where
  Handle := IO.FS.Handle
  readInput := caught do return (← readAll (← IO.getStdin) .empty).toList
  fileContent := fun path => caught do return (← IO.FS.readBinFile path).toList
  listDirectory := fun path => caught (directoryEntries path)
  isDirectory := fun path => (systemPath path).isDir
  makeDirectory := fun path => caught (IO.FS.createDir path)
  openFile := fun path fresh mode => do
    match ← caught (openNewFile path mode) with
    | .error .alreadyExists =>
      if fresh then return .error .alreadyExists
      else caught (IO.FS.Handle.mk path .write)
    | result => return result
  write := fun file content => caught do
    file.write (ByteArray.mk content.toArray)
    file.flush
  print := fun output => caught do
    let results ← IO.getStdout
    results.write (ByteArray.mk output.toArray)
    results.flush

/-- How many random bytes the program takes from the system; no command draws more. -/
def tapeSize : USize := 64

/-- Runs a command on the system. -/
def outcomeOnSystem (call : Invocation) : IO Outcome := do
  let random ← IO.getRandomBytes tapeSize
  outcome systemHost call { tape := { byte := fun i => random.data.getD i 0 } }

/-- Prints what a caller is to see beside the result: the log, and the error. -/
def printErrors (format : LogFormat) (o : Outcome) : IO Unit := do
  let errors ← IO.getStderr
  for e in o.log do
    errors.putStrLn (logLine format e)
  match o.failure with
  | some message => errors.putStrLn ("error: " ++ message)
  | none => pure ()
  match o.panic with
  | some message => errors.putStrLn message
  | none => pure ()

end SealedRecords.Command

open SealedRecords Command in
/-- The program. -/
def main (words : List String) : IO UInt32 := do
  let keyDirectory ← IO.getEnv keyDirectoryVariable
  let aad ← IO.getEnv aadVariable
  let environment := fun name =>
    if name = keyDirectoryVariable then keyDirectory
    else if name = aadVariable then aad
    else none
  match readCommandLine words environment with
  | .error refusal =>
    let _ ← systemHost.print refusal.outcome.output
    printErrors .text refusal.outcome
    return UInt32.ofNat refusal.outcome.exitCode
  | .ok call =>
    let result ← outcomeOnSystem call
    printErrors call.options.logFormat result
    return UInt32.ofNat result.exitCode
