import SealedRecords.Event
import SealedRecords.Keys.Store

/-!
# Key directories

A directory holds one key per file: the file `name.key` holds the key `name` in hexadecimal.
Other files are ignored. One file that cannot be accepted makes the whole directory fail.
-/

namespace SealedRecords

/-- What a directory entry is, symbolic links not followed. -/
inductive EntryKind where
  | symlink
  | file (content : Bytes)
  /-- A file that cannot be opened. -/
  | closedFile (cause : OsError)
  | other
  /-- What the system refuses to look at. -/
  | unreachable (cause : OsError)
  deriving DecidableEq, Repr

/-- An entry of a directory. File names are bytes. -/
structure DirEntry where
  name : Bytes
  kind : EntryKind
  deriving DecidableEq, Repr

namespace KeyStore

/-- The ending of the name of a key file. -/
def keyFileEnding : List Char := ['.', 'k', 'e', 'y']

/-- The key name in a file name: what stands before the ending, if anything does. -/
def keyName? (file : String) : Option String :=
  let cs := file.toList
  let n := cs.length - keyFileEnding.length
  if keyFileEnding.length < cs.length && cs.drop n == keyFileEnding then
    some (String.ofList (cs.take n))
  else none

/-- A path one level below a directory, as it is shown. -/
def pathBelow (dir file : String) : String :=
  if dir.isEmpty || dir.endsWith "/" then dir ++ file else dir ++ "/" ++ file

/-- The key in one file, checked in this order: size, text, hexadecimal digits, name, length. -/
def loadFile (s : KeyStore) (dir file name : String) (content : Bytes) :
    Except KeyStoreError KeyStore :=
  if s.config.maxFileSize < content.length then
    .error (.loadFailed (.tooLarge content.length file))
  else
    match Utf8.decode content with
    | .error _ => .error (.loadFailed (.notText (pathBelow dir file)))
    | .ok text => s.insertHex name text

/-- Loads the remaining entries; `count` key files have been seen. Events report the keys in the
order in which they are read, also those read before a failure. -/
def loadEntries (s : KeyStore) (dir : String) (count : Nat) :
    List DirEntry → Except KeyStoreError KeyStore × List Event
  | [] => (.ok s, [])
  | e :: es =>
    let file := Utf8.lossy e.name
    match keyName? file, e.kind with
    | none, _ => loadEntries s dir count es
    | some _, .other => loadEntries s dir count es
    | some _, .unreachable e => (.error (.loadFailed (.unreachable e)), [])
    | some _, .symlink => (.error (.loadFailed (.symlink file)), [])
    | some _, .closedFile e =>
      if s.config.maxKeys < count + 1 then
        (.error (.loadFailed (.tooManyKeys s.config.maxKeys (count + 1))), [])
      else (.error (.loadFailed (.unopened (pathBelow dir file) e)), [])
    | some name, .file content =>
      if s.config.maxKeys < count + 1 then
        (.error (.loadFailed (.tooManyKeys s.config.maxKeys (count + 1))), [])
      else
        match s.loadFile dir file name content with
        | .error e => (.error e, [])
        | .ok s =>
          let (result, events) := loadEntries s dir (count + 1) es
          (result, .keyLoaded name :: events)

/-- The store of a directory, from its listing or the reason why there is none. `dir` is the path
of the directory as it is shown. -/
def ofDirectory (config : KeyStoreConfig) (dir : String)
    (listing : Except OsError (List DirEntry)) : Except KeyStoreError KeyStore × List Event :=
  match listing with
  | .error e => (.error (.loadFailed (.unreadable dir e)), [])
  | .ok entries => loadEntries { config := config } dir 0 entries

end KeyStore

end SealedRecords
