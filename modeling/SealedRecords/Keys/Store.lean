import SealedRecords.NameMap
import SealedRecords.OsError
import SealedRecords.Text.Hex
import SealedRecords.Text.Outline
import SealedRecords.Text.Quoted

/-!
# Key stores

Keys under names, kept in memory. A name is made of ASCII letters, digits, `.`, `_` and `-`; a
key has the configured length, or any length but zero if none is configured. Every way into the
store goes through the same checks, and a refused key leaves the store as it was.
-/

namespace SealedRecords

/-- What a key store accepts. -/
structure KeyStoreConfig where
  /-- The length of every key; any positive length if absent. -/
  keyLength : Option Nat := some 32
  /-- How many key files a directory may hold. -/
  maxKeys : Nat := 1024
  /-- How many bytes a key file may have. -/
  maxFileSize : Nat := 4096
  deriving DecidableEq, Repr

/-- Why a key directory could not be loaded. -/
inductive LoadFault where
  /-- The directory at `path` could not be listed. -/
  | unreadable (path : String) (cause : OsError)
  /-- An entry of the directory could not be looked at. -/
  | unreachable (cause : OsError)
  /-- A key file is a symbolic link. -/
  | symlink (file : String)
  /-- There are more key files than allowed. -/
  | tooManyKeys (max count : Nat)
  /-- A key file could not be opened. -/
  | unopened (path : String) (cause : OsError)
  /-- A key file has more bytes than allowed. -/
  | tooLarge (size : Nat) (file : String)
  /-- A key file is no text. -/
  | notText (path : String)
  deriving DecidableEq, Repr

/-- The wording of a fault. -/
def LoadFault.message : LoadFault → String
  | .unreadable path e => s!"{path}: {e.message}"
  | .unreachable e => e.message
  | .symlink file => s!"refusing to load key symlink: {file}"
  | .tooManyKeys max count => s!"key count exceeds configured max ({max}): {count}"
  | .unopened path e => s!"failed opening key {path}: {e.message}"
  | .tooLarge size file => s!"key file too large ({size} bytes): {file}"
  | .notText path => s!"failed reading key {path}: stream did not contain valid UTF-8"

/-- Why a key store refuses a key. -/
inductive KeyStoreError where
  | loadFailed (cause : LoadFault)
  | invalidHex (name : String) (cause : Hex.Fault)
  | invalidKeyLength (name : String) (expected actual : Nat)
  | invalidName (name : String)
  deriving DecidableEq, Repr

/-- The wording of an error. -/
def KeyStoreError.message : KeyStoreError → String
  | .loadFailed e => "failed to load key: " ++ e.message
  | .invalidHex name e => s!"key {name} is not valid hex: {e.message}"
  | .invalidKeyLength name expected actual =>
    s!"key {name} has {actual} bytes, expected {expected}"
  | .invalidName name => "invalid key name: " ++ Quoted.text name

/-- Keys under names, in the order of the bytes of the names. -/
structure KeyStore where
  config : KeyStoreConfig := {}
  keys : List (String × Bytes) := []
  deriving DecidableEq, Repr

namespace KeyStore

/-- Whether a character may stand in a name. -/
def isNameChar (c : Char) : Bool :=
  ('a' ≤ c && c ≤ 'z') || ('A' ≤ c && c ≤ 'Z') || ('0' ≤ c && c ≤ '9') ||
    c == '.' || c == '_' || c == '-'

/-- Whether a text may name a key. -/
def isName (name : String) : Bool := !name.isEmpty && name.toList.all isNameChar

/-- The length that a key must have. -/
def expectedLength (config : KeyStoreConfig) (key : Bytes) : Nat :=
  config.keyLength.getD (max 1 key.length)

/-- Adds a key, or replaces the one under the same name. The name is checked before the key. -/
def insert (s : KeyStore) (name : String) (key : Bytes) : Except KeyStoreError KeyStore :=
  if isName name then
    let expected := expectedLength s.config key
    if key.length = expected then .ok { s with keys := NameMap.put name key s.keys }
    else .error (.invalidKeyLength name expected key.length)
  else .error (.invalidName name)

/-- Adds a key that is given in hexadecimal, with blanks around it allowed. -/
def insertHex (s : KeyStore) (name text : String) : Except KeyStoreError KeyStore :=
  match Hex.decodeTrimmed text with
  | .error e => .error (.invalidHex name e)
  | .ok key => s.insert name key

/-- Adds keys given in hexadecimal, in order, up to the first that is refused. -/
def insertAll (s : KeyStore) : List (String × String) → Except KeyStoreError KeyStore
  | [] => .ok s
  | (name, text) :: rest =>
    match s.insertHex name text with
    | .error e => .error e
    | .ok s => s.insertAll rest

/-- The store of the listed keys. -/
def ofEmbedded (keys : List (String × String)) : Except KeyStoreError KeyStore :=
  insertAll {} keys

/-- The key under a name. -/
def get? (s : KeyStore) (name : String) : Option Bytes := NameMap.get? s.keys name

/-- Whether there is a key under a name. -/
def contains (s : KeyStore) (name : String) : Bool := (s.get? name).isSome

/-- The names, in the order of their bytes. -/
def names (s : KeyStore) : List String := s.keys.map Prod.fst

/-- The number of keys. -/
def size (s : KeyStore) : Nat := s.keys.length

/-- Whether there is no key. -/
def isEmpty (s : KeyStore) : Bool := s.keys.isEmpty

end KeyStore

/-- The shape of a configuration. -/
def KeyStoreConfig.outline (c : KeyStoreConfig) : Outline :=
  .record "KeyStoreConfig" [("key_len", .option .number c.keyLength),
    ("max_keys_from_directory", .number c.maxKeys),
    ("max_key_file_size", .number c.maxFileSize)] false

/-- The shape of a store: names only, no keys. -/
def KeyStore.outline (s : KeyStore) : Outline :=
  .record "MemoryKeyRepository" [("names", .list (s.names.map fun n => .word (Quoted.text n))),
    ("config", s.config.outline)] false

end SealedRecords
