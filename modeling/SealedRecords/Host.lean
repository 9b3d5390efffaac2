import SealedRecords.Keys.Directory

/-!
# The host of a command

What a command asks of the system it runs on: its standard input and output, and operations on
files, named by paths. Each of them can fail. The library knows two hosts, a tree of files as a
value and the real system.
-/

namespace SealedRecords

/-- The operations that a command may ask for. -/
structure Host (m : Type → Type) where
  /-- What stands for a file that was opened. -/
  Handle : Type
  /-- All of the standard input. -/
  readInput : m (Except OsError Bytes)
  /-- The content of a file. -/
  fileContent : (path : String) → m (Except OsError Bytes)
  /-- The entries of a directory. -/
  listDirectory : (path : String) → m (Except OsError (List DirEntry))
  /-- Whether there is a directory at a path, symbolic links followed. -/
  isDirectory : (path : String) → m Bool
  /-- Makes one directory. -/
  makeDirectory : (path : String) → m (Except OsError Unit)
  /-- Opens a file for writing, and leaves it empty. With `fresh` there must be nothing at the path
  yet; otherwise the content of a file is erased and its mode is kept. A new file gets the given
  mode. -/
  openFile : (path : String) → (fresh : Bool) → (mode : Nat) → m (Except OsError Handle)
  /-- Writes at the end of an opened file. If this fails, some of the bytes may be there. -/
  write : Handle → Bytes → m (Except OsError Unit)
  /-- Prints. If this fails, some of the bytes may be out. -/
  print : Bytes → m (Except OsError Unit)

namespace Host

/-- Drops the separators and the components `.` at the end of a reversed path, but not the
separator that is the root. -/
def dropTrailing : List Char → List Char
  | '/' :: rest => if rest.isEmpty then ['/'] else dropTrailing rest
  | '.' :: '/' :: rest => dropTrailing ('/' :: rest)
  | cs => cs

/-- The path of the directory that a path is in: its last component left out. The empty path is
the working directory. -/
def parent? (path : String) : Option String :=
  let last := dropTrailing path.toList.reverse
  if last.isEmpty || last = ['/'] then none
  else some (String.ofList (dropTrailing (last.dropWhile (· != '/'))).reverse)

/-- Makes a directory and the missing ones on the way to it, at most `n` of them. A directory
that is there already is left as it is. -/
def makeDirectories [Monad m] (h : Host m) : Nat → String → m (Except OsError Unit)
  | 0, _ => return .ok ()
  | n + 1, path => do
    if path.isEmpty then return .ok ()
    match ← h.makeDirectory path with
    | .ok () => return .ok ()
    | .error .notFound =>
      match parent? path with
      | none => return .error (.other "failed to create whole tree")
      | some above =>
        match ← h.makeDirectories n above with
        | .error e => return .error e
        | .ok () =>
          match ← h.makeDirectory path with
          | .ok () => return .ok ()
          | .error e => if ← h.isDirectory path then return .ok () else return .error e
    | .error e => if ← h.isDirectory path then return .ok () else return .error e

end Host

end SealedRecords
