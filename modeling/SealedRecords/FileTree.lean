import SealedRecords.Host

/-!
# Trees of files

A file system as a value: files with their contents and modes, directories and symbolic links,
each at the list of the names that leads to it from the root. Paths are looked up as the system
does it: component by component, through symbolic links, up to forty of them.

What a system knows besides is left out. No two places share a file, so there are no hard links.
There are no devices, pipes and sockets. A mode is kept for a file as it was asked for, no mask is
applied to it, and nobody is refused because of it. There is room for everything.
-/

namespace SealedRecords

/-- What stands at a place of a tree. -/
inductive Node where
  | file (content : Bytes) (mode : Nat)
  | directory
  | symlink (target : Bytes)
  deriving DecidableEq, Repr

/-- The names from the root to a place. -/
abbrev Place := List Bytes

/-- A file system and the place of the working directory. The root is a directory. -/
structure FileTree where
  nodes : List (Place × Node) := []
  workingDirectory : Place := []
  deriving DecidableEq, Repr

namespace FileTree

/-- How many symbolic links a path may lead through. -/
def maxLinks : Nat := 40

/-- The most bytes of a name. -/
def maxName : Nat := 255

/-- The number of bytes from which on a path is too long. -/
def pathLimit : Nat := 4096

/-- What stands at a place. -/
def get? (t : FileTree) (p : Place) : Option Node :=
  if p.isEmpty then some .directory
  else (t.nodes.find? fun e => e.1 == p).map Prod.snd

/-- Puts a node at a place. -/
def put (t : FileTree) (p : Place) (n : Node) : FileTree :=
  { t with nodes := t.nodes.filter (fun e => e.1 != p) ++ [(p, n)] }

/-- The byte between the components of a path. -/
def separator : UInt8 := 0x2F

/-- The components of a path, as the pieces between separators. -/
def split : Bytes → List Bytes
  | [] => [[]]
  | b :: bs =>
    if b = separator then [] :: split bs
    else
      match split bs with
      | [] => [[b]]
      | c :: cs => (b :: c) :: cs

/-- The components of a path that say something. An empty one at the end stands for a separator
there. -/
def components (path : Bytes) : List Bytes :=
  (split path).filter (fun c => !c.isEmpty) ++
    if path.getLast? == some separator then [[]] else []

/-- Whether a path starts at the root. -/
def isAbsolute (path : Bytes) : Bool := path.head? == some separator

/-- What a path is looked up for. -/
inductive Aim where
  /-- What stands there. A separator at the end asks for a directory. -/
  | existing
  /-- A directory to be made. A separator at the end asks for nothing. -/
  | newDirectory
  /-- A file to be written, which may be missing. No file has a separator at the end. -/
  | file
  /-- A file to be written, where nothing may stand yet. -/
  | newFile
  deriving DecidableEq, Repr

/-- Whether a symbolic link at the end of a path is followed. -/
def Aim.follows : Aim → Bool
  | .existing | .file => true
  | .newDirectory | .newFile => false

/-- Whether a path for a file ends here, but with a separator. -/
def Aim.refusesEnd (aim : Aim) (rest : List Bytes) : Bool :=
  (aim == .file || aim == .newFile) && !rest.isEmpty && rest.all List.isEmpty

/-- Whether the components that are left behind one ask nothing of it. -/
def Aim.isEnd (aim : Aim) (rest : List Bytes) : Bool :=
  rest.isEmpty || (aim == .newDirectory && rest.all List.isEmpty)

/-- Walks from a directory along components. `onLink` continues behind a symbolic link, in the
directory that holds it, with its target and the components that are left. The place found need
not hold anything, but the directory it is in exists. -/
def walk (t : FileTree) (aim : Aim)
    (onLink : Place → Bytes → List Bytes → Except OsError Place) :
    Place → List Bytes → Except OsError Place
  | here, [] => .ok here
  | here, c :: rest =>
    if c.isEmpty || c = [0x2E] then walk t aim onLink here rest
    else if c = [0x2E, 0x2E] then walk t aim onLink here.dropLast rest
    else if aim.refusesEnd rest then .error .isADirectory
    else if maxName < c.length then .error .nameTooLong
    else
      match t.get? (here ++ [c]) with
      | none => if aim.isEnd rest then .ok (here ++ [c]) else .error .notFound
      | some .directory => walk t aim onLink (here ++ [c]) rest
      | some (.file _ _) => if aim.isEnd rest then .ok (here ++ [c]) else .error .notADirectory
      | some (.symlink target) =>
        if aim.isEnd rest && !aim.follows then .ok (here ++ [c]) else onLink here target rest

/-- Walks through at most `n` symbolic links. -/
def walkLinks (t : FileTree) (aim : Aim) : Nat → Place → List Bytes → Except OsError Place
  | 0 => walk t aim fun _ _ _ => .error .tooManyLinks
  | n + 1 => walk t aim fun here target rest =>
    walkLinks t aim n (if isAbsolute target then [] else here) (components target ++ rest)

/-- The place that a path leads to. -/
def resolve (t : FileTree) (aim : Aim) (path : Bytes) : Except OsError Place :=
  if path.isEmpty then .error .notFound
  else if pathLimit ≤ path.length then .error .nameTooLong
  else
    t.walkLinks aim maxLinks (if isAbsolute path then [] else t.workingDirectory)
      (components path)

/-- The content of the file at a path. -/
def fileContent (t : FileTree) (path : Bytes) : Except OsError Bytes := do
  match t.get? (← t.resolve .existing path) with
  | some (.file content _) => return content
  | some _ => throw .isADirectory
  | none => throw .notFound

/-- The mode of the file at a path. -/
def mode? (t : FileTree) (path : Bytes) : Option Nat :=
  match t.resolve .existing path with
  | .ok p =>
    match t.get? p with
    | some (.file _ mode) => some mode
    | _ => none
  | .error _ => none

/-- What a node is as an entry of its directory. -/
def entryKind : Node → EntryKind
  | .file content _ => .file content
  | .directory => .other
  | .symlink _ => .symlink

/-- The path of an entry of the directory at a path. -/
def entryPath (path name : Bytes) : Bytes :=
  if path.getLast? == some separator then path ++ name else path ++ [separator] ++ name

/-- The entries of the directory at a place, looked at by way of its path. -/
def entriesAt (t : FileTree) (p : Place) (path : Bytes) : List DirEntry :=
  t.nodes.filterMap fun e =>
    match e.1.getLast? with
    | some name =>
      if e.1.dropLast = p then
        if pathLimit ≤ (entryPath path name).length then some ⟨name, .unreachable .nameTooLong⟩
        else some ⟨name, entryKind e.2⟩
      else none
    | none => none

/-- The entries of the directory at a path. -/
def listDirectory (t : FileTree) (path : Bytes) : Except OsError (List DirEntry) := do
  let p ← t.resolve .existing path
  match t.get? p with
  | some .directory => return t.entriesAt p path
  | some _ => throw .notADirectory
  | none => throw .notFound

/-- Whether there is a directory at a path. -/
def isDirectory (t : FileTree) (path : Bytes) : Bool :=
  match t.resolve .existing path with
  | .ok p => t.get? p == some .directory
  | .error _ => false

/-- The tree with a new directory at a path. -/
def makeDirectory (t : FileTree) (path : Bytes) : Except OsError FileTree := do
  let p ← t.resolve .newDirectory path
  match t.get? p with
  | some _ => throw .alreadyExists
  | none => return t.put p .directory

/-- The place of a file that is opened for writing at a path, and the tree with the file at it and
nothing in it. -/
def openFile (t : FileTree) (path : Bytes) (fresh : Bool) (mode : Nat) :
    Except OsError (Place × FileTree) := do
  let p ← t.resolve (if fresh then .newFile else .file) path
  match t.get? p with
  | none => return (p, t.put p (.file [] mode))
  | some node =>
    if fresh then throw .alreadyExists
    else
      match node with
      | .file _ mode => return (p, t.put p (.file [] mode))
      | _ => throw .isADirectory

/-- The tree with bytes written at the end of the file at a place. -/
def append (t : FileTree) (p : Place) (content : Bytes) : FileTree :=
  match t.get? p with
  | some (.file start mode) => t.put p (.file (start ++ content) mode)
  | _ => t

/-- The paths of the directories that a path leads through, the nearest to its start first. -/
def pathsAbove (path : Bytes) : List Bytes :=
  let names := (components path).filter fun c => !c.isEmpty
  let start := if isAbsolute path then [separator] else []
  (List.range (names.length - 1)).map fun n =>
    start ++ [separator].intercalate (names.take (n + 1))

/-- The tree with directories along a path, which may be there already. -/
def makeAbove (t : FileTree) (path : Bytes) : FileTree :=
  (pathsAbove path).foldl (fun t p => (t.makeDirectory p).toOption.getD t) t

/-- The tree with a node made at a path. A directory may be there already, and is made with what is
missing on the way to it. Anything else needs the directory that it is to be in; a file that is
there gets the content and the mode. -/
def make (t : FileTree) (path : Bytes) (node : Node) : Except OsError FileTree :=
  match node with
  | .directory =>
    let t := t.makeAbove path
    if t.isDirectory path then return t else t.makeDirectory path
  | .symlink target => do
    let p ← t.resolve .newFile path
    match t.get? p with
    | none => return t.put p (.symlink target)
    | some _ => throw .alreadyExists
  | .file content mode => do
    let p ← t.resolve .file path
    match t.get? p with
    | none | some (.file _ _) => return t.put p (.file content mode)
    | some _ => throw .isADirectory

/-- A change of a tree as an operation on it; a failed one leaves it as it was. -/
def change (f : FileTree → Except OsError FileTree) : StateM FileTree (Except OsError Unit) :=
  fun t =>
    match f t with
    | .ok t => (.ok (), t)
    | .error e => (.error e, t)

/-- A tree as a host, with all of the standard input. What is opened is a place. The standard output
takes everything. -/
def host (input : Bytes) : Host (StateM FileTree) where
  Handle := Place
  readInput := pure (.ok input)
  fileContent := fun path => do return (← get).fileContent (Utf8.encode path)
  listDirectory := fun path => do return (← get).listDirectory (Utf8.encode path)
  isDirectory := fun path => do return (← get).isDirectory (Utf8.encode path)
  makeDirectory := fun path => change fun t => t.makeDirectory (Utf8.encode path)
  openFile := fun path fresh mode t =>
    match t.openFile (Utf8.encode path) fresh mode with
    | .ok (p, t) => (.ok p, t)
    | .error e => (.error e, t)
  write := fun p content t => (.ok (), t.append p content)
  print := fun _ => pure (.ok ())

end FileTree

end SealedRecords
