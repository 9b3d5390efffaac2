import SealedRecords.Command.Options

/-!
# Reading a command line

Options may stand before and behind the name of the command. An option takes its value behind an
equals sign or from the next word, which must not start with a dash. After the word `--` nothing
is an option. The value behind the command counts when an option stands at both places; at one
place an option may stand once. Environment variables give the key directory and the additional
data when no option does.
-/

namespace SealedRecords.Command

open SealedRecords

/-- An option: its name, and the check of its value if it takes one. -/
structure OptionSpec where
  name : String
  value : Option (String → Bool)

/-- An option found on a command line. -/
abbrev Given := List (String × String)

/-- What comes of the words of one place. -/
structure Words where
  given : Given := []
  arguments : List String := []

/-- Why a command line is not run. -/
inductive Refusal where
  /-- The command line is faulty. -/
  | usage
  /-- The command line asks for help. -/
  | help
  /-- The command line asks for the version. -/
  | version
  deriving DecidableEq, Repr

/-- The words for the output formats. -/
def outputFormat? : String → Option OutputFormat
  | "json" => some .json
  | "table" => some .table
  | "pretty" => some .pretty
  | "raw" => some .raw
  | _ => none

/-- The words for the log formats. -/
def logFormat? : String → Option LogFormat
  | "text" => some .text
  | "json" => some .json
  | _ => none

/-- The words for the levels. -/
def logLevel? : String → Option (Option Level)
  | "off" => some none
  | "error" => some (some .error)
  | "warn" => some (some .warn)
  | "info" => some (some .info)
  | "debug" => some (some .debug)
  | "trace" => some (some .trace)
  | _ => none

/-- A value that is a path. -/
def isPath (s : String) : Bool := !s.isEmpty

/-- The options that every command has. -/
def sharedOptions : List OptionSpec := [
  ⟨"format", some fun s => (outputFormat? s).isSome⟩,
  ⟨"log-format", some fun s => (logFormat? s).isSome⟩,
  ⟨"log-level", some fun s => (logLevel? s).isSome⟩,
  ⟨"key-dir", some isPath⟩,
  ⟨"aad", some fun _ => true⟩]

/-- What a command takes: how many arguments at most, and the options that only it has. -/
structure CommandSpec where
  maxArguments : Nat
  options : List OptionSpec

/-- The commands by their names. -/
def commandSpec? : String → Option CommandSpec
  | "seal" => some ⟨1, [⟨"data", some fun _ => true⟩, ⟨"file", some isPath⟩]⟩
  | "open" => some ⟨0, [⟨"data-hex", some fun _ => true⟩, ⟨"file", some isPath⟩]⟩
  | "inspect" => some ⟨0, [⟨"data-hex", some fun _ => true⟩, ⟨"file", some isPath⟩]⟩
  | "keygen" => some ⟨1, [⟨"force", none⟩]⟩
  | "version" => some ⟨0, [⟨"extended", none⟩]⟩
  | _ => none

/-- The name and the value of a word that starts with two dashes. -/
def splitLong (word : String) : String × Option String :=
  let cs := word.toList.drop 2
  let name := cs.takeWhile (· != '=')
  let rest := cs.drop name.length
  (String.ofList name, if rest.isEmpty then none else some (String.ofList (rest.drop 1)))

/-- Whether a word starts with a dash and is more than one. -/
def isDashed (word : String) : Bool := word.startsWith "-" && word != "-"

/-- Records an option, which must not have been given and whose value must pass its check. -/
def give (given : Given) (spec : OptionSpec) (value : String) : Except Refusal Given :=
  if given.any fun p => p.1 == spec.name then .error .usage
  else
    match spec.value with
    | some check => if check value then .ok ((spec.name, value) :: given) else .error .usage
    | none => .ok ((spec.name, value) :: given)

/-- Where words stand on a command line. -/
inductive Stage where
  /-- In front of the name of the command, which ends the words. Only here the version can be asked
  for. -/
  | outer
  /-- Behind the name of a command with that many arguments at most. -/
  | inner (maxArguments : Nat)
  deriving DecidableEq, Repr

/-- Reads words, and returns those behind the name of the command if that ends them. The first
fault or question decides: help that is asked for behind a faulty word is not given. -/
def readWords (specs : List OptionSpec) (stage : Stage) : Given → List String → List String →
    Except Refusal (Words × List String)
  | given, arguments, [] => .ok (⟨given, arguments.reverse⟩, [])
  | given, arguments, word :: rest =>
    if word = "--" then
      match stage with
      | .outer => .error .usage
      | .inner n =>
        if n < arguments.length + rest.length then .error .usage
        else .ok (⟨given, arguments.reverse ++ rest⟩, [])
    else if word.startsWith "--" then
      let (name, value) := splitLong word
      if name = "help" && value.isNone then .error .help
      else if stage = .outer && name = "version" && value.isNone then .error .version
      else
        match specs.find? fun s => s.name == name with
        | none => .error .usage
        | some spec =>
          match spec.value, value with
          | none, none => do readWords specs stage (← give given spec "") arguments rest
          | none, some _ => .error .usage
          | some _, some v => do readWords specs stage (← give given spec v) arguments rest
          | some _, none =>
            match rest with
            | [] => .error .usage
            | v :: rest =>
              if isDashed v then .error .usage
              else do readWords specs stage (← give given spec v) arguments rest
    else if isDashed word then
      if word.startsWith "-h" then .error .help
      else if stage = .outer && word.startsWith "-V" then .error .version
      else .error .usage
    else
      match stage with
      | .outer => .ok (⟨given, [word]⟩, rest)
      | .inner n =>
        if n ≤ arguments.length then .error .usage
        else readWords specs stage given (word :: arguments) rest

/-- The value of an option. -/
def valueOf (given : Given) (name : String) : Option String :=
  (given.find? fun p => p.1 == name).map Prod.snd

/-- The source of a command's input: an option with the input itself, or a file, but not both. -/
def sourceOf (given : Given) (name : String) : Except Refusal Source :=
  match valueOf given name, valueOf given "file" with
  | some _, some _ => .error .usage
  | some text, none => .ok (.given text)
  | none, some path => .ok (.file path)
  | none, none => .ok .input

/-- The command of a name, its options and its arguments. -/
def verbOf (name : String) (given : Given) (arguments : List String) : Except Refusal Verb :=
  match name, arguments with
  | "seal", [] => (sourceOf given "data").map (.seal none)
  | "seal", [key] => (sourceOf given "data").map (.seal (some key))
  | "open", [] => (sourceOf given "data-hex").map .unseal
  | "inspect", [] => (sourceOf given "data-hex").map .inspect
  | "keygen", [key] => .ok (.keygen key (valueOf given "force").isSome)
  | "version", [] => .ok (.version (valueOf given "extended").isSome)
  | _, _ => .error .usage

/-- The environment variable for the key directory. -/
def keyDirectoryVariable : String := "RECSEAL_KEY_DIR"

/-- The environment variable for the additional data. -/
def aadVariable : String := "RECSEAL_AAD"

/-- The value of a shared option: behind the command, else before it. -/
def sharedValue (outer inner : Given) (name : String) : Option String :=
  (valueOf inner name).or (valueOf outer name)

/-- The key directory: from the options, else from the environment. A variable that is set has to
hold a path unless the option stands at both places. -/
def keyDirectoryOf (outer inner : Given) (setting : Option String) :
    Except Refusal (Option String) :=
  match setting with
  | none => .ok (sharedValue outer inner "key-dir")
  | some path =>
    if path.isEmpty && !((valueOf outer "key-dir").isSome && (valueOf inner "key-dir").isSome) then
      .error .usage
    else .ok ((sharedValue outer inner "key-dir").or (some path))

/-- What comes of asking for help by the command for it: there is help on each command, and on the
one for help itself. -/
def helpOn : List String → Refusal
  | [] => .help
  | [name] => if name = "help" || (commandSpec? name).isSome then .help else .usage
  | _ => .usage

/-- The command that words and environment variables ask for. -/
def readCommandLine (words : List String) (environment : String → Option String) :
    Except Refusal Invocation := do
  let (outer, rest) ← readWords sharedOptions .outer [] [] words
  match outer.arguments with
  | ["help"] => throw (helpOn rest)
  | [name] =>
    match commandSpec? name with
    | none => throw .usage
    | some spec =>
      let (inner, _) ←
        readWords (sharedOptions ++ spec.options) (.inner spec.maxArguments) [] [] rest
      let verb ← verbOf name inner.given inner.arguments
      let keyDirectory ← keyDirectoryOf outer.given inner.given (environment keyDirectoryVariable)
      let shared := sharedValue outer.given inner.given
      return {
        options := {
          format := ((shared "format").bind outputFormat?).getD .raw
          logFormat := ((shared "log-format").bind logFormat?).getD .text
          logLevel := ((shared "log-level").bind logLevel?).getD (some .warn)
          keyDirectory := keyDirectory
          aad := (shared "aad").or (environment aadVariable) }
        verb := verb }
  | _ => throw .usage

end SealedRecords.Command
