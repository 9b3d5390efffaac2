import SealedRecords.Event

/-!
# What a command line says

The commands with their arguments, and the options that all of them share.
-/

namespace SealedRecords.Command

open SealedRecords

/-- How results are printed. -/
inductive OutputFormat where
  | json
  | table
  | pretty
  | raw
  deriving DecidableEq, Repr

/-- How log lines are written. -/
inductive LogFormat where
  | text
  | json
  deriving DecidableEq, Repr

/-- Where a command takes its input from. -/
inductive Source where
  /-- The input is on the command line. -/
  | given (text : String)
  | file (path : String)
  | input
  deriving DecidableEq, Repr

/-- A command with its arguments. -/
inductive Verb where
  /-- Puts a payload into an envelope, sealed if a key is named. -/
  | seal (keyName : Option String) (source : Source)
  /-- Takes the payload out of an envelope. -/
  | unseal (source : Source)
  /-- Shows what an envelope says about itself. -/
  | inspect (source : Source)
  /-- Makes a new key file; with `force` an old one is replaced. -/
  | keygen (name : String) (force : Bool)
  | version (extended : Bool)
  deriving DecidableEq, Repr

/-- The shared options. -/
structure Options where
  format : OutputFormat := .raw
  logFormat : LogFormat := .text
  /-- The least important level that is logged; nothing is logged without one. -/
  logLevel : Option Level := some .warn
  keyDirectory : Option String := none
  aad : Option String := none
  deriving DecidableEq, Repr

/-- A command to run. -/
structure Invocation where
  options : Options
  verb : Verb
  deriving DecidableEq, Repr

end SealedRecords.Command
