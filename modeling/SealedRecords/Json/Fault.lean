import SealedRecords.Json.Value
import SealedRecords.Text.Quoted

/-!
# Faults in JSON texts

What can be wrong with a JSON text, and where. Lines are counted from one; the column is the
number of bytes read on the line, with the byte that the fault is about.
-/

namespace SealedRecords.Json

open SealedRecords

/-- What stands in a place where a value of another kind is wanted. -/
inductive Found where
  | null
  | bool (b : Bool)
  | number (n : JsonNumber)
  | text (s : String)
  | list
  | object
  deriving DecidableEq, Repr

/-- The wording for what stands there. -/
def Found.message : Found → String
  | .null => "null"
  | .bool b => if b then "boolean `true`" else "boolean `false`"
  | .number (.integer n) => s!"integer `{n}`"
  | .number (.double bits) => s!"floating point `{JsonNumber.doubleText bits}`"
  | .text s => "string " ++ Quoted.text s
  | .list => "sequence"
  | .object => "map"

/-- What is wrong. -/
inductive Issue where
  | endInValue
  | endInList
  | endInObject
  | endInText
  | expectedValue
  | expectedWord
  | expectedColon
  | expectedListEnd
  | expectedObjectEnd
  | keyNotText
  | trailingComma
  | trailingCharacters
  | invalidNumber
  | numberOutOfRange
  | invalidEscape
  | endInEscape
  | loneSurrogate
  | controlCharacter
  | invalidUtf8
  | tooDeep
  /-- A field that has to be there is not. -/
  | missingField (name : String)
  /-- A field that may be there once is there twice. -/
  | duplicateField (name : String)
  /-- A value of another kind than the wanted one. -/
  | wrongKind (found : Found) (wanted : String)
  /-- A number outside the wanted range. -/
  | wrongValue (n : Int) (wanted : String)
  /-- A list of another length than the wanted one. -/
  | wrongLength (n : Nat) (wanted : String)
  deriving DecidableEq, Repr

/-- The wording for what is wrong. -/
def Issue.message : Issue → String
  | .endInValue => "EOF while parsing a value"
  | .endInList => "EOF while parsing a list"
  | .endInObject => "EOF while parsing an object"
  | .endInText => "EOF while parsing a string"
  | .expectedValue => "expected value"
  | .expectedWord => "expected ident"
  | .expectedColon => "expected `:`"
  | .expectedListEnd => "expected `,` or `]`"
  | .expectedObjectEnd => "expected `,` or `\x7d`"
  | .keyNotText => "key must be a string"
  | .trailingComma => "trailing comma"
  | .trailingCharacters => "trailing characters"
  | .invalidNumber => "invalid number"
  | .numberOutOfRange => "number out of range"
  | .invalidEscape => "invalid escape"
  | .endInEscape => "unexpected end of hex escape"
  | .loneSurrogate => "lone leading surrogate in hex escape"
  | .controlCharacter => "control character (\\u0000-\\u001F) found while parsing a string"
  | .invalidUtf8 => "invalid unicode code point"
  | .tooDeep => "recursion limit exceeded"
  | .missingField name => s!"missing field `{name}`"
  | .duplicateField name => s!"duplicate field `{name}`"
  | .wrongKind found wanted => s!"invalid type: {found.message}, expected {wanted}"
  | .wrongValue n wanted => s!"invalid value: integer `{n}`, expected {wanted}"
  | .wrongLength n wanted => s!"invalid length {n}, expected {wanted}"

/-- What is wrong, and where. -/
structure Fault where
  issue : Issue
  line : Nat
  column : Nat
  deriving DecidableEq, Repr

/-- The wording of a fault. -/
def Fault.message (e : Fault) : String :=
  s!"{e.issue.message} at line {e.line} column {e.column}"

end SealedRecords.Json
