import SealedRecords.Command.Options
import SealedRecords.Json.Value
import SealedRecords.Text.Quoted

/-!
# Log lines

How an event becomes a line of a log: a line for people with the fields behind the message, or a
JSON object. Only events that are important enough become lines.
-/

namespace SealedRecords.Command

open SealedRecords

/-- Whether events of a level are logged under a limit. -/
def isLogged (limit : Option Level) (level : Level) : Bool :=
  match limit with
  | some l => level.rank ≤ l.rank
  | none => false

/-- The events that are logged under a limit. -/
def loggedEvents (limit : Option Level) (log : List Event) : List Event :=
  log.filter fun e => isLogged limit e.level

/-- A value in a line for people. -/
def fieldText : FieldValue → String
  | .shown s => s
  | .text s => Quoted.text s
  | .number n => toString n
  | .flag b => if b then "true" else "false"

/-- A value in a JSON object. -/
def fieldJson : FieldValue → JsonValue
  | .shown s => .text s
  | .text s => .text s
  | .number n => .nat n
  | .flag b => .bool b

/-- An event as a line for people. -/
def eventText (e : Event) : String :=
  " ".intercalate ([e.level.name, e.message] ++
    e.fields.map fun (name, v) => name ++ "=" ++ fieldText v)

/-- An event as a JSON object. -/
def eventJson (e : Event) : JsonValue :=
  .object ([("level", .text e.level.name), ("message", .text e.message)] ++
    e.fields.map fun (name, v) => (name, fieldJson v))

/-- An event as a line of a log. -/
def logLine : LogFormat → Event → String
  | .text, e => eventText e
  | .json, e => (eventJson e).render

end SealedRecords.Command
