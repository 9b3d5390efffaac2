import SealedRecords.Command.Options
import SealedRecords.Envelope
import SealedRecords.Json.Value
import SealedRecords.Text.Grid

/-!
# What commands print

The results of the commands in the four formats. For programs there are JSON objects on one line
and the bytes themselves; for people there are tables and short lines.
-/

namespace SealedRecords.Command

open SealedRecords

/-- A text and a line feed, as bytes. -/
def line (s : String) : Bytes := Utf8.encode (s ++ "\n")

/-- A reference as people see it; a dash stands for none. -/
def shownRef (r : Option KeyRef) : String :=
  match r with
  | some r => r.display
  | none => "-"

/-- A payload as people see it: the text, or the number of bytes if it is none. -/
def preview (payload : Bytes) : String :=
  match Utf8.decode payload with
  | .ok s => s
  | .error _ => s!"<binary {payload.length} bytes>"

/-- What an envelope says about itself. -/
def inspected (format : OutputFormat) (e : Envelope) : Bytes :=
  let r := e.keyRef?
  let size := match r with
    | some r => r.size
    | none => 0
  let json := JsonValue.object [("kind", .text e.kind),
    ("key_ref", .text? (r.map KeyRef.display)),
    ("key_ref_hex", .text? (r.map fun r => Hex.encode r.bytes)),
    ("key_ref_len", .nat size), ("body_size", .nat e.body.length), ("wire_size", .nat e.wireSize)]
  match format with
  | .json => line json.render
  | .raw => line json.render
  | .table => line (Grid.render ["KIND", "KEY REF", "KEY REF LEN", "BODY", "WIRE"]
      [[e.kind, shownRef r, toString size, toString e.body.length, toString e.wireSize]])
  | .pretty =>
    let body := e.body.length
    line s!"kind={e.kind} key_ref={shownRef r} key_ref_len={size} body={body} wire={e.wireSize}"

/-- An envelope that was written. -/
def sealedEnvelope (format : OutputFormat) (r : Option KeyRef) (payloadSize : Nat)
    (envelope : Bytes) : Bytes :=
  match format with
  | .raw => envelope
  | .json => line (JsonValue.object [("key_ref", .text? (r.map KeyRef.display)),
      ("envelope_hex", .text (Hex.encode envelope)), ("envelope_size", .nat envelope.length),
      ("payload_size", .nat payloadSize)]).render
  | .table => line (Grid.render ["KEY REF", "PAYLOAD", "ENVELOPE", "HEX"]
      [[shownRef r, toString payloadSize, toString envelope.length, Hex.encode envelope]])
  | .pretty => line (Hex.encode envelope)

/-- A payload that was taken out of its envelope. -/
def openedPayload (format : OutputFormat) (r : Option KeyRef) (payload : Bytes) : Bytes :=
  match format with
  | .raw => payload
  | .json => line (JsonValue.object [("key_ref", .text? (r.map KeyRef.display)),
      ("payload_size", .nat payload.length), ("payload", .text (preview payload))]).render
  | .table => line (Grid.render ["KEY REF", "SIZE", "PAYLOAD"]
      [[shownRef r, toString payload.length, preview payload]])
  | .pretty =>
    line s!"key_ref={shownRef r} size={payload.length} payload={preview payload}"

/-- A key file that was written. -/
def keyFile (format : OutputFormat) (name path : String) (size : Nat) : Bytes :=
  match format with
  | .json => line (JsonValue.object [("name", .text name), ("path", .text path),
      ("key_len", .nat size)]).render
  | .table => line (Grid.render ["NAME", "PATH", "BYTES"] [[name, path, toString size]])
  | .pretty => line path
  | .raw => line path

end SealedRecords.Command
