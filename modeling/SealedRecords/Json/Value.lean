import SealedRecords.Decimal.Shortest
import SealedRecords.NameMap
import SealedRecords.Text.Hex

/-!
# JSON values and their text

A JSON value is written without blanks. Whole numbers are written as they are; doubles are
written with the fewest digits that read back, positionally from `1e-5` up to below `1e16` and
with an exponent elsewhere. In texts only the quote, the backslash and the controls below U+0020
are escaped.
-/

namespace SealedRecords

/-- A JSON number: a whole number of 64 bits, or a double given by its bits. -/
inductive JsonNumber where
  | integer (n : Int)
  | double (bits : UInt64)
  deriving DecidableEq, Repr

/-- A JSON value. -/
inductive JsonValue where
  | null
  | bool (b : Bool)
  | number (n : JsonNumber)
  | text (s : String)
  | list (items : List JsonValue)
  | object (fields : List (String × JsonValue))

namespace JsonNumber

/-- The first and last places of the decimal point for which a double is written positionally,
counted from the front of its digits. -/
def pointRange : Int × Int := (-4, 16)

/-- The text of an exponent, with its sign. -/
def exponentText (e : Int) : String :=
  if e < 0 then "e-" ++ toString e.natAbs else "e+" ++ toString e.natAbs

/-- The text of a decimal; it always shows that the number is a double. -/
def decimalText (d : Decimal) : String :=
  let digits := (toString d.digits).toList
  let n := digits.length
  let point := (n : Int) + d.exponent
  if pointRange.1 ≤ point && point ≤ pointRange.2 then
    if 0 ≤ d.exponent then
      String.ofList (digits ++ List.replicate d.exponent.toNat '0') ++ ".0"
    else if 0 < point then
      String.ofList (digits.take point.toNat) ++ "." ++ String.ofList (digits.drop point.toNat)
    else
      "0." ++ String.ofList (List.replicate (-point).toNat '0' ++ digits)
  else
    match digits with
    | [] => ""
    | [c] => String.singleton c ++ exponentText (point - 1)
    | c :: cs =>
      String.singleton c ++ "." ++ String.ofList cs ++ exponentText (point - 1)

/-- The text of a double. -/
def doubleText (bits : UInt64) : String :=
  let magnitude := Decimal.Magnitude.ofBits bits
  let sign := if bits >>> 63 = 1 then "-" else ""
  if magnitude.mantissa = 0 then sign ++ "0.0"
  else sign ++ decimalText (Decimal.shortest magnitude)

/-- The text of a number. -/
def render : JsonNumber → String
  | .integer n => toString n
  | .double bits => doubleText bits

end JsonNumber

namespace JsonValue

/-- How a character appears in a text. -/
def escape (c : Char) : String :=
  if c = '"' then "\\\""
  else if c = '\\' then "\\\\"
  else if c = '\n' then "\\n"
  else if c = '\r' then "\\r"
  else if c = '\t' then "\\t"
  else if c.toNat = 8 then "\\b"
  else if c.toNat = 12 then "\\f"
  else if c.toNat < 0x20 then "\\u00" ++ Hex.encode [UInt8.ofNat c.toNat]
  else String.singleton c

/-- A text in quotes. -/
def quote (s : String) : String := "\"" ++ String.join (s.toList.map escape) ++ "\""

mutual

/-- The text of a value, without blanks. -/
def render : JsonValue → String
  | .null => "null"
  | .bool b => if b then "true" else "false"
  | .number n => n.render
  | .text s => quote s
  | .list items => "[" ++ ",".intercalate (renderItems items) ++ "]"
  | .object fields => "\x7b" ++ ",".intercalate (renderFields fields) ++ "\x7d"

/-- The texts of items. -/
def renderItems : List JsonValue → List String
  | [] => []
  | v :: vs => render v :: renderItems vs

/-- The texts of fields. -/
def renderFields : List (String × JsonValue) → List String
  | [] => []
  | (name, v) :: fs => (quote name ++ ":" ++ render v) :: renderFields fs

end

/-- A natural number as a value. -/
def nat (n : Nat) : JsonValue := .number (.integer n)

/-- A text or null. -/
def text? : Option String → JsonValue
  | some s => .text s
  | none => .null

/-- The field of an object. -/
def field? (v : JsonValue) (name : String) : Option JsonValue :=
  match v with
  | .object fields => NameMap.get? fields name
  | _ => none

end JsonValue

end SealedRecords
