import SealedRecords.Json.Number
import SealedRecords.Json.Text

/-!
# Reading JSON values

A JSON text is one value with blanks around it. Lists and objects may be nested 127 deep. The
fields of an object are kept in the order of the bytes of their names, and of two fields of one
name the later counts.
-/

namespace SealedRecords.Json

open SealedRecords Reader

/-- How deep lists and objects may be nested. -/
def maxDepth : Nat := 127

/-- Whether another element of a list follows; `first` says that none has been read. -/
def moreItems (first : Bool) : Reader Bool := do
  match ← peekToken with
  | none => failNext .endInList
  | some 0x5D => return false
  | some b =>
    if first then return true
    else if b = 0x2C then do
      skip
      match ← peekToken with
      | some 0x5D => failNext .trailingComma
      | some _ => return true
      | none => failNext .endInValue
    else failNext .expectedListEnd

/-- Reads the end of a list. -/
def endList : Reader Unit := do
  match ← peekToken with
  | some 0x5D => skip
  | some 0x2C => do
    skip
    match ← peekToken with
    | some 0x5D => failNext .trailingComma
    | _ => failNext .trailingCharacters
  | some _ => failNext .trailingCharacters
  | none => failNext .endInList

/-- Whether another field of an object follows; `first` says that none has been read. The reader
stands before the opening quote of its name then. -/
def moreFields (first : Bool) : Reader Bool := do
  let token ← match ← peekToken with
    | none => failNext .endInObject
    | some 0x7D => return false
    | some b =>
      if b = 0x2C && !first then do
        skip
        peekToken
      else if first then pure (some b)
      else failNext .expectedObjectEnd
  match token with
  | some 0x22 => return true
  | some 0x7D => failNext .trailingComma
  | some _ => failNext .keyNotText
  | none => failNext .endInValue

/-- Reads the end of an object. -/
def endObject : Reader Unit := do
  match ← peekToken with
  | some 0x7D => skip
  | some 0x2C => failNext .trailingComma
  | some _ => failNext .trailingCharacters
  | none => failNext .endInObject

/-- Reads the colon behind the name of a field. -/
def colon : Reader Unit := do
  match ← peekToken with
  | some 0x3A => skip
  | some _ => failNext .expectedColon
  | none => failNext .endInObject

/-- Reads the elements of a list up to its end, at most `n`. -/
def items (element : Reader α) : Nat → Bool → Reader (List α)
  | 0, _ => return []
  | n + 1, first => do
    if ← moreItems first then return (← element) :: (← items element n false)
    else return []

/-- Reads the fields of an object up to its end, at most `n`, and puts them into `known`. -/
def fields (element : Reader α) : Nat → Bool → List (String × α) → Reader (List (String × α))
  | 0, _, known => return known
  | n + 1, first, known => do
    if ← moreFields first then
      skip
      let name ← text
      colon
      let v ← element
      fields element n false (NameMap.put name v known)
    else return known

/-- Reads a value. Lists and objects in it may be nested `depth` deep. -/
def value (depth : Nat) : Reader JsonValue := do
  match ← peekToken with
  | none => failNext .endInValue
  | some b =>
    if b = 0x6E then do
      skip
      word [0x75, 0x6C, 0x6C]
      return .null
    else if b = 0x74 then do
      skip
      word [0x72, 0x75, 0x65]
      return .bool true
    else if b = 0x66 then do
      skip
      word [0x61, 0x6C, 0x73, 0x65]
      return .bool false
    else if b = 0x2D then do
      skip
      return .number (← number false)
    else if isDigit b then return .number (← number true)
    else if b = 0x22 then do
      skip
      return .text (← text)
    else if b = 0x5B then
      match depth with
      | 0 => failNext .tooDeep
      | depth + 1 => do
        skip
        let vs ← items (value depth) (← left) true
        endList
        return .list vs
    else if b = 0x7B then
      match depth with
      | 0 => failNext .tooDeep
      | depth + 1 => do
        skip
        let fs ← fields (value depth) (← left) true []
        endObject
        return .object fs
    else failNext .expectedValue

/-- Reads what is left: blanks only. -/
def finish : Reader Unit := do
  match ← peekToken with
  | some _ => failNext .trailingCharacters
  | none => return

/-- Runs a reader on all of the bytes. -/
def readAll (x : Reader α) (b : Bytes) : Except Fault α :=
  (do
    let a ← x
    finish
    return a : Reader α).run { rest := b } |>.1

/-- The value of a JSON text. -/
def parse (b : Bytes) : Except Fault JsonValue := readAll (value maxDepth) b

end SealedRecords.Json
