import SealedRecords.Json.Reader

/-!
# Skipping JSON values

A value that nobody asks for is read over. Its structure is checked, to any depth, but its texts
need not be UTF-8 and its numbers may have any size.
-/

namespace SealedRecords.Json

open SealedRecords Reader

/-- Reads over the text behind an opening quote, at most `n` bytes and escapes of it. -/
def ignoreTextBody : Nat → Reader Unit
  | 0 => fail .endInText
  | n + 1 => do
    match ← peek with
    | none => fail .endInText
    | some 0x22 => skip
    | some 0x5C => do
      skip
      match ← nextInText with
      | 0x75 => do
        let _ ← hexEscape
        ignoreTextBody n
      | b =>
        if [0x22, 0x5C, 0x2F, 0x62, 0x66, 0x6E, 0x72, 0x74].contains b then ignoreTextBody n
        else fail .invalidEscape
    | some b =>
      if b < 0x20 then fail .controlCharacter
      else do
        skip
        ignoreTextBody n

/-- Reads over the text behind an opening quote. -/
def ignoreText : Reader Unit := do ignoreTextBody ((← left) + 1)

/-- Reads over an exponent, from its letter on. -/
def ignoreExponent : Reader Unit := do
  skip
  match ← peek with
  | some 0x2B => skip
  | some 0x2D => skip
  | _ => pure ()
  match ← next with
  | some b => if isDigit b then do skipDigits (← left) else fail .invalidNumber
  | none => fail .invalidNumber

/-- Reads over an exponent if one follows. -/
def ignoreOptionalExponent : Reader Unit := do
  match ← peek with
  | some 0x65 => ignoreExponent
  | some 0x45 => ignoreExponent
  | _ => return

/-- Reads over a fraction, from the point on. -/
def ignoreFraction : Reader Unit := do
  skip
  match ← peek with
  | some b =>
    if isDigit b then do
      skipDigits (← left)
      ignoreOptionalExponent
    else failNext .invalidNumber
  | none => failNext .invalidNumber

/-- Reads over a number whose sign has been read. -/
def ignoreNumber : Reader Unit := do
  match ← next with
  | none => fail .invalidNumber
  | some b =>
    if b = 48 then
      match ← peek with
      | some d => if isDigit d then failNext .invalidNumber
      | none => pure ()
    else if isDigit b then do skipDigits (← left)
    else fail .invalidNumber
    match ← peek with
    | some 0x2E => ignoreFraction
    | _ => ignoreOptionalExponent

/-- What encloses the place that is read over. -/
inductive Frame where
  | list
  | object
  deriving DecidableEq, Repr

/-- Reads over one value that is no list and no object, or over the bracket that opens one. -/
def ignoreToken : Reader (Option Frame) := do
  match ← peekToken with
  | none => failNext .endInValue
  | some b =>
    if b = 0x6E then do
      skip
      word [0x75, 0x6C, 0x6C]
      return none
    else if b = 0x74 then do
      skip
      word [0x72, 0x75, 0x65]
      return none
    else if b = 0x66 then do
      skip
      word [0x61, 0x6C, 0x73, 0x65]
      return none
    else if b = 0x2D then do
      skip
      ignoreNumber
      return none
    else if isDigit b then do
      ignoreNumber
      return none
    else if b = 0x22 then do
      skip
      ignoreText
      return none
    else if b = 0x5B then do
      skip
      return some .list
    else if b = 0x7B then do
      skip
      return some .object
    else failNext .expectedValue

/-- Reads over the name of a field and its colon. -/
def ignoreName : Reader Unit := do
  match ← peekToken with
  | some 0x22 => skip
  | some _ => failNext .keyNotText
  | none => failNext .endInObject
  ignoreText
  colon

/-- Reads over what closes behind an element of the innermost frame. The frames that are still
open are returned when another element follows; `first` says that none has been read. -/
def ignoreClosing : Nat → Bool → Frame → List Frame → Reader (List Frame)
  | 0, _, _, _ => return []
  | n + 1, first, frame, outer => do
    let isEnd (b : UInt8) : Bool :=
      match frame with
      | .list => b = 0x5D
      | .object => b = 0x7D
    match ← peekToken with
    | none => failNext (match frame with | .list => .endInList | .object => .endInObject)
    | some b =>
      if b = 0x2C && !first then do
        skip
        return frame :: outer
      else if isEnd b then do
        skip
        match outer with
        | [] => return []
        | f :: fs => ignoreClosing n false f fs
      else if first then return frame :: outer
      else failNext (match frame with
        | .list => .expectedListEnd
        | .object => .expectedObjectEnd)

/-- Reads over a value inside the open frames, and over all that closes and follows up to the end
of the outermost value; at most `n` values. -/
def ignoreWithin : Nat → List Frame → Reader Unit
  | 0, _ => return
  | n + 1, frames => do
    let rest ← match ← ignoreToken, frames with
      | some f, _ => ignoreClosing ((← left) + 1) true f frames
      | none, [] => return
      | none, f :: fs => ignoreClosing ((← left) + 1) false f fs
    match rest with
    | [] => return
    | .list :: _ => ignoreWithin n rest
    | .object :: _ => do
      ignoreName
      ignoreWithin n rest

/-- Reads over a value. -/
def ignoreValue : Reader Unit := do ignoreWithin ((← left) + 1) []

end SealedRecords.Json
