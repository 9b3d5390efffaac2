import SealedRecords.Json.Ignored

/-!
# Orders as JSON

An order is written as an object with its number and its account. It is read from such an object,
in which the fields may come in any order and among others, or from a list of the two values.
-/

namespace SealedRecords

/-- An order: a number and the account that it belongs to. -/
structure Order where
  id : UInt64
  account : String
  deriving DecidableEq, Repr

namespace Order

open Json Json.Reader

/-- An order as a JSON value. -/
def toJson (o : Order) : JsonValue :=
  .object [("id", .nat o.id.toNat), ("account", .text o.account)]

/-- The wanted kinds, as faults name them. -/
def wantedId : String := "u64"

/-- The wanted kind of an account. -/
def wantedAccount : String := "a string"

/-- The wanted kind of the whole. -/
def wantedOrder : String := "struct Order"

/-- The fault that the value at hand is not of the wanted kind. A value that is no list and no
object is read first, and may be faulty in itself. -/
def wrongKind (wanted : String) : Reader α := do
  match ← peek with
  | none => failNext .expectedValue
  | some b =>
    if b = 0x6E then do
      skip
      word [0x75, 0x6C, 0x6C]
      fail (.wrongKind .null wanted)
    else if b = 0x74 then do
      skip
      word [0x72, 0x75, 0x65]
      fail (.wrongKind (.bool true) wanted)
    else if b = 0x66 then do
      skip
      word [0x61, 0x6C, 0x73, 0x65]
      fail (.wrongKind (.bool false) wanted)
    else if b = 0x2D then do
      skip
      let n ← number false
      fail (.wrongKind (.number n) wanted)
    else if isDigit b then do
      let n ← number true
      fail (.wrongKind (.number n) wanted)
    else if b = 0x22 then do
      skip
      let s ← Json.text
      fail (.wrongKind (.text s) wanted)
    else if b = 0x5B then fail (.wrongKind .list wanted)
    else if b = 0x7B then fail (.wrongKind .object wanted)
    else failNext .expectedValue

/-- A number that has been read as the number of an order. -/
def idOf : JsonNumber → Reader UInt64
  | .integer n => if 0 ≤ n then return UInt64.ofNat n.toNat else fail (.wrongValue n wantedId)
  | .double bits => fail (.wrongKind (.number (.double bits)) wantedId)

/-- Reads the number of an order. -/
def readId : Reader UInt64 := do
  match ← peekToken with
  | none => failNext .endInValue
  | some b =>
    if b = 0x2D then do
      skip
      idOf (← number false)
    else if isDigit b then idOf (← number true)
    else wrongKind wantedId

/-- Reads the account of an order. -/
def readAccount : Reader String := do
  match ← peekToken with
  | none => failNext .endInValue
  | some 0x22 => do
    skip
    Json.text
  | some _ => wrongKind wantedAccount

/-- Reads the fields of an order up to the end of the object, at most `n`, or finds what is wrong
with their names. -/
def readFields : Nat → Bool → Option UInt64 → Option String → Reader (Except Issue Order)
  | 0, _, _, _ => return .error (.missingField "id")
  | n + 1, first, id, account => do
    if ← moreFields first then
      skip
      let name ← Json.text
      if name = "id" then
        if id.isSome then return .error (.duplicateField "id")
        colon
        let v ← readId
        readFields n false (some v) account
      else if name = "account" then
        if account.isSome then return .error (.duplicateField "account")
        colon
        let v ← readAccount
        readFields n false id (some v)
      else
        colon
        ignoreValue
        readFields n false id account
    else
      match id, account with
      | none, _ => return .error (.missingField "id")
      | _, none => return .error (.missingField "account")
      | some id, some account => return .ok ⟨id, account⟩

/-- Reads the two elements of an order, or finds that there are fewer. -/
def readItems : Reader (Except Issue Order) := do
  if ← moreItems true then
    let id ← readId
    if ← moreItems false then
      let account ← readAccount
      return .ok ⟨id, account⟩
    else return .error (.wrongLength 1 (wantedOrder ++ " with 2 elements"))
  else return .error (.wrongLength 0 (wantedOrder ++ " with 2 elements"))

/-- Closes a list or an object behind what has been read of it. An issue of the content is a fault
at the position that the attempt to close reaches. -/
def closing (close : Reader Unit) : Except Issue α → Reader α
  | .ok a => do
    close
    return a
  | .error issue => do
    tryCatch close fun _ => pure ()
    fail issue

/-- Reads an order. -/
def read : Reader Order := do
  match ← peekToken with
  | none => failNext .endInValue
  | some b =>
    if b = 0x5B then do
      skip
      closing endList (← readItems)
    else if b = 0x7B then do
      skip
      closing endObject (← readFields ((← left) + 1) true none none)
    else wrongKind wantedOrder

/-- The order that a JSON text holds. -/
def parse (b : Bytes) : Except Fault Order := readAll read b

end Order

end SealedRecords
