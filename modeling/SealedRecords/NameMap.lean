import SealedRecords.Text.Utf8

/-!
# Maps from names

Association lists in the ascending order of the bytes of their names, each name once.
-/

namespace SealedRecords.NameMap

open SealedRecords

/-- Puts a value under a name, in place of a value under the same name. -/
def put (name : String) (value : α) : List (String × α) → List (String × α)
  | [] => [(name, value)]
  | (n, v) :: rest =>
    if name = n then (name, value) :: rest
    else if Bytes.before (Utf8.encode name) (Utf8.encode n) then (name, value) :: (n, v) :: rest
    else (n, v) :: put name value rest

/-- The value under a name. -/
def get? (m : List (String × α)) (name : String) : Option α :=
  (m.find? fun p => p.1 == name).map Prod.snd

end SealedRecords.NameMap
