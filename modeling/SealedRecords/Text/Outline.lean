/-!
# Outlines

The shape of a value for a reader who looks for a fault: names, fields and items, on one line or
spread over lines with an indentation of four columns. An outline can leave fields out and say
so.
-/

namespace SealedRecords

/-- The shape of a value. -/
inductive Outline where
  /-- A value that is written as one word. -/
  | word (text : String)
  /-- A name with items in parentheses. -/
  | tuple (name : String) (items : List Outline)
  /-- A name with named fields; `more` says that there are others. -/
  | record (name : String) (fields : List (String × Outline)) (more : Bool)
  /-- Items in brackets. -/
  | list (items : List Outline)

namespace Outline

/-- A value that may be absent. -/
def option (f : α → Outline) : Option α → Outline
  | some a => .tuple "Some" [f a]
  | none => .word "None"

/-- A number. -/
def number (n : Nat) : Outline := .word (toString n)

mutual

/-- An outline on one line. -/
def compact : Outline → String
  | .word s => s
  | .tuple name items => name ++ "(" ++ ", ".intercalate (compactItems items) ++ ")"
  | .record name fields more =>
    match compactFields fields ++ (if more then [".."] else []) with
    | [] => name
    | parts => name ++ " \x7b " ++ ", ".intercalate parts ++ " \x7d"
  | .list items => "[" ++ ", ".intercalate (compactItems items) ++ "]"

/-- Each item on one line. -/
def compactItems : List Outline → List String
  | [] => []
  | o :: os => compact o :: compactItems os

/-- Each field on one line. -/
def compactFields : List (String × Outline) → List String
  | [] => []
  | (name, o) :: fs => (name ++ ": " ++ compact o) :: compactFields fs

end

/-- Lines with `head` in front of the first and a comma behind the last, indented. -/
def item (head : String) (lines : List String) : List String :=
  let lines := match lines with
    | [] => [head]
    | l :: ls => (head ++ l) :: ls
  (lines.dropLast ++ [lines.getLastD "" ++ ","]).map ("    " ++ ·)

mutual

/-- The lines of an outline that is spread out. -/
def lines : Outline → List String
  | .word s => [s]
  | .tuple name items => [name ++ "("] ++ itemLines items ++ [")"]
  | .record name fields more =>
    match fields, more with
    | [], false => [name]
    | [], true => [name ++ " \x7b .. \x7d"]
    | f :: fs, more =>
      [name ++ " \x7b"] ++ fieldLines (f :: fs) ++ (if more then ["    .."] else []) ++ ["\x7d"]
  | .list [] => ["[]"]
  | .list (o :: os) => ["["] ++ itemLines (o :: os) ++ ["]"]

/-- The lines of items. -/
def itemLines : List Outline → List String
  | [] => []
  | o :: os => item "" (lines o) ++ itemLines os

/-- The lines of fields. -/
def fieldLines : List (String × Outline) → List String
  | [] => []
  | (name, o) :: fs => item (name ++ ": ") (lines o) ++ fieldLines fs

end

/-- An outline spread over lines. -/
def spread (o : Outline) : String := "\n".intercalate o.lines

end Outline

end SealedRecords
