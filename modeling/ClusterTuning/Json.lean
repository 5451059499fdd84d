import ClusterTuning.SortedMap
import ClusterTuning.Yaml.Value

/-!
# Documents as JSON

A document becomes JSON where its keys can be texts: truth values and numbers
turn into their texts, null and collections cannot.  A tag becomes an object with
the tag as its one field, and numbers that are not finite become null.  Objects
are written with their fields in order, one to a line.
-/

namespace ClusterTuning

open Yaml

/-- A JSON value; the fields of an object stand in the order of their names. -/
inductive Json where
  | null
  | bool (b : Bool)
  | number (n : Number)
  | string (s : String)
  | array (items : List Json)
  | object (fields : List (String × Json))
deriving Repr, Inhabited

namespace Json

/-! ## Values as JSON -/

/-- The JSON number for a number, if it is finite. -/
def ofNumber : Number → Json
  | .integer n => .number (.integer n)
  | .float x => if x.isFinite then .number (.float x) else .null

/-- The text of a key. -/
def keyText? : Value → Option String
  | .bool b => some (boolText b)
  | .number (.integer n) => some (intText n)
  | .number (.float x) => if x.isFinite then some (Number.text (.float x)) else none
  | .string s => some s
  | _ => none

mutual

/-- The JSON value for a value of a document. -/
def ofValue? : Value → Option Json
  | .null => some .null
  | .bool b => some (.bool b)
  | .number n => some (ofNumber n)
  | .string s => some (.string s)
  | .sequence items => (ofItems? items).map .array
  | .mapping entries => (ofEntries? [] entries).map .object
  | .tagged tag v => (ofValue? v).map fun j => .object [("!" ++ tagName tag, j)]

/-- The JSON values for the items of a sequence. -/
def ofItems? : List Value → Option (List Json)
  | [] => some []
  | x :: xs => do
    let j ← ofValue? x
    return j :: (← ofItems? xs)

/-- The fields for the entries of a mapping, beside fields that are there already; of two values for
a name the later one counts. -/
def ofEntries? (fields : List (String × Json)) :
    List (Value × Value) → Option (List (String × Json))
  | [] => some fields
  | (k, v) :: rest => do
    let name ← keyText? k
    let j ← ofValue? v
    ofEntries? (SortedMap.insert compare name j fields) rest

end

/-! ## Writing -/

/-- A lower-case hexadecimal number of four digits. -/
def hexDigits (n : Nat) : List Char :=
  let digits := Nat.toDigits 16 n
  List.replicate (4 - digits.length) '0' ++ digits

/-- What stands for a character between double quotes. -/
def escape (c : Char) : List Char :=
  if c = '"' then ['\\', '"']
  else if c = '\\' then ['\\', '\\']
  else if c = '\n' then ['\\', 'n']
  else if c = '\r' then ['\\', 'r']
  else if c = '\t' then ['\\', 't']
  else if c = '\x08' then ['\\', 'b']
  else if c = '\x0c' then ['\\', 'f']
  else if c.toNat < 0x20 then '\\' :: 'u' :: hexDigits c.toNat
  else [c]

/-- A text in double quotes. -/
def quoted (s : String) : List Char :=
  '"' :: (s.toList.flatMap escape ++ ['"'])

/-- A new line, indented by two spaces for every level. -/
def newLine (level : Nat) : List Char :=
  '\n' :: List.replicate (2 * level) ' '

mutual

/-- The text of a value whose first line stands at a level of indentation. -/
def text (level : Nat) : Json → List Char
  | .null => "null".toList
  | .bool b => (boolText b).toList
  | .number n => n.text.toList
  | .string s => quoted s
  | .array [] => ['[', ']']
  | .array (x :: xs) =>
    '[' :: newLine (level + 1) ++ text (level + 1) x ++ moreItems (level + 1) xs ++
      newLine level ++ [']']
  | .object [] => ['\x7b', '\x7d']
  | .object ((name, v) :: rest) =>
    '\x7b' :: newLine (level + 1) ++ quoted name ++ ':' :: ' ' :: text (level + 1) v ++
      moreFields (level + 1) rest ++ newLine level ++ ['\x7d']

/-- The items of an array after the first one. -/
def moreItems (level : Nat) : List Json → List Char
  | [] => []
  | x :: xs => ',' :: newLine level ++ text level x ++ moreItems level xs

/-- The fields of an object after the first one. -/
def moreFields (level : Nat) : List (String × Json) → List Char
  | [] => []
  | (name, v) :: rest =>
    ',' :: newLine level ++ quoted name ++ ':' :: ' ' :: text level v ++ moreFields level rest

end

/-- The text of a list object that holds documents. -/
def listText (items : List Json) : String :=
  String.ofList (text 0 (.object
    [("apiVersion", .string "v1"), ("items", .array items), ("kind", .string "List")]) ++ ['\n'])

end Json

end ClusterTuning
