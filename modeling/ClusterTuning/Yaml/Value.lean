import ClusterTuning.Numeric.Shortest

/-!
# Documents as values

A document is a tree of scalars, sequences and mappings, any of them under a
tag.  Mappings keep the order in which their keys were stored.  Two values count
as the same when they differ only in the order of mapping keys.
-/

namespace ClusterTuning.Yaml

/-- A number of a document: an integer of 64 bits, with or without a sign, or a number of the
binary format. -/
inductive Number where
  | integer (n : Int)
  | float (x : Binary64)
deriving DecidableEq, Repr, Inhabited

/-- A value of a document. -/
inductive Value where
  | null
  | bool (b : Bool)
  | number (n : Number)
  | string (s : String)
  | sequence (items : List Value)
  | mapping (entries : List (Value × Value))
  | tagged (tag : String) (value : Value)
deriving Repr, Inhabited

/-! ## Texts of scalars -/

/-- The text of a number. -/
def Number.text : Number → String
  | .integer n => intText n
  | .float x => NumberLayout.document.text x

/-- The text of a truth value. -/
def boolText (b : Bool) : String :=
  if b then "true" else "false"

/-! ## Sameness -/

/-- Two numbers are the same when they are equal or both undefined. -/
def Number.same : Number → Number → Bool
  | .integer a, .integer b => a == b
  | .float .nan, .float .nan => true
  | .float x, .float y => x.same y
  | _, _ => false

/-- A tag without its exclamation mark; a mark alone is kept. -/
def tagName (tag : String) : String :=
  match tag.toList with
  | '!' :: c :: rest => String.ofList (c :: rest)
  | _ => tag

namespace Value

mutual

/-- Whether two values are the same, up to the order of mapping keys. -/
def same : Value → Value → Bool
  | .null, .null => true
  | .bool a, .bool b => a == b
  | .number a, .number b => a.same b
  | .string a, .string b => a == b
  | .sequence xs, .sequence ys => sameItems xs ys
  | .mapping xs, .mapping ys => xs.length == ys.length && sameEntries xs ys
  | .tagged s x, .tagged t y => tagName s == tagName t && same x y
  | _, _ => false

/-- Whether two lists hold the same values in the same order. -/
def sameItems : List Value → List Value → Bool
  | [], [] => true
  | x :: xs, y :: ys => same x y && sameItems xs ys
  | _, _ => false

/-- Whether every entry of a mapping has its like in another one. -/
def sameEntries : List (Value × Value) → List (Value × Value) → Bool
  | [], _ => true
  | (k, v) :: rest, ys =>
    (match ys.find? fun entry => same k entry.1 with
      | some entry => same v entry.2
      | none => false) && sameEntries rest ys

end

/-! ## Views through tags -/

/-- The value under any tags. -/
def untagged : Value → Value
  | .tagged _ v => v.untagged
  | v => v

/-- Whether there is nothing but null under the tags. -/
def isNull (v : Value) : Bool :=
  match v.untagged with
  | .null => true
  | _ => false

/-- The text under the tags. -/
def asString? (v : Value) : Option String :=
  match v.untagged with
  | .string s => some s
  | _ => none

/-- The integer of 64 bits with a sign under the tags. -/
def asInt64? (v : Value) : Option Int :=
  match v.untagged with
  | .number (.integer n) => if n ≤ maxInt64 then some n else none
  | _ => none

/-- The entries of the mapping under the tags. -/
def asMapping? (v : Value) : Option (List (Value × Value)) :=
  match v.untagged with
  | .mapping entries => some entries
  | _ => none

/-- The tags of the first value around the second one. -/
def withUntagged : Value → Value → Value
  | .tagged t v, new => .tagged t (v.withUntagged new)
  | _, new => new

end Value

/-! ## Mappings -/

namespace Mapping

/-- The position of a key. -/
def position? (key : Value) (entries : List (Value × Value)) : Option Nat :=
  entries.findIdx? fun entry => entry.1.same key

/-- The value under a key. -/
def get? (key : Value) : List (Value × Value) → Option Value
  | [] => none
  | (k, v) :: rest => if k.same key then some v else get? key rest

/-- Replaces the value under a key by a function of it: a key that is there keeps its place, a new
one goes to the end. -/
def alter (key : Value) (change : Option Value → Value) :
    List (Value × Value) → List (Value × Value)
  | [] => [(key, change none)]
  | (k, v) :: rest =>
    if k.same key then (k, change (some v)) :: rest else (k, v) :: alter key change rest

/-- Stores a value: a key that is there keeps its place, a new one goes to the end. -/
def insert (key value : Value) (entries : List (Value × Value)) : List (Value × Value) :=
  alter key (fun _ => value) entries

/-- Removes the entry at a position; the last entry takes its place. -/
def removeAt (position : Nat) (entries : List (Value × Value)) : List (Value × Value) :=
  match entries.getLast? with
  | some last => (entries.set position last).dropLast
  | none => []

/-- Removes a key; the last entry takes its place. -/
def remove (key : Value) (entries : List (Value × Value)) : List (Value × Value) :=
  match position? key entries with
  | some i => removeAt i entries
  | none => entries

/-- The value stored under a text. -/
def getText? (key : String) (entries : List (Value × Value)) : Option Value :=
  get? (.string key) entries

end Mapping

/-- The value under a text in a mapping, looking through tags. -/
def Value.get? (v : Value) (key : String) : Option Value :=
  v.asMapping?.bind (Mapping.getText? key)

/-- A mapping with the given fields, leaving out absent ones. -/
def Value.record (fields : List (Option (String × Value))) : Value :=
  .mapping (fields.filterMap fun field => field.map fun (name, v) => (.string name, v))

end ClusterTuning.Yaml
