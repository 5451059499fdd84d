import ClusterTuning.SortedMap
import ClusterTuning.Yaml.Decode

/-!
# Reading objects from nodes

An object of a known kind is read from the node that describes it.  Texts are
taken as they are written, whatever they would mean as plain scalars; truth
values and integers have to be plain.  An empty scalar stands for an empty list
or object, and null for an optional part that is absent.
-/

namespace ClusterTuning.Yaml

namespace Node

/-- The text of a scalar. -/
def text : Node → Except Fault String
  | .scalar _ _ s => .ok s
  | .excess => .error .limit
  | _ => .error .kind

/-- The text of a scalar that can be something else than a text: a plain one, or a literal block
under the standard tag of the kind that is expected. -/
def bareText? (expected : Tag) : Node → Option String
  | .scalar _ .plain s => some s
  | .scalar tag .literal s => if tag = some expected then some s else none
  | _ => none

/-- A truth value. -/
def flag (n : Node) : Except Fault Bool :=
  orFault .kind ((bareText? .bool n).bind fun s => Scalar.readBool? s.toList)

/-- An integer from a range. -/
def integer (low high : Int) (n : Node) : Except Fault Int :=
  orFault .kind (((bareText? .int n).bind fun s => Scalar.readInteger? s.toList).filter
    fun k => low ≤ k && k ≤ high)

/-- An integer of 32 bits. -/
def int32 (n : Node) : Except Fault Int32 :=
  (integer minInt32 maxInt32 n).map Int32.ofInt

/-- Whether nothing stands in the place of the node. -/
def isEmpty : Node → Bool
  | .absent => true
  | .scalar _ .plain s => s.isEmpty
  | _ => false

/-- Whether the node is null.  The standard tag of null asks for one of its spellings. -/
def isNull : Node → Except Fault Bool
  | .absent => .ok true
  | .scalar none .plain s => .ok (s.isEmpty || Scalar.isNullWord s.toList)
  | .scalar (some .null) .plain s =>
    if Scalar.isNullWord s.toList then .ok true else .error .scalar
  | _ => .ok false

section
variable {α : Type} (read : Node → Except Fault α)

/-- A part that may be null. -/
def optional (n : Node) : Except Fault (Option α) := do
  if ← n.isNull then return none else return some (← read n)

/-- A list. -/
def list (n : Node) : Except Fault (List α) :=
  match n with
  | .sequence _ items => items.mapM read
  | n => if n.isEmpty then .ok [] else .error .kind

end

/-- The fields of an object. -/
def record (n : Node) : Except Fault (List (String × Node)) :=
  match n with
  | .mapping _ entries => entries.mapM fun entry => do return (← entry.1.text, entry.2)
  | n => if n.isEmpty then .ok [] else .error .kind

/-- A map from texts; of two values for a key the later one counts. -/
def dictionary {α : Type} (read : Node → Except Fault α) (n : Node) :
    Except Fault (Dictionary α) := do
  let entries ← (← n.record).mapM fun entry => do return (entry.1, ← read entry.2)
  return Dictionary.ofList entries

end Node

/-! ## Fields of objects -/

namespace Record

variable {α : Type}

/-- The field of a name, which an object has at most once. -/
def only? (name : String) (fields : List (String × Node)) : Except Fault (Option Node) :=
  match fields.filter (·.1 == name) with
  | [] => .ok none
  | [field] => .ok (some field.2)
  | _ => .error .duplicateKey

/-- A field that an object must have. -/
def need (name : String) (read : Node → Except Fault α) (fields : List (String × Node)) :
    Except Fault α := do
  match ← only? name fields with
  | some n => read n
  | none => throw .missingField

/-- A field with a value for its absence. -/
def getD (name : String) (read : Node → Except Fault α) (default : α)
    (fields : List (String × Node)) : Except Fault α := do
  match ← only? name fields with
  | some n => read n
  | none => return default

/-- A field that may be absent or null. -/
def get? (name : String) (read : Node → Except Fault α) (fields : List (String × Node)) :
    Except Fault (Option α) :=
  getD name (Node.optional read) none fields

/-- A field that may be absent, null or repeated; the last one counts, and all must be readable. -/
def last? (name : String) (read : Node → Except Fault α) (fields : List (String × Node)) :
    Except Fault (Option α) := do
  let values ← (fields.filter (·.1 == name)).mapM fun field => Node.optional read field.2
  return values.getLast?.join

end Record

/-! ## Values as nodes -/

namespace Value

mutual

/-- The node that describes a value: texts in double quotes, anything else plain. -/
def toNode : Value → Node
  | .null => .scalar none .plain "null"
  | .bool b => .scalar none .plain (boolText b)
  | .number n => .scalar none .plain n.text
  | .string s => .scalar none .doubleQuoted s
  | .sequence items => .sequence none (itemNodes items)
  | .mapping entries => .mapping none (entryNodes entries)
  | .tagged tag v =>
    match toNode v with
    | .scalar _ style s => .scalar (some (.named tag)) style s
    | .sequence _ items => .sequence (some (.named tag)) items
    | .mapping _ entries => .mapping (some (.named tag)) entries
    | n => n

/-- The nodes of a list of values. -/
def itemNodes : List Value → List Node
  | [] => []
  | x :: xs => toNode x :: itemNodes xs

/-- The nodes of the entries of a mapping. -/
def entryNodes : List (Value × Value) → List (Node × Node)
  | [] => []
  | (k, v) :: rest => (toNode k, toNode v) :: entryNodes rest

end

end Value

end ClusterTuning.Yaml
