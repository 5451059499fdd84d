import ClusterTuning.Yaml.Node
import ClusterTuning.Yaml.Value
import ClusterTuning.Yaml.Scalar

/-!
# Values of nodes

The value that a node stands for.  The tag of a scalar, if it is one of the
standard ones, decides its meaning; a tag of the document's own stays on the
value.
-/

namespace ClusterTuning.Yaml

/-- The value that a plain scalar means. -/
def Scalar.Meaning.value (text : String) : Scalar.Meaning → Except Fault Value
  | .null => .ok .null
  | .bool b => .ok (.bool b)
  | .integer n => .ok (.number (.integer n))
  | .oversized => .error .scalar
  | .float x => .ok (.number (.float x))
  | .text => .ok (.string text)

namespace Node

/-- A fault in place of an absent result. -/
def orFault {α : Type} (fault : Fault) : Option α → Except Fault α
  | some a => .ok a
  | none => .error fault

/-- The value of a scalar without a tag. -/
def untaggedScalar (style : ScalarStyle) (text : String) : Except Fault Value :=
  if style = .plain then (Scalar.meaning text.toList).value text else .ok (.string text)

/-- The value of a scalar. -/
def scalarValue (tag : Option Tag) (style : ScalarStyle) (text : String) : Except Fault Value :=
  match tag with
  | some .null => if Scalar.isNullWord text.toList then .ok .null else .error .scalar
  | some .bool => (orFault .scalar (Scalar.readBool? text.toList)).map .bool
  | some .int =>
    (orFault .scalar ((Scalar.readInteger? text.toList).filter Scalar.fits64)).map
      (.number ∘ .integer)
  | some .float => (orFault .scalar (Scalar.readFloat? text.toList)).map (.number ∘ .float)
  | some .foreign => .ok (.string text)
  | some (.named name) => (untaggedScalar style text).map (.tagged name)
  | some .unreadable => untaggedScalar style text
  | none => untaggedScalar style text

/-- Puts a tag of the document's own on a value. -/
def withTag (tag : Option Tag) (value : Value) : Value :=
  match tag with
  | some (.named name) => .tagged name value
  | _ => value

mutual

/-- The value of a node. -/
def toValue : Node → Except Fault Value
  | .scalar tag style text => scalarValue tag style text
  | .sequence tag items => do return withTag tag (.sequence (← itemValues items))
  | .mapping tag entries => do return withTag tag (.mapping (← entryValues [] entries))
  | .absent => .ok .null
  | .excess => .error .limit

/-- The values of a list of nodes. -/
def itemValues : List Node → Except Fault (List Value)
  | [] => .ok []
  | x :: xs => do
    let v ← toValue x
    return v :: (← itemValues xs)

/-- The values of the entries of a mapping after the ones in `before`, which is reversed.  A key must
not be there twice. -/
def entryValues (before : List (Value × Value)) :
    List (Node × Node) → Except Fault (List (Value × Value))
  | [] => .ok before.reverse
  | (k, v) :: rest => do
    let key ← toValue k
    if before.any (·.1.same key) then throw .duplicateKey
    let value ← toValue v
    entryValues ((key, value) :: before) rest

end

end Node

/-- Reads the one document in a text as a value. -/
def Value.read (text : String) : Except Fault Value := do
  (← Node.read text).toValue

end ClusterTuning.Yaml
