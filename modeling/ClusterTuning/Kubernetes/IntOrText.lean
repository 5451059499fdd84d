import ClusterTuning.Yaml.Record

/-!
# Integers or texts

Some fields take an integer of 32 bits or a text: the port of a probe by number
or by name, a baseline by amount or by category.
-/

namespace ClusterTuning

open Yaml

/-- An integer of 32 bits or a text. -/
inductive IntOrText where
  | int (n : Int32)
  | text (s : String)
deriving DecidableEq, Repr, Inhabited

namespace IntOrText

/-- The value that is written. -/
def toValue : IntOrText → Value
  | int n => .number (.integer n.toInt)
  | text s => .string s

/-- The integer or text that a value stands for. -/
def ofValue? : Value → Option IntOrText
  | .number (.integer n) =>
    if fitsInt32 n then some (.int (Int32.ofInt n)) else none
  | .string s => some (.text s)
  | _ => none

/-- Reads an integer or a text. -/
def read (n : Node) : Except Fault IntOrText := do
  Node.orFault .kind (ofValue? (← n.toValue))

end IntOrText

end ClusterTuning
