import ClusterTuning.Quantity
import ClusterTuning.Selection
import ClusterTuning.Tuning.Field

/-!
# Tuning the resources of a container

The processor time of a container is tuned in thousandths of a core and its
memory in mebibytes.  The bounds are widened to take in the present values, and
limits and requests are set alike.  Bytes are rounded up to mebibytes in integers
of 64 bits, which may overflow.
-/

namespace ClusterTuning.TunedField

open Yaml

/-- The bounds of the processor time, in thousandths of a core. -/
def cpuBounds : Int32 × Int32 := (100, 4000)

/-- The bounds of the memory, in mebibytes. -/
def memoryBounds : Int32 × Int32 := (128, 4096)

/-- The number of bytes of a mebibyte. -/
def mebibyte : Int := 1048576

/-- The text of a quantity: a text, or the digits of a number. -/
def quantityText? : Value → Option String
  | .string s => some s
  | .number n => some n.text
  | _ => none

/-- The present quantity of a resource: its limit or else what is requested. -/
def currentQuantity? (f : TunedField) (resource : String) : Option String :=
  ["limits", "requests"].findSome? fun kind =>
    ((f.current.get? kind).bind (·.get? resource)).bind quantityText?

/-- The number limited to the integers of 32 bits that are not negative. -/
def clamped (n : Int) : Int32 :=
  Int32.ofInt (max 0 (min n maxInt32))

/-- The number of mebibytes for a number of bytes, rounded up: a mebibyte is added and one taken
away, each of them in 64 bits, before the division cuts the quotient off. -/
def mebibytes (bytes : Int) : Except Failure Int := do
  let sum ← checkedInt64 (bytes + mebibyte)
  let last ← checkedInt64 (sum - 1)
  return last.tdiv mebibyte

/-- The present processor time in thousandths of a core. -/
def currentCpu (f : TunedField) : Except Failure (Option Int32) :=
  (f.currentQuantity? "cpu").mapM fun q =>
    (Quantity.milliValue q).map clamped

/-- The present memory in mebibytes. -/
def currentMemory (f : TunedField) : Except Failure (Option Int32) :=
  (f.currentQuantity? "memory").mapM fun q => do
    return clamped (← mebibytes (← Quantity.value q))

/-- A parameter between two bounds, which are widened to take in a positive present value. -/
def bounded (name : String) (bounds : Int32 × Int32) (current : Option Int32) : Parameter :=
  match current.filter (0 < ·) with
  | some n =>
    { name, min := min bounds.1 n, max := max bounds.2 n, baseline := some (.int n) }
  | none => { name, min := bounds.1, max := bounds.2 }

/-- The name of the parameter for one of the resources. -/
def resourceName (f : TunedField) (namer : Namer) (resource : String) : String :=
  namer.name f.target f.path resource

/-- The parameters for the two resources. -/
def resourceParameters (f : TunedField) (namer : Namer) : Except Failure (List Parameter) := do
  return [bounded (f.resourceName namer "cpu") cpuBounds (← f.currentCpu),
    bounded (f.resourceName namer "memory") memoryBounds (← f.currentMemory)]

/-- The quantities that a patch sets. -/
def resourceValues (f : TunedField) (namer : Namer) : Value :=
  .mapping [
    (.string "cpu", .string (Placeholder.expression (f.resourceName namer "cpu") ++ "m")),
    (.string "memory",
      .string (Placeholder.expression (f.resourceName namer "memory") ++ "Mi"))]

/-- The edit that sets limits and requests to the values of the parameters. -/
def resourcesEdit (f : TunedField) (namer : Namer) : Except Failure Edit := do
  let limits ← Edit.ofPath (f.path ++ ["limits"]) (f.resourceValues namer)
  let requests ← Edit.ofPath (f.path ++ ["requests"]) (f.resourceValues namer)
  return .chain [limits, requests]

/-- Tunes the resources that the field holds. -/
def resources (f : TunedField) : Selection :=
  { parameters := some f.resourceParameters,
    patch := some { target := f.target, edit := f.resourcesEdit } }

end ClusterTuning.TunedField
