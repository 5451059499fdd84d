import ClusterTuning.Selection
import ClusterTuning.Tuning.Field

/-!
# Tuning the number of replicas

A replica count is tuned between one and five, or up to its present value if that
is larger.
-/

namespace ClusterTuning.TunedField

open Yaml

/-- The smallest number of replicas. -/
def minReplicas : Int32 := 1

/-- The largest number of replicas, unless there are more of them already. -/
def maxReplicas : Int32 := 5

/-- The present number of replicas, if it is a positive integer of 32 bits. -/
def currentReplicas? (f : TunedField) : Option Int32 :=
  (f.current.asInt64?.filter fun n => 0 < n && n ≤ maxInt32).map Int32.ofInt

/-- The name of the parameter for the number of replicas. -/
def replicasName (f : TunedField) (namer : Namer) : String :=
  namer.name f.target f.path "replicas"

/-- The parameter for the number of replicas. -/
def replicasParameter (f : TunedField) (namer : Namer) : Parameter :=
  { name := f.replicasName namer, min := minReplicas,
    max := (f.currentReplicas?.map (max maxReplicas ·)).getD maxReplicas,
    baseline := f.currentReplicas?.map .int }

/-- The edit that sets the number of replicas to the value of its parameter. -/
def replicasEdit (f : TunedField) (namer : Namer) : Except Failure Edit :=
  Edit.ofPath f.path (Placeholder.int (Placeholder.expression (f.replicasName namer)))

/-- Tunes the number of replicas that the field holds. -/
def replicas (f : TunedField) : Selection :=
  { parameters := some fun namer => .ok [f.replicasParameter namer],
    patch := some { target := f.target, edit := f.replicasEdit } }

end ClusterTuning.TunedField
