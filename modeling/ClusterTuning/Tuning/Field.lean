import ClusterTuning.Reference
import ClusterTuning.Yaml.Value

/-!
# Fields to tune

Where the value to tune stands, and what it is at present.
-/

namespace ClusterTuning

/-- A field of a resource whose value is to be tuned. -/
structure TunedField where
  /-- The resource that has the field. -/
  target : Reference
  /-- The path from the root of the resource to the field. -/
  path : List String
  /-- The present value. -/
  current : Yaml.Value := .null
deriving Repr, Inhabited

end ClusterTuning
