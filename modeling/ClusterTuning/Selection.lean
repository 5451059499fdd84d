import ClusterTuning.Experiment
import ClusterTuning.Naming

/-!
# Selections

A selection is one contribution to an experiment.  It has any of five
capabilities: it may change the experiment freely, add parameters, edit the patch
of a resource, add metrics, or add documents to the output.
-/

namespace ClusterTuning

open Yaml

/-- The edit that a selection makes to the patch of one resource. -/
structure PatchContribution where
  target : Reference
  /-- The strategy that the edit needs, if any. -/
  strategy : Option PatchStrategy := none
  edit : Namer → Except Failure Edit

/-- One contribution to an experiment; a capability that is absent is `none`. -/
structure Selection where
  experiment : Option (Experiment → Except Failure Experiment) := none
  parameters : Option (Namer → Except Failure (List Parameter)) := none
  patch : Option PatchContribution := none
  metrics : Option (Except Failure (List Metric)) := none
  documents : Option (Except Failure (List Value)) := none
  /-- The resource that the selection is about, which decides how parameters are named. -/
  target : Option Reference := patch.map (·.target)

/-- The namer for a list of selections. -/
def Namer.ofSelections (selections : List Selection) : Namer :=
  Namer.ofTargets (selections.filterMap (·.target))

end ClusterTuning
