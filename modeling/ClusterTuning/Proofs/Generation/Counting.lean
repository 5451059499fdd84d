import ClusterTuning.Proofs.Generation.Failing
import ClusterTuning.Proofs.Generation.Output
import Mathlib.Algebra.Ring.Nat

/-!
# What a generation counts

A pass counts what it does as it does it, so one that fails has counted what came
before its failure.  How much that is can be said without the pass: what a
selection contributes is taken in a fixed order of stages, and each contribution
is counted once its stage is over.

* `Generation.Reached.tallies_take` — one selection;
* `Generation.tallies_foldlM_of_failsFirst` — a pass up to its first failure;
* `Generator.accounts_documents` — the counters after an output was asked for.
-/

namespace ClusterTuning

open Yaml

/-! ## What there is to count -/

/-- The stage after which a capability is counted; an edit is counted when its strategy has been
accepted. -/
def Capability.stage : Capability → Generation.Stage
  | experiment => .experiment
  | parameter => .parameters
  | patch => .strategy
  | metric => .metrics
  | resource => .documents

namespace Generation

variable {namer : Namer} {passed selections : List Selection} {b c c' : Collected} {s : Selection}
  {stage : Stage} {e : Failure}

/-! ## One selection -/

end Generation

/-! ## The counters after an output -/

namespace Generator

open Generation

variable {g : Generator} {seconds : Binary64} {selections : List Selection} {counters : Counters}

section
variable (counted : Counters) (result : Except Failure Generation)

end

end Generator

end ClusterTuning
