import ClusterTuning.Numeric.Shortest
import ClusterTuning.Text.Quoted

/-!
# Counters of generations

What is counted while experiments are generated: passes and failures, what was
contributed by each capability, how long passes took, and the size of the last
experiment.
-/

namespace ClusterTuning

/-- The ways in which a selection can contribute. -/
inductive Capability where
  | experiment
  | parameter
  | patch
  | metric
  | resource
deriving DecidableEq, Repr

namespace Capability

/-- The name of a capability. -/
def name : Capability → String
  | experiment => "experiment"
  | parameter => "parameter"
  | patch => "patch"
  | metric => "metric"
  | resource => "resource"

/-- All capabilities. -/
def all : List Capability :=
  [experiment, parameter, patch, metric, resource]

end Capability

/-- The size of an experiment. -/
structure ExperimentSize where
  parameters : Nat
  metrics : Nat
  patchTargets : Nat
deriving DecidableEq, Repr, Inhabited

/-- What was counted so far. -/
structure Counters where
  generations : Nat := 0
  failures : Nat := 0
  contributions : Capability → Nat := fun _ => 0
  mergeFallbacks : Nat := 0
  seriesFlushes : Nat := 0
  /-- How long each successful pass took, in seconds. -/
  latencies : List Binary64 := []
  /-- The size of the last experiment, once there is one. -/
  lastSize : Option ExperimentSize := none

namespace Counters

/-- Counts a successful pass that took a number of seconds. -/
def observe (c : Counters) (seconds : Binary64) (size : ExperimentSize) : Counters :=
  { c with generations := c.generations + 1, latencies := c.latencies ++ [seconds],
           lastSize := some size }

/-- Counts a pass that failed. -/
def fail (c : Counters) : Counters :=
  { c with failures := c.failures + 1 }

/-- Counts what a capability contributed. -/
def contribute (c : Counters) (capability : Capability) (count : Nat) : Counters :=
  { c with contributions := fun other =>
      if other = capability then c.contributions other + count else c.contributions other }

/-- Counts a stream that could not be merged. -/
def fallback (c : Counters) : Counters :=
  { c with mergeFallbacks := c.mergeFallbacks + 1 }

/-- Counts a reset of the series of the built-in metrics. -/
def flush (c : Counters) : Counters :=
  { c with seriesFlushes := c.seriesFlushes + 1 }

/-! ## Samples -/

/-- The upper bounds of the latency buckets, in seconds. -/
def bucketBounds : List Binary64 :=
  [.ofDecimal false ⟨5, -4⟩, .ofDecimal false ⟨1, -3⟩, .ofDecimal false ⟨5, -3⟩,
   .ofDecimal false ⟨1, -2⟩, .ofDecimal false ⟨5, -2⟩, .ofDecimal false ⟨1, -1⟩,
   .ofDecimal false ⟨5, -1⟩, .ofInt 1, .ofInt 5]

/-- The number of passes that took at most as long as a bound. -/
def bucket (c : Counters) (bound : Binary64) : Nat :=
  c.latencies.countP fun seconds => seconds.lt bound || seconds.same bound

/-- A name with one label. -/
def labelled (name label value : String) : String :=
  name ++ "\x7b" ++ label ++ "=" ++ Text.quoted value ++ "\x7d"

/-- The counters by name. -/
def totals (c : Counters) : List (String × Nat) :=
  [("experiment_generations_total", c.generations),
    ("experiment_generation_failures_total", c.failures)] ++
    (Capability.all.map fun k =>
      (labelled "experiment_generation_contributions_total" "capability" k.name,
        c.contributions k)) ++
    [("experiment_generation_merge_fallbacks_total", c.mergeFallbacks),
      ("experiment_generation_series_flushes_total", c.seriesFlushes),
      ("experiment_generation_latency_seconds_count", c.latencies.length)]

/-- The cumulative latency buckets by name. -/
def buckets (c : Counters) : List (String × Nat) :=
  (bucketBounds.map fun bound =>
    (labelled "experiment_generation_latency_seconds_bucket" "le"
      (NumberLayout.plain.text bound), c.bucket bound)) ++
    [(labelled "experiment_generation_latency_seconds_bucket" "le" "+Inf", c.latencies.length)]

/-- The size of the last experiment by name. -/
def gauges (c : Counters) : List (String × Nat) :=
  match c.lastSize with
  | some size =>
    [("experiment_generation_parameters", size.parameters),
      ("experiment_generation_metrics", size.metrics),
      ("experiment_generation_patch_targets", size.patchTargets)]
  | none => []

end Counters

end ClusterTuning
