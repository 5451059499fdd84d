import ClusterTuning.Application
import ClusterTuning.Failure
import ClusterTuning.Quantity

/-!
# Metrics for resource requests

An objective with request weights becomes a metric on the matching pods.  Weights
are given in thousandths, memory besides in gigabytes.
-/

namespace ClusterTuning

namespace RequestsObjective

/-- A weight of one thousandth. -/
def scale : Binary64 := .ofInt 1000

/-- The number of bytes that memory is counted in. -/
def memoryScale : Binary64 := .ofInt 1000000000

/-- The weight of a resource as it stands in a query. -/
def weight (resource quantity : String) : Except Failure Binary64 :=
  (Quantity.value quantity).map fun n =>
    let w := (Binary64.ofInt n).div scale
    if resource = "memory" then w.div memoryScale else w

/-- The weights of a query. -/
def weightsText (r : RequestsObjective) : Except Failure String := do
  let weights ← r.weights.entries.mapM fun entry => do
    return entry.1 ++ "=" ++ NumberLayout.plain.text (← weight entry.1 entry.2)
  return ",".intercalate weights

/-- The query for the sum of weighted requests. -/
def query (weights : String) : String :=
  "\x7b\x7b resourceRequests .Target " ++ Text.quoted weights ++ " \x7d\x7d"

end RequestsObjective

/-- The metric for the requests of an objective. -/
def Objective.requestsMetric (o : Objective) (r : RequestsObjective) :
    Except Failure Metric := do
  let weights ← r.weightsText
  let labelSelector ← LabelSelector.read r.metricSelector
  return { o.metric (RequestsObjective.query weights) with
    target := some { apiVersion := "v1", kind := "PodList", labelSelector := some labelSelector } }

/-- The metrics that a scenario adds for the objectives with requests.  Objectives that have their
metric already are left out, and so are all of them if the trial job reports its own metrics. -/
def CustomScenario.metrics (s : CustomScenario) (objectives : List Objective) :
    Except Failure (List Metric) :=
  if s.enablePushGateway then .ok []
  else (objectives.filterMap fun o =>
    if o.implemented then none else o.requests.map fun r => (o, r)).mapM
      fun entry => entry.1.requestsMetric entry.2

end ClusterTuning
