import ClusterTuning.Metric.BuiltIn
import ClusterTuning.Objective.Datadog
import ClusterTuning.Objective.Requests
import ClusterTuning.Selection
import ClusterTuning.Trial.Scenario

/-!
# What an application contributes

Custom scenarios change the trial and add request metrics, objectives with a
query to the monitoring service add its metrics, and the built-in metrics come
last.
-/

namespace ClusterTuning

/-- The contribution of a custom scenario, for the objectives of its application. -/
def CustomScenario.selection (s : CustomScenario) (objectives : List Objective) : Selection :=
  { experiment := some fun e => .ok (s.apply e),
    metrics := some (s.metrics objectives) }

/-- The contribution of an objective with a query to the monitoring service, or of none. -/
def Objective.datadogSelection (o : Option Objective) : Selection :=
  { metrics := some (.ok ((o.map (·.datadogMetrics)).getD [])) }

/-- The contribution of the built-in metrics. -/
def Metric.BuiltIn.selection : Selection :=
  { metrics := some (.ok Metric.BuiltIn.all) }

/-- What an application contributes to its experiment. -/
def Application.selections (a : Application) (builtIn : Bool) : List Selection :=
  (a.scenarios.filterMap (·.custom)).map (·.selection a.objectives) ++
    (a.objectives.filter (·.datadog.isSome)).map (fun o => Objective.datadogSelection (some o)) ++
    (if builtIn then [Metric.BuiltIn.selection] else [])

end ClusterTuning
