import ClusterTuning.Application
import ClusterTuning.Text.FormEncoding

/-!
# Metrics of a monitoring service

An objective with a query to the monitoring service becomes a metric of that
service; how values are aggregated is said in the query part of its address.
-/

namespace ClusterTuning

/-- The address of a query, which only says how values are aggregated. -/
def DatadogGoal.url? (g : DatadogGoal) : Option String :=
  (g.aggregator.filter (!·.isEmpty)).map fun a =>
    "?" ++ Text.FormEncoding.encodePair "aggregator" a

/-- The metric for a query of an objective. -/
def Objective.datadogMetric (o : Objective) (g : DatadogGoal) : Metric :=
  { o.metric g.query with kind := some .datadog, minimize := !g.maximize, url := g.url? }

/-- The metrics for the query of an objective, if it has one and is not implemented already. -/
def Objective.datadogMetrics (o : Objective) : List Metric :=
  if o.implemented then [] else (o.datadog.map o.datadogMetric).toList

end ClusterTuning
