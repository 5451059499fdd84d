import ClusterTuning.Experiment

/-!
# Applications

The description of an application: where its resources come from, the scenarios
that put it under load and the objectives to optimize for.
-/

namespace ClusterTuning

/-- A trial job that the user supplies. -/
structure CustomScenario where
  podTemplate : Option PodTemplate := none
  image : Option String := none
  initialDelaySeconds : Int32 := 0
  approximateRuntime : Option String := none
  /-- The trial job reports its own metrics. -/
  enablePushGateway : Bool := false
deriving Repr, Inhabited

/-- A way of putting the application under load. -/
structure Scenario where
  name : String
  custom : Option CustomScenario := none
deriving Repr, Inhabited

/-- Cost as a weighted sum of the resources that pods request. -/
structure RequestsObjective where
  /-- Selects the pods. -/
  metricSelector : String := ""
  /-- A quantity for every resource. -/
  weights : Dictionary String := .empty
deriving DecidableEq, Repr, Inhabited

/-- A query to a monitoring service. -/
structure DatadogGoal where
  query : String
  aggregator : Option String := none
  maximize : Bool := false
deriving DecidableEq, Repr, Inhabited

/-- Something to optimize for. -/
structure Objective where
  name : String
  /-- Larger values are better. -/
  max : Bool := false
  optimize : Option Bool := none
  /-- The metric is there already. -/
  implemented : Bool := false
  requests : Option RequestsObjective := none
  datadog : Option DatadogGoal := none
deriving DecidableEq, Repr, Inhabited

/-- The metric for an objective, with a query to measure it. -/
def Objective.metric (o : Objective) (query : String) : Metric :=
  { name := o.name, minimize := !o.max, optimize := o.optimize, query }

/-- The description of an application. -/
structure Application where
  apiVersion : String := ""
  kind : String := ""
  metadata : ObjectMeta := {}
  resources : List String := []
  scenarios : List Scenario := []
  objectives : List Objective := []
deriving Repr, Inhabited

/-- The name of an application, if it has one. -/
def Application.name? (a : Application) : Option String :=
  a.metadata.name.filter (!·.isEmpty)

end ClusterTuning
