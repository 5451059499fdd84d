import ClusterTuning.Application
import ClusterTuning.Experiment.Document

/-!
# Applications as documents

How the description of an application is written and read.  Its flags and delays
are always written; empty lists and absent parts are left out.
-/

namespace ClusterTuning

open Yaml

/-! ## Scenarios -/

namespace CustomScenario

/-- The value that is written. -/
def toValue (s : CustomScenario) : Value :=
  .record [
    optionalField "podTemplate" PodTemplate.toValue s.podTemplate,
    optionalField "image" .string s.image,
    some ("initialDelaySeconds", .number (.integer s.initialDelaySeconds.toInt)),
    optionalField "approximateRuntime" .string s.approximateRuntime,
    some ("enablePushGateway", .bool s.enablePushGateway)]

/-- Reads a trial job. -/
def read (cluster : ClusterReader) (n : Node) : Except Fault CustomScenario := do
  let fields ← n.record
  return {
    podTemplate := ← Record.get? "podTemplate" cluster.podTemplate fields
    image := ← Record.get? "image" Node.text fields
    initialDelaySeconds := ← Record.getD "initialDelaySeconds" Node.int32 0 fields
    approximateRuntime := ← Record.get? "approximateRuntime" Node.text fields
    enablePushGateway := ← Record.getD "enablePushGateway" Node.flag false fields }

end CustomScenario

namespace Scenario

/-- The value that is written. -/
def toValue (s : Scenario) : Value :=
  .record [
    textField "name" s.name,
    optionalField "custom" CustomScenario.toValue s.custom]

/-- Reads a scenario. -/
def read (cluster : ClusterReader) (n : Node) : Except Fault Scenario := do
  let fields ← n.record
  return {
    name := ← Record.need "name" Node.text fields
    custom := ← Record.get? "custom" (CustomScenario.read cluster) fields }

end Scenario

/-! ## Objectives -/

namespace RequestsObjective

/-- The value that is written. -/
def toValue (r : RequestsObjective) : Value :=
  .record [
    textField "metricSelector" r.metricSelector,
    some ("weights", .mapping (r.weights.entries.map fun w => (.string w.1, .string w.2)))]

/-- Reads weighted requests. -/
def read (n : Node) : Except Fault RequestsObjective := do
  let fields ← n.record
  return {
    metricSelector := ← Record.getD "metricSelector" Node.text "" fields
    weights := ← Record.getD "weights" (Node.dictionary Node.text) .empty fields }

end RequestsObjective

namespace DatadogGoal

/-- The value that is written. -/
def toValue (g : DatadogGoal) : Value :=
  .record [
    textField "query" g.query,
    optionalField "aggregator" .string g.aggregator,
    some ("maximize", .bool g.maximize)]

/-- Reads a query. -/
def read (n : Node) : Except Fault DatadogGoal := do
  let fields ← n.record
  return {
    query := ← Record.need "query" Node.text fields
    aggregator := ← Record.get? "aggregator" Node.text fields
    maximize := ← Record.getD "maximize" Node.flag false fields }

end DatadogGoal

namespace Objective

/-- The value that is written. -/
def toValue (o : Objective) : Value :=
  .record [
    textField "name" o.name,
    some ("max", .bool o.max),
    optionalField "optimize" .bool o.optimize,
    some ("implemented", .bool o.implemented),
    optionalField "requests" RequestsObjective.toValue o.requests,
    optionalField "datadog" DatadogGoal.toValue o.datadog]

/-- Reads an objective. -/
def read (n : Node) : Except Fault Objective := do
  let fields ← n.record
  return {
    name := ← Record.need "name" Node.text fields
    max := ← Record.getD "max" Node.flag false fields
    optimize := ← Record.get? "optimize" Node.flag fields
    implemented := ← Record.getD "implemented" Node.flag false fields
    requests := ← Record.get? "requests" RequestsObjective.read fields
    datadog := ← Record.get? "datadog" DatadogGoal.read fields }

end Objective

/-! ## Applications -/

namespace Application

/-- The value that is written. -/
def toValue (a : Application) : Value :=
  .record [
    textField "apiVersion" a.apiVersion,
    textField "kind" a.kind,
    some ("metadata", a.metadata.toValue),
    listField "resources" .string a.resources,
    listField "scenarios" Scenario.toValue a.scenarios,
    listField "objectives" Objective.toValue a.objectives]

/-- Reads the description of an application. -/
def ofNode (cluster : ClusterReader) (n : Node) : Except Fault Application := do
  let fields ← n.record
  return {
    apiVersion := ← Record.getD "apiVersion" Node.text "" fields
    kind := ← Record.getD "kind" Node.text "" fields
    metadata := ← Record.getD "metadata" cluster.metadata {} fields
    resources := ← Record.getD "resources" (Node.list Node.text) [] fields
    scenarios := ← Record.getD "scenarios" (Node.list (Scenario.read cluster)) [] fields
    objectives := ← Record.getD "objectives" (Node.list Objective.read) [] fields }

/-- Reads the one description in a text. -/
def read (cluster : ClusterReader) (text : String) : Except Failure Application :=
  (Node.read text >>= ofNode cluster).mapError fun _ => .document

end Application

end ClusterTuning
