import ClusterTuning.Experiment
import ClusterTuning.Yaml.Record

/-!
# Experiments as documents

How an experiment and its parts are written and read.  Empty lists, zero
numbers, false flags and absent parts are left out; an experiment without a trial
of its own has no trial template.  The objects of the cluster in an experiment are
read by a reader of their own.
-/

namespace ClusterTuning

open Yaml

/-! ## Writing parts -/

/-- A field that is left out where its list is empty. -/
def listField {α : Type} (name : String) (write : α → Value) (items : List α) :
    Option (String × Value) :=
  if items.isEmpty then none else some (name, .sequence (items.map write))

/-- A field that is left out where it has no value. -/
def optionalField {α : Type} (name : String) (write : α → Value) (value : Option α) :
    Option (String × Value) :=
  value.map fun v => (name, write v)

/-- A field that is left out where it is zero. -/
def amountField (name : String) (n : Int32) : Option (String × Value) :=
  if n = 0 then none else some (name, .number (.integer n.toInt))

/-- A field that holds a text. -/
def textField (name text : String) : Option (String × Value) :=
  some (name, .string text)

/-! ## References and selectors -/

namespace Reference

/-- The value that is written. -/
def toValue (r : Reference) : Value :=
  .record [
    textField "apiVersion" r.apiVersion,
    textField "kind" r.kind,
    if r.namespace.isEmpty then none else textField "namespace" r.namespace,
    textField "name" r.name]

/-- Reads a reference. -/
def read (n : Node) : Except Fault Reference := do
  let fields ← n.record
  return {
    apiVersion := ← Record.need "apiVersion" Node.text fields
    kind := ← Record.need "kind" Node.text fields
    «namespace» := ← Record.getD "namespace" Node.text "" fields
    name := ← Record.need "name" Node.text fields }

end Reference

namespace SelectorRequirement

/-- The value that is written. -/
def toValue (r : SelectorRequirement) : Value :=
  .record [
    textField "key" r.key,
    textField "operator" r.operator,
    optionalField "values" (fun vs => .sequence (vs.map .string)) r.values]

/-- Reads a requirement. -/
def read (n : Node) : Except Fault SelectorRequirement := do
  let fields ← n.record
  return {
    key := (← Record.last? "key" Node.text fields).getD ""
    operator := (← Record.last? "operator" Node.text fields).getD ""
    values := ← Record.last? "values" (Node.list Node.text) fields }

end SelectorRequirement

namespace LabelSelector

/-- The value that is written. -/
def toValue (s : LabelSelector) : Value :=
  .record [
    optionalField "matchExpressions"
      (fun rs => .sequence (rs.map SelectorRequirement.toValue)) s.matchExpressions,
    optionalField "matchLabels"
      (fun ls => .mapping (ls.entries.map fun l => (.string l.1, .string l.2))) s.matchLabels]

/-- Reads a selector in its structured form. -/
def ofNode (n : Node) : Except Fault LabelSelector := do
  let fields ← n.record
  return {
    matchExpressions := ←
      Record.last? "matchExpressions" (Node.list SelectorRequirement.read) fields
    matchLabels := ← Record.last? "matchLabels" (Node.dictionary Node.text) fields }

end LabelSelector

/-! ## Parameters and metrics -/

/-- The name of an alternative: a text, or the tag of an empty scalar. -/
def Yaml.Node.alternative {α : Type} (ofName? : String → Option α) (n : Node) : Except Fault α :=
  let name : Option String := match n with
    | .scalar (some (.named tag)) style s =>
      if style = .plain ∧ (s.isEmpty ∨ Scalar.isNullWord s.toList) then some tag else none
    | .scalar _ _ s => some s
    | _ => none
  Node.orFault .kind (name.bind ofName?)

namespace Optimization

/-- The value that is written. -/
def toValue (o : Optimization) : Value :=
  .record [textField "name" o.name, textField "value" o.value]

/-- Reads a directive. -/
def read (n : Node) : Except Fault Optimization := do
  let fields ← n.record
  return {
    name := ← Record.need "name" Node.text fields
    value := ← Record.need "value" Node.text fields }

end Optimization

namespace Parameter

/-- The value that is written. -/
def toValue (p : Parameter) : Value :=
  .record [
    textField "name" p.name,
    amountField "min" p.min,
    amountField "max" p.max,
    optionalField "baseline" IntOrText.toValue p.baseline,
    listField "values" .string p.values]

/-- Reads a parameter. -/
def read (n : Node) : Except Fault Parameter := do
  let fields ← n.record
  return {
    name := ← Record.need "name" Node.text fields
    min := ← Record.getD "min" Node.int32 0 fields
    max := ← Record.getD "max" Node.int32 0 fields
    baseline := ← Record.get? "baseline" IntOrText.read fields
    values := ← Record.getD "values" (Node.list Node.text) [] fields }

end Parameter

namespace MetricTarget

/-- The value that is written. -/
def toValue (t : MetricTarget) : Value :=
  .record [
    textField "apiVersion" t.apiVersion,
    textField "kind" t.kind,
    optionalField "labelSelector" LabelSelector.toValue t.labelSelector]

/-- Reads the target of a query. -/
def read (n : Node) : Except Fault MetricTarget := do
  let fields ← n.record
  return {
    apiVersion := ← Record.need "apiVersion" Node.text fields
    kind := ← Record.need "kind" Node.text fields
    labelSelector := ← Record.get? "labelSelector" LabelSelector.ofNode fields }

end MetricTarget

namespace Metric

/-- The value that is written. -/
def toValue (m : Metric) : Value :=
  .record [
    textField "name" m.name,
    if m.minimize then some ("minimize", .bool true) else none,
    optionalField "optimize" .bool m.optimize,
    optionalField "type" (fun k => .string k.name) m.kind,
    textField "query" m.query,
    optionalField "url" .string m.url,
    optionalField "target" MetricTarget.toValue m.target]

/-- Reads a metric. -/
def read (n : Node) : Except Fault Metric := do
  let fields ← n.record
  return {
    name := ← Record.need "name" Node.text fields
    minimize := ← Record.getD "minimize" Node.flag false fields
    optimize := ← Record.get? "optimize" Node.flag fields
    kind := ← Record.get? "type" (Node.alternative MetricKind.ofName?) fields
    query := ← Record.need "query" Node.text fields
    url := ← Record.get? "url" Node.text fields
    target := ← Record.get? "target" MetricTarget.read fields }

end Metric

/-! ## Patches and trials -/

namespace PatchTemplate

/-- The value that is written. -/
def toValue (p : PatchTemplate) : Value :=
  .record [
    optionalField "type" (fun s => .string s.name) p.strategy,
    textField "patch" p.patch,
    optionalField "targetRef" Reference.toValue p.target]

/-- Reads a patch. -/
def read (n : Node) : Except Fault PatchTemplate := do
  let fields ← n.record
  return {
    strategy := ← Record.get? "type" (Node.alternative PatchStrategy.ofName?) fields
    patch := ← Record.need "patch" Node.text fields
    target := ← Record.get? "targetRef" Reference.read fields }

end PatchTemplate

namespace TrialSpec

/-- Whether nothing is said about the trials. -/
def isDefault (t : TrialSpec) : Bool :=
  t.jobTemplate.isNone && t.initialDelaySeconds == 0 && t.approximateRuntime.isNone

/-- The value that is written. -/
def toValue (t : TrialSpec) : Value :=
  .record [
    optionalField "jobTemplate" JobTemplate.toValue t.jobTemplate,
    amountField "initialDelaySeconds" t.initialDelaySeconds,
    optionalField "approximateRuntime" .string t.approximateRuntime]

/-- Reads how trials are run. -/
def read (cluster : ClusterReader) (n : Node) : Except Fault TrialSpec := do
  let fields ← n.record
  return {
    jobTemplate := ← Record.get? "jobTemplate" cluster.jobTemplate fields
    initialDelaySeconds := ← Record.getD "initialDelaySeconds" Node.int32 0 fields
    approximateRuntime := ← Record.get? "approximateRuntime" Node.text fields }

/-- Reads the template of the trials. -/
def readTemplate (cluster : ClusterReader) (n : Node) : Except Fault TrialSpec := do
  Record.getD "spec" (read cluster) {} (← n.record)

end TrialSpec

/-! ## Experiments -/

namespace Experiment

/-- The specification, as it is written. -/
def specValue (e : Experiment) : Value :=
  .record [
    listField "optimization" Optimization.toValue e.optimization,
    listField "parameters" Parameter.toValue e.parameters,
    listField "metrics" Metric.toValue e.metrics,
    listField "patches" PatchTemplate.toValue e.patches,
    if e.trial.isDefault then none
      else some ("trialTemplate", .record [some ("spec", e.trial.toValue)])]

/-- The value that is written. -/
def toValue (e : Experiment) : Value :=
  .record [
    textField "apiVersion" e.apiVersion,
    textField "kind" e.kind,
    some ("metadata", e.metadata.toValue),
    some ("spec", e.specValue)]

/-- Adds what the specification says to an experiment. -/
def readSpec (cluster : ClusterReader) (e : Experiment) (n : Node) : Except Fault Experiment := do
  let fields ← n.record
  return { e with
    optimization := ← Record.getD "optimization" (Node.list Optimization.read) [] fields
    parameters := ← Record.getD "parameters" (Node.list Parameter.read) [] fields
    metrics := ← Record.getD "metrics" (Node.list Metric.read) [] fields
    patches := ← Record.getD "patches" (Node.list PatchTemplate.read) [] fields
    trial := ← Record.getD "trialTemplate" (TrialSpec.readTemplate cluster) {} fields }

/-- Reads an experiment. -/
def ofNode (cluster : ClusterReader) (n : Node) : Except Fault Experiment := do
  let fields ← n.record
  let e : Experiment := {
    apiVersion := ← Record.need "apiVersion" Node.text fields
    kind := ← Record.need "kind" Node.text fields
    metadata := ← Record.getD "metadata" cluster.metadata {} fields }
  Record.getD "spec" (readSpec cluster e) e fields

/-- Reads the one experiment in a text. -/
def read (cluster : ClusterReader) (text : String) : Except Failure Experiment :=
  (Node.read text >>= ofNode cluster).mapError fun _ => .document

end Experiment

end ClusterTuning
