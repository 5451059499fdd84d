import ClusterTuning.Kubernetes.IntOrText
import ClusterTuning.Kubernetes.TrialJob
import ClusterTuning.Patch
import ClusterTuning.Selector

/-!
# Experiments

An experiment tunes the parameters of an application: every trial sets them by
patches, runs a job and measures metrics.
-/

namespace ClusterTuning

/-! ## Parts -/

/-- A directive that is passed on to the optimizer. -/
structure Optimization where
  name : String
  value : String
deriving DecidableEq, Repr, Inhabited

/-- A value that the trials vary: between two bounds or among given texts. -/
structure Parameter where
  name : String
  min : Int32 := 0
  max : Int32 := 0
  baseline : Option IntOrText := none
  values : List String := []
deriving DecidableEq, Repr, Inhabited

/-- Where the value of a metric comes from. -/
inductive MetricKind where
  | kubernetes
  | prometheus
  | datadog
  | jsonPath
  | builtIn
deriving DecidableEq, Repr

namespace MetricKind

/-- The name of a kind. -/
def name : MetricKind → String
  | kubernetes => "kubernetes"
  | prometheus => "prometheus"
  | datadog => "datadog"
  | jsonPath => "jsonpath"
  | builtIn => "builtin"

/-- The kind with a given name. -/
def ofName? (name : String) : Option MetricKind :=
  [kubernetes, prometheus, datadog, jsonPath, builtIn].find? (·.name == name)

end MetricKind

/-- The cluster objects that a query is evaluated against. -/
structure MetricTarget where
  apiVersion : String
  kind : String
  labelSelector : Option LabelSelector := none
deriving DecidableEq, Repr, Inhabited

/-- What is measured in every trial. -/
structure Metric where
  name : String
  minimize : Bool := false
  optimize : Option Bool := none
  kind : Option MetricKind := none
  query : String
  url : Option String := none
  target : Option MetricTarget := none
deriving DecidableEq, Repr, Inhabited

/-- How a trial is run. -/
structure TrialSpec where
  jobTemplate : Option JobTemplate := none
  /-- Seconds between the patches and the start of the job. -/
  initialDelaySeconds : Int32 := 0
  /-- How long a trial is expected to run. -/
  approximateRuntime : Option String := none
deriving Repr, Inhabited

/-! ## The experiment -/

/-- An experiment. -/
structure Experiment where
  apiVersion : String
  kind : String
  metadata : ObjectMeta := {}
  optimization : List Optimization := []
  parameters : List Parameter := []
  metrics : List Metric := []
  patches : List PatchTemplate := []
  trial : TrialSpec := {}
deriving Repr, Inhabited

namespace Experiment

/-- The experiment that a generation starts from. -/
def new : Experiment :=
  { apiVersion := "redskyops.dev/v1beta1", kind := "Experiment" }

/-- The name of an experiment; it is empty while none is given. -/
def name (e : Experiment) : String :=
  e.metadata.name.getD ""

/-- The experiment under another name. -/
def withName (name : String) (e : Experiment) : Experiment :=
  { e with metadata := { e.metadata with name := some name } }

/-- Changes the pod of the trial job; the job is made if there is none. -/
def modifyTrialPod (change : PodTemplate → PodTemplate) (e : Experiment) : Experiment :=
  let job := e.trial.jobTemplate.getD {}
  let spec := job.spec.getD {}
  { e with trial := { e.trial with
      jobTemplate := some { job with spec := some { spec with template := change spec.template } } } }

end Experiment

end ClusterTuning
