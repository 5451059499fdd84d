import ClusterTuning.Application.Document
import ClusterTuning.Proofs.Experiment.Document

/-!
# Applications are read back

The flags and delays of an application are always written, its lists and optional
parts only where there is something in them.  Together with the laws for experiments,
reading undoes writing for everything that the generation reads and writes.

* `Application.readsBack` — an application, if the objects of the cluster in it read back;
* `ofNode_toValue` — experiments and applications.
-/

namespace ClusterTuning

open Yaml Record

/-! ## Scenarios -/

section
variable {cluster : ClusterReader}

theorem CustomScenario.readsBack {s : CustomScenario}
    (h : ∀ pod, s.podTemplate = some pod → ReadsBack PodTemplate.toValue cluster.podTemplate pod) :
    ReadsBack toValue (read cluster) s := by
  rw [ReadsBack, toValue, read, record_toNode, ok_bind]
  simp only [optionalField_eq, some_field_eq]
  refine bind_eq_ok_iff.2
    ⟨s.podTemplate, get?_eq (by simp) h fun _ => Value.isPresent_record _, ?_⟩
  refine bind_eq_ok_iff.2 ⟨s.image, get?_text (by simp), ?_⟩
  refine bind_eq_ok_iff.2
    ⟨s.initialDelaySeconds, getD_some_eq (by simp) (Node.readsBack_int32 _), ?_⟩
  refine bind_eq_ok_iff.2 ⟨s.approximateRuntime, get?_text (by simp), ?_⟩
  exact bind_eq_ok_iff.2 ⟨s.enablePushGateway, getD_flag (by simp), rfl⟩

theorem Scenario.readsBack {s : Scenario}
    (h : ∀ custom, s.custom = some custom → ∀ pod, custom.podTemplate = some pod →
      ReadsBack PodTemplate.toValue cluster.podTemplate pod) :
    ReadsBack toValue (read cluster) s := by
  rw [ReadsBack, toValue, read, record_toNode, ok_bind]
  simp only [textField_eq, optionalField_eq]
  refine bind_eq_ok_iff.2 ⟨s.name, need_text (by simp), ?_⟩
  exact bind_eq_ok_iff.2
    ⟨s.custom, get?_eq (by simp) (fun custom hcustom => CustomScenario.readsBack (h custom hcustom))
      fun _ => Value.isPresent_record _, rfl⟩

end

/-! ## Objectives -/

theorem RequestsObjective.readsBack (r : RequestsObjective) : ReadsBack toValue read r := by
  rw [ReadsBack, toValue, read, record_toNode, ok_bind]
  simp only [textField_eq, some_field_eq]
  refine bind_eq_ok_iff.2 ⟨r.metricSelector, getD_text (by simp), ?_⟩
  exact bind_eq_ok_iff.2
    ⟨r.weights, getD_some_eq (by simp) (Node.readsBack_dictionary fun w _ =>
      Node.readsBack_text w.2), rfl⟩

theorem DatadogGoal.readsBack (g : DatadogGoal) : ReadsBack toValue read g := by
  rw [ReadsBack, toValue, read, record_toNode, ok_bind]
  simp only [textField_eq, optionalField_eq, some_field_eq]
  refine bind_eq_ok_iff.2 ⟨g.query, need_text (by simp), ?_⟩
  refine bind_eq_ok_iff.2 ⟨g.aggregator, get?_text (by simp), ?_⟩
  exact bind_eq_ok_iff.2 ⟨g.maximize, getD_flag (by simp), rfl⟩

theorem Objective.readsBack (o : Objective) : ReadsBack toValue read o := by
  rw [ReadsBack, toValue, read, record_toNode, ok_bind]
  simp only [textField_eq, optionalField_eq, some_field_eq]
  refine bind_eq_ok_iff.2 ⟨o.name, need_text (by simp), ?_⟩
  refine bind_eq_ok_iff.2 ⟨o.max, getD_flag (by simp), ?_⟩
  refine bind_eq_ok_iff.2 ⟨o.optimize, get?_flag (by simp), ?_⟩
  refine bind_eq_ok_iff.2 ⟨o.implemented, getD_flag (by simp), ?_⟩
  refine bind_eq_ok_iff.2
    ⟨o.requests, get?_eq (by simp) (fun r _ => r.readsBack) fun _ => Value.isPresent_record _, ?_⟩
  exact bind_eq_ok_iff.2
    ⟨o.datadog, get?_eq (by simp) (fun g _ => g.readsBack) fun _ => Value.isPresent_record _, rfl⟩

/-! ## Applications -/

namespace Application

/-- The reader of cluster objects reads back the metadata of an application and the pods of its
scenarios. -/
structure ClusterPartsReadBack (cluster : ClusterReader) (a : Application) : Prop where
  metadata : ReadsBack ObjectMeta.toValue cluster.metadata a.metadata
  pods : ∀ s ∈ a.scenarios, ∀ custom, s.custom = some custom →
    ∀ pod, custom.podTemplate = some pod → ReadsBack PodTemplate.toValue cluster.podTemplate pod

theorem readsBack {cluster : ClusterReader} {a : Application} (h : a.ClusterPartsReadBack cluster) :
    ReadsBack toValue (ofNode cluster) a := by
  rw [ReadsBack, toValue, ofNode, record_toNode, ok_bind]
  simp only [textField_eq, some_field_eq, listField_eq]
  refine bind_eq_ok_iff.2 ⟨a.apiVersion, getD_text (by simp), ?_⟩
  refine bind_eq_ok_iff.2 ⟨a.kind, getD_text (by simp), ?_⟩
  refine bind_eq_ok_iff.2 ⟨a.metadata, getD_some_eq (by simp) h.metadata, ?_⟩
  refine bind_eq_ok_iff.2
    ⟨a.resources, getD_list (by simp) fun s _ => Node.readsBack_text s, ?_⟩
  refine bind_eq_ok_iff.2
    ⟨a.scenarios, getD_list (by simp) fun s hs => Scenario.readsBack (h.pods s hs), ?_⟩
  exact bind_eq_ok_iff.2 ⟨a.objectives, getD_list (by simp) fun o _ => o.readsBack, rfl⟩

end Application

/-! ## Both -/

/-- Reading undoes writing: every experiment and every application is what is read from the value
that is written of it, whatever reads the objects of the cluster, as long as it reads back those that
are in it. -/
theorem ofNode_toNode_toValue (cluster : ClusterReader) :
    (∀ e : Experiment, e.ClusterPartsReadBack cluster →
        Experiment.ofNode cluster e.toValue.toNode = .ok e) ∧
      ∀ a : Application, a.ClusterPartsReadBack cluster →
        Application.ofNode cluster a.toValue.toNode = .ok a :=
  ⟨fun _ h => Experiment.readsBack h, fun _ h => Application.readsBack h⟩

/-! ## A reader that keeps everything -/

namespace KeepingReader

/-- The fields beside those of the given names, as they are written. -/
def details (names : List String) (nodes : List (String × Node)) : Except Fault Fields :=
  (nodes.filter fun field => !names.contains field.1).mapM fun field => do
    return (field.1, ← field.2.toValue)

/-- Reads metadata. -/
def metadata (n : Node) : Except Fault ObjectMeta := do
  let nodes ← n.record
  return { name := ← last? "name" Node.text nodes, details := ← details ["name"] nodes }

/-- Reads a container. -/
def container (n : Node) : Except Fault Container := do
  let nodes ← n.record
  return {
    name := (← last? "name" Node.text nodes).getD ""
    image := ← last? "image" Node.text nodes
    details := ← details ["name", "image"] nodes }

/-- Reads the specification of a pod. -/
def podSpec (n : Node) : Except Fault PodSpec := do
  let nodes ← n.record
  return {
    containers := (← last? "containers" (Node.list container) nodes).getD []
    details := ← details ["containers"] nodes }

/-- Reads what the pods of a job look like. -/
def podTemplate (n : Node) : Except Fault PodTemplate := do
  let nodes ← n.record
  return { metadata := ← last? "metadata" metadata nodes, spec := ← last? "spec" podSpec nodes }

/-- Reads the specification of a job. -/
def jobSpec (n : Node) : Except Fault JobSpec := do
  let nodes ← n.record
  return {
    template := (← last? "template" podTemplate nodes).getD {}
    details := ← details ["template"] nodes }

/-- Reads what the jobs of an experiment look like. -/
def jobTemplate (n : Node) : Except Fault JobTemplate := do
  let nodes ← n.record
  return { metadata := ← last? "metadata" metadata nodes, spec := ← last? "spec" jobSpec nodes }

end KeepingReader

/-- The reader of cluster objects that keeps every field as it is written, whether a cluster knows it
or not. -/
def keepingReader : ClusterReader where
  metadata := KeepingReader.metadata
  podTemplate := KeepingReader.podTemplate
  jobTemplate := KeepingReader.jobTemplate

/-- An experiment with a job, which leaves out most of what it could say. -/
def sparseExperiment : Experiment :=
  { Experiment.new with
    metadata := {
      name := some "web"
      details := [("labels", Fields.toValue [("app", .string "web")])] }
    parameters := [{ name := "cpu", max := 4000, baseline := some (.int 500) }]
    metrics := [{ name := "cost", query := "", kind := some .jsonPath, optimize := some false }]
    patches := [{ patch := "", target := some ⟨"apps/v1", "Deployment", "", "web"⟩ }]
    trial := { jobTemplate := some { spec := some {
      template := { spec := some {
        containers := [{
          name := "load"
          details := [("securityContext", Fields.toValue [("privileged", .bool true)])] }]
        details := [("affinity", Fields.toValue [("podAffinity", Fields.toValue [])])] } }
      details := [("backoffLimit", .number (.integer 0))] } } } }

/-- An application with a trial job of its own. -/
def sparseApplication : Application :=
  { scenarios := [{ name := "load", custom := some { podTemplate := some { metadata := some {} } } }]
    objectives := [{ name := "cost", requests := some { weights := .ofList [("cpu", "17")] } }] }

theorem ofNode_toNode_toValue_sparse :
    sparseExperiment.ClusterPartsReadBack keepingReader ∧
      sparseApplication.ClusterPartsReadBack keepingReader ∧
      Experiment.ofNode keepingReader sparseExperiment.toValue.toNode = .ok sparseExperiment ∧
      Application.ofNode keepingReader sparseApplication.toValue.toNode = .ok sparseApplication := by
  have he : sparseExperiment.ClusterPartsReadBack keepingReader :=
    { metadata := rfl, job := fun _ h => Option.some.inj h ▸ rfl }
  have ha : sparseApplication.ClusterPartsReadBack keepingReader := by
    refine { metadata := rfl, pods := fun s hs custom hcustom pod hpod => ?_ }
    rw [List.mem_singleton.1 hs] at hcustom
    rw [← Option.some.inj hcustom] at hpod
    rw [← Option.some.inj hpod]
    rfl
  exact ⟨he, ha, (ofNode_toNode_toValue keepingReader).1 _ he,
    (ofNode_toNode_toValue keepingReader).2 _ ha⟩

end ClusterTuning
