import ClusterTuning.Application.Selections
import ClusterTuning.Proofs.Generation.Rearranging

/-!
# What an application is measured by

An application contributes metrics only: scenarios change the trial, but neither
parameters nor patches come from them.  A metric for requests is read from texts,
the weights and a selector, and these texts alone can make the generation fail.
They are read for an objective that has no metric yet, and only if there is a
scenario whose trial job does not report metrics itself.

* `Generation.exists_generate_iff` — when selections that contribute metrics only
  give an experiment;
* `Application.fails_or_measures` — the metrics of an application, or its failure.
-/

namespace ClusterTuning

/-! ## Selections that contribute metrics only -/

/-- A selection contributes metrics, and changes the experiment in other respects at most. -/
structure Selection.OnlyMeasures (s : Selection) : Prop where
  parameters : s.parameters = none
  patch : s.patch = none
  documents : s.documents = none
  leavesLists : s.LeavesLists
  alwaysUpdates : s.AlwaysUpdates

namespace Selection

variable {s : Selection} {ss ts : List Selection} {namer : Namer}

theorem OnlyMeasures.parameterList_eq (h : s.OnlyMeasures) : s.parameterList namer = .ok [] := by
  rw [parameterList, h.parameters]

theorem OnlyMeasures.editList_eq (h : s.OnlyMeasures) : s.editList namer = .ok [] := by
  rw [editList, h.patch]

theorem OnlyMeasures.documentList_eq (h : s.OnlyMeasures) : s.documentList = .ok [] := by
  rw [documentList, h.documents]
  rfl

/-- It fails in no respect exactly if its metrics do not. -/
theorem OnlyMeasures.contributes_iff (h : s.OnlyMeasures) :
    s.Contributes namer ↔ ∃ ms, s.metricList = .ok ms :=
  ⟨fun hs => hs.metrics,
    fun hms => ⟨⟨[], h.parameterList_eq⟩, ⟨[], h.editList_eq⟩, hms, ⟨[], h.documentList_eq⟩⟩⟩

theorem not_disagree_of_onlyMeasures (hs : ∀ s ∈ ss, s.OnlyMeasures) : ¬ Disagree ss := by
  rintro ⟨s, hmem, -, -, r, a, -, hstrategy, -⟩
  rw [strategyAt, (hs s hmem).patch] at hstrategy
  exact nomatch hstrategy

/-- Nothing comes together where nothing is contributed. -/
theorem eq_nil_of_gather {α : Type} {contribution : Selection → Except Failure (List α)}
    {xs : List α} (hss : ∀ s ∈ ss, contribution s = .ok [])
    (h : gather contribution ss = .ok xs) : xs = [] := by
  obtain ⟨-, rfl⟩ := gather_eq_ok_iff.1 h
  rw [List.flatMap_eq_nil_iff]
  exact fun s hs => share_of_ok (hss s hs)

theorem gather_append {α : Type} {contribution : Selection → Except Failure (List α)}
    {xs : List α} :
    gather contribution (ss ++ ts) = .ok xs ↔ ∃ ys zs, gather contribution ss = .ok ys ∧
      gather contribution ts = .ok zs ∧ ys ++ zs = xs := by
  simp only [gather_eq_ok_iff, List.forall_mem_append, List.flatMap_append]
  constructor
  · rintro ⟨⟨hss, hts⟩, rfl⟩
    exact ⟨_, _, ⟨hss, rfl⟩, ⟨hts, rfl⟩, rfl⟩
  · rintro ⟨_, _, ⟨hss, rfl⟩, ⟨hts, rfl⟩, rfl⟩
    exact ⟨⟨hss, hts⟩, rfl⟩

end Selection

namespace Generation

open Selection

variable {ss : List Selection} {g : Generator} {seconds : Binary64} {counters : Counters}
  {generation : Generation}

/-- **When selections that contribute metrics only give an experiment**: exactly if no metric
fails. -/
theorem exists_generate_iff (hs : ∀ s ∈ ss, s.OnlyMeasures) :
    (∃ generation, ((g.generate seconds ss).run counters).1 = .ok generation) ↔
      ∀ s ∈ ss, ∃ ms, s.metricList = .ok ms := by
  have hleaves : ∀ s ∈ ss, s.LeavesLists ∧ s.AlwaysUpdates :=
    fun s h => ⟨(hs s h).leavesLists, (hs s h).alwaysUpdates⟩
  have hpass : (∃ c, ss.foldlM (absorb (Namer.ofSelections ss)) {} = .ok c) ↔
      ∀ s ∈ ss, ∃ ms, s.metricList = .ok ms := by
    rw [exists_foldlM_iff hleaves, and_iff_left (not_disagree_of_onlyMeasures hs)]
    exact forall₂_congr fun s h => (hs s h).contributes_iff
  rw [← hpass]
  constructor
  · rintro ⟨generation, h⟩
    obtain ⟨c, hfold, -⟩ := Generator.generate_eq_ok_iff.1 h
    exact ⟨c, hfold⟩
  · rintro ⟨c, hfold⟩
    -- there are no edits, so there is no patch whose text could not be made
    obtain ⟨es, hes, hholds⟩ := (reached_foldlM hfold).edits
    obtain rfl := eq_nil_of_gather (fun s h => (hs s h).editList_eq) hes
    have hempty : c.patches = {} := hholds.eq_of_forTarget PatchSet.holds_nil fun _ => rfl
    have hrender : ∃ ps, c.patches.render = .ok ps := ⟨[], by rw [hempty]; rfl⟩
    obtain ⟨generation, hfinish⟩ : ∃ generation, finish g.defaultName c = .ok generation :=
      exists_finish_iff.2 hrender
    exact ⟨generation, Generator.generate_eq_ok_iff.2 ⟨c, hfold, hfinish⟩⟩

/-- What such an experiment consists of. -/
theorem experiment_of_onlyMeasures (hs : ∀ s ∈ ss, s.OnlyMeasures)
    (h : ((g.generate seconds ss).run counters).1 = .ok generation) :
    generation.experiment.parameters = [] ∧ generation.experiment.patches = [] ∧
      gather metricList ss = .ok generation.experiment.metrics := by
  obtain ⟨c, hfold, hfinish⟩ := Generator.generate_eq_ok_iff.1 h
  have hgrouping :=
    (gathered_foldlM (fun s hmem => (hs s hmem).leavesLists) hfold).isGrouping hfinish
  refine ⟨eq_nil_of_gather (fun s h => (hs s h).parameterList_eq) hgrouping.parameters, ?_,
    hgrouping.metrics⟩
  obtain ⟨es, hes, hpatches⟩ := hgrouping.patches
  obtain rfl := eq_nil_of_gather (fun s h => (hs s h).editList_eq) hes
  refine List.eq_nil_iff_forall_not_mem.2 fun p hp => ?_
  obtain ⟨r, hr⟩ := hpatches.targeted p hp
  obtain ⟨e, he, -⟩ := (hpatches.target_iff r).1 ⟨p, hp, hr⟩
  exact absurd he List.not_mem_nil

end Generation

/-! ## Metrics on requests -/

/-- A weight of the objective is no quantity, or what selects its pods is no selector. -/
def RequestsObjective.Unreadable (r : RequestsObjective) : Prop :=
  (∃ entry ∈ r.weights.entries, Quantity.read? entry.2.toList = none) ∨
    ∃ fault, Selector.parse r.metricSelector = .error fault

namespace RequestsObjective

theorem exists_weight_iff {resource quantity : String} :
    (∃ w, weight resource quantity = .ok w) ↔ Quantity.read? quantity.toList ≠ none := by
  rw [weight, exists_map_eq_ok_iff, Quantity.value, exists_map_eq_ok_iff, Quantity.parse]
  cases Quantity.read? quantity.toList with
  | none => simp
  | some x => simp

theorem exists_weightsText_iff {r : RequestsObjective} :
    (∃ text, r.weightsText = .ok text) ↔
      ∀ entry ∈ r.weights.entries, Quantity.read? entry.2.toList ≠ none := by
  refine exists_bind_ok_iff.trans ?_
  simp only [mapM_eq_ok_iff, exists_forall₂_iff]
  exact forall₂_congr fun entry _ => exists_bind_ok_iff.trans exists_weight_iff

end RequestsObjective

/-- An objective can be measured exactly if what it is read from is readable. -/
theorem Objective.exists_requestsMetric_iff {o : Objective} {r : RequestsObjective} :
    (∃ m, o.requestsMetric r = .ok m) ↔ ¬ r.Unreadable := by
  have hselector : (∃ selector, LabelSelector.read r.metricSelector = .ok selector) ↔
      ¬ ∃ fault, Selector.parse r.metricSelector = .error fault := by
    simp only [LabelSelector.read, mapError_eq_ok_iff]
    cases Selector.parse r.metricSelector <;> simp
  rw [RequestsObjective.Unreadable, not_or, ← hselector, not_exists]
  simp only [not_and]
  rw [← RequestsObjective.exists_weightsText_iff]
  constructor
  · rintro ⟨m, h⟩
    obtain ⟨text, htext, h⟩ := bind_eq_ok_iff.1 h
    obtain ⟨selector, hselector, -⟩ := bind_eq_ok_iff.1 h
    exact ⟨⟨text, htext⟩, selector, hselector⟩
  · rintro ⟨⟨text, htext⟩, selector, hselector⟩
    exact ⟨_, bind_eq_ok_iff.2 ⟨text, htext, bind_eq_ok_iff.2 ⟨selector, hselector, rfl⟩⟩⟩

/-! ## Applications -/

namespace Application

variable {a : Application} {builtIn : Bool}

/-- The objectives to be measured by requests: those with weights that have no metric yet. -/
def requested (a : Application) : List (Objective × RequestsObjective) :=
  (a.objectives.filter (!·.implemented)).filterMap fun o => o.requests.map fun r => (o, r)

/-- The custom scenarios whose trial job does not report metrics itself. -/
def measured (a : Application) : List CustomScenario :=
  (a.scenarios.filterMap (·.custom)).filter (!·.enablePushGateway)

/-- The metrics of the monitoring service, one for each objective with a query to it that has no
metric yet. -/
def monitored (a : Application) : List Metric :=
  (a.objectives.filter (!·.implemented)).filterMap fun o => o.datadog.map o.datadogMetric

/-- There is something to read in the application that cannot be read. -/
def Unreadable (a : Application) : Prop :=
  ∃ scenario ∈ a.scenarios, ∃ custom, scenario.custom = some custom ∧
    custom.enablePushGateway = false ∧
      ∃ o ∈ a.objectives, o.implemented = false ∧ ∃ r, o.requests = some r ∧ r.Unreadable

theorem onlyMeasures_of_mem_selections {s : Selection} (hs : s ∈ a.selections builtIn) :
    s.OnlyMeasures := by
  have hnone : ∀ metrics, Selection.OnlyMeasures { metrics } := fun metrics =>
    ⟨rfl, rfl, rfl, Selection.leavesLists_of_none rfl, fun e => ⟨e, rfl⟩⟩
  rw [selections, List.mem_append, List.mem_append] at hs
  rcases hs with (hs | hs) | hs
  · obtain ⟨custom, -, rfl⟩ := List.mem_map.1 hs
    exact ⟨rfl, rfl, rfl, custom.leavesLists a.objectives, fun e => ⟨custom.apply e, rfl⟩⟩
  · obtain ⟨o, -, rfl⟩ := List.mem_map.1 hs
    exact hnone _
  · split at hs
    · obtain rfl := List.mem_singleton.1 hs
      exact hnone _
    · exact absurd hs List.not_mem_nil

theorem requested_eq (a : Application) :
    (a.objectives.filterMap fun o => if o.implemented then none else
      o.requests.map fun r => (o, r)) = a.requested := by
  rw [requested, List.filterMap_filter]
  refine congrArg (List.filterMap · a.objectives) (funext fun o => ?_)
  cases o.implemented <;> rfl

theorem mem_requested_iff {o : Objective} {r : RequestsObjective} :
    (o, r) ∈ a.requested ↔ o ∈ a.objectives ∧ o.implemented = false ∧ o.requests = some r := by
  simp only [requested, List.mem_filterMap, List.mem_filter, Bool.not_eq_true',
    Option.map_eq_some_iff, Prod.mk.injEq]
  constructor
  · rintro ⟨_, ⟨hmem, himplemented⟩, r, hrequests, rfl, rfl⟩
    exact ⟨hmem, himplemented, hrequests⟩
  · rintro ⟨hmem, himplemented, hrequests⟩
    exact ⟨o, ⟨hmem, himplemented⟩, r, hrequests, rfl, rfl⟩

/-- The metrics that one scenario adds: one for each objective to be measured by requests. -/
def AreRequestsMetrics (a : Application) (block : List Metric) : Prop :=
  List.Forall₂ (fun entry m => entry.1.requestsMetric entry.2 = .ok m) a.requested block

theorem metrics_eq_ok_iff {custom : CustomScenario} {block : List Metric} :
    custom.metrics a.objectives = .ok block ↔
      if custom.enablePushGateway then block = [] else a.AreRequestsMetrics block := by
  unfold CustomScenario.metrics
  split
  · simp [eq_comm]
  · rw [requested_eq, mapM_eq_ok_iff]
    rfl

/-- The metrics of the scenarios come scenario by scenario. -/
theorem gather_scenarios_eq_ok_iff {customs : List CustomScenario} {ms : List Metric} :
    Selection.gather Selection.metricList (customs.map (·.selection a.objectives)) = .ok ms ↔
      ∃ blocks, List.Forall₂ (fun _ block => a.AreRequestsMetrics block)
        (customs.filter (!·.enablePushGateway)) blocks ∧ blocks.flatten = ms := by
  induction customs generalizing ms with
  | nil =>
    simp [Selection.gather_eq_ok_iff]
  | cons custom customs ih =>
    rw [List.map_cons, Selection.gather_cons_eq_ok_iff]
    have hfirst : (custom.selection a.objectives).metricList = custom.metrics a.objectives := rfl
    simp only [hfirst, metrics_eq_ok_iff, ih]
    by_cases hpush : custom.enablePushGateway
    · rw [List.filter_cons_of_neg (by simpa using hpush)]
      simp [hpush]
    · rw [List.filter_cons_of_pos (by simpa using hpush)]
      simp only [hpush, Bool.false_eq_true, if_false]
      constructor
      · rintro ⟨block, _, hblock, ⟨blocks, hblocks, rfl⟩, rfl⟩
        exact ⟨block :: blocks, .cons hblock hblocks, rfl⟩
      · rintro ⟨_, hblocks, rfl⟩
        cases hblocks with
        | cons hblock hblocks => exact ⟨_, _, hblock, ⟨_, hblocks, rfl⟩, rfl⟩

theorem gather_monitored (a : Application) :
    Selection.gather Selection.metricList ((a.objectives.filter (·.datadog.isSome)).map fun o =>
      Objective.datadogSelection (some o)) = .ok a.monitored := by
  rw [Selection.gather_eq_ok_iff]
  refine ⟨fun s hs => ?_, ?_⟩
  · obtain ⟨o, -, rfl⟩ := List.mem_map.1 hs
    rfl
  · rw [monitored, List.flatMap_map]
    induction a.objectives with
    | nil => rfl
    | cons o os ih =>
      have hshare : Selection.share Selection.metricList (Objective.datadogSelection (some o)) =
          o.datadogMetrics := rfl
      cases hdatadog : o.datadog with
      | none => cases himplemented : o.implemented <;> simp [hdatadog, himplemented, ih]
      | some goal =>
        cases himplemented : o.implemented <;>
          simp [hdatadog, himplemented, ih, hshare, Objective.datadogMetrics]

theorem exists_metricList_iff :
    (∀ s ∈ a.selections builtIn, ∃ ms, s.metricList = .ok ms) ↔ ¬ a.Unreadable := by
  have hothers : ∀ s : Selection, (∃ ms, s.metrics = some (.ok ms)) → ∃ ms, s.metricList = .ok ms := by
    rintro s ⟨ms, hms⟩
    exact ⟨ms, by rw [Selection.metricList, hms]; rfl⟩
  constructor
  · rintro h ⟨scenario, hscenario, custom, hcustom, hpush, o, ho, himplemented, r, hr, hunreadable⟩
    have hmem : custom.selection a.objectives ∈ a.selections builtIn := by
      refine List.mem_append_left _ (List.mem_append_left _ (List.mem_map_of_mem ?_))
      exact List.mem_filterMap.2 ⟨scenario, hscenario, hcustom⟩
    obtain ⟨block, hblock⟩ := h _ hmem
    replace hblock := metrics_eq_ok_iff.1 hblock
    rw [if_neg (by simp [hpush])] at hblock
    obtain ⟨m, -, hm⟩ := exists_mem_mapM (mapM_eq_ok_iff.2 hblock)
      (mem_requested_iff.2 ⟨ho, himplemented, hr⟩)
    exact Objective.exists_requestsMetric_iff.1 ⟨m, hm⟩ hunreadable
  · intro hreadable s hs
    rw [selections, List.mem_append, List.mem_append] at hs
    rcases hs with (hs | hs) | hs
    · obtain ⟨custom, hcustom, rfl⟩ := List.mem_map.1 hs
      obtain ⟨scenario, hscenario, hcustom⟩ := List.mem_filterMap.1 hcustom
      show ∃ block, custom.metrics a.objectives = .ok block
      simp only [metrics_eq_ok_iff]
      cases hpush : custom.enablePushGateway with
      | true => exact ⟨[], rfl⟩
      | false =>
        refine exists_forall₂_iff.2 fun entry hentry => ?_
        obtain ⟨ho, himplemented, hr⟩ := mem_requested_iff.1 hentry
        refine Objective.exists_requestsMetric_iff.2 fun hunreadable => hreadable ?_
        exact ⟨scenario, hscenario, custom, hcustom, hpush, _, ho, himplemented, _, hr, hunreadable⟩
    · obtain ⟨o, -, rfl⟩ := List.mem_map.1 hs
      exact hothers _ ⟨_, rfl⟩
    · split at hs
      · obtain rfl := List.mem_singleton.1 hs
        exact hothers _ ⟨_, rfl⟩
      · exact absurd hs List.not_mem_nil

theorem gather_selections_eq_ok_iff {ms : List Metric} :
    Selection.gather Selection.metricList (a.selections builtIn) = .ok ms ↔
      ∃ blocks, List.Forall₂ (fun _ block => a.AreRequestsMetrics block) a.measured blocks ∧
        blocks.flatten ++ a.monitored ++ (if builtIn then Metric.BuiltIn.all else []) = ms := by
  have hbuiltIn : Selection.gather Selection.metricList
      (if builtIn then [Metric.BuiltIn.selection] else []) =
        .ok (if builtIn then Metric.BuiltIn.all else []) := by
    cases builtIn <;> rfl
  simp only [selections, Selection.gather_append, gather_scenarios_eq_ok_iff, gather_monitored,
    hbuiltIn, measured]
  constructor
  · rintro ⟨_, _, ⟨_, _, ⟨blocks, hblocks, rfl⟩, hmonitored, rfl⟩, hlast, rfl⟩
    obtain rfl := Except.ok.inj hmonitored
    obtain rfl := Except.ok.inj hlast
    exact ⟨blocks, hblocks, rfl⟩
  · rintro ⟨blocks, hblocks, rfl⟩
    exact ⟨_, _, ⟨_, _, ⟨blocks, hblocks, rfl⟩, rfl, rfl⟩, rfl, rfl⟩

/-- The metrics of the bundled monitoring: if they are asked for, the one for the use of the
processor. -/
inductive BuiltInMetrics : Bool → List Metric → Prop where
  | leftOut : BuiltInMetrics false []
  | asked : BuiltInMetrics true [{
      name := "rso cpu utilization"
      kind := some .builtIn
      query := Metric.BuiltIn.cpuUtilizationQuery
      url := some "http://rso-prometheus.\x7b\x7b .Trial.Namespace \x7d\x7d:9090" }]

theorem builtInMetrics_all (builtIn : Bool) :
    BuiltInMetrics builtIn (if builtIn then Metric.BuiltIn.all else []) := by
  cases builtIn with
  | false => exact .leftOut
  | true => exact .asked

/-- **What an application is measured by.**  Its generation fails exactly if there is something to
read that cannot be read; what is not to be read does not matter.  Otherwise the experiment has
metrics only: for each scenario that is measured, those on requests, one for each objective to be
measured so; then those of the monitoring service; and the built-in ones, if they are asked for. -/
theorem fails_or_measures (a : Application) (builtIn : Bool) (g : Generator) (seconds : Binary64)
    (counters : Counters) :
    (a.Unreadable ∧ ∃ failure,
      ((g.generate seconds (a.selections builtIn)).run counters).1 = .error failure) ∨
    (¬ a.Unreadable ∧ ∃ generation blocks builtIns,
      ((g.generate seconds (a.selections builtIn)).run counters).1 = .ok generation ∧
      generation.experiment.parameters = [] ∧ generation.experiment.patches = [] ∧
      List.Forall₂ (fun _ block => a.AreRequestsMetrics block) a.measured blocks ∧
      BuiltInMetrics builtIn builtIns ∧
      generation.experiment.metrics = blocks.flatten ++ a.monitored ++ builtIns) := by
  have hs : ∀ s ∈ a.selections builtIn, s.OnlyMeasures := fun s => onlyMeasures_of_mem_selections
  have hexists : (∃ generation,
      ((g.generate seconds (a.selections builtIn)).run counters).1 = .ok generation) ↔
        ¬ a.Unreadable :=
    (Generation.exists_generate_iff hs).trans exists_metricList_iff
  cases hresult : ((g.generate seconds (a.selections builtIn)).run counters).1 with
  | error failure =>
    refine .inl ⟨?_, failure, rfl⟩
    by_contra hreadable
    obtain ⟨generation, h⟩ := hexists.2 hreadable
    exact nomatch hresult.symm.trans h
  | ok generation =>
    obtain ⟨hparameters, hpatches, hmetrics⟩ := Generation.experiment_of_onlyMeasures hs hresult
    obtain ⟨blocks, hblocks, heq⟩ := gather_selections_eq_ok_iff.1 hmetrics
    exact .inr ⟨hexists.1 ⟨generation, hresult⟩, generation, blocks, _, rfl, hparameters, hpatches,
      hblocks, builtInMetrics_all builtIn, heq.symm⟩

/-- An application with an objective for each kind of metric, and with weights that are no quantities
where nothing reads them. -/
def measuredApplication : Application :=
  { scenarios := [
      { name := "load", custom := some {} },
      { name := "reporting", custom := some { enablePushGateway := true } },
      { name := "idle" }]
    objectives := [
      { name := "cost", requests := some {
          metricSelector := "app=web", weights := .ofList [("cpu", "17"), ("memory", "3Gi")] } },
      { name := "known", implemented := true, requests := some {
          metricSelector := "(", weights := .ofList [("cpu", "many")] } },
      { name := "errors", max := true, datadog := some { query := "sum:errors" } }] }

/-- Its metrics, with the built-in one at the end. -/
def measuredMetrics : List Metric := [
  { name := "cost", minimize := true
    query := "\x7b\x7b resourceRequests .Target \"cpu=0.017,memory=0.003221225472\" \x7d\x7d"
    target := some {
      apiVersion := "v1", kind := "PodList"
      labelSelector := some { matchLabels := some (.ofList [("app", "web")]) } } },
  { name := "errors", minimize := true, kind := some .datadog, query := "sum:errors" },
  { name := "rso cpu utilization", kind := some .builtIn
    query := Metric.BuiltIn.cpuUtilizationQuery
    url := some "http://rso-prometheus.\x7b\x7b .Trial.Namespace \x7d\x7d:9090" }]

theorem fails_or_measures_sample :
    ¬ measuredApplication.Unreadable ∧ ∃ generation,
      ((Generator.generate {} .nan (measuredApplication.selections true)).run {}).1 =
        .ok generation ∧
      generation.experiment.parameters = [] ∧ generation.experiment.patches = [] ∧
      generation.experiment.metrics = measuredMetrics := by
  have hmetrics : ((Generator.generate {} .nan (measuredApplication.selections true)).run {}).1.map
      (·.experiment.metrics) = .ok measuredMetrics := by
    decide +kernel
  obtain ⟨generation, hresult, hgeneration⟩ := map_eq_ok_iff.1 hmetrics
  rcases fails_or_measures measuredApplication true {} .nan {} with
    ⟨-, failure, hfails⟩ | ⟨hreadable, generation', -, -, hok, hparameters, hpatches, -⟩
  · exact nomatch hresult.symm.trans hfails
  · obtain rfl := Except.ok.inj (hresult.symm.trans hok)
    exact ⟨hreadable, generation, hresult, hparameters, hpatches, hgeneration⟩

end Application

end ClusterTuning
