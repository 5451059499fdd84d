import ClusterTuning.Application.Selections
import ClusterTuning.Proofs.Generation.Contribution
import ClusterTuning.Tuning.Replicas

/-!
# A generation groups what the selections contribute

Most changes that a selection makes to an experiment leave its parameters,
metrics and patches alone.  If all of them do, a successful pass yields the
contributions and nothing else: parameters, metrics and documents are put one
after the other in the order of the selections, edits are grouped into one patch
for each target, and all names are computed by one namer for all selections.

* `Generation.Gathered` — the invariant of the pass;
* `Generation.Gathered.absorb` — one more selection keeps it;
* `Generator.isGrouping_of_generate` — the statement for whole passes.
-/

namespace ClusterTuning

/-! ## Changes that leave the lists alone -/

/-- Whatever the selection changes in an experiment, it keeps the parameters, the metrics and the
patches. -/
def Selection.LeavesLists (s : Selection) : Prop :=
  ∀ change, s.experiment = some change → ∀ before after, change before = .ok after →
    after.parameters = before.parameters ∧ after.metrics = before.metrics ∧
      after.patches = before.patches

theorem Selection.LeavesLists.update {s : Selection} (h : s.LeavesLists) {before after : Experiment}
    (hupdate : s.update before = .ok after) :
    after.parameters = before.parameters ∧ after.metrics = before.metrics ∧
      after.patches = before.patches := by
  unfold Selection.update at hupdate
  split at hupdate
  · obtain rfl := Except.ok.inj hupdate
    exact ⟨rfl, rfl, rfl⟩
  · next change hchange => exact h change hchange before after hupdate

theorem Selection.leavesLists_of_none {s : Selection} (h : s.experiment = none) :
    s.LeavesLists := by
  intro change hchange
  exact absurd (h.symm.trans hchange) (Option.some_ne_none change).symm

/-- A custom scenario changes the trial only. -/
theorem CustomScenario.apply_eq (s : CustomScenario) (e : Experiment) :
    s.apply e = { e with trial := (s.apply e).trial } := by
  unfold apply nameContainers applyImage applyTiming applyPod
  cases s.podTemplate <;> cases s.givenImage? <;> dsimp only <;> split <;> rfl

theorem CustomScenario.leavesLists (s : CustomScenario) (objectives : List Objective) :
    (s.selection objectives).LeavesLists := by
  intro change hchange before after hafter
  obtain rfl := Option.some.inj hchange
  obtain rfl := Except.ok.inj hafter
  rw [s.apply_eq before]
  exact ⟨rfl, rfl, rfl⟩

namespace Generation

open Selection

/-! ## The invariant of a pass -/

/-- An experiment after a selection: its changes, then its parameters and metrics. -/
def evolve (namer : Namer) (e : Experiment) (s : Selection) : Except Failure Experiment := do
  let e ← s.update e
  let parameters ← s.parameterList namer
  let metrics ← s.metricList
  return { e with parameters := e.parameters ++ parameters, metrics := e.metrics ++ metrics }

/-- What is collected is what the selections passed so far contribute. -/
structure Gathered (namer : Namer) (passed : List Selection) (c : Collected) : Prop where
  experiment : passed.foldlM (evolve namer) .new = .ok c.experiment
  parameters : gather (parameterList namer) passed = .ok c.experiment.parameters
  metrics : gather metricList passed = .ok c.experiment.metrics
  documents : gather documentList passed = .ok c.documents
  edits : ∃ es, gather (editList namer) passed = .ok es ∧ c.patches.Holds es
  noPatches : c.experiment.patches = []

theorem gathered_nil (namer : Namer) : Gathered namer [] {} where
  experiment := rfl
  parameters := rfl
  metrics := rfl
  documents := rfl
  edits := ⟨[], rfl, PatchSet.holds_nil⟩
  noPatches := rfl

theorem absorb_eq_ok_iff {namer : Namer} {c c' : Collected} {s : Selection} :
    absorb namer c s = .ok c' ↔ ∃ experiment parameters es patches metrics documents,
      s.update c.experiment = .ok experiment ∧ s.parameterList namer = .ok parameters ∧
      s.editList namer = .ok es ∧ c.patches.addAll es = .ok patches ∧
      s.metricList = .ok metrics ∧ s.documentList = .ok documents ∧
      c' = {
        experiment := { experiment with
          parameters := experiment.parameters ++ parameters
          metrics := experiment.metrics ++ metrics }
        patches
        documents := c.documents ++ documents } := by
  unfold absorb
  simp only [bind_eq_ok_iff]
  constructor
  · rintro ⟨experiment, he, parameters, hp, es, hes, patches, hadd, metrics, hm, documents, hd, h⟩
    exact ⟨experiment, parameters, es, patches, metrics, documents, he, hp, hes, hadd, hm, hd,
      (Except.ok.inj h).symm⟩
  · rintro ⟨experiment, parameters, es, patches, metrics, documents, he, hp, hes, hadd, hm, hd, rfl⟩
    exact ⟨experiment, he, parameters, hp, es, hes, patches, hadd, metrics, hm, documents, hd, rfl⟩

/-- What the next selection depends on: the experiment and the edits so far. -/
structure Reached (namer : Namer) (passed : List Selection) (c : Collected) : Prop where
  experiment : passed.foldlM (evolve namer) .new = .ok c.experiment
  edits : ∃ es, gather (editList namer) passed = .ok es ∧ c.patches.Holds es

variable {namer : Namer} {passed : List Selection} {c c' : Collected} {s : Selection}

theorem Reached.absorb (h : Reached namer passed c) (habsorb : absorb namer c s = .ok c') :
    Reached namer (passed ++ [s]) c' := by
  obtain ⟨experiment, parameters, es, patches, metrics, documents, he, hp, hes, hadd, hm, -,
    rfl⟩ := absorb_eq_ok_iff.1 habsorb
  obtain ⟨ds, hds, hholds⟩ := h.edits
  refine ⟨?_, ds ++ es, gather_append_singleton hds hes, hholds.addAll hadd⟩
  rw [List.foldlM_append, h.experiment]
  show evolve namer c.experiment s >>= pure = _
  simp only [evolve, he, hp, hm, bind, Except.bind, pure, Except.pure]

theorem reached_foldlM (hfold : passed.foldlM (Generation.absorb namer) {} = .ok c) :
    Reached namer passed c :=
  foldlM_induction ⟨rfl, [], rfl, PatchSet.holds_nil⟩ (fun _ _ _ _ h habsorb => h.absorb habsorb)
    hfold

/-- One more selection. -/
theorem Gathered.absorb (h : Gathered namer passed c) (hs : s.LeavesLists)
    (habsorb : absorb namer c s = .ok c') : Gathered namer (passed ++ [s]) c' := by
  have hreached := Reached.absorb ⟨h.experiment, h.edits⟩ habsorb
  obtain ⟨experiment, parameters, es, patches, metrics, documents, he, hp, -, -, hm, hd,
    rfl⟩ := absorb_eq_ok_iff.1 habsorb
  obtain ⟨hparameters, hmetrics, hpatches⟩ := hs.update he
  refine ⟨hreached.experiment, ?_, ?_, gather_append_singleton h.documents hd, hreached.edits,
    hpatches.trans h.noPatches⟩
  · rw [hparameters]
    exact gather_append_singleton h.parameters hp
  · rw [hmetrics]
    exact gather_append_singleton h.metrics hm

theorem gathered_foldlM (hs : ∀ s ∈ passed, s.LeavesLists)
    (hfold : passed.foldlM (Generation.absorb namer) {} = .ok c) : Gathered namer passed c := by
  refine foldlM_induction (P := fun passed c => (∀ s ∈ passed, s.LeavesLists) →
    Gathered namer passed c) (fun _ => gathered_nil namer) ?_ hfold hs
  intro passed s c c' ih habsorb hs
  exact (ih fun t ht => hs t (List.mem_append_left _ ht)).absorb (hs s (by simp)) habsorb

/-! ## The result of a pass -/

/-- A generation puts together what the selections contribute.

The experiment that the changes of the selections leave, each of them made to an experiment with
the parameters and metrics of the selections before it, is given the patches and, if it has no
name, the default name. -/
structure IsGrouping (defaultName : String) (selections : List Selection) (g : Generation) :
    Prop where
  parameters : gather (parameterList (Namer.ofSelections selections)) selections =
    .ok g.experiment.parameters
  metrics : gather metricList selections = .ok g.experiment.metrics
  documents : gather documentList selections = .ok g.documents
  patches : ∃ es, gather (editList (Namer.ofSelections selections)) selections = .ok es ∧
    ArePatchesOf es g.experiment.patches
  experiment : ∃ left,
    selections.foldlM (evolve (Namer.ofSelections selections)) .new = .ok left ∧
      g.experiment = ({ left with patches := g.experiment.patches } : Experiment).withName
        (if left.name = "" then defaultName else left.name)

/-- An experiment that has a name already keeps it. -/
theorem nameIfNone_eq (defaultName : String) (e : Experiment) :
    (if e.name.isEmpty then e.withName defaultName else e) =
      e.withName (if e.name = "" then defaultName else e.name) := by
  by_cases h : e.name = ""
  · rw [if_pos h, if_pos (String.isEmpty_iff.2 h)]
  · rw [if_neg h, if_neg (fun hempty => h (String.isEmpty_iff.1 hempty))]
    have hname : some e.name = e.metadata.name := by
      unfold Experiment.name at h ⊢
      cases hm : e.metadata.name with
      | none => rw [hm] at h; exact absurd rfl h
      | some name => rfl
    rw [Experiment.withName, hname]

theorem Gathered.isGrouping {defaultName : String} {selections : List Selection} {c : Collected}
    {g : Generation} (h : Gathered (Namer.ofSelections selections) selections c)
    (hfinish : finish defaultName c = .ok g) : IsGrouping defaultName selections g := by
  obtain ⟨ps, hps, hg⟩ := bind_eq_ok_iff.1 hfinish
  obtain rfl := Except.ok.inj hg
  obtain ⟨es, hes, hholds⟩ := h.edits
  rw [h.noPatches, List.nil_append, nameIfNone_eq]
  exact ⟨h.parameters, h.metrics, h.documents, ⟨es, hes, hholds.arePatchesOf hps⟩,
    ⟨c.experiment, h.experiment, rfl⟩⟩

end Generation

open Generation in
theorem Generator.generate_eq_ok_iff {g : Generator} {seconds : Binary64}
    {selections : List Selection} {counters : Counters} {generation : Generation} :
    ((g.generate seconds selections).run counters).1 = .ok generation ↔
      ∃ c, selections.foldlM (absorb (Namer.ofSelections selections)) {} = .ok c ∧
        finish g.defaultName c = .ok generation := by
  rw [gives_generate g seconds selections counters, bind_eq_ok_iff]

end ClusterTuning
