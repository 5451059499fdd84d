import ClusterTuning.Application.Selections
import ClusterTuning.Proofs.Trial.ImageSpelling
import Mathlib.Logic.Basic

/-!
# What a custom scenario changes

A custom scenario changes the trial of an experiment and nothing else: the delay, the
runtime and the pod of the trial job, each where it has something to say.  The pod
is changed in one go, whatever made the job that it belongs to, so a second update
has nothing left to do.

* `CustomScenario.apply_eq_ite` — an update as one change of the pod;
* `PodTemplate.Updated`, `CustomScenario.Updates` — what an update changes, part by part;
* `CustomScenario.update_succeeds` — every update succeeds, changes just that, and is
  the same when it is made twice.
-/

namespace ClusterTuning

/-! ## Containers -/

namespace Container

variable (c : Container)

@[simp] theorem named_image : c.named.image = c.image := by
  unfold named
  split <;> rfl

@[simp] theorem named_details : c.named.details = c.details := by
  unfold named
  split <;> rfl

theorem named_name :
    c.named.name = if c.name = "" then Image.containerName (c.image.getD "") else c.name := by
  unfold named
  simp only [String.isEmpty_iff]
  split <;> rfl

@[simp] theorem named_named : c.named.named = c.named := by
  by_cases h : c.name = ""
  · have hnamed : c.named = { c with name := Image.containerName (c.image.getD "") } := by
      rw [named, if_pos (String.isEmpty_iff.2 h)]
    rw [hnamed, named]
    split <;> rfl
  · have hnamed : c.named = c := by
      rw [named, if_neg (mt String.isEmpty_iff.1 h)]
    rw [hnamed, hnamed]

end Container

/-- What becomes of a container that gets a name, and an image if there is one to give. -/
structure ContainerUpdated (image : Option String) (before after : Container) : Prop where
  image_eq : after.image = image.or before.image
  name_kept : before.name ≠ "" → after.name = before.name
  name_found : before.name = "" → Image.IsName (after.image.getD "") after.name
  details_eq : after.details = before.details

theorem containerUpdated_named (image : Option String) (c : Container) :
    ContainerUpdated image c { c with image := image.or c.image }.named where
  image_eq := Container.named_image _
  name_kept := fun hname => by rw [Container.named_name, if_neg hname]
  name_found := fun hname => by
    rw [Image.isName_iff, Container.named_name, Container.named_image, if_pos hname]
  details_eq := Container.named_details _

/-! ## Pods -/

/-- The containers of a pod with an image for the first one, if there is one to give; then there is
a first one. -/
def imageFirst : Option String → List Container → List Container
  | none, containers => containers
  | some image, [] => [{ image := some image }]
  | some image, c :: rest => { c with image := some image } :: rest

variable {image : Option String} {cs : List Container}

theorem length_imageFirst : (imageFirst image cs).length =
    if image.isSome then max 1 cs.length else cs.length := by
  cases image with
  | none => rfl
  | some image =>
    cases cs with
    | nil => rfl
    | cons c rest => simp [imageFirst]

/-- Naming the containers does not change the image that the first one has got. -/
theorem imageFirst_named : imageFirst image ((imageFirst image cs).map Container.named) =
    (imageFirst image cs).map Container.named := by
  have hkept : ∀ (c : Container) (image : String), c.image = some image →
      { c.named with image := some image } = c.named := by
    intro c image hc
    rw [← hc, ← c.named_image]
  cases image with
  | none => rfl
  | some image =>
    cases cs with
    | nil => exact congrArg (fun c => [c]) (hkept _ _ rfl)
    | cons c rest => exact congrArg (fun c => c :: rest.map Container.named) (hkept _ _ rfl)

theorem containerUpdated_of_mem {i : Nat} {c : Container}
    (h : ((imageFirst image cs).map Container.named)[i]? = some c) :
    ContainerUpdated (if i = 0 then image else none) (cs[i]?.getD {}) c := by
  rw [List.getElem?_map] at h
  obtain ⟨b, hb, rfl⟩ := Option.map_eq_some_iff.1 h
  cases image with
  | none =>
    have hb' : cs[i]? = some b := hb
    rw [hb', Option.getD_some, ite_self]
    exact containerUpdated_named none b
  | some image =>
    cases i with
    | zero =>
      rw [if_pos rfl]
      cases cs with
      | nil =>
        obtain rfl := Option.some.inj hb
        exact containerUpdated_named (some image) {}
      | cons c rest =>
        obtain rfl := Option.some.inj hb
        exact containerUpdated_named (some image) c
    | succ i =>
      rw [if_neg (Nat.succ_ne_zero i)]
      cases cs with
      | nil => cases hb
      | cons c rest =>
        have hb' : (c :: rest)[i + 1]? = some b := hb
        rw [hb', Option.getD_some]
        exact containerUpdated_named none b

theorem map_named_map_named :
    (cs.map Container.named).map Container.named = cs.map Container.named := by
  rw [List.map_map]
  exact List.map_congr_left fun c _ => c.named_named

namespace PodTemplate

variable (t : PodTemplate)

/-- The containers of a pod. -/
def containers : List Container := (t.spec.getD {}).containers

/-- Gives the first container an image, if there is one to give. -/
def withImage? (image : Option String) (t : PodTemplate) : PodTemplate :=
  match image with
  | some image => t.withImage image
  | none => t

theorem withImage_eq (image : String) : t.withImage image = { t with
    spec := some { t.spec.getD {} with containers := imageFirst (some image) t.containers } } := by
  unfold withImage containers
  dsimp only
  cases (t.spec.getD {}).containers <;> rfl

theorem containers_withImage? (image : Option String) :
    (t.withImage? image).containers = imageFirst image t.containers := by
  cases image with
  | none => rfl
  | some image =>
    unfold withImage?
    dsimp only
    rw [withImage_eq]
    rfl

theorem containers_withNames : t.withNames.containers = t.containers.map Container.named := by
  unfold withNames containers
  cases t.spec <;> rfl

/-- What becomes of a pod whose first container gets an image, and every container a name. -/
structure Updated (image : Option String) (before after : PodTemplate) : Prop where
  metadata_eq : after.metadata = before.metadata
  spec_isSome : after.spec.isSome ↔ before.spec.isSome ∨ image.isSome
  details_eq : (after.spec.getD {}).details = (before.spec.getD {}).details
  length_eq : after.containers.length =
    if image.isSome then max 1 before.containers.length else before.containers.length
  container : ∀ i c, after.containers[i]? = some c →
    ContainerUpdated (if i = 0 then image else none) (before.containers[i]?.getD {}) c

theorem updated_withNames (image : Option String) :
    Updated image t (t.withImage? image).withNames where
  metadata_eq := by cases image <;> rfl
  spec_isSome := by
    cases image with
    | none => simp [withImage?, withNames]
    | some image => simp [withImage?, withImage, withNames]
  details_eq := by
    cases image with
    | none =>
      unfold withImage? withNames
      cases t.spec <;> rfl
    | some image => rfl
  length_eq := by
    rw [containers_withNames, containers_withImage?, List.length_map, length_imageFirst]
  container := by
    intro i c hc
    rw [containers_withNames, containers_withImage?] at hc
    exact containerUpdated_of_mem hc

/-- Where the containers have their image and their names already, nothing is left to do. -/
theorem withNames_withImage? (image : Option String) :
    ((t.withImage? image).withNames.withImage? image).withNames =
      (t.withImage? image).withNames := by
  cases image with
  | none =>
    unfold withImage? withNames
    dsimp only
    cases t.spec with
    | none => rfl
    | some pod => simp only [Option.map_some, map_named_map_named]
  | some image =>
    have hnamed : (t.withImage image).withNames = { t with spec := some { t.spec.getD {} with
        containers := (imageFirst (some image) t.containers).map Container.named } } := by
      rw [withImage_eq]
      rfl
    unfold withImage?
    dsimp only
    rw [hnamed, withImage_eq]
    unfold containers withNames
    simp only [Option.getD_some, Option.map_some, imageFirst_named, map_named_map_named]

end PodTemplate

/-! ## The trial job -/

namespace Experiment

/-- The pod of the trial job; an empty one if there is no job. -/
def trialPod (e : Experiment) : PodTemplate :=
  ((e.trial.jobTemplate.getD {}).spec.getD {}).template

/-- Two changes of the pod are one. -/
theorem modifyTrialPod_modifyTrialPod (e : Experiment) (f g : PodTemplate → PodTemplate) :
    (e.modifyTrialPod f).modifyTrialPod g = e.modifyTrialPod (g ∘ f) := rfl

end Experiment

namespace CustomScenario

variable (s : CustomScenario) (e : Experiment)

theorem givenImage?_eq : s.givenImage? = s.image.filter (· ≠ "") := by
  unfold givenImage?
  congr 1
  funext image
  rw [Bool.eq_iff_iff]
  simp

/-- The pod that a trial gets in the place of another one. -/
def podFor (t : PodTemplate) : PodTemplate :=
  ((s.podTemplate.getD t).withImage? s.givenImage?).withNames

theorem podFor_podFor (t : PodTemplate) : s.podFor (s.podFor t) = s.podFor t := by
  unfold podFor
  cases s.podTemplate with
  | none => exact t.withNames_withImage? _
  | some pod => rfl

/-- The scenario has something for the pod, or there is a pod already. -/
def HasPod : Prop :=
  e.trial.jobTemplate.isSome ∨ s.podTemplate.isSome ∨ s.givenImage?.isSome

instance : Decidable (s.HasPod e) :=
  inferInstanceAs (Decidable (_ ∨ _ ∨ _))

/-- Changing the pod and the timing does not depend on the order. -/
theorem applyTiming_modifyTrialPod (change : PodTemplate → PodTemplate) :
    s.applyTiming (e.modifyTrialPod change) = (s.applyTiming e).modifyTrialPod change := rfl

theorem applyTiming_applyTiming : s.applyTiming (s.applyTiming e) = s.applyTiming e := by
  unfold applyTiming
  dsimp only
  congr 2
  · split <;> rfl
  · cases s.approximateRuntime <;> rfl

/-- An update is one change of the pod, where there is one, beside the timing. -/
theorem apply_eq_ite : s.apply e =
    if s.HasPod e then (s.applyTiming e).modifyTrialPod s.podFor else s.applyTiming e := by
  have hpodFor : s.podFor = fun t =>
    ((s.podTemplate.getD t).withImage? s.givenImage?).withNames := rfl
  unfold apply applyImage applyPod
  rw [hpodFor]
  cases hpod : s.podTemplate with
  | some pod =>
    rw [if_pos (show s.HasPod e from .inr (.inl (by simp [hpod])))]
    cases s.givenImage? <;> rfl
  | none =>
    cases himage : s.givenImage? with
    | some image =>
      rw [if_pos (show s.HasPod e from .inr (.inr (by simp [himage])))]
      rfl
    | none =>
      have hiff : s.HasPod e ↔ e.trial.jobTemplate.isSome := by
        simp [HasPod, hpod, himage]
      have hjob : (s.applyTiming e).trial.jobTemplate = e.trial.jobTemplate := rfl
      dsimp only
      rw [nameContainers, hjob]
      by_cases h : s.HasPod e
      · rw [if_pos h, if_pos (hiff.1 h)]
        rfl
      · rw [if_neg h, if_neg (mt hiff.2 h)]

/-- What an update changes in an experiment: nothing but the trial, and of this the timing and the
pod where the scenario has something to say, and the names of the containers. -/
structure Updates (before after : Experiment) : Prop where
  rest_eq : { after with trial := before.trial } = before
  delay_eq : after.trial.initialDelaySeconds =
    if 0 < s.initialDelaySeconds then s.initialDelaySeconds else before.trial.initialDelaySeconds
  runtime_eq : after.trial.approximateRuntime =
    s.approximateRuntime.or before.trial.approximateRuntime
  job_isSome : after.trial.jobTemplate.isSome ↔ before.trial.jobTemplate.isSome ∨
    s.podTemplate.isSome ∨ (s.image.filter (· ≠ "")).isSome
  metadata_eq : (after.trial.jobTemplate.getD {}).metadata =
    (before.trial.jobTemplate.getD {}).metadata
  spec_isSome : (after.trial.jobTemplate.bind (·.spec)).isSome ↔ after.trial.jobTemplate.isSome
  details_eq : ((after.trial.jobTemplate.getD {}).spec.getD {}).details =
    ((before.trial.jobTemplate.getD {}).spec.getD {}).details
  pod : PodTemplate.Updated (s.image.filter (· ≠ "")) (s.podTemplate.getD before.trialPod)
    after.trialPod

theorem runtime_applyTiming : (s.applyTiming e).trial.approximateRuntime =
    s.approximateRuntime.or e.trial.approximateRuntime := by
  unfold applyTiming
  cases s.approximateRuntime <;> rfl

theorem updates_apply : s.Updates e (s.apply e) := by
  rw [apply_eq_ite]
  by_cases h : s.HasPod e
  · rw [if_pos h]
    rw [HasPod, givenImage?_eq] at h
    have hpod := PodTemplate.updated_withNames (s.podTemplate.getD e.trialPod) s.givenImage?
    rw [givenImage?_eq] at hpod
    exact {
      rest_eq := rfl
      delay_eq := rfl
      runtime_eq := s.runtime_applyTiming e
      job_isSome := ⟨fun _ => h, fun _ => rfl⟩
      metadata_eq := rfl
      spec_isSome := ⟨fun _ => rfl, fun _ => rfl⟩
      details_eq := rfl
      pod := by
        rw [← s.givenImage?_eq] at hpod ⊢
        exact hpod }
  · rw [if_neg h]
    rw [HasPod, givenImage?_eq, not_or, not_or] at h
    obtain ⟨hjob, hpod, himage⟩ := h
    have hjob' := Option.not_isSome_iff_eq_none.1 hjob
    have hpod' := Option.not_isSome_iff_eq_none.1 hpod
    have himage' := Option.not_isSome_iff_eq_none.1 himage
    have hafter : (s.applyTiming e).trial.jobTemplate = e.trial.jobTemplate := rfl
    have hempty : e.trialPod = {} := by
      rw [Experiment.trialPod, hjob']
      rfl
    exact {
      rest_eq := rfl
      delay_eq := rfl
      runtime_eq := s.runtime_applyTiming e
      job_isSome := by
        rw [hafter]
        exact ⟨.inl, fun h => (h.resolve_right (not_or.2 ⟨hpod, himage⟩))⟩
      metadata_eq := rfl
      spec_isSome := by
        rw [hafter, hjob']
        rfl
      details_eq := rfl
      pod := by
        have hsame : (s.applyTiming e).trialPod = e.trialPod := rfl
        rw [hsame, hpod', himage', hempty]
        exact PodTemplate.updated_withNames {} none }

theorem apply_apply : s.apply (s.apply e) = s.apply e := by
  by_cases h : s.HasPod e
  · have hafter : s.HasPod (s.apply e) := by
      rw [apply_eq_ite, if_pos h]
      exact .inl rfl
    have honce : s.apply e = (s.applyTiming e).modifyTrialPod s.podFor := by
      rw [apply_eq_ite, if_pos h]
    have htwice : s.podFor ∘ s.podFor = s.podFor := funext s.podFor_podFor
    rw [s.apply_eq_ite (s.apply e), if_pos hafter, honce, applyTiming_modifyTrialPod,
      applyTiming_applyTiming, Experiment.modifyTrialPod_modifyTrialPod, htwice]
  · have hafter : ¬ s.HasPod (s.applyTiming e) := h
    have honce : s.apply e = s.applyTiming e := by
      rw [apply_eq_ite, if_neg h]
    rw [honce, apply_eq_ite, if_neg hafter, applyTiming_applyTiming]

/-- **Updates succeed and keep everything else**: the update of a custom scenario succeeds for every
experiment, changes the trial as the scenario says and nothing else, and changes nothing when it is
made once more. -/
theorem update_succeeds (objectives : List Objective) :
    ∃ update, (s.selection objectives).experiment = some update ∧
      ∀ before, ∃ after, update before = .ok after ∧ s.Updates before after ∧
        update after = .ok after :=
  ⟨_, rfl, fun before => ⟨s.apply before, rfl, s.updates_apply before,
    congrArg Except.ok (s.apply_apply before)⟩⟩

/-- A scenario with an image for a job that has two containers, one of them without a name. -/
theorem update_succeeds_sample :
    let s : CustomScenario :=
      { image := some "example.com/load/runner:1.2", approximateRuntime := some "5m" }
    let before : Experiment := { Experiment.new with trial := {
      jobTemplate := some { spec := some { template := { spec := some {
        containers := [{ details := [("tty", .bool true)] },
          { name := "log", image := some "example.com/log" }] } } } }
      initialDelaySeconds := 30 } }
    ∃ update after, (s.selection []).experiment = some update ∧ update before = .ok after ∧
      s.Updates before after ∧ update after = .ok after ∧
      after.trial.initialDelaySeconds = 30 ∧ after.trial.approximateRuntime = some "5m" ∧
      after.trialPod.containers = [
        { name := "runner", image := some "example.com/load/runner:1.2",
          details := [("tty", .bool true)] },
        { name := "log", image := some "example.com/log" }] := by
  intro s before
  obtain ⟨update, hupdate, hupdates⟩ := s.update_succeeds []
  obtain ⟨after, hafter, hchanges, htwice⟩ := hupdates before
  obtain rfl := Option.some.inj hupdate
  obtain rfl := Except.ok.inj hafter
  exact ⟨_, _, rfl, rfl, hchanges, htwice, rfl, rfl, rfl⟩

end CustomScenario

end ClusterTuning
