import ClusterTuning.Application
import ClusterTuning.Trial.Image

/-!
# The trial of a custom scenario

A custom scenario replaces the pod of the trial job, its image, its delay and the
expected runtime, each of them only where the scenario says so.  Afterwards every
container of the pod has a name.
-/

namespace ClusterTuning

/-- Gives the first container an image; a pod without containers gets one. -/
def PodTemplate.withImage (image : String) (t : PodTemplate) : PodTemplate :=
  let pod := t.spec.getD {}
  let containers := match pod.containers with
    | [] => [{ image := some image }]
    | c :: rest => { c with image := some image } :: rest
  { t with spec := some { pod with containers } }

/-- A container without a name is named after its image. -/
def Container.named (c : Container) : Container :=
  if c.name.isEmpty then { c with name := Image.containerName (c.image.getD "") } else c

/-- Names every container of a pod. -/
def PodTemplate.withNames (t : PodTemplate) : PodTemplate :=
  { t with spec := t.spec.map fun pod => { pod with containers := pod.containers.map (·.named) } }

namespace CustomScenario

/-- The image of the scenario, if it is not empty. -/
def givenImage? (s : CustomScenario) : Option String :=
  s.image.filter (!·.isEmpty)

/-- Replaces the pod of the trial job where the scenario has one. -/
def applyPod (s : CustomScenario) (e : Experiment) : Experiment :=
  match s.podTemplate with
  | some pod => e.modifyTrialPod fun _ => pod
  | none => e

/-- Replaces the delay where it is positive and the runtime where it is given. -/
def applyTiming (s : CustomScenario) (e : Experiment) : Experiment :=
  { e with trial := { e.trial with
      initialDelaySeconds :=
        if 0 < s.initialDelaySeconds then s.initialDelaySeconds else e.trial.initialDelaySeconds
      approximateRuntime := s.approximateRuntime <|> e.trial.approximateRuntime } }

/-- Replaces the image of the first container where the scenario has one. -/
def applyImage (s : CustomScenario) (e : Experiment) : Experiment :=
  match s.givenImage? with
  | some image => e.modifyTrialPod (·.withImage image)
  | none => e

/-- Names the containers of the trial job if there is one. -/
def nameContainers (e : Experiment) : Experiment :=
  if e.trial.jobTemplate.isSome then e.modifyTrialPod (·.withNames) else e

/-- The experiment with the trial of the scenario. -/
def apply (s : CustomScenario) (e : Experiment) : Experiment :=
  nameContainers (s.applyImage (s.applyTiming (s.applyPod e)))

end CustomScenario

end ClusterTuning
