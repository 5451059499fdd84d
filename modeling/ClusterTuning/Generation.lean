import ClusterTuning.Experiment.Document
import ClusterTuning.Generation.Counters
import ClusterTuning.Selection
import ClusterTuning.Stream.Annotate
import ClusterTuning.Stream.Merge

/-!
# Generating an experiment

A pass goes through the selections in order and takes from each what its
capabilities contribute: changes of the experiment, parameters, an edit of a
patch, metrics and documents.  The edits become one patch for every target once
all selections were visited.  The first failure ends the pass; what was counted
until then stays counted.
-/

namespace ClusterTuning

open Yaml

/-- An experiment and the documents that go with it. -/
structure Generation where
  experiment : Experiment
  documents : List Value
deriving Repr, Inhabited

/-- How experiments are generated and written. -/
structure Generator where
  /-- The name of an experiment that no selection names. -/
  defaultName : String := "experiment"
  /-- Documents about the same resource are merged. -/
  mergeGenerated : Bool := false
  /-- The resources of the application follow the generated documents. -/
  includeApplicationResources : Bool := false
deriving DecidableEq, Repr, Inhabited

namespace Generation

/-! ## Passes -/

/-- A computation that counts what it does and may fail. -/
abbrev Pass := ExceptT Failure (StateM Counters)

/-- What a pass has collected so far. -/
structure Collected where
  experiment : Experiment := .new
  patches : PatchSet := {}
  documents : List Value := []
deriving Inhabited

/-- Counts a contribution. -/
def count (capability : Capability) (n : Nat) : Pass Unit :=
  modify fun counters => counters.contribute capability n

/-- Takes the changes of the experiment from a selection. -/
def takeExperiment (s : Selection) (c : Collected) : Pass Collected :=
  match s.experiment with
  | none => pure c
  | some update => do
    let experiment ← ExceptT.mk (pure (update c.experiment))
    count .experiment 1
    pure { c with experiment }

/-- Takes the parameters from a selection. -/
def takeParameters (namer : Namer) (s : Selection) (c : Collected) : Pass Collected :=
  match s.parameters with
  | none => pure c
  | some parameters => do
    let ps ← ExceptT.mk (pure (parameters namer))
    count .parameter ps.length
    pure { c with experiment :=
      { c.experiment with parameters := c.experiment.parameters ++ ps } }

/-- Takes the edit of a patch from a selection. -/
def takePatch (namer : Namer) (s : Selection) (c : Collected) : Pass Collected :=
  match s.patch with
  | none => pure c
  | some patch => do
    let edit ← ExceptT.mk (pure (patch.edit namer))
    let patches ← ExceptT.mk (pure (c.patches.add patch.target patch.strategy edit))
    count .patch 1
    pure { c with patches }

/-- Takes the metrics from a selection. -/
def takeMetrics (s : Selection) (c : Collected) : Pass Collected :=
  match s.metrics with
  | none => pure c
  | some metrics => do
    let ms ← ExceptT.mk (pure metrics)
    count .metric ms.length
    pure { c with experiment := { c.experiment with metrics := c.experiment.metrics ++ ms } }

/-- Takes the documents from a selection. -/
def takeDocuments (s : Selection) (c : Collected) : Pass Collected :=
  match s.documents with
  | none => pure c
  | some documents => do
    let ds ← ExceptT.mk (pure documents)
    count .resource ds.length
    pure { c with documents := c.documents ++ ds }

/-- Takes everything that a selection contributes. -/
def take (namer : Namer) (c : Collected) (s : Selection) : Pass Collected :=
  takeExperiment s c >>= takeParameters namer s >>= takePatch namer s >>= takeMetrics s >>=
    takeDocuments s

/-- The generation that a complete collection gives. -/
def finish (defaultName : String) (c : Collected) : Except Failure Generation := do
  let patches ← c.patches.render
  let experiment := { c.experiment with patches := c.experiment.patches ++ patches }
  return {
    experiment :=
      if experiment.name.isEmpty then experiment.withName defaultName else experiment
    documents := c.documents }

/-- Goes through the selections. -/
def collect (defaultName : String) (selections : List Selection) : Pass Generation := do
  let c ← selections.foldlM (take (Namer.ofSelections selections)) {}
  ExceptT.mk (pure (finish defaultName c))

/-- The size of the generated experiment. -/
def size (g : Generation) : ExperimentSize :=
  { parameters := g.experiment.parameters.length, metrics := g.experiment.metrics.length,
    patchTargets := g.experiment.patches.length }

end Generation

namespace Generator

open Generation

/-- Generates an experiment in a pass that takes a number of seconds, and counts the pass; one that
an overflow breaks off is not counted. -/
def generate (g : Generator) (seconds : Binary64) (selections : List Selection) :
    Pass Generation := fun counters =>
  match (collect g.defaultName selections).run counters with
  | (.ok generation, counters) =>
    (.ok generation, counters.observe seconds generation.size)
  | (.error failure, counters) =>
    (.error failure, if failure.isReturned then counters.fail else counters)

/-- Merges documents if that is asked for; documents that cannot be merged stay as they are. -/
def mergeIfAsked (g : Generator) (documents : List Value) : Pass (List Value) :=
  if g.mergeGenerated then
    match Resource.mergeAll documents with
    | .ok merged => pure merged
    | .error _ => do
      modify Counters.fallback
      pure documents
  else pure documents

/-- The resources of the application as they follow the generated documents. -/
def applicationResources (g : Generator) (scanned : List Value) : Except Failure (List Value) :=
  if g.includeApplicationResources then
    match Resource.annotateAll scanned with
    | (documents, .ok ()) => .ok documents
    | (_, .error failure) => .error failure
  else .ok []

/-- The documents of the output: the experiment, the documents that go with it, and the resources
of the application. -/
def documents (g : Generator) (seconds : Binary64) (scanned : List Value)
    (selections : List Selection) : Pass (List Value) := do
  let generation ← g.generate seconds selections
  let generated ← g.mergeIfAsked (generation.experiment.toValue :: generation.documents)
  let application ← ExceptT.mk (pure (g.applicationResources scanned))
  pure (generated ++ application)

end Generator

end ClusterTuning
