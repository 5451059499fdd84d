import ClusterTuning.Patch.Edit
import ClusterTuning.Patch.Placeholder
import ClusterTuning.SortedMap
import ClusterTuning.Yaml.Printer

/-!
# Patches

The edits of every target are collected in the order in which they come, and
targets are kept in the order of their references.  Each target then gives one
patch: its edits applied in turn to an empty mapping.
-/

namespace ClusterTuning

open Yaml

/-- The patch for one resource, as it stands in an experiment. -/
structure PatchTemplate where
  strategy : Option PatchStrategy := none
  patch : String
  target : Option Reference := none
deriving DecidableEq, Repr, Inhabited

/-- The edits of one target and the strategy that they ask for. -/
structure TargetEdits where
  strategy : Option PatchStrategy := none
  edits : List Edit := []
deriving Inhabited

/-- The text of the patch that a list of edits makes. -/
def Edit.render (edits : List Edit) : Except Failure String :=
  match Edit.applyAll (.mapping []) edits with
  | (_, .error failure) => .error failure
  | (document, .ok ()) => (document.write.mapError fun _ => .document).map Placeholder.bareInts

/-- The edits of every target, in the order of the targets. -/
structure PatchSet where
  targets : List (Reference × TargetEdits) := []
deriving Inhabited

namespace PatchSet

/-- The strategy of a target after one more request for it; two different strategies exclude each
other. -/
def joinStrategy (target : Reference) (existing requested : Option PatchStrategy) :
    Except Failure (Option PatchStrategy) :=
  match existing, requested with
  | some a, some b => if a = b then .ok (some a) else .error (.strategyConflict target a b)
  | some a, none => .ok (some a)
  | none, requested => .ok requested

/-- Adds an edit to those of a target. -/
def add (patches : PatchSet) (target : Reference) (strategy : Option PatchStrategy) (edit : Edit) :
    Except Failure PatchSet := do
  let before := (SortedMap.get? Reference.order target patches.targets).getD {}
  let strategy ← joinStrategy target before.strategy strategy
  return ⟨SortedMap.insert Reference.order target
    { strategy, edits := before.edits ++ [edit] } patches.targets⟩

/-- What the set holds for a target: no edits if it has no entry. -/
def contents (target : Reference) (patches : PatchSet) : TargetEdits :=
  (SortedMap.get? Reference.order target patches.targets).getD {}

/-- The set with the entry of a target changed, which is made if there is none. -/
def modify (target : Reference) (change : TargetEdits → TargetEdits) (patches : PatchSet) :
    PatchSet :=
  ⟨SortedMap.alter Reference.order target (fun entry => change (entry.getD {})) patches.targets⟩

/-- Adds an edit to those of a target in place: the target gets its entry, the entry its strategy,
and then its edit.  The result is the set that is left behind, also when the strategy does not fit
that of the entry. -/
def push (patches : PatchSet) (target : Reference) (strategy : Option PatchStrategy) (edit : Edit) :
    PatchSet × Except Failure Unit :=
  let entered := patches.modify target id
  match joinStrategy target (entered.contents target).strategy strategy with
  | .error failure => (entered, .error failure)
  | .ok strategy =>
    let typed := entered.modify target fun entry => { entry with strategy }
    (typed.modify target fun entry => { entry with edits := entry.edits ++ [edit] }, .ok ())

/-- The patch of one target. -/
def template (entry : Reference × TargetEdits) : Except Failure PatchTemplate :=
  (Edit.render entry.2.edits).map fun patch =>
    { strategy := entry.2.strategy, patch, target := some entry.1 }

/-- The patches of all targets. -/
def render (patches : PatchSet) : Except Failure (List PatchTemplate) :=
  patches.targets.mapM template

end PatchSet

end ClusterTuning
