import ClusterTuning.Path
import ClusterTuning.Reference
import ClusterTuning.SortedMap
import ClusterTuning.Text.LetterCase

/-!
# Names of parameters

A parameter is named after the field it sets.  The kind and the name of the
resource come before it only when several kinds, or several resources of a kind,
are tuned together, and the values of keyed list entries only when the same
resource is selected more than once.
-/

namespace ClusterTuning

/-- What names are made from: how often resources are selected. -/
@[ext]
structure Namer where
  /-- The number of selections by kind and name. -/
  counts : Dictionary (Dictionary Nat)
deriving DecidableEq, Repr, Inhabited

namespace Namer

/-- The namer for no selections. -/
def empty : Namer :=
  ⟨.empty⟩

/-- Counts one more selection of a resource. -/
def select (namer : Namer) (target : Reference) : Namer :=
  ⟨namer.counts.alter target.kind fun names =>
    (names.getD .empty).alter target.name fun n => n.getD 0 + 1⟩

/-- The namer for the targets of the selections. -/
def ofTargets (targets : List Reference) : Namer :=
  targets.foldl select empty

/-- Resources of more than one kind are selected. -/
def needsKind (namer : Namer) : Bool :=
  1 < namer.counts.size

/-- Two resources of one kind with different names are selected. -/
def needsName (namer : Namer) : Bool :=
  namer.counts.entries.any fun (_, names) => 1 < names.size

/-- How often a resource is selected, if it is selected at all. -/
def count? (namer : Namer) (target : Reference) : Option Nat :=
  (namer.counts.get? target.kind).bind (·.get? target.name)

/-- How often a resource is selected. -/
def selectionCount (namer : Namer) (target : Reference) : Nat :=
  (namer.count? target).getD 0

/-- The values of the keyed list entries on a path, without empty ones. -/
def entryValues (path : List String) : List (List Char) :=
  path.filterMap fun segment =>
    (Path.splitKeyed? segment.toList).bind fun cut => if cut.2 = [] then none else some cut.2

/-- The parts of a name, from the kind to the field itself. -/
def parts (namer : Namer) (target : Reference) (path : List String) (leaf : String) :
    List (List Char) :=
  (if namer.needsKind then [Text.lowercase target.kind.toList] else []) ++
    (if namer.needsName then Text.pieces '-' target.name.toList else []) ++
    (if 1 < namer.selectionCount target then entryValues path else []) ++
    [leaf.toList]

/-- The name of the parameter for a field of a resource. -/
def name (namer : Namer) (target : Reference) (path : List String) (leaf : String) : String :=
  String.ofList (Text.glue '_' (namer.parts target path leaf))

end Namer

end ClusterTuning
