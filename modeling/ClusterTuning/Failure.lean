import ClusterTuning.Path
import ClusterTuning.Reference
import ClusterTuning.Selector

/-!
# Failures of a generation

Every way in which generating an experiment, or writing its documents, can go
wrong, and the message for each of them.  A failure to read or write a document
carries no message of its own.  An overflow is of another kind: it is not
returned, but breaks off whatever is going on.
-/

namespace ClusterTuning

/-- Why documents cannot be merged. -/
inductive MergeFault where
  | noMetadata
  | noName
deriving DecidableEq, Repr

/-- What a merge fault says. -/
def MergeFault.reason : MergeFault → String
  | noMetadata => "resource has no metadata"
  | noName => "resource has no name"

/-- Why a document cannot be annotated. -/
inductive AnnotationFault where
  | notMapping
  | invalidMetadata
  | invalidAnnotations
deriving DecidableEq, Repr

/-- What an annotation fault says. -/
def AnnotationFault.reason : AnnotationFault → String
  | notMapping => "is not a mapping"
  | invalidMetadata => "has invalid metadata"
  | invalidAnnotations => "has invalid annotations"

/-- A failure of the generation of an experiment. -/
inductive Failure where
  /-- A selection could not make its contribution. -/
  | selection (reason : String)
  /-- A path cannot be followed or created in a patch. -/
  | path (fault : Path.Fault)
  /-- A label selector cannot be read. -/
  | selector (text : String) (fault : Selector.Fault)
  /-- The text of a quantity cannot be read. -/
  | quantity (text : String)
  /-- Two edits ask for different patch strategies for one target. -/
  | strategyConflict (target : Reference) (existing requested : PatchStrategy)
  /-- A document cannot be read or written. -/
  | document
  /-- A document of the output stream cannot be annotated. -/
  | annotating (position : Nat) (fault : AnnotationFault)
  /-- The documents of the output stream cannot be merged. -/
  | merging (fault : MergeFault)
  /-- An operation on integers of 64 bits has left their range, and the computation ends there
  without a result. -/
  | overflow
deriving DecidableEq, Repr

namespace Failure

/-- Whether a failure is returned to the caller, who can count and report it. -/
def isReturned : Failure → Bool
  | overflow => false
  | _ => true

/-- The message of a failure; failures of reading and writing documents have none, nor has an
overflow. -/
def message? : Failure → Option String
  | selection reason => some ("selection failed: " ++ reason)
  | path fault => some ("invalid field path " ++ Text.quoted fault.subject ++ ": " ++ fault.reason)
  | selector text fault =>
    some ("invalid label selector " ++ Text.quoted text ++ ": " ++ fault.reason)
  | quantity text => some ("invalid quantity " ++ Text.quoted text)
  | strategyConflict target existing requested =>
    some ("conflicting patch types for " ++ target.display ++ ": " ++ existing.name ++ " and " ++
      requested.name)
  | document => none
  | annotating position fault =>
    some ("cannot annotate resource: document " ++ intText position ++ " " ++ fault.reason)
  | merging fault => some ("cannot merge resources: " ++ fault.reason)
  | overflow => none

end Failure

/-- The result of an operation on integers of 64 bits: the exact one, where it is in their range. -/
def checkedInt64 (n : Int) : Except Failure Int :=
  if fitsInt64 n then .ok n else .error .overflow

theorem checkedInt64_eq_ok {n : Int} (low : minInt64 ≤ n) (high : n ≤ maxInt64) :
    checkedInt64 n = .ok n :=
  if_pos ((fitsInt64_iff n).2 ⟨low, high⟩)

theorem checkedInt64_eq_overflow {n : Int} (h : maxInt64 < n) : checkedInt64 n = .error .overflow :=
  if_neg fun hfits => absurd ((fitsInt64_iff n).1 hfits).2 (by omega)

/-- A failing path is a failure of the generation. -/
def Path.read (segments : List String) : Except Failure (List Segment) :=
  (Path.parse segments).mapError .path

/-- A failing selector is a failure of the generation. -/
def LabelSelector.read (text : String) : Except Failure LabelSelector :=
  (Selector.parse text).mapError (.selector text)

end ClusterTuning
