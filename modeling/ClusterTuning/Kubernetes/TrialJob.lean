import ClusterTuning.Yaml.Record

/-!
# Trial jobs

The objects from which the job of a trial is made: metadata, containers, pods and
jobs.  The parts that a generation reads or changes have fields of their own;
everything else is kept as it is written.  Which other fields there are, and how
they are read, is up to the library that knows the objects of a cluster: its
reader is a parameter.
-/

namespace ClusterTuning

open Yaml

/-! ## Fields -/

/-- Fields of an object and their values. -/
abbrev Fields := List (String × Value)

namespace Fields

/-- The object with the given fields. -/
def toValue (fields : Fields) : Value :=
  .mapping (fields.map fun field => (.string field.1, field.2))

/-- Puts a field at its place in the order of names. -/
def insert (name : String) (value : Value) (fields : Fields) : Fields :=
  SortedMap.insert compare name value fields

/-- Puts a field at its place if it has a value. -/
def insert? (name : String) (value : Option Value) (fields : Fields) : Fields :=
  match value with
  | some value => fields.insert name value
  | none => fields

end Fields

/-! ## Objects -/

/-- The metadata of an object. -/
structure ObjectMeta where
  name : Option String := none
  details : Fields := []
deriving Repr, Inhabited

/-- A container of a pod. -/
structure Container where
  name : String := ""
  image : Option String := none
  details : Fields := []
deriving Repr, Inhabited

/-- The specification of a pod. -/
structure PodSpec where
  containers : List Container := []
  details : Fields := []
deriving Repr, Inhabited

/-- What the pods of a job look like. -/
structure PodTemplate where
  metadata : Option ObjectMeta := none
  spec : Option PodSpec := none
deriving Repr, Inhabited

/-- The specification of a job. -/
structure JobSpec where
  template : PodTemplate := {}
  details : Fields := []
deriving Repr, Inhabited

/-- What the jobs of an experiment look like. -/
structure JobTemplate where
  metadata : Option ObjectMeta := none
  spec : Option JobSpec := none
deriving Repr, Inhabited

/-! ## Writing -/

/-- The value that is written. -/
def ObjectMeta.toValue (m : ObjectMeta) : Value :=
  (m.details.insert? "name" (m.name.map .string)).toValue

/-- The value that is written. -/
def Container.toValue (c : Container) : Value :=
  ((c.details.insert? "image" (c.image.map .string)).insert "name" (.string c.name)).toValue

/-- The value that is written. -/
def PodSpec.toValue (p : PodSpec) : Value :=
  (p.details.insert "containers" (.sequence (p.containers.map Container.toValue))).toValue

/-- The value that is written. -/
def PodTemplate.toValue (t : PodTemplate) : Value :=
  Value.record [
    t.metadata.map fun m => ("metadata", m.toValue),
    t.spec.map fun s => ("spec", s.toValue)]

/-- The value that is written. -/
def JobSpec.toValue (j : JobSpec) : Value :=
  (j.details.insert "template" j.template.toValue).toValue

/-- The value that is written. -/
def JobTemplate.toValue (t : JobTemplate) : Value :=
  Value.record [
    t.metadata.map fun m => ("metadata", m.toValue),
    t.spec.map fun s => ("spec", s.toValue)]

/-! ## Reading -/

/-- How a library of cluster objects reads them.  A generation reads three kinds of them from
documents; the others are parts of these. -/
structure ClusterReader where
  metadata : Node → Except Fault ObjectMeta
  podTemplate : Node → Except Fault PodTemplate
  jobTemplate : Node → Except Fault JobTemplate

end ClusterTuning
