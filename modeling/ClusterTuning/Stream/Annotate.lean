import ClusterTuning.Failure
import ClusterTuning.Yaml.Value

/-!
# Annotating application resources

Resources that are passed on without being managed carry an annotation that says
so.  Documents are annotated in place, one after the other, up to the first one that
cannot be; missing metadata and annotations are made on the way.
-/

namespace ClusterTuning.Resource

open Yaml

/-- The key of the annotation that resources get when they are passed on. -/
def formattingKey : String := "config.kubernetes.io/formatting"

/-- The value of that annotation. -/
def formattingNone : String := "none"

/-- The entries with the mapping under a key changed, which is made if it is absent or null. -/
def alterChild (key : String) (fault : AnnotationFault)
    (change : List (Value × Value) → Except AnnotationFault (List (Value × Value)))
    (entries : List (Value × Value)) : Except AnnotationFault (List (Value × Value)) :=
  let found := (Mapping.getText? key entries).getD .null
  let child := if found.isNull then .mapping [] else found
  match child.asMapping? with
  | none => .error fault
  | some inner => (change inner).map fun inner =>
      Mapping.insert (.string key) (child.withUntagged (.mapping inner)) entries

/-- The document with the annotation. -/
def annotated (document : Value) : Except AnnotationFault Value :=
  match document.asMapping? with
  | none => .error .notMapping
  | some resource =>
    (alterChild "metadata" .invalidMetadata
      (alterChild "annotations" .invalidAnnotations fun annotations =>
        .ok (Mapping.insert (.string formattingKey) (.string formattingNone) annotations))
      resource).map fun entries => document.withUntagged (.mapping entries)

/-! ## In place -/

/-- Changes the mapping under a key in place: a key that is absent or null is given a mapping without
entries before its value is looked at.  The result is the entries left behind, also where there is no
mapping to change or the change fails. -/
def enterChild (key : String) (fault : AnnotationFault)
    (change : List (Value × Value) → List (Value × Value) × Except AnnotationFault Unit)
    (entries : List (Value × Value)) : List (Value × Value) × Except AnnotationFault Unit :=
  let opened := Mapping.alter (.string key)
    (fun found => if (found.getD .null).isNull then .mapping [] else found.getD .null) entries
  let child := (Mapping.getText? key opened).getD .null
  match child.asMapping? with
  | none => (opened, .error fault)
  | some inner =>
    let (inner, result) := change inner
    (Mapping.insert (.string key) (child.withUntagged (.mapping inner)) opened, result)

/-- Annotates a document in place.  The result is the document left behind, also when it cannot be
annotated. -/
def annotate (document : Value) : Value × Except AnnotationFault Unit :=
  match document.asMapping? with
  | none => (document, .error .notMapping)
  | some resource =>
    let (resource, result) :=
      enterChild "metadata" .invalidMetadata
        (enterChild "annotations" .invalidAnnotations fun annotations =>
          (Mapping.insert (.string formattingKey) (.string formattingNone) annotations,
            .ok ()))
        resource
    (document.withUntagged (.mapping resource), result)

/-- Annotates documents in turn, the first of which has the given position in the stream.  The
result is what is left of them, also when one cannot be annotated. -/
def annotateFrom (position : Nat) : List Value → List Value × Except Failure Unit
  | [] => ([], .ok ())
  | document :: rest =>
    match annotate document with
    | (document, .error fault) => (document :: rest, .error (.annotating position fault))
    | (document, .ok ()) =>
      let (documents, result) := annotateFrom (position + 1) rest
      (document :: documents, result)

/-- Annotates all documents. -/
def annotateAll (documents : List Value) : List Value × Except Failure Unit :=
  annotateFrom 0 documents

end ClusterTuning.Resource
