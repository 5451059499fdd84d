import ClusterTuning.Failure
import ClusterTuning.Yaml.Value

/-!
# Merging the resources of a stream

Documents about the same resource become one document, at the place of the first
of them.  Mappings are merged field by field, null removes a field, and lists of
named entries are merged entry by entry; anything else is replaced.
-/

namespace ClusterTuning

open Yaml

/-! ## Values -/

namespace Yaml.Value

/-- The name of a list entry. -/
def entryName? (item : Value) : Option String :=
  (item.get? "name").bind Value.asString?

/-- Whether a list has entries and all of them are named. -/
def allNamed (items : List Value) : Bool :=
  !items.isEmpty && items.all fun item => item.entryName?.isSome

/-- Replaces the first entry of a name by a function of it; a new one goes to the end. -/
def alterNamed (name : String) (change : Option Value → Value) : List Value → List Value
  | [] => [change none]
  | x :: rest =>
    if x.entryName? = some name then change (some x) :: rest
    else x :: alterNamed name change rest

mutual

/-- The value that comes out when the second value is merged onto the first one. -/
def merge (target : Value) : Value → Value
  | .mapping source =>
    match target with
    | .mapping entries => .mapping (mergeEntries entries source)
    | _ => .mapping source
  | .sequence source =>
    match target with
    | .sequence items =>
      if allNamed items && allNamed source then .sequence (mergeNamed items source)
      else .sequence source
    | _ => .sequence source
  | .null => .null
  | .bool b => .bool b
  | .number n => .number n
  | .string s => .string s
  | .tagged t v => .tagged t v

/-- The entries of a mapping after those of another one are merged onto them in turn. -/
def mergeEntries (target : List (Value × Value)) :
    List (Value × Value) → List (Value × Value)
  | [] => target
  | (key, value) :: rest =>
    mergeEntries
      (if value.isNull then Mapping.remove key target
        else Mapping.alter key (fun
          | some existing => merge existing value
          | none => value) target)
      rest

/-- The entries of a list of named entries after those of another one are merged onto them in
turn. -/
def mergeNamed (target : List Value) : List Value → List Value
  | [] => target
  | item :: rest =>
    mergeNamed
      (match item.entryName? with
        | some name => alterNamed name (fun
            | some existing => merge existing item
            | none => item) target
        | none => target ++ [item])
      rest

end

end Yaml.Value

/-! ## Resources -/

namespace Resource

/-- The text under a key; anything else than a text counts as empty. -/
def textField (v : Value) (key : String) : String :=
  ((v.get? key).bind Value.asString?).getD ""

/-- The identity of the resource that a document describes. -/
def identity (document : Value) : Except MergeFault Reference :=
  match (document.get? "metadata").filter fun m => m.asMapping?.isSome with
  | none => .error .noMetadata
  | some metadata =>
    if (textField metadata "name").isEmpty then .error .noName
    else .ok
      { apiVersion := textField document "apiVersion", kind := textField document "kind",
        «namespace» := textField metadata "namespace", name := textField metadata "name" }

/-- Merges a document onto the one of the same identity, or adds it at the end. -/
def collect (identity : Reference) (document : Value) :
    List (Reference × Value) → List (Reference × Value)
  | [] => [(identity, document)]
  | (i, d) :: rest =>
    if i = identity then (i, d.merge document) :: rest
    else (i, d) :: collect identity document rest

/-- Merges the documents about the same resources. -/
def mergeAll (documents : List Value) : Except Failure (List Value) := do
  let identified ← (documents.mapM fun d => (identity d).map fun i => (i, d)).mapError
    Failure.merging
  return (identified.foldl (fun merged entry => collect entry.1 entry.2 merged) []).map (·.2)

end Resource

end ClusterTuning
