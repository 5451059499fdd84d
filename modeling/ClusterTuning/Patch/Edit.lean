import ClusterTuning.Failure
import ClusterTuning.Yaml.Value

/-!
# Edits of documents

An edit sets the value at the end of a path.  Following the path makes what is
missing: null becomes a mapping or a sequence, a new field starts as null, and a
keyed list entry that is not there is added.  A path that cannot be followed to
its end leaves behind what was made on the way.
-/

namespace ClusterTuning

open Yaml

/-! ## Parts of collections -/

namespace Yaml.Value

/-- The value of the entry of a collection at a position. -/
def part (v : Value) (position : Nat) : Value :=
  match v with
  | .mapping entries => ((entries[position]?).map (·.2)).getD .null
  | .sequence items => (items[position]?).getD .null
  | _ => .null

/-- The collection with the value of the entry at a position replaced. -/
def setPart (v : Value) (position : Nat) (new : Value) : Value :=
  match v with
  | .mapping entries => .mapping (entries.modify position fun entry => (entry.1, new))
  | .sequence items => .sequence (items.set position new)
  | v => v

/-- The text of a scalar that can identify a list entry. -/
def label? : Value → Option String
  | .string s => some s
  | .number n => some n.text
  | .bool b => some (boolText b)
  | _ => none

/-- The collection in place of a value that is null. -/
def orNew (v new : Value) : Value :=
  if v.isNull then new else v

end Yaml.Value

/-! ## Descending -/

namespace Segment

/-- Whether a list entry is the one that a keyed segment addresses. -/
def matches? (key value : String) (item : Value) : Bool :=
  (if key.isEmpty then some item else item.get? key).bind Value.label? == some value

/-- The list entry that a keyed segment makes. -/
def newEntry (key value : String) : Value :=
  if key.isEmpty then .string value else .mapping [(.string key, .string value)]

/-- The collection in which the segment finds its entry, which is made if it is missing, and the
position of that entry. -/
def ensure (v : Value) : Segment → Except Path.Fault (Value × Nat)
  | .field name =>
    match v.orNew (.mapping []) with
    | .mapping entries =>
      match Mapping.position? (.string name) entries with
      | some position => .ok (.mapping entries, position)
      | none => .ok (.mapping (entries ++ [(.string name, .null)]), entries.length)
    | _ => .error (.notMapping (.field name))
  | .keyed key value =>
    match v.orNew (.sequence []) with
    | .sequence items =>
      match items.findIdx? (matches? key value) with
      | some position => .ok (.sequence items, position)
      | none => .ok (.sequence (items ++ [newEntry key value]), items.length)
    | _ => .error (.notSequence (.keyed key value))
  | .index position =>
    match v with
    | .sequence items =>
      if position < items.length then .ok (v, position) else .error (.noEntry (.index position))
    | _ => .error (.noEntry (.index position))

end Segment

/-- Follows a path and changes the value at its end.  The result is the document left behind and
the value that was found, before the change. -/
def Path.follow (change : Value → Value) :
    List Segment → Value → Value × Except Path.Fault Value
  | [], v => (change v, .ok v)
  | segment :: rest, v =>
    match segment.ensure v with
    | .error fault => (v, .error fault)
    | .ok (collection, position) =>
      let (child, found) := follow change rest (collection.part position)
      (collection.setPart position child, found)

/-- Finds the value at the end of a path, making what is missing. -/
def Path.lookup (path : List Segment) (document : Value) : Value × Except Path.Fault Value :=
  Path.follow id path document

/-! ## Edits -/

/-- A change of a document. -/
inductive Edit where
  /-- Sets the value at the end of a path. -/
  | set (path : List Segment) (value : Value)
  /-- Any other change: for a document, the one left behind and whether the change succeeded. -/
  | run (change : Value → Value × Except Failure Unit)
  /-- Several edits, one after the other. -/
  | chain (edits : List Edit)
deriving Inhabited

namespace Edit

/-- The edit that refuses to change anything. -/
def fail (failure : Failure) : Edit :=
  .run fun document => (document, .error failure)

/-- The edit that sets the value at a path, given by its segments; the document as a whole cannot
be replaced. -/
def ofPath (segments : List String) (value : Value) : Except Failure Edit :=
  if segments.isEmpty then .error (.path .wholeDocument)
  else (Path.read segments).map fun path => .set path value

mutual

/-- Applies an edit.  The result is the document left behind, also when the edit fails. -/
def apply (document : Value) : Edit → Value × Except Failure Unit
  | .set path value =>
    let (document, found) := Path.follow (fun _ => value) path document
    (document, (found.mapError .path).map fun _ => ())
  | .run change => change document
  | .chain edits => applyAll document edits

/-- Applies edits one after the other, up to the first one that fails. -/
def applyAll (document : Value) : List Edit → Value × Except Failure Unit
  | [] => (document, .ok ())
  | edit :: rest =>
    match apply document edit with
    | (document, .ok ()) => applyAll document rest
    | (document, .error failure) => (document, .error failure)

end

end Edit

end ClusterTuning
