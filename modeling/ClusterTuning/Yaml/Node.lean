import ClusterTuning.Yaml.Draft.Reader
import ClusterTuning.Yaml.Token.Reader

/-!
# Nodes of documents

The tree of a document with every alias replaced by the node it mentions.  Nodes
beyond the limits of nesting and repetition are kept as excess; they are a fault
only where they are looked at.
-/

namespace ClusterTuning.Yaml

/-- A node of a document. -/
inductive Node where
  | scalar (tag : Option Tag) (style : ScalarStyle) (text : String)
  | sequence (tag : Option Tag) (items : List Node)
  | mapping (tag : Option Tag) (entries : List (Node × Node))
  /-- The root of a stream without documents. -/
  | absent
  /-- A node beyond the limits. -/
  | excess
deriving Repr, Inhabited

namespace Node

/-! ## Aliases -/

/-- Collections may be nested this deep. -/
def depthLimit : Nat := 128

/-- Aliases may be followed this many times for every unit of a document's extent. -/
def repetitionFactor : Nat := 100

/-- The node that an alias mentions. -/
def target? (document : Draft.Document) (id : Nat) : Option Draft :=
  (document.owners.find? (·.1 == id)).bind fun owner => document.root.find? owner.2

/-- Replaces the aliases in a draft.  The state counts the aliases that were followed. -/
def ofDraft (target? : Nat → Option Draft) (limit : Nat) : Nat → Draft → StateM Nat Node
  | depth, draft => do
    let draft ← match draft with
      | .mention id => do
        modify (· + 1)
        if limit < (← get) then pure none else pure (target? id)
      | other => pure (some other)
    match draft, depth with
    | some (.scalar p style text), _ => return .scalar p.tag style (String.ofList text)
    | some (.sequence p items), depth + 1 =>
      return .sequence p.tag (← items.mapM (ofDraft target? limit depth))
    | some (.mapping p entries), depth + 1 =>
      return .mapping p.tag (← entries.mapM fun entry => do
        return (← ofDraft target? limit depth entry.1, ← ofDraft target? limit depth entry.2))
    | _, _ => return .excess

/-- The tree of a document. -/
def ofDocument (document : Draft.Document) : Node :=
  ((ofDraft (target? document) (repetitionFactor * document.root.extent) depthLimit
    document.root).run 0).1

/-! ## Streams -/

/-- The roots of the documents in a text; a text without documents has one absent root. -/
def readStream (text : String) : Except Fault (List Node) := do
  let documents ← Draft.ofTokens (← Token.readAll text.toList)
  if documents.isEmpty then return [.absent] else return documents.map ofDocument

/-- The root of the one document in a text. -/
def read (text : String) : Except Fault Node := do
  match ← readStream text with
  | [root] => return root
  | _ => throw .severalDocuments

end Node

end ClusterTuning.Yaml
