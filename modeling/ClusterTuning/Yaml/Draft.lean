import ClusterTuning.Yaml.Token

/-!
# Nodes as they stand in the text

A draft is the tree that the tokens of a document form.  An alias in it stands
for a node elsewhere in the document and is not replaced yet.
-/

namespace ClusterTuning.Yaml

/-- What the tag of a node says about it. -/
inductive Tag where
  | null
  | bool
  | int
  | float
  /-- A tag of the document's own. -/
  | named (name : String)
  /-- A tag of the document's own whose name is no text. -/
  | unreadable
  /-- A tag of another vocabulary. -/
  | foreign
deriving DecidableEq, Repr, Inhabited

/-- The kind of a tag that is written out in full. -/
def Tag.ofName (full : Escaped) : Tag :=
  match full.text with
  | '!' :: rest =>
    if !full.readable then .unreadable
    else .named (String.ofList (if rest = [] then ['!'] else rest))
  | text =>
    if text = "tag:yaml.org,2002:null".toList then .null
    else if text = "tag:yaml.org,2002:bool".toList then .bool
    else if text = "tag:yaml.org,2002:int".toList then .int
    else if text = "tag:yaml.org,2002:float".toList then .float
    else .foreign

/-- What comes before a node: its tag and the number of its anchor in the document. -/
structure Properties where
  anchor : Option Nat := none
  tag : Option Tag := none
deriving DecidableEq, Repr, Inhabited

/-- A node of a document, aliases unresolved. -/
inductive Draft where
  /-- Another mention of a node; the number is that of an anchor name. -/
  | mention (id : Nat)
  | scalar (properties : Properties) (style : ScalarStyle) (text : List Char)
  | sequence (properties : Properties) (items : List Draft)
  | mapping (properties : Properties) (entries : List (Draft × Draft))
deriving Repr, Inhabited

namespace Draft

/-- A scalar that is not there. -/
def empty : Draft :=
  scalar {} .plain []

mutual

/-- The number of scalars and aliases and of starts and ends of collections. -/
def extent : Draft → Nat
  | .mention _ => 1
  | .scalar _ _ _ => 1
  | .sequence _ xs => itemsExtent xs + 2
  | .mapping _ es => entriesExtent es + 2

/-- The extent of a list of nodes. -/
def itemsExtent : List Draft → Nat
  | [] => 0
  | x :: xs => extent x + itemsExtent xs

/-- The extent of a list of entries. -/
def entriesExtent : List (Draft × Draft) → Nat
  | [] => 0
  | (k, v) :: rest => extent k + extent v + entriesExtent rest

end

mutual

/-- The first node in the tree whose anchor has the given number. -/
def find? (anchor : Nat) : Draft → Option Draft
  | .mention _ => none
  | .scalar p style text => if p.anchor = some anchor then some (.scalar p style text) else none
  | .sequence p xs => if p.anchor = some anchor then some (.sequence p xs) else findItem? anchor xs
  | .mapping p es => if p.anchor = some anchor then some (.mapping p es) else findEntry? anchor es

/-- The first such node in a list of nodes. -/
def findItem? (anchor : Nat) : List Draft → Option Draft
  | [] => none
  | x :: xs => (find? anchor x).orElse fun _ => findItem? anchor xs

/-- The first such node in a list of entries. -/
def findEntry? (anchor : Nat) : List (Draft × Draft) → Option Draft
  | [] => none
  | (k, v) :: rest =>
    ((find? anchor k).orElse fun _ => find? anchor v).orElse fun _ => findEntry? anchor rest

end

end Draft

end ClusterTuning.Yaml
