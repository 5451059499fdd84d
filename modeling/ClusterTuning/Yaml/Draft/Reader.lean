import ClusterTuning.Yaml.Draft

/-!
# Reading drafts

The grammar of documents over tokens.  A node is an alias or, after its
properties, a scalar or a collection; where a node is missing an empty scalar
stands in its place.
-/

namespace ClusterTuning.Yaml.Draft

/-- The anchors of a document that have been read. -/
structure Anchors where
  /-- The number of each anchor name.  A name that is used again gets a new number. -/
  names : List (List Char × Nat) := []
  /-- The anchor that owns each number; of two anchors with one number the later one. -/
  owners : List (Nat × Nat) := []
  /-- The anchors so far. -/
  count : Nat := 0
deriving Repr, Inhabited

namespace Anchors

/-- The number of an anchor name. -/
def find? (anchors : Anchors) (name : List Char) : Option Nat :=
  (anchors.names.find? (·.1 == name)).map (·.2)

/-- Adds an anchor.  Its number is the number of names in use before. -/
def add (anchors : Anchors) (name : List Char) : Anchors :=
  let id := anchors.names.length
  { names := (name, id) :: anchors.names.filter (·.1 != name),
    owners := (id, anchors.count) :: anchors.owners,
    count := anchors.count + 1 }

end Anchors

/-- What has not been read yet and the anchors so far. -/
structure Input where
  tokens : List Token
  anchors : Anchors := {}
deriving Repr

/-- A reader of drafts. -/
abbrev Read := StateT Input (Except Fault)

/-- The handles of tags and what they stand for. -/
abbrev Handles := List (List Char × Escaped)

/-- The next token. -/
def peek : Read (Option Token) := do
  return (← get).tokens.head?

/-- Passes the next token. -/
def advance : Read Unit :=
  modify fun input => { input with tokens := input.tokens.tail }

/-! ## Properties -/

/-- The tag that a handle and a suffix name. -/
def readTag (handles : Handles) (handle : List Char) (suffix : Escaped) : Read Tag :=
  if handle = [] then return Tag.ofName suffix
  else match handles.find? (·.1 == handle) with
    | some (_, expansion) =>
      return Tag.ofName
        ⟨expansion.text ++ suffix.text, expansion.readable && suffix.readable⟩
    | none => throw .arrangement

/-- Adds an anchor and gives its place among the anchors of the document. -/
def addAnchor (name : List Char) : Read Nat := do
  let input ← get
  set { input with anchors := input.anchors.add name }
  return input.anchors.count

/-- An anchor and a tag, in either order, if they are there. -/
def readProperties (handles : Handles) : Read Properties := do
  match ← peek with
  | some (.anchor name) =>
    advance
    match ← peek with
    | some (.tag handle suffix) =>
      advance
      let tag ← readTag handles handle suffix
      return ⟨some (← addAnchor name), some tag⟩
    | _ => return ⟨some (← addAnchor name), none⟩
  | some (.tag handle suffix) =>
    advance
    let tag ← readTag handles handle suffix
    match ← peek with
    | some (.anchor name) =>
      advance
      return ⟨some (← addAnchor name), some tag⟩
    | _ => return ⟨none, some tag⟩
  | _ => return {}

/-! ## Nodes -/

/-- The tokens that follow the mark of an entry without a node. -/
def endsBlockEntry : Option Token → Bool
  | some .blockEntry => true
  | some .blockEnd => true
  | _ => false

/-- The tokens that follow a key or value mark without a node. -/
def endsBlockPair : Option Token → Bool
  | some .key => true
  | some .value => true
  | some .blockEnd => true
  | _ => false

mutual

/-- A node.  Between brackets there are no block collections, and only the keys and values of block
mappings may be sequences that are not indented. -/
def readNode (handles : Handles) : Nat → Bool → Bool → Read Draft
  | 0, _, _ => throw .arrangement
  | steps + 1, inBlock, inPair => do
    if let some (.mention name) := ← peek then
      advance
      match (← get).anchors.find? name with
      | some id => return .mention id
      | none => throw .anchor
    let properties ← readProperties handles
    match ← peek with
    | some (.scalar style text) =>
      advance
      return .scalar properties style text
    | some .flowSequenceStart =>
      advance
      return .sequence properties (← readFlowItems handles steps true)
    | some .flowMappingStart =>
      advance
      return .mapping properties (← readFlowPairs handles steps true)
    | some .blockSequenceStart =>
      if inBlock then
        advance
        return .sequence properties (← readBlockItems handles steps)
      else if properties = {} then throw .arrangement
      else return .scalar properties .plain []
    | some .blockMappingStart =>
      if inBlock then
        advance
        return .mapping properties (← readBlockPairs handles steps)
      else if properties = {} then throw .arrangement
      else return .scalar properties .plain []
    | some .blockEntry =>
      if inPair then return .sequence properties (← readPairItems handles steps)
      else if properties = {} then throw .arrangement
      else return .scalar properties .plain []
    | _ =>
      if properties = {} then throw .arrangement
      else return .scalar properties .plain []

/-- The entries of an indented sequence and its end. -/
def readBlockItems (handles : Handles) : Nat → Read (List Draft)
  | 0 => throw .arrangement
  | steps + 1 => do
    match ← peek with
    | some .blockEntry =>
      advance
      let item ←
        if endsBlockEntry (← peek) then pure Draft.empty else readNode handles steps true false
      return item :: (← readBlockItems handles steps)
    | some .blockEnd =>
      advance
      return []
    | _ => throw .arrangement

/-- The entries of a sequence that is not indented. -/
def readPairItems (handles : Handles) : Nat → Read (List Draft)
  | 0 => throw .arrangement
  | steps + 1 => do
    match ← peek with
    | some .blockEntry =>
      advance
      let next ← peek
      let item ←
        if endsBlockEntry next || endsBlockPair next then pure Draft.empty
        else readNode handles steps true false
      return item :: (← readPairItems handles steps)
    | _ => return []

/-- The value of an entry of a block mapping. -/
def readBlockValue (handles : Handles) : Nat → Read Draft
  | 0 => throw .arrangement
  | steps + 1 => do
    match ← peek with
    | some .value =>
      advance
      if endsBlockPair (← peek) then return Draft.empty else readNode handles steps true true
    | _ => return Draft.empty

/-- The entries of a block mapping and its end. -/
def readBlockPairs (handles : Handles) : Nat → Read (List (Draft × Draft))
  | 0 => throw .arrangement
  | steps + 1 => do
    match ← peek with
    | some .key =>
      advance
      let key ←
        if endsBlockPair (← peek) then pure Draft.empty else readNode handles steps true true
      let value ← readBlockValue handles steps
      return (key, value) :: (← readBlockPairs handles steps)
    | some .blockEnd =>
      advance
      return []
    | _ => throw .arrangement

/-- The items between square brackets and the closing bracket. -/
def readFlowItems (handles : Handles) : Nat → Bool → Read (List Draft)
  | 0, _ => throw .arrangement
  | steps + 1, isFirst => do
    if (← peek) == some .flowSequenceEnd then
      advance
      return []
    if !isFirst then
      if (← peek) == some .flowEntry then advance else throw .arrangement
    match ← peek with
    | some .flowSequenceEnd =>
      advance
      return []
    | some .key =>
      advance
      let pair ← readSinglePair handles steps
      return .mapping {} [pair] :: (← readFlowItems handles steps false)
    | _ =>
      let item ← readNode handles steps false false
      return item :: (← readFlowItems handles steps false)

/-- A key and its value among the items between square brackets, after the mark of the key.  Where
the key is missing the token in its place is passed. -/
def readSinglePair (handles : Handles) : Nat → Read (Draft × Draft)
  | 0 => throw .arrangement
  | steps + 1 => do
    let next ← peek
    let key ←
      if next == some .value || next == some .flowEntry || next == some .flowSequenceEnd then
        do advance; pure Draft.empty
      else readNode handles steps false false
    if (← peek) == some .value then
      advance
      let next ← peek
      if next == some .flowEntry || next == some .flowSequenceEnd then return (key, Draft.empty)
      else return (key, ← readNode handles steps false false)
    else return (key, Draft.empty)

/-- The entries between curly brackets and the closing bracket. -/
def readFlowPairs (handles : Handles) : Nat → Bool → Read (List (Draft × Draft))
  | 0, _ => throw .arrangement
  | steps + 1, isFirst => do
    if (← peek) == some .flowMappingEnd then
      advance
      return []
    if !isFirst then
      if (← peek) == some .flowEntry then advance else throw .arrangement
    match ← peek with
    | some .flowMappingEnd =>
      advance
      return []
    | some .key =>
      advance
      let next ← peek
      let key ←
        if next == some .value || next == some .flowEntry || next == some .flowMappingEnd then
          pure Draft.empty
        else readNode handles steps false false
      let value ←
        if (← peek) == some .value then
          do
            advance
            let next ← peek
            if next == some .flowEntry || next == some .flowMappingEnd then pure Draft.empty
            else readNode handles steps false false
        else pure Draft.empty
      return (key, value) :: (← readFlowPairs handles steps false)
    | _ =>
      let key ← readNode handles steps false false
      return (key, Draft.empty) :: (← readFlowPairs handles steps false)

end

/-! ## Documents -/

/-- A document: its root and the anchor that each number belongs to in the end. -/
structure Document where
  root : Draft
  owners : List (Nat × Nat)
deriving Repr, Inhabited

/-- The handles that every document has. -/
def standardHandles : Handles :=
  [(['!'], ⟨['!'], true⟩), (['!', '!'], ⟨"tag:yaml.org,2002:".toList, true⟩)]

/-- The directives before a document.  The version is given once at most, and it is 1.1 or 1.2; so is
each handle. -/
def readDirectives : Nat → Bool → Handles → Read Handles
  | 0, _, _ => throw .arrangement
  | steps + 1, hasVersion, handles => do
    match ← peek with
    | some (.version major minor) =>
      if hasVersion || major != 1 || !(minor == 1 || minor == 2) then throw .arrangement
      advance
      readDirectives steps true handles
    | some (.tagDirective handle expansion) =>
      if handles.any (·.1 == handle) then throw .arrangement
      advance
      readDirectives steps hasVersion ((handle, expansion) :: handles)
    | _ =>
      return handles.reverse ++ standardHandles

/-- Whether a token begins or ends a document. -/
def bordersDocument : Option Token → Bool
  | none => true
  | some (.version _ _) => true
  | some (.tagDirective _ _) => true
  | some .documentStart => true
  | some .documentEnd => true
  | _ => false

/-- Passes the marks of a document end. -/
def passEnds : Nat → Read Unit
  | 0 => pure ()
  | steps + 1 => do
    if (← peek) == some .documentEnd then
      advance
      passEnds steps

/-- The documents of a stream.  Only the first one may start without a mark. -/
def readDocuments : Nat → Bool → Read (List Document)
  | 0, _ => throw .arrangement
  | steps + 1, isFirst => do
    modify fun input => { input with anchors := {} }
    let size := (← get).tokens.length
    if !isFirst then passEnds size
    match ← peek with
    | none => return []
    | some next =>
      let bare := isFirst && (!bordersDocument (some next) || next == .documentEnd)
      let root ←
        if bare then readNode standardHandles (2 * size + 2) true false
        else do
          let handles ← readDirectives (size + 1) false []
          if (← peek) == some .documentStart then advance else throw .arrangement
          if bordersDocument (← peek) then pure Draft.empty
          else readNode handles (2 * size + 2) true false
      if (← peek) == some .documentEnd then advance
      let owners := (← get).anchors.owners
      return ⟨root, owners⟩ :: (← readDocuments steps false)

/-- The documents that a list of tokens forms. -/
def ofTokens (tokens : List Token) : Except Fault (List Document) := do
  let (documents, _) ← (readDocuments (tokens.length + 1) true).run { tokens }
  return documents

end ClusterTuning.Yaml.Draft
