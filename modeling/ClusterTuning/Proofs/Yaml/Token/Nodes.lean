import ClusterTuning.Proofs.Yaml.Token.Keys

/-!
# Nodes are read back

A node is written where a collection stands open around it, and the reader gets
from there to the next token of that collection, with the tokens of the node and
all collections in it closed.

* `nodeTokens` — the tokens that a node is read as;
* `Reader.Passes` — how the reader gets past a text;
* `Reader.PassesNode` — what a node is to the collection around it;
* `Reader.passesNode_scalar`, `Reader.passesNode_brackets` — the nodes on one line.
-/

namespace ClusterTuning.Yaml

/-! ## Data -/

/-- A value built from null, truth values, integers of 64 bits, texts, sequences and mappings of
texts to values, nested to a given depth at most.  No mapping has a key twice. -/
inductive Value.IsData : Nat → Value → Prop where
  | null (depth : Nat) : IsData depth .null
  | bool (depth : Nat) (b : Bool) : IsData depth (.bool b)
  | integer (depth : Nat) {n : Int} (h : Scalar.fits64 n = true) :
    IsData depth (.number (.integer n))
  | string (depth : Nat) (s : String) : IsData depth (.string s)
  | sequence {depth : Nat} {items : List Value} (h : ∀ x ∈ items, IsData depth x) :
    IsData (depth + 1) (.sequence items)
  | mapping {depth : Nat} {entries : List (Value × Value)}
    (hkeys : ∀ e ∈ entries, ∃ s, e.1 = .string s)
    (hdistinct : entries.Pairwise fun e e' => e.1 ≠ e'.1)
    (hvalues : ∀ e ∈ entries, IsData depth e.2) : IsData (depth + 1) (.mapping entries)

namespace Token

open Printer (Style Place)

/-! ## The tokens of a node -/

/-- Whether a key stands on the line of its value. -/
def isSimpleKey (key : Value) : Bool :=
  (Printer.simpleKey? 0 key).isSome

mutual

/-- The tokens of a node.  A sequence below a key on the same line has no marks at its ends. -/
def nodeTokens (belowKey : Bool) : Value → List Token
  | .tagged _ v => nodeTokens belowKey v
  | .sequence [] => [.flowSequenceStart, .flowSequenceEnd]
  | .sequence (x :: xs) =>
    let items := .blockEntry :: (nodeTokens false x ++ itemTokens xs)
    if belowKey then items else .blockSequenceStart :: (items ++ [.blockEnd])
  | .mapping [] => [.flowMappingStart, .flowMappingEnd]
  | .mapping ((k, v) :: rest) =>
    .blockMappingStart :: (.key :: (nodeTokens false k ++ .value ::
      (nodeTokens (isSimpleKey k) v ++ entryTokens rest)) ++ [.blockEnd])
  | v => match Printer.scalar? v with
    | some (style, s) => [.scalar (scalarStyle style) s]
    | none => []

/-- The tokens of items after the first one. -/
def itemTokens : List Value → List Token
  | [] => []
  | x :: xs => .blockEntry :: (nodeTokens false x ++ itemTokens xs)

/-- The tokens of entries after the first one. -/
def entryTokens : List (Value × Value) → List Token
  | [] => []
  | (k, v) :: rest =>
    .key :: (nodeTokens false k ++ .value :: (nodeTokens (isSimpleKey k) v ++ entryTokens rest))

end

/-! ## Places -/

/-- The column of the collection around a place. -/
def parentColumn : Place → Int
  | .root => -1
  | .item column => column
  | .mark column => column
  | .field column => column

/-- Whether the place is behind a key on the same line. -/
def isField : Place → Bool
  | .field _ => true
  | _ => false

/-- Where the reader stands before a node. -/
def StandsAt : Place → Nat → Prop
  | .root, n => n = 0
  | .item column, n => n = column + 1
  | .mark column, n => n = column + 1
  | .field column, n => column < n

theorem scalarColumn_eq (place : Place) :
    place.scalarColumn = (max (parentColumn place) 0).toNat + 2 := by
  cases place <;> simp [Place.scalarColumn, parentColumn]

/-- The spaces before a node on the line of its key or mark. -/
def gapWidth (place : Place) : Nat :=
  if place.isInline then 1 else 0

theorem gap_eq (place : Place) : Printer.gap place none = Printer.spaces (gapWidth place) := by
  cases place <;> rfl

theorem parentColumn_lt {place : Place} {n : Nat} (h : StandsAt place n) :
    parentColumn place < (n + gapWidth place : Nat) := by
  cases place <;> simp only [StandsAt, parentColumn, gapWidth, Place.isInline] at h ⊢ <;>
    simp <;> omega

namespace Reader

variable {r : Reader}

/-- The state in which the reader comes to a node. -/
structure Stands (r : Reader) (place : Place) : Prop where
  keys : r.keys = [none]
  indent : r.indent = parentColumn place
  keyAllowed : r.keyAllowed = !isField place
  column : StandsAt place r.cursor.mark.column

/-- The reader gets from the start of a text to the next token, with the tokens of the text read and
all its collections closed as soon as those around it are looked at. -/
def Passes (r : Reader) (text : List Char) (column : Nat) (rest : List Char)
    (tokens : List Token) : Prop :=
  ∃ t, Arrives r (unroll t column) ∧ ∀ c ≤ r.indent,
    t.unroll c = (r.past (text ++ Printer.spaces column) rest tokens).unroll c

theorem Passes.arrives {text rest : List Char} {column : Nat} {tokens : List Token}
    (h : Passes r text column rest tokens) (hcolumn : column ≤ r.indent) :
    Arrives r ((r.past (text ++ Printer.spaces column) rest tokens).unroll column) := by
  obtain ⟨t, ht, heq⟩ := h
  exact heq column hcolumn ▸ ht

/-- A text of whole lines. -/
def EndsLine (s : List Char) : Prop :=
  ∃ t b, isBreak b = true ∧ s = t ++ [b]

theorem EndsLine.append_left {t : List Char} (h : EndsLine t) (s : List Char) :
    EndsLine (s ++ t) := by
  obtain ⟨u, b, hb, rfl⟩ := h
  exact ⟨s ++ u, b, hb, (List.append_assoc ..).symm⟩

theorem EndsLine.column {s : List Char} (h : EndsLine s) (mark : Mark) (n : Nat) :
    (mark.passed (s ++ Printer.spaces n)).column = n := by
  obtain ⟨t, b, hb, hs⟩ := h
  exact column_passed_lines hb hs mark n

/-- What a node is to the collection around it: whole lines that start with a gap behind an
indicator and that the reader passes wherever it comes to them. -/
structure PassesNode (v : Value) : Prop where
  endsLine (place : Place) : EndsLine (Printer.node place none v)
  atGap {place : Place} (hplace : place ≠ .root) (after : List Char) :
    atGap (Printer.node place none v ++ after) = true
  passes {r : Reader} {place : Place} {column : Nat} {rest : List Char} (h : Stands r place)
    (hfollows : Follows r.indent column rest)
    (hrest : r.cursor.rest = Printer.node place none v ++ (Printer.spaces column ++ rest)) :
    Passes r (Printer.node place none v) column rest (nodeTokens (isField place) v)

/-- The state behind the space before a node. -/
theorem Stands.settle_gap {place : Place} {rest : List Char} (h : Stands r place)
    (hstart : StartsToken rest) (hrest : r.cursor.rest = Printer.gap place none ++ rest) :
    let start := { r with cursor := ⟨rest, r.cursor.mark.passed (Printer.gap place none)⟩ }
    r.settle = .ok start ∧ r.indent < start.cursor.mark.column := by
  intro start
  have hgap : passGap false r.cursor.rest r.cursor.mark r.keyAllowed false =
      (⟨rest, r.cursor.mark.passed (Printer.gap place none)⟩, r.keyAllowed) := by
    rw [hrest, gap_eq, passGap_spaces, passGap_of_startsToken hstart, Mark.passed_spaces]
  have hcolumn : r.indent < start.cursor.mark.column := by
    have hlt := parentColumn_lt h.column
    show r.indent < ((r.cursor.mark.passed (Printer.gap place none)).column : Nat)
    rw [h.indent, gap_eq, Mark.passed_spaces]
    exact hlt
  refine ⟨?_, hcolumn⟩
  rw [settle_of_passGap h.keys (by simp) hgap, ← h.keys]
  exact congrArg Except.ok (unroll_of_le (Int.le_of_lt hcolumn))

/-- A node that is written on the line of its key or mark. -/
theorem Stands.passes {place : Place} {line rest : List Char} {column : Nat}
    {tokens : List Token} (h : Stands r place)
    (hrest : r.cursor.rest = Printer.gap place none ++ (line ++ (Printer.spaces column ++ rest)))
    (hstart : StartsToken (line ++ (Printer.spaces column ++ rest)))
    (hsteps : ∀ s : Reader, s.keys = [none] → s.indent = r.indent →
      r.indent < s.cursor.mark.column → s.cursor.rest = line ++ (Printer.spaces column ++ rest) →
        Steps s ((s.past (line ++ Printer.spaces column) rest tokens).unroll column)) :
    Passes r (Printer.gap place none ++ line) column rest tokens := by
  obtain ⟨hsettle, hcolumn⟩ := h.settle_gap hstart hrest
  refine ⟨_, ⟨_, hsettle, hsteps _ h.keys rfl hcolumn rfl⟩, fun _ _ => ?_⟩
  rw [past, ← Mark.passed_append, ← List.append_assoc]
  rfl

/-! ## Scalars and empty collections -/

theorem startsToken_scalarLine {style : Style} {s : List Char} (hs : Suits style s) (indent : Nat)
    (after : List Char) : StartsToken (Printer.scalarLine indent style s ++ after) := by
  cases style with
  | literal =>
    rw [scalarLine_literal indent hs.1]
    exact startsToken_cons (by decide)
  | single => exact startsToken_cons (by decide)
  | double => exact startsToken_cons (by decide)
  | plain =>
    obtain ⟨c, t, rfl⟩ := List.exists_cons_of_ne_nil hs.ne_nil
    obtain ⟨hindicator, -, -⟩ := hasIndicator_cons hs.indicator
    have hprint := hs.printable c List.mem_cons_self
    refine startsToken_cons ⟨?_, hs.unbroken c List.mem_cons_self, ?_,
      Printer.ne_of_isPrintable hprint (by decide)⟩
    · rw [isBlank_of_isPrintable hprint]
      simpa using hs.head
    · rintro rfl
      exact absurd hindicator (by decide)

theorem node_scalar {v : Value} {style : Style} {s : List Char}
    (h : Printer.scalar? v = some (style, s)) (place : Place) :
    Printer.node place none v =
      Printer.gap place none ++ Printer.scalarLine place.scalarColumn style s := by
  cases v with
  | sequence items => cases h
  | mapping entries => cases h
  | tagged tag v => cases h
  | _ =>
    rw [Printer.node, h]
    · rfl
    all_goals simp

theorem nodeTokens_scalar {v : Value} {style : Style} {s : List Char}
    (h : Printer.scalar? v = some (style, s)) (belowKey : Bool) :
    nodeTokens belowKey v = [.scalar (scalarStyle style) s] := by
  cases v with
  | sequence items => cases h
  | mapping entries => cases h
  | tagged tag v => cases h
  | _ =>
    rw [nodeTokens, h]
    all_goals simp

theorem atGap_gap {place : Place} (h : place ≠ .root) (after : List Char) :
    Token.atGap (Printer.gap place none ++ after) = true := by
  cases place with
  | root => exact absurd rfl h
  | _ => rfl

theorem passesNode_scalar {v : Value} {style : Style} {s : List Char}
    (h : Printer.scalar? v = some (style, s)) (hs : Suits style s) : PassesNode v where
  endsLine place := by
    rw [node_scalar h]
    exact EndsLine.append_left (exists_scalarLine _ _ _) _
  atGap hplace after := by
    rw [node_scalar h, List.append_assoc]
    exact atGap_gap hplace _
  passes {r place column rest} hstands hfollows hrest := by
    rw [node_scalar h, List.append_assoc] at hrest
    rw [node_scalar h, nodeTokens_scalar h]
    refine hstands.passes hrest (startsToken_scalarLine hs _ _) ?_
    intro t hkeys hindent hcolumn htext
    rw [← hindent] at hcolumn hfollows
    have hwidth : place.scalarColumn = (max t.indent 0).toNat + 2 := by
      rw [hindent, hstands.indent, scalarColumn_eq]
    obtain ⟨before, b, -, hline⟩ := exists_scalarLine place.scalarColumn style s
    obtain ⟨c, tail, hcons⟩ : ∃ c tail, t.cursor.rest = c :: tail := by
      rw [htext, hline]
      exact List.exists_cons_of_ne_nil (by simp)
    obtain ⟨s₁, htoken, hlength, hsettle⟩ :=
      token_scalar hs hkeys hcolumn hwidth hfollows htext hcons
    exact .token hcons htoken hlength hsettle (.refl _)

theorem passesNode_brackets {v : Value} {opening closing : Char} {start stop : Token}
    (hb : IsBrackets opening closing start stop)
    (hnode : ∀ place, Printer.node place none v =
      Printer.gap place none ++ [opening, closing, '\n'])
    (htokens : ∀ belowKey, nodeTokens belowKey v = [start, stop]) : PassesNode v where
  endsLine place := by
    rw [hnode]
    exact EndsLine.append_left ⟨[opening, closing], '\n', rfl, rfl⟩ _
  atGap hplace after := by
    rw [hnode, List.append_assoc]
    exact atGap_gap hplace _
  passes {r place column rest} hstands hfollows hrest := by
    rw [hnode, List.append_assoc] at hrest
    rw [hnode, htokens]
    refine hstands.passes hrest (startsToken_cons (hb.startsToken opening (by simp))) ?_
    intro t hkeys hindent hcolumn htext
    rw [← hindent] at hcolumn hfollows
    exact hb.steps hkeys hcolumn hfollows htext

theorem passesNode_emptySequence : PassesNode (.sequence []) :=
  passesNode_brackets isBrackets_sequence (fun _ => by rw [Printer.node]; rfl)
    fun _ => by rw [nodeTokens]

theorem passesNode_emptyMapping : PassesNode (.mapping []) :=
  passesNode_brackets isBrackets_mapping (fun _ => by rw [Printer.node]; rfl)
    fun _ => by rw [nodeTokens]

end Reader

end Token

end ClusterTuning.Yaml
