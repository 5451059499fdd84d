import ClusterTuning.Proofs.Yaml.Token.Nodes
import ClusterTuning.Yaml.Draft.Reader

/-!
# Tokens of nodes are read back

The grammar of documents recognizes the tokens of a value wherever a node may
stand, and makes a draft of them that has neither anchors nor aliases.

* `Reads` — what a reader makes of some tokens;
* `ofValue` — the draft of a value;
* `ReadsNode` — how the tokens of a value are read;
* `readsNode_of_isData` — all data.
-/

namespace ClusterTuning.Yaml.Draft

open Token

variable {α β : Type}

/-! ## Runs -/

/-- The reader passes some tokens and leaves the anchors as they are. -/
def Reads (x : Read α) (before : List Token) (a : α) (after : List Token) : Prop :=
  ∀ anchors, x.run ⟨before, anchors⟩ = .ok (a, ⟨after, anchors⟩)

theorem reads_pure (a : α) (s : List Token) : Reads (pure a) s a s :=
  fun _ => rfl

theorem Reads.bind {x : Read α} {f : α → Read β} {s t u : List Token} {a : α} {b : β}
    (hx : Reads x s a t) (hf : Reads (f a) t b u) : Reads (x >>= f) s b u := by
  intro anchors
  show (x.run ⟨s, anchors⟩ >>= fun r => (f r.1).run r.2) = _
  rw [hx anchors]
  exact hf anchors

theorem reads_peek (s : List Token) : Reads peek s s.head? s :=
  fun _ => rfl

theorem reads_advance (c : Token) (s : List Token) : Reads advance (c :: s) () s :=
  fun _ => rfl

variable {handles : Handles} {n : Nat} {inBlock inPair : Bool} {s t u : List Token}

/-! ## The first token of a node -/

theorem reads_scalar (style : ScalarStyle) (text : List Char) :
    Reads (readNode handles (n + 1) inBlock inPair) (.scalar style text :: s)
      (.scalar {} style text) s :=
  fun _ => rfl

theorem reads_emptySequence :
    Reads (readNode handles (n + 2) inBlock inPair) (.flowSequenceStart :: .flowSequenceEnd :: s)
      (.sequence {} []) s :=
  fun _ => rfl

theorem reads_emptyMapping :
    Reads (readNode handles (n + 2) inBlock inPair) (.flowMappingStart :: .flowMappingEnd :: s)
      (.mapping {} []) s :=
  fun _ => rfl

theorem reads_blockSequence {items : List Draft} (h : Reads (readBlockItems handles n) s items t) :
    Reads (readNode handles (n + 1) true inPair) (.blockSequenceStart :: s)
      (.sequence {} items) t :=
  (reads_peek _).bind (.bind (fun _ => rfl) (.bind (reads_peek _)
    (.bind (reads_advance _ s) (h.bind (reads_pure _ t)))))

theorem reads_blockMapping {entries : List (Draft × Draft)}
    (h : Reads (readBlockPairs handles n) s entries t) :
    Reads (readNode handles (n + 1) true inPair) (.blockMappingStart :: s)
      (.mapping {} entries) t :=
  (reads_peek _).bind (.bind (fun _ => rfl) (.bind (reads_peek _)
    (.bind (reads_advance _ s) (h.bind (reads_pure _ t)))))

theorem reads_pairSequence {items : List Draft}
    (h : Reads (readPairItems handles n) (.blockEntry :: s) items t) :
    Reads (readNode handles (n + 1) true true) (.blockEntry :: s) (.sequence {} items) t :=
  (reads_peek _).bind (.bind (fun _ => rfl) (.bind (reads_peek _)
    (h.bind (reads_pure _ t))))

/-! ## Entries -/

theorem reads_blockItems_nil :
    Reads (readBlockItems handles (n + 1)) (.blockEnd :: s) [] s :=
  (reads_peek _).bind (.bind (reads_advance _ s) (reads_pure _ s))

theorem reads_blockItems_cons {x : Draft} {xs : List Draft}
    (hs : endsBlockEntry s.head? = false) (hx : Reads (readNode handles n true false) s x t)
    (hxs : Reads (readBlockItems handles n) t xs u) :
    Reads (readBlockItems handles (n + 1)) (.blockEntry :: s) (x :: xs) u := by
  refine (reads_peek _).bind (.bind (reads_advance _ s) (.bind (reads_peek s) ?_))
  rw [hs]
  exact hx.bind (hxs.bind (reads_pure _ u))

theorem reads_pairItems_nil (hs : s.head? ≠ some .blockEntry) :
    Reads (readPairItems handles (n + 1)) s [] s := by
  refine (reads_peek _).bind ?_
  split
  · next h => exact absurd h hs
  · exact reads_pure _ s

theorem reads_pairItems_cons {x : Draft} {xs : List Draft}
    (hs : endsBlockEntry s.head? = false ∧ endsBlockPair s.head? = false)
    (hx : Reads (readNode handles n true false) s x t)
    (hxs : Reads (readPairItems handles n) t xs u) :
    Reads (readPairItems handles (n + 1)) (.blockEntry :: s) (x :: xs) u := by
  refine (reads_peek _).bind (.bind (reads_advance _ s) (.bind (reads_peek s) ?_))
  rw [hs.1, hs.2]
  exact hx.bind (hxs.bind (reads_pure _ u))

theorem reads_blockPairs_nil :
    Reads (readBlockPairs handles (n + 1)) (.blockEnd :: s) [] s :=
  (reads_peek _).bind (.bind (reads_advance _ s) (reads_pure _ s))

theorem reads_blockValue {v : Draft} (hs : endsBlockPair s.head? = false)
    (hv : Reads (readNode handles n true true) s v t) :
    Reads (readBlockValue handles (n + 1)) (.value :: s) v t := by
  refine (reads_peek _).bind (.bind (reads_advance _ s) (.bind (reads_peek s) ?_))
  rw [hs]
  exact hv

theorem reads_blockPairs_cons {k v : Draft} {es : List (Draft × Draft)} {w : List Token}
    (hs : endsBlockPair s.head? = false) (hk : Reads (readNode handles n true true) s k t)
    (hv : Reads (readBlockValue handles n) t v u) (hes : Reads (readBlockPairs handles n) u es w) :
    Reads (readBlockPairs handles (n + 1)) (.key :: s) ((k, v) :: es) w := by
  refine (reads_peek _).bind (.bind (reads_advance _ s) (.bind (reads_peek s) ?_))
  rw [hs]
  exact hk.bind (hv.bind (hes.bind (reads_pure _ w)))

/-! ## Drafts of values -/

mutual

/-- The draft that the tokens of a value form. -/
def ofValue : Value → Draft
  | .tagged _ v => ofValue v
  | .sequence items => .sequence {} (ofItems items)
  | .mapping entries => .mapping {} (ofEntries entries)
  | v => match Printer.scalar? v with
    | some (style, s) => .scalar {} (scalarStyle style) s
    | none => .empty

/-- The drafts of a list of values. -/
def ofItems : List Value → List Draft
  | [] => []
  | x :: xs => ofValue x :: ofItems xs

/-- The drafts of the entries of a mapping. -/
def ofEntries : List (Value × Value) → List (Draft × Draft)
  | [] => []
  | (k, v) :: rest => (ofValue k, ofValue v) :: ofEntries rest

end

theorem ofValue_scalar {v : Value} {style : Printer.Style} {text : List Char}
    (h : Printer.scalar? v = some (style, text)) :
    ofValue v = .scalar {} (scalarStyle style) text := by
  cases v with
  | sequence items => cases h
  | mapping entries => cases h
  | tagged tag v => cases h
  | _ =>
    rw [ofValue, h]
    all_goals simp

/-! ## Reading values -/

/-- No grammar takes the first token for the end of what stands before the node.  Below a key that
token may be the dash of an item. -/
def StartsNode (belowKey : Bool) (s : List Token) : Prop :=
  ∃ c rest, s = c :: rest ∧ bordersDocument (some c) = false ∧ endsBlockPair (some c) = false ∧
    (belowKey = false → endsBlockEntry (some c) = false)

/-- The tokens of a value form its draft wherever a node may stand. -/
structure ReadsNode (v : Value) : Prop where
  starts (belowKey : Bool) : StartsNode belowKey (nodeTokens belowKey v)
  reads {handles : Handles} {n : Nat} {belowKey inPair : Bool} {more : List Token}
    (hbelow : belowKey = true → inPair = true ∧ more.head? ≠ some .blockEntry)
    (hn : 2 * (nodeTokens belowKey v).length + 2 ≤ n) :
    Reads (readNode handles n true inPair) (nodeTokens belowKey v ++ more) (ofValue v) more

theorem ReadsNode.head {v : Value} (h : ReadsNode v) (more : List Token) :
    endsBlockEntry (nodeTokens false v ++ more).head? = false ∧
      endsBlockPair (nodeTokens false v ++ more).head? = false := by
  obtain ⟨c, rest, heq, -, hpair, hentry⟩ := h.starts false
  rw [heq]
  exact ⟨hentry rfl, hpair⟩

theorem ReadsNode.endsBlockPair {v : Value} (h : ReadsNode v) (belowKey : Bool)
    (more : List Token) : endsBlockPair (nodeTokens belowKey v ++ more).head? = false := by
  obtain ⟨c, rest, heq, -, hpair, -⟩ := h.starts belowKey
  rw [heq]
  exact hpair

theorem readsNode_scalar {v : Value} {style : Printer.Style} {text : List Char}
    (h : Printer.scalar? v = some (style, text)) : ReadsNode v where
  starts belowKey := by
    rw [Reader.nodeTokens_scalar h]
    exact ⟨_, _, rfl, rfl, rfl, fun _ => rfl⟩
  reads {handles n belowKey inPair more} _ hn := by
    rw [Reader.nodeTokens_scalar h] at hn ⊢
    obtain ⟨n, rfl⟩ := Nat.exists_eq_add_of_le' (Nat.le_trans (by decide : 1 ≤ 4) hn)
    rw [ofValue_scalar h]
    exact reads_scalar _ _

theorem readsNode_emptySequence : ReadsNode (.sequence []) where
  starts belowKey := by
    rw [nodeTokens]
    exact ⟨_, _, rfl, rfl, rfl, fun _ => rfl⟩
  reads {handles n belowKey inPair more} _ hn := by
    rw [nodeTokens] at hn ⊢
    obtain ⟨n, rfl⟩ := Nat.exists_eq_add_of_le' (Nat.le_trans (by decide : 2 ≤ 6) hn)
    rw [ofValue, ofItems]
    exact reads_emptySequence

theorem readsNode_emptyMapping : ReadsNode (.mapping []) where
  starts belowKey := by
    rw [nodeTokens]
    exact ⟨_, _, rfl, rfl, rfl, fun _ => rfl⟩
  reads {handles n belowKey inPair more} _ hn := by
    rw [nodeTokens] at hn ⊢
    obtain ⟨n, rfl⟩ := Nat.exists_eq_add_of_le' (Nat.le_trans (by decide : 2 ≤ 6) hn)
    rw [ofValue, ofEntries]
    exact reads_emptyMapping

/-! ### Sequences -/

theorem reads_blockItems (xs : List Value) (h : ∀ x ∈ xs, ReadsNode x) (more : List Token) :
    ∀ n, 2 * (itemTokens xs).length + 2 ≤ n →
      Reads (readBlockItems handles n) (itemTokens xs ++ .blockEnd :: more) (ofItems xs) more := by
  induction xs with
  | nil =>
    intro n hn
    obtain ⟨n, rfl⟩ := Nat.exists_eq_add_of_le' (Nat.le_trans (Nat.le_add_left 1 _) hn)
    rw [itemTokens, ofItems]
    exact reads_blockItems_nil
  | cons x xs ih =>
    obtain ⟨hx, hxs⟩ := List.forall_mem_cons.1 h
    intro n hn
    rw [itemTokens, List.length_cons, List.length_append] at hn
    obtain ⟨n, rfl⟩ := Nat.exists_eq_add_of_le' (Nat.le_trans (Nat.le_add_left 1 _) hn)
    rw [itemTokens, ofItems, List.cons_append, List.append_assoc]
    exact reads_blockItems_cons (hx.head _).1 (hx.reads nofun (by omega))
      (ih hxs n (by omega))

theorem reads_pairItems (xs : List Value) (h : ∀ x ∈ xs, ReadsNode x) {more : List Token}
    (hmore : more.head? ≠ some .blockEntry) :
    ∀ n, 2 * (itemTokens xs).length + 1 ≤ n →
      Reads (readPairItems handles n) (itemTokens xs ++ more) (ofItems xs) more := by
  induction xs with
  | nil =>
    intro n hn
    obtain ⟨n, rfl⟩ := Nat.exists_eq_add_of_le' (Nat.le_trans (Nat.le_add_left 1 _) hn)
    rw [itemTokens, ofItems]
    exact reads_pairItems_nil hmore
  | cons x xs ih =>
    obtain ⟨hx, hxs⟩ := List.forall_mem_cons.1 h
    intro n hn
    rw [itemTokens, List.length_cons, List.length_append] at hn
    obtain ⟨n, rfl⟩ := Nat.exists_eq_add_of_le' (Nat.le_trans (Nat.le_add_left 1 _) hn)
    rw [itemTokens, ofItems, List.cons_append, List.append_assoc]
    exact reads_pairItems_cons (hx.head _) (hx.reads nofun (by omega)) (ih hxs n (by omega))

theorem nodeTokens_sequence (belowKey : Bool) (x : Value) (xs : List Value) :
    nodeTokens belowKey (.sequence (x :: xs)) =
      if belowKey then itemTokens (x :: xs)
      else .blockSequenceStart :: (itemTokens (x :: xs) ++ [.blockEnd]) := by
  rw [nodeTokens, itemTokens]

theorem readsNode_sequence {x : Value} {xs : List Value} (h : ∀ y ∈ x :: xs, ReadsNode y) :
    ReadsNode (.sequence (x :: xs)) where
  starts belowKey := by
    rw [nodeTokens_sequence, itemTokens]
    cases belowKey with
    | true => exact ⟨_, _, rfl, rfl, rfl, nofun⟩
    | false => exact ⟨_, _, rfl, rfl, rfl, fun _ => rfl⟩
  reads {handles n belowKey inPair more} hbelow hn := by
    rw [nodeTokens_sequence] at hn ⊢
    obtain ⟨n, rfl⟩ := Nat.exists_eq_add_of_le' (Nat.le_trans (Nat.le_add_left 1 _) hn)
    rw [ofValue]
    cases belowKey with
    | true =>
      obtain ⟨rfl, hmore⟩ := hbelow rfl
      rw [if_pos rfl] at hn ⊢
      have hitems : Reads (readPairItems handles n) _ _ more :=
        reads_pairItems (x :: xs) h hmore n (by omega)
      rw [itemTokens] at hitems ⊢
      exact reads_pairSequence hitems
    | false =>
      rw [if_neg Bool.false_ne_true, List.length_cons, List.length_append] at hn
      rw [if_neg Bool.false_ne_true, List.cons_append, List.append_assoc]
      rw [List.length_singleton] at hn
      exact reads_blockSequence (reads_blockItems (x :: xs) h more n (by omega))

/-! ### Mappings -/

theorem reads_blockPairs (es : List (Value × Value))
    (h : ∀ e ∈ es, ReadsNode e.1 ∧ ReadsNode e.2) (more : List Token) :
    ∀ n, 2 * (entryTokens es).length + 2 ≤ n →
      Reads (readBlockPairs handles n) (entryTokens es ++ .blockEnd :: more) (ofEntries es)
        more := by
  induction es with
  | nil =>
    intro n hn
    obtain ⟨n, rfl⟩ := Nat.exists_eq_add_of_le' (Nat.le_trans (Nat.le_add_left 1 _) hn)
    rw [entryTokens, ofEntries]
    exact reads_blockPairs_nil
  | cons e es ih =>
    obtain ⟨k, v⟩ := e
    obtain ⟨⟨hk, hv⟩, hes⟩ := List.forall_mem_cons.1 h
    dsimp only at hk hv
    intro n hn
    rw [entryTokens] at hn
    simp only [List.length_cons, List.length_append] at hn
    obtain ⟨n, rfl⟩ := Nat.exists_eq_add_of_le' (Nat.le_trans (by omega : 2 ≤ _) hn)
    rw [entryTokens, ofEntries]
    simp only [List.cons_append, List.append_assoc]
    have hmore : (entryTokens es ++ .blockEnd :: more).head? ≠ some .blockEntry := by
      cases es with
      | nil => simp [entryTokens]
      | cons e es => simp [entryTokens]
    exact reads_blockPairs_cons (hk.head _).2 (hk.reads nofun (by omega))
      (reads_blockValue (hv.endsBlockPair _ _) (hv.reads (fun _ => ⟨rfl, hmore⟩) (by omega)))
      (ih hes (n + 1) (by omega))

theorem readsNode_mapping {e : Value × Value} {es : List (Value × Value)}
    (h : ∀ f ∈ e :: es, ReadsNode f.1 ∧ ReadsNode f.2) : ReadsNode (.mapping (e :: es)) := by
  have htokens (belowKey : Bool) : nodeTokens belowKey (.mapping (e :: es)) =
      .blockMappingStart :: (entryTokens (e :: es) ++ [.blockEnd]) := by
    obtain ⟨k, v⟩ := e
    rw [nodeTokens, entryTokens]
  refine ⟨fun belowKey => ?_, fun _ hn => ?_⟩
  · rw [htokens]
    exact ⟨_, _, rfl, rfl, rfl, fun _ => rfl⟩
  · rw [htokens, List.length_cons, List.length_append, List.length_singleton] at hn
    rw [htokens, ofValue, List.cons_append, List.append_assoc]
    obtain ⟨n, rfl⟩ := Nat.exists_eq_add_of_le' (Nat.le_trans (Nat.le_add_left 1 _) hn)
    exact reads_blockMapping (reads_blockPairs (e :: es) h _ n (by omega))

/-- **The tokens of data form its draft.** -/
theorem readsNode_of_isData {depth : Nat} {v : Value} (h : v.IsData depth) : ReadsNode v := by
  induction h with
  | null => exact readsNode_scalar rfl
  | bool => exact readsNode_scalar rfl
  | integer => exact readsNode_scalar rfl
  | string => exact readsNode_scalar rfl
  | @sequence depth items _ ih =>
    cases items with
    | nil => exact readsNode_emptySequence
    | cons x xs => exact readsNode_sequence ih
  | @mapping depth entries hkeys _ _ ih =>
    cases entries with
    | nil => exact readsNode_emptyMapping
    | cons e es =>
      refine readsNode_mapping fun f hf => ⟨?_, ih f hf⟩
      obtain ⟨s, hs⟩ := hkeys f hf
      exact hs ▸ readsNode_scalar rfl

end ClusterTuning.Yaml.Draft
