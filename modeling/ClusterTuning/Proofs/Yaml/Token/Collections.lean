import ClusterTuning.Proofs.Yaml.Token.Nodes

/-!
# Collections are read back

The first indicator of a collection opens it, every further one stands at its
column, and the next token to the left of the column closes it.

* `arrives_items`, `arrives_entries` — from one entry to the end of the last one;
* `passesNode_sequence`, `passesNode_mapping` — whole collections;
* `passesNode_of_isData` — all data.
-/

namespace ClusterTuning.Yaml.Token.Reader

open Printer (Style Place)

variable {r : Reader}

/-! ## Collections of lines -/

/-- The lead of a collection ends at the column of its entries, which is not to the left of the
collection around it. -/
theorem Stands.column_lead {place : Place} {d : Nat} (h : Stands r place)
    (hd : d = place.sequenceColumn false ∨ d = place.mappingColumn) :
    (r.cursor.mark.passed (place.lead false d)).column = d ∧ r.indent ≤ d := by
  have hat := h.column
  rw [h.indent]
  cases place with
  | root =>
    obtain rfl : d = 0 := hd.elim id id
    exact ⟨hat, by decide⟩
  | item c =>
    obtain rfl : d = c + 2 := hd.elim id id
    refine ⟨congrArg (· + 1) hat, ?_⟩
    simp only [parentColumn]
    omega
  | mark c =>
    obtain rfl : d = c + 2 := hd.elim id id
    refine ⟨congrArg (· + 1) hat, ?_⟩
    simp only [parentColumn]
    omega
  | field c =>
    have hle : c ≤ d := by
      rcases hd with hd | hd <;> rw [hd]
      · exact Nat.le_refl c
      · exact Nat.le_add_right c 2
    refine ⟨?_, Int.ofNat_le.2 hle⟩
    show (r.cursor.mark.passed ('\n' :: Printer.spaces d)).column = d
    rw [Mark.passed_break (by rfl), Mark.passed_spaces]
    exact Nat.zero_add d

/-- The lead of a collection is a gap. -/
theorem passGap_lead (place : Place) (d : Nat) {rest : List Char} (hstart : StartsToken rest)
    (mark : Mark) :
    passGap false (place.lead false d ++ rest) mark (!isField place) false =
      (⟨rest, mark.passed (place.lead false d)⟩, true) := by
  cases place with
  | root => exact passGap_of_startsToken hstart
  | item c => exact (passGap_spaces 1).trans (passGap_of_startsToken hstart)
  | mark c => exact (passGap_spaces 1).trans (passGap_of_startsToken hstart)
  | field c =>
    show passGap false ('\n' :: (Printer.spaces d ++ rest)) _ _ _ = _
    rw [passGap_break, passGap_spaces, passGap_of_startsToken hstart]
    show _ = (Cursor.mk rest (mark.passed ('\n' :: Printer.spaces d)), true)
    rw [Mark.passed_break (by rfl), Mark.passed_spaces]

/-- The state at the first entry of a collection. -/
theorem Stands.settle_lead {place : Place} {d : Nat} {rest : List Char} (h : Stands r place)
    (hd : d = place.sequenceColumn false ∨ d = place.mappingColumn) (hstart : StartsToken rest)
    (hrest : r.cursor.rest = place.lead false d ++ rest) :
    r.settle = .ok (r.past (place.lead false d) rest []) ∧
      (r.cursor.mark.passed (place.lead false d)).column = d ∧ r.indent ≤ d := by
  obtain ⟨hcolumn, hindent⟩ := h.column_lead hd
  refine ⟨?_, hcolumn, hindent⟩
  have hgap : passGap false r.cursor.rest r.cursor.mark r.keyAllowed false =
      (⟨rest, r.cursor.mark.passed (place.lead false d)⟩, true) := by
    rw [hrest, h.keyAllowed]
    exact passGap_lead place d hstart r.cursor.mark
  rw [settle_of_passGap h.keys (by simp) hgap, ← h.keys]
  exact congrArg Except.ok (unroll_of_le (hcolumn.symm ▸ hindent))

/-- A collection that is opened and read to the end of its entries. -/
theorem Passes.of_enter {lead text more rest : List Char} {column d : Nat} {start : Token}
    {tokens : List Token} (hkeys : r.keys = [none]) (hd : r.indent < d)
    (hsettle : r.settle = .ok (r.past lead more []))
    (h : Steps (r.past lead more []) (((((r.past lead more []).emit start).enter d).past
      (text ++ Printer.spaces column) rest tokens).unroll column)) :
    Passes r (lead ++ text) column rest (start :: (tokens ++ [.blockEnd])) := by
  refine ⟨_, ⟨_, hsettle, h⟩, fun c hc => ?_⟩
  have hflow : (((r.past lead more []).emit start).past (text ++ Printer.spaces column) rest
      tokens).inFlow = false := inFlow_of_keys hkeys
  rw [past_enter, unroll_enter hflow (Int.lt_of_le_of_lt hc hd), emit_past, emit_past, past_past]
  simp only [List.append_assoc, List.nil_append, List.singleton_append]

theorem follows_of_le {c d : Int} {column : Nat} {rest : List Char} (h : Follows c column rest)
    (hle : c ≤ d) : Follows d column rest :=
  ⟨h.head, h.ends.imp (Int.le_trans · hle) id⟩

theorem column_le_of_follows {d column : Nat} {rest : List Char}
    (h : Follows (d : Int) column rest) : (column : Int) ≤ d := by
  rcases h.ends with hle | ⟨rfl, -⟩
  · exact hle
  · exact Int.ofNat_le.2 (Nat.zero_le d)

/-- The next entry of the same collection. -/
theorem follows_cons {c : Char}
    (hc : isBlank c = false ∧ isBreak c = false ∧ c ≠ '#' ∧ c ≠ '\ufeff') (d : Nat)
    (rest : List Char) : Follows (d : Int) d (c :: rest) :=
  ⟨startsToken_cons hc, .inl (Int.le_refl _)⟩

/-! ## Sequences -/

/-- The place behind the dash of an item. -/
theorem stands_item {d : Nat} (tail : List Char) (hkeys : r.keys = [none]) (hindent : r.indent ≤ d)
    (hcolumn : r.cursor.mark.column = d) :
    Stands ((r.rolled d .blockSequenceStart).past ['-'] tail [.blockEntry]) (.item d) := by
  refine ⟨(keys_rolled r d _).trans hkeys, indent_rolled hindent _, rfl, ?_⟩
  show ((r.rolled d _).cursor.mark.passed ['-']).column = d + 1
  rw [cursor_rolled, ← hcolumn]
  rfl

/-- What the reader does with the dash of an item. -/
theorem steps_dash {d : Nat} {tail : List Char} (hkeys : r.keys = [none])
    (hallowed : r.keyAllowed = true) (hcolumn : r.cursor.mark.column = d)
    (hrest : r.cursor.rest = '-' :: tail) (hgap : Token.atGap tail = true) {t : Reader}
    (h : Arrives ((r.rolled d .blockSequenceStart).past ['-'] tail [.blockEntry]) t) :
    Steps r t := by
  have hdash := token_dash hkeys hallowed hrest hgap
  rw [hcolumn] at hdash
  exact Steps.of_arrives hrest hdash le_rfl h

/-- An item and those after it. -/
theorem arrives_items {d column : Nat} {rest : List Char} (xs : List Value) :
    ∀ {x : Value} {r : Reader}, PassesNode x → (∀ y ∈ xs, PassesNode y) → Stands r (.item d) →
      Follows (d : Int) column rest →
      r.cursor.rest = Printer.node (.item d) none x ++
        (Printer.items d xs ++ (Printer.spaces column ++ rest)) →
      Arrives r ((r.past (Printer.node (.item d) none x ++
        (Printer.items d xs ++ Printer.spaces column)) rest
        (nodeTokens false x ++ itemTokens xs)).unroll column) := by
  induction xs with
  | nil =>
    intro x r hx _ hr hfollows hrest
    have hindent : r.indent = d := hr.indent
    rw [Printer.items, List.nil_append] at hrest
    rw [Printer.items, List.nil_append, itemTokens, List.append_nil]
    have hfollows' := hindent.symm ▸ hfollows
    exact (hx.passes hr hfollows' hrest).arrives (hindent ▸ column_le_of_follows hfollows)
  | cons y ys ih =>
    intro x r hx hys hr hfollows hrest
    obtain ⟨hy, hys⟩ := List.forall_mem_cons.1 hys
    have hindent : r.indent = d := hr.indent
    set tail := Printer.node (.item d) none y ++
      (Printer.items d ys ++ (Printer.spaces column ++ rest)) with htail
    have hrest' : r.cursor.rest =
        Printer.node (.item d) none x ++ (Printer.spaces d ++ '-' :: tail) := by
      rw [hrest, Printer.items]
      simp [htail]
    -- The reader stands before the dash of the next item, at the column of the sequence.
    set s := r.past (Printer.node (.item d) none x ++ Printer.spaces d) ('-' :: tail)
      (nodeTokens false x) with hs
    have hcolumn : s.cursor.mark.column = d := (hx.endsLine _).column _ _
    have hs_indent : s.indent = d := hindent
    have harrives : Arrives r (s.unroll d) :=
      (hx.passes hr (hindent.symm ▸ follows_cons (by decide) d tail) hrest').arrives
        (Int.le_of_eq hindent.symm)
    rw [unroll_of_le (Int.le_of_eq hs_indent)] at harrives
    have hnext := @stands_item s d tail hr.keys (Int.le_of_eq hs_indent) hcolumn
    rw [rolled_of_eq hs_indent] at hnext
    have hitems := ih hy hys hnext hfollows rfl
    refine harrives.trans (@steps_dash s d tail hr.keys rfl hcolumn rfl (hy.atGap (by simp) _) _ ?_)
    rw [rolled_of_eq hs_indent]
    have htext : Printer.node (.item d) none x ++
        (Printer.items d (y :: ys) ++ Printer.spaces column) =
          Printer.node (.item d) none x ++ Printer.spaces d ++ ['-'] ++
            (Printer.node (.item d) none y ++ (Printer.items d ys ++ Printer.spaces column)) := by
      rw [Printer.items]
      simp
    have hpast (t : List Char) (ts : List Token) :
        (s.past ['-'] tail [.blockEntry]).past t rest ts =
          r.past (Printer.node (.item d) none x ++ Printer.spaces d ++ ['-'] ++ t) rest
            (nodeTokens false x ++ [.blockEntry] ++ ts) := by
      simp only [hs, past_past, List.append_assoc]
    rw [hpast, List.append_assoc (nodeTokens false x)] at hitems
    rw [htext, itemTokens]
    exact hitems

theorem endsLine_items {d : Nat} {s : List Char} (hs : EndsLine s) (xs : List Value)
    (h : ∀ y ∈ xs, PassesNode y) : EndsLine (s ++ Printer.items d xs) := by
  induction xs generalizing s with
  | nil => rwa [Printer.items, List.append_nil]
  | cons y ys ih =>
    obtain ⟨hy, hys⟩ := List.forall_mem_cons.1 h
    have hline := ih (hy.endsLine (.item d)) hys
    have heq : s ++ Printer.items d (y :: ys) =
        (s ++ Printer.spaces d ++ ['-']) ++
          (Printer.node (.item d) none y ++ Printer.items d ys) := by
      rw [Printer.items]
      simp
    exact heq ▸ hline.append_left _

/-- The text of a sequence from its lead on. -/
theorem node_sequence (place : Place) (x : Value) (xs : List Value) :
    Printer.node place none (.sequence (x :: xs)) =
      place.lead false (place.sequenceColumn false) ++
        '-' :: (Printer.node (.item (place.sequenceColumn false)) none x ++
          Printer.items (place.sequenceColumn false) xs) := by
  rw [Printer.node]
  simp [Printer.tagPart]

theorem atGap_lead {place : Place} (h : place ≠ .root) (column : Nat) (after : List Char) :
    Token.atGap (place.lead false column ++ after) = true := by
  cases place with
  | root => exact absurd rfl h
  | _ => rfl

/-- A sequence stands to the right of the collection around it, unless it stands below a key. -/
theorem parentColumn_sequenceColumn (place : Place) :
    isField place = false ∧ parentColumn place < place.sequenceColumn false ∨
      isField place = true ∧ parentColumn place = place.sequenceColumn false := by
  cases place with
  | root => exact .inl ⟨rfl, by decide⟩
  | item c => exact .inl ⟨rfl, Int.ofNat_lt.2 (Nat.lt_add_of_pos_right (by decide))⟩
  | mark c => exact .inl ⟨rfl, Int.ofNat_lt.2 (Nat.lt_add_of_pos_right (by decide))⟩
  | field c => exact .inr ⟨rfl, rfl⟩

theorem passesNode_sequence {x : Value} {xs : List Value} (hx : PassesNode x)
    (hxs : ∀ y ∈ xs, PassesNode y) : PassesNode (.sequence (x :: xs)) where
  endsLine place := by
    rw [node_sequence]
    exact ((endsLine_items (hx.endsLine _) xs hxs).append_left ['-']).append_left _
  atGap hplace after := by
    rw [node_sequence, List.append_assoc]
    exact atGap_lead hplace _ _
  passes {r place column rest} hstands hfollows hrest := by
    set d := place.sequenceColumn false with hd
    set tail := Printer.node (.item d) none x ++
      (Printer.items d xs ++ (Printer.spaces column ++ rest)) with htail
    have hrest' : r.cursor.rest = place.lead false d ++ '-' :: tail := by
      rw [hrest, node_sequence]
      simp [htail, hd]
    obtain ⟨hsettle, hcolumn, hle⟩ :=
      hstands.settle_lead (.inl hd) (startsToken_cons (by decide)) hrest'
    set s := r.past (place.lead false d) ('-' :: tail) [] with hs
    have hitem := @stands_item s d tail hstands.keys hle hcolumn
    have hitems := arrives_items xs hx hxs hitem (follows_of_le hfollows hle) rfl
    rw [past_past] at hitems
    have hsteps := @steps_dash s d tail hstands.keys rfl hcolumn rfl (hx.atGap (by simp) _) _ hitems
    have htext : ['-'] ++ (Printer.node (.item d) none x ++
        (Printer.items d xs ++ Printer.spaces column)) =
          '-' :: (Printer.node (.item d) none x ++ Printer.items d xs) ++
            Printer.spaces column := by
      simp
    rw [htext] at hsteps
    rw [node_sequence, nodeTokens]
    rcases parentColumn_sequenceColumn place with ⟨hfield, hlt⟩ | ⟨hfield, heq⟩
    · rw [← hstands.indent] at hlt
      have hs_indent : s.indent < (d : Int) := hlt
      rw [rolled_of_lt hs_indent] at hsteps
      rw [hfield]
      exact Passes.of_enter hstands.keys hlt hsettle hsteps
    · rw [← hstands.indent] at heq
      have hs_indent : s.indent = (d : Int) := heq
      rw [rolled_of_eq hs_indent] at hsteps
      rw [hfield]
      refine ⟨_, ⟨s, hsettle, hsteps⟩, fun c _ => ?_⟩
      rw [hs, past_past, ← List.append_assoc]
      rfl

/-! ## Entries -/

/-- What stands in an entry before its value. -/
def entryHead (d : Nat) (key : Value) : List Char :=
  match Printer.simpleKey? d key with
  | some text => text ++ [':']
  | none => '?' :: (Printer.node (.mark d) none key ++ (Printer.spaces d ++ [':']))

/-- The place of the value of an entry. -/
def valuePlace (d : Nat) (key : Value) : Place :=
  if isSimpleKey key then .field d else .mark d

theorem isSome_simpleKey? (d : Nat) (s : String) :
    (Printer.simpleKey? d (.string s)).isSome = isSimpleKey (.string s) := by
  rw [isSimpleKey, simpleKey?_string, simpleKey?_string]
  split <;> rfl

theorem isField_valuePlace (d : Nat) (key : Value) :
    isField (valuePlace d key) = isSimpleKey key := by
  unfold valuePlace
  cases isSimpleKey key <;> rfl

theorem parentColumn_valuePlace (d : Nat) (key : Value) :
    parentColumn (valuePlace d key) = d ∧ valuePlace d key ≠ .root := by
  unfold valuePlace
  cases isSimpleKey key <;> exact ⟨rfl, nofun⟩

/-- The text of further entries from the first one on. -/
theorem entries_cons (d : Nat) (s : String) (v : Value) (rest : List (Value × Value)) :
    Printer.entries d ((.string s, v) :: rest) =
      Printer.spaces d ++ (entryHead d (.string s) ++
        (Printer.node (valuePlace d (.string s)) none v ++ Printer.entries d rest)) := by
  rw [Printer.entries]
  unfold entryHead valuePlace
  rw [← isSome_simpleKey? d]
  cases Printer.simpleKey? d (.string s) <;> simp

/-- The text of a mapping from its lead on. -/
theorem node_mapping (place : Place) (s : String) (v : Value) (rest : List (Value × Value)) :
    Printer.node place none (.mapping ((.string s, v) :: rest)) =
      place.lead false place.mappingColumn ++ (entryHead place.mappingColumn (.string s) ++
        (Printer.node (valuePlace place.mappingColumn (.string s)) none v ++
          Printer.entries place.mappingColumn rest)) := by
  rw [Printer.node]
  unfold entryHead valuePlace
  rw [← isSome_simpleKey? place.mappingColumn]
  cases Printer.simpleKey? place.mappingColumn (.string s) <;> simp [Printer.tagPart]

theorem startsToken_entryHead (d : Nat) (s : String) (after : List Char) :
    StartsToken (entryHead d (.string s) ++ after) := by
  unfold entryHead
  cases hkey : Printer.simpleKey? d (.string s) with
  | none => exact startsToken_cons (by decide)
  | some text =>
    obtain ⟨rfl, hstyle, -, -⟩ := simpleKey?_spec hkey
    have hline := startsToken_scalarLine (suits_textStyle s.toList) (d + 2) []
    have hne := inlineScalar_ne_nil (suits_textStyle s.toList) hstyle (d + 2)
    obtain ⟨c, t, heq⟩ := List.exists_cons_of_ne_nil hne
    rw [scalarLine_inline hstyle, heq] at hline
    show StartsToken (Printer.inlineScalar (d + 2) (Printer.textStyle s.toList) s.toList ++ [':'] ++
      after)
    rw [heq]
    exact startsToken_cons (hline c rfl)

/-- The state before the value of an entry. -/
def beforeValue (r : Reader) (d : Nat) (key : Value) (rest : List Char) : Reader :=
  { r.past (entryHead d key) rest (.key :: (nodeTokens false key ++ [.value])) with
    keyAllowed := !isSimpleKey key }

theorem past_beforeValue (r : Reader) (d : Nat) (key : Value) (more s rest : List Char)
    (tokens : List Token) :
    (r.beforeValue d key more).past s rest tokens =
      r.past (entryHead d key ++ s) rest
        (.key :: (nodeTokens false key ++ [.value]) ++ tokens) := by
  rw [← past_past]
  rfl

/-- What the reader does with an entry up to its value. -/
theorem steps_entryHead {d : Nat} {s : String} {more : List Char} (hkeys : r.keys = [none])
    (hallowed : r.keyAllowed = true) (hindent : r.indent ≤ d)
    (hcolumn : r.cursor.mark.column = d)
    (hrest : r.cursor.rest = entryHead d (.string s) ++ more) (hgap : Token.atGap more = true)
    {t : Reader} (h : Arrives ((r.rolled d .blockMappingStart).beforeValue d (.string s) more) t) :
    Steps r t := by
  have htokens : nodeTokens false (.string s) =
      [.scalar (scalarStyle (Printer.textStyle s.toList)) s.toList] := nodeTokens_scalar rfl false
  rw [beforeValue, ← isSome_simpleKey? d] at h
  unfold entryHead at h hrest
  cases hkey : Printer.simpleKey? d (.string s) with
  | some text =>
    rw [hkey] at h hrest
    obtain ⟨rfl, hstyle, hunbroken, hshort⟩ := simpleKey?_spec hkey
    rw [htokens] at h
    refine @steps_simpleKey r _ s.toList more (d + 2) (suits_textStyle s.toList) hstyle
      (Nat.succ_pos _) hkeys hallowed (hcolumn ▸ hindent) hunbroken hshort ?_ hgap t ?_
    · rw [hrest]
      simp
    · rw [hcolumn]
      exact h
  | none =>
    rw [hkey] at h hrest
    have hnode : PassesNode (.string s) := passesNode_scalar rfl (suits_textStyle s.toList)
    set tail := Printer.node (.mark d) none (.string s) ++ (Printer.spaces d ++ ':' :: more)
      with htail
    have hquestion := @token_keyMark r tail hkeys hallowed (by rw [hrest]; simp [htail])
      (hnode.atGap (by simp) _)
    rw [hcolumn] at hquestion
    set u := (r.rolled d .blockMappingStart).past ['?'] tail [.key] with hu
    have hu_indent : u.indent = d := indent_rolled hindent _
    have hstands : Stands u (.mark d) := by
      refine ⟨(keys_rolled r d _).trans hkeys, hu_indent, rfl, ?_⟩
      show ((r.rolled d _).cursor.mark.passed ['?']).column = d + 1
      rw [cursor_rolled, ← hcolumn]
      rfl
    -- The reader stands before the colon of the entry.
    set w := u.past (Printer.node (.mark d) none (.string s) ++ Printer.spaces d) (':' :: more)
      (nodeTokens false (.string s)) with hw
    have hw_indent : w.indent = d := hu_indent
    have hw_column : w.cursor.mark.column = d := (hnode.endsLine _).column _ _
    have hcolon := @token_valueMark w more hstands.keys rfl rfl hgap
    rw [hw_column, rolled_of_eq hw_indent] at hcolon
    have hpast : w.past [':'] more [.value] = (r.rolled d .blockMappingStart).past
        ('?' :: (Printer.node (.mark d) none (.string s) ++ (Printer.spaces d ++ [':']))) more
        (.key :: (nodeTokens false (.string s) ++ [.value])) := by
      rw [hw, hu, past_past, past_past]
      simp
    have harrives : Arrives u (w.unroll d) :=
      (hnode.passes hstands (hu_indent.symm ▸ follows_cons (by decide) d more) rfl).arrives
        (Int.le_of_eq hu_indent.symm)
    rw [unroll_of_le (Int.le_of_eq hw_indent)] at harrives
    refine Steps.of_arrives ?_ hquestion le_rfl
      (harrives.trans (Steps.of_arrives rfl hcolon le_rfl ?_))
    · rw [hrest]
      simp [htail]
    · rw [hpast]
      exact h

/-- The place behind what stands in an entry before its value. -/
theorem standsAt_valuePlace {d : Nat} {s : String} {mark : Mark} (h : mark.column = d) :
    StandsAt (valuePlace d (.string s)) (mark.passed (entryHead d (.string s))).column := by
  unfold valuePlace entryHead
  rw [← isSome_simpleKey? d]
  cases hkey : Printer.simpleKey? d (.string s) with
  | some text =>
    obtain ⟨-, -, hunbroken, -⟩ := simpleKey?_spec hkey
    show d < (mark.passed (text ++ [':'])).column
    rw [Mark.passed_append, Mark.passed_eq_advance hunbroken]
    show d < mark.column + text.length + 1
    omega
  | none =>
    have hnode : PassesNode (.string s) := passesNode_scalar rfl (suits_textStyle s.toList)
    have hline := (hnode.endsLine (.mark d)).append_left ['?']
    show (mark.passed ('?' :: (Printer.node (.mark d) none (.string s) ++
      (Printer.spaces d ++ [':'])))).column = d + 1
    have hcolumn := hline.column mark d
    rw [← List.append_assoc, ← List.cons_append, Mark.passed_append]
    exact congrArg (· + 1) hcolumn

theorem stands_beforeValue {d : Nat} {s : String} (more : List Char) (hkeys : r.keys = [none])
    (hindent : r.indent = d) (hcolumn : r.cursor.mark.column = d) :
    Stands (r.beforeValue d (.string s) more) (valuePlace d (.string s)) :=
  ⟨hkeys, hindent.trans (parentColumn_valuePlace d _).1.symm,
    congrArg (!·) (isField_valuePlace d _).symm, standsAt_valuePlace hcolumn⟩

/-! ## Mappings -/

/-- What an entry is to the mapping around it. -/
def PassesEntry (entry : Value × Value) : Prop :=
  (∃ s, entry.1 = .string s) ∧ PassesNode entry.2

/-- The value of an entry and the entries after it. -/
theorem arrives_entries {d column : Nat} {rest : List Char} (es : List (Value × Value)) :
    ∀ {v : Value} {place : Place} {r : Reader}, parentColumn place = d → PassesNode v →
      (∀ e ∈ es, PassesEntry e) → Stands r place → Follows (d : Int) column rest →
      r.cursor.rest = Printer.node place none v ++
        (Printer.entries d es ++ (Printer.spaces column ++ rest)) →
      Arrives r ((r.past (Printer.node place none v ++
        (Printer.entries d es ++ Printer.spaces column)) rest
        (nodeTokens (isField place) v ++ entryTokens es)).unroll column) := by
  induction es with
  | nil =>
    intro v place r hplace hv _ hr hfollows hrest
    have hindent : r.indent = d := hr.indent.trans hplace
    rw [Printer.entries, List.nil_append] at hrest
    rw [Printer.entries, List.nil_append, entryTokens, List.append_nil]
    exact (hv.passes hr (hindent.symm ▸ hfollows) hrest).arrives
      (hindent ▸ column_le_of_follows hfollows)
  | cons e es ih =>
    obtain ⟨k, w⟩ := e
    intro v place r hplace hv hes hr hfollows hrest
    obtain ⟨⟨⟨s, hs⟩, hw⟩, hothers⟩ := List.forall_mem_cons.1 hes
    dsimp only at hs hw
    subst hs
    have hindent : r.indent = d := hr.indent.trans hplace
    obtain ⟨hparent, hroot⟩ := parentColumn_valuePlace d (.string s)
    set more := Printer.node (valuePlace d (.string s)) none w ++
      (Printer.entries d es ++ (Printer.spaces column ++ rest)) with hmore
    set next := entryHead d (.string s) ++ more with hnext
    have hrest' : r.cursor.rest = Printer.node place none v ++ (Printer.spaces d ++ next) := by
      rw [hrest, entries_cons]
      simp [hnext, hmore]
    have hfollows' : Follows r.indent d next :=
      ⟨startsToken_entryHead d s more, .inl (Int.le_of_eq hindent.symm)⟩
    -- The reader stands before the next entry, at the column of the mapping.
    set t := r.past (Printer.node place none v ++ Printer.spaces d) next
      (nodeTokens (isField place) v) with ht
    have ht_indent : t.indent = d := hindent
    have ht_column : t.cursor.mark.column = d := (hv.endsLine _).column _ _
    have harrives : Arrives r (t.unroll d) :=
      (hv.passes hr hfollows' hrest').arrives (Int.le_of_eq hindent.symm)
    rw [unroll_of_le (Int.le_of_eq ht_indent)] at harrives
    have hvalue := @stands_beforeValue t d s more hr.keys ht_indent ht_column
    have hentries := ih hparent hw hothers hvalue hfollows rfl
    have hpast (text : List Char) (tokens : List Token) :
        (t.beforeValue d (.string s) more).past text rest tokens =
          r.past (Printer.node place none v ++ Printer.spaces d ++
            (entryHead d (.string s) ++ text)) rest (nodeTokens (isField place) v ++
              (.key :: (nodeTokens false (.string s) ++ [.value]) ++ tokens)) := by
      rw [past_beforeValue, ht, past_past]
    rw [hpast, isField_valuePlace] at hentries
    have htext : Printer.node place none v ++
        (Printer.entries d ((.string s, w) :: es) ++ Printer.spaces column) =
          Printer.node place none v ++ Printer.spaces d ++ (entryHead d (.string s) ++
            (Printer.node (valuePlace d (.string s)) none w ++
              (Printer.entries d es ++ Printer.spaces column))) := by
      rw [entries_cons]
      simp
    have htokens : nodeTokens (isField place) v ++ entryTokens ((.string s, w) :: es) =
        nodeTokens (isField place) v ++ (.key :: (nodeTokens false (.string s) ++ [.value]) ++
          (nodeTokens (isSimpleKey (.string s)) w ++ entryTokens es)) := by
      rw [entryTokens]
      simp
    rw [htext, htokens]
    refine harrives.trans (@steps_entryHead t d s more hr.keys rfl (Int.le_of_eq ht_indent)
      ht_column rfl (hw.atGap hroot _) _ ?_)
    rw [rolled_of_eq ht_indent]
    exact hentries

theorem endsLine_entries {d : Nat} {s : List Char} (hs : EndsLine s) (es : List (Value × Value))
    (h : ∀ e ∈ es, PassesEntry e) : EndsLine (s ++ Printer.entries d es) := by
  induction es generalizing s with
  | nil => rwa [Printer.entries, List.append_nil]
  | cons e es ih =>
    obtain ⟨k, w⟩ := e
    obtain ⟨⟨⟨key, hkey⟩, hw⟩, hothers⟩ := List.forall_mem_cons.1 h
    dsimp only at hkey hw
    subst hkey
    rw [entries_cons]
    exact (((ih (hw.endsLine _) hothers).append_left _).append_left _).append_left _

/-- The entries of a mapping stand to the right of the collection around it. -/
theorem parentColumn_lt_mappingColumn (place : Place) :
    parentColumn place < place.mappingColumn := by
  cases place with
  | root => decide
  | item c => exact Int.ofNat_lt.2 (Nat.lt_add_of_pos_right (by decide))
  | mark c => exact Int.ofNat_lt.2 (Nat.lt_add_of_pos_right (by decide))
  | field c => exact Int.ofNat_lt.2 (Nat.lt_add_of_pos_right (by decide))

theorem passesNode_mapping {s : String} {v : Value} {es : List (Value × Value)}
    (hv : PassesNode v) (hes : ∀ e ∈ es, PassesEntry e) :
    PassesNode (.mapping ((.string s, v) :: es)) where
  endsLine place := by
    rw [node_mapping]
    exact ((endsLine_entries (hv.endsLine _) es hes).append_left _).append_left _
  atGap hplace after := by
    rw [node_mapping, List.append_assoc]
    exact atGap_lead hplace _ _
  passes {r place column rest} hstands hfollows hrest := by
    set d := place.mappingColumn with hd
    obtain ⟨hparent, hroot⟩ := parentColumn_valuePlace d (.string s)
    set more := Printer.node (valuePlace d (.string s)) none v ++
      (Printer.entries d es ++ (Printer.spaces column ++ rest)) with hmore
    set next := entryHead d (.string s) ++ more with hnext
    have hrest' : r.cursor.rest = place.lead false d ++ next := by
      rw [hrest, node_mapping]
      simp [hnext, hmore, hd]
    obtain ⟨hsettle, hcolumn, hle⟩ :=
      hstands.settle_lead (.inr hd) (startsToken_entryHead d s more) hrest'
    have hlt : r.indent < d := by
      rw [hstands.indent]
      exact parentColumn_lt_mappingColumn place
    set t := r.past (place.lead false d) next [] with ht
    have ht_column : t.cursor.mark.column = d := hcolumn
    set opened := (t.emit .blockMappingStart).enter d with hopened
    have hvalue := @stands_beforeValue opened d s more hstands.keys rfl hcolumn
    have hentries := arrives_entries es hparent hv hes hvalue (follows_of_le hfollows hle) rfl
    have htext : entryHead d (.string s) ++ (Printer.node (valuePlace d (.string s)) none v ++
        (Printer.entries d es ++ Printer.spaces column)) =
          entryHead d (.string s) ++ (Printer.node (valuePlace d (.string s)) none v ++
            Printer.entries d es) ++ Printer.spaces column := by
      simp
    rw [past_beforeValue, isField_valuePlace, htext] at hentries
    have ht_indent : t.indent < (d : Int) := hlt
    have hrolled : t.rolled d .blockMappingStart = opened := rolled_of_lt ht_indent _
    rw [← hrolled] at hentries
    have hsteps := @steps_entryHead t d s more hstands.keys rfl hle ht_column rfl
      (hv.atGap hroot _) _ hentries
    rw [hrolled] at hsteps
    have htokens : nodeTokens (isField place) (.mapping ((.string s, v) :: es)) =
        .blockMappingStart :: (.key :: (nodeTokens false (.string s) ++ [.value]) ++
          (nodeTokens (isSimpleKey (.string s)) v ++ entryTokens es) ++ [.blockEnd]) := by
      rw [nodeTokens]
      simp
    rw [node_mapping, htokens]
    exact Passes.of_enter hstands.keys hlt hsettle hsteps

/-! ## Data -/

/-- **The reader passes all data at every place.** -/
theorem passesNode_of_isData {depth : Nat} {v : Value} (h : v.IsData depth) : PassesNode v := by
  have hscalar {v : Value} {style : Style} {s : List Char}
      (h : Printer.scalar? v = some (style, s)) (hv : ∀ x, v ≠ .number (.float x)) :
      PassesNode v := passesNode_scalar h (suits_of_scalar? h hv)
  induction h with
  | null => exact hscalar rfl (by simp)
  | bool => exact hscalar rfl (by simp)
  | integer => exact hscalar rfl (by simp)
  | string => exact hscalar rfl (by simp)
  | @sequence depth items _ ih =>
    cases items with
    | nil => exact passesNode_emptySequence
    | cons x xs =>
      obtain ⟨hx, hxs⟩ := List.forall_mem_cons.1 ih
      exact passesNode_sequence hx hxs
  | @mapping depth entries hkeys _ _ ih =>
    cases entries with
    | nil => exact passesNode_emptyMapping
    | cons e es =>
      obtain ⟨k, v⟩ := e
      obtain ⟨⟨s, rfl⟩, hothers⟩ := List.forall_mem_cons.1 hkeys
      obtain ⟨hv, hvalues⟩ := List.forall_mem_cons.1 ih
      exact passesNode_mapping hv fun e he => ⟨hothers e he, hvalues e he⟩

end ClusterTuning.Yaml.Token.Reader
