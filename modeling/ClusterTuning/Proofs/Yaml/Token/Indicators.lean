import ClusterTuning.Proofs.Yaml.Token.Scalars

/-!
# Indicators are read back

The dash of an item, the marks around a key and the brackets of an empty collection
are tokens of their own.  The first one of a block collection also opens it.

* `rolled` — the state in which a collection stands open at a column;
* `token_dash`, `token_keyMark`, `token_valueMark` — the indicators of blocks;
* `steps_simpleKey` — a key on the line of its value;
* `IsBrackets.steps` — the brackets of an empty collection.
-/

namespace ClusterTuning.Yaml.Token.Reader

open Printer (isPrintable Style)

variable {r : Reader}

/-! ## Opening collections -/

/-- The state in which a collection stands open at a column; a new one starts with the given
token. -/
def rolled (r : Reader) (column : Nat) (start : Token) : Reader :=
  if r.indent < column then (r.emit start).enter column else r

theorem rolled_of_lt {column : Nat} (h : r.indent < column) (start : Token) :
    r.rolled column start = (r.emit start).enter column :=
  if_pos h

theorem rolled_of_eq {column : Nat} (h : r.indent = column) (start : Token) :
    r.rolled column start = r :=
  if_neg (by omega)

theorem indent_rolled {column : Nat} (h : r.indent ≤ column) (start : Token) :
    (r.rolled column start).indent = column := by
  unfold rolled
  split
  · rfl
  · omega

@[simp]
theorem keys_rolled (r : Reader) (column : Nat) (start : Token) :
    (r.rolled column start).keys = r.keys := by
  unfold rolled
  split <;> rfl

@[simp]
theorem cursor_rolled (r : Reader) (column : Nat) (start : Token) :
    (r.rolled column start).cursor = r.cursor := by
  unfold rolled
  split <;> rfl

theorem inFlow_of_keys {key : Option SimpleKey} (h : r.keys = [key]) : r.inFlow = false := by
  rw [inFlow, h]

theorem removeKey_of_keys (h : r.keys = [none]) : r.removeKey = .ok r := by
  rw [removeKey, h]

/-! ## Indicators of blocks -/

theorem roll_count (hkeys : r.keys = [none]) (column : Nat) (start : Token) :
    r.roll column r.count start = r.rolled column start := by
  have hinsert : r.tokens.insertIdx (r.count - r.count) start = start :: r.tokens := by
    rw [Nat.sub_self, List.insertIdx_zero]
  unfold roll rolled
  rw [inFlow_of_keys hkeys, emitAt, hinsert]
  by_cases h : r.indent < (column : Int)
  · rw [if_pos h, if_pos (by simpa using h)]
    rfl
  · rw [if_neg h, if_neg (by simpa using h)]

theorem not_atDocumentMark {c : Char} {rest : List Char} (h : atGap rest = true) :
    atDocumentMark (c :: rest) = false := by
  rw [Bool.eq_false_iff]
  intro hmark
  obtain ⟨d, more, hd, heq⟩ := eq_of_atDocumentMark hmark
  rw [(List.cons.inj heq).2] at h
  rcases hd with rfl | rfl <;> exact nomatch h

theorem inFlow_rolled (hkeys : r.keys = [none]) (column : Nat) (start : Token) :
    (r.rolled column start).inFlow = false :=
  inFlow_of_keys ((keys_rolled r column start).trans hkeys)

theorem removeKey_rolled (hkeys : r.keys = [none]) (column : Nat) (start : Token) :
    (r.rolled column start).removeKey = .ok (r.rolled column start) :=
  removeKey_of_keys ((keys_rolled r column start).trans hkeys)

theorem past_rolled_skip {rest : List Char} {c : Char} (hc : isBreak c = false)
    (hrest : r.cursor.rest = c :: rest) (column : Nat) (start a : Token) :
    skip { (r.rolled column start).emit a with keyAllowed := true } 1 =
      (r.rolled column start).past [c] rest [a] := by
  have hskip : r.cursor.skip 1 = ⟨rest, r.cursor.mark.passed [c]⟩ := by
    rw [Mark.passed_cons hc, Cursor.skip, hrest]
    rfl
  show { (r.rolled column start).emit a with
    keyAllowed := true, cursor := (r.rolled column start).cursor.skip 1 } = _
  rw [cursor_rolled, hskip, past, cursor_rolled]
  rfl

/-- The dash of an item. -/
theorem token_dash {rest : List Char} (hkeys : r.keys = [none]) (hallowed : r.keyAllowed = true)
    (hrest : r.cursor.rest = '-' :: rest) (hgap : atGap rest = true) :
    r.token '-' rest =
      .ok ((r.rolled r.cursor.mark.column .blockSequenceStart).past ['-'] rest [.blockEntry]) := by
  have htoken : r.token '-' rest = r.dash := by
    simp [token, not_atDocumentMark hgap, hgap]
  rw [htoken, dash, inFlow_of_keys hkeys, hallowed, roll_count hkeys,
    ← past_rolled_skip (by rfl) hrest]
  show ((r.rolled _ _).removeKey >>= _) = _
  rw [removeKey_rolled hkeys, ok_bind]

/-- The question mark before a key with lines of its own. -/
theorem token_keyMark {rest : List Char} (hkeys : r.keys = [none]) (hallowed : r.keyAllowed = true)
    (hrest : r.cursor.rest = '?' :: rest) (hgap : atGap rest = true) :
    r.token '?' rest =
      .ok ((r.rolled r.cursor.mark.column .blockMappingStart).past ['?'] rest [.key]) := by
  have htoken : r.token '?' rest = r.keyMark := by
    simp [token, atDocumentMark, hgap]
  rw [htoken, keyMark, inFlow_of_keys hkeys, hallowed, roll_count hkeys,
    ← past_rolled_skip (by rfl) hrest]
  show ((r.rolled _ _).removeKey >>= _) = _
  rw [removeKey_rolled hkeys, ok_bind, inFlow_rolled hkeys]
  rfl

theorem token_colon {rest : List Char} (r : Reader) (hgap : atGap rest = true) :
    r.token ':' rest = r.valueMark := by
  simp [token, atDocumentMark, hgap]

/-- The colon behind such a key. -/
theorem token_valueMark {rest : List Char} (hkeys : r.keys = [none])
    (hallowed : r.keyAllowed = true) (hrest : r.cursor.rest = ':' :: rest)
    (hgap : atGap rest = true) :
    r.token ':' rest =
      .ok ((r.rolled r.cursor.mark.column .blockMappingStart).past [':'] rest [.value]) := by
  rw [token_colon r hgap, ← past_rolled_skip (by rfl) hrest]
  simp only [valueMark, hkeys, List.head?_cons, inFlow_of_keys hkeys, hallowed, roll_count hkeys,
    inFlow_rolled hkeys]
  rfl

/-! ## Keys on the line of their value -/

/-- Behind a token that turns out to be a key, its own mark and the start of the mapping are put in
before it. -/
theorem roll_emitAt (r : Reader) (a start : Token) (key : Option SimpleKey) (keyAllowed : Bool)
    (cursor : Cursor) (column : Nat) :
    (emitAt { r.emit a with keys := [key], keyAllowed, cursor } r.count .key).roll column r.count
        start =
      { ((r.rolled column start).emit .key).emit a with keys := [key], keyAllowed, cursor } := by
  have hkey : (a :: r.tokens).insertIdx (r.count + 1 - r.count) .key = a :: .key :: r.tokens := by
    rw [Nat.add_sub_cancel_left]
    rfl
  have hstart : (a :: .key :: r.tokens).insertIdx (r.count + 1 + 1 - r.count) start =
      a :: .key :: start :: r.tokens := by
    rw [Nat.add_assoc, Nat.add_sub_cancel_left]
    rfl
  unfold roll rolled
  by_cases h : r.indent < (column : Int)
  · rw [if_pos h]
    simp only [emitAt, emit, inFlow, hkey, hstart, enter]
    simp [h]
  · rw [if_neg h]
    simp only [emitAt, emit, inFlow, hkey]
    simp [h]

/-- The colon behind a token that is a key. -/
theorem valueMark_emit (r : Reader) (a : Token) (required keyAllowed : Bool) (mark : Mark)
    (cursor : Cursor) :
    valueMark { r.emit a with keys := [some ⟨required, r.count, mark⟩], keyAllowed, cursor } =
      .ok { (((r.rolled mark.column .blockMappingStart).emit .key).emit a).emit .value with
        keys := [none], keyAllowed := false, cursor := cursor.skip 1 } := by
  simp only [valueMark, List.head?_cons, roll_emitAt]
  rfl

theorem startsToken_cons {c : Char} {rest : List Char}
    (hc : isBlank c = false ∧ isBreak c = false ∧ c ≠ '#' ∧ c ≠ '\ufeff') :
    StartsToken (c :: rest) := by
  rintro d hd
  obtain rfl := Option.some.inj hd
  exact hc

/-- Right behind a token the reader is settled. -/
theorem settle_eq_self (hkeys : ∀ key ∈ r.keys, ∀ k ∈ key, r.isStale k = false)
    (hstart : StartsToken r.cursor.rest)
    (hcolumn : r.inFlow = true ∨ r.indent ≤ r.cursor.mark.column) : r.settle = .ok r := by
  have hdrop : r.dropStaleKeys = .ok r := by
    have hany : (r.keys.any fun key => key.any fun k => r.isStale k && k.required) = false := by
      rw [List.any_eq_false]
      intro key hkey
      rw [Option.any_eq_true]
      rintro ⟨k, hk, hstale⟩
      rw [hkeys key hkey k hk] at hstale
      exact nomatch hstale
    have hmap : (r.keys.map fun key => key.filter fun k => !r.isStale k) = r.keys := by
      refine (List.map_congr_left fun key hkey => ?_).trans r.keys.map_id
      cases key with
      | none => rfl
      | some k => rw [Option.filter_some, hkeys _ hkey k rfl]; rfl
    rw [dropStaleKeys, hany, hmap]
    rfl
  have hunroll : r.unroll r.cursor.mark.column = r := by
    rcases hcolumn with hflow | hle
    · exact if_pos hflow
    · exact unroll_of_le hle
  rw [settle, passGap_of_startsToken hstart]
  show (r.dropStaleKeys >>= fun r' => pure (r'.unroll r.cursor.mark.column)) = _
  rw [hdrop, ok_bind, hunroll]
  rfl

/-- A key is fresh behind a short text on its line. -/
theorem isStale_possibleKey {s : Reader} {text : List Char}
    (hunbroken : ∀ c ∈ text, isBreak c = false) (hshort : text.length ≤ 1024)
    (hmark : s.cursor.mark = r.cursor.mark.passed text) :
    ∀ k ∈ r.possibleKey, s.isStale k = false := by
  intro k hk
  unfold possibleKey at hk
  split at hk
  · obtain rfl := Option.some.inj hk
    rw [isStale, hmark, Mark.passed_eq_advance hunbroken, Bool.or_eq_false_iff]
    refine ⟨decide_eq_false (Nat.lt_irrefl _), decide_eq_false ?_⟩
    show ¬ r.cursor.mark.index + 1024 < r.cursor.mark.index + text.length
    omega
  · cases hk

/-- A key and its colon before the value on their line. -/
theorem steps_simpleKey {style : Style} {s rest : List Char} {indent : Nat} (hs : Suits style s)
    (hstyle : style ≠ .literal) (hpos : 0 < indent) (hkeys : r.keys = [none])
    (hallowed : r.keyAllowed = true) (hcolumn : r.indent ≤ r.cursor.mark.column)
    (hunbroken : ∀ c ∈ Printer.inlineScalar indent style s, isBreak c = false)
    (hshort : (Printer.inlineScalar indent style s).length ≤ 1024)
    (hrest : r.cursor.rest = Printer.inlineScalar indent style s ++ ':' :: rest)
    (hgap : atGap rest = true) {t : Reader}
    (h : Arrives { (r.rolled r.cursor.mark.column .blockMappingStart).past
      (Printer.inlineScalar indent style s ++ [':']) rest
      [.key, .scalar (scalarStyle style) s, .value] with keyAllowed := false } t) :
    Steps r t := by
  obtain ⟨c, tail, hcons⟩ :=
    List.exists_cons_of_ne_nil (inlineScalar_ne_nil hs hstyle indent)
  have hcons' : r.cursor.rest = c :: (tail ++ ':' :: rest) := by
    rw [hrest, hcons, List.cons_append]
  have hread := @readInline_key r style indent s rest r.cursor.mark hs hstyle hpos hcolumn hgap
  rw [← hrest] at hread
  have htoken := (token_inline hs hstyle (inFlow_of_keys hkeys) (hrest.symm.trans hcons')
    (by simp)).trans (flowScalar_eq hkeys hread)
  -- Right behind the scalar stands the colon, so the scalar may still be a key.
  refine .token hcons' htoken (by simp) (settle_eq_self ?_ ?_ ?_) ?_
  · simpa using isStale_possibleKey hunbroken hshort rfl
  · exact startsToken_cons (by decide)
  · right
    show r.indent ≤ (r.cursor.mark.passed (Printer.inlineScalar indent style s)).column
    rw [Mark.passed_eq_advance hunbroken]
    exact Int.le_trans hcolumn (Int.ofNat_le.2 (Nat.le_add_right _ _))
  · refine Steps.of_arrives rfl ((token_colon _ hgap).trans ?_) le_rfl h
    have hplace : (r.cursor.mark.passed (Printer.inlineScalar indent style s)).advance =
        r.cursor.mark.passed (Printer.inlineScalar indent style s ++ [':']) := by
      rw [Mark.passed_append]
      rfl
    rw [possibleKey, if_pos hallowed, valueMark_emit, past, cursor_rolled, ← hplace, keys_rolled,
      hkeys]
    rfl

/-! ## Empty collections -/

/-- The characters and tokens around a collection in brackets. -/
structure IsBrackets (opening closing : Char) (start stop : Token) : Prop where
  opens : ∀ (r : Reader) (rest : List Char), r.token opening rest = r.openFlow start
  closes : ∀ (r : Reader) (rest : List Char), r.token closing rest = r.closeFlow stop
  startsToken : ∀ c ∈ [opening, closing],
    isBlank c = false ∧ isBreak c = false ∧ c ≠ '#' ∧ c ≠ '\ufeff'

theorem isBrackets_sequence : IsBrackets '[' ']' .flowSequenceStart .flowSequenceEnd where
  opens r rest := by simp [token, atDocumentMark]
  closes r rest := by simp [token, atDocumentMark]
  startsToken := by simp [isBlank, isBreak]

theorem isBrackets_mapping : IsBrackets '\x7b' '\x7d' .flowMappingStart .flowMappingEnd where
  opens r rest := by simp [token, atDocumentMark]
  closes r rest := by simp [token, atDocumentMark]
  startsToken := by simp [isBlank, isBreak]

/-- An empty collection at the end of a line. -/
theorem IsBrackets.steps {opening closing : Char} {start stop : Token}
    (hb : IsBrackets opening closing start stop) {column : Nat} {rest : List Char}
    (hkeys : r.keys = [none]) (hcolumn : r.indent < r.cursor.mark.column)
    (h : Follows r.indent column rest)
    (hrest : r.cursor.rest = opening :: closing :: '\n' :: (Printer.spaces column ++ rest)) :
    Steps r ((r.past (opening :: closing :: '\n' :: Printer.spaces column) rest
      [start, stop]).unroll column) := by
  have hopening := hb.startsToken opening (by simp)
  have hclosing := hb.startsToken closing (by simp)
  set line := '\n' :: (Printer.spaces column ++ rest) with hline
  -- The state between the brackets, and the one behind them.
  set inside : Reader := { r.emit start with
    cursor := ⟨closing :: line, r.cursor.mark.advance⟩
    keys := [none, r.possibleKey]
    keyAllowed := true } with hinside
  set behind : Reader := { (r.emit start).emit stop with
    cursor := ⟨line, r.cursor.mark.advance.advance⟩
    keys := [r.possibleKey]
    keyAllowed := false } with hbehind
  have hopens : r.token opening (closing :: line) = .ok inside := by
    have hskip : r.cursor.skip 1 = ⟨closing :: line, r.cursor.mark.advance⟩ := by
      rw [Cursor.skip, hrest]
      rfl
    rw [hb.opens, openFlow, saveKey_eq hkeys, ok_bind, hinside, ← hskip]
    rfl
  have hcloses : inside.token closing line = .ok behind := by
    rw [hb.closes]
    rfl
  have hinner : inside.settle = .ok inside := by
    refine settle_eq_self ?_ (startsToken_cons hclosing) (.inl rfl)
    have hmark : inside.cursor.mark = r.cursor.mark.passed [opening] := by
      rw [Mark.passed_cons hopening.2.1]
      rfl
    have hfresh := isStale_possibleKey (by simpa using hopening.2.1) (by simp) hmark
    simpa [hinside] using hfresh
  have hplace : r.cursor.mark.passed (opening :: closing :: '\n' :: Printer.spaces column) =
      r.cursor.mark.advance.advance.newline.advance column := by
    rw [Mark.passed_cons hopening.2.1, Mark.passed_cons hclosing.2.1, Mark.passed_break (by rfl),
      Mark.passed_spaces]
  have hgap : passGap false line r.cursor.mark.advance.advance false false =
      (⟨rest, r.cursor.mark.passed (opening :: closing :: '\n' :: Printer.spaces column)⟩,
        true) := by
    rw [hline, passGap_break, passGap_spaces, passGap_of_startsToken h.head, hplace]
  have houter : behind.settle = .ok ((r.past (opening :: closing :: '\n' :: Printer.spaces column)
      rest [start, stop]).unroll column) := by
    have hstale := possibleKey_stale (b := '\n') rfl
      (by simp : '\n' ∈ opening :: closing :: '\n' :: Printer.spaces column) hcolumn
    have hsettle := @settle_emit (r.emit start)
      (opening :: closing :: '\n' :: Printer.spaces column) rest r.possibleKey stop
      ⟨line, r.cursor.mark.advance.advance⟩ false hkeys hstale hgap
    have hcolumn : (r.cursor.mark.passed (opening :: closing :: '\n' ::
        Printer.spaces column)).column = column := by
      rw [hplace]
      exact Nat.zero_add column
    rw [hbehind, hsettle]
    show Except.ok (unroll _ ((r.cursor.mark.passed _).column : Nat)) = _
    rw [hcolumn]
    rfl
  exact .token hrest hopens le_rfl hinner (.token rfl hcloses le_rfl houter (.refl _))

end ClusterTuning.Yaml.Token.Reader
