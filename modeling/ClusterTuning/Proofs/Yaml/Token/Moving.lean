import ClusterTuning.Proofs.Yaml.Token.Consuming

/-!
# Tokens do not depend on where a text stands

Of two places only the distance counts, of one place only the column.  A text that
stands further on in a larger one therefore has the same tokens.

* `readPlain_moved`, `readBlock_moved` … — the readers of scalars;
* `token_moved` — one token;
* `run_moved` — the rest of a text.
-/

namespace ClusterTuning.Yaml

variable {offset mark : Mark} {cursor : Cursor}

/-! ## Moving places -/

/-- The place further on by the index and the line of another one, in the same column. -/
def Mark.moved (mark offset : Mark) : Mark :=
  { mark with index := mark.index + offset.index, line := mark.line + offset.line }

@[simp]
theorem Mark.advance_moved (n : Nat) :
    (mark.moved offset).advance n = (mark.advance n).moved offset := by
  simp only [advance, moved, Nat.add_right_comm]

@[simp]
theorem Mark.newline_moved (n : Nat) :
    (mark.moved offset).newline n = (mark.newline n).moved offset := by
  simp only [newline, moved, Nat.add_right_comm]

@[simp]
theorem Mark.column_moved : (mark.moved offset).column = mark.column :=
  rfl

/-- The start of a line is the start of a text that was moved there. -/
theorem Mark.moved_start (h : mark.column = 0) : ({} : Mark).moved mark = mark := by
  obtain ⟨index, line, column⟩ := mark
  obtain rfl : column = 0 := h
  simp only [moved, Nat.zero_add]

/-- The same text, further on. -/
def Cursor.moved (cursor : Cursor) (offset : Mark) : Cursor :=
  { cursor with mark := cursor.mark.moved offset }

@[simp]
theorem Cursor.rest_moved : (cursor.moved offset).rest = cursor.rest :=
  rfl

@[simp]
theorem Cursor.mark_moved : (cursor.moved offset).mark = cursor.mark.moved offset :=
  rfl

@[simp]
theorem Cursor.skip_moved (n : Nat) :
    (cursor.moved offset).skip n = (cursor.skip n).moved offset := by
  rw [skip, mark_moved, Mark.advance_moved]
  rfl

namespace Token

/-! ## Scalars -/

/-- The same scalar, further on. -/
def ScalarRead.moved (found : ScalarRead) (offset : Mark) : ScalarRead :=
  { found with cursor := found.cursor.moved offset }

theorem readPlain_moved (inFlow : Bool) (indent : Nat) (s : List Char) (mark : Mark)
    (text : List Char) (gap : Gap) :
    readPlain inFlow indent s (mark.moved offset) text gap =
      (readPlain inFlow indent s mark text gap).map (·.moved offset) := by
  fun_induction readPlain inFlow indent s mark text gap with
  | case1 => rfl
  | case2 _ _ _ _ ih => rw [readPlain, Mark.newline_moved, ih]
  | case3 _ _ _ _ _ hpair hblank htab =>
    rw [readPlain, if_pos hblank]
    exacts [if_pos htab, hpair]
  | case4 _ _ _ _ _ hpair hblank htab ih =>
    rw [readPlain, if_pos hblank, Mark.advance_moved, ih]
    exacts [if_neg htab, hpair]
  | case5 _ _ _ _ _ hpair hblank hbreak ih =>
    rw [readPlain, if_neg hblank, if_pos hbreak, Mark.newline_moved, ih]
    exact hpair
  | case6 _ _ _ _ _ hpair hblank hbreak hends =>
    rw [readPlain, if_neg hblank, if_neg hbreak]
    exacts [if_pos hends, hpair]
  | case7 _ _ _ _ _ hpair hblank hbreak hends hcolon =>
    rw [readPlain, if_neg hblank, if_neg hbreak, if_pos hcolon]
    exacts [if_neg hends, hpair]
  | case8 _ _ _ _ _ hpair hblank hbreak hends hcolon hstop =>
    rw [readPlain, if_neg hblank, if_neg hbreak, if_neg hcolon, if_pos hstop]
    exacts [if_neg hends, hpair]
  | case9 _ _ _ _ _ hpair hblank hbreak hends hcolon hstop ih =>
    rw [readPlain, if_neg hblank, if_neg hbreak, if_neg hcolon, if_neg hstop, Mark.advance_moved,
      ih]
    exacts [if_neg hends, hpair]

theorem readSingle_moved (s : List Char) (mark : Mark) (text : List Char) (gap : Gap) :
    readSingle s (mark.moved offset) text gap =
      (readSingle s mark text gap).map (·.moved offset) := by
  fun_induction readSingle s mark text gap <;>
    simp only [readSingle, Mark.column_moved, Mark.advance_moved, Mark.newline_moved,
      Bool.false_eq_true, if_true, if_false, *] <;> rfl

theorem readDouble_moved (s : List Char) (mark : Mark) (text : List Char) (gap : Gap)
    (number : Option NumberEscape) :
    readDouble s (mark.moved offset) text gap number =
      (readDouble s mark text gap number).map (·.moved offset) := by
  fun_induction readDouble s mark text gap number with
  | case3 _ _ _ _ _ _ _ hdigit _ hleft ih =>
    rw [readDouble, hdigit, Mark.advance_moved]
    exact (if_pos hleft).trans ih
  | case4 _ _ _ _ _ _ _ hdigit _ hleft _ hchar ih =>
    rw [readDouble, hdigit, Mark.advance_moved]
    refine (if_neg hleft).trans ?_
    rw [hchar]
    exact ih
  | case5 _ _ _ _ _ _ _ hdigit _ hleft hchar =>
    rw [readDouble, hdigit]
    refine (if_neg hleft).trans ?_
    rw [hchar]
    rfl
  | _ =>
    simp only [readDouble, Mark.column_moved, Mark.advance_moved, Mark.newline_moved,
      Bool.false_eq_true, if_true, if_false, *] <;> rfl

/-! ## Block scalars -/

theorem passBreak_moved (cursor : Cursor) :
    passBreak (cursor.moved offset) = (passBreak cursor).moved offset := by
  obtain ⟨rest, mark⟩ := cursor
  fun_cases passBreak ⟨rest, mark⟩ <;> simp_all [passBreak, Cursor.moved]

theorem passLineEnd_moved (cursor : Cursor) :
    passLineEnd (cursor.moved offset) = (passLineEnd cursor).map (·.moved offset) := by
  simp only [passLineEnd, Cursor.rest_moved, Cursor.skip_moved]
  split <;> simp only [Cursor.rest_moved, passBreak_moved] <;> split <;> rfl

theorem readLeadingLines_moved (s : List Char) (mark : Mark) (breaks : List Char) (widest : Nat) :
    readLeadingLines s (mark.moved offset) breaks widest =
      (readLeadingLines s mark breaks widest).map
        fun leading => { leading with cursor := leading.cursor.moved offset } := by
  fun_induction readLeadingLines s mark breaks widest <;>
    simp only [readLeadingLines, Mark.column_moved, Mark.advance_moved, Mark.newline_moved,
      Bool.false_eq_true, if_true, if_false, *] <;> rfl

theorem readBlockLines_moved (isFolded : Bool) (indent : Nat) (s : List Char) (mark : Mark)
    (lines : BlockLines) :
    readBlockLines isFolded indent s (mark.moved offset) lines =
      (readBlockLines isFolded indent s mark lines).map (.map id (·.moved offset)) := by
  fun_induction readBlockLines isFolded indent s mark lines with
  | case4 _ _ _ _ hpair hbreak hline ih =>
    rw [readBlockLines, if_neg hbreak, if_pos hline, Mark.advance_moved, ih]
    exact hpair
  | _ =>
    simp only [readBlockLines, Mark.column_moved, Mark.advance_moved, Mark.newline_moved,
      Bool.false_eq_true, if_true, if_false, *] <;> rfl

theorem readBlock_moved (isFolded : Bool) (parent : Int) (cursor : Cursor) :
    readBlock isFolded parent (cursor.moved offset) =
      (readBlock isFolded parent cursor).map (·.moved offset) := by
  simp only [readBlock, Cursor.rest_moved, Cursor.skip_moved, passLineEnd_moved, map_bind,
    bind_of_map]
  refine bind_congr fun header => bind_congr fun after => ?_
  split
  · simp only [pure_bind, map_bind, bind_of_map, Cursor.rest_moved, Cursor.mark_moved,
      readBlockLines_moved]
    rfl
  · simp only [pure_bind, map_bind, bind_of_map, Cursor.rest_moved, Cursor.mark_moved,
      readLeadingLines_moved, readBlockLines_moved]
    rfl

/-! ## Tags, anchors and directives -/

theorem readTag_moved (inFlow : Bool) (cursor : Cursor) :
    readTag inFlow (cursor.moved offset) =
      (readTag inFlow cursor).map (.map id (·.moved offset)) := by
  simp only [readTag, Cursor.rest_moved, Cursor.skip_moved, map_bind]
  refine bind_congr fun found => ?_
  split <;> rfl

theorem readAnchor_moved (make : List Char → Token) (cursor : Cursor) :
    readAnchor make (cursor.moved offset) =
      (readAnchor make cursor).map (.map id (·.moved offset)) := by
  simp only [readAnchor, Cursor.rest_moved, Cursor.skip_moved]
  split <;> rfl

theorem readDirective_moved (cursor : Cursor) :
    readDirective (cursor.moved offset) =
      (readDirective cursor).map (.map id (·.moved offset)) := by
  simp only [readDirective, Cursor.rest_moved, Cursor.skip_moved, passLineEnd_moved, bind_of_map]
  split_ifs <;> simp only [map_bind] <;> rfl

/-! ## The reader -/

/-- The same key, further on. -/
def SimpleKey.moved (key : SimpleKey) (offset : Mark) : SimpleKey :=
  { key with mark := key.mark.moved offset }

namespace Reader

variable {r : Reader}

/-- The reader of the same text, further on. -/
def moved (r : Reader) (offset : Mark) : Reader :=
  { r with
    cursor := r.cursor.moved offset
    keys := r.keys.map (Option.map (·.moved offset)) }

@[simp]
theorem cursor_moved : (r.moved offset).cursor = r.cursor.moved offset :=
  rfl

@[simp]
theorem keys_moved : (r.moved offset).keys = r.keys.map (Option.map (·.moved offset)) :=
  rfl

@[simp]
theorem indent_moved : (r.moved offset).indent = r.indent :=
  rfl

@[simp]
theorem count_moved : (r.moved offset).count = r.count :=
  rfl

@[simp]
theorem keyAllowed_moved : (r.moved offset).keyAllowed = r.keyAllowed :=
  rfl

/-- A state that differs from another one by its place only still does after some characters. -/
theorem ok_skip_moved {s : Reader} (h : s = r.moved offset) (n : Nat) :
    Except.ok (s.skip n) = (Except.ok (r.skip n) : Except Fault Reader).map (·.moved offset) := by
  rw [h, skip, cursor_moved, Cursor.skip_moved]
  rfl

@[simp]
theorem inFlow_moved : (r.moved offset).inFlow = r.inFlow := by
  rcases hkeys : r.keys with _ | ⟨_, _ | _⟩ <;> simp [inFlow, moved, hkeys]

/-- How long ago a key started does not depend on where the text stands. -/
theorem isStale_moved (key : SimpleKey) :
    (r.moved offset).isStale (key.moved offset) = r.isStale key := by
  simp [isStale, moved, SimpleKey.moved, Cursor.moved, Mark.moved, Nat.add_right_comm _ _ 1024]

theorem dropStaleKeys_moved (r : Reader) (offset : Mark) :
    (r.moved offset).dropStaleKeys = r.dropStaleKeys.map (·.moved offset) := by
  have hany : ((r.moved offset).keys.any fun key =>
      key.any fun k => (r.moved offset).isStale k && k.required) =
        r.keys.any fun key => key.any fun k => r.isStale k && k.required := by
    simp only [keys_moved, List.any_map, Function.comp_def, Option.any_map, isStale_moved]
    rfl
  have hfilter : ((r.moved offset).keys.map fun key =>
      key.filter fun k => !(r.moved offset).isStale k) =
        (r.keys.map fun key => key.filter fun k => !r.isStale k).map
          (Option.map (·.moved offset)) := by
    simp only [keys_moved, List.map_map, Function.comp_def, Option.filter_map, isStale_moved]
  rw [dropStaleKeys, dropStaleKeys, hany, hfilter]
  split <;> rfl

theorem removeKey_moved : (r.moved offset).removeKey = r.removeKey.map (·.moved offset) := by
  rcases hkeys : r.keys with _ | ⟨_ | key, rest⟩
  · simp [removeKey, moved, hkeys, Except.map]
  · simp [removeKey, moved, hkeys, Except.map]
  · by_cases hrequired : key.required = true <;>
      simp [removeKey, moved, hkeys, Except.map, SimpleKey.moved, hrequired]

theorem saveKey_moved : (r.moved offset).saveKey = r.saveKey.map (·.moved offset) := by
  rw [saveKey, saveKey, keyAllowed_moved]
  split
  · rw [removeKey_moved, bind_of_map, map_bind]
    refine bind_congr fun s => ?_
    rw [inFlow_moved, keys_moved, ← List.map_tail]
    rfl
  · rfl

theorem unrollTo_moved (column : Int) (outer : List Int) (r : Reader) :
    unrollTo column outer (r.moved offset) = (unrollTo column outer r).moved offset := by
  induction outer generalizing r with
  | nil => rfl
  | cons c rest ih =>
    rw [unrollTo, unrollTo, indent_moved]
    split
    · exact ih { r.emit .blockEnd with indent := c, indents := rest }
    · rfl

@[simp]
theorem unroll_moved (column : Int) :
    (r.moved offset).unroll column = (r.unroll column).moved offset := by
  rw [unroll, unroll, inFlow_moved]
  split
  · rfl
  · exact unrollTo_moved column r.indents r

@[simp]
theorem roll_moved (column position : Nat) (token : Token) :
    (r.moved offset).roll column position token = (r.roll column position token).moved offset := by
  rw [roll, roll, inFlow_moved, indent_moved]
  split <;> rfl

theorem passGap_moved (inFlow : Bool) (s : List Char) (mark : Mark) (keyAllowed inComment : Bool) :
    passGap inFlow s (mark.moved offset) keyAllowed inComment =
      (passGap inFlow s mark keyAllowed inComment).map (·.moved offset) id := by
  fun_induction passGap inFlow s mark keyAllowed inComment <;>
    simp only [passGap, Mark.column_moved, Mark.advance_moved, Mark.newline_moved,
      Bool.false_eq_true, if_true, if_false, *] <;> rfl

/-! ## Tokens -/

theorem atLineStart_moved : (r.moved offset).atLineStart = r.atLineStart.map (·.moved offset) := by
  simp only [atLineStart, unroll_moved, removeKey_moved, map_bind, bind_of_map]
  rfl

theorem directive_moved : (r.moved offset).directive = r.directive.map (·.moved offset) := by
  simp only [directive, atLineStart_moved, map_bind, bind_of_map, cursor_moved, readDirective_moved]
  rfl

theorem documentMark_moved (token : Token) :
    (r.moved offset).documentMark token = (r.documentMark token).map (·.moved offset) := by
  simp only [documentMark, atLineStart_moved, map_bind, bind_of_map]
  exact bind_congr fun s => ok_skip_moved (by rfl) 3

theorem openFlow_moved (token : Token) :
    (r.moved offset).openFlow token = (r.openFlow token).map (·.moved offset) := by
  simp only [openFlow, saveKey_moved, map_bind, bind_of_map]
  exact bind_congr fun s => ok_skip_moved (by rfl) 1

theorem closeFlow_moved (token : Token) :
    (r.moved offset).closeFlow token = (r.closeFlow token).map (·.moved offset) := by
  simp only [closeFlow, removeKey_moved, map_bind, bind_of_map]
  refine bind_congr fun s => ?_
  rw [inFlow_moved, keys_moved, ← List.map_tail, ← apply_ite (List.map _)]
  exact ok_skip_moved (by rfl) 1

theorem flowComma_moved :
    (r.moved offset).flowComma = r.flowComma.map (·.moved offset) := by
  simp only [flowComma, removeKey_moved, map_bind, bind_of_map]
  exact bind_congr fun s => ok_skip_moved (by rfl) 1

theorem dash_moved : (r.moved offset).dash = r.dash.map (·.moved offset) := by
  simp only [dash, inFlow_moved, keyAllowed_moved, cursor_moved, Cursor.mark_moved,
    Mark.column_moved, count_moved, roll_moved, removeKey_moved, bind_of_map]
  split
  · rfl
  · rw [map_bind]
    exact bind_congr fun s => ok_skip_moved (by rfl) 1

theorem keyMark_moved : (r.moved offset).keyMark = r.keyMark.map (·.moved offset) := by
  simp only [keyMark, inFlow_moved, keyAllowed_moved, cursor_moved, Cursor.mark_moved,
    Mark.column_moved, count_moved, roll_moved, removeKey_moved, bind_of_map]
  split
  · rfl
  · rw [map_bind]
    exact bind_congr fun s => ok_skip_moved (by rfl) 1

theorem valueMark_moved : (r.moved offset).valueMark = r.valueMark.map (·.moved offset) := by
  unfold valueMark
  rw [keys_moved, List.head?_map]
  rcases r.keys.head? with _ | _ | key
  case none | some.none =>
    simp only [Option.map_none, Option.map_some, inFlow_moved, keyAllowed_moved, cursor_moved,
      Cursor.mark_moved, Mark.column_moved, count_moved, roll_moved]
    split
    · rfl
    · exact ok_skip_moved (by rfl) 1
  case some.some =>
    have hroll : ((r.moved offset).emitAt key.position .key).roll key.mark.column key.position
        .blockMappingStart =
          ((r.emitAt key.position .key).roll key.mark.column key.position .blockMappingStart).moved
            offset := roll_moved (r := r.emitAt key.position .key) ..
    refine ok_skip_moved (Eq.trans (congrArg (fun s : Reader =>
      { s.emit .value with keys := none :: s.keys.tail, keyAllowed := false }) hroll) ?_) 1
    simp only [keys_moved, ← List.map_tail]
    rfl

theorem property_moved {read : Cursor → Except Fault (Token × Cursor)}
    (hread : ∀ cursor, read (cursor.moved offset) = (read cursor).map (.map id (·.moved offset))) :
    (r.moved offset).property read = (r.property read).map (·.moved offset) := by
  simp only [property, saveKey_moved, map_bind, bind_of_map, cursor_moved, hread]
  rfl

theorem blockScalar_moved (isFolded : Bool) :
    (r.moved offset).blockScalar isFolded = (r.blockScalar isFolded).map (·.moved offset) := by
  simp only [blockScalar, removeKey_moved, map_bind, bind_of_map, cursor_moved, indent_moved,
    readBlock_moved]
  rfl

theorem flowScalar_moved (offset : Mark) (style : ScalarStyle)
    (read : Cursor → Except Fault ScalarRead)
    (hread : ∀ cursor, read (cursor.moved offset) = (read cursor).map (·.moved offset)) :
    (r.moved offset).flowScalar style read = (r.flowScalar style read).map (·.moved offset) := by
  simp only [flowScalar, saveKey_moved, map_bind, bind_of_map, cursor_moved, hread]
  rfl

/-- One token of the text. -/
theorem token_moved (c : Char) (rest : List Char) :
    (r.moved offset).token c rest = (r.token c rest).map (·.moved offset) := by
  have hsingle := flowScalar_moved (r := r) offset .singleQuoted
    (fun cursor => readSingle (cursor.rest.drop 1) cursor.mark.advance [] .none)
    fun cursor => by
      simp only [Cursor.rest_moved, Cursor.mark_moved, Mark.advance_moved, readSingle_moved]
  have hdouble := flowScalar_moved (r := r) offset .doubleQuoted
    (fun cursor => readDouble (cursor.rest.drop 1) cursor.mark.advance [] .none none)
    fun cursor => by
      simp only [Cursor.rest_moved, Cursor.mark_moved, Mark.advance_moved, readDouble_moved]
  have hplain := flowScalar_moved (r := r) offset .plain
    (fun cursor => readPlain r.inFlow (r.indent + 1).toNat cursor.rest cursor.mark [] .none)
    fun cursor => readPlain_moved ..
  simp only [token, cursor_moved, Cursor.mark_moved, Mark.column_moved, inFlow_moved, indent_moved,
    directive_moved, documentMark_moved, openFlow_moved, closeFlow_moved, flowComma_moved,
    dash_moved, keyMark_moved, valueMark_moved, property_moved (readAnchor_moved _),
    property_moved (readTag_moved _), blockScalar_moved, hsingle, hdouble, hplain,
    apply_ite (Except.map _)]
  rfl

theorem finish_moved : (r.moved offset).finish = r.finish := by
  simp only [finish, unroll_moved, removeKey_moved, bind_of_map]
  rfl

theorem settle_moved : (r.moved offset).settle = r.settle.map (·.moved offset) := by
  rw [settle, settle, inFlow_moved, cursor_moved, Cursor.rest_moved, Cursor.mark_moved,
    keyAllowed_moved, passGap_moved]
  generalize passGap r.inFlow r.cursor.rest r.cursor.mark r.keyAllowed false = passed
  have hstale :=
    dropStaleKeys_moved { r with cursor := passed.1, keyAllowed := passed.2 } offset
  rw [map_bind]
  refine (congrArg (· >>= _) hstale).trans ?_
  rw [bind_of_map]
  exact bind_congr fun s => congrArg Except.ok (unroll_moved _)

/-- The tokens of a text do not depend on where it stands. -/
theorem run_moved (steps : Nat) (r : Reader) : run steps (r.moved offset) = run steps r := by
  induction steps generalizing r with
  | zero => rfl
  | succ steps ih =>
    have hread (s : Reader) : readOn steps (s.moved offset) = readOn steps s := by
      rw [readOn, readOn, cursor_moved, Cursor.rest_moved]
      split
      · exact finish_moved
      · rw [token_moved, bind_of_map]
        exact bind_congr ih
    rw [run_succ, run_succ, settle_moved, bind_of_map]
    exact bind_congr hread

end Reader

end Token

end ClusterTuning.Yaml
