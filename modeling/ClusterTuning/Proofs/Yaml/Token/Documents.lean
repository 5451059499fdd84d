import ClusterTuning.Proofs.Yaml.Token.Collections
import ClusterTuning.Stream

/-!
# Streams are read back as tokens

A document ends where the line of dashes before the next one starts, or with the
text: there the reader closes every collection that stands open.

* `isWritten_of_isData` — every character that is written may stand in a text;
* `run_documents` — from the start of a document to the end of the stream;
* `readAll_documents` — a whole stream.
-/

namespace ClusterTuning.Yaml.Token

open Printer (isPrintable Style Place)

/-! ## The characters of scalars -/

theorem isAllowed_of_isPrintable {c : Char} (h : isPrintable c = true) : isAllowed c = true := by
  simp only [isPrintable, Bool.or_eq_true, Bool.and_eq_true, beq_iff_eq, decide_eq_true_eq,
    bne_iff_ne] at h
  simp only [isAllowed, Bool.or_eq_true, Bool.and_eq_true, beq_iff_eq, decide_eq_true_eq]
  omega

theorem eq_of_mem_indentation {broken : Bool} {indent : Nat} {c : Char}
    (h : c ∈ if broken then Printer.spaces indent else []) : c = ' ' := by
  split_ifs at h
  · exact List.eq_of_mem_replicate h
  · exact absurd h List.not_mem_nil

/-- In single quotes stand the characters of the text and indentation. -/
theorem of_mem_singleBody {indent : Nat} {c : Char} (s : List Char) :
    ∀ {broken : Bool}, c ∈ Printer.singleBody indent broken s → c = ' ' ∨ c ∈ s := by
  induction s with
  | nil => exact fun h => .inl (eq_of_mem_indentation h)
  | cons d rest ih =>
    intro broken h
    have hbehind {broken : Bool} (h : c ∈ Printer.singleBody indent broken rest) :
        c = ' ' ∨ c ∈ d :: rest := (ih h).imp_right (List.mem_cons_of_mem d)
    cases hd : isBreak d with
    | true =>
      rw [singleBody_break hd] at h
      rcases List.mem_cons.1 h with rfl | h
      · exact .inr List.mem_cons_self
      · exact hbehind h
    | false =>
      rw [singleBody_cons hd] at h
      rcases List.mem_append.1 h with h | h
      · exact .inl (eq_of_mem_indentation h)
      rcases List.mem_append.1 h with h | h
      · right
        split_ifs at h with hquote
        · simp_all
        · exact List.mem_singleton.1 h ▸ List.mem_cons_self
      · exact hbehind h

/-- In a literal block stand the characters of the text and indentation. -/
theorem of_mem_literalBody {indent : Nat} {c : Char} (s : List Char) :
    ∀ {broken : Bool}, c ∈ Printer.literalBody indent broken s → c = ' ' ∨ c ∈ s := by
  induction s with
  | nil => exact fun h => absurd h List.not_mem_nil
  | cons d rest ih =>
    intro broken h
    have hcons {broken : Bool} (h : c ∈ d :: Printer.literalBody indent broken rest) :
        c = ' ' ∨ c ∈ d :: rest := by
      rcases List.mem_cons.1 h with rfl | h
      · exact .inr List.mem_cons_self
      · exact (ih h).imp_right (List.mem_cons_of_mem d)
    cases hd : isBreak d with
    | true =>
      rw [literalBody_break hd] at h
      exact hcons h
    | false =>
      rw [literalBody_cons hd] at h
      rcases List.mem_append.1 h with h | h
      · exact .inl (eq_of_mem_indentation h)
      · exact hcons h

theorem isPrintable_of_mem_inlineScalar {style : Style} {s : List Char} {indent : Nat}
    (hs : Suits style s) : ∀ c ∈ Printer.inlineScalar indent style s, isPrintable c = true := by
  have hquoted {q : Char} (hq : isPrintable q = true) {body : List Char}
      (hbody : ∀ c ∈ body, isPrintable c = true) : ∀ c ∈ q :: (body ++ [q]), isPrintable c = true :=
    List.forall_mem_cons.2 ⟨hq, List.forall_mem_append.2 ⟨hbody, by simpa using hq⟩⟩
  cases style with
  | plain => exact hs.printable
  | literal => exact hs.2
  | single =>
    refine hquoted (by rfl) fun c hc => ?_
    rcases of_mem_singleBody s hc with rfl | hc
    · rfl
    · exact hs.printable c hc
  | double =>
    refine hquoted (by rfl) fun c hc => ?_
    obtain ⟨d, -, hc⟩ := List.mem_flatMap.1 hc
    exact (doubleChar_spec hc).1

theorem isPrintable_of_mem_scalarLine {style : Style} {s : List Char} {indent : Nat}
    (hs : Suits style s) : ∀ c ∈ Printer.scalarLine indent style s, isPrintable c = true := by
  by_cases hstyle : style = .literal
  · subst hstyle
    have hhints : ∀ c ∈ Printer.literalHints s, isPrintable c = true := by
      intro c hc
      have hmarks : ∀ m : Chomping, ∀ d ∈ m.mark, isPrintable d = true := by
        intro m
        cases m <;> simp [Chomping.mark, isPrintable]
      rw [literalHints_eq] at hc
      rcases List.mem_append.1 hc with hc | hc
      · split_ifs at hc
        · rw [List.mem_singleton.1 hc]
          rfl
        · exact absurd hc List.not_mem_nil
      · exact hmarks _ c hc
    have hbody : ∀ c ∈ Printer.literalBody indent true (Printer.endLine s),
        isPrintable c = true := by
      intro c hc
      rcases of_mem_literalBody _ hc with rfl | hc
      · rfl
      · exact isPrintable_of_mem_endLine hs.2 c hc
    rw [scalarLine_literal indent hs.1]
    exact List.forall_mem_cons.2
      ⟨rfl, List.forall_mem_append.2 ⟨hhints, List.forall_mem_cons.2 ⟨rfl, hbody⟩⟩⟩
  · rw [Reader.scalarLine_inline hstyle]
    exact List.forall_mem_append.2
      ⟨isPrintable_of_mem_inlineScalar hs, List.forall_mem_singleton.2 rfl⟩

/-! ## The characters of nodes -/

/-- Every character of a node can stand in a document as it is. -/
def IsWritten (v : Value) : Prop :=
  ∀ place, ∀ c ∈ Printer.node place none v, isPrintable c = true

theorem isPrintable_of_mem_spaces {n : Nat} : ∀ c ∈ Printer.spaces n, isPrintable c = true :=
  fun _ hc => List.eq_of_mem_replicate hc ▸ rfl

theorem isPrintable_of_mem_lead (place : Place) (column : Nat) :
    ∀ c ∈ place.lead false column, isPrintable c = true := by
  cases place with
  | root => exact List.forall_mem_nil _
  | item => exact isPrintable_of_mem_spaces (n := 1)
  | mark => exact isPrintable_of_mem_spaces (n := 1)
  | field => exact List.forall_mem_cons.2 ⟨rfl, isPrintable_of_mem_spaces⟩

/-- A node that is written on the line of its key or mark. -/
theorem isWritten_line {v : Value} {line : Place → List Char}
    (hnode : ∀ place, Printer.node place none v = Printer.gap place none ++ line place)
    (hline : ∀ place, ∀ c ∈ line place, isPrintable c = true) : IsWritten v := by
  intro place
  rw [hnode, gap_eq]
  exact List.forall_mem_append.2 ⟨isPrintable_of_mem_spaces, hline place⟩

theorem isPrintable_of_mem_items {column : Nat} (xs : List Value) (h : ∀ x ∈ xs, IsWritten x) :
    ∀ c ∈ Printer.items column xs, isPrintable c = true := by
  induction xs with
  | nil =>
    rw [Printer.items]
    exact List.forall_mem_nil _
  | cons x xs ih =>
    obtain ⟨hx, hxs⟩ := List.forall_mem_cons.1 h
    rw [Printer.items]
    simp only [List.forall_mem_append, List.forall_mem_cons]
    exact ⟨⟨isPrintable_of_mem_spaces, rfl, hx _⟩, ih hxs⟩

theorem isWritten_scalar {v : Value} {style : Style} {s : List Char}
    (h : Printer.scalar? v = some (style, s)) (hs : Suits style s) : IsWritten v :=
  isWritten_line (Reader.node_scalar h) fun _ => isPrintable_of_mem_scalarLine hs

theorem isPrintable_of_mem_entryHead (d : Nat) (s : String) :
    ∀ c ∈ Reader.entryHead d (.string s), isPrintable c = true := by
  have hs : Suits (Printer.textStyle s.toList) s.toList := suits_textStyle s.toList
  unfold Reader.entryHead
  cases hkey : Printer.simpleKey? d (.string s) with
  | some text =>
    obtain ⟨rfl, -⟩ := simpleKey?_spec hkey
    exact List.forall_mem_append.2
      ⟨isPrintable_of_mem_inlineScalar hs, List.forall_mem_singleton.2 rfl⟩
  | none =>
    have hnode : IsWritten (.string s) := isWritten_scalar rfl hs
    simp only [List.forall_mem_append, List.forall_mem_cons]
    exact ⟨rfl, hnode _, isPrintable_of_mem_spaces, rfl, List.forall_mem_nil _⟩

theorem isPrintable_of_mem_entries {column : Nat} (es : List (Value × Value))
    (hkeys : ∀ e ∈ es, ∃ s, e.1 = .string s) (h : ∀ e ∈ es, IsWritten e.2) :
    ∀ c ∈ Printer.entries column es, isPrintable c = true := by
  induction es with
  | nil =>
    rw [Printer.entries]
    exact List.forall_mem_nil _
  | cons e es ih =>
    obtain ⟨k, v⟩ := e
    obtain ⟨⟨s, rfl⟩, hothers⟩ := List.forall_mem_cons.1 hkeys
    obtain ⟨hv, hvalues⟩ := List.forall_mem_cons.1 h
    rw [Reader.entries_cons]
    simp only [List.forall_mem_append]
    exact ⟨isPrintable_of_mem_spaces, isPrintable_of_mem_entryHead _ s, hv _, ih hothers hvalues⟩

/-- What is written for data can stand in a document as it is. -/
theorem isWritten_of_isData {depth : Nat} {v : Value} (h : v.IsData depth) : IsWritten v := by
  have hscalar {v : Value} {style : Style} {s : List Char}
      (h : Printer.scalar? v = some (style, s)) (hv : ∀ x, v ≠ .number (.float x)) :
      IsWritten v := isWritten_scalar h (suits_of_scalar? h hv)
  induction h with
  | null => exact hscalar rfl (by simp)
  | bool => exact hscalar rfl (by simp)
  | integer => exact hscalar rfl (by simp)
  | string => exact hscalar rfl (by simp)
  | @sequence depth items _ ih =>
    cases items with
    | nil =>
      exact isWritten_line (fun _ => by rw [Printer.node]; rfl) fun _ => by simp [isPrintable]
    | cons x xs =>
      intro place
      obtain ⟨hx, hxs⟩ := List.forall_mem_cons.1 ih
      rw [Reader.node_sequence]
      simp only [List.forall_mem_append, List.forall_mem_cons]
      exact ⟨isPrintable_of_mem_lead _ _, rfl, hx _, isPrintable_of_mem_items xs hxs⟩
  | @mapping depth entries hkeys _ _ ih =>
    cases entries with
    | nil =>
      exact isWritten_line (fun _ => by rw [Printer.node]; rfl) fun _ => by simp [isPrintable]
    | cons e es =>
      intro place
      obtain ⟨k, v⟩ := e
      obtain ⟨⟨s, rfl⟩, hothers⟩ := List.forall_mem_cons.1 hkeys
      obtain ⟨hv, hvalues⟩ := List.forall_mem_cons.1 ih
      rw [Reader.node_mapping]
      simp only [List.forall_mem_append]
      exact ⟨isPrintable_of_mem_lead _ _, isPrintable_of_mem_entryHead _ s, hv _,
        isPrintable_of_mem_entries es hothers hvalues⟩

/-! ## Documents -/

/-- The text of further documents. -/
def furtherText (documents : List Value) : List Char :=
  documents.flatMap fun v => Stream.separator ++ Printer.document v

/-- The tokens of further documents. -/
def furtherTokens (documents : List Value) : List Token :=
  documents.flatMap fun v => .documentStart :: nodeTokens false v

namespace Reader

theorem follows_furtherText (documents : List Value) :
    Follows (-1) 0 (furtherText documents) := by
  cases documents with
  | nil => exact ⟨nofun, .inr ⟨rfl, .inl rfl⟩⟩
  | cons v vs => exact ⟨startsToken_cons (c := '-') (by decide), .inr ⟨rfl, .inr rfl⟩⟩

/-- At the end of a line the reader goes on as at the start of the next one. -/
theorem settle_lineEnd {r : Reader} {rest : List Char} (hkeys : r.keys = [none])
    (hrest : r.cursor.rest = '\n' :: rest) :
    r.settle =
      settle { r with cursor := ⟨rest, r.cursor.mark.newline⟩, keyAllowed := true } := by
  have hflow : r.inFlow = false := inFlow_of_keys hkeys
  rw [settle, hrest, hflow, passGap_break, settle]
  show _ = (do
    let passed := passGap r.inFlow rest r.cursor.mark.newline true false
    let s ← { r with cursor := passed.1, keyAllowed := passed.2 }.dropStaleKeys
    return s.unroll passed.1.mark.column)
  rw [hflow]

/-- A line of dashes closes every collection and starts a document. -/
theorem token_separator {r s : Reader} {text rest : List Char} {tokens : List Token}
    (hkeys : r.keys = [none])
    (hs : s.unroll (-1) = r.past text (Stream.separator ++ rest) tokens)
    (hcolumn : (r.cursor.mark.passed text).column = 0) :
    ∃ t, s.token '-' ('-' :: '-' :: '\n' :: rest) = .ok t ∧
      t.settle = (r.past (text ++ Stream.separator) rest (tokens ++ [.documentStart])).settle := by
  have hcursor : s.cursor = ⟨Stream.separator ++ rest, r.cursor.mark.passed text⟩ := by
    rw [← cursor_unroll s (-1), hs]
    rfl
  have htoken : s.token '-' ('-' :: '-' :: '\n' :: rest) = s.documentMark .documentStart := by
    have hmark : atDocumentMark ('-' :: '-' :: '-' :: '\n' :: rest) = true := rfl
    simp [token, hcursor, hcolumn, hmark]
  set before := r.past text (Stream.separator ++ rest) tokens with hbefore
  set behind : Reader := skip { before.emit .documentStart with keyAllowed := false } 3
    with hbehind
  refine ⟨behind, ?_, ?_⟩
  · have hremove : before.removeKey = .ok before := removeKey_of_keys hkeys
    rw [htoken, documentMark, atLineStart, hs, hremove]
    rfl
  · have hplace : r.cursor.mark.passed (text ++ Stream.separator) =
        ((r.cursor.mark.passed text).advance 3).newline := by
      rw [Mark.passed_append]
      rfl
    rw [@settle_lineEnd behind rest hkeys rfl, past, hplace]
    simp [behind, before, skip, emit, past, Cursor.skip, Nat.add_assoc]

/-- From the start of a document to what follows it. -/
theorem run_document {v : Value} {r : Reader} {after : List Char} {n : Nat} (hv : PassesNode v)
    (hr : Stands r .root) (hfollows : Follows (-1) 0 after)
    (hrest : r.cursor.rest = Printer.document v ++ after) (hn : r.cursor.rest.length ≤ n) :
    ∃ s m, run (n + 1) r = readOn m s ∧ after.length ≤ m ∧
      s.unroll (-1) = r.past (Printer.document v) after (nodeTokens false v) := by
  have hindent : r.indent = -1 := hr.indent
  obtain ⟨t, ⟨u, hu, hsteps⟩, heq⟩ := hv.passes hr (hindent.symm ▸ hfollows) hrest
  obtain ⟨m, hm, hread⟩ := readOn_of_steps hsteps n (Nat.le_trans (length_of_settle hu) hn)
  have hclosed : (t.unroll 0).unroll (-1) =
      r.past (Printer.document v) after (nodeTokens false v) := by
    have hpast := heq (-1) (Int.le_of_eq hindent.symm)
    rw [Printer.spaces, List.replicate_zero, List.append_nil] at hpast
    rw [unroll_unroll (by decide), hpast]
    exact unroll_of_le (Int.le_of_eq hindent)
  refine ⟨t.unroll 0, m, ?_, ?_, hclosed⟩
  · rw [run_succ, hu, ok_bind, hread]
    rfl
  · have hcursor : (t.unroll 0).cursor.rest = after := by
      rw [← cursor_unroll (t.unroll 0) (-1), hclosed]
      rfl
    rw [← hcursor]
    exact hm

/-- From the start of a document to the end of the stream. -/
theorem run_documents (documents : List Value) :
    ∀ {v : Value} {r : Reader} {n : Nat}, PassesNode v → (∀ w ∈ documents, PassesNode w) →
      Stands r .root → r.cursor.rest = Printer.document v ++ furtherText documents →
      r.cursor.rest.length ≤ n →
      run (n + 1) r =
        .ok (r.tokens.reverse ++ (nodeTokens false v ++ furtherTokens documents)) := by
  induction documents with
  | nil =>
    intro v r n hv _ hr hrest hn
    obtain ⟨s, m, hrun, -, hs⟩ := run_document hv hr (follows_furtherText []) hrest hn
    have hcursor : s.cursor.rest = [] := by
      rw [← cursor_unroll s (-1), hs]
      rfl
    rw [hrun, readOn, hcursor]
    show (do
      let closed ← (s.unroll (-1)).removeKey
      return closed.tokens.reverse : Except Fault (List Token)) = _
    rw [hs, @removeKey_of_keys (r.past _ _ _) hr.keys, ok_bind, past]
    rw [List.reverse_append, List.reverse_reverse, furtherTokens, List.flatMap_nil,
      List.append_nil]
    rfl
  | cons w ws ih =>
    intro v r n hv hws hr hrest hn
    obtain ⟨hw, hothers⟩ := List.forall_mem_cons.1 hws
    obtain ⟨s, m, hrun, hm, hs⟩ := run_document hv hr (follows_furtherText (w :: ws)) hrest hn
    have hcolumn : (r.cursor.mark.passed (Printer.document v)).column = 0 := by
      have hline := (hv.endsLine .root).column r.cursor.mark 0
      rwa [Printer.spaces, List.replicate_zero, List.append_nil] at hline
    set more := Printer.document w ++ furtherText ws with hmore
    have hfurther : furtherText (w :: ws) = Stream.separator ++ more := by
      simp [furtherText, hmore]
    rw [hfurther] at hs hm
    -- The reader passes the dashes and stands before the next document.
    obtain ⟨t, htoken, hsettle⟩ := token_separator hr.keys hs hcolumn
    set next := r.past (Printer.document v ++ Stream.separator) more
      (nodeTokens false v ++ [.documentStart]) with hnext
    have hnext_stands : Stands next .root := by
      refine ⟨hr.keys, hr.indent, rfl, ?_⟩
      show (r.cursor.mark.passed (Printer.document v ++ Stream.separator)).column = 0
      rw [Mark.passed_append]
      rfl
    have hcursor : s.cursor.rest = '-' :: '-' :: '-' :: '\n' :: more := by
      rw [← cursor_unroll s (-1), hs]
      rfl
    obtain ⟨m, rfl⟩ := Nat.exists_eq_add_one_of_ne_zero
      (Nat.ne_of_gt (Nat.lt_of_lt_of_le (Nat.succ_pos _) hm))
    have hm' : more.length ≤ m := by
      simp only [Stream.separator, List.length_append, List.length_cons] at hm
      omega
    calc run (n + 1) r = readOn (m + 1) s := hrun
      _ = run (m + 1) t := by
        rw [readOn, hcursor]
        show (s.token '-' ('-' :: '-' :: '\n' :: more) >>= run (m + 1)) = _
        rw [htoken, ok_bind]
      _ = run (m + 1) next := by rw [run_succ, run_succ, hsettle]
      _ = .ok (next.tokens.reverse ++ (nodeTokens false w ++ furtherTokens ws)) :=
        ih hw hothers hnext_stands rfl hm'
      _ = _ := by simp [hnext, past, furtherTokens]

/-- The tokens of a stream. -/
theorem readAll_documents {depth : Nat} {v : Value} {documents : List Value} (hv : v.IsData depth)
    (hdocuments : ∀ w ∈ documents, w.IsData depth) :
    readAll (Printer.document v ++ furtherText documents) =
      .ok (nodeTokens false v ++ furtherTokens documents) := by
  have hallowed : (Printer.document v ++ furtherText documents).all isAllowed = true := by
    rw [List.all_eq_true]
    intro c hc
    refine isAllowed_of_isPrintable ?_
    rcases List.mem_append.1 hc with hc | hc
    · exact isWritten_of_isData hv _ c hc
    · obtain ⟨w, hw, hc⟩ := List.mem_flatMap.1 hc
      rcases List.mem_append.1 hc with hc | hc
      · have hseparator : ∀ c ∈ Stream.separator, isPrintable c = true := by
          simp [Stream.separator, isPrintable]
        exact hseparator c hc
      · exact isWritten_of_isData (hdocuments w hw) _ c hc
  rw [readAll, if_pos hallowed]
  exact run_documents documents (passesNode_of_isData hv)
    (fun w hw => passesNode_of_isData (hdocuments w hw)) ⟨rfl, rfl, rfl, rfl⟩ rfl le_rfl

end Reader

end ClusterTuning.Yaml.Token
