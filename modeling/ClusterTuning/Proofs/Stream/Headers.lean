import ClusterTuning.Proofs.Stream.RoundTrip
import ClusterTuning.Proofs.Yaml.Token.Moving

/-!
# Headers of streams

The writer of a header cuts it into lines at the line feeds, the reader of documents
at every break of a line.  What stands behind another break is part of the stream, unless
it starts with a number sign as well.

* `onlyComments_comments_iff` — the headers of which every line is a comment;
* `readAll_comments` — such a header does not change the tokens of the stream;
* `write_header` — headers, written and read.
-/

namespace ClusterTuning

open Yaml Yaml.Token

/-! ## Lines of comments -/

namespace Yaml.Token

/-- The lines of a text as the reader of documents ends them: a carriage return and the line feed
behind it are one break, and so is every other character that breaks lines.  What follows the last
break is a line unless it is empty. -/
def lines : List Char → List (List Char)
  | [] => []
  | '\r' :: '\n' :: rest => [] :: lines rest
  | c :: rest =>
    if isBreak c then [] :: lines rest else (c :: (lines rest).headD []) :: (lines rest).tail

/-- Every line of a text starts with the mark of a comment. -/
def OnlyComments (text : List Char) : Prop :=
  ∀ line ∈ lines text, line.head? = some '#'

instance (text : List Char) : Decidable (OnlyComments text) :=
  inferInstanceAs (Decidable (∀ line ∈ lines text, line.head? = some '#'))

theorem onlyComments_nil : OnlyComments [] :=
  List.forall_mem_nil _

theorem lines_of_not_isBreak {c : Char} (hc : isBreak c = false) (s : List Char) :
    lines (c :: s) = (c :: (lines s).headD []) :: (lines s).tail := by
  rw [lines, if_neg (by simp [hc])]
  rintro _ rfl
  exact absurd hc (by decide)

theorem lines_of_isBreak {c : Char} (hc : isBreak c = true) {s : List Char}
    (hpair : c = '\r' → s.head? ≠ some '\n') : lines (c :: s) = [] :: lines s := by
  rw [lines, if_pos hc]
  rintro more rfl rfl
  exact hpair rfl rfl

/-- The first line starts with the first character of the text unless that is a break. -/
theorem onlyComments_cons_iff (c : Char) (s : List Char) :
    OnlyComments (c :: s) ↔ c = '#' ∧ ∀ line ∈ (lines (c :: s)).tail, line.head? = some '#' := by
  unfold OnlyComments
  cases hc : isBreak c with
  | false => simp [lines_of_not_isBreak hc]
  | true =>
    obtain ⟨others, hlines⟩ : ∃ others, lines (c :: s) = [] :: others := by
      unfold lines
      split <;> simp_all
    have hsharp : c ≠ '#' := by
      rintro rfl
      exact absurd hc (by decide)
    simp [hlines, hsharp]

end Yaml.Token

namespace Stream

/-- Whether every break in the text of a comment is followed by the mark of a further comment.  A
carriage return at its end and the line feed behind it are one break. -/
def staysComment : List Char → Bool
  | [] => true
  | c :: rest =>
    (!isBreak c || rest.head? == some '#' || (c == '\r' && rest.isEmpty)) && staysComment rest

variable {header line rest : List Char}

/-- The lines behind the first one of a text that starts with the text of a comment. -/
theorem forall_tail_lines_iff (h : '\n' ∉ line) (rest : List Char) :
    (∀ l ∈ (Token.lines (line ++ '\n' :: rest)).tail, l.head? = some '#') ↔
      staysComment line = true ∧ OnlyComments rest := by
  induction line with
  | nil => simp [staysComment, lines_of_isBreak (c := '\n') rfl, OnlyComments]
  | cons c line ih =>
    rw [List.mem_cons, not_or] at h
    have ih := ih h.2
    cases hc : isBreak c with
    | false =>
      rw [List.cons_append, lines_of_not_isBreak hc, List.tail_cons, ih]
      simp [staysComment, hc]
    | true =>
      cases line with
      | nil =>
        by_cases hreturn : c = '\r'
        · subst hreturn
          simp [staysComment, Token.lines, OnlyComments]
        · -- The break and the line feed behind it leave an empty line between them.
          have hline : ¬OnlyComments ('\n' :: rest) := fun h =>
            absurd ((onlyComments_cons_iff _ _).1 h).1 (by decide)
          rw [List.cons_append, lines_of_isBreak hc fun h => absurd h hreturn, List.tail_cons]
          simpa [staysComment, hc, hreturn, OnlyComments] using hline
      | cons d line =>
        have hpair : c = '\r' → ((d :: line) ++ '\n' :: rest).head? ≠ some '\n' := by
          intro _ hd
          exact h.2 (List.mem_cons.2 (.inl (Option.some.inj hd).symm))
        rw [List.cons_append, lines_of_isBreak hc hpair, List.tail_cons]
        show OnlyComments (d :: (line ++ '\n' :: rest)) ↔ _
        rw [onlyComments_cons_iff, ← List.cons_append, ih]
        simp [staysComment, hc, and_assoc]

/-- The lines of a comment and of what stands behind it. -/
theorem onlyComments_comment_iff (h : '\n' ∉ line) (rest : List Char) :
    OnlyComments ('#' :: ' ' :: (line ++ '\n' :: rest)) ↔
      staysComment line = true ∧ OnlyComments rest := by
  rw [onlyComments_cons_iff, lines_of_not_isBreak rfl, lines_of_not_isBreak rfl, List.tail_cons,
    List.tail_cons, forall_tail_lines_iff h]
  exact and_iff_right rfl

/-- The header is a comment as a whole if and only if each of its lines stays one. -/
theorem onlyComments_comments_iff (header : List Char) :
    OnlyComments (comments header) ↔
      Text.trim header = [] ∨ ∀ line ∈ Text.lines header, staysComment line = true := by
  have hlines : ∀ written : List (List Char), (∀ line ∈ written, '\n' ∉ line) →
      (OnlyComments (written.flatMap fun line => '#' :: ' ' :: (line ++ ['\n'])) ↔
        ∀ line ∈ written, staysComment line = true) := by
    intro written
    induction written with
    | nil => simp [onlyComments_nil]
    | cons line written ih =>
      intro hwritten
      obtain ⟨hline, hwritten⟩ := List.forall_mem_cons.1 hwritten
      rw [List.flatMap_cons, List.forall_mem_cons, ← ih hwritten,
        ← onlyComments_comment_iff hline]
      simp
  unfold comments
  split
  · next hblank => simp [hblank, onlyComments_nil]
  · next hblank =>
    rw [hlines _ fun line => Text.not_mem_of_mem_lines]
    simp [hblank]

/-! ## Reading -/

open Reader

/-- A number sign makes a comment of what follows it, within a comment or outside. -/
theorem passGap_sharp (inFlow : Bool) (s : List Char) (mark : Mark) (keyAllowed inComment : Bool) :
    passGap inFlow ('#' :: s) mark keyAllowed inComment =
      passGap inFlow s mark.advance keyAllowed true := by
  cases inComment <;> rw [passGap] <;> simp [isBreak]

/-- The text of a comment is passed up to the line feed behind it. -/
theorem passGap_of_staysComment (h : staysComment line = true) (rest : List Char) (mark : Mark)
    (keyAllowed : Bool) :
    ∃ after : Mark, after.column = 0 ∧
      passGap false (line ++ '\n' :: rest) mark keyAllowed true =
        passGap false rest after true false := by
  induction line generalizing mark keyAllowed with
  | nil => exact ⟨mark.newline, rfl, by simp [passGap, isBreak]⟩
  | cons c line ih =>
    obtain ⟨hc, hline⟩ := Bool.and_eq_true_iff.1 h
    cases hbreak : isBreak c with
    | false =>
      obtain ⟨after, hafter, heq⟩ := ih hline mark.advance keyAllowed
      refine ⟨after, hafter, Eq.trans ?_ heq⟩
      rw [List.cons_append, passGap, if_neg (by simp [hbreak]), if_pos (by simp)]
      rintro _ rfl
      exact absurd hbreak (by decide)
    | true =>
      simp only [hbreak, Bool.not_true, Bool.false_or, Bool.or_eq_true, Bool.and_eq_true,
        beq_iff_eq, List.isEmpty_iff] at hc
      rcases hc with hsharp | ⟨rfl, rfl⟩
      · -- The break ends the comment, and the mark of the next one follows.
        obtain ⟨more, rfl⟩ : ∃ more, line = '#' :: more := List.head?_eq_some_iff.1 hsharp
        obtain ⟨after, hafter, heq⟩ := ih hline mark.newline true
        refine ⟨after, hafter, Eq.trans ?_ heq⟩
        rw [List.cons_append, passGap, if_pos hbreak, List.cons_append, passGap_sharp,
          ← passGap_sharp false (more ++ '\n' :: rest) _ _ true, Bool.not_false, Bool.or_true]
        simp
      · exact ⟨mark.newline 2, rfl, by simp [passGap]⟩

/-- Comments are passed, whatever follows them. -/
theorem passGap_comments (h : OnlyComments (comments header)) (rest : List Char) :
    ∃ after : Mark, after.column = 0 ∧
      passGap false (comments header ++ rest) {} true false =
        passGap false rest after true false := by
  have hlines : ∀ (written : List (List Char)) (mark : Mark), mark.column = 0 →
      (∀ line ∈ written, staysComment line = true) → ∃ after : Mark, after.column = 0 ∧
        passGap false ((written.flatMap fun line => '#' :: ' ' :: (line ++ ['\n'])) ++ rest)
          mark true false = passGap false rest after true false := by
    intro written
    induction written with
    | nil => exact fun mark hmark _ => ⟨mark, hmark, rfl⟩
    | cons line written ih =>
      intro mark _ hwritten
      obtain ⟨hline, hwritten⟩ := List.forall_mem_cons.1 hwritten
      set more := (written.flatMap fun line => '#' :: ' ' :: (line ++ ['\n'])) ++ rest with hmore
      have hspace : staysComment (' ' :: line) = true := by
        rw [staysComment, hline]
        rfl
      obtain ⟨behind, hbehind, hpassed⟩ := passGap_of_staysComment hspace more mark.advance true
      obtain ⟨after, hafter, hothers⟩ := ih behind hbehind hwritten
      refine ⟨after, hafter, Eq.trans ?_ (hpassed.trans hothers)⟩
      rw [← passGap_sharp false _ _ _ false, List.flatMap_cons]
      simp [hmore]
  have hheader := (onlyComments_comments_iff header).1 h
  unfold comments at h ⊢
  split
  · exact ⟨{}, rfl, rfl⟩
  · next hblank => exact hlines _ {} rfl (hheader.resolve_left hblank)

/-- Of what stands before the next token only the place behind it counts. -/
theorem settle_congr (r : Reader) (before after : Cursor)
    (h : passGap r.inFlow before.rest before.mark r.keyAllowed false =
      passGap r.inFlow after.rest after.mark r.keyAllowed false) :
    { r with cursor := before }.settle = { r with cursor := after }.settle :=
  congrArg (fun passed : Cursor × Bool => do
    let s ← { r with cursor := passed.1, keyAllowed := passed.2 }.dropStaleKeys
    return s.unroll passed.1.mark.column) h

/-- **Comments before a text do not change its tokens**, if they may stand in a text at all. -/
theorem readAll_comments (h : OnlyComments (comments header)) (text : List Char) :
    Token.readAll (comments header ++ text) =
      if (comments header).all isAllowed then Token.readAll text else .error .character := by
  obtain ⟨after, hcolumn, hpassed⟩ := passGap_comments h text
  set start : Reader := { cursor := ⟨text, {}⟩ } with hstart
  have hsettle : { start with cursor := ⟨comments header ++ text, {}⟩ }.settle =
      { start with cursor := ⟨text, after⟩ }.settle :=
    settle_congr start ⟨_, _⟩ ⟨_, _⟩ hpassed
  have hmoved : { start with cursor := ⟨text, after⟩ } = start.moved after := by
    rw [Reader.moved, hstart, Cursor.moved, Mark.moved_start hcolumn]
    rfl
  have hrun (n : Nat) (hn : text.length ≤ n) :
      run (n + 1) { start with cursor := ⟨comments header ++ text, {}⟩ } =
        run (text.length + 1) start := calc
    _ = run (n + 1) { start with cursor := ⟨text, after⟩ } := by
      rw [run_succ, run_succ, hsettle]
    _ = run (n + 1) start := by rw [hmoved, run_moved]
    _ = run (text.length + 1) start := run_congr (Nat.lt_succ_of_le hn) (Nat.lt_succ_self _)
  unfold Token.readAll
  rw [List.all_append]
  cases hcomments : (comments header).all isAllowed with
  | false => simp
  | true =>
    rw [Bool.true_and, if_pos rfl]
    refine if_congr Iff.rfl (hrun _ ?_) rfl
    simp

/-- Comments before a text do not change its documents.  A character that no text of documents may
hold is a fault in a comment, too. -/
theorem read_comments (h : OnlyComments (comments header)) (text : String) :
    read (String.ofList (comments header) ++ text) =
      if (comments header).all isAllowed then read text else .error .document := by
  rw [read, Node.readStream, String.toList_append, String.toList_ofList, readAll_comments h]
  split <;> rfl

/-! ## Writing -/

/-- A header stands in front of what is written without it. -/
theorem write_eq_comments_append (documents : List Value) (header : String) :
    write documents (some header) =
      (write documents none).map (String.ofList (comments header.toList) ++ ·) := by
  unfold write
  cases (documents.mapM Value.write).mapError fun _ => Failure.document with
  | error => rfl
  | ok texts => exact congrArg Except.ok String.ofList_append

/-- **A header stands in front of the stream, and it is a comment if each of its lines stays one.**
A line is cut at line feeds only: a carriage return, a next-line character or a separator of lines
or paragraphs within it ends the comment for the reader, and what follows has to be marked as a
comment again.  Where every line is a comment, the stream is read as without the header. -/
theorem write_header (documents : List Value) (header : String) :
    write documents (some header) =
        (write documents none).map (String.ofList (comments header.toList) ++ ·) ∧
      (OnlyComments (comments header.toList) ↔
        Text.trim header.toList = [] ∨
          ∀ line ∈ Text.lines header.toList, staysComment line = true) ∧
      (OnlyComments (comments header.toList) → ∀ text,
        read (String.ofList (comments header.toList) ++ text) =
          if (comments header.toList).all isAllowed then read text else .error .document) :=
  ⟨write_eq_comments_append documents header, onlyComments_comments_iff header.toList,
    read_comments⟩

/-- A header of two lines, ended in two ways, is no part of any stream. -/
theorem write_header_two_lines :
    OnlyComments (comments "generated\r\nby hand".toList) ∧
      ∀ text, read (String.ofList "# generated\n# by hand\n".toList ++ text) = read text := by
  have h : OnlyComments (comments "generated\r\nby hand".toList) := by decide
  exact ⟨h, (write_header [] "generated\r\nby hand").2.2 h⟩

/-- A resource of some kind. -/
def sampleResource (kind : String) : Value :=
  .mapping [(.string "kind", .string kind)]

/-- A carriage return within a line ends the comment: what follows is a document of its own. -/
theorem header_adds_document :
    write [sampleResource "Experiment"] (some "generated\rkind: Extra\r---") =
        .ok "# generated\rkind: Extra\r---\nkind: Experiment\n" ∧
      ¬OnlyComments (comments "generated\rkind: Extra\r---".toList) ∧
      read "# generated\rkind: Extra\r---\nkind: Experiment\n" =
        .ok [sampleResource "Extra", sampleResource "Experiment"] := by
  refine ⟨by rfl, by decide, ?_⟩
  have hdata (kind : String) : (sampleResource kind).IsData 2 :=
    .mapping (by simp) (List.pairwise_singleton _ _) (List.forall_mem_singleton.2 (.string _ _))
  have htokens : Token.readAll "# generated\rkind: Extra\r---\nkind: Experiment\n".toList =
      .ok (nodeTokens false (sampleResource "Extra") ++
        furtherTokens [sampleResource "Experiment"]) := by rfl
  have hboth : ∀ v ∈ [sampleResource "Extra", sampleResource "Experiment"], v.IsData 2 := by
    simp [hdata]
  obtain ⟨nodes, hnodes, hvalues⟩ := readStream_documents (by decide : 2 ≤ Node.depthLimit) hboth
  rw [Node.readStream, String.toList_ofList,
    readAll_documents (hdata "Extra") (by simp [hdata]), ← htokens] at hnodes
  rw [read, Node.readStream, hnodes, ok_bind, hvalues]
  rfl

end Stream

end ClusterTuning
