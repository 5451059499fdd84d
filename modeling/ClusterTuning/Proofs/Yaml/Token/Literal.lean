import ClusterTuning.Proofs.Outcome
import ClusterTuning.Proofs.Yaml.Token.Place
import Mathlib.Data.List.Induction
import Mathlib.Tactic.Set
import Mathlib.Tactic.SplitIfs

/-!
# Literal blocks are read back

A literal block says in its first line what becomes of the breaks at its end, and
the indentation where its text does not show it.  Its lines are read one character
after the other; what is kept of them is the text that was written.

* `readBlockLines_body` — the lines of a block are read up to the line after it;
* `readBlock_literal` — a literal block is read as its text.
-/

namespace ClusterTuning.Yaml.Token

open Printer (isPrintable ne_of_isPrintable)

/-! ## The text of the lines -/

namespace BlockLines

/-- One more character of the lines of a literal block. -/
def push (lines : BlockLines) (c : Char) : BlockLines :=
  if isBreak c then
    if lines.inLine then { lines with lineBreak := some c, emptyLines := [], inLine := false }
    else { lines with emptyLines := c :: lines.emptyLines }
  else if lines.inLine then { lines with text := c :: lines.text }
  else
    { text := c :: lines.joined false c, lineBreak := none, emptyLines := [],
      indentedMore := isBlank c, inLine := true }

/-- All that was read, reversed. -/
def kept (lines : BlockLines) : List Char :=
  lines.emptyLines ++ (lines.lineBreak.toList ++ lines.text)

/-- Within a line no break waits. -/
def IsClean (lines : BlockLines) : Prop :=
  lines.inLine = true → lines.lineBreak = none ∧ lines.emptyLines = []

theorem kept_push {lines : BlockLines} (h : lines.IsClean) (c : Char) :
    (lines.push c).kept = c :: lines.kept ∧ (lines.push c).IsClean := by
  unfold push
  split_ifs with hbreak hline hline
  · obtain ⟨hnone, hempty⟩ := h hline
    simp [kept, IsClean, hnone, hempty]
  · simp [kept, IsClean, hline]
  · obtain ⟨hnone, hempty⟩ := h hline
    simp [kept, IsClean, hnone, hempty]
  · simp [kept, IsClean, joined]

theorem kept_foldl (s : List Char) : ∀ {lines : BlockLines}, lines.IsClean →
    (s.foldl push lines).kept = s.reverse ++ lines.kept ∧ (s.foldl push lines).IsClean := by
  induction s with
  | nil => exact fun h => ⟨rfl, h⟩
  | cons c rest ih =>
    intro lines h
    obtain ⟨hkept, hclean⟩ := kept_push h c
    obtain ⟨hrest, hrestClean⟩ := ih hclean
    rw [List.foldl_cons, hrest, hkept]
    exact ⟨by simp, hrestClean⟩

theorem inLine_push (lines : BlockLines) (c : Char) : (lines.push c).inLine = !isBreak c := by
  unfold push
  split_ifs <;> simp_all

/-- Within a line the text is all that was read. -/
theorem text_eq_kept {lines : BlockLines} (h : lines.IsClean) (hline : lines.inLine = true) :
    lines.text = lines.kept := by
  obtain ⟨hnone, hempty⟩ := h hline
  simp [kept, hnone, hempty]

end BlockLines

/-! ## Reading lines -/

section
variable {indent : Nat} {c : Char} {mark : Mark} {rest : List Char} {lines : BlockLines}

theorem readBlockLines_break (hprint : isPrintable c = true) (hbreak : isBreak c = true) :
    readBlockLines false indent (c :: rest) mark lines =
      readBlockLines false indent rest mark.newline (lines.push c) := by
  rw [readBlockLines, if_pos hbreak, breakText_eq_self hprint hbreak, BlockLines.push, if_pos hbreak]
  rintro rest' rfl
  exact absurd hprint (by decide)

/-- A character within a line, or the first one behind the indentation. -/
theorem readBlockLines_char (hprint : isPrintable c = true) (hbreak : isBreak c = false)
    (h : lines.inLine = true ∨ indent ≤ mark.column) :
    readBlockLines false indent (c :: rest) mark lines =
      readBlockLines false indent rest mark.advance (lines.push c) := by
  have hpush : lines.push c =
      if lines.inLine then { lines with text := c :: lines.text }
      else { text := c :: lines.joined false c, lineBreak := none, emptyLines := [],
             indentedMore := isBlank c, inLine := true } := by
    rw [BlockLines.push, if_neg (by simp [hbreak])]
  rw [readBlockLines, if_neg (by simp [hbreak]), hpush]
  · by_cases hline : lines.inLine = true
    · rw [if_pos hline, if_pos hline]
    · rw [if_neg hline, if_neg hline, if_neg (Nat.not_lt.2 (h.resolve_left hline))]
  · rintro rest' rfl
    exact absurd hprint (by decide)

theorem readBlockLines_spaces (n : Nat) (h : mark.column + n ≤ indent)
    (hline : lines.inLine = false) :
    readBlockLines false indent (Printer.spaces n ++ rest) mark lines =
      readBlockLines false indent rest (mark.advance n) lines := by
  induction n generalizing mark with
  | zero => rfl
  | succ n ih =>
    have hcolumn : mark.column < indent := by omega
    have hstep : readBlockLines false indent (' ' :: (Printer.spaces n ++ rest)) mark lines =
        readBlockLines false indent (Printer.spaces n ++ rest) mark.advance lines := by
      rw [readBlockLines, if_neg (by decide), if_neg (by simp [hline]), if_pos hcolumn,
        if_pos (by decide)]
      exact nofun
    rw [Printer.spaces, List.replicate_succ, List.cons_append]
    refine hstep.trans ((@ih mark.advance ?_).trans ?_)
    · show mark.column + 1 + n ≤ indent
      omega
    · rw [Mark.advance_advance, Nat.add_comm]

/-- The start of the next token ends a block. -/
theorem readBlockLines_end {column : Nat} (hcolumn : column < indent)
    (hrest : ∀ d ∈ rest.head?, isBlank d = false ∧ isBreak d = false) (hmark : mark.column = 0)
    (hline : lines.inLine = false) :
    readBlockLines false indent (Printer.spaces column ++ rest) mark lines =
      .ok (lines, ⟨rest, mark.advance column⟩) := by
  rw [readBlockLines_spaces column (by omega) hline]
  cases rest with
  | nil => rfl
  | cons d rest =>
    obtain ⟨hblank, hbreak⟩ := hrest d rfl
    have hspace : d ≠ ' ' ∧ d ≠ '\t' := by
      constructor <;> (rintro rfl; exact absurd hblank (by decide))
    have hlt : (mark.advance column).column < indent := by
      show mark.column + column < indent
      omega
    rw [readBlockLines, if_neg (by simp [hbreak]), if_neg (by simp [hline]), if_pos hlt,
      if_neg (by simp [hspace.1]), if_neg (by simp [hspace.2])]
    rintro rest' rfl
    exact absurd hbreak (by decide)

end

theorem literalBody_break {c : Char} (hc : isBreak c = true) (indent : Nat) (broken : Bool)
    (rest : List Char) :
    Printer.literalBody indent broken (c :: rest) = c :: Printer.literalBody indent true rest := by
  rw [Printer.literalBody]
  exact if_pos hc

theorem literalBody_cons {c : Char} (hc : isBreak c = false) (indent : Nat) (broken : Bool)
    (rest : List Char) :
    Printer.literalBody indent broken (c :: rest) =
      (if broken then Printer.spaces indent else []) ++
        c :: Printer.literalBody indent false rest := by
  have hprinter : Printer.isBreak c = false := hc
  rw [Printer.literalBody, hprinter, if_neg Bool.false_ne_true]

/-- The lines of a literal block are read up to their end. -/
theorem readBlockLines_body {indent : Nat} {after : List Char} (s : List Char) :
    ∀ {broken : Bool} {mark : Mark} {lines : BlockLines}, (∀ c ∈ s, isPrintable c = true) →
      lines.inLine = !broken → (broken = true → mark.column = 0) →
      readBlockLines false indent (Printer.literalBody indent broken s ++ after) mark lines =
        readBlockLines false indent after (mark.passed (Printer.literalBody indent broken s))
          (s.foldl BlockLines.push lines) := by
  induction s with
  | nil => exact fun _ _ _ => rfl
  | cons c rest ih =>
    intro broken mark lines hprint hline hcolumn
    obtain ⟨hc, hrest⟩ := List.forall_mem_cons.1 hprint
    have hpushed := BlockLines.inLine_push lines c
    cases hbreak : isBreak c with
    | true =>
      rw [hbreak] at hpushed
      rw [literalBody_break hbreak, List.cons_append, readBlockLines_break hc hbreak,
        ih hrest hpushed fun _ => rfl, Mark.passed_break hbreak, List.foldl_cons]
    | false =>
      rw [hbreak] at hpushed
      rw [literalBody_cons hbreak, List.append_assoc, List.cons_append, List.foldl_cons,
        Mark.passed_append, Mark.passed_cons hbreak]
      cases broken with
      | true =>
        rw [if_pos rfl, readBlockLines_spaces indent (by simp [hcolumn rfl]) hline,
          readBlockLines_char hc hbreak (.inr (Nat.le_add_left _ _)), ih hrest hpushed nofun,
          Mark.passed_spaces]
      | false =>
        rw [if_neg Bool.false_ne_true, List.nil_append, readBlockLines_char hc hbreak (.inl hline),
          ih hrest hpushed nofun]
        rfl

/-! ## The first line of a block -/

/-- The mark for what becomes of the breaks at the end of a block. -/
def Chomping.mark : Chomping → List Char
  | .strip => ['-']
  | .clip => []
  | .keep => ['+']

/-- What has to become of the breaks at the end of a block for the reverse of its text to be as
given. -/
def Chomping.ofReversed : List Char → Chomping
  | [] => .strip
  | [c] => if isBreak c then .keep else .strip
  | c :: d :: _ => if isBreak c then (if isBreak d then .keep else .clip) else .strip

/-- Whether the lines of a text do not show their indentation. -/
def hidesIndentation (s : List Char) : Bool :=
  s.head?.any fun c => c == ' ' || isBreak c

theorem literalHints_eq (s : List Char) :
    Printer.literalHints s =
      (if hidesIndentation s then ['2'] else []) ++ (Chomping.ofReversed s.reverse).mark := by
  have hbreak (c : Char) : Printer.isBreak c = isBreak c := rfl
  unfold Printer.literalHints
  congr 1
  split
  · next heq => rw [heq]; rfl
  · next c heq => rw [heq, Chomping.ofReversed, hbreak]; cases isBreak c <;> rfl
  · next c d _ heq =>
    rw [heq, Chomping.ofReversed, hbreak, hbreak]
    cases isBreak c <;> cases isBreak d <;> rfl

theorem readBlockHeader_literalHints (s rest : List Char) :
    readBlockHeader (Printer.literalHints s ++ '\n' :: rest) =
      .ok (⟨Chomping.ofReversed s.reverse, if hidesIndentation s then some 2 else none⟩,
        '\n' :: rest) := by
  rw [literalHints_eq]
  cases hidesIndentation s <;> cases Chomping.ofReversed s.reverse <;> rfl

theorem passLineEnd_break (rest : List Char) (mark : Mark) :
    passLineEnd ⟨'\n' :: rest, mark⟩ = .ok ⟨rest, mark.newline⟩ :=
  rfl

/-! ## The end of a block -/

theorem endLine_concat (s : List Char) (c : Char) :
    Printer.endLine (s ++ [c]) = if isBreak c then s ++ [c] else s ++ [c] ++ ['\n'] := by
  rw [Printer.endLine, List.getLast?_concat]
  rfl

namespace BlockLines

theorem isClean_ofText (s : List Char) :
    (s.foldl push {}).kept = s.reverse ∧ (s.foldl push {}).IsClean := by
  simpa [kept] using @kept_foldl s {} nofun

/-- Behind a character within a line, a break leaves the text as it is. -/
theorem push_break (s : List Char) {c b : Char} (hc : isBreak c = false) (hb : isBreak b = true) :
    let lines := (s ++ [c] ++ [b]).foldl push {}
    lines.text = (s ++ [c]).reverse ∧ lines.lineBreak = some b := by
  obtain ⟨hkept, hclean⟩ := isClean_ofText (s ++ [c])
  have hline : ((s ++ [c]).foldl push {}).inLine = true := by
    rw [List.foldl_append, List.foldl_cons, List.foldl_nil, inLine_push, hc]
    rfl
  intro lines
  have hlines : lines = ((s ++ [c]).foldl push {}).push b := List.foldl_append
  rw [hlines, push, if_pos hb, if_pos hline]
  exact ⟨(text_eq_kept hclean hline).trans hkept, rfl⟩

/-- The lines that were read, their end treated as the marks of the block say, are the text. -/
theorem chomped_ofReversed {s : List Char} (hs : s ≠ []) :
    ((Printer.endLine s).foldl push {}).chomped (Chomping.ofReversed s.reverse) = s := by
  have hkeep : ((s.foldl push {}).chomped .keep) = s :=
    (congrArg List.reverse (isClean_ofText s).1).trans s.reverse_reverse
  rw [← s.reverse_reverse] at hs hkeep ⊢
  generalize s.reverse = r at hs hkeep ⊢
  rw [List.reverse_reverse]
  match r, hs with
  | c :: rest, _ =>
    rw [List.reverse_cons] at hkeep ⊢
    cases hc : isBreak c with
    | false =>
      have hstrip : Chomping.ofReversed (c :: rest) = .strip := by
        cases rest <;> simp [Chomping.ofReversed, hc]
      rw [hstrip, endLine_concat, if_neg (by simp [hc]), chomped,
        (push_break rest.reverse hc (by rfl)).1, List.reverse_reverse]
    | true =>
      rw [endLine_concat, if_pos hc]
      match rest with
      | [] => rwa [Chomping.ofReversed, if_pos hc]
      | d :: rest =>
        rw [Chomping.ofReversed, if_pos hc]
        cases hd : isBreak d with
        | true => exact hkeep
        | false =>
          obtain ⟨htext, hbreak⟩ := push_break rest.reverse hd hc
          rw [if_neg Bool.false_ne_true, List.reverse_cons, chomped, htext, hbreak]
          simp

end BlockLines

theorem literalBody_concat (indent : Nat) (c : Char) (s : List Char) :
    ∀ broken, ∃ lead, (isBreak c = true → lead = []) ∧
      Printer.literalBody indent broken (s ++ [c]) =
        Printer.literalBody indent broken s ++ lead ++ [c] := by
  induction s with
  | nil =>
    intro broken
    cases hc : isBreak c with
    | true => exact ⟨[], fun _ => rfl, literalBody_break hc indent broken []⟩
    | false =>
      exact ⟨_, nofun, literalBody_cons hc indent broken []⟩
  | cons d rest ih =>
    intro broken
    cases hd : isBreak d with
    | true =>
      obtain ⟨lead, hlead, heq⟩ := ih true
      refine ⟨lead, hlead, ?_⟩
      rw [List.cons_append, literalBody_break hd, literalBody_break hd, heq]
      rfl
    | false =>
      obtain ⟨lead, hlead, heq⟩ := ih false
      refine ⟨lead, hlead, ?_⟩
      rw [List.cons_append, literalBody_cons hd, literalBody_cons hd, heq]
      simp

theorem exists_eq_concat {s : List Char} (hs : s ≠ []) : ∃ t c, s = t ++ [c] :=
  ⟨s.dropLast, s.getLast hs, (List.dropLast_concat_getLast hs).symm⟩

/-- The break at the end of a literal block belongs to its lines. -/
theorem scalarLine_literal (indent : Nat) {s : List Char} (hs : s ≠ []) :
    Printer.scalarLine indent .literal s =
      '|' :: (Printer.literalHints s ++ '\n' ::
        Printer.literalBody indent true (Printer.endLine s)) := by
  rw [Printer.scalarLine]
  obtain ⟨t, c, rfl⟩ := exists_eq_concat hs
  obtain ⟨lead, -, heq⟩ := literalBody_concat indent c t true
  obtain ⟨lead', hlead', heq'⟩ := literalBody_concat indent '\n' (t ++ [c]) true
  have hbody : ∀ hints : List Char,
      '|' :: (hints ++ '\n' :: Printer.literalBody indent true (t ++ [c])) =
        ('|' :: (hints ++ '\n' :: (Printer.literalBody indent true t ++ lead))) ++ [c] := by
    simp [heq]
  rw [hbody, endLine_concat, ← hbody, endLine_concat]
  split_ifs
  · rfl
  · rw [heq', hlead' (by rfl)]
    simp

/-! ## Reading a block -/

theorem readLeadingLines_spaces {rest breaks : List Char} {mark : Mark} {widest : Nat} (n : Nat) :
    readLeadingLines (Printer.spaces n ++ rest) mark breaks widest =
      readLeadingLines rest (mark.advance n) breaks widest := by
  induction n generalizing mark with
  | zero => rfl
  | succ n ih =>
    rw [Printer.spaces, List.replicate_succ, List.cons_append, readLeadingLines, if_pos (by rfl)]
    · exact ih.trans (by rw [Mark.advance_advance, Nat.add_comm])
    · simp

/-- The first line of a block shows its indentation. -/
theorem readLeadingLines_char {c : Char} {rest breaks : List Char} {mark : Mark} {widest : Nat}
    (hprint : isPrintable c = true) (hspace : c ≠ ' ') (hbreak : isBreak c = false) :
    readLeadingLines (c :: rest) mark breaks widest =
      .ok ⟨⟨c :: rest, mark⟩, breaks, max widest mark.column⟩ := by
  have htab : c ≠ '\t' := ne_of_isPrintable hprint rfl
  rw [readLeadingLines, if_neg (by simpa using hspace), if_neg (by simpa using htab),
    if_neg (by simp [hbreak])]
  rintro rest' rfl
  exact absurd hbreak (by decide)

theorem exists_endLine {s : List Char} (hs : s ≠ []) :
    ∃ t b, isBreak b = true ∧ Printer.endLine s = t ++ [b] := by
  obtain ⟨t, c, rfl⟩ := exists_eq_concat hs
  rw [endLine_concat]
  cases hc : isBreak c with
  | true => exact ⟨t, c, hc, by simp⟩
  | false => exact ⟨t ++ [c], '\n', rfl, by simp⟩

theorem isPrintable_of_mem_endLine {s : List Char} (hprint : ∀ c ∈ s, isPrintable c = true) :
    ∀ c ∈ Printer.endLine s, isPrintable c = true := by
  intro c hc
  unfold Printer.endLine at hc
  split_ifs at hc
  · exact hprint c hc
  · rcases List.mem_append.1 hc with hc | hc
    · exact hprint c hc
    · rw [List.mem_singleton.1 hc]
      rfl

/-- The first line of a text that starts with neither a space nor a break shows the indentation. -/
theorem readLeadingLines_body {indent : Nat} {s : List Char} {mark : Mark} (hs : s ≠ [])
    (hprint : ∀ c ∈ s, isPrintable c = true) (hides : hidesIndentation s = false)
    (hmark : mark.column = 0) (after : List Char) :
    ∃ more, Printer.literalBody indent true (Printer.endLine s) ++ after =
        Printer.spaces indent ++ more ∧
      readLeadingLines (Printer.spaces indent ++ more) mark [] 0 =
        .ok ⟨⟨more, mark.advance indent⟩, [], indent⟩ := by
  obtain ⟨c, t, rfl⟩ := List.exists_cons_of_ne_nil hs
  have hc : c ≠ ' ' ∧ isBreak c = false := by simpa [hidesIndentation] using hides
  have hend : ∃ u, Printer.endLine (c :: t) = c :: u := by
    unfold Printer.endLine
    split_ifs
    · exact ⟨t, rfl⟩
    · exact ⟨t ++ ['\n'], rfl⟩
  obtain ⟨u, hend⟩ := hend
  refine ⟨c :: (Printer.literalBody indent false u ++ after), ?_, ?_⟩
  · rw [hend, literalBody_cons hc.2, if_pos rfl]
    simp
  · rw [readLeadingLines_spaces,
      readLeadingLines_char (hprint c List.mem_cons_self) hc.1 hc.2]
    have hcolumn : max 0 (mark.advance indent).column = indent := by
      show max 0 (mark.column + indent) = indent
      omega
    rw [hcolumn]

theorem isBreak_of_mem_literalHints {s : List Char} {c : Char}
    (hc : c ∈ Printer.literalHints s) : isBreak c = false := by
  have hmarks : ∀ m : Chomping, ∀ d ∈ m.mark, isBreak d = false := by
    intro m
    cases m <;> simp [Chomping.mark, isBreak]
  rw [literalHints_eq] at hc
  rcases List.mem_append.1 hc with hc | hc
  · split_ifs at hc
    · rw [List.mem_singleton.1 hc]
      rfl
    · exact absurd hc List.not_mem_nil
  · exact hmarks _ c hc

/-- The lines of a block and the indentation of the line after it are read. -/
theorem readBlockLines_literal {parent : Int} {column : Nat} {s rest : List Char} {mark : Mark}
    (hs : s ≠ []) (hprint : ∀ c ∈ s, isPrintable c = true) (h : Follows parent column rest)
    (hmark : mark.column = 0) :
    let indent := (max parent 0).toNat + 2
    let body := Printer.literalBody indent true (Printer.endLine s)
    readBlockLines false indent (body ++ (Printer.spaces column ++ rest)) mark {} =
      .ok ((Printer.endLine s).foldl BlockLines.push {},
        ⟨rest, mark.passed (body ++ Printer.spaces column)⟩) := by
  intro indent body
  obtain ⟨t, b, hb, hend⟩ := exists_endLine hs
  have hcolumn : column < indent := by
    rcases h.ends with h | ⟨rfl, -⟩ <;> omega
  have hzero : (mark.passed body).column = 0 := by
    obtain ⟨lead, -, heq⟩ := literalBody_concat indent b t true
    show (mark.passed (Printer.literalBody indent true (Printer.endLine s))).column = 0
    rw [hend, heq, Mark.column_passed_concat hb]
  have hline : ((Printer.endLine s).foldl BlockLines.push {}).inLine = false := by
    rw [hend, List.foldl_append, List.foldl_cons, List.foldl_nil, BlockLines.inLine_push, hb]
    rfl
  rw [readBlockLines_body _ (isPrintable_of_mem_endLine hprint) rfl fun _ => hmark,
    readBlockLines_end hcolumn (fun d hd => ⟨(h.head d hd).1, (h.head d hd).2.1⟩) hzero hline,
    Mark.passed_append, Mark.passed_spaces]

/-- A literal block is read up to the next token. -/
theorem readBlock_literal {parent : Int} {column : Nat} {s rest : List Char} {mark : Mark}
    (hs : s ≠ []) (hprint : ∀ c ∈ s, isPrintable c = true) (h : Follows parent column rest) :
    let written := Printer.scalarLine ((max parent 0).toNat + 2) .literal s
    readBlock false parent ⟨written ++ (Printer.spaces column ++ rest), mark⟩ =
      .ok ⟨s, ⟨rest, mark.passed (written ++ Printer.spaces column)⟩, true⟩ := by
  intro written
  have hwritten : written = _ := scalarLine_literal _ hs
  set indent := (max parent 0).toNat + 2 with hindent
  set body := Printer.literalBody indent true (Printer.endLine s) with hbody
  set start := (mark.advance (Printer.literalHints s).length.succ).newline with hstart
  have hlines : readBlockLines false indent (body ++ (Printer.spaces column ++ rest)) start {} =
      .ok ((Printer.endLine s).foldl BlockLines.push {},
        ⟨rest, start.passed (body ++ Printer.spaces column)⟩) :=
    readBlockLines_literal hs hprint h rfl
  have hpassed : mark.passed (written ++ Printer.spaces column) =
      start.passed (body ++ Printer.spaces column) := by
    rw [hwritten, List.cons_append, Mark.passed_cons (by rfl), List.append_assoc,
      Mark.passed_append, Mark.passed_eq_advance fun _ => isBreak_of_mem_literalHints,
      Mark.advance_advance, Nat.add_comm 1]
    exact Mark.passed_break (by rfl) _ _
  have hafter : written ++ (Printer.spaces column ++ rest) =
      '|' :: (Printer.literalHints s ++ '\n' :: (body ++ (Printer.spaces column ++ rest))) := by
    rw [hwritten]
    simp
  have hleading := fun hides =>
    @readLeadingLines_body indent s start hs hprint hides rfl (Printer.spaces column ++ rest)
  rw [hpassed, hafter]
  generalize body ++ (Printer.spaces column ++ rest) = after at hlines hleading ⊢
  have hskip : (Cursor.mk ('|' :: (Printer.literalHints s ++ '\n' :: after)) mark).skip
      (('|' :: (Printer.literalHints s ++ '\n' :: after)).length - ('\n' :: after).length) =
        ⟨'\n' :: after, mark.advance (Printer.literalHints s).length.succ⟩ :=
    Cursor.skip_append ('|' :: Printer.literalHints s) ('\n' :: after) mark
  rw [readBlock, List.drop_one, List.tail_cons, readBlockHeader_literalHints, ok_bind]
  dsimp only
  rw [hskip, passLineEnd_break, ok_bind, ← hstart]
  cases hides : hidesIndentation s with
  | true =>
    show (readBlockLines false indent after start {} >>= _) = _
    rw [hlines, ok_bind, BlockLines.chomped_ofReversed hs]
  | false =>
    obtain ⟨more, rfl, hfirst⟩ := hleading hides
    have hwidest : max (max indent (parent + 1).toNat) 1 = indent := by omega
    rw [readBlockLines_spaces indent (by simp [hstart, Mark.newline]) rfl] at hlines
    show (readLeadingLines (Printer.spaces indent ++ more) start [] 0 >>= _) = _
    rw [hfirst, ok_bind]
    show (readBlockLines false (max (max indent (parent + 1).toNat) 1) more (start.advance indent) {}
      >>= _) = _
    rw [hwidest, hlines, ok_bind, BlockLines.chomped_ofReversed hs]

end ClusterTuning.Yaml.Token
