import ClusterTuning.Proofs.Patch.BareInts
import ClusterTuning.Proofs.Text.Pattern

/-!
# What is taken out of a text

Each line loses at most one quotation: the first one behind a mark of an integer, up
to the last quote of the line.  A mark may have a second exclamation mark before it,
which goes with it.  Line by line this is the same as to search the whole text for
tags and to leave only what they quote.

* `Placeholder.FirstTag` — the quotation that a line loses;
* `Placeholder.bareLine_of_firstTag`, `Placeholder.exists_firstTag` — the lines that
  lose one;
* `Placeholder.replaceAll_tag` — the search through the whole text;
* `Placeholder.bareInts_line_by_line` — the summary.
-/

namespace ClusterTuning

namespace Placeholder

open Text

variable {line before extra inside after : List Char}

/-! ## The first tag of a line -/

/-- The first quotation behind a mark in a line, with all that belongs to it. -/
structure FirstTag (line before extra inside after : List Char) : Prop where
  /-- The parts of the line. -/
  eq_append : line = before ++ (extra ++ (intMark ++ '\'' :: (inside ++ '\'' :: after)))
  /-- A second exclamation mark belongs to the tag. -/
  extra_eq : extra = ['!'] ∨ extra = [] ∧ before.getLast? ≠ some '!'
  /-- The quotation goes on to the last quote of the line. -/
  not_mem_after : '\'' ∉ after
  /-- No quotation behind a mark begins earlier. -/
  length_le : ∀ before' inside' after' : List Char,
    line = before' ++ (intMark ++ '\'' :: (inside' ++ '\'' :: after')) →
      (before ++ extra).length ≤ before'.length

theorem cut_eq_some_iff :
    (afterTag? line).bind (cutLast '\'') = some (inside, after) ↔
      (∃ extra, (extra = [] ∨ extra = ['!']) ∧
        line = extra ++ (intMark ++ '\'' :: (inside ++ '\'' :: after))) ∧ '\'' ∉ after := by
  simp only [Option.bind_eq_some_iff, afterTag?_eq_some_iff, cutLast_eq_some_iff]
  constructor
  · rintro ⟨rest, rfl | rfl, rfl, hafter⟩
    · exact ⟨⟨[], .inl rfl, rfl⟩, hafter⟩
    · exact ⟨⟨['!'], .inr rfl, rfl⟩, hafter⟩
  · rintro ⟨⟨extra, rfl | rfl, rfl⟩, hafter⟩
    · exact ⟨_, .inl rfl, rfl, hafter⟩
    · exact ⟨_, .inr rfl, rfl, hafter⟩

/-- Where no quotation is found, none is there, wherever it might end. -/
theorem ne_of_cut_eq_none (h : (afterTag? line).bind (cutLast '\'') = none)
    (hextra : extra = [] ∨ extra = ['!']) :
    line ≠ extra ++ (intMark ++ '\'' :: (inside ++ '\'' :: after)) := by
  intro hline
  have htag : afterTag? line = some (inside ++ '\'' :: after) := by
    rw [hline]
    rcases hextra with rfl | rfl
    · exact afterTag?_eq_some_iff.2 (.inl rfl)
    · exact afterTag?_eq_some_iff.2 (.inr rfl)
  rw [htag, Option.bind_some, cutLast_eq_none_iff] at h
  exact h (List.mem_append_right inside List.mem_cons_self)

theorem FirstTag.of_cut (h : (afterTag? line).bind (cutLast '\'') = some (inside, after)) :
    ∃ extra, FirstTag line [] extra inside after := by
  obtain ⟨⟨extra, hextra, hline⟩, hafter⟩ := cut_eq_some_iff.1 h
  refine ⟨extra, hline, ?_, hafter, ?_⟩
  · rcases hextra with rfl | rfl
    · exact .inr ⟨rfl, by simp⟩
    · exact .inl rfl
  · intro before' inside' after' hline'
    rcases hextra with rfl | rfl
    · exact Nat.zero_le _
    · cases before' with
      | nil => exact absurd (hline.symm.trans hline') (by simp [intMark])
      | cons c before' => exact Nat.succ_le_succ (Nat.zero_le _)

/-- The first tag of the rest of a line is the first one of the line if none begins the line. -/
theorem FirstTag.cons {c : Char} {rest : List Char} (h : FirstTag rest before extra inside after)
    (hnone : (afterTag? (c :: rest)).bind (cutLast '\'') = none) :
    FirstTag (c :: rest) (c :: before) extra inside after where
  eq_append := congrArg (c :: ·) h.eq_append
  extra_eq := by
    refine h.extra_eq.imp_right fun ⟨hnil, hlast⟩ => ⟨hnil, ?_⟩
    cases before with
    | nil =>
      intro hc
      obtain rfl : c = '!' := Option.some.inj hc
      have hrest : rest = intMark ++ '\'' :: (inside ++ '\'' :: after) := by
        rw [h.eq_append, hnil, List.nil_append, List.nil_append]
      exact ne_of_cut_eq_none hnone (.inr rfl) (congrArg ('!' :: ·) hrest)
    | cons d before => rwa [List.getLast?_cons_cons]
  not_mem_after := h.not_mem_after
  length_le := by
    intro before' inside' after' hline
    cases before' with
    | nil => exact absurd hline (ne_of_cut_eq_none hnone (.inl rfl))
    | cons d before' =>
      exact Nat.succ_le_succ (h.length_le before' inside' after' (List.cons.inj hline).2)

/-- A line with a quotation behind a mark has a first one. -/
theorem exists_firstTag (h : HoldsTag line) :
    ∃ before extra inside after, FirstTag line before extra inside after := by
  induction line with
  | nil =>
    obtain ⟨before, inside, after, hline⟩ := h
    simp [intMark] at hline
  | cons c rest ih =>
    cases hcut : (afterTag? (c :: rest)).bind (cutLast '\'') with
    | none =>
      obtain ⟨before, extra, inside, after, htag⟩ := ih (holdsTag_of_cons h hcut)
      exact ⟨c :: before, extra, inside, after, htag.cons hcut⟩
    | some cut =>
      obtain ⟨extra, htag⟩ := FirstTag.of_cut hcut
      exact ⟨[], extra, cut.1, cut.2, htag⟩

/-- The first tag of a line does not begin before it is found. -/
theorem FirstTag.cut_eq_none {c : Char} (h : FirstTag line (c :: before) extra inside after) :
    (afterTag? line).bind (cutLast '\'') = none := by
  refine Option.eq_none_iff_forall_ne_some.2 fun cut hcut => ?_
  obtain ⟨⟨extra', hextra', hline⟩, -⟩ := cut_eq_some_iff.1 hcut
  rcases hextra' with rfl | rfl
  · have hle := h.length_le [] _ _ hline
    simp at hle
  · have hle := h.length_le ['!'] _ _ hline
    have hnil : before = [] ∧ extra = [] := by simpa using hle
    rcases h.extra_eq with hextra | ⟨-, hlast⟩
    · exact List.cons_ne_nil '!' [] (hextra.symm.trans hnil.2)
    · have hc : c = '!' := (List.cons.inj (h.eq_append.symm.trans hline)).1
      exact hlast (by rw [hc, hnil.1]; rfl)

theorem FirstTag.of_cons {c : Char} {rest : List Char}
    (h : FirstTag (c :: rest) (c :: before) extra inside after) :
    FirstTag rest before extra inside after where
  eq_append := (List.cons.inj h.eq_append).2
  extra_eq := by
    refine h.extra_eq.imp_right fun ⟨hnil, hlast⟩ => ⟨hnil, ?_⟩
    cases before with
    | nil => simp
    | cons d before => rwa [List.getLast?_cons_cons] at hlast
  not_mem_after := h.not_mem_after
  length_le := by
    intro before' inside' after' hrest
    have hle := h.length_le (c :: before') inside' after' (congrArg (c :: ·) hrest)
    exact Nat.le_of_succ_le_succ hle

/-- **A line loses the first tag with its quotes, and keeps everything else.** -/
theorem bareLine_of_firstTag (h : FirstTag line before extra inside after) :
    bareLine line = before ++ (inside ++ after) := by
  induction before generalizing line with
  | nil =>
    have hextra : extra = [] ∨ extra = ['!'] := h.extra_eq.symm.imp_left And.left
    have hcut := cut_eq_some_iff.2 ⟨⟨extra, hextra, h.eq_append⟩, h.not_mem_after⟩
    rw [List.nil_append, bareLine_of_cut hcut]
  | cons c before ih =>
    have hline := h.eq_append
    rw [List.cons_append] at hline
    rw [hline, bareLine, ← hline, h.cut_eq_none]
    rw [hline] at h
    exact congrArg (c :: ·) (ih h.of_cons)

/-! ## The search through a whole text -/

/-- What follows the exclamation marks of a tag, up to the opening quote. -/
def tagWord : List Char :=
  ['i', 'n', 't', ' ', '\'']

/-- The word of a tag and a quotation within the line. -/
def taggedQuotation : Pattern :=
  .word tagWord ++ (.group (.run (· ≠ '\n')) ++ .word ['\''])

/-- One or two exclamation marks and the quotation behind them. -/
def tagPattern : Pattern :=
  .word ['!'] ++ (.optional (.word ['!']) ++ taggedQuotation)

/-- The end of a line: nothing, or a line feed with further lines behind it. -/
def EndsLine (tail : List Char) : Prop :=
  ∀ c, tail.head? = some c → c = '\n'

variable {tail : List Char}

theorem EndsLine.exists_eq_append {w rest : List Char} (htail : EndsLine tail) (hw : '\n' ∉ w)
    (h : line ++ tail = w ++ rest) : ∃ more, line = w ++ more ∧ rest = more ++ tail := by
  rcases List.append_eq_append_iff.1 h with ⟨more, hmore, htail'⟩ | ⟨more, hline, hrest⟩
  · cases more with
    | nil => exact ⟨[], by simpa using hmore.symm, by simpa using htail'.symm⟩
    | cons c more =>
      obtain rfl : c = '\n' := htail c (by rw [htail']; rfl)
      exact absurd (hmore ▸ List.mem_append_right line List.mem_cons_self) hw
  · exact ⟨more, hline, hrest⟩

/-- A tag ends on the line on which it begins. -/
theorem afterTag?_append (htail : EndsLine tail) (line : List Char) :
    afterTag? (line ++ tail) = (afterTag? line).map (· ++ tail) := by
  ext rest
  rw [Option.map_eq_some_iff]
  constructor
  · intro h
    have hcases : ∃ mark, '\n' ∉ mark ∧ line ++ tail = mark ++ rest ∧
        ∀ more, afterTag? (mark ++ more) = some more := by
      rcases afterTag?_eq_some_iff.1 h with heq | heq
      · exact ⟨intMark ++ ['\''], by decide, heq, fun _ => rfl⟩
      · exact ⟨'!' :: intMark ++ ['\''], by decide, heq, fun _ => rfl⟩
    obtain ⟨mark, hmark, heq, hafter⟩ := hcases
    obtain ⟨more, rfl, rfl⟩ := htail.exists_eq_append hmark heq
    exact ⟨more, hafter more, rfl⟩
  · rintro ⟨more, hmore, rfl⟩
    rw [afterTag?_eq_some_iff] at hmore ⊢
    rcases hmore with rfl | rfl
    · exact .inl rfl
    · exact .inr rfl

theorem first?_taggedQuotation (hline : '\n' ∉ line) (htail : EndsLine tail) :
    taggedQuotation.first? (tagWord ++ (line ++ tail)) =
      (cutLast '\'' line).map fun cut =>
        ⟨tagWord ++ (cut.1 ++ ['\'']), cut.1, cut.2 ++ tail⟩ := by
  rw [taggedQuotation, Pattern.first?_word_append, Pattern.first?_run_word, Option.map_map]
  · rfl
  · decide
  · intro c hc
    rw [htail c hc]
    decide
  · intro c hc
    exact decide_eq_true (ne_of_mem_of_not_mem hc hline)

theorem first?_taggedQuotation_bang (s : List Char) : taggedQuotation.first? ('!' :: s) = none :=
  Pattern.first?_word_append_eq_none (by simp [tagWord]) _

theorem first?_bang_word (s : List Char) (p : Pattern) :
    (Pattern.word ['!'] ++ p).first? ('i' :: s) = none :=
  Pattern.first?_word_append_eq_none (by simp) _

theorem intMark_append (s : List Char) : intMark ++ '\'' :: s = ['!'] ++ (tagWord ++ s) :=
  rfl

/-- What is found where a tag begins a text. -/
theorem first?_tag_append {s : List Char} (hextra : extra = [] ∨ extra = ['!']) :
    (tagPattern.first? (extra ++ (intMark ++ '\'' :: s))).map (fun m => (m.held, m.rest)) =
      (taggedQuotation.first? (tagWord ++ s)).map fun m => (m.held, m.rest) := by
  rw [intMark_append]
  rcases hextra with rfl | rfl
  · -- the optional mark is tried first, and is not there
    have hnone : (Pattern.word ['!'] ++ taggedQuotation).first? (tagWord ++ s) = none :=
      first?_bang_word _ _
    rw [List.nil_append, tagPattern, Pattern.first?_word_append, Pattern.first?_optional_append,
      hnone, Option.none_or, Option.map_map]
    rfl
  · have hnone : taggedQuotation.first? (['!'] ++ (tagWord ++ s)) = none :=
      first?_taggedQuotation_bang _
    rw [tagPattern, Pattern.first?_word_append, Pattern.first?_optional_append, hnone,
      Option.or_none, Pattern.first?_word_append, Option.map_map, Option.map_map]
    rfl

/-- Whatever is found begins with a tag. -/
theorem exists_of_first?_tag {s : List Char} {m : Found} (h : tagPattern.first? s = some m) :
    ∃ rest, afterTag? s = some rest := by
  obtain ⟨t, n, rfl, ht⟩ := Pattern.exists_of_first?_word_append h
  rw [Pattern.first?_optional_append, Option.or_eq_some_iff] at ht
  rcases ht with ht | ⟨-, ht⟩
  · obtain ⟨u, n, rfl, hu⟩ := Pattern.exists_of_first?_word_append ht
    obtain ⟨rest, -, rfl, -⟩ := Pattern.exists_of_first?_word_append hu
    exact ⟨rest, rfl⟩
  · obtain ⟨rest, -, rfl, -⟩ := Pattern.exists_of_first?_word_append ht
    exact ⟨rest, rfl⟩

/-- The tag that is found at the beginning of a line. -/
theorem first?_tag (hline : '\n' ∉ line) (htail : EndsLine tail) :
    (tagPattern.first? (line ++ tail)).map (fun m => (m.held, m.rest)) =
      ((afterTag? line).bind (cutLast '\'')).map fun cut => (cut.1, cut.2 ++ tail) := by
  cases hafter : afterTag? line with
  | none =>
    have hnone : tagPattern.first? (line ++ tail) = none := by
      refine Option.eq_none_iff_forall_ne_some.2 fun m hm => ?_
      obtain ⟨rest, hrest⟩ := exists_of_first?_tag hm
      rw [afterTag?_append htail, hafter] at hrest
      cases hrest
    rw [hnone]
    rfl
  | some rest =>
    obtain ⟨extra, hextra, rfl⟩ : ∃ extra, (extra = [] ∨ extra = ['!']) ∧
        line = extra ++ (intMark ++ '\'' :: rest) := by
      rcases afterTag?_eq_some_iff.1 hafter with rfl | rfl
      · exact ⟨[], .inl rfl, rfl⟩
      · exact ⟨['!'], .inr rfl, rfl⟩
    have hrest : '\n' ∉ rest := by
      intro h
      exact hline (List.mem_append_right _ (List.mem_append_right _ (List.mem_cons_of_mem _ h)))
    rw [List.append_assoc, List.append_assoc, List.cons_append, first?_tag_append hextra,
      first?_taggedQuotation hrest htail, Option.map_map]
    rfl

theorem cut_eq_none_of_not_mem (h : '\'' ∉ line) :
    (afterTag? line).bind (cutLast '\'') = none := by
  refine Option.eq_none_iff_forall_ne_some.2 fun cut hcut => ?_
  obtain ⟨⟨extra, -, rfl⟩, -⟩ := cut_eq_some_iff.1 hcut
  exact h (by simp)

theorem first?_tag_eq_none (hline : '\n' ∉ line) (htail : EndsLine tail)
    (hcut : (afterTag? line).bind (cutLast '\'') = none) :
    tagPattern.first? (line ++ tail) = none := by
  have hfirst := first?_tag hline htail
  rw [hcut] at hfirst
  exact Option.map_eq_none_iff.1 hfirst

theorem exists_first?_tag (hline : '\n' ∉ line) (htail : EndsLine tail)
    (hcut : (afterTag? line).bind (cutLast '\'') = some (inside, after)) :
    ∃ m, tagPattern.first? (line ++ tail) = some m ∧ m.held = inside ∧ m.rest = after ++ tail := by
  have hfirst := first?_tag hline htail
  rw [hcut, Option.map_some, Option.map_eq_some_iff] at hfirst
  obtain ⟨m, hm, heq⟩ := hfirst
  exact ⟨m, hm, Prod.mk.inj heq⟩

/-- Nothing is found on a line without quotes. -/
theorem replaceAll_of_not_mem (hline : '\n' ∉ line) (hquote : '\'' ∉ line) (htail : EndsLine tail) :
    tagPattern.replaceAll (line ++ tail) = line ++ tagPattern.replaceAll tail := by
  refine Pattern.replaceAll_append fun t _ ht => first?_tag_eq_none ?_ htail ?_
  · exact fun hmem => hline (ht.subset hmem)
  · exact cut_eq_none_of_not_mem fun hmem => hquote (ht.subset hmem)

/-- **The search goes through a line as the line is looked at by itself.** -/
theorem replaceAll_line (hline : '\n' ∉ line) (htail : EndsLine tail) :
    tagPattern.replaceAll (line ++ tail) = bareLine line ++ tagPattern.replaceAll tail := by
  induction line with
  | nil => rfl
  | cons c rest ih =>
    cases hcut : (afterTag? (c :: rest)).bind (cutLast '\'') with
    | none =>
      have hnone : tagPattern.first? (c :: (rest ++ tail)) = none :=
        first?_tag_eq_none hline htail hcut
      rw [List.cons_append, Pattern.replaceAll_cons_of_none hnone,
        ih (List.not_mem_of_not_mem_cons hline), bareLine, hcut, List.cons_append]
    | some cut =>
      obtain ⟨inside, after⟩ := cut
      obtain ⟨m, hm, hheld, hrest⟩ := exists_first?_tag hline htail hcut
      have hshort : m.rest.length ≤ (rest ++ tail).length := by
        have hlength := (holdsTag_of_afterTag? hcut).2
        rw [List.length_append, List.length_cons] at hlength
        rw [hrest, List.length_append, List.length_append]
        omega
      -- the search goes on behind the last quote of the line
      obtain ⟨⟨extra, -, hsplit⟩, hquote⟩ := cut_eq_some_iff.1 hcut
      have hbreak : '\n' ∉ after := by
        intro hmem
        exact hline (hsplit ▸ by simp [hmem])
      have hfound : tagPattern.replaceAll (c :: (rest ++ tail)) =
          m.held ++ tagPattern.replaceAll m.rest := Pattern.replaceAll_cons_of_some hm hshort
      rw [List.cons_append, hfound, hheld, hrest, replaceAll_of_not_mem hbreak hquote htail,
        bareLine_of_cut hcut, List.append_assoc]

theorem replaceAll_glue {lines : List (List Char)} (hne : lines ≠ [])
    (hlines : ∀ line ∈ lines, '\n' ∉ line) :
    tagPattern.replaceAll (glue '\n' lines) = glue '\n' (lines.map bareLine) := by
  induction lines with
  | nil => exact absurd rfl hne
  | cons line lines ih =>
    obtain ⟨hline, hlines⟩ := List.forall_mem_cons.1 hlines
    cases lines with
    | nil =>
      have hlast : tagPattern.replaceAll (line ++ []) = bareLine line ++ tagPattern.replaceAll [] :=
        replaceAll_line hline nofun
      rwa [List.append_nil, Pattern.replaceAll, List.append_nil] at hlast
    | cons next more =>
      have hends : EndsLine ('\n' :: glue '\n' (next :: more)) := fun _ hc =>
        (Option.some.inj hc).symm
      have hbreak : tagPattern.first? ('\n' :: glue '\n' (next :: more)) = none :=
        first?_tag_eq_none List.not_mem_nil hends rfl
      rw [glue, replaceAll_line hline hends, Pattern.replaceAll_cons_of_none hbreak,
        ih (List.cons_ne_nil next more) hlines]
      rfl

/-- **The text without the tags of integers is the text with every tag replaced by what it
quotes.** -/
theorem toList_bareInts (text : String) :
    (bareInts text).toList = tagPattern.replaceAll text.toList := by
  have hglue := replaceAll_glue (pieces_ne_nil '\n' text.toList) fun _ => not_mem_of_mem_pieces
  rw [glue_pieces] at hglue
  rw [bareInts, String.toList_ofList, hglue]

/-! ## Line by line -/

theorem bareInts_append_lines (a b : String) :
    bareInts (a ++ "\n" ++ b) = bareInts a ++ "\n" ++ bareInts b := by
  have hlines : (a ++ "\n" ++ b).toList = a.toList ++ '\n' :: b.toList := by
    simp [String.toList_append]
  have hmap : ∀ s, (pieces '\n' s).map bareLine ≠ [] := by
    intro s h
    exact pieces_ne_nil '\n' s (List.map_eq_nil_iff.1 h)
  rw [← String.toList_inj, bareInts, String.toList_ofList, hlines, pieces_append, List.map_append,
    glue_append '\n' (hmap _) (hmap _)]
  simp [bareInts, String.toList_append]

theorem bareInts_of_line {line : String} (h : '\n' ∉ line.toList) :
    bareInts line = String.ofList (bareLine line.toList) := by
  rw [bareInts, pieces_of_not_mem h]
  rfl

/-- **What is taken out of a text.**  A text loses what its lines lose.  A line loses the first
quotation behind a mark, with everything that belongs to it; a line without such a quotation is left
as it is.  This is what a search for tags through the whole text takes out. -/
theorem bareInts_line_by_line :
    (∀ a b : String, bareInts (a ++ "\n" ++ b) = bareInts a ++ "\n" ++ bareInts b) ∧
      (∀ line : String, '\n' ∉ line.toList →
        (∀ before extra inside after, FirstTag line.toList before extra inside after →
          bareInts line = String.ofList (before ++ (inside ++ after))) ∧
        (HoldsTag line.toList →
          ∃ before extra inside after, FirstTag line.toList before extra inside after) ∧
        (¬ HoldsTag line.toList → bareInts line = line)) ∧
      ∀ text : String, (bareInts text).toList = tagPattern.replaceAll text.toList := by
  refine ⟨bareInts_append_lines, fun line hline => ⟨?_, exists_firstTag, ?_⟩, toList_bareInts⟩
  · intro before extra inside after htag
    rw [bareInts_of_line hline, bareLine_of_firstTag htag]
  · intro hnone
    rw [bareInts_of_line hline, bareLine_of_not_holdsTag hnone, String.ofList_toList]

/-- Three exclamation marks and two tags: the line loses two of the marks, the first tag and the
last quote. -/
theorem bareInts_line_by_line_sample :
    let line := "a: !!!int 'x' !int 'y' z"
    '\n' ∉ line.toList ∧
      FirstTag line.toList "a: !".toList ['!'] "x' !int 'y".toList " z".toList ∧
      bareInts line = "a: !x' !int 'y z" ∧
      bareInts (line ++ "\n" ++ "b: 'x'") = "a: !x' !int 'y z" ++ "\n" ++ "b: 'x'" := by
  intro line
  have hline : '\n' ∉ line.toList := by decide
  have htag : FirstTag line.toList "a: !".toList ['!'] "x' !int 'y".toList " z".toList := by
    refine ⟨by decide, .inl rfl, by decide, ?_⟩
    intro before' inside' after' heq
    have hfree : ∀ k < 5, ¬ intMark <+: line.toList.drop k := by decide
    by_contra hlt
    refine hfree before'.length (not_le.1 hlt) ?_
    rw [heq, List.drop_left]
    exact List.prefix_append intMark _
  obtain ⟨hlines, hfirst, -⟩ := bareInts_line_by_line
  have hbare : bareInts line = "a: !x' !int 'y z" :=
    (hfirst line hline).1 _ _ _ _ htag
  have hkept : bareInts "b: 'x'" = "b: 'x'" := by decide
  exact ⟨hline, htag, hbare, by rw [hlines, hbare, hkept]⟩

end Placeholder

end ClusterTuning
