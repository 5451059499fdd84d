import ClusterTuning.Proofs.Patch.Rendering

/-!
# Integer placeholders in patches

A placeholder for a whole number is written as a tagged quotation, and the tag and
the quotes are looked for in the text, line by line.  For documents in which the
tag's name stands nowhere else, what is taken out is exactly what the placeholders
brought in: every one of them stands at the end of a line, where the search finds it
and stops at its closing quote.

* `Placeholder.Untags`, `Placeholder.UntagsLines` — what taking the tags out does to a
  text and to its lines;
* `Placeholder.exists_untags` — how such a document is written;
* `Edit.render_template` — the patch of such a document.
-/

namespace ClusterTuning

open Yaml

namespace Text

/-- What follows a text without breaking the line stands on the last line of the text. -/
theorem exists_pieces_append (sep : Char) (s : List Char) :
    ∃ ps p, p <:+ s ∧ ∀ q, sep ∉ q → pieces sep (s ++ q) = ps ++ [p ++ q] := by
  cases hcut : cutLast sep s with
  | none =>
    refine ⟨[], s, List.suffix_refl s, fun q hq => ?_⟩
    rw [pieces_of_not_mem, List.nil_append]
    exact List.mem_append.not.2 (not_or.2 ⟨cutLast_eq_none_iff.1 hcut, hq⟩)
  | some cut =>
    obtain ⟨before, after⟩ := cut
    refine ⟨pieces sep before, after, ?_, fun q hq => ?_⟩
    · rw [eq_of_cutLast hcut]
      exact (List.suffix_cons sep after).trans (List.suffix_append before _)
    · have hline : sep ∉ after ++ q :=
        List.mem_append.not.2 (not_or.2 ⟨not_mem_of_cutLast hcut, hq⟩)
      rw [eq_of_cutLast hcut, List.append_assoc, List.cons_append, pieces_append,
        pieces_of_not_mem hline]

/-- What holds no separator and stands in a text stands in one of its pieces. -/
theorem exists_mem_pieces_of_infix {sep : Char} {s w : List Char} (h : w <:+: s) (hw : sep ∉ w) :
    ∃ p ∈ pieces sep s, w <:+: p := by
  obtain ⟨front, back, rfl⟩ := h
  obtain ⟨ps, p, -, hps⟩ := exists_pieces_append sep front
  rw [List.append_assoc]
  by_cases hback : sep ∈ back
  · obtain ⟨b, b', rfl, hb⟩ := List.eq_append_cons_of_mem hback
    refine ⟨p ++ (w ++ b), ?_, p, b, List.append_assoc _ _ _⟩
    rw [← List.append_assoc w, ← List.append_assoc front, pieces_append,
      hps _ (List.mem_append.not.2 (not_or.2 ⟨hw, hb⟩))]
    simp
  · refine ⟨p ++ (w ++ back), ?_, p, back, List.append_assoc _ _ _⟩
    rw [hps _ (List.mem_append.not.2 (not_or.2 ⟨hw, hback⟩))]
    simp

end Text

namespace Placeholder

open Text Printer

/-! ## Documents with placeholders -/

/-- The name of the integer tag, with its mark. -/
def intWord : List Char :=
  ['!', 'i', 'n', 't']

theorem isMark_intWord : IsMark intWord where
  bang := rfl
  inner := by simp [intWord, isBreak]

/-- What the text of a placeholder is: an expression in braces that stands in single quotes as it
is. -/
structure IsExpression (e : List Char) : Prop where
  braces : ['\x7b', '\x7b'] <+: e
  unquoted : '\'' ∉ e
  printable : ∀ c ∈ e, isPrintable c = true ∧ isBreak c = false

theorem isExpression_iff {e : List Char} : IsExpression e ↔ ['\x7b', '\x7b'] <+: e ∧ '\'' ∉ e ∧
    e.all (fun c => isPrintable c && !isBreak c) = true := by
  simp only [List.all_eq_true, Bool.and_eq_true, Bool.not_eq_true']
  exact ⟨fun h => ⟨h.braces, h.unquoted, h.printable⟩, fun h => ⟨h.1, h.2.1, h.2.2⟩⟩

instance (e : List Char) : Decidable (IsExpression e) :=
  decidable_of_iff _ isExpression_iff.symm

/-- A text as the key of a mapping, without the name of the tag. -/
def IsPlainKey (k : Value) : Prop :=
  ∃ s, k = .string s ∧ ¬ intWord <:+: s.toList

/-- A document in which tags are those of placeholders only, and in which no key and no other text
holds the name of their tag. -/
inductive IsTemplate : Value → Prop where
  | null : IsTemplate .null
  | bool (b : Bool) : IsTemplate (.bool b)
  | number (n : Number) : IsTemplate (.number n)
  | string {s : String} (hs : ¬ intWord <:+: s.toList) : IsTemplate (.string s)
  | int {e : String} (he : IsExpression e.toList) : IsTemplate (int e)
  | sequence {items : List Value} (hitems : ∀ x ∈ items, IsTemplate x) :
    IsTemplate (.sequence items)
  | mapping {entries : List (Value × Value)}
      (hkeys : ∀ entry ∈ entries, IsPlainKey entry.1)
      (hvalues : ∀ entry ∈ entries, IsTemplate entry.2) : IsTemplate (.mapping entries)

/-- The expression of a placeholder. -/
def expression? : Value → Option (List Char)
  | .tagged tag (.string e) => if tag = "int" then some e.toList else none
  | _ => none

/-- The expressions of the placeholders in a document, in the order in which they stand there. -/
def expressions (v : Value) : List (List Char) :=
  v.subvalues.filterMap expression?

theorem expressions_int (e : String) : expressions (int e) = [e.toList] := rfl

theorem expressions_sequence (items : List Value) :
    expressions (.sequence items) = items.flatMap expressions := by
  have hitems : (Value.itemSubvalues items).filterMap expression? = items.flatMap expressions := by
    induction items with
    | nil => rfl
    | cons x xs ih => rw [Value.itemSubvalues, List.filterMap_append, ih, List.flatMap_cons]; rfl
  exact hitems

theorem expressions_mapping {entries : List (Value × Value)}
    (hkeys : ∀ entry ∈ entries, IsPlainKey entry.1) :
    expressions (.mapping entries) = entries.flatMap fun entry => expressions entry.2 := by
  have hentries : (Value.entrySubvalues entries).filterMap expression? =
      entries.flatMap fun entry => expressions entry.2 := by
    induction entries with
    | nil => rfl
    | cons entry rest ih =>
      obtain ⟨k, v⟩ := entry
      obtain ⟨s, rfl, -⟩ := hkeys (k, v) List.mem_cons_self
      rw [Value.entrySubvalues, List.filterMap_append, List.filterMap_append,
        ih fun entry hentry => hkeys entry (List.mem_cons_of_mem _ hentry), List.flatMap_cons]
      rfl
  exact hentries

/-- Every placeholder of a template holds an expression. -/
theorem IsTemplate.isExpression {v : Value} (hv : IsTemplate v) :
    ∀ e ∈ expressions v, IsExpression e := by
  induction hv with
  | null => exact List.forall_mem_nil _
  | bool b => exact List.forall_mem_nil _
  | number n => exact List.forall_mem_nil _
  | string hs => exact List.forall_mem_nil _
  | int he =>
    intro e hmem
    rw [expressions_int, List.mem_singleton] at hmem
    exact hmem ▸ he
  | sequence hitems ih =>
    intro e hmem
    rw [expressions_sequence, List.mem_flatMap] at hmem
    obtain ⟨x, hx, hmem⟩ := hmem
    exact ih x hx e hmem
  | mapping hkeys hvalues ih =>
    intro e hmem
    rw [expressions_mapping hkeys, List.mem_flatMap] at hmem
    obtain ⟨entry, hentry, hmem⟩ := hmem
    exact ih entry hentry e hmem

/-- A template has a written form: its keys are texts, and no tag stands under a tag. -/
theorem IsTemplate.isWritable {v : Value} (hv : IsTemplate v) : isWritable false v = true := by
  induction hv with
  | null => rfl
  | bool b => rfl
  | number n => rfl
  | string hs => rfl
  | int he => rfl
  | sequence _ ih => exact areWritable_iff.2 ih
  | mapping hkeys _ ih =>
    exact isWritable_mapping (fun e he => (hkeys e he).imp fun _ hs => hs.1) ih

/-! ## Lines with placeholders -/

/-- The written form of a placeholder. -/
def quotation (e : List Char) : List Char :=
  intMark ++ '\'' :: (e ++ ['\''])

/-- What taking out the tags makes of a list of lines: a line with a placeholder ends with it, and
there its expression alone remains; a line without the name of the tag stays as it is.  Before a
placeholder stands neither that name nor one more exclamation mark. -/
inductive UntagsLines : List (List Char) → List (List Char) → List (List Char) → Prop where
  | nil : UntagsLines [] [] []
  | untouched {line : List Char} {es ls ms : List (List Char)} (hline : ¬ intWord <:+: line)
      (h : UntagsLines es ls ms) : UntagsLines es (line :: ls) (line :: ms)
  | expression {before e : List Char} {es ls ms : List (List Char)}
      (hbefore : ¬ intWord <:+: before) (hlast : before.getLast? ≠ some '!')
      (h : UntagsLines es ls ms) :
      UntagsLines (e :: es) ((before ++ quotation e) :: ls) ((before ++ e) :: ms)

theorem UntagsLines.untouched_append {ls : List (List Char)} (hls : ∀ l ∈ ls, ¬ intWord <:+: l)
    {es ls' ms : List (List Char)} (h : UntagsLines es ls' ms) :
    UntagsLines es (ls ++ ls') (ls ++ ms) := by
  induction ls with
  | nil => exact h
  | cons l ls ih =>
    obtain ⟨hl, hls⟩ := List.forall_mem_cons.1 hls
    exact .untouched hl (ih hls)

theorem intWord_prefix_intMark : intWord <+: intMark :=
  ⟨[' '], rfl⟩

theorem bang_not_mem_tail_intMark : '!' ∉ intMark.tail := by decide

/-- A tagged quotation does not begin in what stands before a placeholder. -/
theorem append_quotation_ne {x e rest : List Char} (hx : x ≠ []) (hfree : ¬ intWord <:+: x) :
    x ++ quotation e ≠ intMark ++ '\'' :: rest := by
  intro heq
  rcases List.append_eq_append_iff.1 heq with ⟨a, hmark, ha⟩ | ⟨a, rfl, -⟩
  · -- the mark would begin before the placeholder and end in it
    obtain ⟨c, x', rfl⟩ := List.exists_cons_of_ne_nil hx
    cases a with
    | nil => exact hfree (by rw [← List.append_nil (c :: x'), ← hmark]; exact
        intWord_prefix_intMark.isInfix)
    | cons d a =>
      obtain rfl : '!' = d := (List.cons.inj ha).1
      refine bang_not_mem_tail_intMark ?_
      rw [hmark]
      exact List.mem_append_right x' List.mem_cons_self
  · exact hfree (intWord_prefix_intMark.isInfix.trans (List.prefix_append intMark a).isInfix)

/-- **A placeholder at the end of a line becomes its expression.** -/
theorem bareLine_quotation {before e : List Char} (hbefore : ¬ intWord <:+: before)
    (hlast : before.getLast? ≠ some '!') : bareLine (before ++ quotation e) = before ++ e := by
  induction before with
  | nil =>
    have hcut : (afterTag? (quotation e)).bind (cutLast '\'') = some (e, []) := by
      rw [quotation, afterTag?_eq_some_iff.2 (.inl rfl), Option.bind_some,
        cutLast_append List.not_mem_nil]
    rw [List.nil_append, bareLine_of_cut hcut, List.append_nil, List.nil_append]
  | cons c rest ih =>
    have hrest : ¬ intWord <:+: rest := fun h => hbefore (List.infix_cons h)
    have hnone : afterTag? (c :: (rest ++ quotation e)) = none := by
      refine Option.eq_none_iff_forall_ne_some.2 fun r hr => ?_
      rcases afterTag?_eq_some_iff.1 hr with h | h
      · exact append_quotation_ne (List.cons_ne_nil c rest) hbefore h
      · obtain ⟨rfl, hr'⟩ := List.cons.inj h
        refine append_quotation_ne ?_ hrest hr'
        rintro rfl
        exact hlast rfl
    have hlast' : rest.getLast? ≠ some '!' := by
      cases rest with
      | nil => exact fun h => by cases h
      | cons d rest => rwa [List.getLast?_cons_cons] at hlast
    rw [List.cons_append, bareLine, hnone, Option.bind_none, ih hrest hlast', List.cons_append]

theorem not_holdsTag_of_free {line : List Char} (h : ¬ intWord <:+: line) :
    ¬ HoldsTag line := by
  rintro ⟨before, inside, after, rfl⟩
  refine h (intWord_prefix_intMark.isInfix.trans ?_)
  exact (List.prefix_append intMark _).isInfix.trans (List.suffix_append before _).isInfix

theorem UntagsLines.map_bareLine {es ls ms : List (List Char)} (h : UntagsLines es ls ms) :
    ls.map bareLine = ms := by
  induction h with
  | nil => rfl
  | untouched hline h ih =>
    rw [List.map_cons, ih, bareLine_of_not_holdsTag (not_holdsTag_of_free hline)]
  | expression hbefore hlast h ih => rw [List.map_cons, ih, bareLine_quotation hbefore hlast]

/-- A tag before a quote. -/
def openTag : List Char :=
  intMark ++ ['\'']

/-- An expression begins with a brace, so a word without one that stands in a line stands in its
expression or before it. -/
theorem infix_append_expression_iff {w before e : List Char} (hw : w ≠ []) (hbrace : '\x7b' ∉ w)
    (he : IsExpression e) : w <:+: before ++ e ↔ w <:+: before ∨ w <:+: e := by
  constructor
  · intro h
    rcases List.infix_append_iff.1 h with h | h | ⟨l, r, rfl, hl, hr⟩
    · exact .inl h
    · exact .inr h
    · obtain ⟨rest, rfl⟩ := he.braces
      rcases List.prefix_cons_iff.1 hr with rfl | ⟨r, rfl, -⟩
      · rw [List.append_nil]
        exact .inl hl.isInfix
      · exact absurd (List.mem_append_right l List.mem_cons_self) hbrace
  · rintro (h | h)
    · exact h.trans (List.prefix_append before e).isInfix
    · exact h.trans (List.suffix_append before e).isInfix

/-- A word that holds the name of the tag remains only in expressions. -/
theorem UntagsLines.free {w : List Char} (hword : intWord <:+: w) (hbrace : '\x7b' ∉ w)
    {es ls ms : List (List Char)} (h : UntagsLines es ls ms)
    (hes : ∀ e ∈ es, IsExpression e ∧ ¬ w <:+: e) : ∀ m ∈ ms, ¬ w <:+: m := by
  have hne : w ≠ [] := by
    rintro rfl
    exact isMark_intWord.ne_nil (List.eq_nil_of_infix_nil hword)
  induction h with
  | nil => exact List.forall_mem_nil _
  | untouched hline h ih =>
    exact List.forall_mem_cons.2 ⟨fun hin => hline (hword.trans hin), ih hes⟩
  | expression hbefore hlast h ih =>
    obtain ⟨⟨he, hfree⟩, hes⟩ := List.forall_mem_cons.1 hes
    refine List.forall_mem_cons.2 ⟨?_, ih hes⟩
    rw [infix_append_expression_iff hne hbrace he]
    exact not_or.2 ⟨fun hin => hbefore (hword.trans hin), hfree⟩

/-! ## Texts with placeholders -/

/-- What taking out the tags makes of a text, in parts that end with line breaks. -/
inductive Untags : List (List Char) → List Char → List Char → Prop where
  | nil : Untags [] [] []
  | untouched {part s t : List Char} {es : List (List Char)} (hpart : IsLines intWord part)
      (h : Untags es s t) : Untags es (part ++ s) (part ++ t)
  | expression {before e s t : List Char} {es : List (List Char)} (hbefore : ¬ intWord <:+: before)
      (hlast : before.getLast? ≠ some '!') (hline : '\n' ∉ e) (h : Untags es s t) :
      Untags (e :: es) (before ++ (quotation e ++ '\n' :: s)) (before ++ (e ++ '\n' :: t))

theorem Untags.append {es fs : List (List Char)} {s t s' t' : List Char} (h : Untags es s t)
    (h' : Untags fs s' t') : Untags (es ++ fs) (s ++ s') (t ++ t') := by
  induction h with
  | nil => exact h'
  | untouched hpart h ih =>
    rw [List.append_assoc, List.append_assoc]
    exact .untouched hpart ih
  | expression hbefore hlast hline h ih =>
    simp only [List.append_assoc, List.cons_append]
    exact .expression hbefore hlast hline ih

/-- A line does not end as a text does not end whose last line it is. -/
theorem getLast?_ne_of_suffix {p s : List Char} {c : Char} (h : p <:+ s)
    (hc : s.getLast? ≠ some c) : p.getLast? ≠ some c := by
  obtain ⟨front, rfl⟩ := h
  intro hp
  rw [List.getLast?_append, hp] at hc
  exact hc rfl

theorem getLast?_append_ne {s t : List Char} {c : Char} (hs : s.getLast? ≠ some c)
    (ht : t.getLast? ≠ some c) : (s ++ t).getLast? ≠ some c := by
  rw [List.getLast?_append]
  cases hlast : t.getLast? with
  | some d => rwa [hlast] at ht
  | none => exact hs

/-- The lines of a text without its tags are its lines without their tags. -/
theorem Untags.lines {es : List (List Char)} {s t : List Char} (h : Untags es s t)
    {front : List Char} (hfront : front = [] ∨ IsLines intWord front) :
    UntagsLines es (pieces '\n' (front ++ s)) (pieces '\n' (front ++ t)) := by
  induction h generalizing front with
  | nil =>
    have hfree : ¬ intWord <:+: front := by
      rcases hfront with rfl | hfront
      · exact fun h => isMark_intWord.ne_nil (List.eq_nil_of_infix_nil h)
      · exact hfront.free
    have hpieces : ∀ p ∈ pieces '\n' front, ¬ intWord <:+: p :=
      fun p hp hin => hfree (hin.trans (infix_of_mem_pieces hp))
    simpa using UntagsLines.nil.untouched_append hpieces
  | @untouched part s t es hpart h ih =>
    have hnext : IsLines intWord (front ++ part) := by
      rcases hfront with rfl | hfront
      · exact hpart
      · exact hfront.append isMark_intWord (.inr hpart)
    rw [← List.append_assoc, ← List.append_assoc]
    exact ih (.inr hnext)
  | @expression before e s t es hbefore hlast hline h ih =>
    have hfree : ¬ intWord <:+: front ++ before := by
      rcases hfront with rfl | hfront
      · exact hbefore
      · exact hfront.not_infix_append isMark_intWord hbefore
    have hend : front.getLast? ≠ some '!' := by
      rcases hfront with rfl | hfront
      · exact fun h => by cases h
      · obtain ⟨text, b, rfl, hb⟩ := hfront.ends
        rw [List.getLast?_concat]
        rintro ⟨⟩
        exact absurd hb (by decide)
    -- the last line of what stands before is the front of the line of the placeholder
    obtain ⟨ps, p, hp, hpieces⟩ := exists_pieces_append '\n' (front ++ before)
    have hclear : ∀ q ∈ pieces '\n' (front ++ before), ¬ intWord <:+: q :=
      fun q hq hin => hfree (hin.trans (infix_of_mem_pieces hq))
    have hlines := hpieces [] List.not_mem_nil
    rw [List.append_nil, List.append_nil] at hlines
    rw [hlines, List.forall_mem_append, List.forall_mem_singleton] at hclear
    have hquote : '\n' ∉ quotation e := by simp [quotation, intMark, hline]
    have hjoined : ∀ q rest, '\n' ∉ q → pieces '\n' (front ++ (before ++ (q ++ '\n' :: rest))) =
        ps ++ (p ++ q) :: pieces '\n' rest := by
      intro q rest hq
      rw [← List.append_assoc, ← List.append_assoc (front ++ before), pieces_append, hpieces q hq,
        List.append_assoc, List.singleton_append]
    rw [hjoined _ s hquote, hjoined _ t hline]
    refine UntagsLines.untouched_append hclear.1 ?_
    exact .expression hclear.2 (getLast?_ne_of_suffix hp (getLast?_append_ne hend hlast))
      (ih (.inl rfl))

/-- **Taking out the tags, on texts**: it makes of a text what its parts say. -/
theorem Untags.bareInts_eq {es : List (List Char)} {s t : List Char} (h : Untags es s t) :
    bareInts (String.ofList s) = String.ofList t := by
  have hlines := h.lines (.inl rfl)
  rw [List.nil_append, List.nil_append] at hlines
  rw [bareInts, String.toList_ofList, hlines.map_bareLine, glue_pieces]

/-! ## Writing templates -/

/-- A part of a document as it is written, of which the tags can be taken out. -/
structure IsWritten (es : List (List Char)) (s : List Char) : Prop where
  ne_nil : s ≠ []
  untags : ∃ t, Untags es s t

theorem IsWritten.of_isLines {s : List Char} (h : IsLines intWord s) : IsWritten [] s := by
  refine ⟨?_, s, ?_⟩
  · obtain ⟨text, b, rfl, -⟩ := h.ends
    simp
  · simpa using Untags.untouched h .nil

theorem IsWritten.append {es fs : List (List Char)} {s s' : List Char} (h : IsWritten es s)
    (h' : ∃ t', Untags fs s' t') : IsWritten (es ++ fs) (s ++ s') := by
  obtain ⟨t, ht⟩ := h.untags
  obtain ⟨t', ht'⟩ := h'
  exact ⟨List.append_ne_nil_of_left_ne_nil h.ne_nil s', t ++ t', ht.append ht'⟩

/-- What stands before a part and brings no tag with it. -/
theorem IsWritten.behind {es : List (List Char)} {s front : List Char}
    (hfree : ∀ t, ¬ intWord <:+: t → ¬ intWord <:+: front ++ t)
    (hend : front.getLast? ≠ some '!') (h : IsWritten es s) : IsWritten es (front ++ s) := by
  obtain ⟨hne, t, ht⟩ := h
  refine ⟨List.append_ne_nil_of_right_ne_nil front hne, ?_⟩
  cases ht with
  | nil => exact absurd rfl hne
  | @untouched part s t _ hpart ht =>
    have hlines : IsLines intWord (front ++ part) := by
      refine ⟨hfree part hpart.free, ?_⟩
      obtain ⟨text, b, rfl, hb⟩ := hpart.ends
      exact ⟨front ++ text, b, by simp, hb⟩
    rw [← List.append_assoc]
    exact ⟨_, .untouched hlines ht⟩
  | @expression before e s t _ hbefore hlast hline ht =>
    rw [← List.append_assoc]
    exact ⟨_, .expression (hfree before hbefore) (getLast?_append_ne hend hlast) hline ht⟩

theorem IsWritten.append_left {es : List (List Char)} {s front : List Char}
    (hfront : '!' ∉ front) (h : IsWritten es s) : IsWritten es (front ++ s) :=
  h.behind (fun _ => (infix_append_left_iff isMark_intWord hfront).not.2)
    fun hlast => hfront (List.mem_of_getLast? hlast)

theorem IsWritten.cons {es : List (List Char)} {s : List Char} {c : Char} (hc : c ≠ '!')
    (h : IsWritten es s) : IsWritten es (c :: s) :=
  h.append_left (List.mem_singleton.not.2 hc.symm)

/-- A key and its colon before the value. -/
theorem IsWritten.key {es : List (List Char)} {s key : List Char} (hkey : ¬ intWord <:+: key)
    (h : IsWritten es s) : IsWritten es (key ++ ':' :: s) := by
  have hcolon : ':' ∉ intWord := by decide
  rw [List.append_cons]
  refine h.behind (fun t ht => ?_) (by simp)
  rw [← List.append_cons]
  exact (infix_append_cons_iff isMark_intWord hcolon).not.2 (not_or.2 ⟨hkey, ht⟩)

/-- Where nothing breaks, no space stands next to a break. -/
theorem spaceBreaks_eq_false {s : List Char} (h : ∀ c ∈ s, isBreak c = false) :
    hasSpaceBreak s = false ∧ hasBreakSpace s = false := by
  match s, h with
  | [], _ => exact ⟨rfl, rfl⟩
  | [_], _ => exact ⟨rfl, rfl⟩
  | a :: b :: rest, h =>
    obtain ⟨ha, hrest⟩ := List.forall_mem_cons.1 h
    obtain ⟨hspace, hbreak⟩ := spaceBreaks_eq_false hrest
    rw [hasSpaceBreak, hasBreakSpace, hspace, hbreak, ha, hrest b List.mem_cons_self]
    simp

/-- An expression begins with a character that begins no plain scalar, and nothing in it keeps it
out of single quotes. -/
theorem IsExpression.textStyle_eq {e : List Char} (he : IsExpression e) :
    textStyle e = .single := by
  have hline : '\n' ∉ e := fun h => absurd (he.printable '\n' h).2 (by decide)
  have hplain : allowsPlain e = false := by
    obtain ⟨rest, rfl⟩ := he.braces
    have hindicator : hasIndicator (['\x7b', '\x7b'] ++ rest) = true := rfl
    rw [allowsPlain, hindicator, Bool.or_true]
    rfl
  have hsingle : allowsSingle e = true := by
    obtain ⟨hspace, hbreak⟩ := spaceBreaks_eq_false fun c hc => (he.printable c hc).2
    have hprintable : e.any (fun c => !isPrintable c) = false :=
      List.any_eq_false.2 fun c hc => by
        rw [(he.printable c hc).1]
        exact Bool.false_ne_true
    rw [allowsSingle, needsEscapes, hspace, hbreak, hprintable]
    rfl
  rw [textStyle, if_neg hline, hplain, Bool.and_false, if_neg Bool.false_ne_true, if_pos hsingle]

theorem singleBody_eq_self {indent : Nat} {s : List Char} (hquote : '\'' ∉ s)
    (hbreak : ∀ c ∈ s, isBreak c = false) : singleBody indent false s = s := by
  induction s with
  | nil => rfl
  | cons c rest ih =>
    rw [List.mem_cons, not_or] at hquote
    have hc : (c == '\'') = false := beq_eq_false_iff_ne.2 (Ne.symm hquote.1)
    rw [singleBody, hbreak c List.mem_cons_self, hc,
      ih hquote.2 fun d hd => hbreak d (List.mem_cons_of_mem c hd)]
    rfl

/-- A placeholder ends its line: the tag and the quoted expression. -/
theorem isWritten_int {e : String} (he : IsExpression e.toList) (place : Place) :
    IsWritten [e.toList] (node place none (int e)) := by
  have hbody : singleBody place.scalarColumn false e.toList = e.toList :=
    singleBody_eq_self he.unquoted fun c hc => (he.printable c hc).2
  have hscalar : scalarLine place.scalarColumn (textStyle e.toList) e.toList =
      '\'' :: (e.toList ++ ['\'']) ++ ['\n'] := by
    rw [he.textStyle_eq]
    change '\'' :: (singleBody place.scalarColumn false e.toList ++ ['\'']) ++ ['\n'] = _
    rw [hbody, List.cons_append]
  have hnode : node place none (int e) =
      (if place.isInline then [' '] else []) ++ (quotation e.toList ++ '\n' :: []) := by
    change tagPart place (some "int") ++ gap place (some "int") ++
      scalarLine place.scalarColumn (textStyle e.toList) e.toList = _
    have hgap : gap place (some "int") = [' '] := by cases place <;> rfl
    have htag : tagText "int" = intWord := by decide
    rw [hscalar, hgap, tagPart, htag]
    simp [quotation, intMark, intWord]
  have hline : '\n' ∉ e.toList := fun h => absurd (he.printable '\n' h).2 (by decide)
  have hempty : ¬ intWord <:+: [] := by decide
  have hquote : IsWritten [e.toList] ([] ++ (quotation e.toList ++ '\n' :: [])) :=
    ⟨by simp, _, .expression hempty (by decide) hline .nil⟩
  rw [hnode]
  exact hquote.append_left (by split <;> decide)

/-- The entries of a sequence. -/
theorem exists_untags_items {xs : List Value}
    (hxs : ∀ x ∈ xs, ∀ place, IsWritten (expressions x) (node place none x)) (column : Nat) :
    ∃ t, Untags (xs.flatMap expressions) (items column xs) t := by
  induction xs with
  | nil => exact ⟨[], .nil⟩
  | cons x xs ih =>
    obtain ⟨hx, hxs⟩ := List.forall_mem_cons.1 hxs
    have hitem := ((hx (.item column)).cons (c := '-') (by decide)).append_left
      (bang_not_mem_spaces column)
    rw [items, List.flatMap_cons]
    exact (hitem.append (ih hxs)).untags

/-- An entry of a mapping, from its key on. -/
theorem isWritten_entry {k v : Value} (column : Nat) (hk : IsPlainKey k)
    (hv : ∀ place, IsWritten (expressions v) (node place none v)) :
    IsWritten (expressions v) (match simpleKey? column k with
      | some key => key ++ ':' :: node (.field column) none v
      | none => '?' :: node (.mark column) none k ++
          spaces column ++ ':' :: node (.mark column) none v) := by
  obtain ⟨s, rfl, hs⟩ := hk
  have hclear : IsClear intWord (.string s) :=
    ⟨rfl, fun t ht => Value.string.inj ht ▸ hs⟩
  cases hsimple : simpleKey? column (.string s) with
  | some key => exact (hv _).key (not_infix_of_simpleKey? isMark_intWord hsimple hclear)
  | none =>
    have hkey := isLines_node isMark_intWord (.string s) (.mark column) fun w hw =>
      List.mem_singleton.1 hw ▸ hclear
    have hvalue := ((hv (.mark column)).cons (c := ':') (by decide)).append_left
      (bang_not_mem_spaces column)
    have hentry := (IsWritten.of_isLines (hkey.cons isMark_intWord (c := '?') (by decide))).append
      hvalue.untags
    simpa using hentry

/-- The entries of a mapping after the first one. -/
theorem exists_untags_entries {es : List (Value × Value)}
    (hkeys : ∀ entry ∈ es, IsPlainKey entry.1)
    (hvalues : ∀ entry ∈ es, ∀ place, IsWritten (expressions entry.2) (node place none entry.2))
    (column : Nat) :
    ∃ t, Untags (es.flatMap fun entry => expressions entry.2) (entries column es) t := by
  induction es with
  | nil => exact ⟨[], .nil⟩
  | cons entry rest ih =>
    obtain ⟨k, v⟩ := entry
    obtain ⟨hk, hkeys⟩ := List.forall_mem_cons.1 hkeys
    obtain ⟨hv, hvalues⟩ := List.forall_mem_cons.1 hvalues
    have hentry := (isWritten_entry column hk hv).append_left
      (bang_not_mem_spaces column)
    rw [entries, List.flatMap_cons]
    exact (hentry.append (ih hkeys hvalues)).untags

theorem isClear_of_ne_string {v : Value} (htag : v.isTagged = false) (hv : ∀ s, v ≠ .string s) :
    IsClear intWord v :=
  ⟨htag, fun s h => absurd h (hv s)⟩

/-- A scalar, or a collection without entries. -/
theorem isWritten_single {v : Value} (hv : v.subvalues = [v]) (hclear : IsClear intWord v)
    (place : Place) : IsWritten [] (node place none v) := by
  refine .of_isLines (isLines_node isMark_intWord v place fun w hw => ?_)
  rw [hv, List.mem_singleton] at hw
  exact hw ▸ hclear

/-- **How a template is written**: in parts that are free of the tag and placeholders that end their
lines, wherever it stands. -/
theorem IsTemplate.isWritten {v : Value} (hv : IsTemplate v) :
    ∀ place, IsWritten (expressions v) (node place none v) := by
  induction hv with
  | null => exact isWritten_single rfl (isClear_of_ne_string rfl fun s h => by cases h)
  | bool b => exact isWritten_single rfl (isClear_of_ne_string rfl fun s h => by cases h)
  | number n => exact isWritten_single rfl (isClear_of_ne_string rfl fun s h => by cases h)
  | string hs => exact isWritten_single rfl ⟨rfl, fun t ht => Value.string.inj ht ▸ hs⟩
  | int he => exact isWritten_int he
  | @sequence items hitems ih =>
    intro place
    rw [expressions_sequence]
    cases items with
    | nil => exact isWritten_single rfl (isClear_of_ne_string rfl fun s h => by cases h) place
    | cons x xs =>
      obtain ⟨hx, hxs⟩ := List.forall_mem_cons.1 ih
      have hitem := ((hx (.item (place.sequenceColumn false))).cons (c := '-')
        (by decide)).append_left (bang_not_mem_before place (place.sequenceColumn false))
      rw [node, List.flatMap_cons]
      exact hitem.append (exists_untags_items hxs _)
  | @mapping entries hkeys hvalues ih =>
    intro place
    rw [expressions_mapping hkeys]
    cases entries with
    | nil => exact isWritten_single rfl (isClear_of_ne_string rfl fun s h => by cases h) place
    | cons entry rest =>
      obtain ⟨k, v⟩ := entry
      obtain ⟨hk, hkeys⟩ := List.forall_mem_cons.1 hkeys
      obtain ⟨hv, hrest⟩ := List.forall_mem_cons.1 ih
      have hentry := (isWritten_entry place.mappingColumn hk hv).append_left
        (bang_not_mem_before place place.mappingColumn)
      rw [node, List.flatMap_cons]
      exact hentry.append (exists_untags_entries hkeys hrest _)

end Placeholder

namespace Edit

open Placeholder Text

/-- **Placeholders for whole numbers come out bare, and nothing else changes.**  For edits that make
a document in which the tags are those of placeholders, and in which no key and no other text holds
their name, the patch is the text of that document in which every line that holds a placeholder ends
with its expression in place of the tagged quotation, and every other line is as it was.  No tag is
left before a quote, nor at all unless an expression itself holds its name. -/
theorem render_template {edits : List Edit} {document : Value}
    (happly : applyAll (.mapping []) edits = (document, .ok ())) (hdocument : IsTemplate document) :
    ∃ written text, document.write = .ok written ∧ render edits = .ok text ∧
      UntagsLines (expressions document) (pieces '\n' written.toList) (pieces '\n' text.toList) ∧
      ¬ openTag <:+: text.toList ∧
      ((∀ e ∈ expressions document, ¬ intWord <:+: e) → ¬ intWord <:+: text.toList) := by
  obtain ⟨t, ht⟩ := (hdocument.isWritten .root).untags
  have hwrite : document.write = .ok (String.ofList (Printer.document document)) := by
    rw [Value.write, hdocument.isWritable, if_pos rfl]
  have hlines := ht.lines (.inl rfl)
  rw [List.nil_append, List.nil_append] at hlines
  -- what is left in the text is left in one of its lines
  have hleft : ∀ w, intWord <:+: w → '\x7b' ∉ w → '\n' ∉ w →
      (∀ e ∈ expressions document, ¬ w <:+: e) → ¬ w <:+: t := by
    intro w hword hbrace hline hes hin
    obtain ⟨line, hmem, hin⟩ := exists_mem_pieces_of_infix hin hline
    exact hlines.free hword hbrace (fun e he => ⟨hdocument.isExpression e he, hes e he⟩) line
      hmem hin
  refine ⟨_, String.ofList t, hwrite, render_eq_ok_iff.2 ⟨_, _, happly, hwrite, ht.bareInts_eq⟩, ?_⟩
  rw [String.toList_ofList, String.toList_ofList]
  refine ⟨hlines, hleft openTag ⟨[], [' ', '\''], rfl⟩ (by decide) (by decide) ?_, ?_⟩
  · intro e he hin
    exact (hdocument.isExpression e he).unquoted (hin.subset (by decide))
  · exact hleft intWord List.infix_rfl (by decide) (by decide)

/-- A placeholder in a mapping, one in a list, and texts with quotes and breaks around them. -/
def sampleScaling : List Edit :=
  [.set [.field "it's", .field "replicas"] (int (expression "replicas")),
    .set [.field "it's", .field "note"] (.string "'two'\nlines"),
    .set [.field "ports"] (.sequence [int (expression "port"), .null])]

/-- The document of these edits. -/
def sampleScalingDocument : Value :=
  .mapping [
    (.string "it's", .mapping [(.string "replicas", int (expression "replicas")),
      (.string "note", .string "'two'\nlines")]),
    (.string "ports", .sequence [int (expression "port"), .null])]

theorem forall_mem_pair {α : Type} {p : α → Prop} {a b : α} (ha : p a) (hb : p b) :
    ∀ x ∈ [a, b], p x :=
  List.forall_mem_cons.2 ⟨ha, List.forall_mem_singleton.2 hb⟩

theorem isTemplate_sampleScalingDocument : IsTemplate sampleScalingDocument := by
  have hexpression : ∀ name ∈ ["replicas", "port"], IsExpression (expression name).toList := by
    decide
  have hkey : ∀ s ∈ ["it's", "replicas", "note", "'two'\nlines", "ports"],
      ¬ intWord <:+: s.toList := by decide
  have hnote : IsTemplate (.mapping [(.string "replicas", int (expression "replicas")),
      (.string "note", .string "'two'\nlines")]) := by
    refine .mapping (forall_mem_pair ?_ ?_) (forall_mem_pair ?_ ?_)
    · exact ⟨_, rfl, hkey _ (by decide)⟩
    · exact ⟨_, rfl, hkey _ (by decide)⟩
    · exact .int (hexpression _ (by decide))
    · exact .string (hkey _ (by decide))
  refine .mapping (forall_mem_pair ?_ ?_) (forall_mem_pair hnote ?_)
  · exact ⟨_, rfl, hkey _ (by decide)⟩
  · exact ⟨_, rfl, hkey _ (by decide)⟩
  · exact .sequence (forall_mem_pair (.int (hexpression _ (by decide))) .null)

/-- The tags and the quotes of the placeholders go, and the quotes of the other texts stay. -/
theorem render_template_sample :
    applyAll (.mapping []) sampleScaling = (sampleScalingDocument, .ok ()) ∧
      IsTemplate sampleScalingDocument ∧
      ∃ written text, sampleScalingDocument.write = .ok written ∧
        render sampleScaling = .ok text ∧ ¬ intWord <:+: text.toList ∧
        written = "it's:\n  replicas: !int '\x7b\x7b .Values.replicas \x7d\x7d'\n  note: |-\n" ++
          "    'two'\n    lines\nports:\n- !int '\x7b\x7b .Values.port \x7d\x7d'\n- null\n" ∧
        text = "it's:\n  replicas: \x7b\x7b .Values.replicas \x7d\x7d\n  note: |-\n" ++
          "    'two'\n    lines\nports:\n- \x7b\x7b .Values.port \x7d\x7d\n- null\n" := by
  have happly : applyAll (.mapping []) sampleScaling = (sampleScalingDocument, .ok ()) := by rfl
  have hdocument := isTemplate_sampleScalingDocument
  obtain ⟨written, text, hwrite, hrender, -, -, hclear⟩ := render_template happly hdocument
  have hwritten : sampleScalingDocument.write.toOption = some
      ("it's:\n  replicas: !int '\x7b\x7b .Values.replicas \x7d\x7d'\n  note: |-\n" ++
        "    'two'\n    lines\nports:\n- !int '\x7b\x7b .Values.port \x7d\x7d'\n- null\n") := by
    decide +kernel
  have htext : (render sampleScaling).toOption = some
      ("it's:\n  replicas: \x7b\x7b .Values.replicas \x7d\x7d\n  note: |-\n" ++
        "    'two'\n    lines\nports:\n- \x7b\x7b .Values.port \x7d\x7d\n- null\n") := by
    decide +kernel
  rw [hwrite] at hwritten
  rw [hrender] at htext
  exact ⟨happly, hdocument, written, text, hwrite, hrender, hclear (by decide),
    Option.some.inj hwritten, Option.some.inj htext⟩

end Edit

end ClusterTuning
