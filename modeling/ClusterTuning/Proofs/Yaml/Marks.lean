import ClusterTuning.Proofs.Yaml.Numerals
import ClusterTuning.Yaml.Printer
import Mathlib.Data.List.Infix

/-!
# Marks in written documents

A mark is a word that begins with an exclamation mark and holds none of the
characters with which the writer separates and escapes.  Without tags, such a word
can stand in a written document only where it stands in one of its texts.

* `Printer.Embeds` — how the texts of a document stand in what is written;
* `Printer.not_infix_document` — a document without the mark is written without it.
-/

namespace ClusterTuning.Yaml

/-! ## The values in a value -/

namespace Value

mutual

/-- A value and all values in it, the keys of mappings included. -/
def subvalues : Value → List Value
  | .sequence items => .sequence items :: itemSubvalues items
  | .mapping entries => .mapping entries :: entrySubvalues entries
  | .tagged tag v => .tagged tag v :: subvalues v
  | v => [v]

/-- The values in a list of values. -/
def itemSubvalues : List Value → List Value
  | [] => []
  | x :: xs => subvalues x ++ itemSubvalues xs

/-- The values in the keys and the values of entries. -/
def entrySubvalues : List (Value × Value) → List Value
  | [] => []
  | (k, v) :: rest => subvalues k ++ (subvalues v ++ entrySubvalues rest)

end

theorem mem_subvalues (v : Value) : v ∈ v.subvalues := by
  cases v <;> simp [subvalues]

theorem mem_itemSubvalues {w : Value} {items : List Value} :
    w ∈ itemSubvalues items ↔ ∃ x ∈ items, w ∈ x.subvalues := by
  induction items with
  | nil => simp [itemSubvalues]
  | cons x xs ih => simp [itemSubvalues, ih]

theorem mem_entrySubvalues {w : Value} {entries : List (Value × Value)} :
    w ∈ entrySubvalues entries ↔
      ∃ entry ∈ entries, w ∈ entry.1.subvalues ∨ w ∈ entry.2.subvalues := by
  induction entries with
  | nil => simp [entrySubvalues]
  | cons entry rest ih =>
    obtain ⟨k, v⟩ := entry
    simp [entrySubvalues, ih, or_assoc]

/-- Whether a value stands under a tag. -/
def isTagged : Value → Bool
  | .tagged _ _ => true
  | _ => false

end Value

namespace Printer

open Value

/-! ## Written forms -/

theorem areWritable_iff {items : List Value} :
    areWritable items = true ↔ ∀ x ∈ items, isWritable false x = true := by
  induction items with
  | nil => simp [areWritable]
  | cons x xs ih => rw [areWritable, Bool.and_eq_true, ih, List.forall_mem_cons]

/-- A mapping whose keys are texts has a written form when its values do. -/
theorem isWritable_mapping {entries : List (Value × Value)}
    (hkeys : ∀ e ∈ entries, ∃ s, e.1 = .string s)
    (hvalues : ∀ e ∈ entries, isWritable false e.2 = true) :
    isWritable false (.mapping entries) = true := by
  have hkey : ambiguousKey entries = false := by
    match entries, hkeys with
    | [], _ => rfl
    | [(k, v)], hkeys =>
      obtain ⟨s, rfl⟩ := hkeys (k, v) List.mem_cons_self
      rfl
    | (k, v) :: _ :: _, hkeys =>
      obtain ⟨s, rfl⟩ := hkeys (k, v) List.mem_cons_self
      rfl
  have hall : entriesWritable entries = true := by
    clear hkey
    induction entries with
    | nil => rfl
    | cons e rest ih =>
      obtain ⟨k, v⟩ := e
      obtain ⟨⟨s, rfl⟩, hothers⟩ := List.forall_mem_cons.1 hkeys
      obtain ⟨hv, hrest⟩ := List.forall_mem_cons.1 hvalues
      rw [entriesWritable, hv, ih hothers hrest]
      rfl
  rw [isWritable, hkey, hall]
  rfl

/-! ## Marks -/

/-- A word with which nothing that the writer puts in is confused. -/
structure IsMark (mark : List Char) : Prop where
  bang : mark.head? = some '!'
  inner : ∀ c ∈ mark, c ∉ [':', '\'', '"', '\\'] ∧ isBreak c = false

variable {mark : List Char}

theorem IsMark.ne_nil (hm : IsMark mark) : mark ≠ [] := by
  rintro rfl
  exact nomatch hm.bang

theorem IsMark.bang_mem (hm : IsMark mark) : '!' ∈ mark :=
  List.mem_of_mem_head? hm.bang

/-- The front of a mark, if there is any, begins with the exclamation mark. -/
theorem IsMark.bang_mem_of_append (hm : IsMark mark) {l r : List Char} (h : mark = l ++ r)
    (hl : l ≠ []) : '!' ∈ l := by
  have hbang := hm.bang
  rw [h, List.head?_append_of_ne_nil l hl] at hbang
  exact List.mem_of_mem_head? hbang

/-! ## Putting texts together -/

/-- Before a text come characters that begin no mark. -/
theorem infix_append_left_iff (hm : IsMark mark) {s t : List Char} (hs : '!' ∉ s) :
    mark <:+: s ++ t ↔ mark <:+: t := by
  rw [List.infix_append_iff]
  constructor
  · rintro (h | h | ⟨l, r, hlr, hl, hr⟩)
    · exact absurd (h.subset hm.bang_mem) hs
    · exact h
    · by_cases hnil : l = []
      · rw [hlr, hnil, List.nil_append]
        exact hr.isInfix
      · exact absurd (hl.subset (hm.bang_mem_of_append hlr hnil)) hs
  · exact fun h => .inr (.inl h)

/-- After a text comes a character that is in no mark. -/
theorem infix_append_cons_iff (hm : IsMark mark) {s t : List Char} {d : Char} (hd : d ∉ mark) :
    mark <:+: s ++ d :: t ↔ mark <:+: s ∨ mark <:+: t := by
  rw [List.infix_append_iff]
  constructor
  · rintro (h | h | ⟨l, r, rfl, hl, hr⟩)
    · exact .inl h
    · rcases List.infix_cons_iff.1 h with h | h
      · rcases List.prefix_cons_iff.1 h with hnil | ⟨r, rfl, -⟩
        · exact absurd hnil hm.ne_nil
        · exact absurd List.mem_cons_self hd
      · exact .inr h
    · rcases List.prefix_cons_iff.1 hr with rfl | ⟨r, rfl, -⟩
      · rw [List.append_nil]
        exact .inl hl.isInfix
      · exact absurd (List.mem_append_right l List.mem_cons_self) hd
  · rintro (h | h)
    · exact .inl h
    · exact .inr (.inl (List.infix_cons h))

/-- A text without the mark that ends with a line break. -/
structure IsLines (mark t : List Char) : Prop where
  free : ¬ mark <:+: t
  ends : ∃ s b, t = s ++ [b] ∧ isBreak b = true

/-- No mark reaches over a line break. -/
theorem IsLines.not_infix_append (hm : IsMark mark) {s t : List Char} (hs : IsLines mark s)
    (ht : ¬ mark <:+: t) : ¬ mark <:+: s ++ t := by
  obtain ⟨s', b, rfl, hb⟩ := hs.ends
  have hbreak : b ∉ mark := fun hmem => by
    rw [(hm.inner b hmem).2] at hb
    exact Bool.false_ne_true hb
  have hfree := (infix_append_cons_iff hm hbreak).not.1 hs.free
  rw [List.append_assoc, List.singleton_append, infix_append_cons_iff hm hbreak]
  exact not_or.2 ⟨(not_or.1 hfree).1, ht⟩

theorem IsLines.append (hm : IsMark mark) {s t : List Char} (hs : IsLines mark s)
    (ht : t = [] ∨ IsLines mark t) : IsLines mark (s ++ t) := by
  rcases ht with rfl | ht
  · rwa [List.append_nil]
  · refine ⟨hs.not_infix_append hm ht.free, ?_⟩
    obtain ⟨t', b, rfl, hb⟩ := ht.ends
    exact ⟨s ++ t', b, by simp, hb⟩

theorem IsLines.append_left (hm : IsMark mark) {s t : List Char} (hs : '!' ∉ s)
    (ht : IsLines mark t) : IsLines mark (s ++ t) := by
  refine ⟨(infix_append_left_iff hm hs).not.2 ht.free, ?_⟩
  obtain ⟨t', b, rfl, hb⟩ := ht.ends
  exact ⟨s ++ t', b, by simp, hb⟩

theorem IsLines.cons (hm : IsMark mark) {c : Char} {t : List Char} (hc : c ≠ '!')
    (ht : IsLines mark t) : IsLines mark (c :: t) :=
  ht.append_left hm (s := [c]) (by simpa [eq_comm] using hc)

/-- A key and its colon before the value. -/
theorem IsLines.key (hm : IsMark mark) {s t : List Char} (hs : ¬ mark <:+: s)
    (ht : IsLines mark t) : IsLines mark (s ++ ':' :: t) := by
  have hcolon : ':' ∉ mark := fun h => (hm.inner ':' h).1 (by decide)
  refine ⟨(infix_append_cons_iff hm hcolon).not.2 (not_or.2 ⟨hs, ht.free⟩), ?_⟩
  obtain ⟨t', b, rfl, hb⟩ := ht.ends
  exact ⟨s ++ ':' :: t', b, by simp, hb⟩

theorem isLines_append_newline (hm : IsMark mark) {s : List Char} (hs : ¬ mark <:+: s) :
    IsLines mark (s ++ ['\n']) := by
  have hline : '\n' ∉ mark := fun h => absurd (hm.inner '\n' h).2 (by decide)
  refine ⟨(infix_append_cons_iff hm hline).not.2 (not_or.2 ⟨hs, ?_⟩), s, '\n', rfl, by decide⟩
  exact fun h => hm.ne_nil (List.eq_nil_of_infix_nil h)

/-! ## Texts in quotes and blocks -/

/-- A text in its written form: each character stands for itself, or for characters of which the
first is in no mark and none begins one. -/
inductive Embeds (mark : List Char) : List Char → List Char → Prop where
  | nil : Embeds mark [] []
  | keep (c : Char) {s t : List Char} (h : Embeds mark s t) : Embeds mark (c :: s) (c :: t)
  | replace (c : Char) {d : Char} {chunk s t : List Char} (hd : d ∉ mark) (hchunk : '!' ∉ chunk)
      (h : Embeds mark s t) : Embeds mark (c :: s) (d :: (chunk ++ t))

/-- What begins like a mark begins so in the text itself. -/
theorem Embeds.prefix_transfer {s t w : List Char} (h : Embeds mark s t) (hw : w ⊆ mark)
    (hpre : w <+: t) : w <+: s := by
  induction h generalizing w with
  | nil => exact hpre
  | keep c h ih =>
    rcases List.prefix_cons_iff.1 hpre with rfl | ⟨r, rfl, hr⟩
    · exact List.prefix_append [] _
    · exact List.cons_prefix_cons.2 ⟨rfl, ih (List.subset_of_cons_subset hw) hr⟩
  | replace c hd hchunk h ih =>
    rcases List.prefix_cons_iff.1 hpre with rfl | ⟨r, rfl, hr⟩
    · exact List.prefix_append [] _
    · exact absurd (hw List.mem_cons_self) hd

/-- A written form holds the mark only where the text does. -/
theorem Embeds.infix_transfer (hm : IsMark mark) {s t : List Char} (h : Embeds mark s t)
    (hin : mark <:+: t) : mark <:+: s := by
  induction h with
  | nil => exact hin
  | keep c h ih =>
    rcases List.infix_cons_iff.1 hin with hpre | hrest
    · exact ((Embeds.keep c h).prefix_transfer (List.Subset.refl mark) hpre).isInfix
    · exact List.infix_cons (ih hrest)
  | @replace c d chunk s t hd hchunk h ih =>
    have hbang : '!' ∉ d :: chunk := by
      rw [List.mem_cons, not_or]
      exact ⟨fun heq => hd (heq ▸ hm.bang_mem), hchunk⟩
    rw [← List.cons_append, infix_append_left_iff hm hbang] at hin
    exact List.infix_cons (ih hin)

theorem bang_not_mem_spaces (n : Nat) : '!' ∉ spaces n := by
  intro h
  exact absurd (List.eq_of_mem_replicate h) (by decide)

theorem IsMark.not_mem_of_isBreak (hm : IsMark mark) {b : Char} (hb : isBreak b = true) :
    b ∉ mark := by
  intro hmem
  rw [(hm.inner b hmem).2] at hb
  exact Bool.false_ne_true hb

/-- Single quotes: a quote is written twice, and spaces follow the breaks. -/
theorem embeds_singleBody (hm : IsMark mark) (indent : Nat) (s : List Char) :
    Embeds mark s (singleBody indent false s) ∧ ∀ b, isBreak b = true →
      Embeds mark (b :: s) (b :: singleBody indent true s) := by
  have hquote : '\'' ∉ mark := fun h => (hm.inner '\'' h).1 (by decide)
  induction s with
  | nil =>
    refine ⟨.nil, fun b hb => ?_⟩
    have := Embeds.replace b (hm.not_mem_of_isBreak hb) (bang_not_mem_spaces indent) .nil
    simpa [singleBody] using this
  | cons c rest ih =>
    -- what stands for the character itself, without the spaces before it
    have hchar : isBreak c = false → Embeds mark (c :: rest)
        ((if c == '\'' then ['\'', '\''] else [c]) ++ singleBody indent false rest) := by
      intro _
      by_cases hc : c = '\''
      · subst hc
        exact .replace '\'' hquote (by decide) ih.1
      · rw [if_neg (by simpa using hc)]
        exact .keep c ih.1
    by_cases hc : isBreak c = true
    · simp only [singleBody, hc, if_true]
      exact ⟨ih.2 c hc, fun b hb => .keep b (ih.2 c hc)⟩
    · have hchar := hchar (by simpa using hc)
      simp only [singleBody, hc, if_false, if_true, Bool.false_eq_true, List.nil_append]
      refine ⟨hchar, fun b hb => ?_⟩
      rw [List.append_assoc]
      exact .replace b (hm.not_mem_of_isBreak hb) (bang_not_mem_spaces indent) hchar

/-- Literal blocks: spaces follow the breaks. -/
theorem embeds_literalBody (hm : IsMark mark) (indent : Nat) (s : List Char) :
    Embeds mark s (literalBody indent false s) ∧ ∀ b, isBreak b = true →
      Embeds mark (b :: s) (b :: literalBody indent true s) := by
  induction s with
  | nil => exact ⟨.nil, fun b _ => .keep b .nil⟩
  | cons c rest ih =>
    by_cases hc : isBreak c = true
    · simp only [literalBody, hc, if_true]
      exact ⟨ih.2 c hc, fun b hb => .keep b (ih.2 c hc)⟩
    · simp only [literalBody, hc, if_false, if_true, Bool.false_eq_true, List.nil_append]
      exact ⟨.keep c ih.1, fun b hb =>
        .replace b (hm.not_mem_of_isBreak hb) (bang_not_mem_spaces indent) (.keep c ih.1)⟩

/-! ## Digits -/

theorem bang_not_mem_hexDigits (width n : Nat) : '!' ∉ hexDigits width n := by
  intro h
  rcases List.mem_append.1 h with h | h
  · exact absurd (List.eq_of_mem_replicate h) (by decide)
  · obtain ⟨c, hc, hupper⟩ := List.mem_map.1 h
    obtain ⟨d, hd, rfl⟩ := exists_of_mem_toDigits (by decide) hc
    have hall : ∀ d < 16, (Nat.digitChar d).toUpper ≠ '!' := by decide
    exact hall d hd hupper

theorem bang_not_mem_natDigits (n : Nat) : '!' ∉ natDigits n := by
  intro h
  obtain ⟨d, hd, hc⟩ := exists_of_mem_toDigits (by decide) h
  have hall : ∀ d < 10, '!' ≠ Nat.digitChar d := by decide
  exact hall d hd hc

theorem bang_not_mem_intText (n : Int) : '!' ∉ (intText n).toList := by
  rw [intText, String.toList_ofList]
  split
  · rw [List.mem_cons, not_or]
    exact ⟨by decide, bang_not_mem_natDigits _⟩
  · exact bang_not_mem_natDigits _

theorem bang_not_mem_replicate {n : Nat} {c : Char} (h : c ≠ '!') :
    '!' ∉ List.replicate n c :=
  fun hmem => h (List.eq_of_mem_replicate hmem).symm

theorem bang_not_mem_positionalText (layout : NumberLayout) {digits : List Char}
    (h : '!' ∉ digits) (point : Int) : '!' ∉ layout.positionalText digits point := by
  have hzeros (n : Nat) : '!' ∉ List.replicate n '0' := bang_not_mem_replicate (by decide)
  have htake (n : Nat) : '!' ∉ digits.take n := fun hmem => h (List.mem_of_mem_take hmem)
  have hdrop (n : Nat) : '!' ∉ digits.drop n := fun hmem => h (List.mem_of_mem_drop hmem)
  unfold NumberLayout.positionalText
  dsimp only
  split
  · simp [h, hzeros]
  · split
    · split <;> simp [h, hzeros]
    · simp [htake, hdrop]

theorem bang_not_mem_exponentText {digits : List Char} (h : '!' ∉ digits) (point : Int) :
    '!' ∉ NumberLayout.exponentText digits point := by
  have hint := bang_not_mem_intText (point - 1)
  unfold NumberLayout.exponentText
  split <;> simp_all

theorem bang_not_mem_text (n : Number) : '!' ∉ n.text.toList := by
  cases n with
  | integer n => exact bang_not_mem_intText n
  | float x =>
    cases x with
    | nan => decide
    | infinite negative => cases negative <;> decide
    | finite negative significand exponent =>
      have hdigits : ∀ d : Decimal, '!' ∉ NumberLayout.document.numeral d := by
        intro d
        have hnat := bang_not_mem_natDigits d.coefficient
        unfold NumberLayout.numeral NumberLayout.document
        dsimp only
        split
        · exact bang_not_mem_positionalText _ hnat _
        · exact bang_not_mem_exponentText hnat _
      rw [Number.text, NumberLayout.text, String.toList_ofList]
      split
      · rw [List.mem_cons, not_or]
        exact ⟨by decide, hdigits _⟩
      · exact hdigits _

theorem bang_ne_of_shortEscape? {c letter : Char} (h : shortEscape? c = some letter) :
    letter ≠ '!' := by
  have hall : ∀ e ∈ [('\x00', '0'), ('\x07', 'a'), ('\x08', 'b'), ('\t', 't'), ('\n', 'n'),
      ('\x0b', 'v'), ('\x0c', 'f'), ('\r', 'r'), ('\x1b', 'e'), ('"', '"'), ('\\', '\\'),
      ('\u0085', 'N'), ('\u2028', 'L'), ('\u2029', 'P')], e.2 ≠ '!' := by decide
  obtain ⟨e, he, rfl⟩ := Option.map_eq_some_iff.1 h
  exact hall e (List.mem_of_find?_eq_some he)

/-- In double quotes a character stands for itself or becomes an escape. -/
theorem doubleChar_eq_or (c : Char) :
    doubleChar c = [c] ∨ ∃ chunk, doubleChar c = '\\' :: chunk ∧ '!' ∉ chunk := by
  have hhex (letter : Char) (hletter : letter ≠ '!') (width : Nat) :
      '!' ∉ letter :: hexDigits width c.toNat := by
    rw [List.mem_cons, not_or]
    exact ⟨hletter.symm, bang_not_mem_hexDigits width c.toNat⟩
  unfold doubleChar
  split
  · next letter hletter =>
    exact .inr ⟨[letter], rfl, by simpa [eq_comm] using bang_ne_of_shortEscape? hletter⟩
  · split_ifs
    · exact .inl rfl
    · exact .inr ⟨_, rfl, hhex 'x' (by decide) 2⟩
    · exact .inr ⟨_, rfl, hhex 'u' (by decide) 4⟩
    · exact .inr ⟨_, rfl, hhex 'U' (by decide) 8⟩

/-- Double quotes: what cannot stand as it is becomes an escape. -/
theorem embeds_doubleBody (hm : IsMark mark) (s : List Char) :
    Embeds mark s (s.flatMap doubleChar) := by
  have hescape : '\\' ∉ mark := fun h => (hm.inner '\\' h).1 (by decide)
  induction s with
  | nil => exact .nil
  | cons c rest ih =>
    rw [List.flatMap_cons]
    rcases doubleChar_eq_or c with hc | ⟨chunk, hc, hchunk⟩
    · rw [hc]
      exact .keep c ih
    · rw [hc]
      exact .replace c hescape hchunk ih

/-! ## Scalars -/

theorem not_infix_of_bang_not_mem (hm : IsMark mark) {s : List Char} (h : '!' ∉ s) :
    ¬ mark <:+: s :=
  fun hin => h (hin.subset hm.bang_mem)

/-- What the writer needs to know of a value so that no mark comes in with it. -/
def IsClear (mark : List Char) (v : Value) : Prop :=
  v.isTagged = false ∧ ∀ s, v = .string s → ¬ mark <:+: s.toList

theorem not_infix_of_scalar? (hm : IsMark mark) {v : Value} {style : Style} {s : List Char}
    (h : scalar? v = some (style, s)) (hv : IsClear mark v) : ¬ mark <:+: s := by
  cases v with
  | string t =>
    obtain ⟨rfl, rfl⟩ := Prod.mk.inj (Option.some.inj h)
    exact hv.2 t rfl
  | null =>
    obtain ⟨rfl, rfl⟩ := Prod.mk.inj (Option.some.inj h)
    exact not_infix_of_bang_not_mem hm (by decide)
  | bool b =>
    obtain ⟨rfl, rfl⟩ := Prod.mk.inj (Option.some.inj h)
    exact not_infix_of_bang_not_mem hm (by cases b <;> decide)
  | number n =>
    obtain ⟨rfl, rfl⟩ := Prod.mk.inj (Option.some.inj h)
    exact not_infix_of_bang_not_mem hm (bang_not_mem_text n)
  | sequence items => exact nomatch h
  | mapping entries => exact nomatch h
  | tagged tag v => exact nomatch h

/-- A text between two quotes. -/
theorem not_infix_quoted (hm : IsMark mark) {q : Char} (hq : q ∈ [':', '\'', '"', '\\'])
    {s t : List Char} (h : Embeds mark s t) (hs : ¬ mark <:+: s) : ¬ mark <:+: q :: (t ++ [q]) := by
  have hquote : q ∉ mark := fun hmem => (hm.inner q hmem).1 hq
  have hbang : '!' ∉ [q] := fun hmem => hquote (List.mem_singleton.1 hmem ▸ hm.bang_mem)
  rw [← List.singleton_append, infix_append_left_iff hm hbang, infix_append_cons_iff hm hquote]
  rintro (hin | hnil)
  · exact hs (h.infix_transfer hm hin)
  · exact hm.ne_nil (List.eq_nil_of_infix_nil hnil)

theorem not_infix_inlineScalar (hm : IsMark mark) (indent : Nat) (style : Style) {s : List Char}
    (hs : ¬ mark <:+: s) : ¬ mark <:+: inlineScalar indent style s := by
  cases style with
  | plain => exact hs
  | literal => exact hs
  | single => exact not_infix_quoted hm (by decide) (embeds_singleBody hm indent s).1 hs
  | double => exact not_infix_quoted hm (by decide) (embeds_doubleBody hm s) hs

theorem bang_not_mem_literalHints (s : List Char) : '!' ∉ literalHints s := by
  unfold literalHints
  rw [List.mem_append, not_or]
  constructor
  · split <;> decide
  · split
    · decide
    · split <;> decide
    · split
      · split <;> decide
      · decide

theorem isLines_endLine (hm : IsMark mark) {s : List Char} (hs : ¬ mark <:+: s) :
    IsLines mark (endLine s) := by
  unfold endLine
  split
  · next hend =>
    obtain ⟨b, hb, hbreak⟩ := (Option.any_eq_true _ _).1 hend
    obtain ⟨before, rfl⟩ := List.getLast?_eq_some_iff.1 hb
    exact ⟨hs, before, b, rfl, hbreak⟩
  · exact isLines_append_newline hm hs

theorem isLines_scalarLine (hm : IsMark mark) (indent : Nat) (style : Style) {s : List Char}
    (hs : ¬ mark <:+: s) : IsLines mark (scalarLine indent style s) := by
  cases style with
  | literal =>
    have hbody : ¬ mark <:+: '\n' :: literalBody indent true s := by
      intro hin
      rcases List.infix_cons_iff.1 (((embeds_literalBody hm indent s).2 '\n' rfl).infix_transfer hm
        hin) with hpre | hrest
      · rcases List.prefix_cons_iff.1 hpre with hnil | ⟨r, heq, -⟩
        · exact hm.ne_nil hnil
        · exact hm.not_mem_of_isBreak rfl (heq ▸ List.mem_cons_self)
      · exact hs hrest
    refine isLines_endLine hm ?_
    rw [← List.singleton_append, infix_append_left_iff hm (by decide),
      infix_append_left_iff hm (bang_not_mem_literalHints s)]
    exact hbody
  | plain => exact isLines_append_newline hm (not_infix_inlineScalar hm indent .plain hs)
  | single => exact isLines_append_newline hm (not_infix_inlineScalar hm indent .single hs)
  | double => exact isLines_append_newline hm (not_infix_inlineScalar hm indent .double hs)

/-! ## Nodes -/

theorem not_infix_of_simpleKey? (hm : IsMark mark) {column : Nat} {v : Value} {key : List Char}
    (h : simpleKey? column v = some key) (hv : IsClear mark v) : ¬ mark <:+: key := by
  have hsimple : ∀ {w : Value} {text : List Char} {size : Nat},
      simpleKey?.simple? column w = some (text, size) → IsClear mark w → ¬ mark <:+: text := by
    intro w text size hw hclear
    unfold simpleKey?.simple? at hw
    split at hw
    · obtain ⟨rfl, -⟩ := Prod.mk.inj (Option.some.inj hw)
      exact not_infix_of_bang_not_mem hm (by decide)
    · obtain ⟨rfl, -⟩ := Prod.mk.inj (Option.some.inj hw)
      exact not_infix_of_bang_not_mem hm (by decide)
    · obtain ⟨⟨style, s⟩, hscalar, hw⟩ := Option.bind_eq_some_iff.1 hw
      dsimp only at hw
      split at hw
      · exact nomatch hw
      · obtain ⟨rfl, -⟩ := Prod.mk.inj (Option.some.inj hw)
        exact not_infix_inlineScalar hm _ style (not_infix_of_scalar? hm hscalar hclear)
  unfold simpleKey? at h
  split at h
  · exact nomatch hv.1
  · obtain ⟨⟨text, size⟩, htext, h⟩ := Option.bind_eq_some_iff.1 h
    dsimp only at h
    split at h
    · obtain rfl := Option.some.inj h
      exact hsimple htext hv
    · exact nomatch h

theorem bang_not_mem_gap (place : Place) : '!' ∉ gap place none := by
  cases place <;> simp [gap]

theorem bang_not_mem_lead (place : Place) (column : Nat) : '!' ∉ place.lead false column := by
  have hspaces := bang_not_mem_spaces column
  cases place <;> simp [Place.lead, hspaces]

theorem bang_not_mem_before (place : Place) (column : Nat) :
    '!' ∉ tagPart place none ++ place.lead false column := by
  rw [tagPart, List.nil_append]
  exact bang_not_mem_lead place column

/-- The text of one entry, given those of its key and its value. -/
theorem isLines_entry (hm : IsMark mark) {column : Nat} {k v : Value} (hk : IsClear mark k)
    (hkey : ∀ place, IsLines mark (node place none k))
    (hvalue : ∀ place, IsLines mark (node place none v)) :
    IsLines mark (match simpleKey? column k with
      | some key => key ++ ':' :: node (.field column) none v
      | none => '?' :: node (.mark column) none k ++
          spaces column ++ ':' :: node (.mark column) none v) := by
  cases hsimple : simpleKey? column k with
  | some key => exact (hvalue _).key hm (not_infix_of_simpleKey? hm hsimple hk)
  | none =>
    have hcolon := ((hvalue (.mark column)).cons hm (c := ':') (by decide)).append_left hm
      (bang_not_mem_spaces column)
    have hmark := ((hkey (.mark column)).cons hm (c := '?') (by decide)).append hm (.inr hcolon)
    simpa using hmark

theorem isLines_scalar (hm : IsMark mark) (place : Place) {v : Value} {style : Style}
    {s : List Char} (hscalar : scalar? v = some (style, s)) (hv : IsClear mark v) :
    IsLines mark (gap place none ++ scalarLine place.scalarColumn style s) :=
  (isLines_scalarLine hm _ style (not_infix_of_scalar? hm hscalar hv)).append_left hm
    (bang_not_mem_gap place)

mutual

/-- A value in which no tag and no mark stands is written in lines without the mark. -/
theorem isLines_node (hm : IsMark mark) : (v : Value) → (place : Place) →
    (∀ w ∈ v.subvalues, IsClear mark w) → IsLines mark (node place none v)
  | .tagged _ _, _, hv => nomatch (hv _ List.mem_cons_self).1
  | .null, place, hv => isLines_scalar hm place rfl (hv _ List.mem_cons_self)
  | .bool _, place, hv => isLines_scalar hm place rfl (hv _ List.mem_cons_self)
  | .number _, place, hv => isLines_scalar hm place rfl (hv _ List.mem_cons_self)
  | .string _, place, hv => isLines_scalar hm place rfl (hv _ List.mem_cons_self)
  | .sequence [], place, _ => by
    rw [node]
    refine IsLines.append_left hm ?_ (isLines_append_newline hm (s := ['[', ']']) ?_)
    · simpa [tagPart] using bang_not_mem_gap place
    · exact not_infix_of_bang_not_mem hm (by decide)
  | .mapping [], place, _ => by
    rw [node]
    refine IsLines.append_left hm ?_ (isLines_append_newline hm (s := ['\x7b', '\x7d']) ?_)
    · simpa [tagPart] using bang_not_mem_gap place
    · exact not_infix_of_bang_not_mem hm (by decide)
  | .sequence (x :: xs), place, hv => by
    have hx := isLines_node hm x (.item (place.sequenceColumn false)) fun w hw =>
      hv w (List.mem_cons_of_mem _ (List.mem_append_left _ hw))
    have hxs := isLines_items hm xs (place.sequenceColumn false) fun w hw =>
      hv w (List.mem_cons_of_mem _ (List.mem_append_right _ hw))
    rw [node]
    exact ((hx.cons hm (by decide)).append_left hm (bang_not_mem_before place _)).append hm hxs
  | .mapping ((k, v) :: rest), place, hv => by
    have hk := fun place => isLines_node hm k place fun w hw =>
      hv w (List.mem_cons_of_mem _ (List.mem_append_left _ hw))
    have hvalue := fun place => isLines_node hm v place fun w hw =>
      hv w (List.mem_cons_of_mem _ (List.mem_append_right _ (List.mem_append_left _ hw)))
    have hrest := isLines_entries hm rest place.mappingColumn fun w hw =>
      hv w (List.mem_cons_of_mem _ (List.mem_append_right _ (List.mem_append_right _ hw)))
    have hclear := hv k (List.mem_cons_of_mem _ (List.mem_append_left _ (mem_subvalues k)))
    rw [node]
    exact ((isLines_entry hm hclear hk hvalue).append_left hm
      (bang_not_mem_before place _)).append hm hrest

theorem isLines_items (hm : IsMark mark) : (xs : List Value) → (column : Nat) →
    (∀ w ∈ itemSubvalues xs, IsClear mark w) →
    items column xs = [] ∨ IsLines mark (items column xs)
  | [], _, _ => .inl rfl
  | x :: xs, column, hv => by
    have hx := isLines_node hm x (.item column) fun w hw => hv w (List.mem_append_left _ hw)
    have hxs := isLines_items hm xs column fun w hw => hv w (List.mem_append_right _ hw)
    rw [items]
    exact .inr (((hx.cons hm (by decide)).append_left hm (bang_not_mem_spaces column)).append hm hxs)

theorem isLines_entries (hm : IsMark mark) : (es : List (Value × Value)) → (column : Nat) →
    (∀ w ∈ entrySubvalues es, IsClear mark w) →
    entries column es = [] ∨ IsLines mark (entries column es)
  | [], _, _ => .inl rfl
  | (k, v) :: rest, column, hv => by
    have hk := fun place => isLines_node hm k place fun w hw => hv w (List.mem_append_left _ hw)
    have hvalue := fun place => isLines_node hm v place fun w hw =>
      hv w (List.mem_append_right _ (List.mem_append_left _ hw))
    have hrest := isLines_entries hm rest column fun w hw =>
      hv w (List.mem_append_right _ (List.mem_append_right _ hw))
    have hclear := hv k (List.mem_append_left _ (mem_subvalues k))
    rw [entries]
    exact .inr (((isLines_entry hm hclear hk hvalue).append_left hm
      (bang_not_mem_spaces column)).append hm hrest)

end

/-- **A document without tags and without the mark in its texts is written without the mark.** -/
theorem not_infix_document (hm : IsMark mark) {v : Value}
    (hv : ∀ w ∈ v.subvalues, IsClear mark w) : ¬ mark <:+: document v :=
  (isLines_node hm v .root hv).free

end Printer

end ClusterTuning.Yaml
