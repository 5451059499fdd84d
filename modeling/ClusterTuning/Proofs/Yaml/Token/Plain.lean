import ClusterTuning.Proofs.Yaml.Token.Place

/-!
# Plain scalars are read back

A text that is written plain is read up to the colon after a key, or up to the
start of the next token.

* `IsPlain` — the texts that are written plain;
* `IsPlain.readPlain` — a plain scalar is read;
* `readPlain_colon`, `readPlain_line` — what ends it.
-/

namespace ClusterTuning.Yaml.Token

open Printer (isPrintable ne_of_isPrintable)

/-! ## Plain scalars -/

section
variable {indent : Nat} {c : Char} {mark : Mark} {text rest : List Char} {gap : Gap}

/-- A space in a plain scalar waits for what comes after it. -/
theorem readPlain_space :
    readPlain false indent (' ' :: rest) mark text gap =
      readPlain false indent rest mark.advance text (gap.pushBlank ' ') := by
  rw [readPlain, if_pos (by rfl), if_neg (by simp)]
  exact nofun

theorem readPlain_spaces {first : Option Char} {reversed : List Char} (n : Nat) :
    readPlain false indent (Printer.spaces n ++ rest) mark text (.lines first reversed) =
      readPlain false indent rest (mark.advance n) text (.lines first reversed) := by
  induction n generalizing mark with
  | zero => rfl
  | succ n ih =>
    rw [Printer.spaces, List.replicate_succ, List.cons_append, readPlain_space]
    exact ih.trans (by rw [Mark.advance_advance, Nat.add_comm])

/-- Any other character is added to a plain scalar, after what waits for it, if it does not end the
scalar. -/
theorem readPlain_char (hprint : isPrintable c = true) (hspace : c ≠ ' ')
    (hbreak : isBreak c = false) (hgap : gap.isNone = true ∨ indent ≤ mark.column ∧ c ≠ '#')
    (hmark : mark.column = 0 → atDocumentMark (c :: rest) = false)
    (hcolon : c = ':' → atGap rest = false) :
    readPlain false indent (c :: rest) mark text gap =
      readPlain false indent rest mark.advance (c :: (gap.folded ++ text)) .none := by
  have hblank : isBlank c = false := by
    rw [isBlank_of_isPrintable hprint]
    simpa using hspace
  have hends : ((!gap.isNone && !false && decide (mark.column < indent)) ||
      (mark.column == 0 && atDocumentMark (c :: rest)) || (!gap.isNone && c == '#')) = false := by
    have hmark' : (mark.column == 0 && atDocumentMark (c :: rest)) = false := by
      by_cases h : mark.column = 0
      · rw [hmark h, Bool.and_false]
      · simp [h]
    rw [hmark']
    rcases hgap with hgap | ⟨hcolumn, hsharp⟩
    · simp [hgap]
    · simp [hsharp, Nat.not_lt.2 hcolumn]
  rw [readPlain, if_neg (by simp [hblank]), if_neg (by simp [hbreak]),
    if_neg (by rw [hends]; exact Bool.false_ne_true), if_neg (by simp),
    if_neg (by simpa using hcolon)]
  rintro rest' rfl
  exact absurd hprint (by decide)

end

/-- What a plain scalar is written for: no break, nothing that has to be escaped, no space at either
end and nothing that would begin or end another token. -/
structure IsPlain (s : List Char) : Prop where
  ne_nil : s ≠ []
  printable : ∀ c ∈ s, isPrintable c = true
  unbroken : ∀ c ∈ s, isBreak c = false
  head : s.head? ≠ some ' '
  last : s.getLast? ≠ some ' '
  indicator : Printer.hasIndicator s = false

theorem isPlain_of_allowsPlain {s : List Char} (hs : s ≠ []) (h : Printer.allowsPlain s = true) :
    IsPlain s := by
  simp only [Printer.allowsPlain, Printer.hasLooseEnd, Printer.needsEscapes, Bool.not_eq_true',
    Bool.or_eq_false_iff, List.any_eq_false, Bool.not_eq_true] at h
  obtain ⟨⟨⟨⟨hhead, hlast⟩, hbreak⟩, hprint, -⟩, hindicator⟩ := h
  exact ⟨hs, fun c hc => by simpa using hprint c hc, hbreak, fun h => by simp [h] at hhead,
    fun h => by simp [h] at hlast, hindicator⟩

theorem atGap_append {s t : List Char} (hprint : ∀ c ∈ s, isPrintable c = true)
    (h : Printer.startsWithGap s = false) : atGap (s ++ t) = false := by
  cases s with
  | nil => exact nomatch h
  | cons c rest =>
    have hc := List.forall_mem_cons.1 hprint |>.1
    have hgap : Printer.isGap c = false := h
    simp only [Printer.isGap, Bool.or_eq_false_iff] at hgap
    show (isBlank c || isBreak c) = false
    rw [isBlank_of_isPrintable hc, Bool.or_eq_false_iff]
    exact ⟨hgap.1.1.1, hgap.1.2⟩

theorem hasInnerIndicator_cons {a c : Char} {rest : List Char}
    (h : Printer.hasInnerIndicator (a :: c :: rest) = false) :
    (c = ':' → Printer.startsWithGap rest = false) ∧ (c = '#' → Printer.isGap a = false) ∧
      Printer.hasInnerIndicator (c :: rest) = false := by
  simpa [Printer.hasInnerIndicator, and_assoc] using h

/-- The inside of a plain scalar is read up to its end. -/
theorem readPlain_inside {indent : Nat} {after : List Char} (s : List Char) :
    ∀ {a : Char} {mark : Mark} {text : List Char} {gap : Gap},
      Printer.hasInnerIndicator (a :: s) = false →
      (∀ c ∈ s, isPrintable c = true) → (∀ c ∈ s, isBreak c = false) → s.getLast? ≠ some ' ' →
      (gap = .none ∨ gap.crossedLine = false ∧ a = ' ' ∧ s ≠ []) →
      indent ≤ mark.column → 0 < mark.column →
      readPlain false indent (s ++ after) mark text gap =
        readPlain false indent after (mark.passed s) (s.reverse ++ (gap.folded ++ text)) .none := by
  induction s with
  | nil =>
    intro a mark text gap _ _ _ _ hgap _ _
    obtain rfl : gap = .none := hgap.resolve_right fun h => h.2.2 rfl
    rfl
  | cons c rest ih =>
    intro a mark text gap hinner hprint hbreak hlast hgap hindent hcolumn
    obtain ⟨hc, hrestPrint⟩ := List.forall_mem_cons.1 hprint
    obtain ⟨hcbreak, hrestBreak⟩ := List.forall_mem_cons.1 hbreak
    obtain ⟨hcolon, hsharp, hrestInner⟩ := hasInnerIndicator_cons hinner
    have hcrossed : gap.crossedLine = false := by
      rcases hgap with rfl | hgap
      · rfl
      · exact hgap.1
    have hlast' : rest.getLast? ≠ some ' ' := by
      cases rest with
      | nil => exact nofun
      | cons d rest => rwa [List.getLast?_cons_cons] at hlast
    rw [List.cons_append, Mark.passed_cons hcbreak]
    by_cases hspace : c = ' '
    · subst hspace
      have hrest : rest ≠ [] := by
        rintro rfl
        exact hlast rfl
      have hpushed := Gap.crossedLine_pushBlank hcrossed ' '
      rw [readPlain_space, ih hrestInner hrestPrint hrestBreak hlast' (.inr ⟨hpushed, rfl, hrest⟩)
        (Nat.le_succ_of_le hindent) (Nat.succ_pos _), Gap.folded_pushBlank hcrossed]
      simp
    · have hgap' : gap.isNone = true ∨ indent ≤ mark.column ∧ c ≠ '#' := by
        rcases hgap with rfl | ⟨-, rfl, -⟩
        · exact .inl rfl
        · refine .inr ⟨hindent, ?_⟩
          rintro rfl
          exact absurd (hsharp rfl) (by decide)
      rw [readPlain_char hc hspace hcbreak hgap' (fun h => absurd h (Nat.ne_of_gt hcolumn))
        fun h => atGap_append hrestPrint (hcolon h),
        ih hrestInner hrestPrint hrestBreak hlast' (.inl rfl) (Nat.le_succ_of_le hindent)
          (Nat.succ_pos _)]
      simp [Gap.folded]

theorem hasIndicator_cons {c : Char} {rest : List Char}
    (h : Printer.hasIndicator (c :: rest) = false) :
    Printer.isIndicator c = false ∧
      (c = '?' ∨ c = ':' ∨ c = '-' → Printer.startsWithGap rest = false) ∧
      Printer.hasInnerIndicator (c :: rest) = false := by
  unfold Printer.hasIndicator at h
  obtain ⟨hfirst, hinner⟩ := Bool.or_eq_false_iff.1 h
  split at hfirst
  · exact nomatch hfirst
  · exact nomatch hfirst
  · next heq =>
    obtain ⟨rfl, rfl⟩ := List.cons.inj heq
    obtain ⟨hindicator, hgap⟩ := Bool.or_eq_false_iff.1 hfirst
    exact ⟨hindicator, by simpa [or_imp, and_assoc] using hgap, hinner⟩
  · next heq => exact nomatch heq

theorem eq_of_atDocumentMark {s : List Char} (h : atDocumentMark s = true) :
    ∃ d rest, (d = '-' ∨ d = '.') ∧ s = d :: d :: d :: rest := by
  unfold atDocumentMark at h
  split at h
  · exact ⟨'-', _, .inl rfl, rfl⟩
  · exact ⟨'.', _, .inr rfl, rfl⟩
  · exact nomatch h

theorem not_atDocumentMark_append {s after : List Char} (hne : s ≠ [])
    (hs : Printer.hasIndicator s = false) (hafter : ∀ c ∈ after.head?, c ≠ '-' ∧ c ≠ '.') :
    atDocumentMark (s ++ after) = false := by
  rw [Bool.eq_false_iff]
  intro hmark
  obtain ⟨d, rest, hd, heq⟩ := eq_of_atDocumentMark hmark
  have hfree : d ∉ after.head? := by
    intro hmem
    rcases hd with rfl | rfl
    · exact (hafter _ hmem).1 rfl
    · exact (hafter _ hmem).2 rfl
  match s, hne, hs, heq with
  | [_], _, _, heq =>
    have hrest : after = d :: d :: rest := (List.cons.inj heq).2
    exact hfree (hrest ▸ rfl)
  | [_, _], _, _, heq =>
    have hrest : after = d :: rest := (List.cons.inj (List.cons.inj heq).2).2
    exact hfree (hrest ▸ rfl)
  | _ :: _ :: _ :: _, _, hs, heq =>
    obtain ⟨rfl, heq⟩ := List.cons.inj heq
    obtain ⟨rfl, heq⟩ := List.cons.inj heq
    obtain ⟨rfl, -⟩ := List.cons.inj heq
    rcases hd with rfl | rfl <;> exact nomatch hs

/-- A plain scalar is read up to its end. -/
theorem IsPlain.readPlain {s after : List Char} (hs : IsPlain s) {indent : Nat} {mark : Mark}
    (hindent : indent ≤ mark.column + 1) (hafter : ∀ c ∈ after.head?, c ≠ '-' ∧ c ≠ '.') :
    readPlain false indent (s ++ after) mark [] .none =
      readPlain false indent after (mark.passed s) s.reverse .none := by
  have hmark := not_atDocumentMark_append hs.ne_nil hs.indicator hafter
  obtain ⟨hne, hprint, hbreak, hhead, hlast, hindicator⟩ := hs
  obtain ⟨c, rest, rfl⟩ := List.exists_cons_of_ne_nil hne
  obtain ⟨hc, hrestPrint⟩ := List.forall_mem_cons.1 hprint
  obtain ⟨hcbreak, hrestBreak⟩ := List.forall_mem_cons.1 hbreak
  obtain ⟨-, hgap, hinner⟩ := hasIndicator_cons hindicator
  have hspace : c ≠ ' ' := by
    rintro rfl
    exact hhead rfl
  have hlast' : rest.getLast? ≠ some ' ' := by
    cases rest with
    | nil => exact nofun
    | cons d rest => rwa [List.getLast?_cons_cons] at hlast
  rw [List.cons_append] at hmark ⊢
  rw [readPlain_char hc hspace hcbreak (.inl rfl) (fun _ => hmark)
    (fun h => atGap_append hrestPrint (hgap (.inr (.inl h)))),
    readPlain_inside rest hinner hrestPrint hrestBreak hlast' (.inl rfl) hindent (Nat.succ_pos _),
    Mark.passed_cons hcbreak]
  simp [Gap.folded]

section
variable {mark : Mark} {text rest : List Char}

/-- A colon before a gap ends a plain scalar. -/
theorem readPlain_colon {indent : Nat} (h : atGap rest = true) :
    readPlain false indent (':' :: rest) mark text .none =
      .ok ⟨text.reverse, ⟨':' :: rest, mark⟩, false⟩ := by
  rw [readPlain, if_neg (by decide), if_neg (by decide), if_neg, if_neg (by simp),
    if_pos (by simp [h])]
  · rfl
  · simp [Gap.isNone, atDocumentMark]
  · exact nofun

/-- The start of the next token ends a plain scalar. -/
theorem readPlain_line {parent : Int} {column : Nat} (h : Follows parent column rest) :
    readPlain false (parent + 1).toNat ('\n' :: (Printer.spaces column ++ rest)) mark text .none =
      .ok ⟨text.reverse, ⟨rest, mark.newline.advance column⟩, true⟩ := by
  rw [readPlain, if_neg (by decide), if_pos (by decide)]
  · show readPlain false _ _ _ _ (.lines (some '\n') []) = _
    rw [readPlain_spaces]
    cases rest with
    | nil => rfl
    | cons c rest =>
      obtain ⟨hblank, hbreak, hsharp, -⟩ := h.head c rfl
      have hends : ((!(Gap.lines (some '\n') []).isNone && !false &&
            decide ((mark.newline.advance column).column < (parent + 1).toNat)) ||
          ((mark.newline.advance column).column == 0 && atDocumentMark (c :: rest)) ||
          (!(Gap.lines (some '\n') []).isNone && c == '#')) = true := by
        have hcolumn : (mark.newline.advance column).column = column := Nat.zero_add column
        rw [hcolumn]
        rcases h.ends with hle | ⟨rfl, hempty | hmark⟩
        · have hlt : column < (parent + 1).toNat := by omega
          simp [Gap.isNone, hlt]
        · exact nomatch hempty
        · simp [hmark]
      rw [readPlain, if_neg (by simp [hblank]), if_neg (by simp [hbreak]), if_pos hends]
      · rfl
      · rintro rest' rfl
        exact absurd hbreak (by decide)
  · exact nofun

end

end ClusterTuning.Yaml.Token
