import ClusterTuning.Patch.Placeholder
import ClusterTuning.Proofs.Text.Cutting
import Mathlib.Data.List.Infix

/-!
# Which texts keep their quotes

Taking out the tags of integers changes a line exactly when it holds a tagged
quotation, and a text exactly when one of its lines does.  Whether that quotation
is a placeholder cannot be seen in the text.

* `Placeholder.bareInts_eq_self_iff` — texts that are left as they are;
* `Placeholder.bareInts_of_no_mark` — texts without the mark of an integer.
-/

namespace ClusterTuning

namespace Text

theorem infix_of_mem_pieces {sep : Char} {s p : List Char} (h : p ∈ pieces sep s) : p <:+: s := by
  have hglue : ∀ ps : List (List Char), ps ≠ [] → ∀ q ∈ ps, q <:+: glue sep ps := by
    intro ps
    induction ps with
    | nil => exact fun hne => absurd rfl hne
    | cons r ps ih =>
      intro _ q hq
      cases ps with
      | nil =>
        obtain rfl := List.mem_singleton.1 hq
        exact List.infix_rfl
      | cons t ts =>
        rw [glue]
        rcases List.mem_cons.1 hq with rfl | hq
        · exact (List.prefix_append q _).isInfix
        · exact (ih (List.cons_ne_nil t ts) q hq).trans
            ((List.suffix_cons sep _).isInfix.trans (List.suffix_append r _).isInfix)
  rw [← glue_pieces sep s]
  exact hglue _ (pieces_ne_nil sep s) p h

end Text

namespace Placeholder

open Text

/-- The mark that an integer tag leaves in a text before the quote. -/
def intMark : List Char :=
  ['!', 'i', 'n', 't', ' ']

/-- A quotation follows a mark in a line. -/
def HoldsTag (line : List Char) : Prop :=
  ∃ before inside after, line = before ++ (intMark ++ '\'' :: (inside ++ '\'' :: after))

theorem afterTag?_eq_some_iff {s rest : List Char} :
    afterTag? s = some rest ↔
      s = intMark ++ '\'' :: rest ∨ s = '!' :: (intMark ++ '\'' :: rest) := by
  constructor
  · intro h
    unfold afterTag? at h
    split at h
    · obtain rfl := Option.some.inj h
      exact .inl rfl
    · obtain rfl := Option.some.inj h
      exact .inr rfl
    · exact nomatch h
  · rintro (rfl | rfl) <;> rfl

/-- A tagged quotation is found at the front of a line. -/
theorem holdsTag_of_afterTag? {s inside after : List Char}
    (h : (afterTag? s).bind (cutLast '\'') = some (inside, after)) :
    HoldsTag s ∧ (inside ++ after).length < s.length := by
  obtain ⟨rest, hrest, hcut⟩ := Option.bind_eq_some_iff.1 h
  obtain rfl := eq_of_cutLast hcut
  rcases afterTag?_eq_some_iff.1 hrest with rfl | rfl
  · exact ⟨⟨[], inside, after, rfl⟩, by simp; omega⟩
  · exact ⟨⟨['!'], inside, after, rfl⟩, by simp; omega⟩

theorem holdsTag_cons {c : Char} {rest : List Char} (h : HoldsTag rest) : HoldsTag (c :: rest) := by
  obtain ⟨before, inside, after, rfl⟩ := h
  exact ⟨c :: before, inside, after, rfl⟩

theorem holdsTag_of_cons {c : Char} {rest : List Char} (h : HoldsTag (c :: rest))
    (hnone : (afterTag? (c :: rest)).bind (cutLast '\'') = none) : HoldsTag rest := by
  obtain ⟨before, inside, after, heq⟩ := h
  cases before with
  | nil =>
    rw [heq, List.nil_append, afterTag?_eq_some_iff.2 (.inl rfl), Option.bind_some,
      cutLast_eq_none_iff] at hnone
    exact absurd (List.mem_append_right inside List.mem_cons_self) hnone
  | cons d before => exact ⟨before, inside, after, (List.cons.inj heq).2⟩

/-- A line that begins with a tagged quotation. -/
theorem bareLine_of_cut {line inside after : List Char}
    (h : (afterTag? line).bind (cutLast '\'') = some (inside, after)) :
    bareLine line = inside ++ after := by
  cases line with
  | nil => cases h
  | cons c rest => rw [bareLine, h]

theorem bareLine_of_not_holdsTag {line : List Char} (h : ¬ HoldsTag line) :
    bareLine line = line := by
  induction line with
  | nil => rfl
  | cons c rest ih =>
    rw [bareLine]
    split
    · next hfound => exact absurd (holdsTag_of_afterTag? hfound).1 h
    · rw [ih fun hrest => h (holdsTag_cons hrest)]

theorem length_bareLine_lt {line : List Char} (h : HoldsTag line) :
    (bareLine line).length < line.length := by
  induction line with
  | nil =>
    obtain ⟨before, inside, after, heq⟩ := h
    simp [intMark] at heq
  | cons c rest ih =>
    rw [bareLine]
    split
    · next hfound => exact (holdsTag_of_afterTag? hfound).2
    · next hnone => exact Nat.succ_lt_succ (ih (holdsTag_of_cons h hnone))

/-- A line is left as it is exactly if it holds no tagged quotation. -/
theorem bareLine_eq_self_iff {line : List Char} : bareLine line = line ↔ ¬ HoldsTag line := by
  refine ⟨fun heq h => ?_, bareLine_of_not_holdsTag⟩
  have := length_bareLine_lt h
  rw [heq] at this
  exact Nat.lt_irrefl _ this

/-- Nothing is put into a line. -/
theorem mem_of_mem_bareLine {c : Char} {line : List Char} (h : c ∈ bareLine line) : c ∈ line := by
  induction line with
  | nil => exact h
  | cons d rest ih =>
    rw [bareLine] at h
    split at h
    · next inside after hfound =>
      obtain ⟨tail, htail, hcut⟩ := Option.bind_eq_some_iff.1 hfound
      obtain rfl := eq_of_cutLast hcut
      rcases afterTag?_eq_some_iff.1 htail with heq | heq <;>
      · rw [heq]
        simp only [intMark, List.mem_append, List.mem_cons] at h ⊢
        tauto
    · rcases List.mem_cons.1 h with rfl | h
      · exact List.mem_cons_self
      · exact List.mem_cons_of_mem d (ih h)

/-- **A text is left as it is exactly if none of its lines holds a tagged quotation.** -/
theorem bareInts_eq_self_iff {text : String} :
    bareInts text = text ↔ ∀ line ∈ pieces '\n' text.toList, ¬ HoldsTag line := by
  rw [bareInts, ← String.toList_inj, String.toList_ofList]
  simp only [← bareLine_eq_self_iff]
  constructor
  · intro heq line hline
    have hlines := congrArg (pieces '\n') heq
    rw [pieces_glue _ (by simp [pieces_ne_nil]), flatMap_pieces_of_not_mem] at hlines
    · exact List.map_inj_left.1 (hlines.trans (List.map_id _).symm) line hline
    · intro p hp hmem
      obtain ⟨line', hline', rfl⟩ := List.mem_map.1 hp
      exact not_mem_of_mem_pieces hline' (mem_of_mem_bareLine hmem)
  · intro h
    rw [List.map_congr_left h, List.map_id', glue_pieces]

/-- A text without the mark is left as it is. -/
theorem bareInts_of_no_mark {text : String} (h : ¬ intMark <:+: text.toList) :
    bareInts text = text := by
  refine bareInts_eq_self_iff.2 fun line hline => ?_
  rintro ⟨before, inside, after, rfl⟩
  refine h (List.IsInfix.trans ?_ (infix_of_mem_pieces hline))
  exact (List.prefix_append intMark _).isInfix.trans (List.suffix_append before _).isInfix

end Placeholder

end ClusterTuning
