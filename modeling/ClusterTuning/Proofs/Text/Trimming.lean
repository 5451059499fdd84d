import ClusterTuning.Text.Blank
import Mathlib.Data.List.Basic
import Mathlib.Data.List.TakeWhile

/-!
# White space around a text

Trimming a text takes white space from its two ends, and takes all of it.

* `trim_append` — what is left of a text with white space around it;
* `exists_blank_trim` — what was taken away.
-/

namespace ClusterTuning.Text

/-- A text of white space only. -/
def Blank (s : List Char) : Prop :=
  ∀ c ∈ s, isBlank c = true

variable {gap s before after : List Char}

/-! ## Cutting where a property ends -/

/-- A text in which all characters have a property is cut off from one that does not go on with
it. -/
theorem takeWhile_append_of_head {p : Char → Bool} {t : List Char} (hs : ∀ c ∈ s, p c = true)
    (ht : ∀ c, t.head? = some c → p c = false) :
    (s ++ t).takeWhile p = s ∧ (s ++ t).dropWhile p = t := by
  rw [List.takeWhile_append_of_pos hs, List.dropWhile_append_of_pos hs]
  cases t with
  | nil => simp
  | cons c rest =>
    have hc : ¬ p c = true := by simp [ht c rfl]
    rw [List.takeWhile_cons_of_neg hc, List.dropWhile_cons_of_neg hc, List.append_nil]
    exact ⟨rfl, rfl⟩

/-! ## The start of a text -/

theorem trimStart_append (hgap : Blank gap) (hs : ∀ c, s.head? = some c → isBlank c = false) :
    trimStart (gap ++ s) = s :=
  (takeWhile_append_of_head hgap hs).2

theorem exists_blank_append_trimStart (s : List Char) :
    ∃ gap, Blank gap ∧ s = gap ++ trimStart s :=
  ⟨s.takeWhile isBlank, List.all_eq_true.1 List.all_takeWhile,
    List.takeWhile_append_dropWhile.symm⟩

/-! ## The end of a text -/

theorem trimEnd_eq (s : List Char) : trimEnd s = (trimStart s.reverse).reverse :=
  rfl

theorem Blank.reverse (h : Blank s) : Blank s.reverse :=
  fun c hc => h c (List.mem_reverse.1 hc)

theorem trimEnd_append (hgap : Blank gap) (hs : ∀ c, s.getLast? = some c → isBlank c = false) :
    trimEnd (s ++ gap) = s := by
  have hhead : ∀ c, s.reverse.head? = some c → isBlank c = false := by
    intro c hc
    rw [List.head?_reverse] at hc
    exact hs c hc
  rw [trimEnd_eq, List.reverse_append, trimStart_append hgap.reverse hhead, List.reverse_reverse]

theorem exists_trimEnd_append_blank (s : List Char) :
    ∃ gap, Blank gap ∧ s = trimEnd s ++ gap := by
  obtain ⟨gap, hgap, hs⟩ := exists_blank_append_trimStart s.reverse
  refine ⟨gap.reverse, hgap.reverse, ?_⟩
  rw [trimEnd_eq, ← List.reverse_append, ← hs, List.reverse_reverse]

/-! ## Both ends -/

/-- A text that neither starts nor ends with white space is what is left when there is white space
around it. -/
theorem trim_append (hne : s ≠ []) (hbefore : Blank before) (hafter : Blank after)
    (hhead : ∀ c, s.head? = some c → isBlank c = false)
    (hlast : ∀ c, s.getLast? = some c → isBlank c = false) : trim (before ++ s ++ after) = s := by
  have hhead' : ∀ c, (s ++ after).head? = some c → isBlank c = false := by
    intro c hc
    rw [List.head?_append_of_ne_nil _ hne] at hc
    exact hhead c hc
  rw [trim, List.append_assoc, trimStart_append hbefore hhead', trimEnd_append hafter hlast]

/-- Only white space is taken away. -/
theorem exists_blank_trim (s : List Char) :
    ∃ before after, Blank before ∧ Blank after ∧ s = before ++ trim s ++ after := by
  obtain ⟨before, hbefore, hs⟩ := exists_blank_append_trimStart s
  obtain ⟨after, hafter, hstart⟩ := exists_trimEnd_append_blank (trimStart s)
  refine ⟨before, after, hbefore, hafter, ?_⟩
  rw [trim, List.append_assoc, ← hstart]
  exact hs

theorem trim_eq_nil_iff : trim s = [] ↔ Blank s := by
  constructor
  · intro h
    obtain ⟨before, after, hbefore, hafter, hs⟩ := exists_blank_trim s
    rw [h, List.append_nil] at hs
    rw [hs]
    intro c hc
    rcases List.mem_append.1 hc with hc | hc
    · exact hbefore c hc
    · exact hafter c hc
  · intro h
    rw [trim, trimStart, List.dropWhile_eq_nil_iff.2 h]
    rfl

end ClusterTuning.Text
