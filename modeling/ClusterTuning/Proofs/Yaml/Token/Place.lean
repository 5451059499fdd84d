import ClusterTuning.Yaml.Printer
import ClusterTuning.Yaml.Token.Scalar

/-!
# Places in written documents

The place behind a text, the characters that are written as they are, and what
the line after a node may start with.
-/

namespace ClusterTuning.Yaml

/-! ## Places behind a text -/

namespace Mark

open Token (isBreak)

/-- The place behind a text, in which no break has two characters. -/
def passed (mark : Mark) (text : List Char) : Mark :=
  text.foldl (fun m c => if isBreak c then m.newline else m.advance) mark

@[simp]
theorem passed_nil (mark : Mark) : mark.passed [] = mark :=
  rfl

theorem passed_append (mark : Mark) (s t : List Char) :
    mark.passed (s ++ t) = (mark.passed s).passed t :=
  List.foldl_append

theorem passed_break {c : Char} (hc : isBreak c = true) (mark : Mark) (s : List Char) :
    mark.passed (c :: s) = mark.newline.passed s := by
  rw [passed, List.foldl_cons, if_pos hc]
  rfl

theorem passed_cons {c : Char} (hc : isBreak c = false) (mark : Mark) (s : List Char) :
    mark.passed (c :: s) = mark.advance.passed s := by
  rw [passed, List.foldl_cons, if_neg (by simp [hc])]
  rfl

theorem advance_advance (mark : Mark) (m n : Nat) :
    (mark.advance m).advance n = mark.advance (m + n) := by
  simp only [advance, Nat.add_assoc]

theorem passed_eq_advance {s : List Char} (h : ∀ c ∈ s, isBreak c = false) (mark : Mark) :
    mark.passed s = mark.advance s.length := by
  induction s generalizing mark with
  | nil => rfl
  | cons c rest ih =>
    obtain ⟨hc, hrest⟩ := List.forall_mem_cons.1 h
    rw [passed_cons hc, ih hrest, advance_advance, List.length_cons, Nat.add_comm]

theorem passed_spaces (mark : Mark) (n : Nat) :
    mark.passed (Printer.spaces n) = mark.advance n := by
  have hspaces : ∀ c ∈ Printer.spaces n, isBreak c = false := fun c hc => by
    rw [List.eq_of_mem_replicate hc]
    rfl
  rw [passed_eq_advance hspaces, Printer.spaces, List.length_replicate]

theorem column_passed_concat {c : Char} (hc : isBreak c = true) (mark : Mark) (s : List Char) :
    (mark.passed (s ++ [c])).column = 0 := by
  rw [passed_append, passed_break hc]
  rfl

theorem line_le_passed (mark : Mark) (s : List Char) : mark.line ≤ (mark.passed s).line := by
  induction s generalizing mark with
  | nil => exact Nat.le_refl _
  | cons c rest ih =>
    cases hc : isBreak c with
    | true => rw [passed_break hc]; exact Nat.le_trans (Nat.le_succ _) (ih mark.newline)
    | false => rw [passed_cons hc]; exact ih mark.advance

theorem line_lt_passed {c : Char} (hc : isBreak c = true) {s : List Char} (h : c ∈ s)
    (mark : Mark) : mark.line < (mark.passed s).line := by
  obtain ⟨t, u, rfl⟩ := List.append_of_mem h
  rw [passed_append, passed_break hc]
  exact Nat.lt_of_le_of_lt (line_le_passed mark t)
    (Nat.lt_of_lt_of_le (Nat.lt_succ_self _) (line_le_passed (mark.passed t).newline u))

end Mark

theorem Cursor.skip_append (s t : List Char) (mark : Mark) :
    (Cursor.mk (s ++ t) mark).skip ((s ++ t).length - t.length) = ⟨t, mark.advance s.length⟩ := by
  rw [List.length_append, Nat.add_sub_cancel, skip, List.drop_left]

/-! ## Characters that are written as they are -/

theorem Printer.ne_of_isPrintable {c d : Char} (hc : isPrintable c = true)
    (hd : isPrintable d = false) : c ≠ d := by
  rintro rfl
  exact Bool.false_ne_true (hd.symm.trans hc)

namespace Token

open Printer (isPrintable ne_of_isPrintable)

theorem isBlank_of_isPrintable {c : Char} (hc : isPrintable c = true) :
    isBlank c = (c == ' ') := by
  have htab : c ≠ '\t' := ne_of_isPrintable hc rfl
  simp [isBlank, htab]

/-- A line feed and the separators of lines and paragraphs are the breaks that are written as they
are. -/
theorem eq_of_isBreak {c : Char} (hprint : isPrintable c = true) (hbreak : isBreak c = true) :
    c = '\n' ∨ c = '\u2028' ∨ c = '\u2029' := by
  have hreturn : c ≠ '\r' := ne_of_isPrintable hprint rfl
  have hnext : c ≠ '\u0085' := ne_of_isPrintable hprint rfl
  simpa [isBreak, hreturn, hnext, or_assoc] using hbreak

theorem breakText_eq_self {c : Char} (hprint : isPrintable c = true) (hbreak : isBreak c = true) :
    breakText c = c := by
  rcases eq_of_isBreak hprint hbreak with rfl | rfl | rfl <;> rfl

/-! ## What waits before the next character -/

theorem Gap.folded_pushBlank {gap : Gap} (h : gap.crossedLine = false) (c : Char) :
    (gap.pushBlank c).folded = c :: gap.folded := by
  cases gap with
  | none => rfl
  | blanks => rfl
  | lines => exact nomatch h

theorem Gap.crossedLine_pushBlank {gap : Gap} (h : gap.crossedLine = false) (c : Char) :
    (gap.pushBlank c).crossedLine = false := by
  cases gap with
  | none => rfl
  | blanks => rfl
  | lines => exact nomatch h

/-! ## The line after a scalar -/

/-- After a node in a collection at the column `parent`, the text goes on with `rest` at `column` of
a further line: with another token of that collection or of one around it, with the mark of a
document, or not at all. -/
structure Follows (parent : Int) (column : Nat) (rest : List Char) : Prop where
  head : ∀ c ∈ rest.head?, isBlank c = false ∧ isBreak c = false ∧ c ≠ '#' ∧ c ≠ '\ufeff'
  ends : (column : Int) ≤ parent ∨ column = 0 ∧ (rest = [] ∨ atDocumentMark rest = true)

end Token

end ClusterTuning.Yaml
