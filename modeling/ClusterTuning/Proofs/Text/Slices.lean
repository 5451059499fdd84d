import Mathlib.Data.String.Basic

/-!
# Slices of texts

A text is stored as bytes, and a part of it is named by two byte offsets.  Only offsets
between characters name a part; one inside a character, one beyond the end, or two in
the wrong order name none.

* `slice?_eq_some_iff` — which part two offsets name.
-/

namespace ClusterTuning.Text

/-- The part of a text between two byte offsets, if there is one. -/
def slice? (text : String) (start stop : Nat) : Option String :=
  (text.pos? ⟨start⟩).bind fun a =>
    (text.pos? ⟨stop⟩).bind fun b => (text.slice? a b).map String.Slice.copy

theorem pos?_eq_some_iff {text : String} {offset : String.Pos.Raw} {p : text.Pos} :
    text.pos? offset = some p ↔ p.offset = offset := by
  rw [String.pos?, Option.map_eq_some_iff]
  constructor
  · rintro ⟨q, hq, rfl⟩
    obtain ⟨_, hpos⟩ := Option.dite_none_right_eq_some.1 hq
    rw [← Option.some.inj hpos]
    rfl
  · rintro rfl
    refine ⟨p.toSlice, ?_, String.Pos.ofToSlice_toSlice p⟩
    exact dif_pos (String.Pos.Raw.isValidForSlice_eq_true_iff.2 p.toSlice.isValidForSlice)

/-- **Two offsets name the part between them** if they are the sizes of what comes before it and of
what comes before its end. -/
theorem slice?_eq_some_iff {text part : String} {start stop : Nat} :
    slice? text start stop = some part ↔
      ∃ before after, text = before ++ part ++ after ∧ before.utf8ByteSize = start ∧
        (before ++ part).utf8ByteSize = stop := by
  have hslice : slice? text start stop = some part ↔
      ∃ a b : text.Pos, a.offset = ⟨start⟩ ∧ b.offset = ⟨stop⟩ ∧
        ∃ h : a ≤ b, (text.slice a b h).copy = part := by
    simp only [slice?, Option.bind_eq_some_iff, Option.map_eq_some_iff, pos?_eq_some_iff,
      String.slice?, Option.dite_none_right_eq_some, Option.some.injEq]
    constructor
    · rintro ⟨a, ha, b, hb, _, ⟨hle, rfl⟩, rfl⟩
      exact ⟨a, b, ha, hb, hle, rfl⟩
    · rintro ⟨a, b, ha, hb, hle, rfl⟩
      exact ⟨a, ha, b, hb, _, ⟨hle, rfl⟩, rfl⟩
  rw [hslice]
  constructor
  · rintro ⟨a, b, ha, hb, hcopy⟩
    obtain ⟨before, after, hbefore, hafter⟩ := String.copy_slice_eq_iff_splits.1 hcopy
    refine ⟨before, after, hafter.eq_append, ?_, ?_⟩
    · rw [← String.byteIdx_rawEndPos, ← hbefore.offset_eq_rawEndPos, ha]
    · rw [← String.byteIdx_rawEndPos, ← hafter.offset_eq_rawEndPos, hb]
  · rintro ⟨before, after, rfl, rfl, rfl⟩
    have hsplit : before ++ part ++ after = before ++ (part ++ after) := String.append_assoc
    have hbefore := String.Pos.splits_ofEqAppend hsplit
    have hafter := String.Pos.splits_append_rawEndPos (s := before ++ part) (t := after)
    refine ⟨_, _, hbefore.offset_eq_rawEndPos, hafter.offset_eq_rawEndPos, ?_⟩
    exact String.copy_slice_eq_iff_splits.2 ⟨before, after, hbefore, hafter⟩

end ClusterTuning.Text
