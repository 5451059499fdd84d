import ClusterTuning.Text.Pieces

/-!
# The two sides of a cut

A text is cut at the first or at the last of its separators.  Each cut is the only
one that leaves no separator on one of its sides: before the first one, or after the
last one.

* `cutFirst_eq_some_iff`, `cutLast_eq_some_iff` — the sides of a cut;
* `cutFirst_eq_none_iff`, `cutLast_eq_none_iff` — texts that are not cut.
-/

namespace ClusterTuning.Text

variable {sep : Char} {s before after : List Char}

/-! ## At the first separator -/

theorem cutFirst_eq_none_iff : cutFirst sep s = none ↔ sep ∉ s := by
  induction s with
  | nil => simp [cutFirst]
  | cons c rest ih =>
    rw [cutFirst, List.mem_cons, not_or, ← ih]
    by_cases hc : c = sep
    · simp [hc]
    · simp [hc, Ne.symm hc]

theorem not_mem_of_cutFirst (h : cutFirst sep s = some (before, after)) : sep ∉ before := by
  induction s generalizing before with
  | nil => cases h
  | cons c rest ih =>
    rw [cutFirst] at h
    split at h
    · cases h
      exact List.not_mem_nil
    · next hc =>
      obtain ⟨cut, hcut, heq⟩ := Option.map_eq_some_iff.1 h
      obtain ⟨rfl, rfl⟩ := Prod.mk.inj heq
      exact List.not_mem_cons_of_ne_of_not_mem (Ne.symm hc) (ih hcut)

theorem cutFirst_eq_some_iff :
    cutFirst sep s = some (before, after) ↔ s = before ++ sep :: after ∧ sep ∉ before := by
  constructor
  · intro h
    exact ⟨eq_of_cutFirst h, not_mem_of_cutFirst h⟩
  · rintro ⟨rfl, hbefore⟩
    exact cutFirst_append hbefore after

/-! ## At the last separator -/

theorem cutLast_eq_none_iff : cutLast sep s = none ↔ sep ∉ s := by
  induction s with
  | nil => simp [cutLast]
  | cons c rest ih =>
    rw [cutLast, List.mem_cons, not_or, ← ih]
    cases cutLast sep rest with
    | none => simp [eq_comm]
    | some cut => simp

theorem not_mem_of_cutLast (h : cutLast sep s = some (before, after)) : sep ∉ after := by
  induction s generalizing before with
  | nil => cases h
  | cons c rest ih =>
    rw [cutLast] at h
    split at h
    · next b a hcut =>
      cases h
      exact ih hcut
    · next hnone =>
      split at h
      · cases h
        exact cutLast_eq_none_iff.1 hnone
      · cases h

theorem cutLast_append (hafter : sep ∉ after) (before : List Char) :
    cutLast sep (before ++ sep :: after) = some (before, after) := by
  induction before with
  | nil => rw [List.nil_append, cutLast, cutLast_eq_none_iff.2 hafter, if_pos rfl]
  | cons c before ih => rw [List.cons_append, cutLast, ih]

theorem cutLast_eq_some_iff :
    cutLast sep s = some (before, after) ↔ s = before ++ sep :: after ∧ sep ∉ after := by
  constructor
  · intro h
    exact ⟨eq_of_cutLast h, not_mem_of_cutLast h⟩
  · rintro ⟨rfl, hafter⟩
    exact cutLast_append hafter before

end ClusterTuning.Text
