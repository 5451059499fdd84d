/-!
# Cutting a text at a separator

`pieces` cuts at every separator, `cutFirst` at the first one and `cutLast` at the
last one.  Main statements: gluing the pieces together again gives the text that was cut,
no piece holds the separator, and texts that are glued together come apart into the
pieces of each of them.
-/

namespace ClusterTuning.Text

/-- The parts of a text between the separators; a text without one is its only part. -/
def pieces (sep : Char) : List Char → List (List Char)
  | [] => [[]]
  | c :: rest =>
    if c = sep then [] :: pieces sep rest
    else match pieces sep rest with
      | [] => [[c]]
      | p :: ps => (c :: p) :: ps

/-- The parts put together again with the separator between them. -/
def glue (sep : Char) : List (List Char) → List Char
  | [] => []
  | [p] => p
  | p :: q :: ps => p ++ sep :: glue sep (q :: ps)

/-- The text before and the text after the first separator, if there is one. -/
def cutFirst (sep : Char) : List Char → Option (List Char × List Char)
  | [] => none
  | c :: rest =>
    if c = sep then some ([], rest)
    else (cutFirst sep rest).map fun cut => (c :: cut.1, cut.2)

/-- The text before and the text after the last separator, if there is one. -/
def cutLast (sep : Char) : List Char → Option (List Char × List Char)
  | [] => none
  | c :: rest =>
    match cutLast sep rest with
    | some (before, after) => some (c :: before, after)
    | none => if c = sep then some ([], rest) else none

theorem pieces_ne_nil (sep : Char) (s : List Char) : pieces sep s ≠ [] := by
  cases s with
  | nil => simp [pieces]
  | cons c rest =>
    rw [pieces]
    split
    · simp
    · split <;> simp

/-- Gluing the pieces gives the text back. -/
theorem glue_pieces (sep : Char) (s : List Char) : glue sep (pieces sep s) = s := by
  induction s with
  | nil => rfl
  | cons c rest ih =>
    rw [pieces]
    by_cases h : c = sep
    · rw [if_pos h]
      cases hp : pieces sep rest with
      | nil => exact absurd hp (pieces_ne_nil sep rest)
      | cons p ps => rw [glue, ← hp, ih, h, List.nil_append]
    · rw [if_neg h]
      cases hp : pieces sep rest with
      | nil => exact absurd hp (pieces_ne_nil sep rest)
      | cons p ps =>
        cases ps with
        | nil => simpa [glue, hp] using ih
        | cons q qs => simpa [glue, hp] using ih

/-- No piece holds the separator. -/
theorem not_mem_of_mem_pieces {sep : Char} {s p : List Char} (h : p ∈ pieces sep s) :
    sep ∉ p := by
  induction s generalizing p with
  | nil => simp_all [pieces]
  | cons c rest ih =>
    rw [pieces] at h
    by_cases hc : c = sep
    · rw [if_pos hc] at h
      rcases List.mem_cons.1 h with rfl | hp
      · simp
      · exact ih hp
    · rw [if_neg hc] at h
      cases hps : pieces sep rest with
      | nil => exact absurd hps (pieces_ne_nil sep rest)
      | cons q qs =>
        rw [hps] at h
        rcases List.mem_cons.1 h with rfl | hp
        · have hq : sep ∉ q := ih (hps ▸ List.mem_cons_self)
          simpa [hq] using fun heq => hc heq.symm
        · exact ih (hps ▸ List.mem_cons_of_mem _ hp)

theorem pieces_append (sep : Char) (s t : List Char) :
    pieces sep (s ++ sep :: t) = pieces sep s ++ pieces sep t := by
  induction s with
  | nil => simp [pieces]
  | cons c s ih =>
    rw [List.cons_append, pieces, ih, pieces]
    by_cases hc : c = sep
    · rw [if_pos hc, if_pos hc, List.cons_append]
    · rw [if_neg hc, if_neg hc]
      cases hs : pieces sep s with
      | nil => exact absurd hs (pieces_ne_nil sep s)
      | cons p ps => rfl

theorem pieces_of_not_mem {sep : Char} {s : List Char} (h : sep ∉ s) : pieces sep s = [s] := by
  induction s with
  | nil => rfl
  | cons c s ih =>
    rw [List.mem_cons, not_or] at h
    rw [pieces, if_neg (Ne.symm h.1), ih h.2]

theorem glue_append (sep : Char) {ps qs : List (List Char)} (hp : ps ≠ []) (hq : qs ≠ []) :
    glue sep (ps ++ qs) = glue sep ps ++ sep :: glue sep qs := by
  induction ps with
  | nil => exact absurd rfl hp
  | cons p ps ih =>
    cases ps with
    | nil =>
      cases qs with
      | nil => exact absurd rfl hq
      | cons q qs => rfl
    | cons r rs =>
      rw [List.cons_append, List.cons_append, glue, ← List.cons_append, ih (List.cons_ne_nil r rs),
        glue, List.append_assoc, List.cons_append]

/-- Texts glued together come apart into their pieces. -/
theorem pieces_glue (sep : Char) {ps : List (List Char)} (hne : ps ≠ []) :
    pieces sep (glue sep ps) = ps.flatMap (pieces sep) := by
  induction ps with
  | nil => exact absurd rfl hne
  | cons p ps ih =>
    cases ps with
    | nil => rw [glue, List.flatMap_singleton]
    | cons q qs =>
      rw [glue, pieces_append, ih (List.cons_ne_nil q qs)]
      exact List.flatMap_cons.symm

/-- Texts give the same when they are glued together exactly if they have the same pieces, however
these are spread over the texts. -/
theorem glue_eq_glue_iff {sep : Char} {ps qs : List (List Char)} (hp : ps ≠ []) (hq : qs ≠ []) :
    glue sep ps = glue sep qs ↔ ps.flatMap (pieces sep) = qs.flatMap (pieces sep) := by
  rw [← pieces_glue sep hp, ← pieces_glue sep hq]
  constructor
  · exact congrArg (pieces sep)
  · intro h
    rw [← glue_pieces sep (glue sep ps), h, glue_pieces]

theorem flatMap_pieces_of_not_mem {sep : Char} {ps : List (List Char)} (h : ∀ p ∈ ps, sep ∉ p) :
    ps.flatMap (pieces sep) = ps := by
  induction ps with
  | nil => rfl
  | cons p ps ih =>
    rw [List.flatMap_cons, pieces_of_not_mem (h p List.mem_cons_self),
      ih fun q hq => h q (List.mem_cons_of_mem p hq), List.singleton_append]

/-- The two sides of a cut and the separator between them are the text. -/
theorem eq_of_cutFirst {sep : Char} {s before after : List Char}
    (h : cutFirst sep s = some (before, after)) : s = before ++ sep :: after := by
  induction s generalizing before with
  | nil => simp [cutFirst] at h
  | cons c rest ih =>
    rw [cutFirst] at h
    split at h
    · next hc => simp_all
    · obtain ⟨⟨b, a⟩, hb, heq⟩ := Option.map_eq_some_iff.1 h
      simp only [Prod.mk.injEq] at heq
      obtain ⟨rfl, rfl⟩ := heq
      simp [ih hb]

/-- A text without a separator is all that stands before the first one. -/
theorem cutFirst_append {sep : Char} {s : List Char} (h : sep ∉ s) (t : List Char) :
    cutFirst sep (s ++ sep :: t) = some (s, t) := by
  induction s with
  | nil => simp [cutFirst]
  | cons c rest ih =>
    rw [List.mem_cons, not_or] at h
    rw [List.cons_append, cutFirst, if_neg (Ne.symm h.1), ih h.2]
    rfl

/-- The same of the cut at the last separator. -/
theorem eq_of_cutLast {sep : Char} {s before after : List Char}
    (h : cutLast sep s = some (before, after)) : s = before ++ sep :: after := by
  induction s generalizing before with
  | nil => simp [cutLast] at h
  | cons c rest ih =>
    rw [cutLast] at h
    split at h
    · next b a hb =>
      simp only [Option.some.injEq, Prod.mk.injEq] at h
      obtain ⟨rfl, rfl⟩ := h
      simp [ih hb]
    · split at h <;> simp_all

end ClusterTuning.Text
