import ClusterTuning.Proofs.Text.Cutting

/-!
# Patterns

A pattern matches pieces of a text.  Where it matches in several ways, they come in a
fixed order and the first one counts: an optional part is taken if it can be, and a
run is as long as it can be.  Replacing goes through a text once, from left to right;
what the pattern matches gives way to what its groups hold, and the search goes on
behind it.

* `Pattern.replaceAll` — a text with all matches replaced;
* `Pattern.first?_run_word` — a run up to a character ends at the last one in reach;
* `Pattern.replaceAll_append` — a stretch of text in which nothing is found.
-/

namespace ClusterTuning.Text

/-- What a text can be searched for. -/
inductive Pattern where
  /-- These characters. -/
  | word (w : List Char)
  /-- The pattern, or nothing. -/
  | optional (p : Pattern)
  /-- Any number of characters of a kind. -/
  | run (accepts : Char → Bool)
  /-- The pattern, whose text is held. -/
  | group (p : Pattern)
  /-- One pattern after the other. -/
  | append (p q : Pattern)

/-- A way in which a pattern matches the beginning of a text. -/
structure Found where
  /-- The part that is matched. -/
  text : List Char
  /-- What the groups of the pattern hold of it. -/
  held : List Char
  /-- What follows. -/
  rest : List Char

/-- One match and another one behind it. -/
def Found.andThen (m n : Found) : Found :=
  ⟨m.text ++ n.text, m.held ++ n.held, n.rest⟩

namespace Pattern

instance : Append Pattern := ⟨append⟩

/-- The beginnings of a text that are of one kind, and what follows each of them; longer ones come
first. -/
def runs (accepts : Char → Bool) : List Char → List (List Char × List Char)
  | [] => [([], [])]
  | c :: rest =>
    if accepts c then
      (runs accepts rest).map (fun cut => (c :: cut.1, cut.2)) ++ [([], c :: rest)]
    else [([], c :: rest)]

/-- All ways in which a pattern matches the beginning of a text, in order of preference. -/
def ways : Pattern → List Char → List Found
  | word w, s => if w.isPrefixOf s then [⟨w, [], s.drop w.length⟩] else []
  | optional p, s => p.ways s ++ [⟨[], [], s⟩]
  | run accepts, s => (runs accepts s).map fun cut => ⟨cut.1, [], cut.2⟩
  | group p, s => (p.ways s).map fun m => { m with held := m.text }
  | append p q, s => (p.ways s).flatMap fun m => (q.ways m.rest).map m.andThen

/-- The way that counts. -/
def first? (p : Pattern) (s : List Char) : Option Found :=
  (p.ways s).head?

/-- A text in which every match is replaced by what the groups hold of it.  Matches of no characters
are left alone. -/
def replaceAll (p : Pattern) : List Char → List Char
  | [] => []
  | c :: rest =>
    match p.first? (c :: rest) with
    | none => c :: p.replaceAll rest
    | some m =>
      if m.rest.length ≤ rest.length then m.held ++ p.replaceAll m.rest
      else c :: p.replaceAll rest
termination_by s => s.length

variable {p q : Pattern} {w s : List Char}

/-! ## The first match -/

theorem first?_append (p q : Pattern) (s : List Char) :
    (p ++ q).first? s = (p.ways s).findSome? fun m => (q.first? m.rest).map m.andThen := by
  change ((p.ways s).flatMap fun m => (q.ways m.rest).map m.andThen).head? = _
  rw [List.head?_flatMap]
  simp only [List.head?_map]
  rfl

theorem first?_word_append (w s : List Char) (q : Pattern) :
    (word w ++ q).first? (w ++ s) = (q.first? s).map (Found.andThen ⟨w, [], s⟩) := by
  have hways : (word w).ways (w ++ s) = [⟨w, [], s⟩] := by
    rw [ways, if_pos (List.isPrefixOf_iff_prefix.2 (List.prefix_append w s)), List.drop_left]
  rw [first?_append, hways, List.findSome?_singleton]

theorem first?_word_append_eq_none (h : ¬ w <+: s) (q : Pattern) :
    (word w ++ q).first? s = none := by
  have hways : (word w).ways s = [] := by
    rw [ways, if_neg (mt List.isPrefixOf_iff_prefix.1 h)]
  rw [first?_append, hways, List.findSome?_nil]

theorem exists_of_first?_word_append {m : Found} (h : (word w ++ q).first? s = some m) :
    ∃ rest n, s = w ++ rest ∧ q.first? rest = some n := by
  by_cases hw : w <+: s
  · obtain ⟨rest, rfl⟩ := hw
    rw [first?_word_append, Option.map_eq_some_iff] at h
    obtain ⟨n, hn, -⟩ := h
    exact ⟨rest, n, rfl, hn⟩
  · rw [first?_word_append_eq_none hw] at h
    cases h

/-- An optional part is left out only if nothing is found with it. -/
theorem first?_optional_append (p q : Pattern) (s : List Char) :
    (optional p ++ q).first? s = ((p ++ q).first? s).or (q.first? s) := by
  have hempty : Found.andThen ⟨[], [], s⟩ = id := rfl
  rw [first?_append, first?_append, ways, List.findSome?_append, List.findSome?_singleton, hempty,
    Option.map_id, id]

/-! ### Runs up to a character -/

/-- The match of a run with the character behind it, if the run is cut there. -/
def upTo (mark : Char) : List Char × List Char → Option Found
  | (before, c :: rest) => if c = mark then some ⟨before ++ [mark], before, rest⟩ else none
  | (_, []) => none

theorem map_first?_word (mark : Char) (before rest : List Char) :
    ((word [mark]).first? rest).map (fun n => ⟨before ++ n.text, before ++ n.held, n.rest⟩) =
      upTo mark (before, rest) := by
  cases rest with
  | nil => rfl
  | cons c rest =>
    by_cases hc : c = mark
    · simp [first?, ways, upTo, hc]
    · simp [first?, ways, upTo, hc, Ne.symm hc]

theorem upTo_cons (mark c : Char) (cut : List Char × List Char) :
    upTo mark (c :: cut.1, cut.2) =
      (upTo mark cut).map fun m => ⟨c :: m.text, c :: m.held, m.rest⟩ := by
  obtain ⟨before, rest⟩ := cut
  cases rest with
  | nil => rfl
  | cons d rest =>
    by_cases hd : d = mark
    · simp [upTo, hd]
    · simp [upTo, hd]

theorem first?_run_append (accepts : Char → Bool) (mark : Char) (s : List Char) :
    (group (run accepts) ++ word [mark]).first? s = (runs accepts s).findSome? (upTo mark) := by
  rw [first?_append, ways, ways, List.findSome?_map, List.findSome?_map]
  congr 1
  funext cut
  exact map_first?_word mark cut.1 cut.2

theorem runs_of_head {accepts : Char → Bool} (hs : ∀ c, s.head? = some c → accepts c = false) :
    runs accepts s = [([], s)] := by
  cases s with
  | nil => rfl
  | cons c s => rw [runs, hs c rfl, if_neg Bool.false_ne_true]

/-- A run up to a character ends at the last one in reach. -/
theorem first?_run_word {accepts : Char → Bool} {mark : Char} (hmark : accepts mark = true)
    {tail : List Char} (htail : ∀ c, tail.head? = some c → accepts c = false)
    (hs : ∀ c ∈ s, accepts c = true) :
    (group (run accepts) ++ word [mark]).first? (s ++ tail) =
      (cutLast mark s).map fun cut => ⟨cut.1 ++ [mark], cut.1, cut.2 ++ tail⟩ := by
  rw [first?_run_append]
  induction s with
  | nil =>
    rw [List.nil_append, runs_of_head htail, List.findSome?_singleton]
    cases tail with
    | nil => rfl
    | cons c tail =>
      have hne : c ≠ mark := by
        rintro rfl
        exact Bool.false_ne_true ((htail c rfl).symm.trans hmark)
      rw [upTo, if_neg hne]
      rfl
  | cons c s ih =>
    obtain ⟨hc, hs⟩ := List.forall_mem_cons.1 hs
    -- the runs that take the first character come before the one that does not
    have hlonger : (runs accepts (s ++ tail)).findSome?
          (upTo mark ∘ fun cut => (c :: cut.1, cut.2)) =
        ((cutLast mark s).map fun cut => ⟨cut.1 ++ [mark], cut.1, cut.2 ++ tail⟩).map
          fun m : Found => ⟨c :: m.text, c :: m.held, m.rest⟩ := by
      rw [← ih hs, List.map_findSome?]
      congr 1
      funext cut
      exact upTo_cons mark c cut
    rw [List.cons_append, runs, if_pos hc, List.findSome?_append, List.findSome?_map, hlonger,
      List.findSome?_singleton, cutLast]
    cases cutLast mark s with
    | some cut => rfl
    | none =>
      by_cases hmc : c = mark
      · simp [upTo, hmc]
      · simp [upTo, hmc]

/-! ## Replacing -/

theorem replaceAll_cons_of_none {c : Char} (h : p.first? (c :: s) = none) :
    p.replaceAll (c :: s) = c :: p.replaceAll s := by
  rw [replaceAll, h]

theorem replaceAll_cons_of_some {c : Char} {m : Found} (h : p.first? (c :: s) = some m)
    (hrest : m.rest.length ≤ s.length) :
    p.replaceAll (c :: s) = m.held ++ p.replaceAll m.rest := by
  rw [replaceAll, h]
  exact if_pos hrest

/-- A stretch of text in which no match begins stays as it is. -/
theorem replaceAll_append {tail : List Char}
    (h : ∀ t, t ≠ [] → t <:+ s → p.first? (t ++ tail) = none) :
    p.replaceAll (s ++ tail) = s ++ p.replaceAll tail := by
  induction s with
  | nil => rfl
  | cons c s ih =>
    have hrest : ∀ t, t ≠ [] → t <:+ s → p.first? (t ++ tail) = none :=
      fun t hne ht => h t hne (ht.trans (List.suffix_cons c s))
    have hnone : p.first? (c :: (s ++ tail)) = none :=
      h (c :: s) (List.cons_ne_nil c s) List.suffix_rfl
    rw [List.cons_append, replaceAll_cons_of_none hnone, ih hrest, List.cons_append]

end Pattern

end ClusterTuning.Text
