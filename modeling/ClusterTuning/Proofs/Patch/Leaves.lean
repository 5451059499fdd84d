import ClusterTuning.Proofs.Patch.Branches
import Mathlib.Data.List.Forall2
import Mathlib.Data.List.Nodup
import Mathlib.Data.List.Perm.Lattice

/-!
# The leaves of a document that edits make

A document that edits make is a tree with the values that have been set as its
leaves.  Whether a document bears certain leaves does not depend on the order in
which they have been set; a path that parts from all of them, at a field or at
an entry of a list, gives it one more leaf, and every path finds its leaf.

* `Bears.set` — what setting one more value does to a document;
* `Bears.lookup` — what a path finds;
* `Bears.alike` — documents with the same leaves.
-/

namespace ClusterTuning

open Yaml

/-! ## Paths that part from each other -/

/-- Whether two segments lead to different branches of one collection. -/
def Segment.apart : Segment → Segment → Bool
  | .field a, .field b => a != b
  | .keyed key a, .keyed key' b => key == key' && a != b
  | _, _ => false

theorem Segment.apart_comm (s t : Segment) : s.apart t = t.apart s := by
  cases s <;> cases t <;> simp only [apart, bne, BEq.comm]

namespace Path

/-- Whether two paths lead to different branches where they first differ. -/
def diverge : List Segment → List Segment → Bool
  | s :: p, t :: q => if s = t then diverge p q else s.apart t
  | _, _ => false

/-- Whether a path makes its way from null on: an entry of a list is a mapping under whose key
there is the label already. -/
def Fits : List Segment → Prop
  | [] => True
  | .field _ :: rest => Fits rest
  | .keyed key _ :: rest => (key ≠ "" ∧ diverge [.field key] rest = true) ∧ Fits rest
  | .index _ :: _ => False

theorem diverge_nil (path : List Segment) : diverge path [] = false := by
  cases path <;> rfl

theorem diverge_cons {s : Segment} {p q : List Segment} :
    diverge (s :: p) (s :: q) = diverge p q := by
  rw [diverge, if_pos rfl]

theorem diverge_append_left (front p q : List Segment) :
    diverge (front ++ p) (front ++ q) = diverge p q := by
  induction front with
  | nil => rfl
  | cons s front ih => rw [List.cons_append, List.cons_append, diverge_cons, ih]

theorem diverge_symm {p q : List Segment} (h : diverge p q = true) : diverge q p = true := by
  induction p generalizing q with
  | nil => simp [diverge] at h
  | cons s p ih =>
    cases q with
    | nil => simp [diverge] at h
    | cons t q =>
      by_cases hst : s = t
      · subst hst
        rw [diverge_cons] at h ⊢
        exact ih h
      · rw [diverge, if_neg hst] at h
        rwa [diverge, if_neg (Ne.symm hst), Segment.apart_comm]

end Path

namespace Branching

/-- A path that parts from another one stays in the same kind of collection. -/
theorem exists_of_diverge {kind : Branching} {label : String} {p q : List Segment}
    (h : Path.diverge p (kind.segment label :: q) = true) :
    ∃ label' rest, p = kind.segment label' :: rest := by
  cases p with
  | nil => simp [Path.diverge] at h
  | cons s p =>
    by_cases hs : s = kind.segment label
    · exact ⟨label, p, by rw [hs]⟩
    · rw [Path.diverge, if_neg hs] at h
      cases kind <;> cases s <;> simp_all [Segment.apart, segment]

theorem fits_rest {kind : Branching} {label : String} {rest : List Segment}
    (h : Path.Fits (kind.segment label :: rest)) : Path.Fits rest := by
  cases kind with
  | fields => exact h
  | entries key _ => exact h.2

theorem exists_of_fits {s : Segment} {rest : List Segment} (h : Path.Fits (s :: rest)) :
    ∃ (kind : Branching) (label : String), s = kind.segment label := by
  cases s with
  | field name => exact ⟨fields, name, rfl⟩
  | keyed key label => exact ⟨entries key h.1.1, label, rfl⟩
  | index position => exact h.elim

end Branching

/-! ## Documents up to order -/

/-- Two values are alike when they differ only in the order of mapping keys and of list entries,
at any depth. -/
inductive Yaml.Value.Alike : Value → Value → Prop
  | refl (v : Value) : Alike v v
  | sequence {xs ys zs : List Value} (items : List.Forall₂ Alike xs ys) (order : ys.Perm zs) :
    Alike (.sequence xs) (.sequence zs)
  | mapping {xs ys zs : List (Value × Value)} (keys : xs.map Prod.fst = ys.map Prod.fst)
    (values : List.Forall₂ Alike (xs.map Prod.snd) (ys.map Prod.snd)) (order : ys.Perm zs) :
    Alike (.mapping xs) (.mapping zs)

/-! ## Leaves -/

/-- A value with the path to its place. -/
abbrev Leaf := List Segment × Value

/-- The leaves behind a segment, with what is left of their paths. -/
def leavesUnder (segment : Segment) (leaves : List Leaf) : List Leaf :=
  leaves.filterMap fun leaf =>
    match leaf.1 with
    | [] => none
    | s :: rest => if s = segment then some (rest, leaf.2) else none

theorem mem_leavesUnder {segment : Segment} {leaves : List Leaf} {path : List Segment}
    {value : Value} :
    (path, value) ∈ leavesUnder segment leaves ↔ (segment :: path, value) ∈ leaves := by
  rw [leavesUnder, List.mem_filterMap]
  constructor
  · rintro ⟨⟨_ | ⟨s, rest⟩, w⟩, hmem, h⟩
    · exact nomatch h
    · simp only [Option.ite_none_right_eq_some, Option.some_inj, Prod.mk.injEq] at h
      obtain ⟨rfl, rfl, rfl⟩ := h
      exact hmem
  · intro hmem
    exact ⟨_, hmem, by simp⟩

theorem leavesUnder_append {segment : Segment} {leaves more : List Leaf} :
    leavesUnder segment (leaves ++ more) = leavesUnder segment leaves ++ leavesUnder segment more :=
  List.filterMap_append

namespace Branching

variable {kind : Branching} {label : String} {leaves more : List Leaf} {labels : List String}

/-- The leaves of a branch from the start: an entry of a sequence has its label. -/
def own (label : String) : Branching → List Leaf
  | fields => []
  | entries key _ => [([.field key], .string label)]

/-- The leaves of one branch of a collection. -/
def leavesOf (kind : Branching) (label : String) (leaves : List Leaf) : List Leaf :=
  kind.own label ++ leavesUnder (kind.segment label) leaves

/-- The paths of the leaves go on in the branches with the given labels, and in all of them. -/
structure Splits (kind : Branching) (leaves : List Leaf) (labels : List String) : Prop where
  distinct : labels.Nodup
  starts : ∀ leaf ∈ leaves, ∃ label ∈ labels, ∃ rest, leaf.1 = kind.segment label :: rest
  used : ∀ label ∈ labels, ∃ leaf, leaf ∈ leavesUnder (kind.segment label) leaves

theorem leavesOf_concat_self {path : List Segment} {value : Value} :
    kind.leavesOf label (leaves ++ [(kind.segment label :: path, value)]) =
      kind.leavesOf label leaves ++ [(path, value)] := by
  rw [leavesOf, leavesUnder_append, ← List.append_assoc]
  simp [leavesOf, leavesUnder]

theorem leavesOf_concat_other {path : List Segment} {value : Value} {label' : String}
    (h : label' ≠ label) :
    kind.leavesOf label' (leaves ++ [(kind.segment label :: path, value)]) =
      kind.leavesOf label' leaves := by
  have hsegment : kind.segment label ≠ kind.segment label' := by
    intro heq
    exact h (segment_inj heq).2.symm
  simp [leavesOf, leavesUnder, hsegment]

/-- A path that fits goes on apart from the leaf that its branch has from the start. -/
theorem own_diverge {path : List Segment} (h : Path.Fits (kind.segment label :: path)) :
    ∀ leaf ∈ kind.own label, Path.diverge leaf.1 path = true := by
  cases kind with
  | fields => simp [own]
  | entries key _ => simpa [own] using h.1.2

theorem collect_alike {parts sorted parts' : List (String × Value)}
    (h : List.Forall₂ (fun a b => a.1 = b.1 ∧ a.2.Alike b.2) parts sorted)
    (hperm : sorted.Perm parts') : (kind.collect parts).Alike (kind.collect parts') := by
  have hvalues : List.Forall₂ (fun a b => a.2.Alike b.2) parts sorted := h.imp fun _ _ h => h.2
  cases kind with
  | entries key _ =>
    refine .sequence ?_ (hperm.map _)
    exact List.forall₂_map_left_iff.2 (List.forall₂_map_right_iff.2 hvalues)
  | fields =>
    refine .mapping ?_ ?_ (hperm.map _)
    · rw [List.map_map, List.map_map, ← List.forall₂_eq_eq_eq]
      refine List.forall₂_map_left_iff.2 (List.forall₂_map_right_iff.2 (h.imp fun a b hab => ?_))
      exact congrArg Value.string hab.1
    · rw [List.map_map, List.map_map]
      exact List.forall₂_map_left_iff.2 (List.forall₂_map_right_iff.2 hvalues)

theorem leavesOf_perm (h : leaves.Perm more) :
    (kind.leavesOf label leaves).Perm (kind.leavesOf label more) :=
  (h.filterMap _).append_left _

theorem Splits.mem_iff (h : kind.Splits leaves labels) :
    label ∈ labels ↔ ∃ leaf, leaf ∈ leavesUnder (kind.segment label) leaves := by
  constructor
  · exact h.used label
  · rintro ⟨⟨path, value⟩, hleaf⟩
    obtain ⟨label', hmem, rest, heq⟩ := h.starts _ (mem_leavesUnder.1 hleaf)
    rwa [(segment_inj (List.cons.inj heq).1).2]

end Branching

/-! ## Documents with leaves -/

/-- A document bears leaves when it is null without any, the value of a single leaf that is the
whole of it, or a collection whose branches bear the leaves that are theirs. -/
inductive Bears : List Leaf → Value → Prop
  | none : Bears [] .null
  | whole (value : Value) : Bears [([], value)] value
  | branches {kind : Branching} {parts : List (String × Value)} {leaves : List Leaf}
    (some : leaves ≠ []) (splits : kind.Splits leaves (parts.map Prod.fst))
    (bears : ∀ part ∈ parts, Bears (kind.leavesOf part.1 leaves) part.2) :
    Bears leaves (kind.collect parts)

namespace Bears

variable {kind : Branching} {label : String} {leaves : List Leaf} {v w : Value}
  {path rest : List Segment} {parts : List (String × Value)}

/-- A leaf that is the whole of the document is the document. -/
theorem eq_of_mem_nil (h : Bears leaves v) (hmem : ([], w) ∈ leaves) : v = w := by
  cases h with
  | none => exact absurd hmem List.not_mem_nil
  | whole value => exact (congrArg Prod.snd (List.mem_singleton.1 hmem)).symm
  | branches _ splits _ =>
    obtain ⟨label, -, rest, heq⟩ := splits.starts _ hmem
    exact nomatch heq

/-- The branch in which the path of a leaf goes on. -/
theorem exists_part {s : Segment} (h : Bears leaves v) (hmem : (s :: rest, w) ∈ leaves) :
    ∃ (kind : Branching) (label : String) (parts : List (String × Value)) (child : Value),
      s = kind.segment label ∧ v = kind.collect parts ∧ (label, child) ∈ parts ∧
        kind.Splits leaves (parts.map Prod.fst) ∧
          ∀ part ∈ parts, Bears (kind.leavesOf part.1 leaves) part.2 := by
  cases h with
  | none => exact absurd hmem List.not_mem_nil
  | whole value => exact nomatch congrArg Prod.fst (List.mem_singleton.1 hmem)
  | @branches kind parts _ _ splits bears =>
    obtain ⟨label, hlabel, rest', heq⟩ := splits.starts _ hmem
    obtain ⟨⟨_, child⟩, hpart, rfl⟩ := List.mem_map.1 hlabel
    exact ⟨kind, _, parts, child, (List.cons.inj heq).1, rfl, hpart, splits, bears⟩

/-- A leaf in a field of the document is found under the name of the field. -/
theorem get?_eq {name : String} (h : Bears leaves v) (hmem : ([.field name], w) ∈ leaves) :
    v.get? name = some w := by
  obtain ⟨kind, label, parts, child, hs, rfl, hpart, splits, bears⟩ := h.exists_part hmem
  cases kind with
  | entries key _ => exact nomatch hs
  | fields =>
    obtain rfl : name = label := Segment.field.inj hs
    obtain rfl : child = w := (bears _ hpart).eq_of_mem_nil (mem_leavesUnder.2 hmem)
    have hdistinct : Mapping.DistinctTexts
        (parts.map fun part => (Value.string part.1, part.2)) := by
      refine List.pairwise_map.2 ((List.pairwise_map.1 splits.distinct).imp ?_)
      rintro a b hab s ⟨⟩ hb
      exact hab (Value.string.inj hb).symm
    exact (Mapping.getText?_eq_some_iff hdistinct).2
      (List.mem_map.2 ⟨(name, child), hpart, rfl⟩)

/-- A branch with its leaves shows its label. -/
theorem shows (h : Bears (kind.leavesOf label leaves) v) : kind.Shows (label, v) := by
  cases kind with
  | fields => trivial
  | entries key _ => exact h.get?_eq (List.mem_append_left _ List.mem_cons_self)

/-- A new branch has the leaves that a branch has from the start. -/
theorem fresh (kind : Branching) (label : String) : Bears (kind.own label) (kind.fresh label) := by
  cases kind with
  | fields => exact .none
  | entries key _ =>
    refine @Bears.branches .fields [(key, .string label)] _ (List.cons_ne_nil _ _)
      ⟨List.nodup_singleton key, ?_, ?_⟩ ?_
    · rintro leaf hleaf
      exact ⟨key, List.mem_cons_self, [], by rw [List.mem_singleton.1 hleaf]; rfl⟩
    · rintro label' hlabel
      obtain rfl := List.mem_singleton.1 hlabel
      exact ⟨([], .string label), mem_leavesUnder.2 List.mem_cons_self⟩
    · rintro part hpart
      obtain rfl := List.mem_singleton.1 hpart
      simpa [Branching.leavesOf, Branching.own, leavesUnder, Branching.segment] using
        whole (.string label)

/-! ### What a path finds -/

/-- **The path of a leaf finds it**, and leaves the document as it is. -/
theorem lookup (h : Bears leaves v) (hmem : (path, w) ∈ leaves) :
    Path.lookup path v = (v, .ok w) := by
  induction path generalizing leaves v with
  | nil =>
    obtain rfl := h.eq_of_mem_nil hmem
    rfl
  | cons s rest ih =>
    obtain ⟨kind, label, parts, child, rfl, rfl, hpart, splits, bears⟩ := h.exists_part hmem
    have hfound : Path.lookup rest child = (child, .ok w) :=
      ih (bears _ hpart) (List.mem_append_right _ (mem_leavesUnder.2 hmem))
    have hput := Branching.put_of_mem splits.distinct hpart
    rw [Path.lookup] at hfound ⊢
    rw [Branching.follow_collect fun part hpart => (bears part hpart).shows,
      Branching.branch_of_mem splits.distinct hpart, hfound, hput]

/-! ### One more leaf -/

/-- A path that parts from the leaves finds a collection of its own kind, or null. -/
theorem exists_parts (h : Bears leaves v)
    (hdiverge : ∀ leaf ∈ leaves, Path.diverge leaf.1 (kind.segment label :: rest) = true) :
    ∃ parts, (∀ change, Path.follow change (kind.segment label :: rest) v =
        Path.follow change (kind.segment label :: rest) (kind.collect parts)) ∧
      kind.Splits leaves (parts.map Prod.fst) ∧
      ∀ part ∈ parts, Bears (kind.leavesOf part.1 leaves) part.2 := by
  cases h with
  | none =>
    exact ⟨[], fun _ => Branching.follow_null, ⟨List.nodup_nil, by simp, by simp⟩, by simp⟩
  | whole value => exact absurd (hdiverge _ List.mem_cons_self) (by simp [Path.diverge])
  | @branches kind' parts _ some splits bears =>
    obtain ⟨leaf, hleaf⟩ := List.exists_mem_of_ne_nil leaves some
    obtain ⟨_, -, _, heq⟩ := splits.starts leaf hleaf
    obtain ⟨_, _, heq'⟩ := Branching.exists_of_diverge (hdiverge leaf hleaf)
    obtain ⟨rfl, -⟩ := Branching.segment_inj (List.cons.inj (heq.symm.trans heq')).1
    exact ⟨parts, fun _ => rfl, splits, bears⟩

/-- The leaves are split as before when a leaf comes behind a label. -/
theorem splits_put {child : Value} (splits : kind.Splits leaves (parts.map Prod.fst)) :
    kind.Splits (leaves ++ [(kind.segment label :: rest, w)])
      ((Branching.put label child parts).map Prod.fst) where
  distinct := Branching.nodup_put splits.distinct
  starts := by
    intro leaf hleaf
    rcases List.mem_append.1 hleaf with hleaf | hleaf
    · obtain ⟨label', hlabel, rest', heq⟩ := splits.starts leaf hleaf
      exact ⟨label', Branching.mem_labels_put.2 (.inr hlabel), rest', heq⟩
    · exact ⟨label, Branching.mem_labels_put.2 (.inl rfl), rest, by
        rw [List.mem_singleton.1 hleaf]⟩
  used := by
    intro label' hlabel
    rw [leavesUnder_append]
    rcases Branching.mem_labels_put.1 hlabel with rfl | hlabel
    · exact ⟨(rest, w), List.mem_append_right _ (mem_leavesUnder.2 List.mem_cons_self)⟩
    · obtain ⟨leaf, hleaf⟩ := splits.used label' hlabel
      exact ⟨leaf, List.mem_append_left _ hleaf⟩

/-- The branch with a label bears its leaves, also if it is new. -/
theorem branch (splits : kind.Splits leaves (parts.map Prod.fst))
    (bears : ∀ part ∈ parts, Bears (kind.leavesOf part.1 leaves) part.2) (label : String) :
    Bears (kind.leavesOf label leaves) (kind.branch label parts) := by
  by_cases hlabel : label ∈ parts.map Prod.fst
  · obtain ⟨part, hpart, rfl⟩ := List.mem_map.1 hlabel
    rw [Branching.branch_of_mem splits.distinct hpart]
    exact bears part hpart
  · have habsent : ∀ part ∈ parts, part.1 ≠ label := by
      rintro part hpart rfl
      exact hlabel (List.mem_map_of_mem hpart)
    have hnone : leavesUnder (kind.segment label) leaves = [] := by
      by_contra hsome
      exact hlabel (splits.mem_iff.2 (List.exists_mem_of_ne_nil _ hsome))
    rw [Branching.branch_absent habsent, Branching.leavesOf, hnone, List.append_nil]
    exact fresh kind label

/-- **A path that parts from the leaves of a document gives it one more leaf.** -/
theorem set (h : Bears leaves v) (hfits : Path.Fits path)
    (hdiverge : ∀ leaf ∈ leaves, Path.diverge leaf.1 path = true) :
    ∃ v' old, Path.follow (fun _ => w) path v = (v', .ok old) ∧
      Bears (leaves ++ [(path, w)]) v' := by
  induction path generalizing leaves v with
  | nil =>
    obtain rfl : leaves = [] := by
      refine List.eq_nil_iff_forall_not_mem.2 fun leaf hleaf => ?_
      exact absurd (hdiverge leaf hleaf) (by rw [Path.diverge_nil]; exact Bool.false_ne_true)
    exact ⟨w, v, rfl, .whole w⟩
  | cons s rest ih =>
    obtain ⟨kind, label, rfl⟩ := Branching.exists_of_fits hfits
    obtain ⟨parts, hfollow, splits, bears⟩ := h.exists_parts hdiverge
    have hbranch := branch splits bears label
    -- the leaf that an entry has from the start counts among those from which the path parts
    have hapart : ∀ leaf ∈ kind.leavesOf label leaves, Path.diverge leaf.1 rest = true := by
      intro leaf hleaf
      rcases List.mem_append.1 hleaf with hown | hunder
      · exact Branching.own_diverge hfits leaf hown
      · have hleaf := hdiverge _ (mem_leavesUnder.1 hunder)
        rwa [Path.diverge_cons] at hleaf
    obtain ⟨child, old, hchild, hbears⟩ := ih hbranch (Branching.fits_rest hfits) hapart
    refine ⟨kind.collect (Branching.put label child parts), old, ?_, ?_⟩
    · rw [hfollow, Branching.follow_collect fun part hpart => (bears part hpart).shows, hchild]
    · refine .branches (List.append_ne_nil_of_right_ne_nil _ (List.cons_ne_nil _ _))
        (splits_put splits) fun part hpart => ?_
      rcases (Branching.mem_put splits.distinct).1 hpart with rfl | ⟨hpart, hother⟩
      · rw [Branching.leavesOf_concat_self]
        exact hbears
      · rw [Branching.leavesOf_concat_other hother]
        exact bears part hpart

/-! ### The order of the leaves -/

/-- **Documents that bear the same leaves are alike**, in whatever order these have been set. -/
theorem alike {other : List Leaf} (h : Bears leaves v) (hother : Bears other w)
    (hperm : leaves.Perm other) : v.Alike w := by
  induction h generalizing other w with
  | none =>
    obtain rfl := List.nil_perm.1 hperm
    cases hother with
    | none => exact .refl _
    | branches some => exact absurd rfl some
  | whole value =>
    obtain rfl := hother.eq_of_mem_nil (hperm.subset List.mem_cons_self)
    exact .refl _
  | @branches kind parts leaves some splits bears ih =>
    obtain ⟨⟨path, value⟩, hleaf⟩ := List.exists_mem_of_ne_nil leaves some
    obtain ⟨label, -, rest, rfl⟩ := splits.starts _ hleaf
    obtain ⟨kind', label', parts', child, hsegment, rfl, -, splits', bears'⟩ :=
      hother.exists_part (hperm.subset hleaf)
    obtain ⟨rfl, -⟩ := Branching.segment_inj hsegment
    -- the labels are the same up to order, which pairs the branches
    have hlabels : (parts.map Prod.fst).Perm (parts'.map Prod.fst) := by
      refine (List.perm_ext_iff_of_nodup splits.distinct splits'.distinct).2 fun label => ?_
      rw [splits.mem_iff, splits'.mem_iff]
      exact exists_congr fun leaf => (hperm.filterMap _).mem_iff
    have hself : List.Forall₂ (fun label part => part ∈ parts' ∧ part.1 = label)
        (parts'.map Prod.fst) parts' :=
      List.forall₂_map_left_iff.2 (List.forall₂_same.2 fun part hpart => ⟨hpart, rfl⟩)
    obtain ⟨sorted, hsorted, hparts⟩ := List.perm_comp_forall₂ hlabels hself
    have hpaired := (List.forall₂_and_left parts sorted).2
      ⟨fun part hpart => hpart, List.forall₂_map_left_iff.1 hsorted⟩
    refine Branching.collect_alike (hpaired.imp ?_) hparts
    rintro part part' ⟨hpart, hpart', heq⟩
    have hbears := bears' part' hpart'
    rw [heq] at hbears
    exact ⟨heq.symm, ih part hpart hbears (Branching.leavesOf_perm hperm)⟩

end Bears

end ClusterTuning
