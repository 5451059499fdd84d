import ClusterTuning.Patch.Edit
import ClusterTuning.Proofs.Yaml.Mapping
import Mathlib.Data.List.Nodup

/-!
# Branches of a document that edits make

Where a path goes on, an edit makes a mapping with a field for it, or a sequence
of mappings that have one field in common which tells them apart.  Both are the
same to a path: a segment leads to the branch with its label, whatever the other
branches are, and makes the branch at the end if it is not there.

* `Branching.follow_collect` — a path goes on in its branch and in no other.
-/

namespace ClusterTuning

open Yaml

/-- How the branches of a collection are told apart. -/
inductive Branching where
  /-- By the keys of a mapping. -/
  | fields
  /-- By the text under one key in the entries of a sequence. -/
  | entries (key : String) (nonempty : key ≠ "")

namespace Branching

variable {kind : Branching} {label : String} {child : Value} {rest : List Segment}
  {branches before after : List (String × Value)} {change : Value → Value}

/-- The segment that leads to the branch with a label. -/
def segment (label : String) : Branching → Segment
  | fields => .field label
  | entries key _ => .keyed key label

/-- The collection of some branches, which come with their labels. -/
def collect (branches : List (String × Value)) : Branching → Value
  | fields => .mapping (branches.map fun branch => (.string branch.1, branch.2))
  | entries _ _ => .sequence (branches.map fun branch => branch.2)

/-- A branch in which nothing has been set. -/
def fresh (label : String) : Branching → Value
  | fields => .null
  | entries key _ => .mapping [(.string key, .string label)]

/-- The branch with a label, which is new if it is not there. -/
def branch (label : String) (branches : List (String × Value)) (kind : Branching) : Value :=
  (branches.lookup label).getD (kind.fresh label)

/-- The branches with the one of a label replaced, or put at the end. -/
def put (label : String) (new : Value) : List (String × Value) → List (String × Value)
  | [] => [(label, new)]
  | (label', child) :: rest =>
    if label' = label then (label', new) :: rest else (label', child) :: put label new rest

/-- A branch shows its label: an entry of a sequence has it under the key. -/
def Shows (branch : String × Value) : Branching → Prop
  | fields => True
  | entries key _ => branch.2.get? key = some (.string branch.1)

/-! ## Segments -/

theorem segment_inj {other : Branching} {label' : String}
    (h : kind.segment label = other.segment label') : kind = other ∧ label = label' := by
  cases kind <;> cases other <;> simp_all [segment]

/-! ## The branch with a label -/

/-- The branches up to the one with a label, if it is there. -/
theorem exists_append_or_absent (label : String) (branches : List (String × Value)) :
    (∃ before child after, branches = before ++ (label, child) :: after ∧
      ∀ branch ∈ before, branch.1 ≠ label) ∨ ∀ branch ∈ branches, branch.1 ≠ label := by
  induction branches with
  | nil => exact .inr (by simp)
  | cons first rest ih =>
    by_cases hfirst : first.1 = label
    · exact .inl ⟨[], first.2, rest, by rw [← hfirst]; rfl, by simp⟩
    · rcases ih with ⟨before, child, after, rfl, hbefore⟩ | habsent
      · exact .inl ⟨first :: before, child, after, rfl, List.forall_mem_cons.2 ⟨hfirst, hbefore⟩⟩
      · exact .inr (List.forall_mem_cons.2 ⟨hfirst, habsent⟩)

theorem branch_append (hbefore : ∀ branch ∈ before, branch.1 ≠ label) :
    kind.branch label (before ++ (label, child) :: after) = child := by
  induction before with
  | nil => simp [branch]
  | cons first rest ih =>
    obtain ⟨hfirst, hrest⟩ := List.forall_mem_cons.1 hbefore
    have hne : (label == first.1) = false := beq_false_of_ne hfirst.symm
    rw [branch, List.cons_append, List.lookup_cons, hne]
    exact ih hrest

theorem branch_absent (habsent : ∀ branch ∈ branches, branch.1 ≠ label) :
    kind.branch label branches = kind.fresh label := by
  rw [branch, List.lookup_eq_none_iff.2 fun branch hmem => by simpa using (habsent branch hmem).symm]
  rfl

theorem put_append {new : Value} (hbefore : ∀ branch ∈ before, branch.1 ≠ label) :
    put label new (before ++ (label, child) :: after) = before ++ (label, new) :: after := by
  induction before with
  | nil => simp [put]
  | cons first rest ih =>
    obtain ⟨hfirst, hrest⟩ := List.forall_mem_cons.1 hbefore
    rw [List.cons_append, put, if_neg hfirst, ih hrest, List.cons_append]

theorem put_absent {new : Value} (habsent : ∀ branch ∈ branches, branch.1 ≠ label) :
    put label new branches = branches ++ [(label, new)] := by
  induction branches with
  | nil => rfl
  | cons first rest ih =>
    obtain ⟨hfirst, hrest⟩ := List.forall_mem_cons.1 habsent
    rw [put, if_neg hfirst, ih hrest, List.cons_append]

/-- Where every label is there once, the other branches have other labels. -/
theorem ne_of_nodup (hdistinct : ((before ++ (label, child) :: after).map Prod.fst).Nodup) :
    ∀ branch ∈ before ++ after, branch.1 ≠ label := by
  intro branch hmem heq
  rw [List.map_append, List.map_cons, List.nodup_middle, ← List.map_append] at hdistinct
  exact (List.nodup_cons.1 hdistinct).1 (List.mem_map.2 ⟨branch, hmem, heq⟩)

theorem append_of_mem (hdistinct : (branches.map Prod.fst).Nodup)
    (hmem : (label, child) ∈ branches) :
    ∃ before after, branches = before ++ (label, child) :: after ∧
      ∀ branch ∈ before, branch.1 ≠ label := by
  obtain ⟨before, after, rfl⟩ := List.append_of_mem hmem
  exact ⟨before, after, rfl, fun branch hbranch =>
    ne_of_nodup hdistinct branch (List.mem_append_left _ hbranch)⟩

theorem branch_of_mem (hdistinct : (branches.map Prod.fst).Nodup)
    (hmem : (label, child) ∈ branches) : kind.branch label branches = child := by
  obtain ⟨before, after, rfl, hbefore⟩ := append_of_mem hdistinct hmem
  exact branch_append hbefore

theorem put_of_mem (hdistinct : (branches.map Prod.fst).Nodup)
    (hmem : (label, child) ∈ branches) : put label child branches = branches := by
  obtain ⟨before, after, rfl, hbefore⟩ := append_of_mem hdistinct hmem
  exact put_append hbefore

theorem mem_put {new : Value} (hdistinct : (branches.map Prod.fst).Nodup)
    {branch : String × Value} :
    branch ∈ put label new branches ↔
      branch = (label, new) ∨ branch ∈ branches ∧ branch.1 ≠ label := by
  rcases exists_append_or_absent label branches with ⟨before, child, after, rfl, hbefore⟩ | habsent
  · have hne := ne_of_nodup hdistinct
    rw [put_append hbefore]
    simp only [List.mem_append, List.mem_cons] at hne ⊢
    constructor
    · rintro (hmem | rfl | hmem)
      · exact .inr ⟨.inl hmem, hne _ (.inl hmem)⟩
      · exact .inl rfl
      · exact .inr ⟨.inr (.inr hmem), hne _ (.inr hmem)⟩
    · rintro (rfl | ⟨hmem | rfl | hmem, hother⟩)
      · exact .inr (.inl rfl)
      · exact .inl hmem
      · exact absurd rfl hother
      · exact .inr (.inr hmem)
  · rw [put_absent habsent, List.mem_append, List.mem_singleton, or_comm]
    exact or_congr_right ⟨fun hmem => ⟨hmem, habsent _ hmem⟩, And.left⟩

theorem mem_labels_put {new : Value} {label' : String} :
    label' ∈ (put label new branches).map Prod.fst ↔
      label' = label ∨ label' ∈ branches.map Prod.fst := by
  rcases exists_append_or_absent label branches with ⟨before, child, after, rfl, hbefore⟩ | habsent
  · simp only [put_append hbefore, List.map_append, List.map_cons, List.mem_append, List.mem_cons]
    tauto
  · simp only [put_absent habsent, List.map_append, List.map_cons, List.map_nil, List.mem_append,
      List.mem_singleton, or_comm]

theorem nodup_put {new : Value} (hdistinct : (branches.map Prod.fst).Nodup) :
    ((put label new branches).map Prod.fst).Nodup := by
  rcases exists_append_or_absent label branches with ⟨before, child, after, rfl, hbefore⟩ | habsent
  · rw [put_append hbefore]
    simpa using hdistinct
  · rw [put_absent habsent, List.map_append]
    refine hdistinct.append (List.nodup_singleton label) ?_
    rintro _ hmem hlabel
    obtain ⟨branch, hbranch, rfl⟩ := List.mem_map.1 hmem
    exact habsent branch hbranch (List.mem_singleton.1 hlabel)

/-! ## The branch that a segment finds -/

theorem matches?_of_shows (label : String) {key : String} {hkey : key ≠ ""}
    {branch : String × Value} (h : (entries key hkey).Shows branch) :
    Segment.matches? key label branch.2 = (branch.1 == label) := by
  have hempty : key.isEmpty = false := by simpa using hkey
  have hget : branch.2.get? key = some (.string branch.1) := h
  simp [Segment.matches?, hempty, hget, Value.label?]

theorem newEntry_eq_fresh {key : String} (hkey : key ≠ "") :
    Segment.newEntry key label = (entries key hkey).fresh label := by
  have hempty : key.isEmpty = false := by simpa using hkey
  simp [Segment.newEntry, hempty, fresh]

/-- A branch that is there is found. -/
theorem ensure_collect (hbefore : ∀ branch ∈ before, branch.1 ≠ label)
    (hshows : ∀ branch ∈ before ++ (label, child) :: after, kind.Shows branch) :
    (kind.segment label).ensure (kind.collect (before ++ (label, child) :: after)) =
      .ok (kind.collect (before ++ (label, child) :: after), before.length) := by
  cases kind with
  | fields =>
    have hposition : Mapping.position? (.string label)
        ((before ++ (label, child) :: after).map fun branch => (.string branch.1, branch.2)) =
          some before.length := by
      rw [Mapping.position?, List.findIdx?_map, List.findIdx?_eq_some_iff_getElem]
      refine ⟨by simp, by simp [Value.same], fun j hj => ?_⟩
      rw [List.getElem_append_left hj]
      simpa [Value.same] using hbefore _ (List.getElem_mem hj)
    simp only [collect, segment, Segment.ensure, Value.orNew, Value.isNull, Value.untagged,
      Bool.false_eq_true, if_false, hposition]
  | entries key hkey =>
    have hposition : ((before ++ (label, child) :: after).map fun branch => branch.2).findIdx?
        (Segment.matches? key label) = some before.length := by
      rw [List.findIdx?_map, List.findIdx?_eq_some_iff_getElem]
      refine ⟨by simp, ?_, fun j hj => ?_⟩
      · have hmatch := matches?_of_shows label (hshows (label, child) (by simp))
        simpa using hmatch
      · rw [List.getElem_append_left hj]
        have hmem := List.getElem_mem hj
        have hmatch := matches?_of_shows label
          (hshows before[j] (List.mem_append_left _ hmem))
        simpa [hmatch] using hbefore _ hmem
    simp only [collect, segment, Segment.ensure, Value.orNew, Value.isNull, Value.untagged,
      Bool.false_eq_true, if_false, hposition]

/-- A branch that is not there is made at the end. -/
theorem ensure_collect_new (habsent : ∀ branch ∈ branches, branch.1 ≠ label)
    (hshows : ∀ branch ∈ branches, kind.Shows branch) :
    (kind.segment label).ensure (kind.collect branches) =
      .ok (kind.collect (branches ++ [(label, kind.fresh label)]), branches.length) := by
  cases kind with
  | fields =>
    have hposition : Mapping.position? (.string label)
        (branches.map fun branch => (.string branch.1, branch.2)) = none := by
      rw [Mapping.position?, List.findIdx?_map, List.findIdx?_eq_none_iff]
      intro branch hmem
      simpa [Value.same] using habsent branch hmem
    simp [collect, segment, Segment.ensure, Value.orNew, Value.isNull, Value.untagged, hposition,
      fresh]
  | entries key hkey =>
    have hposition : (branches.map fun branch => branch.2).findIdx?
        (Segment.matches? key label) = none := by
      rw [List.findIdx?_map, List.findIdx?_eq_none_iff]
      intro branch hmem
      have hmatch := matches?_of_shows label (hshows branch hmem)
      simpa [hmatch] using habsent branch hmem
    simp [collect, segment, Segment.ensure, Value.orNew, Value.isNull, Value.untagged, hposition,
      newEntry_eq_fresh hkey]

/-! ## Going on in a branch -/

theorem part_collect :
    (kind.collect (before ++ (label, child) :: after)).part before.length = child := by
  cases kind <;> simp [collect, Value.part]

theorem setPart_collect {new : Value} :
    (kind.collect (before ++ (label, child) :: after)).setPart before.length new =
      kind.collect (before ++ (label, new) :: after) := by
  cases kind <;> simp [collect, Value.setPart, List.modify_eq_set_getElem?]

/-- **A path goes on in its branch**, which it finds or makes, and the other branches stay as they
are. -/
theorem follow_collect (hshows : ∀ branch ∈ branches, kind.Shows branch) :
    Path.follow change (kind.segment label :: rest) (kind.collect branches) =
      (kind.collect (put label (Path.follow change rest (kind.branch label branches)).1 branches),
        (Path.follow change rest (kind.branch label branches)).2) := by
  rcases exists_append_or_absent label branches with ⟨before, child, after, rfl, hbefore⟩ | habsent
  · rw [Path.follow, ensure_collect hbefore hshows]
    simp only [part_collect, setPart_collect, put_append hbefore, branch_append hbefore]
  · rw [Path.follow, ensure_collect_new habsent hshows]
    simp only [part_collect, setPart_collect, put_absent habsent, branch_absent habsent]

/-- Null is as good as a collection without branches. -/
theorem follow_null :
    Path.follow change (kind.segment label :: rest) .null =
      Path.follow change (kind.segment label :: rest) (kind.collect []) := by
  cases kind <;> rfl

end Branching

end ClusterTuning
