import ClusterTuning.Proofs.Stream.Identity
import Mathlib.Data.List.Nodup

/-!
# Merging a stream in parts

Merging collects the documents by their identities.  Since a merged document
keeps its identity, a stream that is merged already is collected as it is, and
further documents find it in the same state as if the stream had never been
interrupted.

* `Resource.Collected` — the invariant of the pass over the documents;
* `Resource.mergeAll_merged_append` — merging is incremental.
-/

namespace ClusterTuning

namespace Resource

open Yaml Value

/-! ## Documents about one resource -/

/-- The documents about a resource. -/
def documentsOf (i : Reference) (documents : List Value) : List Value :=
  documents.filter fun d =>
    match identity d with
    | .ok j => j = i
    | .error _ => false

theorem mem_documentsOf {i : Reference} {documents : List Value} {d : Value} :
    d ∈ documentsOf i documents ↔ d ∈ documents ∧ identity d = .ok i := by
  rw [documentsOf, List.mem_filter]
  cases identity d <;> simp

/-- Merges documents one after the other onto the first of them. -/
def mergeList : List Value → Option Value
  | [] => none
  | first :: rest => some (rest.foldl merge first)

theorem mergeList_append_singleton (ds : List Value) (d : Value) :
    mergeList (ds ++ [d]) = some ((mergeList ds).elim d (·.merge d)) := by
  cases ds with
  | nil => rfl
  | cons first rest =>
    rw [List.cons_append, mergeList, List.foldl_append]
    rfl

theorem mergeList_eq_none_iff {ds : List Value} : mergeList ds = none ↔ ds = [] := by
  cases ds <;> simp [mergeList]

theorem describes_of_mergeList {i : Reference} {ds : List Value} {d : Value}
    (hds : ∀ d ∈ ds, Describes i d) (h : mergeList ds = some d) : Describes i d := by
  induction ds using List.reverseRecOn generalizing d with
  | nil => exact nomatch h
  | append_singleton ds last ih =>
    rw [mergeList_append_singleton] at h
    obtain rfl := Option.some.inj h
    have hlast : Describes i last := hds last (by simp)
    cases hmerged : mergeList ds with
    | none => exact hlast
    | some e => exact (ih (fun d hd => hds d (List.mem_append_left _ hd)) hmerged).merge hlast

/-! ## Collecting one document -/

variable {i : Reference} {d : Value} {c passed : List (Reference × Value)}

theorem collect_of_not_mem (h : i ∉ c.map (·.1)) : collect i d c = c ++ [(i, d)] := by
  induction c with
  | nil => rfl
  | cons e rest ih =>
    rw [List.map_cons, List.mem_cons, not_or] at h
    rw [collect, if_neg (Ne.symm h.1), ih h.2, List.cons_append]

theorem collect_append_cons {e : Value} {before after : List (Reference × Value)}
    (h : i ∉ before.map (·.1)) :
    collect i d (before ++ (i, e) :: after) = before ++ (i, e.merge d) :: after := by
  induction before with
  | nil => rw [List.nil_append, collect, if_pos rfl, List.nil_append]
  | cons b rest ih =>
    rw [List.map_cons, List.mem_cons, not_or] at h
    rw [List.cons_append, collect, if_neg (Ne.symm h.1), ih h.2, List.cons_append]

/-! ## Collecting many of them -/

/-- Collects documents in order, after the ones that are collected already. -/
def collectAll (c entries : List (Reference × Value)) : List (Reference × Value) :=
  entries.foldl (fun merged entry => collect entry.1 entry.2 merged) c

/-- Documents of different identities are kept as they are. -/
theorem collectAll_of_nodup {entries : List (Reference × Value)}
    (h : ((c ++ entries).map (·.1)).Nodup) : collectAll c entries = c ++ entries := by
  induction entries generalizing c with
  | nil => rw [collectAll, List.foldl_nil, List.append_nil]
  | cons e rest ih =>
    have hnew : e.1 ∉ c.map (·.1) := by
      rw [List.map_append, List.nodup_append] at h
      exact fun hmem => h.2.2 _ hmem _ (by simp) rfl
    rw [List.append_cons] at h
    rw [collectAll, List.foldl_cons, collect_of_not_mem hnew, ← collectAll, ih h,
      List.append_cons c e rest]

/-- The documents that were identified as a resource. -/
def identifiedAs (i : Reference) (entries : List (Reference × Value)) : List Value :=
  (entries.filter (·.1 = i)).map (·.2)

theorem identifiedAs_append_singleton (j : Reference) :
    identifiedAs j (passed ++ [(i, d)]) =
      if i = j then identifiedAs j passed ++ [d] else identifiedAs j passed := by
  rw [identifiedAs, List.filter_append, List.map_append]
  by_cases h : i = j
  · simp [h, identifiedAs]
  · simp [h, identifiedAs]

/-- Every identity is collected once, with its documents merged in order. -/
structure Collected (passed c : List (Reference × Value)) : Prop where
  nodup : (c.map (·.1)).Nodup
  mem_iff : ∀ j f, (j, f) ∈ c ↔ mergeList (identifiedAs j passed) = some f

theorem collected_nil : Collected [] [] where
  nodup := List.nodup_nil
  mem_iff := by simp [identifiedAs, mergeList]

/-- One more document. -/
theorem Collected.collect (h : Collected passed c) :
    Collected (passed ++ [(i, d)]) (collect i d c) := by
  by_cases hi : i ∈ c.map (·.1)
  · obtain ⟨⟨i, e⟩, he, rfl⟩ := List.mem_map.1 hi
    have hmerged := (h.mem_iff i e).1 he
    obtain ⟨before, after, rfl⟩ := List.append_of_mem he
    have hnodup := h.nodup
    rw [List.map_append, List.map_cons, List.nodup_middle, List.nodup_cons, List.mem_append,
      not_or] at hnodup
    obtain ⟨⟨hbefore, hafter⟩, -⟩ := hnodup
    rw [collect_append_cons hbefore]
    refine ⟨by simpa using h.nodup, fun j f => ?_⟩
    rw [identifiedAs_append_singleton]
    by_cases hj : i = j
    · subst hj
      rw [if_pos rfl, mergeList_append_singleton, hmerged, Option.elim_some, Option.some_inj,
        List.mem_append, List.mem_cons, Prod.mk.injEq]
      constructor
      · rintro (hmem | ⟨-, rfl⟩ | hmem)
        · exact absurd (List.mem_map_of_mem hmem) hbefore
        · rfl
        · exact absurd (List.mem_map_of_mem hmem) hafter
      · rintro rfl
        exact .inr (.inl ⟨rfl, rfl⟩)
    · rw [if_neg hj, ← h.mem_iff]
      simp [Ne.symm hj]
  · have hnew : ∀ f, (i, f) ∉ c := fun f hf => hi (List.mem_map_of_mem hf)
    have hnone : identifiedAs i passed = [] := by
      rw [← mergeList_eq_none_iff, Option.eq_none_iff_forall_ne_some]
      exact fun f hf => hnew f ((h.mem_iff i f).2 hf)
    rw [collect_of_not_mem hi]
    refine ⟨?_, fun j f => ?_⟩
    · rw [List.map_append, List.map_singleton, ← List.concat_eq_append]
      exact h.nodup.concat hi
    · rw [identifiedAs_append_singleton, List.mem_append, List.mem_singleton, Prod.mk.injEq]
      by_cases hj : i = j
      · subst hj
        rw [if_pos rfl, hnone, or_iff_right (hnew f), and_iff_right rfl]
        exact (eq_comm.trans Option.some_inj.symm)
      · rw [if_neg hj, ← h.mem_iff, or_iff_left fun heq => hj heq.1.symm]

theorem collected_collectAll (entries : List (Reference × Value)) :
    Collected entries (collectAll [] entries) := by
  induction entries using List.reverseRecOn with
  | nil => exact collected_nil
  | append_singleton passed e ih =>
    rw [collectAll, List.foldl_append]
    exact ih.collect

/-! ## Merging streams -/

/-- The documents with their identities. -/
def identify (documents : List Value) : Except MergeFault (List (Reference × Value)) :=
  documents.mapM fun d => (identity d).map fun i => (i, d)

theorem identify_eq_ok_iff {documents : List Value} {entries : List (Reference × Value)} :
    identify documents = .ok entries ↔
      entries.map (·.2) = documents ∧ ∀ e ∈ entries, identity e.2 = .ok e.1 := by
  rw [identify, mapM_eq_ok_iff]
  constructor
  · intro h
    induction h with
    | nil => exact ⟨rfl, fun e he => nomatch he⟩
    | cons hd _ ih =>
      obtain ⟨i, hi, rfl⟩ := map_eq_ok_iff.1 hd
      rw [List.map_cons, ih.1, List.forall_mem_cons]
      exact ⟨rfl, hi, ih.2⟩
  · rintro ⟨rfl, hentries⟩
    rw [List.forall₂_map_left_iff, List.forall₂_same]
    intro e he
    rw [hentries e he]
    rfl

theorem documentsOf_map {entries : List (Reference × Value)}
    (h : ∀ e ∈ entries, identity e.2 = .ok e.1) :
    documentsOf i (entries.map (·.2)) = identifiedAs i entries := by
  rw [documentsOf, identifiedAs, List.filter_map]
  refine congrArg _ (List.filter_congr fun e he => ?_)
  rw [Function.comp_apply, h e he]

theorem mergeAll_eq_ok_iff {documents merged : List Value} :
    mergeAll documents = .ok merged ↔
      ∃ entries, identify documents = .ok entries ∧ (collectAll [] entries).map (·.2) = merged := by
  constructor
  · intro h
    obtain ⟨entries, hentries, hmerged⟩ := bind_eq_ok_iff.1 h
    exact ⟨entries, mapError_eq_ok_iff.1 hentries, Except.ok.inj hmerged⟩
  · rintro ⟨entries, hentries, rfl⟩
    exact bind_eq_ok_iff.2 ⟨entries, mapError_eq_ok_iff.2 hentries, rfl⟩

/-- A stream goes on from the documents that are collected already. -/
theorem mergeAll_append {documents : List Value} {entries : List (Reference × Value)}
    (h : identify documents = .ok entries) (further : List Value) :
    mergeAll (documents ++ further) = ((identify further).mapError Failure.merging).map fun more =>
      (collectAll (collectAll [] entries) more).map (·.2) := by
  have happend : identify (documents ++ further) = (identify further).map (entries ++ ·) := by
    rw [identify, List.mapM_append, ← identify, h]
    show (do let more ← identify further; pure (entries ++ more)) = _
    cases identify further <;> rfl
  show ((identify (documents ++ further)).mapError Failure.merging >>= fun identified =>
    pure ((collectAll [] identified).map (·.2))) = _
  rw [happend]
  cases identify further with
  | error fault => rfl
  | ok more =>
    show Except.ok ((collectAll [] (entries ++ more)).map (·.2)) = _
    rw [collectAll, List.foldl_append]
    rfl

/-! ## Merging is incremental -/

/-- Documents are merged from others if each identity of these is the identity of one of them, which
is all the documents of this identity merged in order. -/
structure AreMerged (documents merged : List Value) : Prop where
  distinct : (merged.map identity).Nodup
  complete : ∀ d ∈ documents, ∃ m ∈ merged, identity m = identity d
  eq_merge : ∀ m ∈ merged, ∃ i, identity m = .ok i ∧ mergeList (documentsOf i documents) = some m

variable {documents : List Value} {entries : List (Reference × Value)}

theorem Collected.areMerged (h : Collected entries c) (hentries : identify documents = .ok entries)
    (hidentity : ∀ e ∈ c, identity e.2 = .ok e.1) : AreMerged documents (c.map (·.2)) := by
  obtain ⟨rfl, hidentities⟩ := identify_eq_ok_iff.1 hentries
  refine ⟨?_, fun d hd => ?_, fun m hm => ?_⟩
  · have hmap : (c.map (·.2)).map identity = (c.map (·.1)).map Except.ok := by
      rw [List.map_map, List.map_map]
      exact List.map_congr_left hidentity
    rw [hmap]
    exact h.nodup.map fun _ _ => Except.ok.inj
  · obtain ⟨e, he, rfl⟩ := List.mem_map.1 hd
    have hmem : e.2 ∈ identifiedAs e.1 entries :=
      List.mem_map_of_mem (List.mem_filter.2 ⟨he, decide_eq_true rfl⟩)
    cases hmerged : mergeList (identifiedAs e.1 entries) with
    | none =>
      rw [mergeList_eq_none_iff.1 hmerged] at hmem
      exact absurd hmem List.not_mem_nil
    | some f =>
      have hf := (h.mem_iff e.1 f).2 hmerged
      exact ⟨f, List.mem_map_of_mem hf, (hidentity _ hf).trans (hidentities e he).symm⟩
  · obtain ⟨e, he, rfl⟩ := List.mem_map.1 hm
    refine ⟨e.1, hidentity e he, ?_⟩
    rw [documentsOf_map hidentities]
    exact (h.mem_iff e.1 e.2).1 he

/-- A document that was merged describes the resource under whose identity it is collected. -/
theorem describes_of_mem_collectAll (hkeys : ∀ d ∈ documents, d.hasDistinctKeys = true)
    (hentries : identify documents = .ok entries) {e : Reference × Value}
    (he : e ∈ collectAll [] entries) : Describes e.1 e.2 := by
  obtain ⟨rfl, hidentities⟩ := identify_eq_ok_iff.1 hentries
  have hmerged := ((collected_collectAll entries).mem_iff e.1 e.2).1 he
  refine describes_of_mergeList (fun d hd => ?_) hmerged
  rw [← documentsOf_map hidentities] at hd
  obtain ⟨hmem, hidentity⟩ := mem_documentsOf.1 hd
  exact describes_of_hasDistinctKeys (hkeys d hmem) hidentity

/-- **Merging is incremental.**  It keeps the identities of the documents, and merging what was
merged together with further documents is merging all the documents at once.  No key may be twice in
a mapping, which is so in every document that was read. -/
theorem mergeAll_merged_append {documents merged : List Value}
    (hkeys : ∀ d ∈ documents, d.hasDistinctKeys = true) (h : mergeAll documents = .ok merged) :
    AreMerged documents merged ∧
      (∀ further, mergeAll (merged ++ further) = mergeAll (documents ++ further)) ∧
      mergeAll merged = .ok merged := by
  obtain ⟨entries, hentries, rfl⟩ := mergeAll_eq_ok_iff.1 h
  have hidentity : ∀ e ∈ collectAll [] entries, identity e.2 = .ok e.1 :=
    fun e he => (describes_of_mem_collectAll hkeys hentries he).identity
  have hcollected := collected_collectAll entries
  have hmerged : identify ((collectAll [] entries).map (·.2)) = .ok (collectAll [] entries) :=
    identify_eq_ok_iff.2 ⟨rfl, hidentity⟩
  have hself : collectAll [] (collectAll [] entries) = collectAll [] entries :=
    collectAll_of_nodup hcollected.nodup
  refine ⟨hcollected.areMerged hentries hidentity, fun further => ?_,
    mergeAll_eq_ok_iff.2 ⟨_, hmerged, by rw [hself]⟩⟩
  rw [mergeAll_append hmerged, mergeAll_append hentries, hself]

/-- A document about a `ConfigMap`, with a namespace or none. -/
def sampleDocument (name : String) (space : Option Value) (data : List (String × Value)) : Value :=
  record [
    some ("kind", .string "ConfigMap"),
    some ("metadata", record [some ("name", .string name), space.map (("namespace", ·))]),
    some ("data", record (data.map some))]

/-- A namespace and a datum are removed from one resource, and a tagged document, the namespace of
which is no text, replaces the other one. -/
theorem mergeAll_merged_append_sample :
    let documents := [
      sampleDocument "a" (some (.number (.integer 1))) [("x", .string "1")],
      sampleDocument "b" none [("x", .string "1")],
      sampleDocument "a" (some .null) [("x", .null), ("y", .string "2")],
      .tagged "!new" (sampleDocument "b" (some (.bool true)) [("y", .string "2")])]
    let merged := [
      sampleDocument "a" none [("y", .string "2")],
      .tagged "!new" (sampleDocument "b" (some (.bool true)) [("y", .string "2")])]
    (∀ d ∈ documents, d.hasDistinctKeys = true) ∧ mergeAll documents = .ok merged ∧
      AreMerged documents merged ∧
      (∀ further, mergeAll (merged ++ further) = mergeAll (documents ++ further)) ∧
      mergeAll merged = .ok merged := by
  intro documents merged
  have hkeys : ∀ d ∈ documents, d.hasDistinctKeys = true := by decide
  have hmerged : mergeAll documents = .ok merged := by rfl
  exact ⟨hkeys, hmerged, mergeAll_merged_append hkeys hmerged⟩

end Resource

end ClusterTuning
