import ClusterTuning.Proofs.Stream.Incremental

/-!
# Merging groups the documents of a stream

The pass over a stream keeps the merged documents in a list and looks for the
place of each document among them.  What comes out can be said without the pass:
the identities of the documents in the order in which they first occur, and for
each of them its documents merged one after the other.  A document that cannot be
identified stops the pass, whatever the documents before it describe.

* `Resource.keys_collect`, `Resource.keys_collectAll` — where documents go;
* `Resource.mergeAll_eq_groups` — the statement for whole streams.
-/

namespace ClusterTuning.Resource

open Yaml Value

/-! ## Documents with and without an identity -/

/-- A document describes a resource: it has metadata with a name, and the texts under the fields
that identify a resource are those of the reference. -/
structure IsAbout (d : Value) (i : Reference) : Prop where
  apiVersion : textField d "apiVersion" = i.apiVersion
  kind : textField d "kind" = i.kind
  metadata : ∃ m, d.get? "metadata" = some m ∧ m.asMapping?.isSome = true ∧
    textField m "namespace" = i.namespace ∧ textField m "name" = i.name
  named : i.name ≠ ""

theorem identity_eq_ok_iff_isAbout {d : Value} {i : Reference} :
    identity d = .ok i ↔ IsAbout d i := by
  rw [identity_eq_ok_iff]
  constructor
  · rintro ⟨m, hm, hmapping, hnamed, hversion, hkind, hnamespace, hname⟩
    exact ⟨hversion, hkind, ⟨m, hm, hmapping, hnamespace, hname⟩, hnamed⟩
  · rintro ⟨hversion, hkind, ⟨m, hm, hmapping, hnamespace, hname⟩, hnamed⟩
    exact ⟨m, hm, hmapping, hnamed, hversion, hkind, hnamespace, hname⟩

/-- Why a document cannot be identified: it has no mapping as its metadata, or one without a name
that is a text and not empty. -/
def Unidentified (d : Value) : MergeFault → Prop
  | .noMetadata => ∀ m, d.get? "metadata" = some m → m.asMapping? = none
  | .noName => ∃ m, d.get? "metadata" = some m ∧ m.asMapping?.isSome = true ∧
      ∀ s, (m.get? "name").bind asString? = some s → s = ""

theorem textField_eq_empty_iff {v : Value} {key : String} :
    textField v key = "" ↔ ∀ s, (v.get? key).bind asString? = some s → s = "" := by
  unfold textField
  cases (v.get? key).bind asString? with
  | none => simp
  | some s => simp

theorem identity_eq_error_iff {d : Value} {fault : MergeFault} :
    identity d = .error fault ↔ Unidentified d fault := by
  unfold identity
  split
  · next hnone =>
    rw [Option.filter_eq_none_iff] at hnone
    cases fault with
    | noMetadata => simpa [Unidentified] using hnone
    | noName =>
      simp only [Unidentified, Except.error.injEq, reduceCtorEq, false_iff]
      rintro ⟨m, hm, hmapping, -⟩
      exact hnone m hm hmapping
  · next m hsome =>
    obtain ⟨hm, hmapping⟩ := Option.filter_eq_some_iff.1 hsome
    cases fault with
    | noMetadata =>
      constructor
      · intro h
        split at h <;> exact nomatch h
      · intro h
        rw [h m hm] at hmapping
        exact nomatch hmapping
    | noName =>
      simp only [Unidentified, hm, Option.some.injEq, exists_eq_left', hmapping, true_and,
        ← textField_eq_empty_iff]
      split
      · next hname => simpa using String.isEmpty_iff.1 hname
      · next hname => simpa using fun hempty => hname (String.isEmpty_iff.2 hempty)

/-- A document describes a resource, or there is a reason why it does not. -/
theorem exists_isAbout_or_unidentified (d : Value) :
    (∃ i, IsAbout d i) ∨ ∃ fault, Unidentified d fault := by
  cases h : identity d with
  | ok i => exact .inl ⟨i, identity_eq_ok_iff_isAbout.1 h⟩
  | error fault => exact .inr ⟨fault, identity_eq_error_iff.1 h⟩

theorem not_unidentified_iff {d : Value} :
    (∀ fault, ¬ Unidentified d fault) ↔ ∃ i, identity d = .ok i := by
  constructor
  · intro h
    rcases exists_isAbout_or_unidentified d with ⟨i, hi⟩ | ⟨fault, hfault⟩
    · exact ⟨i, identity_eq_ok_iff_isAbout.2 hi⟩
    · exact absurd hfault (h fault)
  · rintro ⟨i, hi⟩ fault hfault
    exact nomatch hi.symm.trans (identity_eq_error_iff.2 hfault)

/-! ## The places of identities -/

variable {i : Reference} {d : Value} {c entries : List (Reference × Value)}

/-- A new identity goes to the end; one that is there keeps its place. -/
theorem keys_collect :
    (collect i d c).map (·.1) =
      if i ∈ c.map (·.1) then c.map (·.1) else c.map (·.1) ++ [i] := by
  induction c with
  | nil => rfl
  | cons e rest ih =>
    rw [collect]
    by_cases he : e.1 = i
    · rw [if_pos he, List.map_cons, List.map_cons, if_pos (by simp [he])]
    · rw [if_neg he, List.map_cons, List.map_cons, ih]
      by_cases hi : i ∈ rest.map (·.1)
      · rw [if_pos hi, if_pos (List.mem_cons_of_mem _ hi)]
      · rw [if_neg hi, if_neg (by simpa [Ne.symm he] using hi), List.cons_append]

theorem eraseDups_append_singleton (is : List Reference) (i : Reference) :
    (is ++ [i]).eraseDups = if i ∈ is then is.eraseDups else is.eraseDups ++ [i] := by
  rw [List.eraseDups_append]
  by_cases hi : i ∈ is
  · simp [List.removeAll, hi]
  · simp [List.removeAll, hi, List.eraseDups_cons]

/-- Identities stand in the order in which they first occur. -/
theorem keys_collectAll (entries : List (Reference × Value)) :
    (collectAll [] entries).map (·.1) = (entries.map (·.1)).eraseDups := by
  induction entries using List.reverseRecOn with
  | nil => rfl
  | append_singleton passed e ih =>
    have hlast : collectAll [] (passed ++ [e]) = collect e.1 e.2 (collectAll [] passed) := by
      rw [collectAll, List.foldl_append]
      rfl
    rw [hlast, keys_collect, ih, List.map_append, List.map_singleton, eraseDups_append_singleton]
    simp only [List.mem_eraseDups]

/-- Under each identity stand its documents, merged in order. -/
theorem Collected.map_some (h : Collected entries c) :
    c.map (fun e => some e.2) =
      (c.map (·.1)).map fun i => mergeList (identifiedAs i entries) := by
  rw [List.map_map]
  refine List.map_congr_left fun e he => ?_
  exact ((h.mem_iff e.1 e.2).1 he).symm

/-! ## Whole streams -/

theorem identify_eq_error_iff {documents : List Value} {fault : MergeFault} :
    identify documents = .error fault ↔ ∃ before d after, documents = before ++ d :: after ∧
      (∀ b ∈ before, ∀ f, ¬ Unidentified b f) ∧ Unidentified d fault := by
  simp only [identify, mapM_eq_error_iff, map_eq_error_iff, identity_eq_error_iff,
    exists_map_eq_ok_iff, not_unidentified_iff]

/-- A stream cannot be merged if one of its documents cannot be identified. -/
theorem mergeAll_eq_error_iff {documents : List Value} {e : Failure} :
    mergeAll documents = .error e ↔
      ∃ fault, identify documents = .error fault ∧ e = .merging fault := by
  constructor
  · intro h
    rcases bind_eq_error_iff.1 h with h | ⟨entries, -, hpure⟩
    · obtain ⟨fault, hfault, rfl⟩ := mapError_eq_error_iff.1 h
      exact ⟨fault, hfault, rfl⟩
    · exact nomatch hpure
  · rintro ⟨fault, hfault, rfl⟩
    exact bind_eq_error_iff.2 (.inl (mapError_eq_error_iff.2 ⟨fault, hfault, rfl⟩))

theorem forall₂_isAbout_iff {documents : List Value} {resources : List Reference} :
    List.Forall₂ IsAbout documents resources ↔
      ∃ entries, identify documents = .ok entries ∧ entries.map (·.1) = resources := by
  constructor
  · intro h
    induction h with
    | nil => exact ⟨[], rfl, rfl⟩
    | @cons d i documents resources hd _ ih =>
      obtain ⟨entries, hentries, rfl⟩ := ih
      obtain ⟨rfl, hidentities⟩ := identify_eq_ok_iff.1 hentries
      refine ⟨(i, d) :: entries, identify_eq_ok_iff.2 ⟨rfl, ?_⟩, rfl⟩
      exact List.forall_mem_cons.2 ⟨identity_eq_ok_iff_isAbout.2 hd, hidentities⟩
  · rintro ⟨entries, hentries, rfl⟩
    obtain ⟨rfl, hidentities⟩ := identify_eq_ok_iff.1 hentries
    rw [List.forall₂_map_left_iff, List.forall₂_map_right_iff, List.forall₂_same]
    exact fun e he => identity_eq_ok_iff_isAbout.1 (hidentities e he)

/-- A stream can be merged if all of its documents describe resources. -/
theorem exists_mergeAll_iff {documents : List Value} :
    (∃ merged, mergeAll documents = .ok merged) ↔ ∀ d ∈ documents, ∃ i, IsAbout d i := by
  rw [← exists_forall₂_iff]
  constructor
  · rintro ⟨merged, hmerged⟩
    obtain ⟨entries, hentries, -⟩ := mergeAll_eq_ok_iff.1 hmerged
    exact ⟨_, forall₂_isAbout_iff.2 ⟨entries, hentries, rfl⟩⟩
  · rintro ⟨resources, habout⟩
    obtain ⟨entries, hentries, -⟩ := forall₂_isAbout_iff.1 habout
    exact ⟨_, mergeAll_eq_ok_iff.2 ⟨entries, hentries, rfl⟩⟩

/-- The documents that come out are those that the identities and their documents tell. -/
theorem map_some_collectAll {documents : List Value} {entries : List (Reference × Value)}
    (h : identify documents = .ok entries) :
    ((collectAll [] entries).map (·.2)).map some =
      (entries.map (·.1)).eraseDups.map fun i => mergeList (documentsOf i documents) := by
  obtain ⟨rfl, hidentities⟩ := identify_eq_ok_iff.1 h
  rw [List.map_map, ← keys_collectAll]
  simp only [documentsOf_map hidentities]
  exact (collected_collectAll entries).map_some

/-- **Merging groups the documents of a stream.**  It fails if a document cannot be identified, and
says why for the first one.  Otherwise there is one document for each identity, in the order in
which the identities first occur, and it is the documents of this identity merged one after the
other in the order of the stream. -/
theorem mergeAll_eq_groups (documents : List Value) :
    ((∃ e, mergeAll documents = .error e) ↔ ∃ d ∈ documents, ∃ fault, Unidentified d fault) ∧
    (∀ e, mergeAll documents = .error e ↔ ∃ fault before d after, e = .merging fault ∧
      documents = before ++ d :: after ∧ (∀ b ∈ before, ∀ f, ¬ Unidentified b f) ∧
        Unidentified d fault) ∧
    ∀ merged, mergeAll documents = .ok merged ↔ ∃ resources : List Reference,
      List.Forall₂ IsAbout documents resources ∧
        merged.map some = resources.eraseDups.map fun i => mergeList (documentsOf i documents) := by
  have herror : ∀ e, mergeAll documents = .error e ↔ ∃ fault before d after, e = .merging fault ∧
      documents = before ++ d :: after ∧ (∀ b ∈ before, ∀ f, ¬ Unidentified b f) ∧
        Unidentified d fault := by
    intro e
    simp only [mergeAll_eq_error_iff, identify_eq_error_iff]
    constructor
    · rintro ⟨fault, ⟨before, d, after, hfirst⟩, he⟩
      exact ⟨fault, before, d, after, he, hfirst⟩
    · rintro ⟨fault, before, d, after, he, hfirst⟩
      exact ⟨fault, ⟨before, d, after, hfirst⟩, he⟩
  refine ⟨⟨?_, ?_⟩, herror, fun merged => ⟨?_, ?_⟩⟩
  · rintro ⟨e, he⟩
    obtain ⟨fault, before, d, after, -, rfl, -, hd⟩ := (herror e).1 he
    exact ⟨d, by simp, fault, hd⟩
  · rintro ⟨d, hd, fault, hfault⟩
    cases hmerged : mergeAll documents with
    | error e => exact ⟨e, rfl⟩
    | ok merged =>
      obtain ⟨i, hi⟩ := exists_mergeAll_iff.1 ⟨merged, hmerged⟩ d hd
      exact absurd hfault (not_unidentified_iff.2 ⟨i, identity_eq_ok_iff_isAbout.2 hi⟩ fault)
  · intro h
    obtain ⟨entries, hentries, rfl⟩ := mergeAll_eq_ok_iff.1 h
    exact ⟨entries.map (·.1), forall₂_isAbout_iff.2 ⟨entries, hentries, rfl⟩,
      map_some_collectAll hentries⟩
  · rintro ⟨resources, habout, hmerged⟩
    obtain ⟨entries, hentries, rfl⟩ := forall₂_isAbout_iff.1 habout
    refine mergeAll_eq_ok_iff.2 ⟨entries, hentries, ?_⟩
    rw [← map_some_collectAll hentries] at hmerged
    exact (List.map_injective_iff.2 (fun _ _ => Option.some.inj) hmerged).symm

end ClusterTuning.Resource
