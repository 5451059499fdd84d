import ClusterTuning.Proofs.Naming.Words
import Mathlib.Data.List.Forall2

/-!
# How names grow with the resources that are tuned

Three groups of parts can stand before the field in a name: the kind, the words of the
resource name and the values of the list entries.  Each of them is there as a whole or
not at all, and what decides is how often each kind and name is selected.  When more is
selected, a group may come in, but none goes away and none changes.

* `Namer.name_ofTargets` — a name, as the groups that its targets call for;
* `Namer.shownGroups_sublist` — more targets call for more groups;
* `Namer.name_grows` — names for some targets and for more of them.
-/

namespace ClusterTuning

/-- Two references to what a namer takes for one resource, whatever the namespaces and the API
versions are. -/
def Reference.SameResource (a b : Reference) : Prop :=
  a.kind = b.kind ∧ a.name = b.name

instance : DecidableRel Reference.SameResource := fun a b =>
  inferInstanceAs (Decidable (a.kind = b.kind ∧ a.name = b.name))

namespace Namer

open Text Reference

variable {T U : List Reference} {t u : Reference} {path : List String}

/-! ## Groups of parts -/

/-- The groups of parts that the targets call for: the kind if there are several kinds, the words of
the resource name if there are several names of one kind, and the values of the list entries on the
path if the resource itself is selected more than once. -/
def shownGroups (T : List Reference) (t : Reference) (path : List String) :
    List (List (List Char)) :=
  (if ∃ a ∈ T, ∃ b ∈ T, a.kind ≠ b.kind then [[lowercase t.kind.toList]] else []) ++
    (if ∃ a ∈ T, ∃ b ∈ T, a.kind = b.kind ∧ a.name ≠ b.name then [pieces '-' t.name.toList]
      else []) ++
    (if 1 < occurrences T t then [entryValues path] else [])

/-- The name that some groups of parts and the field itself make. -/
def spelled (groups : List (List (List Char))) (leaf : String) : String :=
  String.ofList (glue '_' (groups.flatten ++ [leaf.toList]))

/-- **A name is made of the groups that the targets call for**, and the field. -/
theorem name_ofTargets (T : List Reference) (t : Reference) (path : List String) (leaf : String) :
    (ofTargets T).name t path leaf = spelled (shownGroups T t path) leaf := by
  have flatten_ite : ∀ (p : Prop) [Decidable p] (group : List (List Char)),
      (if p then [group] else []).flatten = if p then group else [] := by
    intro p _ group
    by_cases hp : p <;> simp [hp]
  rw [name, spelled, shownGroups, parts_eq, leadingParts]
  simp only [List.flatten_append, flatten_ite, needsKind_ofTargets, needsName_ofTargets,
    selectionCount_ofTargets]

/-! ## More targets -/

theorem ite_sublist_ite {α : Type} {p q : Prop} [Decidable p] [Decidable q] {xs : List α}
    (h : p → q) : (if p then xs else []).Sublist (if q then xs else []) := by
  by_cases hp : p
  · rw [if_pos hp, if_pos (h hp)]
  · rw [if_neg hp]
    exact List.nil_sublist _

/-- More targets call for every group that some of them call for. -/
theorem shownGroups_sublist (T U : List Reference) (t : Reference) (path : List String) :
    (shownGroups T t path).Sublist (shownGroups (T ++ U) t path) := by
  refine List.Sublist.append (List.Sublist.append ?kind ?name) ?values
  case kind =>
    refine ite_sublist_ite ?_
    rintro ⟨a, ha, b, hb, hne⟩
    exact ⟨a, List.mem_append_left U ha, b, List.mem_append_left U hb, hne⟩
  case name =>
    refine ite_sublist_ite ?_
    rintro ⟨a, ha, b, hb, hne⟩
    exact ⟨a, List.mem_append_left U ha, b, List.mem_append_left U hb, hne⟩
  case values =>
    refine ite_sublist_ite fun hcount => ?_
    rw [occurrences_append]
    omega

/-! ## Targets that make no difference -/

theorem occurrences_eq_zero (h : ∀ u ∈ U, ¬ u.SameResource t) : occurrences U t = 0 := by
  rw [occurrences, List.countP_eq_zero]
  intro u hu
  simpa [Reference.SameResource] using h u hu

/-- Resources that are selected already call for nothing more, except for themselves. -/
theorem shownGroups_append_of_selected (hU : ∀ u ∈ U, ∃ r ∈ T, r.SameResource u)
    (ht : ∀ u ∈ U, ¬ u.SameResource t) : shownGroups (T ++ U) t path = shownGroups T t path := by
  -- every target has a counterpart among the first ones
  have hmem : ∀ a ∈ T ++ U, ∃ r ∈ T, r.SameResource a := by
    intro a ha
    rcases List.mem_append.1 ha with ha | ha
    · exact ⟨a, ha, rfl, rfl⟩
    · exact hU a ha
  have hpairs : ∀ P : String → String → String → String → Prop,
      (∃ a ∈ T ++ U, ∃ b ∈ T ++ U, P a.kind a.name b.kind b.name) ↔
        ∃ a ∈ T, ∃ b ∈ T, P a.kind a.name b.kind b.name := by
    intro P
    constructor
    · rintro ⟨a, ha, b, hb, hP⟩
      obtain ⟨r, hr, hkind, hname⟩ := hmem a ha
      obtain ⟨s, hs, hkind', hname'⟩ := hmem b hb
      exact ⟨r, hr, s, hs, by rwa [hkind, hname, hkind', hname']⟩
    · rintro ⟨a, ha, b, hb, hP⟩
      exact ⟨a, List.mem_append_left U ha, b, List.mem_append_left U hb, hP⟩
  have hcount : occurrences (T ++ U) t = occurrences T t := by
    rw [occurrences_append, occurrences_eq_zero ht, Nat.add_zero]
  have hkinds := hpairs fun k _ k' _ => k ≠ k'
  have hnames := hpairs fun k n k' n' => k = k' ∧ n ≠ n'
  simp only [shownGroups, hkinds, hnames, hcount]

/-! ## What a name depends on -/

theorem occurrences_congr {S : List Reference} (h : List.Forall₂ SameResource T S)
    (r : Reference) : occurrences T r = occurrences S r := by
  induction h with
  | nil => rfl
  | @cons a b as bs hab _ ih =>
    obtain ⟨hkind, hname⟩ := hab
    rw [occurrences, occurrences, List.countP_cons, List.countP_cons, hkind, hname]
    exact congrArg (· + _) ih

/-- Namers whose targets have the same kinds and names equally often give the same names, also for
two references to one resource. -/
theorem name_eq_of_occurrences {S : List Reference}
    (h : ∀ r, occurrences T r = occurrences S r) (htu : t.SameResource u) :
    (ofTargets T).name t = (ofTargets S).name u := by
  obtain ⟨hkind, hname⟩ := htu
  rw [ofTargets_eq_of_occurrences h]
  funext path leaf
  rw [name, name, parts, parts, selectionCount, selectionCount, count?, count?, hkind, hname]

/-! ## Growing -/

/-- **Names are minimal and stable.**  A name is made of the groups that its targets call for; with
further targets it is made of these groups and perhaps of more.  It stays as it is if the further
targets are all selected already and none of them is the resource itself.  And it depends on nothing
but how often each kind and name is selected, so neither on the order of the targets nor on their
namespaces or API versions. -/
theorem name_grows (T U : List Reference) :
    (∀ t path leaf,
      (ofTargets T).name t path leaf = spelled (shownGroups T t path) leaf ∧
      (ofTargets (T ++ U)).name t path leaf = spelled (shownGroups (T ++ U) t path) leaf ∧
      (shownGroups T t path).Sublist (shownGroups (T ++ U) t path)) ∧
    (∀ t, (∀ u ∈ U, ∃ r ∈ T, r.SameResource u) → (∀ u ∈ U, ¬ u.SameResource t) →
      (ofTargets (T ++ U)).name t = (ofTargets T).name t) ∧
    (∀ S t u, (∀ r, occurrences T r = occurrences S r) → t.SameResource u →
      (ofTargets T).name t = (ofTargets S).name u) ∧
    ∀ R S t u, T.Perm R → List.Forall₂ SameResource R S → t.SameResource u →
      (ofTargets T).name t = (ofTargets S).name u := by
  refine ⟨fun t path leaf => ?_, fun t hU ht => ?_, fun S t u => name_eq_of_occurrences,
    fun R S t u hperm hsame => ?_⟩
  · exact ⟨name_ofTargets T t path leaf, name_ofTargets (T ++ U) t path leaf,
      shownGroups_sublist T U t path⟩
  · funext path leaf
    rw [name_ofTargets, name_ofTargets, shownGroups_append_of_selected hU ht]
  · refine name_eq_of_occurrences fun r => ?_
    rw [← occurrences_congr hsame r, occurrences, occurrences]
    exact hperm.countP_eq _

/-- Two Deployments, of which one is then selected in a second namespace: the name for the other one
stays.  A StatefulSet brings in the kind. -/
theorem name_grows_sample :
    let web : Reference := { apiVersion := "apps/v1", kind := "Deployment", name := "web" }
    let cache : Reference := { apiVersion := "apps/v1", kind := "Deployment", name := "cache" }
    let staged : Reference := { web with «namespace» := "staging" }
    let db : Reference := { apiVersion := "apps/v1", kind := "StatefulSet", name := "db" }
    let app := ["containers", "[name=app]"]
    ((∀ u ∈ [staged], ∃ r ∈ [web, cache], r.SameResource u) ∧
      (∀ u ∈ [staged], ¬ u.SameResource cache) ∧
      (ofTargets [web, cache, staged]).name cache = (ofTargets [web, cache]).name cache ∧
      (ofTargets [web, cache]).name cache app "cpu" = "cache_cpu") ∧
    (shownGroups [web, cache] cache app).Sublist (shownGroups [web, cache, db] cache app) ∧
      (ofTargets [web, cache, db]).name cache app "cpu" = "deployment_cache_cpu" ∧
    [web, cache].Perm [cache, web] ∧ List.Forall₂ SameResource [cache, web] [cache, staged] ∧
      (ofTargets [web, cache]).name web = (ofTargets [cache, staged]).name staged := by
  intro web cache staged db app
  obtain ⟨-, hstable, -, hdepends⟩ := name_grows [web, cache] [staged]
  obtain ⟨hgrows, -⟩ := name_grows [web, cache] [db]
  have hselected : ∀ u ∈ [staged], ∃ r ∈ [web, cache], r.SameResource u := by decide
  have hother : ∀ u ∈ [staged], ¬ u.SameResource cache := by decide
  have hswap : [web, cache].Perm [cache, web] := List.Perm.swap cache web []
  have hsame : List.Forall₂ SameResource [cache, web] [cache, staged] :=
    .cons ⟨rfl, rfl⟩ (.cons ⟨rfl, rfl⟩ .nil)
  refine ⟨⟨hselected, hother, hstable cache hselected hother, ?_⟩,
    (hgrows cache app "cpu").2.2, ?_, hswap, hsame, hdepends _ _ web staged hswap hsame ⟨rfl, rfl⟩⟩
  · decide
  · decide

end Namer

end ClusterTuning
