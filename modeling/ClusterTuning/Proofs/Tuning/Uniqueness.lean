import ClusterTuning.Proofs.Generation.Grouping
import ClusterTuning.Proofs.Naming.Words
import ClusterTuning.Tuning.Resources
import Mathlib.Data.List.Nodup

/-!
# When the parameters of an experiment have different names

Every field that is tuned gives one parameter, for a number of replicas, or two
of them, for the resources of a container.  Their names are meant to be unique in
the experiment, but they are made of words only: fields that are tuned in the
same way and have the same words share their names, even if they belong to
different resources.

* `Tuned.names_nodup_iff` — names are unique exactly when the words are;
* `Tuned.nodup_names_iff_pairwise_sameEntries` — without separators, exactly when no two
  fields ask for the same list entries of one resource;
* `Tuned.names_not_nodup_across_namespaces` — two fields without a difference in
  words: the namer does not look at namespaces.
-/

namespace ClusterTuning

/-- A field together with the way in which it is tuned. -/
inductive Tuned where
  | replicas (f : TunedField)
  | resources (f : TunedField)
deriving Repr, Inhabited

namespace Tuned

open Text Namer

/-- The field that is tuned. -/
def field : Tuned → TunedField
  | replicas f => f
  | resources f => f

/-- The contribution to an experiment. -/
def selection : Tuned → Selection
  | replicas f => f.replicas
  | resources f => f.resources

/-- The last words of the names of the parameters. -/
def leaves : Tuned → List String
  | replicas _ => ["replicas"]
  | resources _ => ["cpu", "memory"]

/-- The names of the parameters. -/
def names (namer : Namer) (t : Tuned) : List String :=
  t.leaves.map (namer.name t.field.target t.field.path)

/-- The resources whose fields are tuned. -/
def targets (ts : List Tuned) : List Reference :=
  ts.map (·.field.target)

/-- The words with which the names of the parameters begin, when all these fields are tuned
together. -/
def words (ts : List Tuned) (t : Tuned) : List (List Char) :=
  (ofTargets (targets ts)).leadingWords t.field.target t.field.path

/-! ## The names in an experiment -/

theorem ofSelections_map (ts : List Tuned) :
    Namer.ofSelections (ts.map selection) = ofTargets (targets ts) := by
  have htarget : ∀ t : Tuned, t.selection.target = some t.field.target := by
    intro t
    cases t <;> rfl
  rw [Namer.ofSelections, List.filterMap_map, targets, ← List.filterMap_eq_map]
  exact congrArg _ (congrArg (List.filterMap · ts) (funext htarget))

theorem leavesLists (t : Tuned) : t.selection.LeavesLists := by
  refine Selection.leavesLists_of_none ?_
  cases t <;> rfl

/-- A generation for fields puts together what they contribute. -/
theorem isGrouping {g : Generator} {seconds : Binary64} {ts : List Tuned}
    {counters after : Counters} {generation : Generation}
    (h : (g.generate seconds (ts.map selection)).run counters = (.ok generation, after)) :
    generation.IsGrouping g.defaultName (ts.map selection) := by
  obtain ⟨c, hfold, hfinish⟩ := Generator.generate_eq_ok_iff.1 (congrArg Prod.fst h)
  have hs : ∀ s ∈ ts.map selection, s.LeavesLists := by
    intro s hs
    obtain ⟨t, -, rfl⟩ := List.mem_map.1 hs
    exact t.leavesLists
  exact (Generation.gathered_foldlM hs hfold).isGrouping hfinish

theorem bounded_name (name : String) (bounds : Int32 × Int32) (current : Option Int32) :
    (TunedField.bounded name bounds current).name = name := by
  unfold TunedField.bounded
  split <;> rfl

/-- A field gives parameters with its names, or none at all. -/
theorem map_name_parameterList {namer : Namer} {t : Tuned} {ps : List Parameter}
    (h : t.selection.parameterList namer = .ok ps) : ps.map (·.name) = t.names namer := by
  cases t with
  | replicas f =>
    obtain rfl := Except.ok.inj h
    rfl
  | resources f =>
    obtain ⟨cpu, -, h⟩ := bind_eq_ok_iff.1 h
    obtain ⟨memory, -, h⟩ := bind_eq_ok_iff.1 h
    obtain rfl := Except.ok.inj h
    simp only [List.map_cons, List.map_nil, bounded_name]
    rfl

theorem map_name_gather {namer : Namer} {ts : List Tuned} {ps : List Parameter}
    (h : Selection.gather (Selection.parameterList namer) (ts.map selection) = .ok ps) :
    ps.map (·.name) = ts.flatMap (names namer) := by
  obtain ⟨pss, hpss, rfl⟩ := map_eq_ok_iff.1 h
  have hall := List.forall₂_map_left_iff.1 (mapM_eq_ok_iff.1 hpss)
  clear h hpss
  induction hall with
  | nil => rfl
  | cons hp _ ih =>
    rw [List.flatten_cons, List.map_append, map_name_parameterList hp, ih, List.flatMap_cons]

/-! ## Unique names -/

theorem name_eq_name_of_leaves {namer : Namer} {a b : Tuned} {l m : String} (hl : l ∈ a.leaves)
    (hm : m ∈ b.leaves) :
    namer.name a.field.target a.field.path l = namer.name b.field.target b.field.path m ↔
      namer.leadingWords a.field.target a.field.path =
        namer.leadingWords b.field.target b.field.path ∧ l = m := by
  have hword : ∀ (t : Tuned), ∀ l ∈ t.leaves, pieces '_' l.toList = [l.toList] := by
    intro t
    cases t with
    | replicas f =>
      show ∀ l ∈ ["replicas"], pieces '_' l.toList = [l.toList]
      decide
    | resources f =>
      show ∀ l ∈ ["cpu", "memory"], pieces '_' l.toList = [l.toList]
      decide
  rw [name_eq_name_iff, hword a l hl, hword b m hm]
  constructor
  · intro h
    obtain ⟨hwords, hleaf⟩ := List.append_inj' h rfl
    exact ⟨hwords, String.toList_inj.1 (List.singleton_inj.1 hleaf)⟩
  · rintro ⟨hwords, rfl⟩
    rw [hwords]

theorem leaves_nodup (t : Tuned) : t.leaves.Nodup := by
  cases t with
  | replicas f => exact List.nodup_singleton _
  | resources f =>
    show ["cpu", "memory"].Nodup
    decide

theorem names_nodup (namer : Namer) (t : Tuned) : (t.names namer).Nodup := by
  refine (List.nodup_map_iff_inj_on t.leaves_nodup).2 fun l hl m hm h => ?_
  exact ((name_eq_name_of_leaves hl hm).1 h).2

/-- Fields that are tuned in different ways have no leaf in common. -/
theorem leaves_eq_iff {a b : Tuned} : a.leaves = b.leaves ↔ ∃ l, l ∈ a.leaves ∧ l ∈ b.leaves := by
  cases a <;> cases b <;> simp [leaves]

/-- Two fields share a name exactly when they are tuned in the same way and have the same words. -/
theorem disjoint_names_iff {namer : Namer} {a b : Tuned} :
    (a.names namer).Disjoint (b.names namer) ↔ (a.leaves = b.leaves →
      namer.leadingWords a.field.target a.field.path ≠
        namer.leadingWords b.field.target b.field.path) := by
  rw [List.disjoint_left]
  constructor
  · intro h hleaves hwords
    obtain ⟨l, hla, hlb⟩ := leaves_eq_iff.1 hleaves
    refine h (List.mem_map_of_mem hla) (List.mem_map.2 ⟨l, hlb, ?_⟩)
    exact (name_eq_name_of_leaves hlb hla).2 ⟨hwords.symm, rfl⟩
  · intro h n ha hb
    obtain ⟨l, hla, rfl⟩ := List.mem_map.1 ha
    obtain ⟨m, hmb, hname⟩ := List.mem_map.1 hb
    obtain ⟨hwords, rfl⟩ := (name_eq_name_of_leaves hmb hla).1 hname
    exact h (leaves_eq_iff.2 ⟨m, hla, hmb⟩) hwords.symm

variable {g : Generator} {seconds : Binary64} {ts : List Tuned} {counters after : Counters}
  {generation : Generation}

/-- The names are unique if no two fields have one in common. -/
theorem nodup_names_iff_pairwise_disjoint
    (h : (g.generate seconds (ts.map selection)).run counters = (.ok generation, after)) :
    (generation.experiment.parameters.map (·.name)).Nodup ↔
      ts.Pairwise fun a b =>
        (a.names (ofTargets (targets ts))).Disjoint (b.names (ofTargets (targets ts))) := by
  have hparameters := (isGrouping h).parameters
  rw [ofSelections_map] at hparameters
  rw [map_name_gather hparameters, List.nodup_flatMap, and_iff_right fun t _ => names_nodup _ t]

/-- **The names of the parameters are unique exactly when the words of the fields are.**  No two
fields that are tuned in the same way may have the same words. -/
theorem names_nodup_iff (g : Generator) (seconds : Binary64) (ts : List Tuned)
    (counters after : Counters) (generation : Generation)
    (h : (g.generate seconds (ts.map selection)).run counters = (.ok generation, after)) :
    (generation.experiment.parameters.map (·.name)).Nodup ↔
      ts.Pairwise fun a b => a.leaves = b.leaves → a.words ts ≠ b.words ts := by
  rw [nodup_names_iff_pairwise_disjoint h]
  exact List.Pairwise.iff fun a b => disjoint_names_iff

/-- The numbers of replicas of three resources. -/
def acrossResources : List Tuned :=
  [("Deployment", "web"), ("Deployment", "cache"), ("StatefulSet", "web")].map fun (kind, name) =>
    replicas { target := { apiVersion := "apps/v1", kind, name }, path := ["spec", "replicas"] }

theorem names_nodup_across_resources :
    ∃ generation after,
      (Generator.generate {} .nan (acrossResources.map selection)).run {} =
        (.ok generation, after) ∧
      generation.experiment.parameters.map (·.name) =
        ["deployment_web_replicas", "deployment_cache_replicas", "statefulset_web_replicas"] ∧
      (generation.experiment.parameters.map (·.name)).Nodup := by
  refine ⟨_, _, by rfl, by rfl, ?_⟩
  exact (names_nodup_iff {} .nan acrossResources {} _ _ (by rfl)).2 (by decide)

/-- The number of replicas of one Deployment in two namespaces. -/
def acrossNamespaces : List Tuned := ["a", "b"].map fun namespaceName =>
  replicas {
    target := {
      apiVersion := "apps/v1", kind := "Deployment", «namespace» := namespaceName, name := "web" }
    path := ["spec", "replicas"] }

/-- These are two fields, yet both parameters have the same name: the namer does not look at
namespaces. -/
theorem names_not_nodup_across_namespaces :
    acrossNamespaces.Pairwise (fun a b =>
      (a.field.target, a.field.path) ≠ (b.field.target, b.field.path)) ∧
    ∃ generation after,
      (Generator.generate {} .nan (acrossNamespaces.map selection)).run {} =
        (.ok generation, after) ∧
      generation.experiment.parameters.map (·.name) = ["replicas", "replicas"] ∧
      ¬ (generation.experiment.parameters.map (·.name)).Nodup := by
  refine ⟨by decide, _, _, by rfl, by rfl, ?_⟩
  intro hnodup
  exact absurd hnodup (by decide)

/-! ## Unique names without separators -/

/-- Two fields ask for the same list entries of what a namer takes for one resource. -/
structure SameEntries (a b : Tuned) : Prop where
  kind : a.field.target.kind = b.field.target.kind
  name : a.field.target.name = b.field.target.name
  values : ∃ values, HasEntryValues a.field.path values ∧ HasEntryValues b.field.path values

/-- A resource with two fields is selected more than once. -/
theorem one_lt_occurrences {a b : Tuned} (hsub : [a, b].Sublist ts)
    (hkind : a.field.target.kind = b.field.target.kind)
    (hname : a.field.target.name = b.field.target.name) :
    1 < occurrences (targets ts) a.field.target := by
  have hle : occurrences (targets [a, b]) a.field.target ≤ occurrences (targets ts) a.field.target :=
    (hsub.map _).countP_le
  have htwo : occurrences (targets [a, b]) a.field.target = 2 := by
    simp [occurrences, targets, hkind, hname]
  omega

theorem words_eq_iff_sameEntries
    (hkinds : ∀ r ∈ targets ts, ∀ r' ∈ targets ts,
      lowercase r.kind.toList = lowercase r'.kind.toList → r.kind = r'.kind)
    (hfree : ∀ t ∈ ts, SeparatorFree t.field.target t.field.path) {a b : Tuned}
    (hsub : [a, b].Sublist ts) : a.words ts = b.words ts ↔ a.SameEntries b := by
  obtain ⟨ha, hb⟩ : a ∈ ts ∧ b ∈ ts := ⟨hsub.mem (by simp), hsub.mem (by simp)⟩
  rw [words, words, leadingWords_eq_iff hkinds (List.mem_map_of_mem ha) (List.mem_map_of_mem hb)
    (hfree a ha) (hfree b hb)]
  constructor
  · rintro ⟨hkind, hname, hvalues⟩
    exact ⟨hkind, hname, hvalues (one_lt_occurrences hsub hkind hname)⟩
  · rintro ⟨hkind, hname, hvalues⟩
    exact ⟨hkind, hname, fun _ => hvalues⟩

/-- Without separators, the names are unique exactly when no two fields that are tuned in the same
way ask for the same list entries of one resource.  Its namespace and its API version make no
difference, nor do the other segments of the paths. -/
theorem nodup_names_iff_pairwise_sameEntries
    (h : (g.generate seconds (ts.map selection)).run counters = (.ok generation, after))
    (hkinds : ∀ r ∈ targets ts, ∀ r' ∈ targets ts,
      lowercase r.kind.toList = lowercase r'.kind.toList → r.kind = r'.kind)
    (hfree : ∀ t ∈ ts, SeparatorFree t.field.target t.field.path) :
    (generation.experiment.parameters.map (·.name)).Nodup ↔
      ts.Pairwise fun a b => a.leaves = b.leaves → ¬ a.SameEntries b := by
  rw [nodup_names_iff_pairwise_disjoint h, List.pairwise_iff_forall_sublist,
    List.pairwise_iff_forall_sublist]
  constructor
  · intro hdisjoint a b hsub hleaves hsame
    exact disjoint_names_iff.1 (hdisjoint hsub) hleaves
      ((words_eq_iff_sameEntries hkinds hfree hsub).2 hsame)
  · intro hentries a b hsub
    refine disjoint_names_iff.2 fun hleaves heq => ?_
    exact hentries hsub hleaves ((words_eq_iff_sameEntries hkinds hfree hsub).1 heq)

end Tuned

end ClusterTuning
