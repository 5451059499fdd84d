import ClusterTuning.Proofs.Patch.Failing
import ClusterTuning.Proofs.Patch.Origins
import ClusterTuning.Proofs.Patch.Rendering
import ClusterTuning.Proofs.Path.Spelling
import ClusterTuning.Proofs.Tuning.Uniqueness

/-!
# What the fields of an experiment set in its patches

Every field that is tuned sets one value in the patch of its resource, at one place or
at two.  The document of a patch is made of what the fields of its target set, in the
order of the fields, and it has all of that if they stay out of each other's way.

* `PatchTemplate.ComesFrom` — the document of a patch;
* `Tuned.settings`, `Tuned.applyAll_of_comesFrom` — what fields set, and the documents
  that this makes;
* `Tuned.bears_settingsFor` — when a document has all that was set.
-/

namespace ClusterTuning

open Yaml TargetedEdit

/-! ## Paths as they are given -/

/-- The texts in a segment stand in the text from which it was read. -/
theorem Segment.infix_of_parse {text : String} {s : Segment} (h : Segment.parse text = .ok s) :
    ∀ part ∈ s.texts, part.toList <:+: text.toList := by
  intro part hpart
  cases Segment.parse_eq_ok_iff.1 h with
  | field _ _ => rw [List.mem_singleton.1 hpart]
  | @keyed key value _ =>
    have htext : ("[" ++ key ++ "=" ++ value ++ "]").toList =
        '[' :: (key.toList ++ '=' :: (value.toList ++ [']'])) := by
      simp [String.toList_append]
    rw [htext]
    rcases List.mem_cons.1 hpart with rfl | hpart
    · exact (List.prefix_append part.toList _).isInfix.trans (List.suffix_cons '[' _).isInfix
    · rw [List.mem_singleton.1 hpart]
      have hvalue : value.toList <:+: '=' :: (value.toList ++ [']']) :=
        (List.prefix_append value.toList _).isInfix.trans (List.suffix_cons '=' _).isInfix
      exact hvalue.trans ((List.suffix_append key.toList _).trans (List.suffix_cons '[' _)).isInfix
  | index _ => exact absurd hpart List.not_mem_nil

theorem Path.exists_of_mem_parse {path : List String} {segments : List Segment}
    (h : Path.parse path = .ok segments) :
    ∀ s ∈ segments, ∀ part ∈ s.texts, ∃ text ∈ path, part.toList <:+: text.toList := by
  intro s hs part hpart
  obtain ⟨text, htext, hparse⟩ := exists_of_mem_mapM h hs
  exact ⟨text, htext, Segment.infix_of_parse hparse part hpart⟩

theorem Path.parse_append_singleton {path : List String} {text : String} {s : Segment}
    (hs : Segment.parse text = .ok s) :
    Path.parse (path ++ [text]) = (Path.parse path).map (· ++ [s]) := by
  rw [Path.parse, Path.parse, List.mapM_append, List.mapM_cons, List.mapM_nil, hs]
  cases path.mapM Segment.parse <;> rfl

theorem Edit.exists_of_ofPath {path : List String} {value : Value} {edit : Edit}
    (h : ofPath path value = .ok edit) :
    ∃ segments, Path.parse path = .ok segments ∧ edit = .set segments value := by
  unfold ofPath at h
  split at h
  · cases h
  · obtain ⟨segments, hread, rfl⟩ := map_eq_ok_iff.1 h
    exact ⟨segments, mapError_eq_ok_iff.1 hread, rfl⟩

/-! ## The documents of patches -/

/-- A patch comes from a document if the edits for its target, applied in turn to an empty mapping,
make this document, and the patch is its text with the tags of integers taken out. -/
def PatchTemplate.ComesFrom (selections : List Selection) (p : PatchTemplate) (document : Value) :
    Prop :=
  ∃ r es, p.target = some r ∧
    Selection.gather (Selection.editList (Namer.ofSelections selections)) selections = .ok es ∧
    Edit.applyAll (.mapping []) (editsFor r es) = (document, .ok ()) ∧
    ∃ written, document.write = .ok written ∧ Placeholder.bareInts written = p.patch

theorem exists_comesFrom {selections : List Selection} {es : List TargetedEdit}
    {patches : List PatchTemplate}
    (hes : Selection.gather (Selection.editList (Namer.ofSelections selections)) selections =
      .ok es)
    (hpatches : ArePatchesOf es patches) :
    ∀ p ∈ patches, ∃ document, p.ComesFrom selections document := by
  intro p hp
  obtain ⟨r, hr⟩ := hpatches.targeted p hp
  obtain ⟨document, written, happly, hwrite, htext⟩ :=
    Edit.render_eq_ok_iff.1 (hpatches.text p hp r hr)
  exact ⟨document, r, es, hr, hes, happly, written, hwrite, htext⟩

/-! ## What a field sets -/

namespace Tuned

/-- The value that a field sets in its patch. -/
def value (namer : Namer) : Tuned → Value
  | replicas f => Placeholder.int (Placeholder.expression (f.replicasName namer))
  | resources f => f.resourceValues namer

/-- The paths at which a field sets its value, as they are given. -/
def givenPaths : Tuned → List (List String)
  | replicas f => [f.path]
  | resources f => [f.path ++ ["limits"], f.path ++ ["requests"]]

/-- The paths at which a field sets its value, as far as they can be read. -/
def paths (t : Tuned) : List (List Segment) :=
  t.givenPaths.filterMap fun path => (Path.parse path).toOption

/-- What a field sets in its patch, and where. -/
def settings (namer : Namer) (t : Tuned) : List Leaf :=
  t.paths.map fun path => (path, t.value namer)

/-- What the fields of one resource set, in the order of the fields. -/
def settingsFor (namer : Namer) (r : Reference) (ts : List Tuned) : List Leaf :=
  (ts.filter fun t => t.field.target = r).flatMap (settings namer)

/-- Two fields stay out of each other's way: they are in different resources, or their paths part
from each other. -/
def Apart (a b : Tuned) : Prop :=
  a.field.target = b.field.target → ∀ p ∈ a.paths, ∀ q ∈ b.paths, Path.diverge p q = true

instance (a b : Tuned) : Decidable (Apart a b) :=
  inferInstanceAs (Decidable (_ → _))

variable {namer : Namer} {t : Tuned} {ts : List Tuned} {r : Reference} {leaf : Leaf}

theorem mem_paths {p : List Segment} :
    p ∈ t.paths ↔ ∃ path ∈ t.givenPaths, Path.parse path = .ok p := by
  simp only [paths, List.mem_filterMap, toOption_eq_some_iff]

theorem mem_settings : leaf ∈ t.settings namer ↔ leaf.1 ∈ t.paths ∧ leaf.2 = t.value namer := by
  obtain ⟨path, v⟩ := leaf
  simp [settings, eq_comm]

theorem mem_settingsFor : leaf ∈ settingsFor namer r ts ↔
    ∃ t ∈ ts, t.field.target = r ∧ leaf ∈ t.settings namer := by
  simp [settingsFor, List.mem_flatMap, and_assoc]

/-! ### The edits of a pass -/

/-- An edit makes the settings of a field. -/
structure Makes (namer : Namer) (t : Tuned) (e : TargetedEdit) : Prop where
  target : e.target = t.field.target
  edit : ∀ v, Edit.apply v e.edit = Edit.applyAll v (Edit.sets (t.settings namer))
  settings : t.settings namer ≠ []

/-- A field whose edit can be made contributes this edit. -/
theorem makes_of_editList {es : List TargetedEdit} (h : t.selection.editList namer = .ok es) :
    ∃ e, es = [e] ∧ Makes namer t e := by
  cases t with
  | replicas f =>
    obtain ⟨edit, hedit, rfl⟩ := map_eq_ok_iff.1 h
    obtain ⟨segments, hparse, rfl⟩ := Edit.exists_of_ofPath hedit
    have hsettings : (replicas f).settings namer = [(segments, (replicas f).value namer)] := by
      rw [settings, paths, givenPaths, List.filterMap_cons, hparse]
      rfl
    refine ⟨_, rfl, rfl, fun v => ?_, ?_⟩
    · rw [hsettings]
      exact (Edit.applyAll_singleton v _).symm
    · rw [hsettings]
      exact List.cons_ne_nil _ _
  | resources f =>
    obtain ⟨edit, hedit, rfl⟩ := map_eq_ok_iff.1 h
    obtain ⟨limits, hlimits, hedit⟩ := bind_eq_ok_iff.1 hedit
    obtain ⟨requests, hrequests, hedit⟩ := bind_eq_ok_iff.1 hedit
    obtain rfl := Except.ok.inj hedit
    obtain ⟨p, hp, rfl⟩ := Edit.exists_of_ofPath hlimits
    obtain ⟨q, hq, rfl⟩ := Edit.exists_of_ofPath hrequests
    have hsettings : (resources f).settings namer =
        [(p, (resources f).value namer), (q, (resources f).value namer)] := by
      rw [settings, paths, givenPaths, List.filterMap_cons, List.filterMap_cons, hp, hq]
      rfl
    refine ⟨_, rfl, rfl, fun v => ?_, ?_⟩
    · rw [hsettings]
      rfl
    · rw [hsettings]
      exact List.cons_ne_nil _ _

/-- The edits of a pass are those of the fields, one each. -/
theorem forall₂_makes {es : List TargetedEdit}
    (h : Selection.gather (Selection.editList namer) (ts.map selection) = .ok es) :
    List.Forall₂ (Makes namer) ts es := by
  obtain ⟨ess, hess, rfl⟩ := map_eq_ok_iff.1 h
  have hall := List.forall₂_map_left_iff.1 (mapM_eq_ok_iff.1 hess)
  clear h hess
  induction hall with
  | nil => exact .nil
  | cons hes _ ih =>
    obtain ⟨e, rfl, he⟩ := makes_of_editList hes
    exact .cons he ih

/-- Each field makes an edit for its resource. -/
theorem exists_makes {es : List TargetedEdit} (h : List.Forall₂ (Makes namer) ts es)
    (ht : t ∈ ts) : ∃ e ∈ es, Makes namer t e := by
  induction h with
  | nil => exact absurd ht List.not_mem_nil
  | @cons t' e ts es he _ ih =>
    rcases List.mem_cons.1 ht with rfl | ht
    · exact ⟨e, List.mem_cons_self, he⟩
    · obtain ⟨e', hmem, he'⟩ := ih ht
      exact ⟨e', List.mem_cons_of_mem e hmem, he'⟩

/-- The edits for one resource make the settings of its fields. -/
theorem applyAll_editsFor {es : List TargetedEdit} (h : List.Forall₂ (Makes namer) ts es)
    (r : Reference) (v : Value) :
    Edit.applyAll v (editsFor r es) = Edit.applyAll v (Edit.sets (settingsFor namer r ts)) := by
  induction h generalizing v with
  | nil => rfl
  | @cons t e ts es he _ ih =>
    by_cases hr : t.field.target = r
    · have hedits : editsFor r (e :: es) = e.edit :: editsFor r es := by
        simp [editsFor, forTarget, he.target, hr]
      have hsettings : settingsFor namer r (t :: ts) =
          t.settings namer ++ settingsFor namer r ts := by
        simp [settingsFor, hr]
      rw [hedits, hsettings, Edit.sets_append, Edit.applyAll_append, Edit.applyAll, he.edit]
      rcases Edit.applyAll v (Edit.sets (t.settings namer)) with ⟨document, _ | _⟩
      · rfl
      · exact ih document
    · have hedits : editsFor r (e :: es) = editsFor r es := by
        simp [editsFor, forTarget, he.target, hr]
      have hsettings : settingsFor namer r (t :: ts) = settingsFor namer r ts := by
        simp [settingsFor, hr]
      rw [hedits, hsettings, ih]

/-- The document of a patch is made of what the fields of its target set. -/
theorem applyAll_of_comesFrom {p : PatchTemplate} {document : Value}
    (h : p.ComesFrom (ts.map selection) document) : ∃ r, p.target = some r ∧
      Edit.applyAll (.mapping []) (Edit.sets (settingsFor
        (Namer.ofSelections (ts.map selection)) r ts)) = (document, .ok ()) := by
  obtain ⟨r, es, hr, hes, happly, -⟩ := h
  exact ⟨r, hr, (applyAll_editsFor (forall₂_makes hes) r _).symm.trans happly⟩

/-! ### Where the settings of a field go -/

/-- The limits and the requests of a container are set at different places. -/
theorem pairwise_paths (t : Tuned) : t.paths.Pairwise fun p q => Path.diverge p q = true := by
  cases t with
  | replicas f =>
    rw [paths, givenPaths, List.filterMap_cons, List.filterMap_nil]
    cases Path.parse f.path with
    | error fault => exact .nil
    | ok p => exact List.pairwise_singleton _ _
  | resources f =>
    have hlimits : Segment.parse "limits" = .ok (.field "limits") := by decide
    have hrequests : Segment.parse "requests" = .ok (.field "requests") := by decide
    rw [paths, givenPaths, List.filterMap_cons, List.filterMap_cons, List.filterMap_nil,
      Path.parse_append_singleton hlimits, Path.parse_append_singleton hrequests]
    cases Path.parse f.path with
    | error fault => exact .nil
    | ok p =>
      refine List.pairwise_pair.2 ?_
      exact (Path.diverge_append_left p _ _).trans (by decide)

theorem pairwise_settingsFor (hapart : ts.Pairwise Apart) :
    (settingsFor namer r ts).Pairwise fun a b => Path.diverge a.1 b.1 = true := by
  refine List.pairwise_flatMap.2 ⟨fun t _ => List.pairwise_map.2 t.pairwise_paths, ?_⟩
  refine List.pairwise_filter.2 (hapart.imp ?_)
  intro a b hab ha hb leaf hleaf leaf' hleaf'
  have hsame : a.field.target = b.field.target :=
    (of_decide_eq_true ha).trans (of_decide_eq_true hb).symm
  exact hab hsame _ (mem_settings.1 hleaf).1 _ (mem_settings.1 hleaf').1

/-- Where no edit overwrites what another one has set, the document for a resource has all that the
fields of the resource set. -/
theorem bears_settingsFor {document : Value} (hapart : ts.Pairwise Apart)
    (hspares : ∀ t ∈ ts, ∀ p ∈ t.paths, Path.SparesKeys p) (hsome : settingsFor namer r ts ≠ [])
    (happly : Edit.applyAll (.mapping []) (Edit.sets (settingsFor namer r ts)) =
      (document, .ok ())) : Bears (settingsFor namer r ts) document := by
  refine Edit.bears_of_applyAll_empty hsome ?_ (pairwise_settingsFor hapart) happly
  intro leaf hleaf
  obtain ⟨t, ht, -, hmem⟩ := mem_settingsFor.1 hleaf
  exact hspares t ht _ (mem_settings.1 hmem).1

end Tuned

end ClusterTuning
