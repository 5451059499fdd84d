import ClusterTuning.Proofs.Generation.Grouping
import ClusterTuning.Proofs.Stream.Annotating
import ClusterTuning.Proofs.Stream.Grouping

/-!
# What is written for an application

The output of a generation has two parts that know nothing of each other.  The
generated part is the experiment and the documents of the selections; merging
may shorten it, but the experiment stays in front, since what is merged onto it
is about the same resource.  The other part is the resources of the application,
each of them annotated.

* `Experiment.isTitled_toValue`, `Generation.isTitled_of_mergeAll` — the first document;
* `Generation.hasDistinctKeys_of_finish` — keys stay distinct in a pass;
* `Generator.applicationResources_eq_ok_iff` — the resources of the application;
* `Generator.documents_eq_generated_append` — the statement for the whole output.
-/

namespace ClusterTuning

open Yaml

/-! ## Experiments in front -/

namespace Fields

/-- A field of an object is found under its name. -/
theorem get?_toValue (fields : Fields) (key : String) :
    fields.toValue.get? key = SortedMap.get? compare key fields := by
  show Mapping.getText? key _ = _
  induction fields with
  | nil => rfl
  | cons field rest ih =>
    rw [List.map_cons, Mapping.getText?_cons, ih, SortedMap.get?]
    by_cases h : key = field.1
    · rw [if_pos (Value.same_string_iff.2 (congrArg Value.string h.symm)),
        if_pos (Std.LawfulEqCmp.compare_eq_iff_eq.2 h)]
    · rw [if_neg, if_neg]
      · exact fun hcompare => h (Std.LawfulEqCmp.eq_of_compare hcompare)
      · exact fun hsame => h (Value.string.inj (Value.same_string_iff.1 hsame)).symm

theorem distinctFields_toValue {fields : Fields} (h : SortedMap.Sorted compare fields) :
    fields.toValue.DistinctFields := by
  intro entries hentries
  obtain rfl := Option.some.inj hentries
  refine List.pairwise_map.2 (h.imp fun {a b} hlt s ha hb => ?_)
  have hab : a.1 = b.1 := (Value.string.inj ha).trans (Value.string.inj hb).symm
  have hself : compare b.1 b.1 = .eq := Std.ReflCmp.compare_self
  rw [hab, hself] at hlt
  exact Ordering.noConfusion hlt

end Fields

/-- A document is titled like an experiment if it has the version, the kind and the name of the
experiment where those of a resource are read. -/
structure Experiment.IsTitled (e : Experiment) (d : Value) : Prop where
  apiVersion : Resource.textField d "apiVersion" = e.apiVersion
  kind : Resource.textField d "kind" = e.kind
  metadata : ∃ m, d.get? "metadata" = some m ∧ m.asMapping?.isSome = true ∧
    Resource.textField m "name" = e.name

namespace Experiment

variable {e : Experiment}

/-- Documents about one resource have the same title. -/
theorem IsTitled.of_isAbout {d d' : Value} {i : Reference} (h : e.IsTitled d)
    (hd : Resource.IsAbout d i) (hd' : Resource.IsAbout d' i) : e.IsTitled d' := by
  obtain ⟨m, hm, -, hname⟩ := h.metadata
  obtain ⟨n, hn, -, -, hnname⟩ := hd.metadata
  obtain ⟨m', hm', hmapping, -, hm'name⟩ := hd'.metadata
  obtain rfl := Option.some.inj (hm.symm.trans hn)
  refine ⟨?_, ?_, m', hm', hmapping, ?_⟩
  · rw [hd'.apiVersion, ← hd.apiVersion, h.apiVersion]
  · rw [hd'.kind, ← hd.kind, h.kind]
  · rw [hm'name, ← hnname, hname]

theorem get?_metadata_toValue (e : Experiment) :
    e.toValue.get? "metadata" = some e.metadata.toValue :=
  rfl

/-- An experiment that was given a name is written with its title. -/
theorem isTitled_toValue (h : e.metadata.name = some e.name) : e.IsTitled e.toValue := by
  refine ⟨rfl, rfl, e.metadata.toValue, rfl, rfl, ?_⟩
  rw [Resource.textField, ObjectMeta.toValue, h, Fields.get?_toValue]
  show ((SortedMap.get? compare "name" (SortedMap.insert compare "name" _ _)).bind _).getD "" = _
  rw [SortedMap.get?_insert, if_pos rfl]
  rfl

theorem distinctFields_toValue (e : Experiment) : e.toValue.DistinctFields := by
  intro entries hentries
  obtain rfl := Option.some.inj hentries
  simp [Mapping.DistinctTexts, textField]

theorem distinctFields_metadata (h : SortedMap.Sorted compare e.metadata.details) :
    e.metadata.toValue.DistinctFields := by
  refine Fields.distinctFields_toValue ?_
  unfold Fields.insert?
  split
  · exact SortedMap.sorted_alter h
  · exact h

end Experiment

/-! ## The generated part -/

namespace Resource

/-- The first document of a merged stream is made of all documents about the resource that the
first document of the stream is about. -/
theorem exists_cons_of_mergeAll {d : Value} {ds merged : List Value}
    (h : mergeAll (d :: ds) = .ok merged) :
    ∃ i first rest, merged = first :: rest ∧ identity d = .ok i ∧
      mergeList (documentsOf i (d :: ds)) = some first := by
  obtain ⟨entries, hentries, rfl⟩ := mergeAll_eq_ok_iff.1 h
  obtain ⟨hdocuments, hidentities⟩ := identify_eq_ok_iff.1 hentries
  have hmap := map_some_collectAll hentries
  cases entries with
  | nil => exact nomatch hdocuments
  | cons e es =>
    obtain ⟨rfl, -⟩ := List.cons.inj hdocuments
    rw [List.map_cons, List.eraseDups_cons, List.map_cons] at hmap
    obtain ⟨first, rest, hmerged, hfirst, -⟩ := List.map_eq_cons_iff.1 hmap
    exact ⟨e.1, first, rest, hmerged, hidentities e List.mem_cons_self, hfirst.symm⟩

end Resource

/-- A selection keeps the metadata of an experiment in order, and no document of it has a key
twice. -/
structure Selection.KeepsKeys (s : Selection) : Prop where
  metadata : ∀ before after, s.update before = .ok after →
    SortedMap.Sorted compare before.metadata.details →
      SortedMap.Sorted compare after.metadata.details
  documents : ∀ ds, s.documentList = .ok ds → ∀ d ∈ ds, d.hasDistinctKeys = true

/-- One that leaves the metadata alone and has no documents does. -/
theorem Selection.keepsKeys_of_metadata_eq {s : Selection} (hdocuments : s.documents = none)
    (h : ∀ before after, s.update before = .ok after → after.metadata = before.metadata) :
    s.KeepsKeys := by
  constructor
  · intro before after hupdate hbefore
    rwa [h before after hupdate]
  · intro ds hds d hd
    rw [documentList, hdocuments] at hds
    obtain rfl := Except.ok.inj hds
    exact absurd hd List.not_mem_nil

/-- A scenario changes the trial only. -/
theorem CustomScenario.keepsKeys (s : CustomScenario) (objectives : List Objective) :
    (s.selection objectives).KeepsKeys := by
  refine Selection.keepsKeys_of_metadata_eq rfl fun before after hupdate => ?_
  obtain rfl := Except.ok.inj hupdate
  rw [s.apply_eq before]

theorem Application.keepsKeys_of_mem_selections {a : Application} {builtIn : Bool} {s : Selection}
    (h : s ∈ a.selections builtIn) : s.KeepsKeys := by
  simp only [selections, List.mem_append, List.mem_map] at h
  rcases h with (⟨custom, -, rfl⟩ | ⟨o, -, rfl⟩) | h
  · exact custom.keepsKeys _
  · exact Selection.keepsKeys_of_metadata_eq rfl fun _ _ h => (Except.ok.inj h) ▸ rfl
  · obtain rfl := List.mem_singleton.1 (List.mem_ite_nil_right.1 h).2
    exact Selection.keepsKeys_of_metadata_eq rfl fun _ _ h => (Except.ok.inj h) ▸ rfl

namespace Generation

open Resource

/-- The generated documents as they stand before any of them are merged. -/
def stream (g : Generation) : List Value :=
  g.experiment.toValue :: g.documents

/-- No field of the metadata of the experiment and no key of a document is there twice. -/
structure HasDistinctKeys (g : Generation) : Prop where
  metadata : SortedMap.Sorted compare g.experiment.metadata.details
  documents : ∀ d ∈ g.documents, d.hasDistinctKeys = true

variable {g : Generation} {merged : List Value}

/-- Whatever is merged onto the experiment, its title stays. -/
theorem isTitled_of_mergeAll (hname : g.experiment.metadata.name = some g.experiment.name)
    (hkeys : g.HasDistinctKeys) (h : mergeAll g.stream = .ok merged) :
    ∃ first rest, merged = first :: rest ∧ g.experiment.IsTitled first := by
  obtain ⟨i, first, rest, rfl, hidentity, hfirst⟩ := exists_cons_of_mergeAll h
  have hexperiment : Describes i g.experiment.toValue := by
    refine ⟨hidentity, g.experiment.distinctFields_toValue, ?_⟩
    intro m hm
    obtain rfl := Option.some.inj (g.experiment.get?_metadata_toValue.symm.trans hm)
    exact Experiment.distinctFields_metadata hkeys.metadata
  have hdescribes : ∀ d ∈ documentsOf i g.stream, Describes i d := by
    intro d hd
    obtain ⟨hmem, hd⟩ := mem_documentsOf.1 hd
    rcases List.mem_cons.1 hmem with rfl | hmem
    · exact hexperiment
    · exact describes_of_hasDistinctKeys (hkeys.documents d hmem) hd
  -- the first document has the identity of the experiment, of which the title is a part
  have hmerged := (describes_of_mergeList hdescribes hfirst).identity
  exact ⟨first, rest, rfl, (Experiment.isTitled_toValue hname).of_isAbout
    (identity_eq_ok_iff_isAbout.1 hidentity) (identity_eq_ok_iff_isAbout.1 hmerged)⟩

/-- The generated documents as they are written, merged or not. -/
def output (merge : Bool) (g : Generation) : List Value :=
  if merge then
    match mergeAll g.stream with
    | .ok merged => merged
    | .error _ => g.stream
  else g.stream

/-- What the generated documents of an output are: the stream merged, if that is asked for and all
of its documents describe resources, and otherwise the stream; in any case the experiment comes
first. -/
structure IsOutput (merge : Bool) (g : Generation) (documents : List Value) : Prop where
  merged : merge = true → (∀ d ∈ g.stream, ∃ i, IsAbout d i) → mergeAll g.stream = .ok documents
  kept : (merge = true → ∃ d ∈ g.stream, ∀ i, ¬ IsAbout d i) → documents = g.stream
  first : (merge = true → g.HasDistinctKeys) →
    ∃ first rest, documents = first :: rest ∧ g.experiment.IsTitled first

theorem isOutput_output (merge : Bool)
    (hname : g.experiment.metadata.name = some g.experiment.name) :
    g.IsOutput merge (g.output merge) := by
  have htitle := Experiment.isTitled_toValue hname
  unfold output
  cases merge with
  | false => exact ⟨nofun, fun _ => rfl, fun _ => ⟨_, _, rfl, htitle⟩⟩
  | true =>
    rw [if_pos rfl]
    cases hmerge : mergeAll g.stream with
    | ok merged =>
      have hall := exists_mergeAll_iff.1 ⟨merged, hmerge⟩
      refine ⟨fun _ _ => hmerge, ?_, fun hkeys => isTitled_of_mergeAll hname (hkeys rfl) hmerge⟩
      intro hnone
      obtain ⟨d, hd, hnot⟩ := hnone rfl
      obtain ⟨i, hi⟩ := hall d hd
      exact absurd hi (hnot i)
    | error e =>
      refine ⟨?_, fun _ => rfl, fun _ => ⟨_, _, rfl, htitle⟩⟩
      intro _ hall
      obtain ⟨merged, hmerged⟩ := exists_mergeAll_iff.2 hall
      exact nomatch hmerge.symm.trans hmerged

/-- The keys stay distinct in a whole pass. -/
theorem hasDistinctKeys_of_finish {defaultName : String} {namer : Namer} {ss : List Selection}
    {c : Collected} (hs : ∀ s ∈ ss, s.KeepsKeys) (hfold : ss.foldlM (absorb namer) {} = .ok c)
    (hfinish : finish defaultName c = .ok g) : g.HasDistinctKeys := by
  obtain ⟨hmetadata, hdocuments⟩ : SortedMap.Sorted compare c.experiment.metadata.details ∧
      ∀ d ∈ c.documents, d.hasDistinctKeys = true := by
    refine foldlM_induction (P := fun passed c => (∀ s ∈ passed, s.KeepsKeys) →
      SortedMap.Sorted compare c.experiment.metadata.details ∧
        ∀ d ∈ c.documents, d.hasDistinctKeys = true) ?_ ?_ hfold hs
    · intro _
      exact ⟨List.Pairwise.nil, fun d hd => absurd hd List.not_mem_nil⟩
    · intro passed s c c' ih habsorb hs
      obtain ⟨experiment, parameters, es, patches, metrics, documents, he, -, -, -, -, hd,
        rfl⟩ := absorb_eq_ok_iff.1 habsorb
      obtain ⟨hmetadata, hdocuments⟩ := ih fun t ht => hs t (List.mem_append_left _ ht)
      have hlast : s.KeepsKeys := hs s (by simp)
      exact ⟨hlast.metadata c.experiment experiment he hmetadata,
        List.forall_mem_append.2 ⟨hdocuments, hlast.documents _ hd⟩⟩
  obtain ⟨ps, -, hg⟩ := bind_eq_ok_iff.1 hfinish
  obtain rfl := Except.ok.inj hg
  rw [nameIfNone_eq]
  exact ⟨hmetadata, hdocuments⟩

/-- A finished generation has an experiment with a name. -/
theorem named_of_finish {defaultName : String} {c : Collected}
    (h : finish defaultName c = .ok g) : g.experiment.metadata.name = some g.experiment.name := by
  obtain ⟨ps, -, hg⟩ := bind_eq_ok_iff.1 h
  obtain rfl := Except.ok.inj hg
  rw [nameIfNone_eq]
  rfl

end Generation

/-! ## The resources of the application -/

namespace Generator

open Generation

variable {g : Generator} {scanned application : List Value}

/-- What stands for scanned documents in the output: each of them annotated, in their order, or
nothing at all. -/
def IsApplication (g : Generator) (scanned application : List Value) : Prop :=
  if g.includeApplicationResources then
    List.Forall₂ (fun d r => Resource.annotated d = .ok r) scanned application
  else application = []

theorem applicationResources_eq_ok_iff :
    g.applicationResources scanned = .ok application ↔ g.IsApplication scanned application := by
  unfold applicationResources IsApplication
  split
  · rw [← Resource.annotateAll_eq_ok_iff]
    cases Resource.annotateAll scanned with
    | mk results outcome => cases outcome <;> simp
  · rw [Except.ok.injEq, eq_comm]

theorem exists_applicationResources_iff :
    (∃ application, g.applicationResources scanned = .ok application) ↔
      (g.includeApplicationResources = true →
        ∀ d ∈ scanned, ∃ r, Resource.annotated d = .ok r) := by
  simp only [applicationResources_eq_ok_iff, IsApplication]
  split
  · next hinclude => rw [exists_forall₂_iff, imp_iff_right hinclude]
  · next hinclude => simp [hinclude]

/-! ## The whole output -/

/-- The generated part of an output, which depends on the selections, the name and the merge
only. -/
def generated (defaultName : String) (merge : Bool) (selections : List Selection) :
    Except Failure (List Value) :=
  (selections.foldlM (absorb (Namer.ofSelections selections)) {} >>= finish defaultName).map
    (output merge)

theorem gives_mergeIfAsked (g : Generator) (generation : Generation) :
    Gives (g.mergeIfAsked generation.stream) (.ok (generation.output g.mergeGenerated)) := by
  intro counters
  unfold mergeIfAsked output
  split
  · cases Resource.mergeAll generation.stream <;> rfl
  · rfl

theorem gives_documents (g : Generator) (seconds : Binary64) (scanned : List Value)
    (selections : List Selection) :
    Gives (g.documents seconds scanned selections) (do
      let generation ←
        selections.foldlM (absorb (Namer.ofSelections selections)) {} >>= finish g.defaultName
      let application ← g.applicationResources scanned
      return generation.output g.mergeGenerated ++ application) :=
  (gives_generate g seconds selections).bind fun generation =>
    (gives_mergeIfAsked g generation).bind fun _ =>
      (gives_mk (g.applicationResources scanned)).bind fun _ => gives_pure _

/-- An output is what is generated and then what is passed on. -/
theorem documents_eq_ok_iff {seconds : Binary64} {selections : List Selection}
    {counters : Counters} {documents : List Value} :
    ((g.documents seconds scanned selections).run counters).1 = .ok documents ↔
      ∃ generation application,
        ((g.generate seconds selections).run counters).1 = .ok generation ∧
        g.applicationResources scanned = .ok application ∧
        generation.output g.mergeGenerated ++ application = documents := by
  rw [gives_documents g seconds scanned selections counters,
    gives_generate g seconds selections counters, bind_eq_ok_iff]
  constructor
  · rintro ⟨generation, hgeneration, h⟩
    obtain ⟨application, happlication, hdocuments⟩ := bind_eq_ok_iff.1 h
    exact ⟨generation, application, hgeneration, happlication, Except.ok.inj hdocuments⟩
  · rintro ⟨generation, application, hgeneration, happlication, rfl⟩
    exact ⟨generation, hgeneration, bind_eq_ok_iff.2 ⟨application, happlication, rfl⟩⟩

theorem exists_documents_iff {seconds : Binary64} {selections : List Selection}
    {counters : Counters} :
    (∃ documents, ((g.documents seconds scanned selections).run counters).1 = .ok documents) ↔
      (∃ generation, ((g.generate seconds selections).run counters).1 = .ok generation) ∧
        (g.includeApplicationResources = true →
          ∀ d ∈ scanned, ∃ r, Resource.annotated d = .ok r) := by
  rw [← exists_applicationResources_iff]
  simp only [documents_eq_ok_iff]
  constructor
  · rintro ⟨documents, generation, application, hgeneration, happlication, -⟩
    exact ⟨⟨generation, hgeneration⟩, application, happlication⟩
  · rintro ⟨⟨generation, hgeneration⟩, application, happlication⟩
    exact ⟨_, generation, application, hgeneration, happlication, rfl⟩

/-- **The shape of an output.**  There is one exactly if the generation goes through and, where the
resources of the application are asked for, each of them can be annotated; the merge has no say in
this.  It is the generated part, which does not depend on the scanned documents, followed by the
resources of the application. -/
theorem documents_eq_generated_append (g : Generator) (seconds : Binary64) (scanned : List Value)
    (selections : List Selection) (counters : Counters) :
    ((∃ documents, ((g.documents seconds scanned selections).run counters).1 = .ok documents) ↔
      (∃ generation, ((g.generate seconds selections).run counters).1 = .ok generation) ∧
        (g.includeApplicationResources = true →
          ∀ d ∈ scanned, ∃ r, Resource.annotated d = .ok r)) ∧
    (∀ merge, (∃ documents,
        (({ g with mergeGenerated := merge }.documents seconds scanned selections).run counters).1 =
          .ok documents) ↔
      ∃ documents, ((g.documents seconds scanned selections).run counters).1 = .ok documents) ∧
    ∀ documents, ((g.documents seconds scanned selections).run counters).1 = .ok documents →
      ∃ generation output application,
        ((g.generate seconds selections).run counters).1 = .ok generation ∧
        generated g.defaultName g.mergeGenerated selections = .ok output ∧
        generation.IsOutput g.mergeGenerated output ∧
        g.IsApplication scanned application ∧
        documents = output ++ application := by
  refine ⟨exists_documents_iff, ?_, ?_⟩
  · intro merge
    -- a generation does not see whether its documents are merged
    rw [exists_documents_iff, exists_documents_iff]
    exact Iff.rfl
  · intro documents h
    obtain ⟨generation, application, hgeneration, happlication, rfl⟩ := documents_eq_ok_iff.1 h
    have hrun := hgeneration
    rw [gives_generate g seconds selections counters] at hrun
    obtain ⟨c, -, hfinish⟩ := bind_eq_ok_iff.1 hrun
    exact ⟨generation, _, application, hgeneration, map_eq_ok_iff.2 ⟨generation, hrun, rfl⟩,
      isOutput_output g.mergeGenerated (named_of_finish hfinish),
      applicationResources_eq_ok_iff.1 happlication, rfl⟩

/-- A document about the experiment itself, which is under a tag and has no specification. -/
def sampleTitle : Value :=
  .tagged "!bare" (.record [
    some ("apiVersion", .string "redskyops.dev/v1beta1"),
    some ("kind", .string "Experiment"),
    some ("metadata", .record [some ("name", .string "experiment"), some ("labels", .null)])])

/-- The tagged document replaces the experiment and keeps its title. -/
theorem documents_eq_generated_append_sample :
    let g : Generator := { mergeGenerated := true, includeApplicationResources := true }
    let selections : List Selection :=
      [{ documents := some (.ok [Resource.sampleDocument "a" none [], sampleTitle]) }]
    let scanned := [Resource.sampleDocument "b" (some .null) []]
    ∃ documents generation output application,
      ((g.documents .nan scanned selections).run {}).1 = .ok documents ∧
      ((g.generate .nan selections).run {}).1 = .ok generation ∧ generation.HasDistinctKeys ∧
      generated "experiment" true selections = .ok output ∧
      (∃ first rest, output = first :: rest ∧ generation.experiment.IsTitled first) ∧
      List.Forall₂ (fun d r => Resource.annotated d = .ok r) scanned application ∧
      documents = output ++ application ∧ documents.length = 3 := by
  intro g selections scanned
  have hselections : ∀ s ∈ selections, s.KeepsKeys := by
    rw [List.forall_mem_singleton]
    constructor
    · intro before after hupdate hbefore
      obtain rfl := Except.ok.inj hupdate
      exact hbefore
    · intro ds hds
      obtain rfl := Except.ok.inj hds
      decide
  obtain ⟨generation, output, application, hgeneration, hgenerated, houtput, happlication,
    hdocuments⟩ := (documents_eq_generated_append g .nan scanned selections {}).2.2 _ (by rfl)
  obtain ⟨c, hfold, hfinish⟩ := generate_eq_ok_iff.1 hgeneration
  have hkeys := hasDistinctKeys_of_finish hselections hfold hfinish
  exact ⟨_, generation, output, application, by rfl, hgeneration, hkeys, hgenerated,
    houtput.first fun _ => hkeys, happlication, hdocuments, by rfl⟩

end Generator

end ClusterTuning
