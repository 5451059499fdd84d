import ClusterTuning.Proofs.Tuning.Settings

/-!
# Parameters and patches agree

A field that is tuned declares parameters on the one hand and sets placeholders for
them in a patch on the other, and both sides compute the names on their own.  In the
documents of all patches together, every placeholder stands for a parameter that is
declared; and every parameter has its placeholder, unless an edit overwrites what
another one has set.

* `Placeholder.StandsFor` — the values that a parameter fills in;
* `Tuned.through_document` — every placeholder stands for a parameter;
* `Tuned.declared_and_used` — the agreement.
-/

namespace ClusterTuning

open Yaml

/-! ## Placeholders as values -/

namespace Placeholder

/-- A value that a parameter fills in as a whole: a whole number, or a quantity in thousandths or in
mebibytes. -/
def StandsFor (parameter : String) (v : Value) : Prop :=
  v = int (expression parameter) ∨ v = .string (expression parameter ++ "m") ∨
    v = .string (expression parameter ++ "Mi")

/-- What follows the expressions of placeholders. -/
def units : List String :=
  ["", "m", "Mi"]

/-- An expression with its unit tells the parameter. -/
theorem expression_append_inj {a b u v : String} (hu : u ∈ units) (hv : v ∈ units)
    (h : expression a ++ u = expression b ++ v) : a = b ∧ u = v := by
  have hends : ∀ u ∈ units, ∀ v ∈ units,
      (" \x7d\x7d".toList ++ u.toList).getLast? = (" \x7d\x7d".toList ++ v.toList).getLast? →
        u = v := by decide
  have hchars := congrArg String.toList h
  simp only [expression, String.toList_append, List.append_assoc] at hchars
  have hnames := List.append_cancel_left hchars
  have hsome : ∀ u : String, " \x7d\x7d".toList ++ u.toList ≠ [] := fun u => by simp
  have hlast := congrArg List.getLast? hnames
  rw [List.getLast?_append_of_ne_nil _ (hsome u),
    List.getLast?_append_of_ne_nil _ (hsome v)] at hlast
  obtain rfl := hends u hu v hv hlast
  exact ⟨String.toList_inj.1 (List.append_cancel_right hnames), rfl⟩

theorem standsFor_int_iff {name parameter : String} :
    StandsFor name (int (expression parameter)) ↔ name = parameter := by
  constructor
  · rintro (h | h | h)
    · have hexpression := Value.string.inj (Value.tagged.inj h).2
      refine (expression_append_inj (u := "") (v := "") (by decide) (by decide) ?_).1.symm
      rw [hexpression]
    · cases h
    · cases h
  · rintro rfl
    exact .inl rfl

theorem standsFor_string_iff {name parameter u : String} (hu : u ∈ units) :
    StandsFor name (.string (expression parameter ++ u)) ↔ name = parameter ∧ u ≠ "" := by
  constructor
  · rintro (h | h | h)
    · cases h
    · obtain ⟨rfl, rfl⟩ := expression_append_inj hu (by decide) (Value.string.inj h)
      exact ⟨rfl, by decide⟩
    · obtain ⟨rfl, rfl⟩ := expression_append_inj hu (by decide) (Value.string.inj h)
      exact ⟨rfl, by decide⟩
  · rintro ⟨rfl, hsome⟩
    have hunits : ∀ u ∈ units, u ≠ "" → u = "m" ∨ u = "Mi" := by decide
    rcases hunits u hu hsome with rfl | rfl
    · exact .inr (.inl rfl)
    · exact .inr (.inr rfl)

/-- A text without braces is no placeholder. -/
theorem not_standsFor_of_free {name text : String} (h : ¬ ['\x7b', '\x7b'] <:+: text.toList) :
    ¬ StandsFor name (.string text) := by
  have hbraces : ∀ u : String, ['\x7b', '\x7b'] <:+: (expression name ++ u).toList := by
    intro u
    have hfront : ['\x7b', '\x7b'] <+: "\x7b\x7b .Values.".toList := by decide
    simp only [expression, String.toList_append, List.append_assoc]
    exact hfront.isInfix.trans (List.prefix_append _ _).isInfix
  rintro (heq | heq | heq)
  · cases heq
  · exact h (Value.string.inj heq ▸ hbraces "m")
  · exact h (Value.string.inj heq ▸ hbraces "Mi")

end Placeholder

namespace Tuned

open Placeholder

variable {namer : Namer} {t : Tuned} {ts : List Tuned} {r : Reference}

/-! ## Placeholders in the value that a field sets -/

/-- The names of the parameters of a field are those for which its value has placeholders. -/
theorem exists_standsFor_iff {name : String} :
    (∃ v ∈ (t.value namer).subvalues, StandsFor name v) ↔ name ∈ t.names namer := by
  cases t with
  | replicas f =>
    have hvalues : ((replicas f).value namer).subvalues =
        [int (expression (f.replicasName namer)),
          .string (expression (f.replicasName namer) ++ "")] := by
      rw [String.append_empty]
      rfl
    have hnames : (replicas f).names namer = [f.replicasName namer] := rfl
    have hplain : ¬ StandsFor name
        (.string (expression (f.replicasName namer) ++ "")) :=
      fun h => ((standsFor_string_iff (by decide)).1 h).2 rfl
    simp only [hvalues, hnames, List.mem_cons, List.not_mem_nil, or_false, exists_eq_or_imp,
      exists_eq_left, hplain, standsFor_int_iff]
  | resources f =>
    have hvalues : ((resources f).value namer).subvalues = [f.resourceValues namer,
        .string "cpu", .string (expression (f.resourceName namer "cpu") ++ "m"),
        .string "memory",
        .string (expression (f.resourceName namer "memory") ++ "Mi")] := rfl
    have hnames : (resources f).names namer =
        [f.resourceName namer "cpu", f.resourceName namer "memory"] := rfl
    have hmapping : ¬ StandsFor name (f.resourceValues namer) := by
      rintro (h | h | h) <;> cases h
    have hcpu : ¬ StandsFor name (.string "cpu") :=
      not_standsFor_of_free (by decide)
    have hmemory : ¬ StandsFor name (.string "memory") :=
      not_standsFor_of_free (by decide)
    have hunit : ∀ parameter, ∀ u ∈ ["m", "Mi"], StandsFor name
        (.string (expression parameter ++ u)) ↔ name = parameter := by
      intro parameter u hu
      have hsome : u ∈ units ∧ u ≠ "" := by
        revert u
        decide
      exact (standsFor_string_iff hsome.1).trans (and_iff_left hsome.2)
    simp only [hvalues, hnames, List.mem_cons, List.not_mem_nil, or_false, exists_eq_or_imp,
      exists_eq_left, hmapping, hcpu, hmemory, false_or, hunit _ "m" (by decide),
      hunit _ "Mi" (by decide)]

/-- What a placeholder of the fields says: the parameter for which it stands is declared. -/
def Declared (namer : Namer) (ts : List Tuned) (v : Value) : Prop :=
  ∀ name, StandsFor name v → name ∈ ts.flatMap (names namer)

theorem aboutScalars_declared (namer : Namer) (ts : List Tuned) :
    Value.AboutScalars (Declared namer ts) where
  null name h := by rcases h with h | h | h <;> cases h
  sequence items name h := by rcases h with h | h | h <;> cases h
  mapping entries name h := by rcases h with h | h | h <;> cases h

theorem through_value (ht : t ∈ ts) : Value.Through (Declared namer ts) (t.value namer) :=
  fun v hv _ hname => List.mem_flatMap.2 ⟨t, ht, exists_standsFor_iff.1 ⟨v, hv, hname⟩⟩

/-- The segments of the paths of a field, as they are given, have no braces if those of its own path
have none. -/
theorem free_of_mem_givenPaths (ht : ∀ text ∈ t.field.path, ¬ ['\x7b', '\x7b'] <:+: text.toList)
    {path : List String} (hpath : path ∈ t.givenPaths) :
    ∀ text ∈ path, ¬ ['\x7b', '\x7b'] <:+: text.toList := by
  have hends : ∀ text ∈ ["limits", "requests"], ¬ ['\x7b', '\x7b'] <:+: text.toList := by decide
  cases t with
  | replicas f =>
    obtain rfl := List.mem_singleton.1 hpath
    exact ht
  | resources f =>
    have happend : ∀ last ∈ ["limits", "requests"], ∀ text ∈ f.path ++ [last],
        ¬ ['\x7b', '\x7b'] <:+: text.toList := fun last hlast =>
      List.forall_mem_append.2 ⟨ht, List.forall_mem_singleton.2 (hends last hlast)⟩
    obtain ⟨last, hlast, rfl⟩ : ∃ last ∈ ["limits", "requests"], path = f.path ++ [last] := by
      simpa [givenPaths] using hpath
    exact happend last hlast

/-- Every placeholder in the document for a resource stands for a parameter that is declared. -/
theorem through_document (hpaths : ∀ t ∈ ts, ∀ text ∈ t.field.path,
      ¬ ['\x7b', '\x7b'] <:+: text.toList) :
    Value.Through (Declared namer ts)
      (Edit.applyAll (.mapping []) (Edit.sets (settingsFor namer r ts))).1 := by
  have hdeclared := aboutScalars_declared namer ts
  refine Edit.applyAll_brings hdeclared (hdeclared.through_mapping.2 (List.forall_mem_nil _)) ?_
  intro leaf hleaf
  obtain ⟨t, ht, -, hmem⟩ := mem_settingsFor.1 hleaf
  obtain ⟨hleaf, hvalue⟩ := mem_settings.1 hmem
  obtain ⟨path, hpath, hparse⟩ := mem_paths.1 hleaf
  refine ⟨hvalue ▸ through_value ht, fun s hs part hpart name hname => ?_⟩
  obtain ⟨text, htext, hinfix⟩ := Path.exists_of_mem_parse hparse s hs part hpart
  have hfree := free_of_mem_givenPaths (hpaths t ht) hpath text htext
  exact absurd hname (not_standsFor_of_free fun h => hfree (h.trans hinfix))

/-! ## The agreement -/

/-- **Parameters and patches agree.**  After a generation for fields in whose paths there are no
double braces, every patch comes from a document; whatever in this document is a placeholder stands
for a parameter of the experiment; and if the paths of the fields of each resource part from each
other and spare the keys of lists, every parameter has a placeholder in one of these documents. -/
theorem declared_and_used (g : Generator) (seconds : Binary64) (ts : List Tuned)
    (counters after : Counters) (generation : Generation)
    (hpaths : ∀ t ∈ ts, ∀ text ∈ t.field.path, ¬ ['\x7b', '\x7b'] <:+: text.toList)
    (h : (g.generate seconds (ts.map selection)).run counters = (.ok generation, after)) :
    (∀ p ∈ generation.experiment.patches, ∃ document, p.ComesFrom (ts.map selection) document) ∧
    (∀ p ∈ generation.experiment.patches, ∀ document, p.ComesFrom (ts.map selection) document →
      ∀ v ∈ document.subvalues, ∀ name, StandsFor name v →
        name ∈ generation.experiment.parameters.map (·.name)) ∧
    (ts.Pairwise Apart → (∀ t ∈ ts, ∀ p ∈ t.paths, Path.SparesKeys p) →
      ∀ name ∈ generation.experiment.parameters.map (·.name),
        ∃ p ∈ generation.experiment.patches, ∃ document, p.ComesFrom (ts.map selection) document ∧
          ∃ v ∈ document.subvalues, StandsFor name v) := by
  have hgroup := isGrouping h
  obtain ⟨es, hes, hpatches⟩ := hgroup.patches
  rw [map_name_gather hgroup.parameters]
  have hdocuments := exists_comesFrom hes hpatches
  refine ⟨hdocuments, fun p _ document hdocument v hv name hname => ?_,
    fun hapart hspares name hname => ?_⟩
  · obtain ⟨r, -, happly⟩ := applyAll_of_comesFrom hdocument
    have hdeclared : Value.Through (Declared _ ts) document :=
      congrArg Prod.fst happly ▸ through_document hpaths
    exact hdeclared v hv name hname
  · obtain ⟨t, ht, hname⟩ := List.mem_flatMap.1 hname
    obtain ⟨v, hv, hstands⟩ := exists_standsFor_iff.2 hname
    obtain ⟨e, he, hmakes⟩ := exists_makes (forall₂_makes hes) ht
    obtain ⟨p, hp, hr⟩ := (hpatches.target_iff t.field.target).2 ⟨e, he, hmakes.target⟩
    obtain ⟨document, hdocument⟩ := hdocuments p hp
    obtain ⟨r, hr', happly⟩ := applyAll_of_comesFrom hdocument
    obtain rfl : t.field.target = r := Option.some.inj (hr.symm.trans hr')
    -- what the field sets is a leaf of the document
    obtain ⟨leaf, hleaf⟩ := List.exists_mem_of_ne_nil _ hmakes.settings
    have hmem := mem_settingsFor.2 ⟨t, ht, rfl, hleaf⟩
    have hbears := bears_settingsFor hapart hspares (List.ne_nil_of_mem hmem) happly
    have hvalue := (mem_settings.1 hleaf).2
    exact ⟨p, hp, document, hdocument, v, hbears.subvalues_subset hmem (hvalue ▸ hv), hstands⟩

/-- The replicas and two containers of a Deployment, and the replicas of a StatefulSet. -/
def sampleFields : List Tuned :=
  let web : Reference := { apiVersion := "apps/v1", kind := "Deployment", name := "web" }
  let containers := ["spec", "template", "spec", "containers"]
  [replicas { target := web, path := ["spec", "replicas"] },
    resources { target := web, path := containers ++ ["[name=app]", "resources"] },
    resources { target := web, path := containers ++ ["[name=log]", "resources"] },
    replicas {
      target := { apiVersion := "apps/v1", kind := "StatefulSet", name := "db" }
      path := ["spec", "replicas"] }]

theorem sparesKeys_sampleFields : ∀ t ∈ sampleFields, ∀ p ∈ t.paths, Path.SparesKeys p := by
  have hends : ∀ p ∈ sampleFields.flatMap paths, ∃ name ∈ ["replicas", "limits", "requests"],
      p = p.dropLast ++ [.field name] ∧
        p.dropLast.getLast? ∈ [some (.field "spec"), some (.field "resources")] := by decide
  intro t ht p hp
  obtain ⟨name, -, hlast, hfront⟩ := hends p (List.mem_flatMap.2 ⟨t, ht, hp⟩)
  rw [hlast]
  refine Path.sparesKeys_of_ends fun label heq => ?_
  rw [heq] at hfront
  simp at hfront

theorem declared_and_used_sample :
    (∀ t ∈ sampleFields, ∀ text ∈ t.field.path, ¬ ['\x7b', '\x7b'] <:+: text.toList) ∧
    sampleFields.Pairwise Apart ∧ (∀ t ∈ sampleFields, ∀ p ∈ t.paths, Path.SparesKeys p) ∧
    ∃ generation after,
      (Generator.generate {} .nan (sampleFields.map selection)).run {} = (.ok generation, after) ∧
      generation.experiment.parameters.map (·.name) =
        ["deployment_replicas", "deployment_app_cpu", "deployment_app_memory",
          "deployment_log_cpu", "deployment_log_memory", "statefulset_replicas"] ∧
      (∀ p ∈ generation.experiment.patches, ∀ document,
        p.ComesFrom (sampleFields.map selection) document → ∀ v ∈ document.subvalues, ∀ name,
          StandsFor name v →
            name ∈ generation.experiment.parameters.map (·.name)) ∧
      ∀ name ∈ generation.experiment.parameters.map (·.name),
        ∃ p ∈ generation.experiment.patches, ∃ document,
          p.ComesFrom (sampleFields.map selection) document ∧
            ∃ v ∈ document.subvalues, StandsFor name v := by
  have hpaths : ∀ t ∈ sampleFields, ∀ text ∈ t.field.path,
      ¬ ['\x7b', '\x7b'] <:+: text.toList := by decide
  have hapart : sampleFields.Pairwise Apart := by decide
  have hnames : (((Generator.generate {} .nan (sampleFields.map selection)).run {}).1.toOption.map
      fun generation => generation.experiment.parameters.map (·.name)) =
        some ["deployment_replicas", "deployment_app_cpu", "deployment_app_memory",
          "deployment_log_cpu", "deployment_log_memory", "statefulset_replicas"] := by
    decide +kernel
  generalize hrun : (Generator.generate {} .nan (sampleFields.map selection)).run {} = pass
    at hnames ⊢
  obtain ⟨result, after⟩ := pass
  obtain ⟨generation, hgeneration, hparameters⟩ := Option.map_eq_some_iff.1 hnames
  obtain rfl := toOption_eq_some_iff.1 hgeneration
  obtain ⟨-, hdeclared, hused⟩ := declared_and_used {} .nan sampleFields {} after generation hpaths
    hrun
  exact ⟨hpaths, hapart, sparesKeys_sampleFields, generation, after, rfl, hparameters,
    hdeclared, hused hapart sparesKeys_sampleFields⟩

end Tuned

end ClusterTuning

