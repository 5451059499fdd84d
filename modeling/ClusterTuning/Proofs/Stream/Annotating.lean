import ClusterTuning.Proofs.Outcome
import ClusterTuning.Proofs.Yaml.Putting
import ClusterTuning.Stream.Annotate

/-!
# What annotating changes, and what it leaves

A document is annotated in place: metadata and annotations are made on the way,
before it is known that the rest of the way is free.  What has been made holds
nothing that could stand in the way, though, so that a document which cannot be
annotated is left as it was.  One that can be annotated has one more value at one
path, and is the same at every other.

* `Resource.annotate_eq` — a document in place, with what is left of it;
* `Resource.annotated_eq_error_iff` — what stands in the way;
* `Resource.isAnnotated_of_annotated` — the document with the annotation;
* `Resource.annotateAll_fails` — the first document that cannot be annotated;
* `Resource.annotateAll_keeps` — documents that can all be annotated.
-/

namespace ClusterTuning

open Yaml

namespace Resource

open Mapping

/-! ## In place -/

variable {key : String} {fault f : AnnotationFault} {entries inner : List (Value × Value)}
  {document result v : Value}

section

variable {change : List (Value × Value) → Except AnnotationFault (List (Value × Value))}
  {changeInPlace : List (Value × Value) → List (Value × Value) × Except AnnotationFault Unit}

/-- A change of entries in place leaves what it should make of them, or leaves them as they were. -/
def RunsAs
    (changeInPlace : List (Value × Value) → List (Value × Value) × Except AnnotationFault Unit)
    (change : List (Value × Value) → Except AnnotationFault (List (Value × Value))) : Prop :=
  ∀ entries, changeInPlace entries =
    match change entries with
    | .ok made => (made, .ok ())
    | .error fault => (entries, .error fault)

/-- A change of a child is the change of nothing, where the child is absent or null. -/
theorem alterChild_of_isNull (h : ((getText? key entries).getD .null).isNull = true) :
    alterChild key fault change entries =
      (change []).map fun made => insert (.string key) (.mapping made) entries := by
  simp only [alterChild, h, if_true, Value.asMapping?, Value.untagged, Value.withUntagged]

/-- Otherwise it is the change of what the child holds. -/
theorem alterChild_of_getText? (h : getText? key entries = some v) (hnull : v.isNull = false) :
    alterChild key fault change entries =
      match v.asMapping? with
      | none => .error fault
      | some inner => (change inner).map fun made =>
          insert (.string key) (v.withUntagged (.mapping made)) entries := by
  cases hinner : v.asMapping? <;>
    simp only [alterChild, h, Option.getD_some, hnull, Bool.false_eq_true, if_false, hinner]

theorem exists_getText?_of_isNull (h : ((getText? key entries).getD .null).isNull = false) :
    ∃ v, getText? key entries = some v ∧ v.isNull = false := by
  cases hfound : getText? key entries with
  | none =>
    rw [hfound] at h
    exact nomatch h
  | some v =>
    rw [hfound] at h
    exact ⟨v, rfl, h⟩

/-- **A child is entered in place** as it should be changed: what is made for it on the way stays
only if the change goes through, because a mapping without entries lets every change through. -/
theorem RunsAs.enterChild (key : String) (fault : AnnotationFault)
    (h : RunsAs changeInPlace change) (hempty : ∃ made, change [] = .ok made) :
    RunsAs (enterChild key fault changeInPlace) (alterChild key fault change) := by
  intro entries
  cases hnull : ((getText? key entries).getD .null).isNull with
  | true =>
    obtain ⟨made, hmade⟩ := hempty
    have hchange := h []
    rw [hmade] at hchange
    rw [alterChild_of_isNull hnull, hmade]
    simp only [Resource.enterChild, getText?_alter, hnull, if_true, Option.getD_some, insert_alter,
      Value.asMapping?, Value.untagged, hchange]
    rfl
  | false =>
    obtain ⟨v, hv, hnull'⟩ := exists_getText?_of_isNull hnull
    have hopened : alter (.string key)
        (fun found => if (found.getD .null).isNull then .mapping [] else found.getD .null) entries =
          entries := alter_eq_self hv (by simp [hnull'])
    rw [alterChild_of_getText? hv hnull']
    simp only [Resource.enterChild, hopened, hv, Option.getD_some]
    cases hinner : v.asMapping? with
    | none => rfl
    | some inner =>
      simp only [h inner]
      cases hmade : change inner with
      | ok made => rfl
      | error f =>
        -- the change has left the entries of the child, and so the child, as they were
        simp only [Value.withUntagged_self hinner, insert_self hv]
        rfl

end

/-- The annotation is stored in any entries. -/
def putAnnotation (annotations : List (Value × Value)) :
    Except AnnotationFault (List (Value × Value)) :=
  .ok (insert (.string formattingKey) (.string formattingNone) annotations)

theorem annotated_of_asMapping? (h : document.asMapping? = some entries) :
    annotated document =
      (alterChild "metadata" .invalidMetadata
        (alterChild "annotations" .invalidAnnotations putAnnotation) entries).map
          fun made => document.withUntagged (.mapping made) := by
  rw [annotated, h]
  rfl

theorem exists_putAnnotation : ∃ made, putAnnotation [] = .ok made :=
  ⟨_, rfl⟩

theorem exists_putAnnotations :
    ∃ made, alterChild "annotations" .invalidAnnotations putAnnotation [] = .ok made :=
  ⟨_, rfl⟩

/-- **A document is annotated in place**, or left as it was. -/
theorem annotate_eq (document : Value) :
    annotate document =
      match annotated document with
      | .ok result => (result, .ok ())
      | .error fault => (document, .error fault) := by
  cases hentries : document.asMapping? with
  | none => rw [annotate, annotated, hentries]
  | some entries =>
    have hput : RunsAs (fun annotations =>
        (insert (.string formattingKey) (.string formattingNone) annotations, .ok ()))
        putAnnotation := fun _ => rfl
    have hmetadata := (hput.enterChild "annotations" .invalidAnnotations
      exists_putAnnotation).enterChild "metadata" .invalidMetadata exists_putAnnotations entries
    rw [annotated_of_asMapping? hentries, annotate, hentries]
    simp only [hmetadata]
    cases alterChild "metadata" .invalidMetadata
      (alterChild "annotations" .invalidAnnotations putAnnotation) entries with
    | ok made => rfl
    | error fault => simp only [Value.withUntagged_self hentries, Except.map]

end Resource

/-! ## What stands in the way -/

/-- A value that is there, and neither a mapping nor null. -/
def Yaml.Value.Blocks (v : Value) : Prop :=
  v.isNull = false ∧ v.asMapping? = none

/-- What a fault says of a document. -/
def AnnotationFault.FoundIn : AnnotationFault → Value → Prop
  | notMapping, d => d.asMapping? = none
  | invalidMetadata, d => ∃ m, d.get? "metadata" = some m ∧ m.Blocks
  | invalidAnnotations, d => ∃ m, d.get? "metadata" = some m ∧
      ∃ a, m.get? "annotations" = some a ∧ a.Blocks

namespace Resource

open Mapping

variable {key : String} {fault f : AnnotationFault} {entries inner : List (Value × Value)}
  {document result v : Value}
  {change : List (Value × Value) → Except AnnotationFault (List (Value × Value))}

/-- A child cannot be changed if it is in the way itself, or if something in it is. -/
theorem alterChild_eq_error_iff (hempty : ∃ made, change [] = .ok made) :
    alterChild key fault change entries = .error f ↔
      ∃ v, getText? key entries = some v ∧
        (v.Blocks ∧ f = fault ∨ ∃ inner, v.asMapping? = some inner ∧ change inner = .error f) := by
  cases hnull : ((getText? key entries).getD .null).isNull with
  | true =>
    obtain ⟨made, hmade⟩ := hempty
    rw [alterChild_of_isNull hnull, hmade]
    refine ⟨nofun, ?_⟩
    rintro ⟨v, hv, ⟨⟨hblocks, -⟩, -⟩ | ⟨inner, hinner, -⟩⟩
    · rw [hv, Option.getD_some, hblocks] at hnull
      exact nomatch hnull
    · rw [hv, Option.getD_some] at hnull
      rw [Value.asMapping?_eq_none_of_isNull hnull] at hinner
      exact nomatch hinner
  | false =>
    obtain ⟨v, hv, hnull'⟩ := exists_getText?_of_isNull hnull
    rw [alterChild_of_getText? hv hnull']
    simp only [hv, Option.some_inj, exists_eq_left', Value.Blocks, hnull', true_and]
    cases hinner : v.asMapping? with
    | none => simp [eq_comm]
    | some inner => simp [map_eq_error_iff]

/-- **A document cannot be annotated** exactly if a fault is found in it, and that is then the
failure. -/
theorem annotated_eq_error_iff : annotated document = .error fault ↔ fault.FoundIn document := by
  cases hentries : document.asMapping? with
  | none =>
    rw [annotated, hentries]
    cases fault <;>
      simp [AnnotationFault.FoundIn, hentries, Value.get?_of_asMapping?_eq_none hentries]
  | some entries =>
    have hinner : alterChild "metadata" .invalidMetadata
        (alterChild "annotations" .invalidAnnotations putAnnotation) entries = .error fault ↔
        ∃ m, document.get? "metadata" = some m ∧ (m.Blocks ∧ fault = .invalidMetadata ∨
          (∃ a, m.get? "annotations" = some a ∧ a.Blocks) ∧ fault = .invalidAnnotations) := by
      rw [alterChild_eq_error_iff exists_putAnnotations, Value.get?_of_asMapping? hentries]
      refine exists_congr fun m => and_congr_right fun _ => or_congr_right ?_
      cases hm : m.asMapping? with
      | none => simp [Value.get?_of_asMapping?_eq_none hm]
      | some inner =>
        simp only [Option.some_inj, exists_eq_left', Value.get?_of_asMapping? hm,
          alterChild_eq_error_iff exists_putAnnotation, putAnnotation, reduceCtorEq, and_false,
          exists_false, or_false, exists_and_right, ← and_assoc]
    rw [annotated_of_asMapping? hentries, map_eq_error_iff, hinner]
    cases fault <;> simp [AnnotationFault.FoundIn, hentries]

end Resource

/-! ## The annotation -/

namespace Resource

open Mapping

variable {key : String} {keys : List String} {fault : AnnotationFault} {new document result : Value}
  {change : List (Value × Value) → Except AnnotationFault (List (Value × Value))}

/-- A change of the entries of a mapping puts a value at the end of a path, and does nothing more
when it is made again. -/
structure PutsIn (new : Value) (keys : List String)
    (change : List (Value × Value) → Except AnnotationFault (List (Value × Value))) : Prop where
  puts : ∀ v inner made, v.asMapping? = some inner → change inner = .ok made →
    Value.Puts new keys (some v) (v.withUntagged (.mapping made))
  again : ∀ inner made, change inner = .ok made → change made = .ok made

theorem putsIn_putAnnotation :
    PutsIn (.string formattingNone) [formattingKey] putAnnotation where
  puts v inner made hv hmade := by
    obtain rfl := Except.ok.inj hmade
    exact .insert hv .here
  again inner made hmade := by
    obtain rfl := Except.ok.inj hmade
    exact congrArg Except.ok (insert_self (getText?_insert _ _ _))

/-- What a child becomes when it is changed. -/
theorem exists_of_alterChild {entries made : List (Value × Value)}
    (h : alterChild key fault change entries = .ok made) :
    ∃ child inner, made = insert (.string key) child entries ∧ child.isNull = false ∧
      child.asMapping? = some inner ∧
      ((∀ v ∈ getText? key entries, v.isNull = true) ∧ child = .mapping inner ∧
          change [] = .ok inner ∨
        ∃ v before, getText? key entries = some v ∧ v.asMapping? = some before ∧
          child = v.withUntagged (.mapping inner) ∧ change before = .ok inner) := by
  cases hnull : ((getText? key entries).getD .null).isNull with
  | true =>
    rw [alterChild_of_isNull hnull] at h
    obtain ⟨inner, hinner, rfl⟩ := map_eq_ok_iff.1 h
    refine ⟨.mapping inner, inner, rfl, rfl, rfl, .inl ⟨fun v hv => ?_, rfl, hinner⟩⟩
    rw [Option.mem_def.1 hv] at hnull
    exact hnull
  | false =>
    obtain ⟨v, hv, hnull'⟩ := exists_getText?_of_isNull hnull
    rw [alterChild_of_getText? hv hnull'] at h
    cases hbefore : v.asMapping? with
    | none =>
      rw [hbefore] at h
      cases h
    | some before =>
      rw [hbefore] at h
      obtain ⟨inner, hinner, rfl⟩ := map_eq_ok_iff.1 h
      exact ⟨_, inner, rfl, Value.isNull_withUntagged _ _, Value.asMapping?_withUntagged _ _,
        .inr ⟨v, before, hv, hbefore, rfl, hinner⟩⟩

theorem PutsIn.alterChild (h : PutsIn new keys change) :
    PutsIn new (key :: keys) (alterChild key fault change) where
  puts v entries made hv hmade := by
    obtain ⟨child, inner, rfl, -, -,
      ⟨nothing, rfl, hinner⟩ | ⟨w, before, hw, hbefore, rfl, hinner⟩⟩ := exists_of_alterChild hmade
    · exact .insert hv ((h.puts (.mapping []) [] inner rfl hinner).of_empty nothing)
    · exact .insert hv (hw ▸ h.puts w before inner hbefore hinner)
  again entries made hmade := by
    obtain ⟨child, inner, rfl, hnull, hchild, hinner⟩ := exists_of_alterChild hmade
    have hagain : change inner = .ok inner := by
      rcases hinner with ⟨-, -, hinner⟩ | ⟨w, before, -, -, -, hinner⟩
      · exact h.again _ _ hinner
      · exact h.again _ _ hinner
    rw [alterChild_of_getText? (getText?_insert _ _ _) hnull, hchild]
    simp only [hagain, Except.map, Value.withUntagged_self hchild,
      insert_self (getText?_insert _ _ _)]

/-- The path of the annotation. -/
def annotationPath : List String :=
  ["metadata", "annotations", formattingKey]

/-- A document with the annotation, which is otherwise as it was. -/
structure IsAnnotated (document result : Value) : Prop where
  found : Value.reach? (Value.stepsTo annotationPath) result = some (.string formattingNone)
  elsewhere : ∀ steps, ¬ Value.stepsTo annotationPath <+: steps →
    ¬ steps <+: Value.stepsTo annotationPath →
      Value.reach? steps result = Value.reach? steps document
  placed : Value.Puts (.string formattingNone) annotationPath (some document) result

theorem putsIn_alterMetadata :
    PutsIn (.string formattingNone) annotationPath (alterChild "metadata" .invalidMetadata
      (alterChild "annotations" .invalidAnnotations putAnnotation)) :=
  putsIn_putAnnotation.alterChild.alterChild

/-- **A document that is annotated** has the annotation and is otherwise as it was. -/
theorem isAnnotated_of_annotated (h : annotated document = .ok result) :
    IsAnnotated document result := by
  suffices placed : Value.Puts (.string formattingNone) annotationPath (some document) result from
    ⟨placed.reach?_stepsTo, fun _ => placed.reach?_of_apart, placed⟩
  cases hentries : document.asMapping? with
  | none =>
    rw [annotated, hentries] at h
    cases h
  | some entries =>
    rw [annotated_of_asMapping? hentries] at h
    obtain ⟨made, hmade, rfl⟩ := map_eq_ok_iff.1 h
    exact putsIn_alterMetadata.puts document entries made hentries hmade

variable {documents results : List Value} {position : Nat} {failure : Failure}

/-- The first document is annotated, or it is left and so is the rest. -/
theorem annotateFrom_cons (position : Nat) (document : Value) (rest : List Value) :
    annotateFrom position (document :: rest) =
      match annotated document with
      | .error fault => (document :: rest, .error (.annotating position fault))
      | .ok result => (result :: (annotateFrom (position + 1) rest).1,
          (annotateFrom (position + 1) rest).2) := by
  rw [annotateFrom, annotate_eq]
  cases annotated document <;> rfl

theorem annotateFrom_eq_ok_iff :
    annotateFrom position documents = (results, .ok ()) ↔
      List.Forall₂ (fun d r => annotated d = .ok r) documents results := by
  induction documents generalizing position results with
  | nil =>
    rw [annotateFrom, List.forall₂_nil_left_iff, Prod.mk.injEq, and_iff_left rfl, eq_comm]
  | cons d rest ih =>
    rw [annotateFrom_cons, List.forall₂_cons_left_iff]
    cases hd : annotated d with
    | error fault => simp
    | ok r =>
      simp only [Prod.mk.injEq, Except.ok.injEq]
      constructor
      · rintro ⟨rfl, hrest⟩
        exact ⟨r, _, rfl, ih.1 (Prod.ext rfl hrest), rfl⟩
      · rintro ⟨_, rs, rfl, hrs, rfl⟩
        rw [ih.2 hrs]
        exact ⟨rfl, rfl⟩

/-- Annotating goes through if it does for each document, and keeps their order. -/
theorem annotateAll_eq_ok_iff :
    annotateAll documents = (results, .ok ()) ↔
      List.Forall₂ (fun d r => annotated d = .ok r) documents results :=
  annotateFrom_eq_ok_iff

/-- **A run fails at the first document in which a fault is found**: what is before it has been
annotated, and the rest is left. -/
theorem annotateFrom_eq_error_iff {left : List Value} :
    annotateFrom position documents = (left, .error failure) ↔
      ∃ before document after fault done, documents = before ++ document :: after ∧
        List.Forall₂ (fun d r => annotated d = .ok r) before done ∧
        annotated document = .error fault ∧ left = done ++ document :: after ∧
        failure = .annotating (position + before.length) fault := by
  induction documents generalizing position left with
  | nil => simp [annotateFrom]
  | cons d rest ih =>
    rw [annotateFrom_cons]
    cases hd : annotated d with
    | error fault =>
      constructor
      · intro h
        obtain ⟨rfl, hfailure⟩ := Prod.mk.inj h
        exact ⟨[], d, rest, fault, [], rfl, .nil, hd, rfl, (Except.error.inj hfailure).symm⟩
      · rintro ⟨before, document, after, fault', done, heq, hdone, hfault, rfl, rfl⟩
        rcases List.cons_eq_append_iff.1 heq with ⟨rfl, heq⟩ | ⟨before, rfl, -⟩
        · obtain ⟨rfl, rfl⟩ := List.cons.inj heq
          cases hdone
          obtain rfl := Except.error.inj (hd.symm.trans hfault)
          rfl
        · cases hdone with
          | cons hfirst _ => exact nomatch hd.symm.trans hfirst
    | ok r =>
      constructor
      · intro h
        obtain ⟨rfl, hrest⟩ := Prod.mk.inj h
        obtain ⟨before, document, after, fault, done, rfl, hdone, hfault, hleft, rfl⟩ :=
          ih.1 (Prod.ext rfl hrest)
        exact ⟨d :: before, document, after, fault, r :: done, rfl, .cons hd hdone, hfault,
          congrArg (r :: ·) hleft, by rw [List.length_cons, Nat.add_right_comm, Nat.add_assoc]⟩
      · rintro ⟨before, document, after, fault, done, heq, hdone, hfault, rfl, rfl⟩
        rcases List.cons_eq_append_iff.1 heq with ⟨rfl, heq⟩ | ⟨before, rfl, rfl⟩
        · obtain ⟨rfl, -⟩ := List.cons.inj heq
          exact nomatch hd.symm.trans hfault
        · cases hdone with
          | @cons _ s _ done hfirst hdone =>
            obtain rfl := Except.ok.inj (hd.symm.trans hfirst)
            have hrest := (@ih (position + 1) _).2 ⟨before, document, after, fault, done, rfl,
              hdone, hfault, rfl, by rw [List.length_cons, Nat.add_right_comm, Nat.add_assoc]⟩
            simp only [hrest, List.cons_append]

/-- Nothing is in the way in documents that have all been annotated. -/
theorem not_foundIn_of_annotated
    (h : List.Forall₂ (fun d r => annotated d = .ok r) documents results)
    (hd : document ∈ documents) (f : AnnotationFault) : ¬ f.FoundIn document := by
  intro hf
  obtain ⟨r, -, hr⟩ := exists_mem_mapM (mapM_eq_ok_iff.2 h) hd
  exact nomatch hr.symm.trans (annotated_eq_error_iff.2 hf)

/-- **The first document that cannot be annotated.**  Annotating fails exactly if in some document
something else stands for a mapping: for the document itself, or where metadata or annotations are
neither absent nor null.  The failure is about the first such document, in which only one fault can
be found; those before it have been annotated, and it is left as it was, as are those after it. -/
theorem annotateAll_fails (documents : List Value) :
    ((∃ failure, (annotateAll documents).2 = .error failure) ↔
      ∃ d ∈ documents, ∃ fault : AnnotationFault, fault.FoundIn d) ∧
    ∀ failure, (annotateAll documents).2 = .error failure →
      ∃ before document after fault done, documents = before ++ document :: after ∧
        (∀ d ∈ before, ∀ f : AnnotationFault, ¬ f.FoundIn d) ∧
        AnnotationFault.FoundIn fault document ∧
        (∀ f : AnnotationFault, f.FoundIn document → f = fault) ∧
        failure = .annotating before.length fault ∧
        List.Forall₂ IsAnnotated before done ∧
        (annotateAll documents).1 = done ++ document :: after := by
  refine ⟨⟨?_, ?_⟩, ?_⟩
  · rintro ⟨failure, h⟩
    have hall : annotateFrom 0 documents = (_, .error failure) := Prod.ext rfl h
    obtain ⟨before, document, after, fault, done, rfl, -, hfault, -⟩ :=
      annotateFrom_eq_error_iff.1 hall
    exact ⟨document, List.mem_append_right _ List.mem_cons_self, fault,
      annotated_eq_error_iff.1 hfault⟩
  · rintro ⟨d, hd, fault, hfault⟩
    cases hresult : (annotateAll documents).2 with
    | error failure => exact ⟨failure, rfl⟩
    | ok done =>
      have hall := annotateAll_eq_ok_iff.1 (Prod.ext rfl hresult)
      exact absurd hfault (not_foundIn_of_annotated hall hd fault)
  · intro failure h
    have hall : annotateFrom 0 documents = (_, .error failure) := Prod.ext rfl h
    obtain ⟨before, document, after, fault, done, heq, hdone, hfault, hleft, hfailure⟩ :=
      annotateFrom_eq_error_iff.1 hall
    refine ⟨before, document, after, fault, done, heq,
      fun d hd f => not_foundIn_of_annotated hdone hd f, annotated_eq_error_iff.1 hfault,
      fun f hf => ?_, by rw [hfailure, Nat.zero_add],
      hdone.imp fun _ _ => isAnnotated_of_annotated, hleft⟩
    exact Except.error.inj ((annotated_eq_error_iff.2 hf).symm.trans hfault)

end Resource

end ClusterTuning
