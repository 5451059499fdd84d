import ClusterTuning.Proofs.Yaml.Keys
import ClusterTuning.Stream.Merge

/-!
# Merging keeps the identity of a resource

The identity of a resource is made of four texts, two of them in its metadata.
When a document is merged onto another one, each field comes from the second
document if it has the field, and from the first one otherwise; a field that is
null there is removed, and both a field that is missing and one that is no text
count as empty.  So a text that is read from both documents is read from the
merged one as well.

* `Value.get?_merge` — the fields of a merged document;
* `Resource.Describes.merge` — two documents about one resource become one about it.
-/

namespace ClusterTuning

open Yaml

namespace Yaml.Value

/-! ## The fields of merged values -/

/-- What becomes of a field that may be missing on either side. -/
def mergeField (target : Option Value) : Option Value → Option Value
  | none => target
  | some value =>
    if value.isNull then none else some (target.elim value fun existing => existing.merge value)

/-- The entries of a mapping after one entry of another one is merged onto them. -/
def mergeEntry (target : List (Value × Value)) (entry : Value × Value) : List (Value × Value) :=
  if entry.2.isNull then Mapping.remove entry.1 target
  else Mapping.alter entry.1 (fun
    | some existing => merge existing entry.2
    | none => entry.2) target

theorem mergeEntries_eq_foldl (target source : List (Value × Value)) :
    mergeEntries target source = source.foldl mergeEntry target := by
  induction source generalizing target with
  | nil => rw [mergeEntries, List.foldl_nil]
  | cons entry rest ih =>
    rw [mergeEntries, ih, List.foldl_cons]
    rfl

open Mapping

variable {target source : List (Value × Value)} {entry : Value × Value} {sought : Value}
  {s : String} {S : Value → Prop}

/-! ### One entry -/

/-- Merging an entry brings in no other key. -/
theorem forall_key_mergeEntry (htarget : ∀ e ∈ target, S e.1) (hentry : S entry.1) :
    ∀ e ∈ mergeEntry target entry, S e.1 := by
  intro e he
  unfold mergeEntry at he
  split at he
  · exact htarget e (mem_of_mem_remove he)
  · rcases mem_alter he with ⟨v, hv⟩ | heq
    · exact htarget (e.1, v) hv
    · rwa [heq]

theorem holdsOnce_mergeEntry (h : HoldsOnce sought target)
    (hkeys : ∀ e ∈ target, SinglesOut sought e.1 entry.1) :
    HoldsOnce sought (mergeEntry target entry) := by
  unfold mergeEntry
  split
  · exact h.remove
  · exact h.alter hkeys

theorem get?_mergeEntry (h : HoldsOnce sought target)
    (hkeys : ∀ e ∈ target, SinglesOut sought e.1 entry.1) :
    Mapping.get? sought (mergeEntry target entry) =
      if entry.1.same sought then mergeField (Mapping.get? sought target) (some entry.2)
      else Mapping.get? sought target := by
  unfold mergeEntry mergeField
  by_cases hnull : entry.2.isNull = true
  · rw [if_pos hnull, get?_remove h hkeys]
    simp only [hnull, if_true]
  · rw [if_neg hnull, get?_alter hkeys]
    simp only [hnull]
    cases Mapping.get? sought target <;> rfl

/-! ### All entries

The keys of both mappings are of a kind `S` within which the key that is looked up
singles out its like.
-/

theorem holdsOnce_mergeEntries (hS : ∀ x y, S x → S y → SinglesOut sought x y)
    (htarget : ∀ e ∈ target, S e.1) (hsource : ∀ e ∈ source, S e.1)
    (h : HoldsOnce sought target) : HoldsOnce sought (mergeEntries target source) := by
  rw [mergeEntries_eq_foldl]
  induction source generalizing target with
  | nil => exact h
  | cons entry rest ih =>
    obtain ⟨hentry, hrest⟩ := List.forall_mem_cons.1 hsource
    refine ih (forall_key_mergeEntry htarget hentry) hrest ?_
    exact holdsOnce_mergeEntry h fun e he => hS e.1 entry.1 (htarget e he) hentry

theorem get?_mergeEntries (hS : ∀ x y, S x → S y → SinglesOut sought x y)
    (htarget : ∀ e ∈ target, S e.1) (hsource : ∀ e ∈ source, S e.1)
    (ht : HoldsOnce sought target) (hs : HoldsOnce sought source) :
    Mapping.get? sought (mergeEntries target source) =
      mergeField (Mapping.get? sought target) (Mapping.get? sought source) := by
  rw [mergeEntries_eq_foldl]
  induction source generalizing target with
  | nil => rfl
  | cons entry rest ih =>
    obtain ⟨hentry, hrest⟩ := List.pairwise_cons.1 hs
    obtain ⟨hkey, hkeys⟩ := List.forall_mem_cons.1 hsource
    have hsingles : ∀ e ∈ target, SinglesOut sought e.1 entry.1 :=
      fun e he => hS e.1 entry.1 (htarget e he) hkey
    rw [List.foldl_cons, ih (forall_key_mergeEntry htarget hkey) hkeys
      (holdsOnce_mergeEntry ht hsingles) hrest, get?_mergeEntry ht hsingles, get?_cons]
    by_cases hsame : entry.1.same sought = true
    · have habsent : Mapping.get? sought rest = none :=
        get?_eq_none_iff.2 fun e he => hentry e he hsame
      rw [if_pos hsame, if_pos hsame, habsent]
      rfl
    · rw [if_neg hsame, if_neg hsame]

/-! ### Texts as keys -/

theorem distinctTexts_mergeEntries (h : DistinctTexts target) :
    DistinctTexts (mergeEntries target source) := by
  refine distinctTexts_iff.2 fun s => ?_
  exact holdsOnce_mergeEntries (S := fun _ => True) (fun x y _ _ => singlesOut_string s x y)
    (fun _ _ => trivial) (fun _ _ => trivial) (h.holdsOnce s)

theorem getText?_mergeEntries (ht : DistinctTexts target) (hs : DistinctTexts source) :
    getText? s (mergeEntries target source) =
      mergeField (getText? s target) (getText? s source) :=
  get?_mergeEntries (S := fun _ => True) (fun x y _ _ => singlesOut_string s x y)
    (fun _ _ => trivial) (fun _ _ => trivial) (ht.holdsOnce s) (hs.holdsOnce s)

/-! ### Values -/

/-- A value replaces the one that it is merged onto, unless both are mappings or both are lists. -/
theorem merge_spec (t s : Value) :
    t.merge s = s ∨
      (∃ target source, t = .mapping target ∧ s = .mapping source ∧
        t.merge s = .mapping (mergeEntries target source)) ∨
      ∃ items source, t = .sequence items ∧ s = .sequence source ∧
        t.merge s = .sequence (mergeNamed items source) := by
  cases s with
  | mapping source =>
    cases t with
    | mapping target => exact .inr (.inl ⟨target, source, rfl, rfl, by rw [merge]⟩)
    | _ => exact .inl (by simp [merge])
  | sequence source =>
    cases t with
    | sequence items =>
      rw [merge]
      split
      · exact .inr (.inr ⟨items, source, rfl, rfl, rfl⟩)
      · exact .inl rfl
    | _ => exact .inl (by simp [merge])
  | _ => exact .inl (by rw [merge])

theorem asString?_merge (t s : Value) : (t.merge s).asString? = s.asString? := by
  rcases merge_spec t s with h | ⟨target, source, rfl, rfl, h⟩ | ⟨items, source, rfl, rfl, h⟩
  · rw [h]
  · rw [h]
    rfl
  · rw [h]
    rfl

theorem isSome_asMapping?_of_get? {v field : Value} {key : String}
    (h : v.get? key = some field) : v.asMapping?.isSome = true := by
  obtain ⟨entries, hentries, -⟩ := Option.bind_eq_some_iff.1 h
  rw [hentries]
  rfl

theorem isSome_asMapping?_merge (t s : Value) :
    (t.merge s).asMapping?.isSome = s.asMapping?.isSome := by
  rcases merge_spec t s with h | ⟨target, source, rfl, rfl, h⟩ | ⟨items, source, rfl, rfl, h⟩
  · rw [h]
  · rw [h]
    rfl
  · rw [h]
    rfl

/-- A mapping replaces the value that it is merged onto, or their fields are merged. -/
theorem get?_merge {t s : Value} (ht : t.DistinctFields) (hs : s.DistinctFields)
    (hmapping : s.asMapping?.isSome = true) :
    t.merge s = s ∨ (t.merge s).DistinctFields ∧
      ∀ key, (t.merge s).get? key = mergeField (t.get? key) (s.get? key) := by
  rcases merge_spec t s with h | ⟨target, source, rfl, rfl, h⟩ | ⟨items, source, rfl, rfl, h⟩
  · exact .inl h
  · rw [h]
    refine .inr ⟨fun entries hentries => ?_, fun key => ?_⟩
    · obtain rfl := Option.some.inj hentries
      exact distinctTexts_mergeEntries (ht target rfl)
    · exact getText?_mergeEntries (ht target rfl) (hs source rfl)
  · exact nomatch hmapping

theorem distinctFields_merge {t s : Value} (ht : t.DistinctFields) (hs : s.DistinctFields)
    (hmapping : s.asMapping?.isSome = true) : (t.merge s).DistinctFields := by
  rcases get?_merge ht hs hmapping with h | ⟨h, -⟩
  · rwa [h]
  · exact h

theorem asString?_eq_none_of_isNull {v : Value} (h : v.isNull = true) : v.asString? = none := by
  unfold isNull at h
  unfold asString?
  cases hv : v.untagged with
  | string s => rw [hv] at h; exact nomatch h
  | _ => rfl

end Yaml.Value

namespace Resource

open Value

/-! ## Texts of merged documents -/

/-- The text of a field that may be missing. -/
def fieldText (field : Option Value) : String :=
  (field.bind asString?).getD ""

/-- A text that both fields have is the text of the merged field. -/
theorem fieldText_mergeField {t s : Option Value} (h : fieldText t = fieldText s) :
    fieldText (mergeField t s) = fieldText s := by
  cases s with
  | none => exact h
  | some value =>
    by_cases hnull : value.isNull = true
    · have hempty : fieldText (some value) = "" := by
        rw [fieldText, Option.bind_some, asString?_eq_none_of_isNull hnull]
        rfl
      rw [mergeField, if_pos hnull, hempty]
      rfl
    · rw [mergeField, if_neg hnull]
      cases t with
      | none => rfl
      | some existing =>
        rw [fieldText, fieldText, Option.bind_some, Option.bind_some, Option.elim_some,
          asString?_merge]

/-- A text that two mappings have in common is in the merged one. -/
theorem textField_merge {t s : Value} {key text : String} (ht : t.DistinctFields)
    (hs : s.DistinctFields) (hmapping : s.asMapping?.isSome = true)
    (httext : textField t key = text) (hstext : textField s key = text) :
    textField (t.merge s) key = text := by
  rcases get?_merge ht hs hmapping with hreplaced | ⟨-, hget⟩
  · rwa [hreplaced]
  · rw [textField, hget key]
    exact (fieldText_mergeField (httext.trans hstext.symm)).trans hstext

/-! ## The identity -/

theorem identity_eq_ok_iff {d : Value} {i : Reference} :
    identity d = .ok i ↔ ∃ m, d.get? "metadata" = some m ∧ m.asMapping?.isSome = true ∧
      i.name ≠ "" ∧ textField d "apiVersion" = i.apiVersion ∧ textField d "kind" = i.kind ∧
      textField m "namespace" = i.namespace ∧ textField m "name" = i.name := by
  unfold identity
  split
  · next hnone =>
    constructor
    · exact fun h => nomatch h
    · rintro ⟨m, hm, hmapping, -⟩
      rw [hm, Option.filter_some, if_pos hmapping] at hnone
      exact nomatch hnone
  · next m hsome =>
    obtain ⟨hm, hmapping⟩ := Option.filter_eq_some_iff.1 hsome
    constructor
    · intro h
      split at h
      · exact nomatch h
      · next hname =>
        obtain rfl := Except.ok.inj h
        exact ⟨m, hm, hmapping, fun hempty => hname (String.isEmpty_iff.2 hempty), rfl, rfl, rfl,
          rfl⟩
    · rintro ⟨m', hm', -, hname, hversion, hkind, hnamespace, hm'name⟩
      obtain rfl := Option.some.inj (hm.symm.trans hm')
      rw [if_neg, hversion, hkind, hnamespace, hm'name]
      rw [hm'name, String.isEmpty_iff]
      exact hname

/-- The document is about a resource, and neither it nor its metadata has a field twice. -/
structure Describes (i : Reference) (d : Value) : Prop where
  identity : identity d = .ok i
  fields : d.DistinctFields
  metadataFields : ∀ m, d.get? "metadata" = some m → m.DistinctFields

theorem describes_of_hasDistinctKeys {i : Reference} {d : Value} (h : d.hasDistinctKeys = true)
    (hidentity : identity d = .ok i) : Describes i d :=
  ⟨hidentity, distinctFields_of_hasDistinctKeys h,
    fun _ hm => distinctFields_of_hasDistinctKeys (hasDistinctKeys_of_get? h hm)⟩

/-- **Merging keeps the identity.**  Two documents about one resource become one about it. -/
theorem Describes.merge {i : Reference} {t s : Value} (ht : Describes i t) (hs : Describes i s) :
    Describes i (t.merge s) := by
  obtain ⟨mt, hmt, -, hname, htversion, htkind, htnamespace, htname⟩ :=
    identity_eq_ok_iff.1 ht.identity
  obtain ⟨ms, hms, hmapping, -, hsversion, hskind, hsnamespace, hsname⟩ :=
    identity_eq_ok_iff.1 hs.identity
  have hdocument : s.asMapping?.isSome = true := isSome_asMapping?_of_get? hms
  rcases get?_merge ht.fields hs.fields hdocument with hreplaced | ⟨hfields, hget⟩
  · rwa [hreplaced]
  have hm : (t.merge s).get? "metadata" = some (mt.merge ms) := by
    rw [hget, hmt, hms, mergeField, if_neg (by rw [isNull_eq_false hmapping]; decide)]
    rfl
  have hmt' := ht.metadataFields mt hmt
  have hms' := hs.metadataFields ms hms
  refine ⟨identity_eq_ok_iff.2 ⟨mt.merge ms, hm, ?_, hname, ?_, ?_, ?_, ?_⟩, hfields, ?_⟩
  · rw [isSome_asMapping?_merge, hmapping]
  · exact textField_merge ht.fields hs.fields hdocument htversion hsversion
  · exact textField_merge ht.fields hs.fields hdocument htkind hskind
  · exact textField_merge hmt' hms' hmapping htnamespace hsnamespace
  · exact textField_merge hmt' hms' hmapping htname hsname
  · intro m hmerged
    obtain rfl := Option.some.inj (hm.symm.trans hmerged)
    exact distinctFields_merge hmt' hms' hmapping

end Resource

end ClusterTuning
