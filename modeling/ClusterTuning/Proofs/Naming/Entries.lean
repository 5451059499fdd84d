import ClusterTuning.Naming
import ClusterTuning.Proofs.Path.Spelling

/-!
# The list entries on a path

A path may ask for list entries by a value.  Which values these are can be seen from the
spelling of its segments, without reading them; an empty value asks for nothing in
particular and is passed over.

* `Namer.HasEntryValues`, `Namer.existsUnique_hasEntryValues` — the values on a path, in
  their order;
* `Namer.hasEntryValues_iff` — they are the ones that go into names.
-/

namespace ClusterTuning.Namer

open Segment ClusterTuning.Path

variable {segment value : String} {path values p q : List String}

/-- A segment asks for a list entry by a value that is not empty. -/
inductive IsEntry : String → String → Prop where
  | mk {segment key value : String} (spells : Spells segment (.keyed key value)) (hne : value ≠ "") :
      IsEntry segment value

/-- The values by which a path asks for list entries, one after the other. -/
inductive HasEntryValues : List String → List String → Prop where
  | nil : HasEntryValues [] []
  | entry {segment value : String} {path values : List String} (h : IsEntry segment value)
      (rest : HasEntryValues path values) : HasEntryValues (segment :: path) (value :: values)
  | other {segment : String} {path values : List String} (h : ∀ value, ¬ IsEntry segment value)
      (rest : HasEntryValues path values) : HasEntryValues (segment :: path) values

/-! ## What a namer finds -/

/-- The value that a segment contributes to names. -/
def entryValue? (segment : String) : Option (List Char) :=
  (splitKeyed? segment.toList).bind fun cut => if cut.2 = [] then none else some cut.2

theorem entryValues_eq (path : List String) : entryValues path = path.filterMap entryValue? :=
  rfl

theorem isEntry_iff : IsEntry segment value ↔ entryValue? segment = some value.toList := by
  rw [entryValue?, Option.bind_eq_some_iff]
  constructor
  · rintro ⟨spells, hne⟩
    cases spells with
    | keyed hkey =>
      refine ⟨_, splitKeyed?_eq_some_iff.2 ⟨rfl, hkey⟩, ?_⟩
      exact if_neg fun h => hne (String.toList_eq_nil_iff.1 h)
  · rintro ⟨⟨key, rest⟩, hsplit, hrest⟩
    obtain ⟨hne, hvalue⟩ := Option.ite_none_left_eq_some.1 hrest
    obtain rfl : rest = value.toList := Option.some.inj hvalue
    rw [← String.toList_ofList (l := key)] at hsplit
    obtain ⟨rfl, hkey⟩ := splitKeyed?_eq_some_iff.1 hsplit
    exact ⟨.keyed hkey, fun h => hne (String.toList_eq_nil_iff.2 h)⟩

theorem not_isEntry_iff : (∀ value, ¬ IsEntry segment value) ↔ entryValue? segment = none := by
  simp only [isEntry_iff]
  rw [Option.eq_none_iff_forall_ne_some]
  constructor
  · intro h value
    rw [← String.toList_ofList (l := value)]
    exact h (String.ofList value)
  · exact fun h value => h value.toList

/-- The values on a path are those that go into names. -/
theorem hasEntryValues_iff :
    HasEntryValues path values ↔ entryValues path = values.map String.toList := by
  rw [entryValues_eq]
  constructor
  · intro h
    induction h with
    | nil => rfl
    | entry h rest ih => rw [List.filterMap_cons_some (isEntry_iff.1 h), ih, List.map_cons]
    | other h rest ih => rw [List.filterMap_cons_none (not_isEntry_iff.1 h), ih]
  · intro h
    induction path generalizing values with
    | nil =>
      obtain rfl := List.map_eq_nil_iff.1 h.symm
      exact .nil
    | cons segment path ih =>
      cases hvalue : entryValue? segment with
      | none =>
        rw [List.filterMap_cons_none hvalue] at h
        exact .other (not_isEntry_iff.2 hvalue) (ih h)
      | some found =>
        rw [List.filterMap_cons_some hvalue] at h
        obtain ⟨value, rest, rfl, rfl, hrest⟩ := List.map_eq_cons_iff.1 h.symm
        exact .entry (isEntry_iff.2 hvalue) (ih hrest.symm)

/-- The values on a path are a matter of its spelling. -/
theorem existsUnique_hasEntryValues (path : List String) : ∃! values, HasEntryValues path values := by
  refine ⟨(entryValues path).map String.ofList, hasEntryValues_iff.2 ?_, fun values h => ?_⟩
  · simp [Function.comp_def]
  · rw [hasEntryValues_iff.1 h]
    simp [Function.comp_def]

/-- Two paths ask for the same list entries exactly when they contribute the same to names. -/
theorem exists_hasEntryValues_iff :
    (∃ values, HasEntryValues p values ∧ HasEntryValues q values) ↔
      entryValues p = entryValues q := by
  constructor
  · rintro ⟨values, hp, hq⟩
    rw [hasEntryValues_iff.1 hp, hasEntryValues_iff.1 hq]
  · intro h
    obtain ⟨values, hp, -⟩ := existsUnique_hasEntryValues p
    exact ⟨values, hp, hasEntryValues_iff.2 (h ▸ hasEntryValues_iff.1 hp)⟩

theorem mem_entryValues_iff {value : List Char} :
    value ∈ entryValues path ↔ ∃ segment ∈ path, IsEntry segment (String.ofList value) := by
  simp only [entryValues_eq, List.mem_filterMap, isEntry_iff, String.toList_ofList]

end ClusterTuning.Namer
