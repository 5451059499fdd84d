import ClusterTuning.Proofs.Patch.Setting
import ClusterTuning.Proofs.Yaml.Marks

/-!
# Where the values in a patch come from

An edit brings into a document the value that it sets and, where its path makes what
is missing, collections, nulls and the texts of its segments.  Nothing else comes in.
The other way round, a document holds all the values that its leaves have.

* `Path.follow_brings`, `Edit.applyAll_brings` — what a path and a list of edits bring in;
* `Bears.subvalues_subset` — the values of leaves are in the document.
-/

namespace ClusterTuning

open Yaml Value

/-- A condition on values that says nothing of nulls and of collections. -/
structure Yaml.Value.AboutScalars (Q : Value → Prop) : Prop where
  null : Q .null
  sequence : ∀ items, Q (.sequence items)
  mapping : ∀ entries, Q (.mapping entries)

/-- The texts in a segment. -/
def Segment.texts : Segment → List String
  | .field name => [name]
  | .keyed key label => [key, label]
  | .index _ => []

variable {Q : Value → Prop}

namespace Yaml.Value

/-- All values in a value, itself included, meet a condition. -/
def Through (Q : Value → Prop) (v : Value) : Prop :=
  ∀ w ∈ v.subvalues, Q w

theorem AboutScalars.through_null (hQ : AboutScalars Q) : Through Q .null :=
  List.forall_mem_singleton.2 hQ.null

theorem through_string {s : String} : Through Q (.string s) ↔ Q (.string s) :=
  List.forall_mem_singleton

theorem AboutScalars.through_sequence (hQ : AboutScalars Q) {items : List Value} :
    Through Q (.sequence items) ↔ ∀ x ∈ items, Through Q x := by
  simp only [Through, subvalues, List.forall_mem_cons, hQ.sequence, true_and, mem_itemSubvalues]
  constructor
  · exact fun h x hx w hw => h w ⟨x, hx, hw⟩
  · rintro h w ⟨x, hx, hw⟩
    exact h x hx w hw

theorem AboutScalars.through_mapping (hQ : AboutScalars Q)
    {entries : List (Value × Value)} :
    Through Q (.mapping entries) ↔
      ∀ entry ∈ entries, Through Q entry.1 ∧ Through Q entry.2 := by
  simp only [Through, subvalues, List.forall_mem_cons, hQ.mapping, true_and, mem_entrySubvalues]
  constructor
  · exact fun h entry hentry =>
      ⟨fun w hw => h w ⟨entry, hentry, .inl hw⟩, fun w hw => h w ⟨entry, hentry, .inr hw⟩⟩
  · rintro h w ⟨entry, hentry, hw | hw⟩
    · exact (h entry hentry).1 w hw
    · exact (h entry hentry).2 w hw

/-- What stands at a position of a collection stands in the collection, or is null. -/
theorem AboutScalars.through_part (hQ : AboutScalars Q) {v : Value} (h : Through Q v)
    (position : Nat) : Through Q (v.part position) := by
  cases v with
  | sequence items =>
    rw [part]
    cases hitem : items[position]? with
    | none => exact hQ.through_null
    | some x => exact hQ.through_sequence.1 h x (List.mem_of_getElem? hitem)
  | mapping entries =>
    rw [part]
    cases hentry : entries[position]? with
    | none => exact hQ.through_null
    | some entry => exact (hQ.through_mapping.1 h entry (List.mem_of_getElem? hentry)).2
  | null => exact hQ.through_null
  | bool b => exact hQ.through_null
  | number n => exact hQ.through_null
  | string s => exact hQ.through_null
  | tagged tag v => exact hQ.through_null

theorem AboutScalars.through_setPart (hQ : AboutScalars Q) {v new : Value} (h : Through Q v)
    (hnew : Through Q new) (position : Nat) : Through Q (v.setPart position new) := by
  cases v with
  | sequence items =>
    refine hQ.through_sequence.2 fun x hx => ?_
    rcases List.mem_or_eq_of_mem_set hx with hx | rfl
    · exact hQ.through_sequence.1 h x hx
    · exact hnew
  | mapping entries =>
    refine hQ.through_mapping.2 fun entry hentry => ?_
    obtain ⟨i, hi, rfl⟩ := List.mem_iff_getElem.1 hentry
    rw [List.length_modify] at hi
    have hbefore := hQ.through_mapping.1 h _ (List.getElem_mem hi)
    rw [List.getElem_modify]
    split
    · exact ⟨hbefore.1, hnew⟩
    · exact hbefore
  | null => exact h
  | bool b => exact h
  | number n => exact h
  | string s => exact h
  | tagged tag v => exact h

end Yaml.Value

/-! ## What edits bring in -/

/-- A new entry of a list holds the texts of its segment. -/
theorem Segment.through_newEntry (hQ : AboutScalars Q) {key label : String}
    (hkey : Q (.string key)) (hlabel : Q (.string label)) : Through Q (newEntry key label) := by
  unfold newEntry
  split
  · exact through_string.2 hlabel
  · exact hQ.through_mapping.2
      (List.forall_mem_singleton.2 ⟨through_string.2 hkey, through_string.2 hlabel⟩)

/-- A segment finds a collection, or makes one of its texts. -/
theorem Segment.through_ensure (hQ : AboutScalars Q) {s : Segment} {v collection : Value}
    {position : Nat} (hv : Through Q v) (hs : ∀ text ∈ s.texts, Q (.string text))
    (h : s.ensure v = .ok (collection, position)) : Through Q collection := by
  have horNew : ∀ new, Through Q new → Through Q (v.orNew new) := by
    intro new hnew
    unfold orNew
    split
    · exact hnew
    · exact hv
  cases s with
  | field name =>
    have hname : Through Q (.string name) := through_string.2 (hs name List.mem_cons_self)
    have hcollection := horNew (.mapping []) (hQ.through_mapping.2 (List.forall_mem_nil _))
    rw [ensure] at h
    split at h
    · next entries hentries =>
      rw [hentries] at hcollection
      split at h
      · obtain ⟨rfl, -⟩ := Prod.mk.inj (Except.ok.inj h)
        exact hcollection
      · obtain ⟨rfl, -⟩ := Prod.mk.inj (Except.ok.inj h)
        exact hQ.through_mapping.2 (List.forall_mem_append.2
          ⟨hQ.through_mapping.1 hcollection,
            List.forall_mem_singleton.2 ⟨hname, hQ.through_null⟩⟩)
    · cases h
  | keyed key label =>
    have hentry : Through Q (newEntry key label) := through_newEntry hQ (hs key List.mem_cons_self)
      (hs label (List.mem_cons_of_mem _ List.mem_cons_self))
    have hcollection := horNew (.sequence []) (hQ.through_sequence.2 (List.forall_mem_nil _))
    rw [ensure] at h
    split at h
    · next items hitems =>
      rw [hitems] at hcollection
      split at h
      · obtain ⟨rfl, -⟩ := Prod.mk.inj (Except.ok.inj h)
        exact hcollection
      · obtain ⟨rfl, -⟩ := Prod.mk.inj (Except.ok.inj h)
        exact hQ.through_sequence.2 (List.forall_mem_append.2
          ⟨hQ.through_sequence.1 hcollection, List.forall_mem_singleton.2 hentry⟩)
    · cases h
  | index i =>
    cases v with
    | sequence items =>
      rw [ensure] at h
      split at h
      · obtain ⟨rfl, -⟩ := Prod.mk.inj (Except.ok.inj h)
        exact hv
      · cases h
    | _ => cases h

/-- **What setting a value at the end of a path brings into a document**: the value and the texts
of the path, also when the path cannot be followed to its end. -/
theorem Path.follow_brings (hQ : AboutScalars Q) {path : List Segment} {v value : Value}
    (hv : Through Q v) (hvalue : Through Q value)
    (hpath : ∀ s ∈ path, ∀ text ∈ s.texts, Q (.string text)) :
    Through Q (follow (fun _ => value) path v).1 := by
  induction path generalizing v with
  | nil => exact hvalue
  | cons s rest ih =>
    obtain ⟨hs, hrest⟩ := List.forall_mem_cons.1 hpath
    rw [follow]
    split
    · exact hv
    · next collection position hensure =>
      have hcollection := Segment.through_ensure hQ hv hs hensure
      exact hQ.through_setPart hcollection (ih (hQ.through_part hcollection position) hrest) position

/-- What a list of edits brings into a document. -/
theorem Edit.applyAll_brings (hQ : AboutScalars Q) {leaves : List Leaf} {v : Value}
    (hv : Through Q v) (hleaves : ∀ leaf ∈ leaves, Through Q leaf.2 ∧
      ∀ s ∈ leaf.1, ∀ text ∈ s.texts, Q (.string text)) :
    Through Q (applyAll v (sets leaves)).1 := by
  induction leaves generalizing v with
  | nil => exact hv
  | cons leaf leaves ih =>
    obtain ⟨⟨hvalue, hpath⟩, hleaves⟩ := List.forall_mem_cons.1 hleaves
    have hnext : Through Q (apply v (.set leaf.1 leaf.2)).1 := by
      rw [apply]
      exact Path.follow_brings hQ hv hvalue hpath
    rw [sets, List.map_cons, applyAll]
    split
    · next document hdocument =>
      rw [hdocument] at hnext
      exact ih hnext hleaves
    · next document failure hdocument =>
      rw [hdocument] at hnext
      exact hnext

/-! ## What a document holds -/

/-- What is in a branch is in the collection. -/
theorem Branching.subvalues_collect {kind : Branching} {branches : List (String × Value)}
    {branch : String × Value} (hmem : branch ∈ branches) :
    branch.2.subvalues ⊆ (kind.collect branches).subvalues := by
  intro w hw
  cases kind with
  | fields =>
    refine List.mem_cons_of_mem _ (mem_entrySubvalues.2 ?_)
    exact ⟨_, List.mem_map_of_mem hmem, .inr hw⟩
  | entries key _ =>
    refine List.mem_cons_of_mem _ (mem_itemSubvalues.2 ?_)
    exact ⟨_, List.mem_map_of_mem hmem, hw⟩

/-- **The values of its leaves are in a document**, with all that is in them. -/
theorem Bears.subvalues_subset {leaves : List Leaf} {v w : Value} {path : List Segment}
    (h : Bears leaves v) (hmem : (path, w) ∈ leaves) : w.subvalues ⊆ v.subvalues := by
  induction path generalizing leaves v with
  | nil =>
    obtain rfl := h.eq_of_mem_nil hmem
    exact List.Subset.refl _
  | cons s rest ih =>
    obtain ⟨kind, label, parts, child, rfl, rfl, hpart, -, bears⟩ := h.exists_part hmem
    have hchild : (rest, w) ∈ kind.leavesOf label leaves :=
      List.mem_append_right _ (mem_leavesUnder.2 hmem)
    exact List.Subset.trans (ih (bears _ hpart) hchild) (Branching.subvalues_collect hpart)

end ClusterTuning
