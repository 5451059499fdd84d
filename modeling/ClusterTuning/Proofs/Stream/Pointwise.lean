import ClusterTuning.Proofs.Stream.Identity
import ClusterTuning.Proofs.Yaml.Sameness

/-!
# Merging mappings key by key

A mapping is merged onto another one entry by entry, and a removal on the way moves
the last entry to another place.  What comes out under a key can be said without
the way: it depends on what the two mappings have under this key and on nothing
else.  The keys can be any values, and none of them comes twice.

* `Value.hasDistinctKeys_merge` — merged documents have no key twice;
* `Value.mergesByKey_merge` — what a merged mapping holds.
-/

namespace ClusterTuning.Yaml.Value

open Mapping

variable {target source items : List Value} {entries : List (Value × Value)} {key v t s : Value}
  {name : String} {change : Option Value → Value} {P : Value → Prop}

/-! ## Single entries -/

/-- A value merged onto another one that may be there. -/
def mergeOnto (source : Value) : Option Value → Value
  | some existing => merge existing source
  | none => source

theorem mergeEntry_of_not_null {target : List (Value × Value)} {entry : Value × Value}
    (h : entry.2.isNull = false) :
    mergeEntry target entry = alter entry.1 (mergeOnto entry.2) target := by
  rw [mergeEntry, if_neg (by simp [h])]
  rfl

/-- The entries of a list after one entry of another one is merged onto them. -/
def mergeItem (target : List Value) (item : Value) : List Value :=
  match item.entryName? with
  | some name => alterNamed name (mergeOnto item) target
  | none => target ++ [item]

theorem mergeNamed_eq_foldl (target source : List Value) :
    mergeNamed target source = source.foldl mergeItem target := by
  induction source generalizing target with
  | nil => rw [mergeNamed, List.foldl_nil]
  | cons item rest ih =>
    rw [mergeNamed, ih, List.foldl_cons]
    rfl

theorem mergeItem_of_named {item : Value} (h : item.entryName? = some name) :
    mergeItem target item = alterNamed name (mergeOnto item) target := by
  rw [mergeItem, h]

theorem forall_value_alter (h : ∀ e ∈ entries, P e.2)
    (hchange : ∀ old : Option Value, (∀ v ∈ old, P v) → P (change old)) :
    ∀ e ∈ alter key change entries, P e.2 := by
  induction entries with
  | nil =>
    rw [alter, List.forall_mem_singleton]
    exact hchange none (by simp)
  | cons entry rest ih =>
    obtain ⟨hentry, hrest⟩ := List.forall_mem_cons.1 h
    rw [alter]
    split
    · exact List.forall_mem_cons.2 ⟨hchange _ (by simpa using hentry), hrest⟩
    · exact List.forall_mem_cons.2 ⟨hentry, ih hrest⟩

theorem forall_alterNamed (h : ∀ x ∈ items, P x)
    (hchange : ∀ old : Option Value, (∀ v ∈ old, P v) → P (change old)) :
    ∀ x ∈ alterNamed name change items, P x := by
  induction items with
  | nil =>
    rw [alterNamed, List.forall_mem_singleton]
    exact hchange none (by simp)
  | cons x rest ih =>
    obtain ⟨hx, hrest⟩ := List.forall_mem_cons.1 h
    rw [alterNamed]
    split
    · exact List.forall_mem_cons.2 ⟨hchange _ (by simpa using hx), hrest⟩
    · exact List.forall_mem_cons.2 ⟨hx, ih hrest⟩

/-! ## No key comes twice -/

/-- Merging a value brings no key in twice. -/
def MergesDistinct (s : Value) : Prop :=
  ∀ t : Value, t.hasDistinctKeys = true → (t.merge s).hasDistinctKeys = true

theorem MergesDistinct.mergeOnto (h : MergesDistinct s) (hs : s.hasDistinctKeys = true)
    (old : Option Value) (hold : ∀ v ∈ old, v.hasDistinctKeys = true) :
    (s.mergeOnto old).hasDistinctKeys = true := by
  cases old with
  | none => exact hs
  | some v => exact h v (hold v rfl)

theorem entriesHaveDistinctKeys_mergeEntry {target : List (Value × Value)} {entry : Value × Value}
    (htarget : entriesHaveDistinctKeys target = true) (hkey : entry.1.hasDistinctKeys = true)
    (hvalue : entry.2.hasDistinctKeys = true) (hmerges : MergesDistinct entry.2) :
    entriesHaveDistinctKeys (mergeEntry target entry) = true := by
  obtain ⟨hwell, honce⟩ := entriesHaveDistinctKeys_iff_holdsOnce.1 htarget
  refine entriesHaveDistinctKeys_iff_holdsOnce.2 ⟨fun e he => ⟨?_, ?_⟩, fun sought hsought => ?_⟩
  · exact forall_key_mergeEntry (S := fun k => k.hasDistinctKeys = true)
      (fun e he => (hwell e he).1) hkey e he
  · unfold mergeEntry at he
    split at he
    · exact (hwell e (mem_of_mem_remove he)).2
    · exact forall_value_alter (P := fun v => v.hasDistinctKeys = true)
        (fun e he => (hwell e he).2) (hmerges.mergeOnto hvalue) e he
  · exact holdsOnce_mergeEntry (honce sought hsought) fun e he =>
      singlesOut_of_hasDistinctKeys hsought (hwell e he).1 hkey

theorem entriesHaveDistinctKeys_mergeEntries {target source : List (Value × Value)}
    (htarget : entriesHaveDistinctKeys target = true)
    (hsource : ∀ e ∈ source, e.1.hasDistinctKeys = true ∧ e.2.hasDistinctKeys = true)
    (hmerges : ∀ e ∈ source, MergesDistinct e.2) :
    entriesHaveDistinctKeys (mergeEntries target source) = true := by
  rw [mergeEntries_eq_foldl]
  induction source generalizing target with
  | nil => exact htarget
  | cons entry rest ih =>
    obtain ⟨hentry, hrest⟩ := List.forall_mem_cons.1 hsource
    obtain ⟨hmerge, hmerges⟩ := List.forall_mem_cons.1 hmerges
    exact ih (entriesHaveDistinctKeys_mergeEntry htarget hentry.1 hentry.2 hmerge) hrest hmerges

theorem forall_hasDistinctKeys_mergeItem {item : Value}
    (htarget : ∀ x ∈ target, x.hasDistinctKeys = true) (hitem : item.hasDistinctKeys = true)
    (hmerges : MergesDistinct item) : ∀ x ∈ mergeItem target item, x.hasDistinctKeys = true := by
  unfold mergeItem
  split
  · exact forall_alterNamed htarget (hmerges.mergeOnto hitem)
  · exact List.forall_mem_append.2 ⟨htarget, List.forall_mem_singleton.2 hitem⟩

theorem forall_hasDistinctKeys_mergeNamed (htarget : ∀ x ∈ target, x.hasDistinctKeys = true)
    (hsource : ∀ x ∈ source, x.hasDistinctKeys = true)
    (hmerges : ∀ x ∈ source, MergesDistinct x) :
    ∀ x ∈ mergeNamed target source, x.hasDistinctKeys = true := by
  rw [mergeNamed_eq_foldl]
  induction source generalizing target with
  | nil => exact htarget
  | cons item rest ih =>
    obtain ⟨hitem, hrest⟩ := List.forall_mem_cons.1 hsource
    obtain ⟨hmerge, hmerges⟩ := List.forall_mem_cons.1 hmerges
    exact ih (forall_hasDistinctKeys_mergeItem htarget hitem hmerge) hrest hmerges

theorem mergesDistinct (hs : s.hasDistinctKeys = true) : MergesDistinct s := by
  induction s with
  | sequence source ih =>
    have hsource : ∀ x ∈ source, x.hasDistinctKeys = true := itemsHaveDistinctKeys_iff.1 hs
    intro t ht
    rcases merge_spec t (.sequence source) with h | ⟨_, _, -, hother, -⟩ | ⟨items, _, rfl, heq, h⟩
    · rwa [h]
    · exact nomatch hother
    · obtain rfl := Value.sequence.inj heq
      rw [h]
      exact itemsHaveDistinctKeys_iff.2 (forall_hasDistinctKeys_mergeNamed
        (itemsHaveDistinctKeys_iff.1 ht) hsource fun x hx => ih x hx (hsource x hx))
  | mapping source ih =>
    obtain ⟨-, hsource⟩ := entriesHaveDistinctKeys_iff.1 hs
    intro t ht
    rcases merge_spec t (.mapping source) with h | ⟨target, _, rfl, heq, h⟩ | ⟨_, _, -, hother, -⟩
    · rwa [h]
    · obtain rfl := Value.mapping.inj heq
      rw [h]
      exact entriesHaveDistinctKeys_mergeEntries ht hsource fun e he =>
        (ih e he).2 (hsource e he).2
    · exact nomatch hother
  | _ => exact fun t _ => by rwa [merge]

/-- **Merged documents have no key twice**, if the documents that are merged have none. -/
theorem hasDistinctKeys_merge (ht : t.hasDistinctKeys = true) (hs : s.hasDistinctKeys = true) :
    (t.merge s).hasDistinctKeys = true :=
  mergesDistinct hs t ht

/-! ## Key by key -/

/-- What a mapping holds after another one is merged onto it.  Under each key, this depends on what
the two have under it. -/
structure MergesByKey (target source merged : List (Value × Value)) : Prop where
  /-- Null removes a key, also under tags. -/
  removed : ∀ key v, key.hasDistinctKeys = true → Mapping.get? key source = some v →
    v.isNull = true → Mapping.get? key merged = none
  /-- A key that is not in the source is left as it is. -/
  kept : ∀ key, key.hasDistinctKeys = true → Mapping.get? key source = none →
    Mapping.get? key merged = Mapping.get? key target
  /-- A new key has the value of the source as it is, with the nulls in it. -/
  added : ∀ key v, key.hasDistinctKeys = true → Mapping.get? key source = some v →
    v.isNull = false → Mapping.get? key target = none → Mapping.get? key merged = some v
  /-- Under a key that both have, the values are merged. -/
  combined : ∀ key v w, key.hasDistinctKeys = true → Mapping.get? key source = some v →
    v.isNull = false → Mapping.get? key target = some w → Mapping.get? key merged = some (w.merge v)
  /-- No key comes twice. -/
  distinct : merged.Pairwise fun a b => a.1.same b.1 = false

theorem get?_mergeEntries_of_hasDistinctKeys {target source : List (Value × Value)}
    (ht : entriesHaveDistinctKeys target = true) (hs : entriesHaveDistinctKeys source = true)
    (hkey : key.hasDistinctKeys = true) :
    Mapping.get? key (mergeEntries target source) =
      mergeField (Mapping.get? key target) (Mapping.get? key source) := by
  obtain ⟨htwell, htonce⟩ := entriesHaveDistinctKeys_iff_holdsOnce.1 ht
  obtain ⟨hswell, hsonce⟩ := entriesHaveDistinctKeys_iff_holdsOnce.1 hs
  exact get?_mergeEntries (S := fun k => k.hasDistinctKeys = true)
    (fun x y hx hy => singlesOut_of_hasDistinctKeys hkey hx hy) (fun e he => (htwell e he).1)
    (fun e he => (hswell e he).1) (htonce key hkey) (hsonce key hkey)

/-- **Merging mappings is pointwise.**  Under each key, whatever value it is, stands what the two
mappings have under it: nothing if the source holds null, the value of one if the other has none,
and both merged otherwise.  No key comes twice.  This takes that no key comes twice in either of the
two, which is so in every document that was read. -/
theorem mergesByKey_merge {target source : List (Value × Value)}
    (ht : (mapping target).hasDistinctKeys = true) (hs : (mapping source).hasDistinctKeys = true) :
    ∃ merged, (mapping target).merge (mapping source) = mapping merged ∧
      MergesByKey target source merged := by
  have hmerge : (mapping target).merge (mapping source) = mapping (mergeEntries target source) := by
    rw [merge]
  have hdistinct : entriesHaveDistinctKeys (mergeEntries target source) = true := by
    have hmerged := hasDistinctKeys_merge ht hs
    rwa [hmerge] at hmerged
  refine ⟨mergeEntries target source, hmerge, ?_, ?_, ?_, ?_, ?_⟩
  · intro key v hkey hv hnull
    rw [get?_mergeEntries_of_hasDistinctKeys ht hs hkey, hv, mergeField, if_pos hnull]
  · intro key hkey habsent
    rw [get?_mergeEntries_of_hasDistinctKeys ht hs hkey, habsent, mergeField]
  · intro key v hkey hv hnull habsent
    rw [get?_mergeEntries_of_hasDistinctKeys ht hs hkey, hv, habsent, mergeField,
      if_neg (by simp [hnull])]
    rfl
  · intro key v w hkey hv hnull hw
    rw [get?_mergeEntries_of_hasDistinctKeys ht hs hkey, hv, hw, mergeField,
      if_neg (by simp [hnull])]
    rfl
  · exact (entriesHaveDistinctKeys_iff.1 hdistinct).1

/-- Keys that are no texts: a mapping, which is written in two orders, and an undefined number. -/
theorem mergesByKey_merge_sample :
    let place := fun x y => mapping [(.string x, .null), (.string y, .null)]
    let target := [(place "a" "b", .bool true), (.number (.float .nan), .string "kept"),
      (.string "old", .null), (.string "last", mapping [(.string "x", .null)])]
    let source := [(place "b" "a", .tagged "!gone" .null), (.string "last", mapping [
      (.string "x", .string "1")]), (.number (.float .nan), mapping [(.null, .null)])]
    (mapping target).hasDistinctKeys = true ∧ (mapping source).hasDistinctKeys = true ∧
      ∃ merged, (mapping target).merge (mapping source) = mapping merged ∧
        merged = [(.string "last", mapping [(.string "x", .string "1")]),
          (.number (.float .nan), mapping [(.null, .null)]), (.string "old", .null)] ∧
        MergesByKey target source merged := by
  intro place target source
  have ht : (mapping target).hasDistinctKeys = true := by decide
  have hs : (mapping source).hasDistinctKeys = true := by decide
  obtain ⟨merged, hmerge, hkeys⟩ := mergesByKey_merge ht hs
  exact ⟨ht, hs, merged, hmerge, Value.mapping.inj (hmerge.symm.trans (by rfl)), hkeys⟩

end ClusterTuning.Yaml.Value
