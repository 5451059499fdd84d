import ClusterTuning.Proofs.Stream.Named

/-!
# Merging a document again

After a merge every entry that was merged is there, and merging it once more leaves
the entry as it is.  So the second merge changes nothing at all, not even the order
of the entries.  Two things stand in the way: a null, which first comes in with a new
value and then removes its key, and a name that comes twice in the list, the second
entry of which is merged onto the first one.

* `Value.isSettled` — documents without these two;
* `Value.isAbsorbed` — merging them a second time changes nothing;
* `Resource.mergeAll_append_twice` — a document that is repeated in a stream.
-/

namespace ClusterTuning

open Yaml

namespace Yaml.Value

open Mapping

variable {target source items : List Value} {entries : List (Value × Value)}
  {t s v w x y key : Value} {name : String} {change : Option Value → Value}

/-! ## Settled documents -/

mutual

/-- Whether no mapping holds a null, and no list of named entries repeats a name.  What is under a
tag is not looked at, since it is never merged with anything. -/
def isSettled : Value → Bool
  | .sequence items =>
    (!allNamed items || decide (items.map entryName?).Nodup) && itemsAreSettled items
  | .mapping entries => entriesAreSettled entries
  | _ => true

/-- Whether all values of a list are settled. -/
def itemsAreSettled : List Value → Bool
  | [] => true
  | x :: xs => isSettled x && itemsAreSettled xs

/-- Whether the values of all entries are settled and none of them is null. -/
def entriesAreSettled : List (Value × Value) → Bool
  | [] => true
  | (_, v) :: rest => !v.isNull && isSettled v && entriesAreSettled rest

end

theorem itemsAreSettled_iff : itemsAreSettled items = true ↔ ∀ x ∈ items, x.isSettled = true := by
  induction items with
  | nil => simp [itemsAreSettled]
  | cons x rest ih => rw [itemsAreSettled, Bool.and_eq_true, ih, List.forall_mem_cons]

theorem entriesAreSettled_iff :
    entriesAreSettled entries = true ↔
      ∀ e ∈ entries, e.2.isNull = false ∧ e.2.isSettled = true := by
  induction entries with
  | nil => simp [entriesAreSettled]
  | cons e rest ih =>
    rw [entriesAreSettled, Bool.and_eq_true, Bool.and_eq_true, ih, List.forall_mem_cons,
      Bool.not_eq_true']

/-! ## Entries that change nothing -/

/-- Merging a value onto others a second time changes nothing. -/
def IsAbsorbed (s : Value) : Prop :=
  ∀ t : Value, t.hasDistinctKeys = true → (t.merge s).merge s = t.merge s

theorem IsAbsorbed.merge_self (h : IsAbsorbed s) : s.merge s = s := by
  have hnull : Value.null.merge s = s := by
    cases s <;> simp [merge]
  have hself := h .null rfl
  rwa [hnull] at hself

theorem IsAbsorbed.merge_mergeOnto (h : IsAbsorbed s) {old : Option Value}
    (hold : ∀ v ∈ old, v.hasDistinctKeys = true) : (s.mergeOnto old).merge s = s.mergeOnto old := by
  cases old with
  | none => exact h.merge_self
  | some v => exact h v (hold v rfl)

theorem alterNamed_eq_self (hy : items.find? (·.entryName? = some name) = some y)
    (hchange : change (some y) = y) : alterNamed name change items = items := by
  induction items with
  | nil => exact nomatch hy
  | cons x rest ih =>
    rw [alterNamed]
    by_cases hx : x.entryName? = some name
    · rw [List.find?_cons_of_pos (by simpa using hx)] at hy
      obtain rfl := Option.some.inj hy
      rw [if_pos hx, hchange]
    · rw [List.find?_cons_of_neg (by simpa using hx)] at hy
      rw [if_neg hx, ih hy]

/-- Merging entries changes nothing if the mapping has a value for each of them that stays the same. -/
theorem mergeEntries_eq_self {target source : List (Value × Value)}
    (hnull : ∀ e ∈ source, e.2.isNull = false)
    (h : ∀ e ∈ source, ∃ w, Mapping.get? e.1 target = some w ∧ w.merge e.2 = w) :
    mergeEntries target source = target := by
  rw [mergeEntries_eq_foldl]
  induction source with
  | nil => rfl
  | cons e rest ih =>
    obtain ⟨henull, hnull⟩ := List.forall_mem_cons.1 hnull
    obtain ⟨⟨w, hw, hsame⟩, h⟩ := List.forall_mem_cons.1 h
    rw [List.foldl_cons, mergeEntry_of_not_null henull, alter_eq_self hw hsame, ih hnull h]

theorem mergeNamed_eq_self (hnamed : ∀ x ∈ source, ∃ name, x.entryName? = some name)
    (h : ∀ x ∈ source, ∃ y, target.find? (·.entryName? = x.entryName?) = some y ∧ y.merge x = y) :
    mergeNamed target source = target := by
  rw [mergeNamed_eq_foldl]
  induction source with
  | nil => rfl
  | cons x rest ih =>
    obtain ⟨⟨name, hname⟩, hnamed⟩ := List.forall_mem_cons.1 hnamed
    obtain ⟨⟨y, hy, hsame⟩, h⟩ := List.forall_mem_cons.1 h
    rw [hname] at hy
    rw [List.foldl_cons, mergeItem_of_named hname, alterNamed_eq_self hy hsame, ih hnamed h]

/-! ## Mappings -/

theorem get?_of_mem {e : Value × Value} (h : entriesHaveDistinctKeys entries = true)
    (he : e ∈ entries) : Mapping.get? e.1 entries = some e.2 := by
  obtain ⟨hwell, honce⟩ := entriesHaveDistinctKeys_iff_holdsOnce.1 h
  have hkey : e.1.hasDistinctKeys = true := (hwell e he).1
  exact (get?_eq_some_iff (honce e.1 hkey)).2 ⟨e, he, same_self hkey, rfl⟩

theorem mergeEntries_self (hs : entriesHaveDistinctKeys entries = true)
    (hsource : ∀ e ∈ entries, e.2.isNull = false ∧ IsAbsorbed e.2) :
    mergeEntries entries entries = entries := by
  refine mergeEntries_eq_self (fun e he => (hsource e he).1) fun e he => ?_
  exact ⟨e.2, get?_of_mem hs he, (hsource e he).2.merge_self⟩

/-- After the first merge, the value under each key of the source has taken up the one there. -/
theorem mergeEntries_mergeEntries {target source : List (Value × Value)}
    (ht : entriesHaveDistinctKeys target = true) (hs : entriesHaveDistinctKeys source = true)
    (hsource : ∀ e ∈ source, e.2.isNull = false ∧ IsAbsorbed e.2) :
    mergeEntries (mergeEntries target source) source = mergeEntries target source := by
  refine mergeEntries_eq_self (fun e he => (hsource e he).1) fun e he => ?_
  obtain ⟨hnull, habsorbs⟩ := hsource e he
  have hkey : e.1.hasDistinctKeys = true := ((entriesHaveDistinctKeys_iff.1 hs).2 e he).1
  refine ⟨e.2.mergeOnto (Mapping.get? e.1 target), ?_, habsorbs.merge_mergeOnto fun v hv =>
    hasDistinctKeys_of_mapping_get? ht hv⟩
  rw [get?_mergeEntries_of_hasDistinctKeys ht hs hkey, get?_of_mem hs he, mergeField,
    if_neg (by simp [hnull])]
  cases Mapping.get? e.1 target <;> rfl

/-! ## Lists of named entries -/

theorem itemsNamed_of_nodup (hnodup : (items.map entryName?).Nodup) (hx : x ∈ items) :
    itemsNamed x.entryName? items = [x] := by
  induction items with
  | nil => exact absurd hx List.not_mem_nil
  | cons y rest ih =>
    rw [List.map_cons, List.nodup_cons] at hnodup
    rcases List.mem_cons.1 hx with rfl | hx
    · have hrest : ∀ z ∈ rest, z.entryName? ≠ x.entryName? :=
        fun z hz heq => hnodup.1 (heq ▸ List.mem_map_of_mem hz)
      simpa [itemsNamed] using hrest
    · have hy : y.entryName? ≠ x.entryName? :=
        fun heq => hnodup.1 (heq ▸ List.mem_map_of_mem hx)
      rw [itemsNamed, List.filter_cons_of_neg (by simpa using hy)]
      exact ih hnodup.2 hx

theorem find?_of_nodup (hnodup : (items.map entryName?).Nodup) (hx : x ∈ items) :
    items.find? (·.entryName? = x.entryName?) = some x := by
  rw [← List.head?_filter, ← itemsNamed, itemsNamed_of_nodup hnodup hx, List.head?_cons]

theorem mergeNamed_self (hitems : ∀ x ∈ items, WellNamed x)
    (hnodup : (items.map entryName?).Nodup) (habsorbs : ∀ x ∈ items, IsAbsorbed x) :
    mergeNamed items items = items :=
  mergeNamed_eq_self (fun x hx => (hitems x hx).named) fun x hx =>
    ⟨x, find?_of_nodup hnodup hx, (habsorbs x hx).merge_self⟩

/-- After the first merge, the first entry of each name has taken up the entry of this name. -/
theorem mergeNamed_mergeNamed (ht : ∀ x ∈ target, x.hasDistinctKeys = true)
    (hs : ∀ x ∈ source, WellNamed x) (hnodup : (source.map entryName?).Nodup)
    (habsorbs : ∀ x ∈ source, IsAbsorbed x) :
    mergeNamed (mergeNamed target source) source = mergeNamed target source := by
  refine mergeNamed_eq_self (fun x hx => (hs x hx).named) fun x hx => ?_
  refine ⟨x.mergeOnto (target.find? (·.entryName? = x.entryName?)), ?_,
    (habsorbs x hx).merge_mergeOnto fun v hv => ht v (List.mem_of_find?_eq_some hv)⟩
  rw [find?_mergeNamed ht hs, itemsNamed_of_nodup hnodup hx]
  rfl

theorem allNamed_iff :
    allNamed items = true ↔ items.map entryName? ≠ [] ∧ none ∉ items.map entryName? := by
  simp [allNamed, Option.isSome_iff_ne_none]

theorem allNamed_mergeNamed (hnamed : allNamed target = true)
    (ht : ∀ x ∈ target, x.hasDistinctKeys = true) (hs : ∀ x ∈ source, WellNamed x) :
    allNamed (mergeNamed target source) = true := by
  obtain ⟨hne, htarget⟩ := allNamed_iff.1 hnamed
  rw [allNamed_iff, names_mergeNamed ht hs]
  refine ⟨List.append_ne_nil_of_left_ne_nil hne _, ?_⟩
  rw [List.mem_append, mem_newNames, not_or]
  refine ⟨htarget, fun hnone => ?_⟩
  obtain ⟨x, hx, hname⟩ := List.mem_map.1 hnone.1
  obtain ⟨name, hname'⟩ := (hs x hx).named
  exact nomatch hname.symm.trans hname'

/-! ## All values -/

theorem isAbsorbed_sequence (hs : (sequence source).hasDistinctKeys = true)
    (hnodup : allNamed source = true → (source.map entryName?).Nodup)
    (habsorbs : ∀ x ∈ source, IsAbsorbed x) : IsAbsorbed (.sequence source) := by
  have hself : (sequence source).merge (sequence source) = sequence source := by
    rw [merge]
    by_cases hnamed : allNamed source = true
    · rw [hnamed, Bool.and_self, if_pos rfl,
        mergeNamed_self (wellNamed_of_allNamed hnamed hs) (hnodup hnamed) habsorbs]
    · rw [if_neg (by simp [hnamed])]
  intro t ht
  cases t with
  | sequence target =>
    by_cases hnamed : allNamed target = true ∧ allNamed source = true
    · have hsource := wellNamed_of_allNamed hnamed.2 hs
      have hkeys := itemsHaveDistinctKeys_iff.1 ht
      have hmerged := allNamed_mergeNamed hnamed.1 hkeys hsource
      have htwice := mergeNamed_mergeNamed hkeys hsource (hnodup hnamed.2) habsorbs
      simp only [merge, hnamed, hmerged, htwice, Bool.and_self, if_true]
    · have hreplaced : (sequence target).merge (sequence source) = sequence source := by
        rw [merge, if_neg (by simpa using hnamed)]
      rw [hreplaced, hself]
  | _ => simpa only [merge] using hself

theorem isAbsorbed_mapping (hs : (mapping entries).hasDistinctKeys = true)
    (hsource : ∀ e ∈ entries, e.2.isNull = false ∧ IsAbsorbed e.2) : IsAbsorbed (.mapping entries) := by
  intro t ht
  cases t with
  | mapping target =>
    have htwice := mergeEntries_mergeEntries (show entriesHaveDistinctKeys target = true from ht) hs
      hsource
    simp only [merge, htwice]
  | _ => simp only [merge, mergeEntries_self hs hsource]

/-- **Merging a settled document onto others a second time changes nothing.** -/
theorem isAbsorbed (hs : s.hasDistinctKeys = true) (hsettled : s.isSettled = true) :
    IsAbsorbed s := by
  induction s with
  | sequence source ih =>
    rw [isSettled, Bool.and_eq_true, itemsAreSettled_iff] at hsettled
    have hsource : ∀ x ∈ source, x.hasDistinctKeys = true := itemsHaveDistinctKeys_iff.1 hs
    refine isAbsorbed_sequence hs (fun hnamed => by simpa [hnamed] using hsettled.1) ?_
    exact fun x hx => ih x hx (hsource x hx) (hsettled.2 x hx)
  | mapping source ih =>
    rw [isSettled, entriesAreSettled_iff] at hsettled
    obtain ⟨-, hsource⟩ := entriesHaveDistinctKeys_iff.1 hs
    refine isAbsorbed_mapping hs fun e he => ⟨(hsettled e he).1, ?_⟩
    exact (ih e he).2 (hsource e he).2 (hsettled e he).2
  | _ => exact fun t _ => by simp only [merge]

/-- A null comes in with a new value; the second time there is a key that it can remove. -/
example :
    let s := mapping [(.string "a", mapping [(.string "b", .null)])]
    (mapping []).merge s = s ∧ s.merge s = mapping [(.string "a", mapping [])] :=
  ⟨by rfl, by rfl⟩

end Yaml.Value

namespace Resource

open Value

variable {i : Reference} {d s : Value} {c : List (Reference × Value)}

/-! ## Repeated documents -/

theorem forall_hasDistinctKeys_collect (hc : ∀ e ∈ c, e.2.hasDistinctKeys = true)
    (hd : d.hasDistinctKeys = true) : ∀ e ∈ collect i d c, e.2.hasDistinctKeys = true := by
  induction c with
  | nil => simpa [collect] using hd
  | cons e rest ih =>
    obtain ⟨he, hrest⟩ := List.forall_mem_cons.1 hc
    rw [collect]
    split
    · exact List.forall_mem_cons.2 ⟨hasDistinctKeys_merge he hd, hrest⟩
    · exact List.forall_mem_cons.2 ⟨he, ih hrest⟩

theorem forall_hasDistinctKeys_collectAll {entries : List (Reference × Value)}
    (hc : ∀ e ∈ c, e.2.hasDistinctKeys = true) (h : ∀ e ∈ entries, e.2.hasDistinctKeys = true) :
    ∀ e ∈ collectAll c entries, e.2.hasDistinctKeys = true := by
  induction entries generalizing c with
  | nil => exact hc
  | cons e rest ih =>
    obtain ⟨he, hrest⟩ := List.forall_mem_cons.1 h
    exact ih (forall_hasDistinctKeys_collect hc he) hrest

/-- A document is collected once if it comes twice in a row. -/
theorem collect_collect (hc : ∀ e ∈ c, e.2.hasDistinctKeys = true) (hd : IsAbsorbed d) :
    collect i d (collect i d c) = collect i d c := by
  induction c with
  | nil => rw [collect, collect, if_pos rfl, hd.merge_self]
  | cons e rest ih =>
    obtain ⟨he, hrest⟩ := List.forall_mem_cons.1 hc
    rw [collect]
    by_cases hi : e.1 = i
    · rw [if_pos hi, collect, if_pos hi, hd e.2 he]
    · rw [if_neg hi, collect, if_neg hi, ih hrest]

theorem identify_cons (documents : List Value) :
    identify (d :: documents) =
      (identity d).bind fun i => (identify documents).map fun entries => (i, d) :: entries := by
  rw [identify, List.mapM_cons, ← identify]
  cases identity d with
  | error fault => rfl
  | ok i => cases identify documents <;> rfl

theorem mergeAll_append_of_error {documents : List Value} {fault : MergeFault}
    (h : identify documents = .error fault) (further : List Value) :
    mergeAll (documents ++ further) = .error (.merging fault) := by
  have happend : identify (documents ++ further) = .error fault := by
    rw [identify, List.mapM_append, ← identify, h]
    rfl
  show ((identify (documents ++ further)).mapError Failure.merging >>= fun identified =>
    pure ((collectAll [] identified).map (·.2))) = _
  rw [happend]
  rfl

/-- **A document that comes twice in a row counts once**, wherever it is in a stream and whether or
not the stream can be merged. -/
theorem mergeAll_append_twice {before : List Value}
    (hbefore : ∀ d ∈ before, d.hasDistinctKeys = true) (hs : s.hasDistinctKeys = true)
    (hsettled : s.isSettled = true) (after : List Value) :
    mergeAll (before ++ s :: s :: after) = mergeAll (before ++ s :: after) := by
  cases hidentify : identify before with
  | error fault => rw [mergeAll_append_of_error hidentify, mergeAll_append_of_error hidentify]
  | ok entries =>
    obtain ⟨rfl, -⟩ := identify_eq_ok_iff.1 hidentify
    have hcollected : ∀ e ∈ collectAll [] entries, e.2.hasDistinctKeys = true :=
      forall_hasDistinctKeys_collectAll (List.forall_mem_nil _) (List.forall_mem_map.1 hbefore)
    have htwice : ∀ i more, collectAll (collectAll [] entries) ((i, s) :: (i, s) :: more) =
        collectAll (collectAll [] entries) ((i, s) :: more) := by
      intro i more
      simp only [collectAll, List.foldl_cons] at hcollected ⊢
      rw [collect_collect hcollected (isAbsorbed hs hsettled)]
    rw [mergeAll_append hidentify, mergeAll_append hidentify, identify_cons, identify_cons]
    cases identity s with
    | error fault => rfl
    | ok i =>
      cases identify after with
      | error fault => rfl
      | ok more =>
        show Except.ok ((collectAll _ ((i, s) :: (i, s) :: more)).map (·.2)) = _
        rw [htwice]
        rfl

theorem mergeAll_singleton (h : identity s = .ok i) : mergeAll [s] = .ok [s] :=
  mergeAll_eq_ok_iff.2 ⟨[(i, s)], identify_eq_ok_iff.2 ⟨rfl, by simpa using h⟩, rfl⟩

theorem mergeAll_replicate (hs : s.hasDistinctKeys = true) (hsettled : s.isSettled = true)
    (h : identity s = .ok i) (n : Nat) : mergeAll (List.replicate (n + 1) s) = .ok [s] := by
  induction n with
  | zero => exact mergeAll_singleton h
  | succ n ih =>
    exact (mergeAll_append_twice (List.forall_mem_nil _) hs hsettled (List.replicate n s)).trans ih

/-- **Merging a settled document again changes nothing.**  What it was merged onto stays exactly as
it is, with all entries in their order; so does the document itself, and a stream of nothing but
this document becomes this document.  No key may be twice in a mapping, which is so in every
document that was read. -/
theorem merge_merge_of_isSettled {t : Value} (ht : t.hasDistinctKeys = true)
    (hs : s.hasDistinctKeys = true) (hsettled : s.isSettled = true) :
    (t.merge s).merge s = t.merge s ∧ s.merge s = s ∧
      ∀ i, identity s = .ok i → ∀ n, mergeAll (List.replicate (n + 1) s) = .ok [s] :=
  ⟨isAbsorbed hs hsettled t ht, (isAbsorbed hs hsettled).merge_self, fun _ h n =>
    mergeAll_replicate hs hsettled h n⟩

/-- A list of named entries, one of which is new, and nulls that do no harm: under a tag and in a
list. -/
theorem merge_merge_of_isSettled_sample :
    let container := fun name fields => mapping ((.string "name", .string name) :: fields)
    let containers := fun items => ("containers", sequence items)
    let t := sampleDocument "a" none [("old", .null), containers [
      container "x" [(.string "image", .null)], container "x" []]]
    let s := sampleDocument "a" none [containers [container "y" [(.string "args", sequence [.null])],
      container "x" [(.string "image", .tagged "!t" (mapping [(.string "at", .null)]))]]]
    t.hasDistinctKeys = true ∧ s.hasDistinctKeys = true ∧ s.isSettled = true ∧
      identity s = .ok
        { apiVersion := "", kind := "ConfigMap", «namespace» := "", name := "a" } ∧
      (t.merge s).merge s = t.merge s ∧ s.merge s = s ∧
      ∀ i, identity s = .ok i → ∀ n, mergeAll (List.replicate (n + 1) s) = .ok [s] := by
  intro container containers t s
  have ht : t.hasDistinctKeys = true := by decide
  have hs : s.hasDistinctKeys = true := by decide
  have hsettled : s.isSettled = true := by decide
  exact ⟨ht, hs, hsettled, by decide, merge_merge_of_isSettled ht hs hsettled⟩

end Resource

end ClusterTuning
