import ClusterTuning.Proofs.Stream.Incremental
import ClusterTuning.Proofs.Stream.Pointwise

/-!
# Merging lists of named entries

The entries of one list are merged onto those of another one in turn, and each of
them looks for the first entry of its name, which may be one that came in just
before.  Merging does not rename an entry, so that the pass can be followed name by
name: the names that stand in the list grow at the end only, the first entry of a
name takes up one entry of this name after the other, and a later entry of the same
name is never found.

* `Value.entryName?_merge` — merging keeps names;
* `Value.find?_mergeNamed` — what becomes of the first entry of a name;
* `Value.mergesNamed_merge` — what a merged list holds, place by place.
-/

namespace ClusterTuning.Yaml.Value

open Resource (mergeList)

variable {target source items : List Value} {t s x item : Value} {name : String}
  {sought : Option String} {change : Option Value → Value} {i : Nat}

/-! ## Names of merged entries -/

/-- A named entry gives its name to what it is merged onto, be it named or not. -/
theorem entryName?_merge (ht : t.hasDistinctKeys = true) (hs : s.hasDistinctKeys = true)
    (hname : s.entryName? = some name) : (t.merge s).entryName? = some name := by
  obtain ⟨v, hv, htext⟩ := Option.bind_eq_some_iff.1 hname
  rcases get?_merge (distinctFields_of_hasDistinctKeys ht) (distinctFields_of_hasDistinctKeys hs)
    (isSome_asMapping?_of_get? hv) with hreplaced | ⟨-, hget⟩
  · rwa [hreplaced]
  · have hnull : ¬ v.isNull = true := by
      intro h
      rw [asString?_eq_none_of_isNull h] at htext
      exact nomatch htext
    rw [entryName?, hget, hv, mergeField, if_neg hnull, Option.bind_some]
    cases t.get? "name" with
    | none => exact htext
    | some w => rw [Option.elim_some, asString?_merge, htext]

theorem entryName?_mergeOnto {old : Option Value} (hold : ∀ v ∈ old, v.hasDistinctKeys = true)
    (hitem : item.hasDistinctKeys = true) (hname : item.entryName? = some name) :
    (item.mergeOnto old).entryName? = some name := by
  cases old with
  | none => exact hname
  | some v => exact entryName?_merge (hold v rfl) hitem hname

/-! ## Changing the first entry of a name -/

/-- The change gives the name to whatever it gets from the list, and to a new entry. -/
def GivesName (name : String) (change : Option Value → Value) (items : List Value) : Prop :=
  ∀ old : Option Value, (∀ v ∈ old, v ∈ items) → (change old).entryName? = some name

theorem GivesName.of_cons (h : GivesName name change (x :: items)) :
    GivesName name change items :=
  fun old hold => h old fun v hv => List.mem_cons_of_mem x (hold v hv)

/-- A name that is there stays in its place, a new one goes to the end. -/
theorem names_alterNamed (h : GivesName name change items) :
    (alterNamed name change items).map entryName? =
      if some name ∈ items.map entryName? then items.map entryName?
      else items.map entryName? ++ [some name] := by
  induction items with
  | nil => simp [alterNamed, h none (by simp)]
  | cons x rest ih =>
    rw [alterNamed, List.map_cons]
    by_cases hx : x.entryName? = some name
    · have hchanged : (change (some x)).entryName? = some name := h (some x) (by simp)
      simp [hx, hchanged]
    · rw [if_neg hx, List.map_cons, ih h.of_cons]
      by_cases hmem : some name ∈ rest.map entryName?
      · rw [if_pos hmem, if_pos (List.mem_cons_of_mem _ hmem)]
      · rw [if_neg hmem, if_neg (by simpa [Ne.symm hx] using hmem), List.cons_append]

theorem find?_alterNamed (h : GivesName name change items) :
    (alterNamed name change items).find? (·.entryName? = sought) =
      if sought = some name then some (change (items.find? (·.entryName? = sought)))
      else items.find? (·.entryName? = sought) := by
  induction items with
  | nil =>
    have hnew : (change none).entryName? = some name := h none (by simp)
    by_cases hsought : sought = some name
    · simp [alterNamed, hsought, hnew]
    · simp [alterNamed, hsought, hnew, Ne.symm hsought]
  | cons x rest ih =>
    rw [alterNamed]
    by_cases hx : x.entryName? = some name
    · have hchanged : (change (some x)).entryName? = some name := h (some x) (by simp)
      by_cases hsought : sought = some name
      · simp [hx, hchanged, hsought]
      · simp [hx, hchanged, hsought, Ne.symm hsought]
    · rw [if_neg hx, List.find?_cons, List.find?_cons, ih h.of_cons]
      by_cases hsought : sought = some name
      · simp [hsought, hx]
      · simp [hsought]

/-- The name of an entry stands before this place of the list. -/
def RepeatsAt (items : List Value) (i : Nat) (x : Value) : Prop :=
  x.entryName? ∈ (items.map entryName?).take i

/-- The other entries stay: those of other names, and those of this name that come later. -/
theorem getElem?_alterNamed_of_other (hx : items[i]? = some x)
    (hother : x.entryName? = some name → RepeatsAt items i x) :
    (alterNamed name change items)[i]? = some x := by
  induction items generalizing i with
  | nil => exact nomatch hx
  | cons y rest ih =>
    rw [alterNamed]
    cases i with
    | zero =>
      obtain rfl : y = x := Option.some.inj hx
      have hy : y.entryName? ≠ some name := fun hy => List.not_mem_nil (hother hy)
      rw [if_neg hy, List.getElem?_cons_zero]
    | succ i =>
      rw [List.getElem?_cons_succ] at hx
      by_cases hy : y.entryName? = some name
      · rwa [if_pos hy, List.getElem?_cons_succ]
      · rw [if_neg hy, List.getElem?_cons_succ]
        refine ih hx fun hname => ?_
        have hrepeats := hother hname
        rw [RepeatsAt, List.map_cons, List.take_succ_cons, List.mem_cons, hname] at hrepeats
        rw [RepeatsAt, hname]
        exact hrepeats.resolve_left (Ne.symm hy)

/-! ## Merging one entry -/

theorem givesName_mergeOnto (ht : ∀ x ∈ target, x.hasDistinctKeys = true)
    (hitem : item.hasDistinctKeys = true) (hname : item.entryName? = some name) :
    GivesName name item.mergeOnto target :=
  fun _ hold => entryName?_mergeOnto (fun v hv => ht v (hold v hv)) hitem hname

/-- The entry of a list is named and has no key twice. -/
structure WellNamed (item : Value) : Prop where
  named : ∃ name, item.entryName? = some name
  keys : item.hasDistinctKeys = true

theorem wellNamed_of_allNamed (hnamed : allNamed items = true)
    (hkeys : (sequence items).hasDistinctKeys = true) : ∀ x ∈ items, WellNamed x := by
  intro x hx
  rw [allNamed, Bool.and_eq_true, List.all_eq_true] at hnamed
  exact ⟨Option.isSome_iff_exists.1 (hnamed.2 x hx), itemsHaveDistinctKeys_iff.1 hkeys x hx⟩

theorem hasDistinctKeys_mergeItem (ht : ∀ x ∈ target, x.hasDistinctKeys = true)
    (h : WellNamed item) : ∀ x ∈ mergeItem target item, x.hasDistinctKeys = true :=
  forall_hasDistinctKeys_mergeItem ht h.keys (mergesDistinct h.keys)

theorem names_mergeItem (ht : ∀ x ∈ target, x.hasDistinctKeys = true) (h : WellNamed item) :
    (mergeItem target item).map entryName? =
      if item.entryName? ∈ target.map entryName? then target.map entryName?
      else target.map entryName? ++ [item.entryName?] := by
  obtain ⟨name, hname⟩ := h.named
  rw [mergeItem_of_named hname, names_alterNamed (givesName_mergeOnto ht h.keys hname), hname]

theorem find?_mergeItem (ht : ∀ x ∈ target, x.hasDistinctKeys = true) (h : WellNamed item) :
    (mergeItem target item).find? (·.entryName? = sought) =
      if item.entryName? = sought then
        some (item.mergeOnto (target.find? (·.entryName? = sought)))
      else target.find? (·.entryName? = sought) := by
  obtain ⟨name, hname⟩ := h.named
  rw [mergeItem_of_named hname, find?_alterNamed (givesName_mergeOnto ht h.keys hname), hname]
  simp only [eq_comm]

theorem getElem?_mergeItem_of_other (h : WellNamed item) (hx : target[i]? = some x)
    (hother : x.entryName? = item.entryName? → RepeatsAt target i x) :
    (mergeItem target item)[i]? = some x := by
  obtain ⟨name, hname⟩ := h.named
  rw [hname] at hother
  rw [mergeItem_of_named hname]
  exact getElem?_alterNamed_of_other hx hother

/-! ## Merging all entries -/

/-- The names that are not known yet, in the order in which they first occur. -/
def newNames (known names : List (Option String)) : List (Option String) :=
  (names.filter (· ∉ known)).eraseDups

theorem newNames_cons (known names : List (Option String)) (n : Option String) :
    newNames known (n :: names) =
      if n ∈ known then newNames known names else n :: newNames (known ++ [n]) names := by
  by_cases hn : n ∈ known
  · simp [newNames, hn]
  · rw [if_neg hn, newNames, List.filter_cons_of_pos (by simpa using hn), List.eraseDups_cons,
      List.filter_filter, newNames]
    refine congrArg (fun ns : List (Option String) => n :: ns.eraseDups) ?_
    refine List.filter_congr fun m _ => ?_
    rw [Bool.eq_iff_iff]
    simp [and_comm]

theorem nodup_eraseDups {α : Type} [BEq α] [LawfulBEq α] : ∀ xs : List α, xs.eraseDups.Nodup
  | [] => List.nodup_nil
  | x :: xs => by
    have hlength := List.length_filter_le (fun y => !y == x) xs
    rw [List.eraseDups_cons, List.nodup_cons]
    exact ⟨by simp, nodup_eraseDups (xs.filter fun y => !y == x)⟩
termination_by xs => xs.length
decreasing_by simp only [List.length_cons]; omega

theorem mem_newNames {known names : List (Option String)} {n : Option String} :
    n ∈ newNames known names ↔ n ∈ names ∧ n ∉ known := by
  simp [newNames]

/-- A new name did not come before. -/
theorem not_mem_take_newNames {known names : List (Option String)} {n : Option String}
    (h : (newNames known names)[i]? = some n) : n ∉ (newNames known names).take i := by
  intro htake
  have hnodup : (newNames known names).Nodup := nodup_eraseDups _
  have hdrop : n ∈ (newNames known names).drop i := by
    refine List.mem_of_getElem? (i := 0) ?_
    rwa [List.getElem?_drop]
  exact List.disjoint_take_drop hnodup (Nat.le_refl i) htake hdrop

theorem names_mergeNamed (ht : ∀ x ∈ target, x.hasDistinctKeys = true)
    (hs : ∀ x ∈ source, WellNamed x) :
    (mergeNamed target source).map entryName? =
      target.map entryName? ++ newNames (target.map entryName?) (source.map entryName?) := by
  rw [mergeNamed_eq_foldl]
  induction source generalizing target with
  | nil => simp [newNames]
  | cons item rest ih =>
    obtain ⟨hitem, hrest⟩ := List.forall_mem_cons.1 hs
    rw [List.foldl_cons, ih (hasDistinctKeys_mergeItem ht hitem) hrest, names_mergeItem ht hitem,
      List.map_cons, newNames_cons]
    by_cases hmem : item.entryName? ∈ target.map entryName?
    · simp only [if_pos hmem]
    · simp only [if_neg hmem, List.append_assoc, List.singleton_append]

/-- The entries of a name. -/
def itemsNamed (sought : Option String) (items : List Value) : List Value :=
  items.filter (·.entryName? = sought)

/-- Merges entries one after the other onto one that may be there. -/
def mergeOntoAll (old : Option Value) (source : List Value) : Option Value :=
  source.foldl (fun old item => some (item.mergeOnto old)) old

theorem mergeOntoAll_some (v : Value) (source : List Value) :
    mergeOntoAll (some v) source = some (source.foldl merge v) := by
  induction source generalizing v with
  | nil => rfl
  | cons item rest ih => exact ih (v.merge item)

theorem mergeOntoAll_none (source : List Value) : mergeOntoAll none source = mergeList source := by
  cases source with
  | nil => rfl
  | cons item rest => exact mergeOntoAll_some item rest

theorem find?_mergeNamed (ht : ∀ x ∈ target, x.hasDistinctKeys = true)
    (hs : ∀ x ∈ source, WellNamed x) :
    (mergeNamed target source).find? (·.entryName? = sought) =
      mergeOntoAll (target.find? (·.entryName? = sought)) (itemsNamed sought source) := by
  rw [mergeNamed_eq_foldl]
  induction source generalizing target with
  | nil => rfl
  | cons item rest ih =>
    obtain ⟨hitem, hrest⟩ := List.forall_mem_cons.1 hs
    rw [List.foldl_cons, ih (hasDistinctKeys_mergeItem ht hitem) hrest, find?_mergeItem ht hitem]
    by_cases hname : item.entryName? = sought
    · rw [if_pos hname, itemsNamed, itemsNamed, List.filter_cons_of_pos (by simpa using hname)]
      rfl
    · rw [if_neg hname, itemsNamed, itemsNamed, List.filter_cons_of_neg (by simpa using hname)]

theorem RepeatsAt.mergeItem (h : RepeatsAt target i x) (ht : ∀ x ∈ target, x.hasDistinctKeys = true)
    (hitem : WellNamed item) : RepeatsAt (mergeItem target item) i x := by
  rw [RepeatsAt, names_mergeItem ht hitem]
  split
  · exact h
  · rw [List.take_append]
    exact List.mem_append_left _ h

theorem getElem?_mergeNamed_of_other (ht : ∀ x ∈ target, x.hasDistinctKeys = true)
    (hs : ∀ x ∈ source, WellNamed x) (hx : target[i]? = some x)
    (hother : x.entryName? ∈ source.map entryName? → RepeatsAt target i x) :
    (mergeNamed target source)[i]? = some x := by
  rw [mergeNamed_eq_foldl]
  induction source generalizing target with
  | nil => exact hx
  | cons item rest ih =>
    obtain ⟨hitem, hrest⟩ := List.forall_mem_cons.1 hs
    rw [List.map_cons, List.mem_cons, or_imp] at hother
    exact ih (hasDistinctKeys_mergeItem ht hitem) hrest
      (getElem?_mergeItem_of_other hitem hx hother.1)
      fun hmem => (hother.2 hmem).mergeItem ht hitem

/-! ## Place by place -/

/-- The first entry of a name is the one at the place where the name first occurs. -/
theorem find?_eq_some_of_not_repeatsAt (hx : items[i]? = some x) (hfirst : ¬ RepeatsAt items i x) :
    items.find? (·.entryName? = x.entryName?) = some x := by
  induction items generalizing i with
  | nil => exact nomatch hx
  | cons y rest ih =>
    cases i with
    | zero =>
      obtain rfl : y = x := Option.some.inj hx
      simp
    | succ i =>
      rw [RepeatsAt, List.map_cons, List.take_succ_cons, List.mem_cons, not_or] at hfirst
      rw [List.find?_cons_of_neg (by simpa using Ne.symm hfirst.1)]
      exact ih hx hfirst.2

/-- What stands at the first place of a name comes from the first entry of this name in the target,
if there is one, and from all of them in the source. -/
theorem getElem?_mergeNamed_of_first (ht : ∀ x ∈ target, x.hasDistinctKeys = true)
    (hs : ∀ x ∈ source, WellNamed x) {n : Option String}
    (hn : ((mergeNamed target source).map entryName?)[i]? = some n)
    (hfirst : n ∉ ((mergeNamed target source).map entryName?).take i) :
    (mergeNamed target source)[i]? =
      mergeOntoAll (target.find? (·.entryName? = n)) (itemsNamed n source) := by
  rw [List.getElem?_map] at hn
  obtain ⟨y, hy, rfl⟩ := Option.map_eq_some_iff.1 hn
  rw [← find?_mergeNamed ht hs, find?_eq_some_of_not_repeatsAt hy hfirst, hy]

/-- What a list of named entries holds after another one is merged onto it. -/
structure MergesNamed (target source merged : List Value) : Prop where
  /-- Every entry keeps its place and its name, and the names that are new follow, each of them
  once and in the order in which they first occur. -/
  names : merged.map entryName? =
    target.map entryName? ++ newNames (target.map entryName?) (source.map entryName?)
  /-- The first entry of a name takes up all entries of this name in turn. -/
  first : ∀ (i : Nat) (x : Value), target[i]? = some x → x.entryName? ∉ (target.map entryName?).take i →
    merged[i]? = some ((itemsNamed x.entryName? source).foldl merge x)
  /-- A later entry of a name is left as it is. -/
  later : ∀ (i : Nat) (x : Value), target[i]? = some x → x.entryName? ∈ (target.map entryName?).take i →
    merged[i]? = some x
  /-- An entry whose name is not in the source is left as it is. -/
  absent : ∀ (i : Nat) (x : Value), target[i]? = some x → x.entryName? ∉ source.map entryName? →
    merged[i]? = some x
  /-- A new entry is made of all entries of its name, merged onto the first of them in turn. -/
  added : ∀ (i : Nat) n, (newNames (target.map entryName?) (source.map entryName?))[i]? = some n →
    ∃ first rest, itemsNamed n source = first :: rest ∧
      merged[target.length + i]? = some (rest.foldl merge first)

/-- **Merging lists of named entries loses and duplicates nothing.**  Every entry keeps its place
and its name; the first entry of a name takes up all the entries of this name in the source, and the
others are left as they are.  Each name that is new comes once, behind the others. -/
theorem mergesNamed_merge (hnamed : allNamed target = true) (hsnamed : allNamed source = true)
    (ht : (sequence target).hasDistinctKeys = true)
    (hs : (sequence source).hasDistinctKeys = true) :
    ∃ merged, (sequence target).merge (sequence source) = sequence merged ∧
      MergesNamed target source merged := by
  have hkeys : ∀ x ∈ target, x.hasDistinctKeys = true := itemsHaveDistinctKeys_iff.1 ht
  have hsource : ∀ x ∈ source, WellNamed x := wellNamed_of_allNamed hsnamed hs
  have hnames := names_mergeNamed hkeys hsource
  refine ⟨mergeNamed target source, by simp [merge, hnamed, hsnamed], hnames, ?_, ?_, ?_, ?_⟩
  · intro i x hx hfirst
    have hi : i < (target.map entryName?).length := by
      rw [List.length_map]
      exact (List.getElem?_eq_some_iff.1 hx).1
    have hname : ((mergeNamed target source).map entryName?)[i]? = some x.entryName? := by
      rw [hnames, List.getElem?_append_left hi, List.getElem?_map, hx, Option.map_some]
    have hfirst' : x.entryName? ∉ ((mergeNamed target source).map entryName?).take i := by
      rwa [hnames, List.take_append_of_le_length (Nat.le_of_lt hi)]
    rw [getElem?_mergeNamed_of_first hkeys hsource hname hfirst',
      find?_eq_some_of_not_repeatsAt hx hfirst, mergeOntoAll_some]
  · intro i x hx hrepeats
    exact getElem?_mergeNamed_of_other hkeys hsource hx fun _ => hrepeats
  · intro i x hx habsent
    exact getElem?_mergeNamed_of_other hkeys hsource hx fun hmem => absurd hmem habsent
  · intro i n hn
    obtain ⟨hmem, hnew⟩ := mem_newNames.1 (List.mem_of_getElem? hn)
    have hname : ((mergeNamed target source).map entryName?)[target.length + i]? = some n := by
      rw [hnames, List.getElem?_append_right (by simp)]
      simpa using hn
    have hfirst' : n ∉ ((mergeNamed target source).map entryName?).take (target.length + i) := by
      rw [hnames, ← List.length_map entryName?, List.take_length_add_append, List.mem_append, not_or]
      exact ⟨hnew, not_mem_take_newNames hn⟩
    have habsent : target.find? (·.entryName? = n) = none := by
      rw [List.find?_eq_none]
      intro x hx hxn
      exact hnew (List.mem_map.2 ⟨x, hx, by simpa using hxn⟩)
    rw [getElem?_mergeNamed_of_first hkeys hsource hname hfirst', habsent, mergeOntoAll_none]
    obtain ⟨x, hx, rfl⟩ := List.mem_map.1 hmem
    have hnamed : x ∈ itemsNamed x.entryName? source := List.mem_filter.2 ⟨hx, by simp⟩
    cases hitems : itemsNamed x.entryName? source with
    | nil => exact absurd (hitems ▸ hnamed) List.not_mem_nil
    | cons first rest => exact ⟨first, rest, rfl, rfl⟩

/-- A name that comes twice in both lists, one that is new and comes twice, a name under a tag that
is merged onto one without it, and a tagged entry that replaces the one of its name. -/
theorem mergesNamed_merge_sample :
    let entry := fun name fields => mapping ((.string "name", name) :: fields)
    let image := fun v => (.string "image", v)
    let target := [entry (.string "a") [image (.string "1")], entry (.string "b") [],
      entry (.string "a") [image (.string "9")]]
    let source := [entry (.string "c") [image (.string "5")],
      entry (.string "a") [image .null, (.string "port", .bool true)],
      .tagged "!new" (entry (.string "b") [image .null]), entry (.tagged "!t" (.string "a")) [],
      entry (.string "c") [image .null]]
    allNamed target = true ∧ allNamed source = true ∧
      (sequence target).hasDistinctKeys = true ∧ (sequence source).hasDistinctKeys = true ∧
      ∃ merged, (sequence target).merge (sequence source) = sequence merged ∧
        merged = [entry (.tagged "!t" (.string "a")) [(.string "port", .bool true)],
          .tagged "!new" (entry (.string "b") [image .null]),
          entry (.string "a") [image (.string "9")], entry (.string "c") []] ∧
        MergesNamed target source merged := by
  intro entry image target source
  have hnamed : allNamed target = true := by decide
  have hsnamed : allNamed source = true := by decide
  have ht : (sequence target).hasDistinctKeys = true := by decide
  have hs : (sequence source).hasDistinctKeys = true := by decide
  obtain ⟨merged, hmerge, hentries⟩ := mergesNamed_merge hnamed hsnamed ht hs
  exact ⟨hnamed, hsnamed, ht, hs, merged, hmerge,
    Value.sequence.inj (hmerge.symm.trans (by rfl)), hentries⟩

end ClusterTuning.Yaml.Value
