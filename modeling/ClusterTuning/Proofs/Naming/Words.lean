import ClusterTuning.Proofs.Naming.Entries
import Mathlib.Data.List.Induction
import Mathlib.Tactic.Common

/-!
# When two parameters have the same name

The parts of a name are joined by underscores, and nothing marks where one part
ends.  So what a name tells is the list of its *words*: its parts, each of them
cut at every underscore.

* `Namer.name_eq_name_iff` — two names are equal exactly when their words are;
* `Namer.name_eq_name_iff_of_separatorFree` — without separators in the parts, a
  name tells the kind, the resource, the field and, for a resource that is
  selected more than once, the list entries on the path.
-/

namespace ClusterTuning

/-! ## Lower case makes no underscores -/

namespace Text

theorem eq_underscore_of_toLower {c : Char} (hc : c.toNat < 128) (h : c.toLower = '_') :
    c = '_' := by
  have all : ∀ n < 128, (Char.ofNat n).toLower = '_' → Char.ofNat n = '_' := by decide
  have := all c.toNat hc
  rw [Char.ofNat_toNat] at this
  exact this h

/-- A number that is no code point gives the character with number zero. -/
theorem toNat_ofNat_eq_or (n : Nat) : (Char.ofNat n).toNat = n ∨ (Char.ofNat n).toNat = 0 := by
  by_cases h : n.isValidChar
  · rw [Char.ofNat, dif_pos h]
    exact .inl rfl
  · rw [Char.ofNat, dif_neg h]
    exact .inr rfl

set_option maxRecDepth 20000 in
/-- The lower-case forms of the table come after the underscore. -/
theorem underscore_lt_of_mem_caseRuns :
    ∀ run ∈ caseRuns, 95 < (run.first : Int) + run.distance := by
  decide

theorem eq_of_underscore_mem_lowerChar {c : Char} (h : '_' ∈ lowerChar c) : c = '_' := by
  unfold lowerChar at h
  split at h
  · next hc => exact eq_underscore_of_toLower hc (List.mem_singleton.1 h).symm
  · split at h
    · exact absurd h (by decide)
    · split at h
      · next run hrun =>
        have hcovers := List.find?_some hrun
        have hlt := underscore_lt_of_mem_caseRuns run (List.mem_of_find?_eq_some hrun)
        have hcode : ('_').toNat = (Char.ofNat (c.toNat + run.distance).toNat).toNat :=
          congrArg Char.toNat (List.mem_singleton.1 h)
        simp only [CaseRun.covers, Bool.and_eq_true, decide_eq_true_eq] at hcovers
        have h95 : ('_').toNat = 95 := by decide
        rcases toNat_ofNat_eq_or (c.toNat + run.distance).toNat with hn | hn <;> omega
      · exact (List.mem_singleton.1 h).symm

theorem underscore_mem_of_mem_lowerAfter {before s : List Char} (h : '_' ∈ lowerAfter before s) :
    '_' ∈ s := by
  induction s generalizing before with
  | nil => exact absurd h List.not_mem_nil
  | cons c s ih =>
    rw [lowerAfter, List.mem_append] at h
    rcases h with h | h
    · split at h
      · split at h <;> exact absurd h (by decide)
      · rw [eq_of_underscore_mem_lowerChar h]
        exact List.mem_cons_self
    · exact List.mem_cons_of_mem c (ih h)

theorem underscore_not_mem_lowercase {s : List Char} (h : '_' ∉ s) : '_' ∉ lowercase s :=
  fun hmem => h (underscore_mem_of_mem_lowerAfter hmem)

end Text

namespace Namer

open Text

/-! ## What a namer knows of its targets -/

variable {T S : List Reference}

/-- How many targets have the kind and the name of a resource. -/
def occurrences (T : List Reference) (t : Reference) : Nat :=
  T.countP fun r => r.kind = t.kind ∧ r.name = t.name

theorem occurrences_append (T U : List Reference) (t : Reference) :
    occurrences (T ++ U) t = occurrences T t + occurrences U t :=
  List.countP_append

theorem occurrences_ne_zero_iff {t : Reference} :
    occurrences T t ≠ 0 ↔ ∃ r ∈ T, r.kind = t.kind ∧ r.name = t.name := by
  simp [occurrences, List.countP_eq_zero]

/-- Counting a resource once more changes its own count and no other. -/
theorem count?_select (namer : Namer) (r t : Reference) :
    (namer.select r).count? t =
      if r.kind = t.kind ∧ r.name = t.name then some (namer.selectionCount t + 1)
      else namer.count? t := by
  unfold selectionCount count? select
  rw [Dictionary.get?_alter]
  by_cases hkind : t.kind = r.kind
  · rw [if_pos hkind, Option.bind_some, Dictionary.get?_alter, hkind]
    by_cases hname : t.name = r.name
    · rw [if_pos hname, if_pos ⟨rfl, hname.symm⟩, hname]
      cases namer.counts.get? r.kind <;> rfl
    · rw [if_neg hname, if_neg fun h => hname h.2.symm]
      cases namer.counts.get? r.kind <;> rfl
  · rw [if_neg hkind, if_neg fun h => hkind h.1.symm]

/-- A namer finds the number of targets that are the resource, if there are any. -/
theorem count?_ofTargets (T : List Reference) (t : Reference) :
    (ofTargets T).count? t = if occurrences T t = 0 then none else some (occurrences T t) := by
  induction T using List.reverseRecOn with
  | nil => rfl
  | append_singleton T r ih =>
    have hone : occurrences [r] t = if r.kind = t.kind ∧ r.name = t.name then 1 else 0 := by
      simp [occurrences, List.countP_singleton]
    rw [ofTargets, List.foldl_append, List.foldl_cons, List.foldl_nil, ← ofTargets, count?_select,
      selectionCount, ih, occurrences_append, hone]
    by_cases hsame : r.kind = t.kind ∧ r.name = t.name
    · rw [if_pos hsame, if_pos hsame, if_neg (Nat.succ_ne_zero _)]
      by_cases hzero : occurrences T t = 0
      · rw [if_pos hzero, hzero, Option.getD_none]
      · rw [if_neg hzero, Option.getD_some]
    · rw [if_neg hsame, if_neg hsame, Nat.add_zero]

theorem selectionCount_ofTargets (t : Reference) :
    (ofTargets T).selectionCount t = occurrences T t := by
  rw [selectionCount, count?_ofTargets]
  by_cases hzero : occurrences T t = 0
  · rw [if_pos hzero, hzero, Option.getD_none]
  · rw [if_neg hzero, Option.getD_some]

theorem isSome_count?_ofTargets {t : Reference} :
    ((ofTargets T).count? t).isSome ↔ occurrences T t ≠ 0 := by
  rw [count?_ofTargets]
  by_cases hzero : occurrences T t = 0
  · simp [hzero]
  · simp [hzero]

/-- The kinds in the table of a namer are those of its targets. -/
theorem isSome_get?_counts_ofTargets {kind : String} :
    ((ofTargets T).counts.get? kind).isSome ↔ ∃ t ∈ T, t.kind = kind := by
  induction T using List.reverseRecOn with
  | nil => simp [ofTargets, empty]
  | append_singleton T r ih =>
    rw [ofTargets, List.foldl_append, List.foldl_cons, List.foldl_nil, ← ofTargets, select,
      Dictionary.get?_alter]
    by_cases hkind : kind = r.kind
    · simp [hkind]
    · rw [if_neg hkind, ih]
      simp [Ne.symm hkind]

theorem needsKind_ofTargets :
    (ofTargets T).needsKind = true ↔ ∃ a ∈ T, ∃ b ∈ T, a.kind ≠ b.kind := by
  rw [needsKind, decide_eq_true_iff, Dictionary.one_lt_size_iff]
  simp only [isSome_get?_counts_ofTargets]
  constructor
  · rintro ⟨j, k, hne, ⟨a, ha, rfl⟩, ⟨b, hb, rfl⟩⟩
    exact ⟨a, ha, b, hb, hne⟩
  · rintro ⟨a, ha, b, hb, hne⟩
    exact ⟨a.kind, b.kind, hne, ⟨a, ha, rfl⟩, ⟨b, hb, rfl⟩⟩

theorem needsName_ofTargets :
    (ofTargets T).needsName = true ↔ ∃ a ∈ T, ∃ b ∈ T, a.kind = b.kind ∧ a.name ≠ b.name := by
  have hcount : ∀ kind names name, (ofTargets T).counts.get? kind = some names →
      ((names.get? name).isSome ↔ ∃ r ∈ T, r.kind = kind ∧ r.name = name) := by
    intro kind names name hnames
    have hfound : (ofTargets T).count? { apiVersion := "", kind, name } = names.get? name := by
      rw [count?, hnames, Option.bind_some]
    rw [← hfound, isSome_count?_ofTargets, occurrences_ne_zero_iff]
  rw [needsName, List.any_eq_true]
  constructor
  · rintro ⟨⟨kind, names⟩, hmem, hsize⟩
    have hnames := SortedMap.get?_of_mem (ofTargets T).counts.sorted hmem
    obtain ⟨m, n, hne, hm, hn⟩ := Dictionary.one_lt_size_iff.1 (decide_eq_true_iff.1 hsize)
    obtain ⟨a, ha, hkind, rfl⟩ := (hcount kind names m hnames).1 hm
    obtain ⟨b, hb, hkind', rfl⟩ := (hcount kind names n hnames).1 hn
    exact ⟨a, ha, b, hb, hkind.trans hkind'.symm, hne⟩
  · rintro ⟨a, ha, b, hb, hkind, hne⟩
    obtain ⟨names, hnames⟩ := Option.isSome_iff_exists.1
      (isSome_get?_counts_ofTargets.2 ⟨a, ha, rfl⟩)
    have hsize : 1 < names.size := Dictionary.one_lt_size_iff.2 ⟨a.name, b.name, hne,
      (hcount _ _ _ hnames).2 ⟨a, ha, rfl, rfl⟩, (hcount _ _ _ hnames).2 ⟨b, hb, hkind.symm, rfl⟩⟩
    exact ⟨(a.kind, names), SortedMap.mem_of_get? hnames, decide_eq_true_iff.2 hsize⟩

/-- **A namer depends on nothing but how often each kind and name is selected.** -/
theorem ofTargets_eq_of_occurrences (h : ∀ t, occurrences T t = occurrences S t) :
    ofTargets T = ofTargets S := by
  have hkinds : ∀ kind, ((ofTargets T).counts.get? kind).isSome ↔
      ((ofTargets S).counts.get? kind).isSome := by
    have hcounted : ∀ (T : List Reference) kind,
        (∃ t ∈ T, t.kind = kind) ↔ ∃ t, t.kind = kind ∧ occurrences T t ≠ 0 := by
      intro T kind
      simp only [occurrences_ne_zero_iff]
      constructor
      · rintro ⟨t, ht, rfl⟩
        exact ⟨t, rfl, t, ht, rfl, rfl⟩
      · rintro ⟨t, rfl, r, hr, hkind, -⟩
        exact ⟨r, hr, hkind⟩
    intro kind
    simp only [isSome_get?_counts_ofTargets, hcounted, h]
  refine Namer.ext (Dictionary.eq_of_get? fun kind => ?_)
  cases hT : (ofTargets T).counts.get? kind with
  | none =>
    have hnone := (hkinds kind).not.1 (by simp [hT])
    exact (Option.not_isSome_iff_eq_none.1 hnone).symm
  | some names =>
    obtain ⟨names', hS⟩ := Option.isSome_iff_exists.1 ((hkinds kind).1 (by simp [hT]))
    rw [hS]
    refine congrArg some (Dictionary.eq_of_get? fun name => ?_)
    have hsame : (ofTargets T).count? { apiVersion := "", kind, name } =
        (ofTargets S).count? { apiVersion := "", kind, name } := by
      rw [count?_ofTargets, count?_ofTargets, h]
    rwa [count?, count?, hT, hS] at hsame

/-- The order of the targets does not show in their namer. -/
theorem ofTargets_eq_of_perm (h : T.Perm S) : ofTargets T = ofTargets S :=
  ofTargets_eq_of_occurrences fun _ => h.countP_eq _

/-! ## Words -/

/-- The parts that come before the field itself. -/
def leadingParts (namer : Namer) (target : Reference) (path : List String) : List (List Char) :=
  (if namer.needsKind then [lowercase target.kind.toList] else []) ++
    (if namer.needsName then pieces '-' target.name.toList else []) ++
    (if 1 < namer.selectionCount target then entryValues path else [])

theorem parts_eq (namer : Namer) (target : Reference) (path : List String) (leaf : String) :
    namer.parts target path leaf = namer.leadingParts target path ++ [leaf.toList] :=
  rfl

/-- The words of a name before those of the field itself. -/
def leadingWords (namer : Namer) (target : Reference) (path : List String) : List (List Char) :=
  (namer.leadingParts target path).flatMap (pieces '_')

/-- **Two names are equal exactly when they have the same words.** -/
theorem name_eq_name_iff {namer : Namer} {t u : Reference} {p q : List String} {l m : String} :
    namer.name t p l = namer.name u q m ↔
      namer.leadingWords t p ++ pieces '_' l.toList =
        namer.leadingWords u q ++ pieces '_' m.toList := by
  have hne : ∀ t p l, namer.parts t p l ≠ [] := fun t p l => by simp [parts_eq]
  rw [name, name, String.ofList_inj, glue_eq_glue_iff (hne t p l) (hne u q m), parts_eq, parts_eq,
    List.flatMap_append, List.flatMap_append, List.flatMap_singleton, List.flatMap_singleton]
  rfl

/-! ## Parts without separators -/

/-- No part of a name that comes before the field itself holds a character at which names are put
together or cut. -/
structure SeparatorFree (target : Reference) (path : List String) : Prop where
  kind : '_' ∉ target.kind.toList
  name : '_' ∉ target.name.toList ∧ '-' ∉ target.name.toList
  values : ∀ segment ∈ path, ∀ value, IsEntry segment value → '_' ∉ value.toList

variable {t u : Reference} {p q : List String} {l m : String}

/-- Such a resource name is one part. -/
theorem SeparatorFree.pieces_name (h : SeparatorFree t p) :
    pieces '-' t.name.toList = [t.name.toList] :=
  pieces_of_not_mem h.name.2

theorem SeparatorFree.leadingWords_eq (namer : Namer) (h : SeparatorFree t p) :
    namer.leadingWords t p = namer.leadingParts t p := by
  refine flatMap_pieces_of_not_mem fun part hpart => ?_
  rw [leadingParts, List.mem_append, List.mem_append] at hpart
  rcases hpart with (hpart | hpart) | hpart
  · rw [List.mem_ite_nil_right, List.mem_singleton] at hpart
    rw [hpart.2]
    exact underscore_not_mem_lowercase h.kind
  · rw [List.mem_ite_nil_right, h.pieces_name, List.mem_singleton] at hpart
    rw [hpart.2]
    exact h.name.1
  · rw [List.mem_ite_nil_right, mem_entryValues_iff] at hpart
    obtain ⟨-, segment, hsegment, hentry⟩ := hpart
    rw [← String.toList_ofList (l := part)]
    exact h.values segment hsegment _ hentry

/-- Two fields with the same parts have the same kind, name and, where they count, entry values. -/
theorem eq_of_leadingParts_eq
    (hkinds : ∀ a ∈ T, ∀ b ∈ T, lowercase a.kind.toList = lowercase b.kind.toList → a.kind = b.kind)
    (ht : t ∈ T) (hu : u ∈ T) (hp : SeparatorFree t p) (hq : SeparatorFree u q)
    (h : (ofTargets T).leadingParts t p = (ofTargets T).leadingParts u q) :
    t.kind = u.kind ∧ t.name = u.name ∧ (1 < occurrences T t → entryValues p = entryValues q) := by
  rw [leadingParts, leadingParts, hp.pieces_name, hq.pieces_name] at h
  obtain ⟨hleft, hvalues⟩ := List.append_inj h (by split_ifs <;> rfl)
  obtain ⟨hkindParts, hnameParts⟩ := List.append_inj hleft (by split_ifs <;> rfl)
  have hkind : t.kind = u.kind := by
    by_cases hk : (ofTargets T).needsKind = true
    · rw [if_pos hk, if_pos hk] at hkindParts
      exact hkinds t ht u hu (List.singleton_inj.1 hkindParts)
    · by_contra hne
      exact hk (needsKind_ofTargets.2 ⟨t, ht, u, hu, hne⟩)
  have hname : t.name = u.name := by
    by_cases hn : (ofTargets T).needsName = true
    · rw [if_pos hn, if_pos hn] at hnameParts
      exact String.toList_inj.1 (List.singleton_inj.1 hnameParts)
    · by_contra hne
      exact hn (needsName_ofTargets.2 ⟨t, ht, u, hu, hkind, hne⟩)
  refine ⟨hkind, hname, fun hcount => ?_⟩
  have hsame : occurrences T u = occurrences T t := by rw [occurrences, occurrences, hkind, hname]
  rwa [selectionCount_ofTargets, selectionCount_ofTargets, hsame, if_pos hcount,
    if_pos hcount] at hvalues

/-- Without separators, the words before the field tell the resource and, where it is selected more
than once, the list entries. -/
theorem leadingWords_eq_iff
    (hkinds : ∀ a ∈ T, ∀ b ∈ T, lowercase a.kind.toList = lowercase b.kind.toList → a.kind = b.kind)
    (ht : t ∈ T) (hu : u ∈ T) (hp : SeparatorFree t p) (hq : SeparatorFree u q) :
    (ofTargets T).leadingWords t p = (ofTargets T).leadingWords u q ↔
      t.kind = u.kind ∧ t.name = u.name ∧
        (1 < occurrences T t → ∃ values, HasEntryValues p values ∧ HasEntryValues q values) := by
  rw [exists_hasEntryValues_iff, hp.leadingWords_eq, hq.leadingWords_eq]
  constructor
  · exact eq_of_leadingParts_eq hkinds ht hu hp hq
  · rintro ⟨hkind, hname, hvalues⟩
    have hsame : occurrences T u = occurrences T t := by
      rw [occurrences, occurrences, hkind, hname]
    rw [leadingParts, leadingParts, selectionCount_ofTargets, selectionCount_ofTargets, hsame,
      hkind, hname]
    by_cases hcount : 1 < occurrences T t
    · rw [if_pos hcount, if_pos hcount, hvalues hcount]
    · rw [if_neg hcount, if_neg hcount]

/-- **Names without separators tell what they name.**  If no two kinds of the targets become equal
in lower case, two such names are equal exactly when they are made for the same kind, resource name
and field and, where this resource is selected more than once, for the same list entries. -/
theorem name_eq_name_iff_of_separatorFree
    (hkinds : ∀ a ∈ T, ∀ b ∈ T, lowercase a.kind.toList = lowercase b.kind.toList → a.kind = b.kind)
    (ht : t ∈ T) (hu : u ∈ T) (hp : SeparatorFree t p) (hq : SeparatorFree u q)
    (hl : '_' ∉ l.toList) (hm : '_' ∉ m.toList) :
    (ofTargets T).name t p l = (ofTargets T).name u q m ↔
      t.kind = u.kind ∧ t.name = u.name ∧ l = m ∧
        (1 < occurrences T t → ∃ values, HasEntryValues p values ∧ HasEntryValues q values) := by
  rw [name_eq_name_iff, pieces_of_not_mem hl, pieces_of_not_mem hm]
  have hwords := leadingWords_eq_iff hkinds ht hu hp hq
  constructor
  · intro h
    obtain ⟨hleading, hleaf⟩ := List.append_inj' h rfl
    obtain ⟨hkind, hname, hvalues⟩ := hwords.1 hleading
    exact ⟨hkind, hname, String.toList_inj.1 (List.singleton_inj.1 hleaf), hvalues⟩
  · rintro ⟨hkind, hname, rfl, hvalues⟩
    rw [hwords.2 ⟨hkind, hname, hvalues⟩]

/-- Two containers of one Deployment, beside another Deployment: the names tell the resource and the
container. -/
theorem name_eq_name_iff_of_containers :
    let web : Reference := { apiVersion := "apps/v1", kind := "Deployment", name := "web" }
    let cache : Reference := { apiVersion := "apps/v1", kind := "Deployment", name := "cache" }
    let T := [web, cache, web]
    let app := ["containers", "[name=app]"]
    let log := ["containers", "[name=log]"]
    (ofTargets T).name web app "cpu" = "web_app_cpu" ∧
      (ofTargets T).name web log "cpu" = "web_log_cpu" ∧
      HasEntryValues app ["app"] ∧ HasEntryValues log ["log"] ∧
      (∀ a ∈ T, ∀ b ∈ T, lowercase a.kind.toList = lowercase b.kind.toList → a.kind = b.kind) ∧
      web ∈ T ∧ SeparatorFree web app ∧ SeparatorFree web log ∧ '_' ∉ "cpu".toList ∧
      1 < occurrences T web ∧
      ((ofTargets T).name web app "cpu" = (ofTargets T).name web log "cpu" ↔
        web.kind = web.kind ∧ web.name = web.name ∧ "cpu" = "cpu" ∧
          (1 < occurrences T web → ∃ values, HasEntryValues app values ∧ HasEntryValues log values)) := by
  intro web cache T app log
  have hkinds : ∀ a ∈ T, ∀ b ∈ T,
      lowercase a.kind.toList = lowercase b.kind.toList → a.kind = b.kind := by
    decide
  have hvalues (path : List String) (h : ∀ value ∈ entryValues path, '_' ∉ value) :
      SeparatorFree web path := by
    refine ⟨by decide, by decide, fun segment hsegment value hentry => h _ ?_⟩
    exact mem_entryValues_iff.2 ⟨segment, hsegment, String.ofList_toList ▸ hentry⟩
  have happ : SeparatorFree web app := hvalues app (by decide)
  have hlog : SeparatorFree web log := hvalues log (by decide)
  have hweb : web ∈ T := List.mem_cons_self
  have hleaf : '_' ∉ "cpu".toList := by decide
  exact ⟨by decide, by decide, hasEntryValues_iff.2 (by decide), hasEntryValues_iff.2 (by decide),
    hkinds, hweb, happ, hlog, hleaf, by decide,
    name_eq_name_iff_of_separatorFree hkinds hweb hweb happ hlog hleaf hleaf⟩

end Namer

end ClusterTuning
