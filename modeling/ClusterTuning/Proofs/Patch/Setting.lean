import ClusterTuning.Proofs.Outcome
import ClusterTuning.Proofs.Patch.Leaves

/-!
# Edits that set values at different places

Edits that set values at paths which part from each other do not come in each
other's way.  One of them succeeds on a document that the others have made, and
adds its value to what they have set; so a list of them succeeds as a whole,
nothing in it is lost, and its order matters for the order of keys and of list
entries alone.

* `Path.fits_of_follow` — which paths can be followed in such a document;
* `Edit.apply_set` — what one edit does;
* `Edit.applyAll_sets` — what the edits of a list do to a document;
* `Edit.bears_of_applyAll_empty` — what edits that succeed have made;
* `Edit.applyAll_of_diverge` — no edit of a patch is lost.
-/

namespace ClusterTuning

open Yaml

/-! ## Paths that can be followed -/

namespace Path

variable {s : Segment} {front rest : List Segment} {name key label : String} {v old : Value}
  {change : Value → Value}

/-- A path that can be followed goes on from what its first segment finds or makes. -/
theorem exists_ensure (h : (follow change (s :: rest) v).2 = .ok old) :
    ∃ collection position, s.ensure v = .ok (collection, position) ∧
      (follow change rest (collection.part position)).2 = .ok old := by
  rw [follow] at h
  split at h
  · cases h
  · next hensure => exact ⟨_, _, hensure, h⟩

/-- No path goes on in a scalar. -/
theorem eq_nil_of_follow_label (hlabel : v.label? = some label)
    (h : (follow change rest v).2 = .ok old) : rest = [] := by
  cases rest with
  | nil => rfl
  | cons s rest =>
    obtain ⟨_, _, hensure, -⟩ := exists_ensure h
    cases v with
    | bool b => cases s <;> exact nomatch hensure
    | number n => cases s <;> exact nomatch hensure
    | string text => cases s <;> exact nomatch hensure
    | _ => simp [Value.label?] at hlabel

/-- A path that neither replaces an entry of a list nor the text that tells it apart. -/
structure SparesKeys (path : List Segment) : Prop where
  entry : ∀ front key label, path ≠ front ++ [.keyed key label]
  text : ∀ front key label, path ≠ front ++ [.keyed key label, .field key]

theorem SparesKeys.tail (h : SparesKeys (s :: rest)) : SparesKeys rest where
  entry front key label heq := h.entry (s :: front) key label (congrArg (s :: ·) heq)
  text front key label heq := h.text (s :: front) key label (congrArg (s :: ·) heq)

/-- A path that ends in a field spares all keys, unless it is the key of the entry before it. -/
theorem sparesKeys_of_ends (hends : ∀ label, front.getLast? ≠ some (.keyed name label)) :
    SparesKeys (front ++ [.field name]) where
  entry front' key label heq := by
    obtain ⟨-, hlast⟩ := List.append_inj' heq rfl
    cases hlast
  text front' key label heq := by
    rw [List.append_cons front' (.keyed key label)] at heq
    obtain ⟨rfl, hlast⟩ := List.append_inj' heq rfl
    obtain rfl : name = key := Segment.field.inj (List.singleton_inj.1 hlast)
    exact hends label List.getLast?_concat

/-- A path that parts from the leaves of a document and can be followed there goes on in a field, or
in an entry that has a key. -/
theorem exists_branching {leaves : List Leaf} (h : Bears leaves v)
    (hdiverge : ∀ leaf ∈ leaves, diverge leaf.1 (s :: rest) = true)
    (hfollow : (follow change (s :: rest) v).2 = .ok old) (hspares : SparesKeys (s :: rest)) :
    ∃ (kind : Branching) (label : String), s = kind.segment label := by
  cases h with
  | whole value => exact absurd (hdiverge _ List.mem_cons_self) Bool.false_ne_true
  | @branches kind _ _ some splits _ =>
    obtain ⟨leaf, hleaf⟩ := List.exists_mem_of_ne_nil leaves some
    obtain ⟨label, -, rest', heq⟩ := splits.starts leaf hleaf
    obtain ⟨label', _, hpath⟩ := Branching.exists_of_diverge
      (diverge_symm (heq ▸ hdiverge leaf hleaf))
    exact ⟨kind, label', (List.cons.inj hpath).1⟩
  | none =>
    obtain ⟨collection, position, hensure, hrest⟩ := exists_ensure hfollow
    cases s with
    | field n => exact ⟨.fields, n, rfl⟩
    | index position => cases hensure
    | keyed key label =>
      by_cases hkey : key = ""
      · -- without a key the new entry is a text, so that the path ends there
        subst hkey
        obtain ⟨rfl, rfl⟩ := Prod.mk.inj (Except.ok.inj hensure)
        replace hrest : (follow change rest (.string label)).2 = .ok old := hrest
        obtain rfl := eq_nil_of_follow_label rfl hrest
        exact absurd rfl (hspares.entry [] "" label)
      · exact ⟨.entries key hkey, label, rfl⟩

/-- In an entry of a list a path goes on apart from the text that tells the entry apart. -/
theorem diverge_key {leaves : List Leaf} (h : Bears leaves v)
    (hmem : ([.field key], .string label) ∈ leaves) (hfollow : (follow change rest v).2 = .ok old)
    (hspares : SparesKeys (.keyed key label :: rest)) : diverge [.field key] rest = true := by
  cases rest with
  | nil => exact absurd rfl (hspares.entry [] key label)
  | cons s rest =>
    obtain ⟨kind, name, parts, child, hname, rfl, hpart, splits, bears⟩ := h.exists_part hmem
    cases kind with
    | entries key' hkey' => cases hname
    | fields =>
      obtain rfl : key = name := Segment.field.inj hname
      cases s with
      | keyed key' label' =>
        obtain ⟨_, _, hensure, -⟩ := exists_ensure hfollow
        cases hensure
      | index position =>
        obtain ⟨_, _, hensure, -⟩ := exists_ensure hfollow
        cases hensure
      | field n =>
        by_cases hn : n = key
        · -- the path would go on in the text, where it ends
          subst hn
          obtain rfl : child = .string label :=
            (bears _ hpart).eq_of_mem_nil (mem_leavesUnder.2 hmem)
          replace hfollow : (follow change (Branching.fields.segment n :: rest)
            (Branching.fields.collect parts)).2 = .ok old := hfollow
          rw [Branching.follow_collect fun part hpart => (bears part hpart).shows,
            Branching.branch_of_mem splits.distinct hpart] at hfollow
          obtain rfl := eq_nil_of_follow_label rfl hfollow
          exact absurd rfl (hspares.text [] n label)
        · simp [diverge, Segment.apart, Ne.symm hn]

/-- **What can be set in a document, apart from its leaves, makes its way from null.** -/
theorem fits_of_follow {leaves : List Leaf} {path : List Segment} (h : Bears leaves v)
    (hdiverge : ∀ leaf ∈ leaves, diverge leaf.1 path = true)
    (hfollow : (follow change path v).2 = .ok old) (hspares : SparesKeys path) : Fits path := by
  induction path generalizing leaves v with
  | nil => trivial
  | cons s rest ih =>
    obtain ⟨kind, label, rfl⟩ := exists_branching h hdiverge hfollow hspares
    obtain ⟨parts, hcollect, splits, bears⟩ := h.exists_parts hdiverge
    have hbranch := Bears.branch splits bears label
    rw [hcollect, Branching.follow_collect fun part hpart => (bears part hpart).shows] at hfollow
    have hown : ∀ leaf ∈ kind.own label, diverge leaf.1 rest = true := by
      cases kind with
      | fields => exact List.forall_mem_nil _
      | entries key hkey =>
        exact List.forall_mem_singleton.2 (diverge_key hbranch List.mem_cons_self hfollow hspares)
    have hapart : ∀ leaf ∈ kind.leavesOf label leaves, diverge leaf.1 rest = true := by
      intro leaf hleaf
      rcases List.mem_append.1 hleaf with hleaf | hleaf
      · exact hown leaf hleaf
      · have hleaf := hdiverge _ (mem_leavesUnder.1 hleaf)
        rwa [diverge_cons] at hleaf
    have hrest := ih hbranch hapart hfollow hspares.tail
    cases kind with
    | fields => exact hrest
    | entries key hkey => exact ⟨⟨hkey, hown _ List.mem_cons_self⟩, hrest⟩

/-! ### Good paths -/

/-- A path at which something can be set in an empty mapping, and which ends in a field that does
not tell the entries of a list apart. -/
structure Good (path : List Segment) : Prop where
  accepted : ∃ value, ((Edit.set path value).apply (.mapping [])).2 = .ok ()
  ends : ∃ front name, path = front ++ [.field name] ∧
    ∀ label, front.getLast? ≠ some (.keyed name label)

/-- A good path starts in a field, for which an empty mapping is as good as null. -/
theorem Good.exists_field {path : List Segment} (h : Good path) :
    ∃ name rest, path = .field name :: rest ∧
      ∃ change old, (follow change path .null).2 = .ok old := by
  obtain ⟨value, haccepted⟩ := h.accepted
  obtain ⟨front, last, rfl, -⟩ := h.ends
  rw [Edit.apply, map_eq_ok_iff] at haccepted
  obtain ⟨old, hfollow, -⟩ := haccepted
  replace hfollow := mapError_eq_ok_iff.1 hfollow
  obtain ⟨s, rest, heq⟩ := List.exists_cons_of_ne_nil
    (List.append_ne_nil_of_right_ne_nil front (List.cons_ne_nil (Segment.field last) []))
  rw [heq] at hfollow ⊢
  obtain ⟨_, _, hensure, -⟩ := exists_ensure hfollow
  cases s with
  | keyed key label => exact nomatch hensure
  | index position => exact nomatch hensure
  | field name => exact ⟨name, rest, rfl, fun _ => value, old, hfollow⟩

theorem Good.fits {path : List Segment} (h : Good path) : Fits path := by
  obtain ⟨_, _, -, change, old, hfollow⟩ := h.exists_field
  obtain ⟨front, last, rfl, hends⟩ := h.ends
  exact fits_of_follow .none (List.forall_mem_nil _) hfollow (sparesKeys_of_ends hends)

end Path

/-! ## Lists of edits -/

namespace Edit

/-- The edits that set the leaves of a list, one after the other. -/
def sets (leaves : List Leaf) : List Edit :=
  leaves.map fun leaf => .set leaf.1 leaf.2

theorem sets_append (leaves more : List Leaf) : sets (leaves ++ more) = sets leaves ++ sets more :=
  List.map_append

/-- One more edit gives a document one more leaf. -/
theorem apply_set {leaves : List Leaf} {v : Value} (h : Bears leaves v) {leaf : Leaf}
    (hfits : Path.Fits leaf.1) (hdiverge : ∀ l ∈ leaves, Path.diverge l.1 leaf.1 = true) :
    ∃ v', apply v (.set leaf.1 leaf.2) = (v', .ok ()) ∧ Bears (leaves ++ [leaf]) v' := by
  obtain ⟨v', old, hfollow, hbears⟩ := h.set (w := leaf.2) hfits hdiverge
  exact ⟨v', by rw [apply, hfollow]; rfl, hbears⟩

/-- A list of edits gives a document one leaf each. -/
theorem applyAll_sets {done leaves : List Leaf} {v : Value} (h : Bears done v)
    (hfits : ∀ leaf ∈ leaves, Path.Fits leaf.1)
    (hdiverge : (done ++ leaves).Pairwise fun a b => Path.diverge a.1 b.1 = true) :
    ∃ v', applyAll v (sets leaves) = (v', .ok ()) ∧ Bears (done ++ leaves) v' := by
  induction leaves generalizing done v with
  | nil => exact ⟨v, rfl, by rwa [List.append_nil]⟩
  | cons leaf leaves ih =>
    obtain ⟨hleaf, hleaves⟩ := List.forall_mem_cons.1 hfits
    obtain ⟨-, -, hacross⟩ := List.pairwise_append.1 hdiverge
    obtain ⟨v', happly, hbears⟩ :=
      apply_set h hleaf fun l hl => hacross l hl leaf List.mem_cons_self
    rw [List.append_cons] at hdiverge ⊢
    obtain ⟨v'', hall, hbears⟩ := ih hbears hleaves hdiverge
    refine ⟨v'', ?_, hbears⟩
    rw [sets, List.map_cons, applyAll, happly]
    exact hall

/-- Where an edit succeeds on a document, the document gets one more leaf. -/
theorem bears_of_apply {leaves : List Leaf} {v v' : Value} (h : Bears leaves v) {leaf : Leaf}
    (hspares : Path.SparesKeys leaf.1) (hdiverge : ∀ l ∈ leaves, Path.diverge l.1 leaf.1 = true)
    (happly : apply v (.set leaf.1 leaf.2) = (v', .ok ())) : Bears (leaves ++ [leaf]) v' := by
  have haccepted := congrArg Prod.snd happly
  rw [apply, map_eq_ok_iff] at haccepted
  obtain ⟨old, hfollow, -⟩ := haccepted
  have hfits := Path.fits_of_follow h hdiverge (mapError_eq_ok_iff.1 hfollow) hspares
  obtain ⟨v'', happly', hbears⟩ := apply_set h hfits hdiverge
  obtain rfl : v' = v'' := congrArg Prod.fst (happly.symm.trans happly')
  exact hbears

/-- The same of a list of edits that succeed. -/
theorem bears_of_applyAll {done leaves : List Leaf} {v v' : Value} (h : Bears done v)
    (hspares : ∀ leaf ∈ leaves, Path.SparesKeys leaf.1)
    (hdiverge : (done ++ leaves).Pairwise fun a b => Path.diverge a.1 b.1 = true)
    (happly : applyAll v (sets leaves) = (v', .ok ())) : Bears (done ++ leaves) v' := by
  induction leaves generalizing done v with
  | nil =>
    obtain rfl : v = v' := congrArg Prod.fst happly
    rwa [List.append_nil]
  | cons leaf leaves ih =>
    obtain ⟨hleaf, hleaves⟩ := List.forall_mem_cons.1 hspares
    obtain ⟨-, -, hacross⟩ := List.pairwise_append.1 hdiverge
    rw [sets, List.map_cons, applyAll] at happly
    split at happly
    · next document hfirst =>
      have hbears := bears_of_apply h hleaf (fun l hl => hacross l hl leaf List.mem_cons_self) hfirst
      rw [List.append_cons] at hdiverge ⊢
      exact ih hbears hleaves hdiverge happly
    · cases congrArg Prod.snd happly

/-- An edit that succeeds on an empty mapping makes the same of it and of null. -/
theorem apply_empty {path : List Segment} {value : Value}
    (h : (apply (.mapping []) (.set path value)).2 = .ok ()) :
    apply (.mapping []) (.set path value) = apply .null (.set path value) := by
  cases path with
  | nil => rfl
  | cons s rest =>
    cases s with
    | field name => rfl
    | keyed key label => cases h
    | index position => cases h

/-- **Edits that succeed one after the other make a document that bears what they set**, if their
paths part from each other and spare the keys of lists. -/
theorem bears_of_applyAll_empty {leaves : List Leaf} {document : Value} (hsome : leaves ≠ [])
    (hspares : ∀ leaf ∈ leaves, Path.SparesKeys leaf.1)
    (hdiverge : leaves.Pairwise fun a b => Path.diverge a.1 b.1 = true)
    (happly : applyAll (.mapping []) (sets leaves) = (document, .ok ())) :
    Bears leaves document := by
  cases leaves with
  | nil => exact absurd rfl hsome
  | cons leaf leaves =>
    have hnull : applyAll .null (sets (leaf :: leaves)) = (document, .ok ()) := by
      rw [sets, List.map_cons, applyAll] at happly ⊢
      split at happly
      · next first hfirst => rwa [← apply_empty (congrArg Prod.snd hfirst), hfirst]
      · cases congrArg Prod.snd happly
    exact bears_of_applyAll .none hspares hdiverge hnull

/-- A list of edits makes a document that bears what they set. -/
theorem exists_bears {leaves : List Leaf} (hsome : leaves ≠ [])
    (hgood : ∀ leaf ∈ leaves, Path.Good leaf.1)
    (hdiverge : leaves.Pairwise fun a b => Path.diverge a.1 b.1 = true) :
    ∃ document, applyAll (.mapping []) (sets leaves) = (document, .ok ()) ∧
      Bears leaves document := by
  cases leaves with
  | nil => exact absurd rfl hsome
  | cons leaf leaves =>
    obtain ⟨name, rest, hpath, -⟩ := (hgood leaf List.mem_cons_self).exists_field
    -- a path that starts in a field makes the same of an empty mapping and of null
    have hstart : applyAll (.mapping []) (sets (leaf :: leaves)) =
        applyAll .null (sets (leaf :: leaves)) := by
      rw [sets, List.map_cons, applyAll, applyAll, hpath]
      rfl
    rw [hstart]
    exact applyAll_sets .none (fun leaf hleaf => (hgood leaf hleaf).fits) hdiverge

/-- **No edit of a patch is lost.**  Edits at good paths that part from each other succeed one after
the other; in the document that they make, each path finds the value that was set there; and in any
other order they make the same document, up to the order of keys and of list entries. -/
theorem applyAll_of_diverge {leaves : List Leaf} (hgood : ∀ leaf ∈ leaves, Path.Good leaf.1)
    (hdiverge : leaves.Pairwise fun a b => Path.diverge a.1 b.1 = true) :
    ∃ document, applyAll (.mapping []) (sets leaves) = (document, .ok ()) ∧
      (∀ leaf ∈ leaves, Path.lookup leaf.1 document = (document, .ok leaf.2)) ∧
      ∀ other, leaves.Perm other → ∃ document',
        applyAll (.mapping []) (sets other) = (document', .ok ()) ∧ document.Alike document' := by
  by_cases hsome : leaves = []
  · subst hsome
    refine ⟨.mapping [], rfl, by simp, fun other hperm => ?_⟩
    obtain rfl := List.nil_perm.1 hperm
    exact ⟨.mapping [], rfl, .refl _⟩
  · obtain ⟨document, happly, hbears⟩ := exists_bears hsome hgood hdiverge
    refine ⟨document, happly, fun leaf hleaf => hbears.lookup hleaf, fun other hperm => ?_⟩
    obtain ⟨document', happly', hbears'⟩ := exists_bears
      (fun hnil => hsome (List.perm_nil.1 (hnil ▸ hperm)))
      (fun leaf hleaf => hgood leaf (hperm.mem_iff.2 hleaf))
      (hdiverge.perm hperm Path.diverge_symm)
    exact ⟨document', happly', hbears.alike hbears' hperm⟩

/-- Edits of a workload with two containers, one of which has a variable. -/
def sampleLeaves : List Leaf :=
  let containers := [.field "spec", .field "containers"]
  [(containers ++ [.keyed "name" "app", .field "image"], .string "web:2"),
    ([.field "spec", .field "replicas"], .number (.integer 3)),
    (containers ++ [.keyed "name" "log", .field "args"], .sequence [.string "-v"]),
    (containers ++ [.keyed "name" "app", .field "env", .keyed "name" "MODE", .field "value"],
      .null)]

theorem applyAll_of_diverge_sample :
    (∀ leaf ∈ sampleLeaves, Path.Good leaf.1) ∧
      sampleLeaves.Pairwise (fun a b => Path.diverge a.1 b.1 = true) ∧
      ∃ document document',
        applyAll (.mapping []) (sets sampleLeaves) = (document, .ok ()) ∧
        (∀ leaf ∈ sampleLeaves, Path.lookup leaf.1 document = (document, .ok leaf.2)) ∧
        applyAll (.mapping []) (sets sampleLeaves.reverse) = (document', .ok ()) ∧
        document.Alike document' := by
  have hgood : ∀ leaf ∈ sampleLeaves, Path.Good leaf.1 := by
    have haccepted : ∀ leaf ∈ sampleLeaves,
        ∃ value, ((Edit.set leaf.1 value).apply (.mapping [])).2 = .ok () := by
      simp only [sampleLeaves, List.forall_mem_cons]
      exact ⟨⟨.null, by rfl⟩, ⟨.null, by rfl⟩, ⟨.null, by rfl⟩, ⟨.null, by rfl⟩, by simp⟩
    have hends : ∀ leaf ∈ sampleLeaves, ∃ name, leaf.1 = leaf.1.dropLast ++ [.field name] ∧
        ∀ label, leaf.1.dropLast.getLast? ≠ some (.keyed name label) := by
      simp only [sampleLeaves, List.forall_mem_cons]
      exact ⟨⟨"image", rfl, by simp⟩, ⟨"replicas", rfl, by simp⟩, ⟨"args", rfl, by simp⟩,
        ⟨"value", rfl, by simp⟩, by simp⟩
    exact fun leaf hleaf => ⟨haccepted leaf hleaf, _, hends leaf hleaf⟩
  have hdiverge : sampleLeaves.Pairwise fun a b => Path.diverge a.1 b.1 = true := by decide
  obtain ⟨document, happly, hlookup, horder⟩ := applyAll_of_diverge hgood hdiverge
  obtain ⟨document', happly', halike⟩ := horder _ sampleLeaves.reverse_perm.symm
  exact ⟨hgood, hdiverge, document, document', happly, hlookup, happly', halike⟩

end Edit

end ClusterTuning
