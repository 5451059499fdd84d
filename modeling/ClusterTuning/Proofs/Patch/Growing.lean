import ClusterTuning.Proofs.Patch.Finding

/-!
# Following a path lets a document grow

A walk makes what its path asks for before it is known whether the path can be
followed to its end.  Whatever becomes of it, the document that it leaves holds
all that was there, at the same places: nulls have become something else, mappings
have new keys behind their old ones, and sequences have one entry more.  A walk
that comes to its end finds everything made when it is repeated.

* `Yaml.Value.Extends` — how one document goes on from another one;
* `Segment.extends_setPart` — one step of a walk;
* `Path.lookup_extends` — the statement for walks.
-/

namespace ClusterTuning

open Yaml Edit

/-! ## Documents that go on from others -/

/-- One value extends another one when it holds all of it at the same places.  Scalars that are not
null and values under tags are extended by themselves only. -/
inductive Yaml.Value.Extends : Value → Value → Prop
  /-- Null can become anything, also under tags. -/
  | ofNull {v : Value} (null : v.isNull = true) (w : Value) : Extends v w
  /-- Every value extends itself. -/
  | refl (v : Value) : Extends v v
  /-- A mapping keeps its keys in their order, and new keys may follow them. -/
  | mapping {entries kept new : List (Value × Value)}
    (keys : entries.map Prod.fst = kept.map Prod.fst)
    (values : List.Forall₂ Extends (entries.map Prod.snd) (kept.map Prod.snd))
    (fresh : ∀ a ∈ kept.map Prod.fst, ∀ b ∈ new.map Prod.fst, a.same b = false) :
    Extends (.mapping entries) (.mapping (kept ++ new))
  /-- A sequence keeps its entries in their order, and one may follow them. -/
  | sequence {items kept new : List Value} (entries : List.Forall₂ Extends items kept)
    (one : new.length ≤ 1) : Extends (.sequence items) (.sequence (kept ++ new))

namespace Yaml.Value

variable {v w item child : Value} {key label : String} {i : Nat}

/-- A scalar that can tell an entry of a list apart stays as it is. -/
theorem Extends.eq_of_label (h : v.Extends w) (hlabel : v.label? = some label) : w = v := by
  cases h with
  | ofNull null =>
    cases v with
    | string s => simp [isNull, untagged] at null
    | number n => simp [isNull, untagged] at null
    | bool b => simp [isNull, untagged] at null
    | _ => simp [label?] at hlabel
  | refl => rfl
  | mapping => simp [label?] at hlabel
  | sequence => simp [label?] at hlabel

/-! ## Changing one entry -/

/-- Putting a value that extends an entry in place of the entry extends all entries. -/
theorem forall₂_extends_set {items : List Value}
    (h : ∀ x, items[i]? = some x → x.Extends child) :
    List.Forall₂ Extends items (items.set i child) := by
  induction items generalizing i with
  | nil => exact .nil
  | cons x rest ih =>
    cases i with
    | zero => exact .cons (h x rfl) (List.forall₂_same.2 fun y _ => .refl y)
    | succ i => exact .cons (.refl x) (ih h)

theorem extends_sequence_set {items made : List Value} (hmade : made.length ≤ 1)
    (h : ((sequence (items ++ made)).part i).Extends child) :
    (sequence items).Extends ((sequence (items ++ made)).setPart i child) := by
  rw [setPart, List.set_append]
  split
  · next hi =>
    refine .sequence (forall₂_extends_set fun x hx => ?_) hmade
    simpa [part, List.getElem?_append_left hi, hx] using h
  · exact .sequence (List.forall₂_same.2 fun x _ => .refl x) (by simpa using hmade)

theorem map_fst_modify {entries : List (Value × Value)} :
    (entries.modify i fun entry => (entry.1, child)).map Prod.fst = entries.map Prod.fst := by
  induction entries generalizing i with
  | nil => simp
  | cons entry rest ih => cases i <;> simp [ih]

theorem map_snd_modify {entries : List (Value × Value)} :
    (entries.modify i fun entry => (entry.1, child)).map Prod.snd =
      (entries.map Prod.snd).set i child := by
  induction entries generalizing i with
  | nil => simp
  | cons entry rest ih => cases i <;> simp [ih]

theorem modify_append {entries made : List (Value × Value)} {f : Value × Value → Value × Value} :
    (entries ++ made).modify i f =
      if i < entries.length then entries.modify i f ++ made
      else entries ++ made.modify (i - entries.length) f := by
  induction entries generalizing i with
  | nil => simp
  | cons entry rest ih =>
    cases i with
    | zero => simp
    | succ i =>
      rw [List.cons_append, List.modify_succ_cons, ih]
      by_cases hi : i < rest.length
      · simp [hi]
      · simp [hi, Nat.add_sub_add_right]

theorem extends_mapping_modify {entries made : List (Value × Value)}
    (hfresh : ∀ a ∈ entries.map Prod.fst, ∀ b ∈ made.map Prod.fst, a.same b = false)
    (h : ((mapping (entries ++ made)).part i).Extends child) :
    (mapping entries).Extends ((mapping (entries ++ made)).setPart i child) := by
  rw [setPart, modify_append]
  split
  · next hi =>
    refine .mapping map_fst_modify.symm ?_ (by rwa [map_fst_modify])
    rw [map_snd_modify]
    refine forall₂_extends_set fun x hx => ?_
    rw [List.getElem?_map] at hx
    simpa [part, List.getElem?_append_left hi, hx] using h
  · refine .mapping rfl (List.forall₂_same.2 fun x _ => .refl x) ?_
    rwa [map_fst_modify]

/-! ## Finding entries again -/

/-- A text is found in the mapping where it was, with a value that extends the one before. -/
theorem getText?_extends {entries kept new : List (Value × Value)}
    (hkeys : entries.map Prod.fst = kept.map Prod.fst)
    (hvalues : List.Forall₂ Extends (entries.map Prod.snd) (kept.map Prod.snd))
    (h : Mapping.getText? key entries = some v) :
    ∃ w, Mapping.getText? key (kept ++ new) = some w ∧ v.Extends w := by
  induction entries generalizing kept with
  | nil => exact nomatch h
  | cons entry rest ih =>
    cases kept with
    | nil => exact nomatch hkeys
    | cons entry' rest' =>
      simp only [List.map_cons, List.cons.injEq, List.forall₂_cons] at hkeys hvalues
      rw [Mapping.getText?_cons] at h
      rw [List.cons_append, Mapping.getText?_cons, ← hkeys.1]
      split at h
      · next hsame =>
        obtain rfl := Option.some.inj h
        exact ⟨entry'.2, if_pos hsame, hvalues.1⟩
      · next hother =>
        rw [if_neg hother]
        exact ih hkeys.2 hvalues.2 h

/-- An entry that a segment names is named by it still. -/
theorem Extends.matches? (h : item.Extends child)
    (hmatches : Segment.matches? key label item = true) :
    Segment.matches? key label child = true := by
  by_cases hkey : key.isEmpty = true
  · have hlabel : item.label? = some label := by simpa [Segment.matches?, hkey] using hmatches
    rwa [h.eq_of_label hlabel]
  have hfield : (item.get? key).bind label? = some label := by
    simpa [Segment.matches?, hkey] using hmatches
  obtain ⟨v, hget, hlabel⟩ := Option.bind_eq_some_iff.1 hfield
  obtain ⟨entries, hentries, hv⟩ := Option.bind_eq_some_iff.1 hget
  cases h with
  | ofNull null =>
    rw [isNull_eq_false (by rw [hentries]; rfl)] at null
    cases null
  | refl => exact hmatches
  | sequence => cases hentries
  | mapping keys values =>
    obtain rfl := Option.some.inj hentries
    obtain ⟨w, hw, hextends⟩ := getText?_extends keys values hv
    obtain rfl := hextends.eq_of_label hlabel
    have hgrown : (Value.mapping (_ ++ _)).get? key = some w := hw
    rw [Segment.matches?, if_neg hkey, hgrown, Option.bind_some, hlabel]
    exact beq_self_eq_true _

end Yaml.Value

/-! ## One step -/

namespace Segment

open Value

variable {s : Segment} {v c child : Value} {position : Nat}

/-- A segment finds its entry in a collection that is there, or makes it behind the others; from
null it makes the collection. -/
theorem ensure_cases (h : s.ensure v = .ok (c, position)) :
    v.isNull = true ∨
      (∃ items made, v = .sequence items ∧ c = .sequence (items ++ made) ∧ made.length ≤ 1) ∨
      ∃ entries made, v = .mapping entries ∧ c = .mapping (entries ++ made) ∧
        ∀ a ∈ entries.map Prod.fst, ∀ b ∈ made.map Prod.fst, a.same b = false := by
  by_cases hnull : v.isNull = true
  · exact .inl hnull
  refine .inr ?_
  cases s with
  | field name =>
    rw [ensure, orNew, if_neg hnull] at h
    split at h
    · next entries =>
      refine .inr ?_
      split at h
      · obtain ⟨rfl, rfl⟩ := Prod.mk.inj (Except.ok.inj h)
        exact ⟨entries, [], rfl, by simp, by simp⟩
      · next absent =>
        obtain ⟨rfl, rfl⟩ := Prod.mk.inj (Except.ok.inj h)
        rw [Mapping.position?, List.findIdx?_eq_none_iff] at absent
        exact ⟨entries, _, rfl, rfl, by simpa using absent⟩
    · cases h
  | keyed key label =>
    rw [ensure, orNew, if_neg hnull] at h
    split at h
    · next items =>
      refine .inl ?_
      split at h
      · obtain ⟨rfl, rfl⟩ := Prod.mk.inj (Except.ok.inj h)
        exact ⟨items, [], rfl, by simp, by simp⟩
      · obtain ⟨rfl, rfl⟩ := Prod.mk.inj (Except.ok.inj h)
        exact ⟨items, _, rfl, rfl, by simp⟩
    · cases h
  | index i =>
    cases v with
    | sequence items =>
      rw [ensure] at h
      split at h
      · obtain ⟨rfl, rfl⟩ := Prod.mk.inj (Except.ok.inj h)
        exact .inl ⟨items, [], rfl, by simp, by simp⟩
      · cases h
    | _ => cases h

/-- **A step lets a value grow**, if what is put in place of the entry it leads to extends it. -/
theorem extends_setPart (hensure : s.ensure v = .ok (c, position))
    (h : (c.part position).Extends child) : v.Extends (c.setPart position child) := by
  rcases ensure_cases hensure with hnull | ⟨items, made, rfl, rfl, hmade⟩ |
    ⟨entries, made, rfl, rfl, hfresh⟩
  · exact .ofNull hnull _
  · exact extends_sequence_set hmade h
  · exact extends_mapping_modify hfresh h

end Segment

/-! ## Whole walks -/

namespace Path

variable {path : List Segment} {document found : Value}

/-- A walk lets a document grow, whether its path can be followed to its end or not. -/
theorem extends_lookup (path : List Segment) (document : Value) :
    document.Extends (lookup path document).1 := by
  induction path generalizing document with
  | nil => exact .refl document
  | cons s rest ih =>
    rw [lookup, follow]
    cases hensure : s.ensure document with
    | error fault => exact .refl document
    | ok entry => exact Segment.extends_setPart hensure (ih _)

/-- A walk that comes to its end makes nothing when it is repeated.  Each segment finds the entry
that it was led to, which is still the first one that it names. -/
theorem lookup_lookup (h : (lookup path document).2 = .ok found) :
    lookup path (lookup path document).1 = ((lookup path document).1, .ok found) := by
  unfold lookup at h ⊢
  induction path generalizing document with
  | nil =>
    rw [← h]
    rfl
  | cons s rest ih =>
    obtain ⟨c, position, hensure, hrest⟩ := exists_ensure h
    have hfinds := Segment.findsAt_of_ensure hensure
    have hagain : s.FindsAt (c.setPart position (follow id rest (c.part position)).1) position := by
      refine hfinds.setPart ?_
      rintro key label rfl
      exact (extends_lookup rest _).matches? hfinds.matches?_part
    simp only [follow, hensure, hagain.ensure, hfinds.part_setPart, ih hrest,
      Value.setPart_setPart]

/-- **Following a path lets a document grow and do no more.**  The document that is left extends the
one that was there, also when the path cannot be followed to its end.  When it can, following it
again finds the same value and leaves the document as it is. -/
theorem lookup_extends (path : List Segment) (document : Value) :
    document.Extends (lookup path document).1 ∧
      ∀ found, (lookup path document).2 = .ok found →
        lookup path (lookup path document).1 = ((lookup path document).1, .ok found) :=
  ⟨extends_lookup path document, fun _ h => lookup_lookup h⟩

/-- A walk that fails in a list entry that it has made, and one that ends in such an entry. -/
theorem lookup_extends_sample :
    let failing := sampleWay ++ [.index 0]
    let ending := sampleWay ++ [.field "name"]
    samplePod.Extends (lookup failing samplePod).1 ∧
      (lookup failing samplePod).2 = .error (.noEntry (.index 0)) ∧
      (lookup failing samplePod).1 = (lookup ending samplePod).1 ∧
      (lookup ending samplePod).2 = .ok (.string "MODE") ∧
      lookup ending (lookup ending samplePod).1 =
        ((lookup ending samplePod).1, .ok (.string "MODE")) := by
  intro failing ending
  have hfound : (lookup ending samplePod).2 = .ok (.string "MODE") := by rfl
  obtain ⟨hextends, -⟩ := lookup_extends failing samplePod
  obtain ⟨-, hagain⟩ := lookup_extends ending samplePod
  exact ⟨hextends, by rfl, by rfl, hfound, hagain _ hfound⟩

end Path

end ClusterTuning
