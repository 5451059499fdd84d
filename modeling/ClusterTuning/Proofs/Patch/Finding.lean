import ClusterTuning.Proofs.Patch.Setting

/-!
# What an edit sets is found again

An edit follows a path from the root of a document and makes what is missing on
the way.  In the document that it leaves, each segment of the path finds the
collection entry it was led to, because the first entry that it names is still
the first: a field keeps its key, and an entry of a list keeps the text that tells
it apart, unless the path ends there.  So the path leads to the same place again,
whatever else is in the document.

* `Segment.findsAt_of_ensure`, `Segment.FindsAt.setPart` — one segment;
* `Path.follow_follow` — a whole path;
* `Edit.apply_set_set` — the statement for edits.
-/

namespace ClusterTuning

open Yaml

/-! ## Fields of a mapping -/

namespace Yaml.Mapping

variable {entries : List (Value × Value)} {name key : String} {position : Nat} {new : Value}

/-- The value at the position of a text is the one that is stored under it. -/
theorem getText?_eq_part (h : position? (.string name) entries = some position) :
    getText? name entries = some ((Value.mapping entries).part position) := by
  induction entries generalizing position with
  | nil => cases h
  | cons entry rest ih =>
    rw [position?, List.findIdx?_cons] at h
    rw [getText?_cons]
    split at h
    · next hsame =>
      obtain rfl := Option.some.inj h
      rw [if_pos hsame]
      rfl
    · next hsame =>
      obtain ⟨below, hbelow, rfl⟩ := Option.map_eq_some_iff.1 h
      rw [if_neg hsame, ih hbelow]
      simp [Value.part]

theorem getText?_eq_none_of_position? (h : position? (.string name) entries = none) :
    getText? name entries = none := by
  rw [position?, List.findIdx?_eq_none_iff] at h
  refine getText?_eq_none_iff.2 fun entry hmem heq => ?_
  have hsame := h entry hmem
  rw [Value.same_string_iff.2 heq] at hsame
  exact Bool.noConfusion hsame

/-- A new field hides no other one. -/
theorem getText?_append_of_ne (hne : name ≠ key) :
    getText? key (entries ++ [(.string name, new)]) = getText? key entries := by
  induction entries with
  | nil => simp [getText?, get?, Value.same, hne]
  | cons entry rest ih => rw [List.cons_append, getText?_cons, getText?_cons, ih]

/-- The value of one field is no part of another one. -/
theorem getText?_modify_of_ne (hne : name ≠ key)
    (h : position? (.string name) entries = some position) :
    getText? key (entries.modify position fun entry => (entry.1, new)) =
      getText? key entries := by
  induction entries generalizing position with
  | nil => cases h
  | cons entry rest ih =>
    rw [position?, List.findIdx?_cons] at h
    split at h
    · next hsame =>
      obtain rfl := Option.some.inj h
      have hother : ¬ entry.1.same (.string key) = true := by
        simp [Value.same_string_iff.1 hsame, Value.same, hne]
      rw [List.modify_zero_cons, getText?_cons, getText?_cons, if_neg hother, if_neg hother]
    · obtain ⟨below, hbelow, rfl⟩ := Option.map_eq_some_iff.1 h
      rw [List.modify_succ_cons, getText?_cons, getText?_cons, ih hbelow]

/-- A key is found where it was before a value was changed. -/
theorem position?_modify {sought : Value} :
    position? sought (entries.modify position fun entry => (entry.1, new)) =
      position? sought entries := by
  unfold position?
  induction entries generalizing position with
  | nil => simp
  | cons entry rest ih =>
    cases position with
    | zero => rw [List.modify_zero_cons, List.findIdx?_cons, List.findIdx?_cons]
    | succ below => rw [List.modify_succ_cons, List.findIdx?_cons, List.findIdx?_cons, ih]

end Yaml.Mapping

/-! ## The entry that a segment finds -/

namespace Yaml.Value

theorem setPart_setPart (v : Value) (position : Nat) (old new : Value) :
    (v.setPart position old).setPart position new = v.setPart position new := by
  cases v with
  | mapping entries =>
    simp only [setPart, mapping.injEq]
    induction entries generalizing position with
    | nil => simp
    | cons entry rest ih => cases position <;> simp [ih]
  | sequence items => simp [setPart]
  | _ => rfl

end Yaml.Value

namespace Segment

variable {s : Segment} {v c item : Value} {position : Nat} {key label name : String}

/-- The entry at a position of a collection is the first one that a segment names. -/
inductive FindsAt : Segment → Value → Nat → Prop
  | field {name : String} {entries : List (Value × Value)} {position : Nat}
      (found : Mapping.position? (.string name) entries = some position) :
      FindsAt (.field name) (.mapping entries) position
  | keyed {key label : String} {items : List Value} {position : Nat}
      (found : items.findIdx? (matches? key label) = some position) :
      FindsAt (.keyed key label) (.sequence items) position
  | index {items : List Value} {position : Nat} (found : position < items.length) :
      FindsAt (.index position) (.sequence items) position

theorem matches?_newEntry (key label : String) : matches? key label (newEntry key label) = true := by
  by_cases hkey : key.isEmpty = true
  · simp [matches?, newEntry, hkey, Value.label?]
  · simp [matches?, newEntry, hkey, Value.get?, Value.asMapping?, Value.untagged,
      Mapping.getText?, Mapping.get?, Value.same, Value.label?]

/-- A segment finds the entry that it has been led to. -/
theorem findsAt_of_ensure (h : s.ensure v = .ok (c, position)) : s.FindsAt c position := by
  cases s with
  | field name =>
    rw [ensure] at h
    split at h
    · next entries _ =>
      split at h
      · next found =>
        obtain ⟨rfl, rfl⟩ := Prod.mk.inj (Except.ok.inj h)
        exact .field found
      · next absent =>
        obtain ⟨rfl, rfl⟩ := Prod.mk.inj (Except.ok.inj h)
        refine .field ?_
        rw [Mapping.position?, List.findIdx?_append, ← Mapping.position?, absent]
        simp [Value.same]
    · cases h
  | keyed key label =>
    rw [ensure] at h
    split at h
    · next items _ =>
      split at h
      · next found =>
        obtain ⟨rfl, rfl⟩ := Prod.mk.inj (Except.ok.inj h)
        exact .keyed found
      · next absent =>
        obtain ⟨rfl, rfl⟩ := Prod.mk.inj (Except.ok.inj h)
        refine .keyed ?_
        rw [List.findIdx?_append, absent]
        simp [matches?_newEntry]
    · cases h
  | index i =>
    cases v with
    | sequence items =>
      rw [ensure] at h
      split at h
      · next found =>
        obtain ⟨rfl, rfl⟩ := Prod.mk.inj (Except.ok.inj h)
        exact .index found
      · cases h
    | _ => cases h

namespace FindsAt

/-- A segment that finds its entry makes nothing. -/
theorem ensure (h : s.FindsAt c position) : s.ensure c = .ok (c, position) := by
  cases h with
  | field found =>
    simp only [Segment.ensure, Value.orNew, Value.isNull, Value.untagged, Bool.false_eq_true,
      if_false, found]
  | keyed found =>
    simp only [Segment.ensure, Value.orNew, Value.isNull, Value.untagged, Bool.false_eq_true,
      if_false, found]
  | index found => simp only [Segment.ensure, if_pos found]

theorem part_setPart (h : s.FindsAt c position) (new : Value) :
    (c.setPart position new).part position = new := by
  cases h with
  | field found =>
    obtain ⟨hlt, -⟩ := List.findIdx?_eq_some_iff_getElem.1 found
    simp [Value.setPart, Value.part, hlt]
  | keyed found =>
    obtain ⟨hlt, -⟩ := List.findIdx?_eq_some_iff_getElem.1 found
    simp [Value.setPart, Value.part, hlt]
  | index found => simp [Value.setPart, Value.part, found]

theorem matches?_part (h : (Segment.keyed key label).FindsAt c position) :
    matches? key label (c.part position) = true := by
  cases h with
  | keyed found =>
    obtain ⟨hlt, hmatches, -⟩ := List.findIdx?_eq_some_iff_getElem.1 found
    simpa [Value.part, hlt] using hmatches

/-- A segment finds the entry that was put in place of the one it found; an entry that is found by
its text has to have the text still. -/
theorem setPart (h : s.FindsAt c position) {new : Value}
    (hmatches : ∀ key label, s = .keyed key label → matches? key label new = true) :
    s.FindsAt (c.setPart position new) position := by
  cases h with
  | field found => exact .field (Mapping.position?_modify.trans found)
  | @keyed key label items _ found =>
    obtain ⟨hlt, -, hbefore⟩ := List.findIdx?_eq_some_iff_getElem.1 found
    refine .keyed (List.findIdx?_eq_some_iff_getElem.2 ⟨by simpa using hlt, ?_, fun j hj => ?_⟩)
    · simpa using hmatches key label rfl
    · simpa [List.getElem_set_ne (Nat.ne_of_gt hj)] using hbefore j hj
  | index found => exact .index (by simpa using found)

end FindsAt

end Segment

/-! ## Entries keep their texts -/

namespace Path

open Segment

variable {path rest : List Segment} {v v' w old item c new : Value} {entries : List (Value × Value)}
  {position : Nat} {key label name : String} {change further : Value → Value}

/-- In the entries of a list, paths go on in fields. -/
theorem exists_field_of_ensure {s : Segment} (hmapping : item.asMapping? = some entries)
    (hensure : s.ensure item = .ok (c, position)) :
    ∃ name, s = .field name ∧ item = .mapping entries := by
  cases item with
  | mapping entries' =>
    obtain rfl := Option.some.inj hmapping
    cases s with
    | field name => exact ⟨name, rfl, rfl⟩
    | keyed key label => cases hensure
    | index i => cases hensure
  | tagged tag v =>
    -- a path looks at the tag, although the text of the entry is read through it
    have hnull : (Value.tagged tag v).isNull = false := Value.isNull_eq_false (by simp [hmapping])
    cases s <;> simp [ensure, Value.orNew, hnull] at hensure
  | _ => cases hmapping

/-- A field of a mapping is there, or it is made at the end. -/
theorem ensure_mapping_cases
    (h : (Segment.field name).ensure (.mapping entries) = .ok (c, position)) :
    c = .mapping entries ∧ Mapping.position? (.string name) entries = some position ∨
      c = .mapping (entries ++ [(.string name, .null)]) ∧
        Mapping.position? (.string name) entries = none := by
  simp only [ensure, Value.orNew, Value.isNull, Value.untagged, Bool.false_eq_true,
    if_false] at h
  split at h
  · next found =>
    obtain ⟨rfl, rfl⟩ := Prod.mk.inj (Except.ok.inj h)
    exact .inl ⟨rfl, found⟩
  · next absent =>
    obtain ⟨rfl, rfl⟩ := Prod.mk.inj (Except.ok.inj h)
    exact .inr ⟨rfl, absent⟩

/-- A field that is set in a mapping does not show under other names. -/
theorem get?_setPart_of_ne (hne : name ≠ key)
    (hensure : (Segment.field name).ensure (.mapping entries) = .ok (c, position)) :
    (c.setPart position new).get? key = Mapping.getText? key entries := by
  have hfinds := findsAt_of_ensure hensure
  rcases ensure_mapping_cases hensure with ⟨rfl, found⟩ | ⟨rfl, -⟩
  · exact Mapping.getText?_modify_of_ne hne found
  · cases hfinds with
    | field found =>
      exact (Mapping.getText?_modify_of_ne hne found).trans (Mapping.getText?_append_of_ne hne)

/-- A field that is there is found with its value. -/
theorem part_eq_of_getText? (hget : Mapping.getText? name entries = some w)
    (hensure : (Segment.field name).ensure (.mapping entries) = .ok (c, position)) :
    c.part position = w := by
  rcases ensure_mapping_cases hensure with ⟨rfl, found⟩ | ⟨-, absent⟩
  · exact Option.some.inj ((Mapping.getText?_eq_part found).symm.trans hget)
  · exact nomatch (Mapping.getText?_eq_none_of_position? absent).symm.trans hget

/-- **An entry keeps the text that tells it apart**, whatever is changed in it at a path that spares
this text. -/
theorem matches?_follow (hmatches : matches? key label item = true)
    (hspares : SparesKeys (.keyed key label :: rest))
    (h : (follow change rest item).2 = .ok old) :
    matches? key label (follow change rest item).1 = true := by
  by_cases hkey : key.isEmpty = true
  · -- an entry that is itself the text has no parts, so that the path would end there
    have hlabel : item.label? = some label := by simpa [matches?, hkey] using hmatches
    obtain rfl := eq_nil_of_follow_label hlabel h
    exact absurd rfl (hspares.entry [] key label)
  have hlabel : (item.get? key).bind Value.label? = some label := by
    simpa [matches?, hkey] using hmatches
  suffices hget : (follow change rest item).1.get? key = item.get? key by
    simpa [matches?, hkey, hget] using hlabel
  cases rest with
  | nil => exact absurd rfl (hspares.entry [] key label)
  | cons s rest =>
    obtain ⟨c, position, hensure, hrest⟩ := exists_ensure h
    obtain ⟨w, hget, htext⟩ := Option.bind_eq_some_iff.1 hlabel
    obtain ⟨entries, hentries, hw⟩ := Option.bind_eq_some_iff.1 hget
    obtain ⟨name, rfl, rfl⟩ := exists_field_of_ensure hentries hensure
    have hne : name ≠ key := by
      rintro rfl
      -- the path would go on in the text of the entry, where it ends
      rw [part_eq_of_getText? hw hensure] at hrest
      obtain rfl := eq_nil_of_follow_label htext hrest
      exact hspares.text [] name label rfl
    rw [follow, hensure]
    exact get?_setPart_of_ne hne hensure

/-! ## Following a path again -/

/-- What a path finds does not depend on how it is changed then. -/
theorem follow_snd (change further : Value → Value) (path : List Segment) (v : Value) :
    (follow change path v).2 = (follow further path v).2 := by
  induction path generalizing v with
  | nil => rfl
  | cons s rest ih =>
    rw [follow, follow]
    cases s.ensure v with
    | error fault => rfl
    | ok entry => exact ih _

/-- **A path leads to the same place again**: following it in the document that an earlier walk has
left makes nothing, finds what that walk has put at its end, and changes that as if the two changes
had been one. -/
theorem follow_follow (hspares : SparesKeys path) (h : follow change path v = (v', .ok old)) :
    follow further path v' = ((follow (further ∘ change) path v).1, .ok (change old)) := by
  induction path generalizing v v' with
  | nil =>
    obtain ⟨rfl, hold⟩ := Prod.mk.inj h
    obtain rfl := Except.ok.inj hold
    rfl
  | cons s rest ih =>
    obtain ⟨c, position, hensure, hrest⟩ := exists_ensure (congrArg Prod.snd h)
    have hfinds := findsAt_of_ensure hensure
    rw [follow, hensure] at h
    obtain ⟨rfl, -⟩ := Prod.mk.inj h
    have hagain : s.FindsAt (c.setPart position (follow change rest (c.part position)).1)
        position := by
      refine hfinds.setPart ?_
      rintro key label rfl
      exact matches?_follow hfinds.matches?_part hspares hrest
    have hbelow := ih hspares.tail (Prod.ext rfl hrest)
    rw [follow, hagain.ensure, follow, hensure]
    simp only [hfinds.part_setPart, hbelow, Value.setPart_setPart]

end Path

/-! ## Setting twice -/

namespace Edit

variable {path : List Segment} {value document result : Value}

theorem apply_set_eq_ok_iff :
    apply document (.set path value) = (result, .ok ()) ↔
      ∃ old, Path.follow (fun _ => value) path document = (result, .ok old) := by
  rw [apply]
  cases Path.follow (fun _ => value) path document with
  | mk left found => cases found <;> simp [Except.mapError, Except.map]

/-- **What an edit sets is found again.**  After an edit that succeeds at a path that spares the keys
of lists, the path leads to the value and makes nothing; the same edit changes nothing more; and an
edit that sets another value there leaves what it would have left without the first one. -/
theorem apply_set_set (hspares : Path.SparesKeys path)
    (h : apply document (.set path value) = (result, .ok ())) :
    Path.lookup path result = (result, .ok value) ∧
      apply result (.set path value) = (result, .ok ()) ∧
      ∀ other, ∃ document', apply document (.set path other) = (document', .ok ()) ∧
        apply result (.set path other) = (document', .ok ()) := by
  obtain ⟨old, hfollow⟩ := apply_set_eq_ok_iff.1 h
  have hagain (further : Value → Value) : Path.follow further path result =
      ((Path.follow (further ∘ fun _ => value) path document).1, .ok value) :=
    Path.follow_follow hspares hfollow
  have hleft : (Path.follow (fun _ => value) path document).1 = result := congrArg Prod.fst hfollow
  refine ⟨?_, ?_, fun other => ⟨(Path.follow (fun _ => other) path document).1, ?_, ?_⟩⟩
  · exact (hagain id).trans (Prod.ext hleft rfl)
  · exact apply_set_eq_ok_iff.2 ⟨value, (hagain fun _ => value).trans (Prod.ext hleft rfl)⟩
  · refine apply_set_eq_ok_iff.2 ⟨old, Prod.ext rfl ?_⟩
    rw [Path.follow_snd _ fun _ => value, hfollow]
  · exact apply_set_eq_ok_iff.2 ⟨value, hagain fun _ => other⟩

/-- The containers of a pod, some of which are no mappings and two of which show the same text. -/
def samplePod : Value :=
  .mapping [(.string "containers", .sequence [
    .null,
    .string "1",
    .mapping [(.string "name", .number (.integer 1)), (.string "env", .null)],
    .mapping [(.string "name", .string "1"), (.string "image", .string "web:2")]])]

/-- The way to a variable of the first of the two, which has none yet. -/
def sampleWay : List Segment :=
  [.field "containers", .keyed "name" "1", .field "env", .keyed "name" "MODE"]

theorem apply_set_set_sample :
    let path := sampleWay ++ [.field "value"]
    Path.SparesKeys path ∧
      ∃ result, apply samplePod (.set path (.string "on")) = (result, .ok ()) ∧
        Path.lookup path result = (result, .ok (.string "on")) ∧
        apply result (.set path (.string "on")) = (result, .ok ()) ∧
        ∃ document', apply samplePod (.set path (.bool false)) = (document', .ok ()) ∧
          apply result (.set path (.bool false)) = (document', .ok ()) := by
  intro path
  have hspares : Path.SparesKeys path :=
    Path.sparesKeys_of_ends (by simp [sampleWay])
  have happly : apply samplePod (.set path (.string "on")) =
      ((apply samplePod (.set path (.string "on"))).1, .ok ()) := by rfl
  obtain ⟨hlookup, hsame, hother⟩ := apply_set_set hspares happly
  exact ⟨hspares, _, happly, hlookup, hsame, hother (.bool false)⟩

end Edit

end ClusterTuning
