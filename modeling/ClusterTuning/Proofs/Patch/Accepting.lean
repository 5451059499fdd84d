import ClusterTuning.Proofs.Outcome
import ClusterTuning.Patch.Edit

/-!
# Which edits an empty document accepts

A patch starts as a mapping without entries, so that an edit which sets a value
there walks through nothing but what it has just made: null behind a field, an
entry with its key behind a keyed segment, the text of that entry behind the field
of the key.  What it has made follows from the segment before and, at most, from
the one before that; these decide whether the next segment is refused.

* `Path.Refused` — the segments that cannot be followed, by what they come after;
* `Path.ensure_of_stands` — one segment;
* `Path.follow_eq_error_iff` — the first segment of a path that is refused;
* `Edit.apply_set_empty` — which edits go through, and how the others fail.
-/

namespace ClusterTuning

open Yaml

/-! ## Segments that are refused -/

/-- The fault of a segment that finds another kind of value than it needs. -/
def Segment.mismatch (s : Segment) : Path.Fault :=
  match s with
  | .field _ => .notMapping s
  | .keyed _ _ => .notSequence s
  | .index _ => .noEntry s

theorem Segment.subject_mismatch (s : Segment) : s.mismatch.subject = s.describe := by
  cases s <;> rfl

namespace Path

/-- A segment that cannot be followed in a document that its path makes, by the segments before it,
the nearest of them first. -/
inductive Refused : List Segment → Segment → Prop
  /-- The document is a mapping. -/
  | first {s : Segment} (other : ∀ name, s ≠ .field name) : Refused [] s
  /-- What has just been made has no positions. -/
  | position {passed : List Segment} {i : Nat} : Refused passed (.index i)
  /-- An entry of a list is a mapping. -/
  | inEntry {passed : List Segment} {key label : String} {s : Segment}
    (other : ∀ name, s ≠ .field name) : Refused (.keyed key label :: passed) s
  /-- An entry without a key is a text. -/
  | inText {passed : List Segment} {label : String} {s : Segment} :
    Refused (.keyed "" label :: passed) s
  /-- The key of an entry has a text. -/
  | inKey {passed : List Segment} {key label : String} {s : Segment} :
    Refused (.field key :: .keyed key label :: passed) s

/-! ## What an edit has made -/

/-- The value at which an edit of an empty mapping stands behind some segments, the last of them
first. -/
inductive Stands : List Segment → Value → Prop
  | start : Stands [] (.mapping [])
  | field {passed : List Segment} {name : String}
    (apart : ∀ label, passed.head? ≠ some (.keyed name label)) :
    Stands (.field name :: passed) .null
  | entry {passed : List Segment} {key label : String} :
    Stands (.keyed key label :: passed) (Segment.newEntry key label)
  | key {passed : List Segment} {key label : String} :
    Stands (.field key :: .keyed key label :: passed) (.string label)

variable {passed path front back : List Segment} {s : Segment} {v : Value} {key label : String}
  {change : Value → Value} {fault : Fault}

theorem newEntry_of_ne (hkey : key ≠ "") :
    Segment.newEntry key label = .mapping [(.string key, .string label)] :=
  if_neg (by simpa using hkey)

theorem ensure_string (s : Segment) (label : String) :
    s.ensure (.string label) = .error s.mismatch := by
  cases s <;> rfl

/-- A segment that is refused fails. -/
theorem ensure_of_refused (h : Stands passed v) (hs : Refused passed s) :
    s.ensure v = .error s.mismatch := by
  cases h with
  | start =>
    cases s with
    | field name => cases hs with | first other => exact absurd rfl (other name)
    | keyed key label => rfl
    | index i => rfl
  | field apart =>
    cases hs with
    | position => rfl
    | inKey => exact absurd rfl (apart _)
  | @entry _ key label =>
    by_cases hkey : key = ""
    · subst hkey
      exact ensure_string s label
    · rw [newEntry_of_ne hkey]
      cases s with
      | field name =>
        cases hs with
        | inEntry other => exact absurd rfl (other name)
        | inText => exact absurd rfl hkey
      | keyed key label => rfl
      | index i => rfl
  | key => exact ensure_string s _

/-- **One step**: a segment that is not refused is led to the value behind it. -/
theorem ensure_of_stands (h : Stands passed v) (hs : ¬ Refused passed s) :
    ∃ c position, s.ensure v = .ok (c, position) ∧ Stands (s :: passed) (c.part position) := by
  cases h with
  | start =>
    cases s with
    | field name => exact ⟨_, _, rfl, .field (by simp)⟩
    | keyed key label => exact absurd (.first nofun) hs
    | index i => exact absurd .position hs
  | field apart =>
    cases s with
    | field name => exact ⟨_, _, rfl, .field (by simp)⟩
    | keyed key label => exact ⟨_, _, rfl, .entry⟩
    | index i => exact absurd .position hs
  | @entry _ key label =>
    cases s with
    | field name =>
      have hkey : key ≠ "" := by
        rintro rfl
        exact hs .inText
      rw [newEntry_of_ne hkey]
      by_cases hname : name = key
      · subst hname
        exact ⟨.mapping [(.string name, .string label)], 0, by simp [Segment.ensure, Value.orNew,
          Value.isNull, Value.untagged, Mapping.position?, Value.same], .key⟩
      · refine ⟨.mapping [(.string key, .string label), (.string name, .null)], 1, ?_,
          .field (by simpa using fun h => absurd h.symm hname)⟩
        simp [Segment.ensure, Value.orNew, Value.isNull, Value.untagged, Mapping.position?,
          Value.same, Ne.symm hname]
    | keyed key label => exact absurd (.inEntry nofun) hs
    | index i => exact absurd .position hs
  | key => exact absurd .inKey hs

/-! ## Whole paths -/

/-- A segment of a path is the first one that is refused, behind the segments in `front`. -/
structure FirstRefused (passed front : List Segment) (s : Segment) : Prop where
  refused : Refused (front.reverse ++ passed) s
  earlier : ∀ front' s' back', front = front' ++ s' :: back' →
    ¬ Refused (front'.reverse ++ passed) s'

theorem firstRefused_cons {t : Segment} (ht : ¬ Refused passed t) :
    FirstRefused passed (t :: front) s ↔ FirstRefused (t :: passed) front s := by
  have hreverse (front : List Segment) :
      (t :: front).reverse ++ passed = front.reverse ++ t :: passed := by simp
  constructor
  · intro h
    refine ⟨hreverse front ▸ h.refused, fun front' s' back' heq => ?_⟩
    exact hreverse front' ▸ h.earlier (t :: front') s' back' (congrArg (t :: ·) heq)
  · intro h
    refine ⟨(hreverse front).symm ▸ h.refused, fun front' s' back' heq => ?_⟩
    rcases List.cons_eq_append_iff.1 heq with ⟨rfl, heq⟩ | ⟨front', rfl, rfl⟩
    · obtain ⟨rfl, -⟩ := List.cons.inj heq
      exact ht
    · exact (hreverse front').symm ▸ h.earlier front' s' back' rfl

/-- **A path fails at the first segment that is refused.** -/
theorem follow_eq_error_iff (h : Stands passed v) :
    (follow change path v).2 = .error fault ↔
      ∃ front s back, path = front ++ s :: back ∧ FirstRefused passed front s ∧
        fault = s.mismatch := by
  induction path generalizing passed v with
  | nil => simp [follow]
  | cons t rest ih =>
    by_cases ht : Refused passed t
    · rw [follow, ensure_of_refused h ht]
      constructor
      · intro hfault
        exact ⟨[], t, rest, rfl, ⟨ht, by simp⟩, (Except.error.inj hfault).symm⟩
      · rintro ⟨front, s, back, heq, hfirst, rfl⟩
        rcases List.cons_eq_append_iff.1 heq with ⟨rfl, heq⟩ | ⟨front, rfl, -⟩
        · obtain ⟨rfl, -⟩ := List.cons.inj heq
          rfl
        · exact absurd ht (hfirst.earlier [] t front rfl)
    · obtain ⟨c, position, hensure, hstands⟩ := ensure_of_stands h ht
      rw [follow, hensure]
      refine (ih hstands).trans ⟨?_, ?_⟩
      · rintro ⟨front, s, back, rfl, hfirst, rfl⟩
        exact ⟨t :: front, s, back, rfl, (firstRefused_cons ht).2 hfirst, rfl⟩
      · rintro ⟨front, s, back, heq, hfirst, rfl⟩
        rcases List.cons_eq_append_iff.1 heq with ⟨rfl, heq⟩ | ⟨front, rfl, rfl⟩
        · obtain ⟨rfl, -⟩ := List.cons.inj heq
          exact absurd hfirst.refused ht
        · exact ⟨front, s, back, rfl, (firstRefused_cons ht).1 hfirst, rfl⟩

/-- A path goes through if no segment of it is refused. -/
theorem exists_follow_iff (h : Stands passed v) :
    (∃ old, (follow change path v).2 = .ok old) ↔
      ∀ front s back, path = front ++ s :: back → ¬ Refused (front.reverse ++ passed) s := by
  induction path generalizing passed v with
  | nil => simp [follow]
  | cons t rest ih =>
    by_cases ht : Refused passed t
    · rw [follow, ensure_of_refused h ht]
      simp only [reduceCtorEq, exists_false, false_iff, not_forall, not_not]
      exact ⟨[], t, rest, rfl, ht⟩
    · obtain ⟨c, position, hensure, hstands⟩ := ensure_of_stands h ht
      rw [follow, hensure]
      refine (ih hstands).trans ⟨fun hrest front s back heq => ?_, fun hall front s back heq => ?_⟩
      · rcases List.cons_eq_append_iff.1 heq with ⟨rfl, heq⟩ | ⟨front, rfl, rfl⟩
        · obtain ⟨rfl, -⟩ := List.cons.inj heq
          exact ht
        · simpa using hrest front s back rfl
      · simpa using hall (t :: front) s back (congrArg (t :: ·) heq)

/-! ## Paths that are accepted -/

/-- A path that makes its way through an empty mapping: it starts in a field and has no positions;
a keyed segment is the last one or goes on in a field; without a key it is the last one, and so is
the field of its key behind it. -/
structure Accepted (path : List Segment) : Prop where
  starts : ∃ name rest, path = .field name :: rest
  positions : ∀ i, .index i ∉ path
  entries : ∀ front key label s back, path = front ++ .keyed key label :: s :: back →
    ∃ name, s = .field name
  texts : ∀ front label back, path = front ++ .keyed "" label :: back → back = []
  keys : ∀ front key label back, path = front ++ .keyed key label :: .field key :: back → back = []

theorem accepted_iff (hsome : path ≠ []) :
    Accepted path ↔ ∀ front s back, path = front ++ s :: back → ¬ Refused front.reverse s := by
  constructor
  · rintro h front s back heq hs
    generalize hfront : front.reverse = passed at hs
    obtain rfl : front = passed.reverse := List.reverse_eq_iff.1 hfront
    cases hs with
    | first other =>
      obtain ⟨name, rest, hstart⟩ := h.starts
      exact other name (List.cons.inj (heq.symm.trans hstart)).1
    | position => exact h.positions _ (heq ▸ List.mem_append_right _ List.mem_cons_self)
    | inEntry other =>
      obtain ⟨name, rfl⟩ := h.entries _ _ _ s back (by simpa using heq)
      exact other name rfl
    | inText => exact nomatch h.texts _ _ (s :: back) (by simpa using heq)
    | inKey => exact nomatch h.keys _ _ _ (s :: back) (by simpa using heq)
  · intro h
    refine ⟨?_, fun i hi => ?_, fun front key label s back heq => ?_,
      fun front label back heq => ?_, fun front key label back heq => ?_⟩
    · obtain ⟨s, rest, rfl⟩ := List.exists_cons_of_ne_nil hsome
      by_contra hother
      refine h [] s rest rfl (.first fun name hs => hother ⟨name, rest, ?_⟩)
      rw [hs]
    · obtain ⟨front, back, heq⟩ := List.append_of_mem hi
      exact h front _ back heq .position
    · by_contra hother
      refine h (front ++ [.keyed key label]) s back (by simpa using heq) ?_
      rw [List.reverse_concat]
      exact .inEntry fun name hs => hother ⟨name, hs⟩
    · by_contra hback
      obtain ⟨s, back, rfl⟩ := List.exists_cons_of_ne_nil hback
      refine h (front ++ [.keyed "" label]) s back (by simpa using heq) ?_
      rw [List.reverse_concat]
      exact .inText
    · by_contra hback
      obtain ⟨s, back, rfl⟩ := List.exists_cons_of_ne_nil hback
      refine h (front ++ [.keyed key label, .field key]) s back (by simpa using heq) ?_
      rw [List.reverse_append]
      exact .inKey

end Path

/-! ## Edits of an empty document -/

namespace Edit

open ClusterTuning.Path

/-- **Which edits an empty document accepts.**  An edit goes through exactly if its path is
accepted; otherwise it fails with a fault that names the first segment that is refused. -/
theorem apply_set_empty {path : List Segment} (hsome : path ≠ []) (value : Value) :
    ((apply (.mapping []) (.set path value)).2 = .ok () ↔ Accepted path) ∧
      ∀ failure, (apply (.mapping []) (.set path value)).2 = .error failure ↔
        ∃ front s back, path = front ++ s :: back ∧ FirstRefused [] front s ∧
          failure = .path s.mismatch ∧ s.mismatch.subject = s.describe := by
  refine ⟨?_, fun failure => ?_⟩
  · rw [accepted_iff hsome]
    have hpath := @exists_follow_iff [] path (.mapping []) (fun _ => value) .start
    simp only [List.append_nil] at hpath
    rw [← hpath, apply, map_eq_ok_iff]
    simp only [mapError_eq_ok_iff, and_true]
  · rw [apply, map_eq_error_iff, mapError_eq_error_iff]
    constructor
    · rintro ⟨fault, hfault, rfl⟩
      obtain ⟨front, s, back, heq, hfirst, rfl⟩ := (follow_eq_error_iff .start).1 hfault
      exact ⟨front, s, back, heq, hfirst, rfl, s.subject_mismatch⟩
    · rintro ⟨front, s, back, heq, hfirst, rfl, -⟩
      exact ⟨s.mismatch, (follow_eq_error_iff .start).2 ⟨front, s, back, heq, hfirst, rfl⟩, rfl⟩

/-- A path that would go on in the name of an environment variable. -/
def sampleDetour : List Segment :=
  [.field "spec", .keyed "name" "app", .field "env", .keyed "name" "MODE", .field "name",
    .field "value", .index 0]

theorem apply_set_empty_sample :
    sampleDetour ≠ [] ∧ ¬ Accepted sampleDetour ∧
      (apply (.mapping []) (.set sampleDetour .null)).2 =
        .error (.path (.notMapping (.field "value"))) ∧
      ∃ front back, sampleDetour = front ++ .field "value" :: back ∧
        FirstRefused [] front (.field "value") := by
  have hsome : sampleDetour ≠ [] := by simp [sampleDetour]
  have hfails : (apply (.mapping []) (.set sampleDetour .null)).2 =
      .error (.path (.notMapping (.field "value"))) := by rfl
  obtain ⟨haccepts, hfirst⟩ := apply_set_empty hsome .null
  refine ⟨hsome, fun h => ?_, hfails, ?_⟩
  · rw [haccepts.2 h] at hfails
    exact nomatch hfails
  · obtain ⟨front, s, back, heq, hrefused, hs, -⟩ := (hfirst _).1 hfails
    obtain rfl : s = .field "value" := by
      cases s with
      | field name => exact (Path.Fault.notMapping.inj (Failure.path.inj hs)).symm
      | keyed key label => exact nomatch Failure.path.inj hs
      | index i => exact nomatch Failure.path.inj hs
    exact ⟨front, back, heq, hrefused⟩

end Edit

end ClusterTuning
