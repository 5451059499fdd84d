import ClusterTuning.Proofs.Quantity.Spelling
import ClusterTuning.Proofs.Text.Cutting

/-!
# How segments are spelled

The grammar of segments, as a relation between texts and segments that does not mention
the reader.  Every text is read in one way: brackets make it a list index, an equals
sign between them a keyed one, and digits a position; what has no brackets is a field.
Only positions can be spelled in several ways.

* `Path.readPosition?_eq_some_iff` — positions;
* `Segment.parse_eq_ok_iff`, `Segment.parse_eq_error_iff` — all segments;
* `Segment.Spells.eq_or_index` — two spellings of one segment;
* `Path.splitKeyed?_eq_some_iff` — the key and the value alone.
-/

namespace ClusterTuning

open Text

variable {text other : String} {s inner : List Char} {n : Nat}

/-! ## Brackets -/

namespace Path

theorem bracketed?_eq_some_iff : bracketed? s = some inner ↔ s = '[' :: (inner ++ [']']) := by
  rw [bracketed?, Option.ite_none_right_eq_some, isListIndex, Bool.and_eq_true, beq_iff_eq,
    beq_iff_eq]
  constructor
  · rintro ⟨⟨hhead, hlast⟩, hinner⟩
    obtain rfl := Option.some.inj hinner
    cases s with
    | nil => cases hhead
    | cons c rest =>
      obtain rfl := Option.some.inj hhead
      cases rest with
      | nil => exact absurd (Option.some.inj hlast) (by decide)
      | cons d rest =>
        rw [List.getLast?_cons_cons] at hlast
        rw [List.tail_cons, List.dropLast_append_getLast? _ hlast]
  · rintro rfl
    refine ⟨⟨rfl, ?_⟩, ?_⟩
    · rw [← List.cons_append, List.getLast?_concat]
    · rw [List.tail_cons, List.dropLast_concat]

theorem bracketed?_toList_eq_some_iff {inner : String} :
    bracketed? text.toList = some inner.toList ↔ text = "[" ++ inner ++ "]" := by
  rw [bracketed?_eq_some_iff, ← String.toList_inj]
  simp [String.toList_append]

theorem bracketed?_bracketed (inner : String) :
    bracketed? ("[" ++ inner ++ "]").toList = some inner.toList :=
  bracketed?_toList_eq_some_iff.2 rfl

theorem bracketed?_toList_eq_none_iff :
    bracketed? text.toList = none ↔ ∀ inner : String, text ≠ "[" ++ inner ++ "]" := by
  rw [Option.eq_none_iff_forall_ne_some]
  constructor
  · intro h inner heq
    exact h inner.toList (bracketed?_toList_eq_some_iff.2 heq)
  · intro h inner heq
    rw [← String.toList_ofList (l := inner)] at heq
    exact h _ (bracketed?_toList_eq_some_iff.1 heq)

/-! ## Positions -/

/-- The texts of a position: digits, which a plus sign may precede, that name a number below the
bound. -/
inductive SpellsPosition : List Char → Nat → Prop where
  | mk {sign digits : List Char} (hsign : sign = [] ∨ sign = ['+']) (hne : digits ≠ [])
      (hdigits : IsDigits digits) (hbound : digitsValue digits < 2 ^ 64) :
      SpellsPosition (sign ++ digits) (digitsValue digits)

theorem readPosition?_plus (s : List Char) :
    readPosition? ('+' :: s) = (readNat? s).filter (· < positionBound) :=
  rfl

theorem readPosition?_of_head (hs : s.head? ≠ some '+') :
    readPosition? s = (readNat? s).filter (· < positionBound) := by
  unfold readPosition?
  split
  · exact absurd rfl hs
  · rfl

theorem filter_readNat?_eq_some_iff :
    (readNat? s).filter (· < positionBound) = some n ↔
      (s ≠ [] ∧ IsDigits s) ∧ digitsValue s = n ∧ digitsValue s < 2 ^ 64 := by
  rw [Option.filter_eq_some_iff, readNat?_eq_some_iff, decide_eq_true_iff, and_assoc]
  constructor
  · rintro ⟨hs, rfl, hbound⟩
    exact ⟨hs, rfl, hbound⟩
  · rintro ⟨hs, rfl, hbound⟩
    exact ⟨hs, rfl, hbound⟩

theorem readPosition?_eq_some_iff : readPosition? s = some n ↔ SpellsPosition s n := by
  constructor
  · intro h
    by_cases hplus : s.head? = some '+'
    · obtain ⟨digits, rfl⟩ := List.head?_eq_some_iff.1 hplus
      rw [readPosition?_plus, filter_readNat?_eq_some_iff] at h
      obtain ⟨⟨hne, hdigits⟩, rfl, hbound⟩ := h
      exact .mk (.inr rfl) hne hdigits hbound
    · rw [readPosition?_of_head hplus, filter_readNat?_eq_some_iff] at h
      obtain ⟨⟨hne, hdigits⟩, rfl, hbound⟩ := h
      exact .mk (.inl rfl) hne hdigits hbound
  · intro h
    cases h with
    | @mk sign digits hsign hne hdigits hbound =>
      have hread := filter_readNat?_eq_some_iff.2 ⟨⟨hne, hdigits⟩, rfl, hbound⟩
      rcases hsign with rfl | rfl
      · have hhead : digits.head? ≠ some '+' := by
          intro hc
          exact absurd (hdigits '+' (List.mem_of_head? hc)) (by decide)
        rwa [List.nil_append, readPosition?_of_head hhead]
      · exact hread

/-- No position is a keyed list index. -/
theorem SpellsPosition.equals_not_mem (h : SpellsPosition s n) : '=' ∉ s := by
  cases h with
  | mk hsign _ hdigits _ =>
    rw [List.mem_append, not_or]
    refine ⟨?_, fun hmem => absurd (hdigits '=' hmem) (by decide)⟩
    rcases hsign with rfl | rfl <;> decide

end Path

/-! ## Segments -/

namespace Segment

open ClusterTuning.Path

/-- The texts of a segment. -/
inductive Spells : String → Segment → Prop where
  | field {name : String} (hne : name ≠ "")
      (hplain : ∀ inner : String, name ≠ "[" ++ inner ++ "]") : Spells name (.field name)
  | keyed {key value : String} (hkey : '=' ∉ key.toList) :
      Spells ("[" ++ key ++ "=" ++ value ++ "]") (.keyed key value)
  | index {inner : String} {n : Nat} (hinner : SpellsPosition inner.toList n) :
      Spells ("[" ++ inner ++ "]") (.index n)

/-- A list index without a key that names no position. -/
def IsMalformed (text : String) : Prop :=
  ∃ inner : String, text = "[" ++ inner ++ "]" ∧ '=' ∉ inner.toList ∧
    ¬∃ n, SpellsPosition inner.toList n

theorem parse_of_plain (h : ∀ inner : String, text ≠ "[" ++ inner ++ "]") :
    parse text = if text = "" then .error .emptyField else .ok (.field text) := by
  rw [parse, bracketed?_toList_eq_none_iff.2 h]
  simp only [String.isEmpty_iff]

theorem parse_of_cut {inner : String} {cut : List Char × List Char}
    (hcut : cutFirst '=' inner.toList = some cut) :
    parse ("[" ++ inner ++ "]") = .ok (.keyed (String.ofList cut.1) (String.ofList cut.2)) := by
  simp only [parse, bracketed?_bracketed, hcut]

theorem parse_of_position {inner : String} (hcut : cutFirst '=' inner.toList = none)
    (hposition : readPosition? inner.toList = some n) :
    parse ("[" ++ inner ++ "]") = .ok (.index n) := by
  simp only [parse, bracketed?_bracketed, hcut, hposition]

theorem parse_of_no_position {inner : String} (hcut : cutFirst '=' inner.toList = none)
    (hposition : readPosition? inner.toList = none) :
    parse ("[" ++ inner ++ "]") = .error (.malformedIndex ("[" ++ inner ++ "]")) := by
  simp only [parse, bracketed?_bracketed, hcut, hposition]

theorem keyed_append (key value : String) :
    "[" ++ key ++ "=" ++ value ++ "]" = "[" ++ (key ++ "=" ++ value) ++ "]" := by
  simp only [String.append_assoc]

theorem parse_of_spells {s : Segment} (h : Spells text s) : parse text = .ok s := by
  cases h with
  | field hne hplain => rw [parse_of_plain hplain, if_neg hne]
  | @keyed key value hkey =>
    have hinner : (key ++ "=" ++ value).toList = key.toList ++ '=' :: value.toList := by
      simp [String.toList_append]
    rw [keyed_append, parse_of_cut (hinner ▸ cutFirst_append hkey value.toList),
      String.ofList_toList, String.ofList_toList]
  | index hinner =>
    exact parse_of_position (cutFirst_eq_none_iff.2 hinner.equals_not_mem)
      (readPosition?_eq_some_iff.2 hinner)

theorem parse_of_isMalformed (h : IsMalformed text) :
    parse text = .error (.malformedIndex text) := by
  obtain ⟨inner, rfl, hkey, hposition⟩ := h
  have hnone : readPosition? inner.toList = none := by
    refine Option.eq_none_iff_forall_ne_some.2 fun n hn => ?_
    exact hposition ⟨n, readPosition?_eq_some_iff.1 hn⟩
  exact parse_of_no_position (cutFirst_eq_none_iff.2 hkey) hnone

/-- Every text is empty, malformed, or a spelling. -/
theorem empty_or_isMalformed_or_spells (text : String) :
    text = "" ∨ IsMalformed text ∨ ∃ s, Spells text s := by
  by_cases hplain : ∀ inner : String, text ≠ "[" ++ inner ++ "]"
  · by_cases hne : text = ""
    · exact .inl hne
    · exact .inr (.inr ⟨_, .field hne hplain⟩)
  · obtain ⟨inner, rfl⟩ := not_forall_not.1 hplain
    right
    cases hcut : cutFirst '=' inner.toList with
    | some cut =>
      obtain ⟨heq, hkey⟩ := cutFirst_eq_some_iff.1 hcut
      have hinner : inner = String.ofList cut.1 ++ "=" ++ String.ofList cut.2 := by
        rw [← String.toList_inj, heq]
        simp [String.toList_append]
      refine .inr ⟨.keyed (String.ofList cut.1) (String.ofList cut.2), ?_⟩
      rw [hinner, ← keyed_append]
      exact .keyed (by rwa [String.toList_ofList])
    | none =>
      by_cases hposition : ∃ n, SpellsPosition inner.toList n
      · obtain ⟨n, hn⟩ := hposition
        exact .inr ⟨_, .index hn⟩
      · exact .inl ⟨inner, rfl, cutFirst_eq_none_iff.1 hcut, hposition⟩

/-- A text is read as the segment that it spells. -/
theorem parse_eq_ok_iff {s : Segment} : parse text = .ok s ↔ Spells text s := by
  constructor
  · intro h
    rcases empty_or_isMalformed_or_spells text with rfl | hbad | ⟨s', hs⟩
    · cases h
    · rw [parse_of_isMalformed hbad] at h
      cases h
    · rw [parse_of_spells hs] at h
      cases h
      exact hs
  · exact parse_of_spells

/-- A text is refused if it is empty or malformed. -/
theorem parse_eq_error_iff {fault : Fault} :
    parse text = .error fault ↔
      text = "" ∧ fault = .emptyField ∨ IsMalformed text ∧ fault = .malformedIndex text := by
  constructor
  · intro h
    rcases empty_or_isMalformed_or_spells text with rfl | hbad | ⟨s, hs⟩
    · cases h
      exact .inl ⟨rfl, rfl⟩
    · rw [parse_of_isMalformed hbad] at h
      cases h
      exact .inr ⟨hbad, rfl⟩
    · rw [parse_of_spells hs] at h
      cases h
  · rintro (⟨rfl, rfl⟩ | ⟨hbad, rfl⟩)
    · rfl
    · exact parse_of_isMalformed hbad

/-! ### One kind at a time -/

theorem parse_eq_field_iff {name : String} :
    parse text = .ok (.field name) ↔
      name = text ∧ text ≠ "" ∧ ∀ inner : String, text ≠ "[" ++ inner ++ "]" := by
  rw [parse_eq_ok_iff]
  constructor
  · intro h
    cases h with
    | field hne hplain => exact ⟨rfl, hne, hplain⟩
  · rintro ⟨rfl, hne, hplain⟩
    exact .field hne hplain

theorem parse_eq_keyed_iff {key value : String} :
    parse text = .ok (.keyed key value) ↔
      text = "[" ++ key ++ "=" ++ value ++ "]" ∧ '=' ∉ key.toList := by
  rw [parse_eq_ok_iff]
  constructor
  · intro h
    cases h with
    | keyed hkey => exact ⟨rfl, hkey⟩
  · rintro ⟨rfl, hkey⟩
    exact .keyed hkey

theorem parse_eq_index_iff :
    parse text = .ok (.index n) ↔
      ∃ inner : String, text = "[" ++ inner ++ "]" ∧ SpellsPosition inner.toList n := by
  rw [parse_eq_ok_iff]
  constructor
  · intro h
    cases h with
    | index hinner => exact ⟨_, rfl, hinner⟩
  · rintro ⟨inner, rfl, hinner⟩
    exact .index hinner

/-- Fields and keyed list indices are spelled in one way. -/
theorem Spells.eq_or_index {s : Segment} (h : Spells text s) (hother : Spells other s) :
    text = other ∨ ∃ n, s = .index n := by
  cases h with
  | field _ _ =>
    cases hother with
    | field _ _ => exact .inl rfl
  | keyed _ =>
    cases hother with
    | keyed _ => exact .inl rfl
  | index _ => exact .inr ⟨_, rfl⟩

end Segment

/-! ## The key and the value alone -/

namespace Path

theorem splitKeyed?_eq_some_iff {key value : String} :
    splitKeyed? text.toList = some (key.toList, value.toList) ↔
      text = "[" ++ key ++ "=" ++ value ++ "]" ∧ '=' ∉ key.toList := by
  simp only [splitKeyed?, Option.bind_eq_some_iff, bracketed?_eq_some_iff, cutFirst_eq_some_iff]
  rw [← String.toList_inj]
  constructor
  · rintro ⟨inner, htext, rfl, hkey⟩
    exact ⟨by simp [htext, String.toList_append], hkey⟩
  · rintro ⟨htext, hkey⟩
    exact ⟨_, by simp [htext, String.toList_append], rfl, hkey⟩

end Path

end ClusterTuning
