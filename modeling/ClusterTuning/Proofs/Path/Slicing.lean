import ClusterTuning.Proofs.Path.Spelling
import ClusterTuning.Proofs.Text.Slices

/-!
# Segments as bytes

The brackets of a list index are one byte each, so a reader of bytes takes them off
without looking at what stands between them.  It looks for the brackets first, and then
every slice that it takes is there: it comes to the same results as the reader of
characters, for all texts.

* `Path.splitSliced?_eq`, `Segment.parseSliced?_eq` — both readers agree;
* `Segment.parse_exactly` — how each text is read.
-/

namespace ClusterTuning

open Text

variable {text : String}

namespace Path

/-- All of a text but its first and its last byte. -/
def innerSlice? (text : String) : Option String :=
  match text.utf8ByteSize with
  | 0 => none
  | size + 1 => slice? text 1 size

/-- Whether a text has brackets at its ends, one for each end. -/
def isEnclosed (text : String) : Bool :=
  isListIndex text.toList && 2 ≤ text.utf8ByteSize

/-- The key and the value of a keyed list index, with the brackets taken off as bytes.  There is no
result at all if there is no such slice. -/
def splitSliced? (text : String) : Option (Option (List Char × List Char)) :=
  if isEnclosed text then (innerSlice? text).map fun inner => cutFirst '=' inner.toList
  else some none

theorem utf8ByteSize_bracketed (inner : String) :
    ("[" ++ inner ++ "]").utf8ByteSize = (1 + inner.utf8ByteSize) + 1 := by
  rw [String.utf8ByteSize_append, String.utf8ByteSize_append]
  rfl

theorem innerSlice?_bracketed (inner : String) :
    innerSlice? ("[" ++ inner ++ "]") = some inner := by
  rw [innerSlice?, utf8ByteSize_bracketed]
  exact slice?_eq_some_iff.2 ⟨"[", "]", rfl, rfl, String.utf8ByteSize_append⟩

theorem isListIndex_iff :
    isListIndex text.toList = true ↔ ∃ inner : String, text = "[" ++ inner ++ "]" := by
  constructor
  · intro h
    by_contra hplain
    have hnone := bracketed?_toList_eq_none_iff.2 (not_exists.1 hplain)
    rw [bracketed?, if_pos h] at hnone
    cases hnone
  · rintro ⟨inner, rfl⟩
    have hsome := bracketed?_bracketed inner
    rw [bracketed?, Option.ite_none_right_eq_some] at hsome
    exact hsome.1

/-- The second test is passed whenever the first one is. -/
theorem isEnclosed_iff : isEnclosed text = true ↔ ∃ inner : String, text = "[" ++ inner ++ "]" := by
  rw [isEnclosed, Bool.and_eq_true, isListIndex_iff, decide_eq_true_iff]
  constructor
  · exact And.left
  · rintro ⟨inner, rfl⟩
    rw [utf8ByteSize_bracketed]
    exact ⟨⟨inner, rfl⟩, by omega⟩

theorem splitSliced?_eq (text : String) : splitSliced? text = some (splitKeyed? text.toList) := by
  by_cases h : isEnclosed text = true
  · obtain ⟨inner, rfl⟩ := isEnclosed_iff.1 h
    rw [splitSliced?, if_pos h, innerSlice?_bracketed, splitKeyed?, bracketed?_bracketed]
    rfl
  · have hplain := not_exists.1 (mt isEnclosed_iff.2 h)
    rw [splitSliced?, if_neg h, splitKeyed?, bracketed?_toList_eq_none_iff.2 hplain]
    rfl

end Path

namespace Segment

open ClusterTuning.Path

/-- Reads one segment, with the brackets taken off as bytes.  There is no result at all if there is
no such slice. -/
def parseSliced? (text : String) : Option (Except Fault Segment) :=
  if isEnclosed text then
    (splitSliced? text).bind fun
      | some (key, value) => some (.ok (.keyed (String.ofList key) (String.ofList value)))
      | none => (innerSlice? text).map fun inner =>
        match readPosition? inner.toList with
        | some position => .ok (.index position)
        | none => .error (.malformedIndex text)
  else some (if text.isEmpty then .error .emptyField else .ok (.field text))

theorem parseSliced?_eq (text : String) : parseSliced? text = some (parse text) := by
  by_cases h : isEnclosed text = true
  · obtain ⟨inner, rfl⟩ := isEnclosed_iff.1 h
    have hsplit : splitSliced? ("[" ++ inner ++ "]") = some (cutFirst '=' inner.toList) := by
      rw [splitSliced?, if_pos h, innerSlice?_bracketed, Option.map_some]
    rw [parseSliced?, if_pos h, hsplit, innerSlice?_bracketed]
    cases hcut : cutFirst '=' inner.toList with
    | some cut =>
      rw [parse_of_cut hcut]
      rfl
    | none =>
      rw [Option.bind_some]
      cases hposition : readPosition? inner.toList with
      | some n => simp only [Option.map_some, hposition, parse_of_position hcut hposition]
      | none => simp only [Option.map_some, hposition, parse_of_no_position hcut hposition]
  · have hplain := not_exists.1 (mt isEnclosed_iff.2 h)
    rw [parseSliced?, if_neg h, parse_of_plain hplain]
    simp only [String.isEmpty_iff]

/-- **Every text is read in one way.**  It is refused if it is empty, or a list index without a key
that names no position; it is a keyed list index, a position or a field as its brackets, the first
equals sign between them and the digits say.  The key and the value alone are found exactly where a
keyed list index is read.  Two texts are read as one segment only if both are positions, and a
reader of bytes finds all the slices that it takes. -/
theorem parse_exactly (text : String) :
    (∀ fault, parse text = .error fault ↔
        text = "" ∧ fault = .emptyField ∨ IsMalformed text ∧ fault = .malformedIndex text) ∧
      (∀ key value, parse text = .ok (.keyed key value) ↔
        text = "[" ++ key ++ "=" ++ value ++ "]" ∧ '=' ∉ key.toList) ∧
      (∀ key value, splitKeyed? text.toList = some (key.toList, value.toList) ↔
        text = "[" ++ key ++ "=" ++ value ++ "]" ∧ '=' ∉ key.toList) ∧
      (∀ n, parse text = .ok (.index n) ↔
        ∃ inner : String, text = "[" ++ inner ++ "]" ∧ SpellsPosition inner.toList n) ∧
      (∀ name, parse text = .ok (.field name) ↔
        name = text ∧ text ≠ "" ∧ ∀ inner : String, text ≠ "[" ++ inner ++ "]") ∧
      (∀ other s, text ≠ other → parse text = .ok s → parse other = .ok s → ∃ n, s = .index n) ∧
      splitSliced? text = some (splitKeyed? text.toList) ∧
      parseSliced? text = some (parse text) := by
  refine ⟨fun _ => parse_eq_error_iff, fun _ _ => parse_eq_keyed_iff,
    fun _ _ => splitKeyed?_eq_some_iff, fun _ => parse_eq_index_iff, fun _ => parse_eq_field_iff,
    ?_, splitSliced?_eq text, parseSliced?_eq text⟩
  intro other s hne htext hother
  have hcases := (parse_eq_ok_iff.1 htext).eq_or_index (parse_eq_ok_iff.1 hother)
  exact hcases.resolve_left hne

/-- One position with two spellings, and a keyed list index whose characters take more than one byte
each. -/
theorem parse_exactly_sample :
    "[+07]" ≠ "[7]" ∧ parse "[+07]" = .ok (.index 7) ∧ parse "[7]" = .ok (.index 7) ∧
      (∃ n, Segment.index 7 = .index n) ∧
      parseSliced? "[größe=ü=]" = some (.ok (.keyed "größe" "ü=")) := by
  have hne : "[+07]" ≠ "[7]" := by decide
  have hplus : parse "[+07]" = .ok (.index 7) := by decide
  have hplain : parse "[7]" = .ok (.index 7) := by decide
  have hkeyed : parse "[größe=ü=]" = .ok (.keyed "größe" "ü=") := by decide
  obtain ⟨-, -, -, -, -, hunique, -⟩ := parse_exactly "[+07]"
  obtain ⟨-, -, -, -, -, -, -, hsliced⟩ := parse_exactly "[größe=ü=]"
  exact ⟨hne, hplus, hplain, hunique _ _ hne hplus hplain, hkeyed ▸ hsliced⟩

end Segment

end ClusterTuning
