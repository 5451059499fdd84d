import ClusterTuning.Patch
import ClusterTuning.Proofs.Outcome
import ClusterTuning.Proofs.Patch.BareInts
import ClusterTuning.Proofs.Yaml.Marks
import ClusterTuning.Yaml.Decode

/-!
# Patches without placeholders

A patch is the text of the document that its edits make, with the tags of integers
taken out.  Where there is no tag, nothing should be taken out.  This holds unless
a text of the document looks like a tagged quotation itself: the tags are looked
for in the written text, in which both look the same.

* `Edit.render_eq_ok_iff` — a patch from its document;
* `Edit.render_eq_written_iff` — when a patch is the text of its document.
-/

namespace ClusterTuning

open Yaml Placeholder

namespace Edit

theorem render_eq_ok_iff {edits : List Edit} {text : String} :
    render edits = .ok text ↔ ∃ document written,
      applyAll (.mapping []) edits = (document, .ok ()) ∧ document.write = .ok written ∧
        bareInts written = text := by
  unfold render
  split
  · next failure happly => simp [happly]
  · next document happly =>
    rw [map_eq_ok_iff]
    simp only [mapError_eq_ok_iff, happly]
    constructor
    · rintro ⟨written, hwrite, htext⟩
      exact ⟨document, written, rfl, hwrite, htext⟩
    · rintro ⟨document', written, heq, hwrite, htext⟩
      obtain rfl := (Prod.mk.inj heq).1
      exact ⟨written, hwrite, htext⟩

theorem isMark_intMark : Printer.IsMark intMark where
  bang := rfl
  inner := by simp [intMark, Printer.isBreak]

/-- **When a patch without placeholders is the text of its document.**  It is exactly if no line of
that text holds a tagged quotation.  This is so if no text in the document, be it a key or a value,
holds the mark of an integer tag; the patch then reads back as the document if its text does. -/
theorem render_eq_written_iff {edits : List Edit} {document : Value} {text : String}
    (happly : applyAll (.mapping []) edits = (document, .ok ()))
    (huntagged : ∀ w ∈ document.subvalues, w.isTagged = false)
    (hrender : render edits = .ok text) :
    ∃ written, document.write = .ok written ∧
      (text = written ↔ ∀ line ∈ Text.pieces '\n' written.toList, ¬ HoldsTag line) ∧
      ((∀ s, .string s ∈ document.subvalues → ¬ intMark <:+: s.toList) →
        text = written ∧
          (Value.read written = .ok document → Value.read text = .ok document)) := by
  obtain ⟨document', written, happly', hwrite, rfl⟩ := render_eq_ok_iff.1 hrender
  obtain rfl : document = document' := congrArg Prod.fst (happly.symm.trans happly')
  refine ⟨written, hwrite, bareInts_eq_self_iff, fun htexts => ?_⟩
  have hclear : ∀ w ∈ document.subvalues, Printer.IsClear intMark w := by
    intro w hw
    refine ⟨huntagged w hw, ?_⟩
    rintro s rfl
    exact htexts s hw
  have htext : written.toList = Printer.document document := by
    unfold Value.write at hwrite
    split at hwrite
    · rw [← Except.ok.inj hwrite, String.toList_ofList]
    · exact nomatch hwrite
  have heq : bareInts written = written := by
    refine bareInts_of_no_mark ?_
    rw [htext]
    exact Printer.not_infix_document isMark_intMark hclear
  exact ⟨heq, fun hread => by rwa [heq]⟩

/-- Texts that come near a tagged quotation: the word and the quotes, but not the mark. -/
def sampleNotes : List Edit :=
  [.set [.field "int 'a'"] (.string "!int"), .set [.field "steps"] (.sequence [
    .string "it's 'int'", .string "!!int\n'b'\n", .number (.integer 3)])]

/-- The document of these texts. -/
def sampleNotesDocument : Value :=
  .mapping [(.string "int 'a'", .string "!int"), (.string "steps", .sequence [
    .string "it's 'int'", .string "!!int\n'b'\n", .number (.integer 3)])]

theorem render_eq_written_iff_sample :
    applyAll (.mapping []) sampleNotes = (sampleNotesDocument, .ok ()) ∧
      (∀ w ∈ sampleNotesDocument.subvalues, w.isTagged = false) ∧
      (∀ s, .string s ∈ sampleNotesDocument.subvalues → ¬ intMark <:+: s.toList) ∧
      ∃ text, render sampleNotes = .ok text ∧ sampleNotesDocument.write = .ok text ∧
        text = "int 'a': '!int'\nsteps:\n- it's 'int'\n- |\n  !!int\n  'b'\n- 3\n" := by
  have happly : applyAll (.mapping []) sampleNotes = (sampleNotesDocument, .ok ()) := by rfl
  have hrender : render sampleNotes =
      .ok "int 'a': '!int'\nsteps:\n- it's 'int'\n- |\n  !!int\n  'b'\n- 3\n" := by rfl
  have hmarks : ∀ s ∈ ["int 'a'", "!int", "steps", "it's 'int'", "!!int\n'b'\n"],
      ¬ intMark <:+: s.toList := by decide
  have htexts : ∀ s, .string s ∈ sampleNotesDocument.subvalues → ¬ intMark <:+: s.toList := by
    intro s hs
    refine hmarks s ?_
    simpa [sampleNotesDocument, Value.subvalues, Value.entrySubvalues,
      Value.itemSubvalues] using hs
  obtain ⟨written, hwrite, -, hsame⟩ := render_eq_written_iff happly (by decide) hrender
  refine ⟨happly, by decide, htexts, _, hrender, ?_, rfl⟩
  rw [hwrite, (hsame htexts).1]

/-- The text of a note. -/
def quotingNote : List Edit :=
  [.set [.field "note"] (.string "x !int 'y'")]

/-- A note that quotes something behind the mark loses the mark and the quotes, though there is no
tag in the document. -/
theorem render_of_quotingNote :
    ∃ document, applyAll (.mapping []) quotingNote = (document, .ok ()) ∧
      (∀ w ∈ document.subvalues, w.isTagged = false) ∧
      document.write = .ok "note: x !int 'y'\n" ∧
      render quotingNote = .ok "note: x y\n" ∧ Value.read "note: x y\n" ≠ .ok document := by
  refine ⟨.mapping [(.string "note", .string "x !int 'y'")], by rfl, by decide, by rfl, by rfl, ?_⟩
  have hread : ((Value.read "note: x y\n").toOption.bind (·.get? "note")).bind Value.asString? =
      some "x y" := by decide +kernel
  intro h
  rw [h] at hread
  exact absurd hread (by decide)

end Edit

end ClusterTuning
