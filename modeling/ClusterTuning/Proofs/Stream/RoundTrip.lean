import ClusterTuning.Proofs.Yaml.Draft.Documents
import ClusterTuning.Proofs.Yaml.Draft.Values
import ClusterTuning.Proofs.Yaml.Marks

/-!
# Streams are read back

Data that is written as a stream is read back as the same documents, in the same
order.

* `write_of_isData` — what is written;
* `readStream_documents` — the nodes that it is read as;
* `read_write_of_isData` — the documents.
-/

namespace ClusterTuning

open Yaml

/-! ## Writing -/

namespace Yaml.Printer

/-- Data has a written form. -/
theorem isWritable_of_isData {depth : Nat} {v : Value} (h : v.IsData depth) :
    isWritable false v = true := by
  induction h with
  | null => rfl
  | bool => rfl
  | integer => rfl
  | string => rfl
  | sequence _ ih => exact areWritable_iff.2 ih
  | mapping hkeys _ _ ih => exact isWritable_mapping hkeys ih

end Yaml.Printer

namespace Stream

open Yaml.Token Draft

theorem write_of_isData {depth : Nat} {documents : List Value}
    (h : ∀ v ∈ documents, v.IsData depth) :
    write documents none =
      .ok (String.ofList (List.intercalate separator (documents.map Printer.document))) := by
  have hwrite : documents.mapM Value.write =
      .ok (documents.map fun v => String.ofList (Printer.document v)) := by
    rw [mapM_eq_ok_iff, List.forall₂_map_right_iff, List.forall₂_same]
    intro v hv
    rw [Value.write, if_pos (Printer.isWritable_of_isData (h v hv))]
  rw [write, hwrite]
  show Except.ok (String.ofList (List.intercalate separator (List.map _ (List.map _ _)))) = _
  simp only [List.map_map, Function.comp_def, String.toList_ofList]

theorem intercalate_documents (v : Value) (documents : List Value) :
    List.intercalate separator ((v :: documents).map Printer.document) =
      Printer.document v ++ furtherText documents := by
  induction documents generalizing v with
  | nil => simp [furtherText]
  | cons w ws ih =>
    rw [List.map_cons, List.map_cons, List.intercalate_cons_cons, ← List.map_cons, ih w]
    simp [furtherText]

/-! ## Reading -/

/-- The nodes of a stream of data have the values that were written. -/
theorem readStream_documents {depth : Nat} {v : Value} {documents : List Value}
    (hdepth : depth ≤ Node.depthLimit) (h : ∀ w ∈ v :: documents, w.IsData depth) :
    ∃ nodes, Node.readStream (String.ofList (Printer.document v ++ furtherText documents)) =
      .ok nodes ∧ nodes.mapM Node.toValue = .ok (v :: documents) := by
  obtain ⟨hv, hdocuments⟩ := List.forall_mem_cons.1 h
  have htokens := ofTokens_documents (readsNode_of_isData hv) fun w hw =>
    readsNode_of_isData (hdocuments w hw)
  refine ⟨(v :: documents).map fun w => Node.ofDocument ⟨ofValue w, []⟩, ?_, ?_⟩
  · rw [Node.readStream, String.toList_ofList, Reader.readAll_documents hv hdocuments, ok_bind,
      htokens, ok_bind]
    simp [pure, Except.pure]
  · rw [mapM_eq_ok_iff, List.forall₂_map_left_iff, List.forall₂_same]
    intro w hw
    obtain ⟨node, hnode, hvalue⟩ := standsFor_of_isData (h w hw) hdepth
    rw [Node.ofDocument, hnode]
    exact hvalue

/-- **Data that is written as a stream is read back**: the same documents in the same order,
whatever their texts look like.  Collections may be nested as deep as the reader allows. -/
theorem read_write_of_isData {depth : Nat} {documents : List Value}
    (hdepth : depth ≤ Node.depthLimit) (h : ∀ v ∈ documents, v.IsData depth ∧ v.isNull = false) :
    ∃ text, write documents none = .ok text ∧ read text = .ok documents := by
  refine ⟨_, write_of_isData fun v hv => (h v hv).1, ?_⟩
  cases documents with
  | nil => rfl
  | cons v vs =>
    obtain ⟨nodes, hnodes, hvalues⟩ := readStream_documents hdepth fun w hw => (h w hw).1
    have hkept : (v :: vs).filter (fun w => !w.isNull) = v :: vs := by
      rw [List.filter_eq_self]
      exact fun w hw => by rw [(h w hw).2]; rfl
    rw [intercalate_documents, read, hnodes, ok_bind, hvalues]
    exact congrArg Except.ok hkept

/-- Documents whose texts look like something else. -/
def sampleDocuments : List Value :=
  [.string "---\n", .sequence [], .bool true,
    .mapping [(.string "on two\nlines", .sequence [.null, .number (.integer maxUInt64)]),
      (.string "true", .mapping [(.string "", .string " text \n\n")])]]

theorem read_write_of_isData_sample :
    (100 ≤ Node.depthLimit ∧ ∀ v ∈ sampleDocuments, v.IsData 100 ∧ v.isNull = false) ∧
      ∃ text, write sampleDocuments none = .ok text ∧ read text = .ok sampleDocuments := by
  have hdepth : 100 ≤ Node.depthLimit := by decide
  have hlist : (Value.sequence [.null, .number (.integer maxUInt64)]).IsData 99 :=
    .sequence (by simpa using ⟨.null 98, .integer 98 (by decide)⟩)
  have hinner : (Value.mapping [(.string "", .string " text \n\n")]).IsData 99 :=
    .mapping (by simp) (List.pairwise_singleton _ _) (List.forall_mem_singleton.2 (.string _ _))
  have hdata : ∀ v ∈ sampleDocuments, v.IsData 100 ∧ v.isNull = false := by
    simp only [sampleDocuments, List.forall_mem_cons]
    refine ⟨⟨.string _ _, rfl⟩, ⟨.sequence (List.forall_mem_nil _), rfl⟩, ⟨.bool _ _, rfl⟩,
      ⟨.mapping ?_ ?_ ?_, rfl⟩, List.forall_mem_nil _⟩
    · simp
    · simp
    · simpa using ⟨hlist, hinner⟩
  exact ⟨⟨hdepth, hdata⟩, read_write_of_isData hdepth hdata⟩

end Stream

end ClusterTuning
