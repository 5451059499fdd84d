import ClusterTuning.Proofs.Yaml.Draft.Nodes
import ClusterTuning.Proofs.Yaml.Token.Documents

/-!
# Tokens of streams are read back as drafts

The first document starts bare, every further one behind the mark of a document
start.  No document has anchors.

* `readDocuments_bare`, `readDocuments_marked` — one document and those after it;
* `ofTokens_documents` — a whole stream.
-/

namespace ClusterTuning.Yaml.Draft

open Token

variable {α β : Type} {n : Nat} {s : List Token} {anchors : Anchors}

theorem run_bind {x : Read α} {f : α → Read β} {i j : Input} {a : α}
    (h : x.run i = .ok (a, j)) : (x >>= f).run i = (f a).run j := by
  show (x.run i >>= fun r => (f r.1).run r.2) = _
  rw [h]
  rfl

/-- What may follow the root of a document, with the documents and the input after it. -/
structure Leads (n : Nat) (s : List Token) (documents : List Document) (final : Input) : Prop where
  head : s.head? ≠ some .documentEnd
  run : (readDocuments n false).run ⟨s, {}⟩ = .ok (documents, final)

/-- After the root of a document without anchors. -/
theorem Leads.document {documents : List Document} {final : Input}
    (h : Leads n s documents final) (root : Draft) :
    (do
      if (← peek) == some .documentEnd then advance
      let owners := (← get).anchors.owners
      return ⟨root, owners⟩ :: (← readDocuments n false) : Read (List Document)).run ⟨s, {}⟩ =
        .ok (⟨root, []⟩ :: documents, final) := by
  refine (run_bind (a := s.head?) (j := ⟨s, {}⟩) rfl).trans ?_
  dsimp only
  rw [if_neg (by simpa using h.head)]
  exact (run_bind (j := ⟨s, {}⟩) rfl).trans (run_bind h.run)

/-- A document at the start of a stream. -/
theorem readDocuments_bare {v : Value} {documents : List Document} {final : Input}
    (hv : ReadsNode v) (h : Leads n s documents final) :
    (readDocuments (n + 1) true).run ⟨nodeTokens false v ++ s, anchors⟩ =
      .ok (⟨ofValue v, []⟩ :: documents, final) := by
  obtain ⟨c, rest, heq, hborder, -⟩ := hv.starts false
  have hroot := @ReadsNode.reads v hv standardHandles
    (2 * (nodeTokens false v ++ s).length + 2) false false s nofun
    (by rw [List.length_append]; omega) {}
  rw [heq, List.cons_append] at hroot ⊢
  refine (run_bind (j := ⟨c :: (rest ++ s), {}⟩) rfl).trans ?_
  refine (run_bind (j := ⟨c :: (rest ++ s), {}⟩) rfl).trans ?_
  refine (run_bind (a := some c) (j := ⟨c :: (rest ++ s), {}⟩) rfl).trans ?_
  dsimp only
  rw [hborder]
  exact (run_bind hroot).trans (h.document _)

/-- A document behind a mark. -/
theorem readDocuments_marked {v : Value} {documents : List Document} {final : Input}
    (hv : ReadsNode v) (h : Leads n s documents final) :
    (readDocuments (n + 1) false).run ⟨.documentStart :: (nodeTokens false v ++ s), anchors⟩ =
      .ok (⟨ofValue v, []⟩ :: documents, final) := by
  obtain ⟨c, rest, heq, hborder, -⟩ := hv.starts false
  set t := nodeTokens false v ++ s with ht
  have hhead : bordersDocument t.head? = false := by
    rw [ht, heq]
    exact hborder
  have hroot := @ReadsNode.reads v hv standardHandles (2 * (t.length + 1) + 2) false false s
    nofun (by rw [ht, List.length_append]; omega) {}
  refine (run_bind (j := ⟨.documentStart :: t, {}⟩) rfl).trans ?_
  refine (run_bind rfl).trans ?_
  -- No mark of a document end stands before the mark of the start, and no directive.
  refine (run_bind (a := ()) (j := ⟨.documentStart :: t, {}⟩) rfl).trans ?_
  refine (run_bind rfl).trans ?_
  refine (run_bind (a := standardHandles) (j := ⟨.documentStart :: t, {}⟩) rfl).trans ?_
  refine (run_bind rfl).trans ?_
  refine (run_bind (j := ⟨t, {}⟩) rfl).trans ?_
  refine (run_bind (a := t.head?) (j := ⟨t, {}⟩) rfl).trans ?_
  rw [hhead]
  exact (run_bind hroot).trans (h.document _)

/-- Further documents. -/
theorem leads_further (documents : List Value) (h : ∀ v ∈ documents, ReadsNode v) :
    ∀ {n : Nat}, documents.length < n →
      ∃ final, Leads n (furtherTokens documents) (documents.map fun v => ⟨ofValue v, []⟩)
        final := by
  induction documents with
  | nil =>
    intro n hn
    obtain ⟨n, rfl⟩ := Nat.exists_eq_add_one_of_ne_zero (Nat.ne_zero_of_lt hn)
    exact ⟨⟨[], {}⟩, by simp [furtherTokens], rfl⟩
  | cons v vs ih =>
    obtain ⟨hv, hvs⟩ := List.forall_mem_cons.1 h
    intro n hn
    obtain ⟨n, rfl⟩ := Nat.exists_eq_add_one_of_ne_zero (Nat.ne_zero_of_lt hn)
    obtain ⟨final, hrest⟩ := ih hvs (Nat.lt_of_succ_lt_succ hn)
    have hfurther : furtherTokens (v :: vs) =
        .documentStart :: (nodeTokens false v ++ furtherTokens vs) := by
      simp [furtherTokens]
    rw [hfurther]
    exact ⟨final, by simp, readDocuments_marked hv hrest⟩

theorem length_le_furtherTokens (documents : List Value) :
    documents.length ≤ (furtherTokens documents).length := by
  induction documents with
  | nil => exact Nat.zero_le _
  | cons v vs ih =>
    simp only [furtherTokens, List.flatMap_cons, List.length_append, List.length_cons] at ih ⊢
    omega

/-- **The documents that the tokens of a stream form.** -/
theorem ofTokens_documents {v : Value} {documents : List Value} (hv : ReadsNode v)
    (hdocuments : ∀ w ∈ documents, ReadsNode w) :
    ofTokens (nodeTokens false v ++ furtherTokens documents) =
      .ok ((v :: documents).map fun w => ⟨ofValue w, []⟩) := by
  have hlength := length_le_furtherTokens documents
  obtain ⟨c, rest, heq, -⟩ := hv.starts false
  obtain ⟨final, hleads⟩ := @leads_further documents hdocuments
    (nodeTokens false v ++ furtherTokens documents).length (by rw [heq]; simp; omega)
  rw [ofTokens, readDocuments_bare hv hleads]
  rfl

end ClusterTuning.Yaml.Draft
