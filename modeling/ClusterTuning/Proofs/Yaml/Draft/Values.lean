import ClusterTuning.Proofs.Yaml.Draft.Nodes
import ClusterTuning.Proofs.Yaml.Mapping
import ClusterTuning.Proofs.Yaml.Numerals
import ClusterTuning.Yaml.Decode

/-!
# Drafts of data stand for the data

Where no alias is followed and no limit is reached, a node is what its draft says,
and its value is the one that was written.

* `Draft.StandsFor` — the draft of a value stands for it down to a depth;
* `Draft.standsFor_of_isData` — all data.
-/

namespace ClusterTuning.Yaml.Draft

open Node Token

variable {target? : Nat → Option Draft} {limit depth : Nat}

/-- The draft of a value gives a node with this value, whatever else the document holds. -/
def StandsFor (target? : Nat → Option Draft) (limit depth : Nat) (v : Value) : Prop :=
  ∃ node, ofDraft target? limit depth (ofValue v) = pure node ∧ node.toValue = .ok v

/-! ## Scalars -/

theorem ofDraft_scalar (p : Properties) (style : ScalarStyle) (text : List Char) :
    ofDraft target? limit depth (.scalar p style text) =
      pure (.scalar p.tag style (String.ofList text)) := by
  -- The depth plays no part for a scalar, but the recursion is on it.
  delta ofDraft
  cases depth <;> rfl

theorem plain_of_scalarStyle {style : Printer.Style} (h : scalarStyle style = .plain) :
    style = .plain := by
  cases style with
  | plain => rfl
  | _ => cases h

/-- A text is written plain only where that means the text. -/
theorem meaning_of_textStyle {s : List Char} (h : Printer.textStyle s = .plain) :
    Scalar.meaning s = .text := by
  unfold Printer.textStyle at h
  split_ifs at h with hfeed hliteral hplain hsingle
  rw [Bool.and_eq_true, Bool.and_eq_true, beq_iff_eq] at hplain
  exact hplain.1.1

theorem standsFor_scalar {v : Value} {style : Printer.Style} {text : List Char}
    (h : Printer.scalar? v = some (style, text))
    (hvalue : untaggedScalar (scalarStyle style) (String.ofList text) = .ok v) :
    StandsFor target? limit depth v := by
  refine ⟨.scalar none (scalarStyle style) (String.ofList text), ?_, ?_⟩
  · rw [ofValue_scalar h, ofDraft_scalar]
  · rw [toValue]
    exact hvalue

theorem standsFor_string (s : String) : StandsFor target? limit depth (.string s) := by
  refine standsFor_scalar rfl ?_
  unfold untaggedScalar
  split
  · next hstyle =>
    rw [String.toList_ofList, meaning_of_textStyle (plain_of_scalarStyle hstyle),
      String.ofList_toList]
    rfl
  · rw [String.ofList_toList]

/-! ## Collections -/

theorem ofDraft_sequence {p : Properties} {items : List Draft} {nodes : List Node}
    (h : items.mapM (ofDraft target? limit depth) = pure nodes) :
    ofDraft target? limit (depth + 1) (.sequence p items) = pure (.sequence p.tag nodes) := by
  have hitems : ofDraft target? limit (depth + 1) (.sequence p items) =
      (do return .sequence p.tag (← items.mapM (ofDraft target? limit depth))) := by
    delta ofDraft
    rfl
  rw [hitems, h]
  rfl

/-- The node of an entry. -/
def ofEntry (target? : Nat → Option Draft) (limit depth : Nat) (entry : Draft × Draft) :
    StateM Nat (Node × Node) := do
  return (← ofDraft target? limit depth entry.1, ← ofDraft target? limit depth entry.2)

theorem ofDraft_mapping {p : Properties} {entries : List (Draft × Draft)}
    {nodes : List (Node × Node)}
    (h : entries.mapM (ofEntry target? limit depth) = pure nodes) :
    ofDraft target? limit (depth + 1) (.mapping p entries) = pure (.mapping p.tag nodes) := by
  have hentries : ofDraft target? limit (depth + 1) (.mapping p entries) =
      (do return .mapping p.tag (← entries.mapM (ofEntry target? limit depth))) := by
    delta ofEntry ofDraft
    rfl
  rw [hentries, h]
  rfl

theorem exists_nodes_of_standsFor {items : List Value}
    (h : ∀ x ∈ items, StandsFor target? limit depth x) :
    ∃ nodes, (ofItems items).mapM (ofDraft target? limit depth) = pure nodes ∧
      itemValues nodes = .ok items := by
  induction items with
  | nil => exact ⟨[], by rw [ofItems, List.mapM_nil], by rw [itemValues]⟩
  | cons x xs ih =>
    obtain ⟨⟨node, hnode, hvalue⟩, hxs⟩ := List.forall_mem_cons.1 h
    obtain ⟨nodes, hnodes, hvalues⟩ := ih hxs
    refine ⟨node :: nodes, ?_, ?_⟩
    · rw [ofItems, List.mapM_cons, hnode, hnodes]
      rfl
    · rw [itemValues, hvalue, hvalues]
      rfl

theorem exists_nodes_of_entries {entries : List (Value × Value)}
    (hkeys : ∀ e ∈ entries, ∃ s, e.1 = .string s)
    (hdistinct : entries.Pairwise fun e e' => e.1 ≠ e'.1)
    (h : ∀ e ∈ entries, StandsFor target? limit depth e.2) :
    ∃ nodes, (ofEntries entries).mapM (ofEntry target? limit depth) = pure nodes ∧
      ∀ before : List (Value × Value), (∀ b ∈ before, ∀ e ∈ entries, b.1 ≠ e.1) →
        entryValues before nodes = .ok (before.reverse ++ entries) := by
  induction entries with
  | nil =>
    refine ⟨[], by rw [ofEntries, List.mapM_nil], fun before _ => ?_⟩
    rw [entryValues, List.append_nil]
  | cons e es ih =>
    obtain ⟨k, v⟩ := e
    obtain ⟨⟨s, rfl⟩, hothers⟩ := List.forall_mem_cons.1 hkeys
    obtain ⟨hdiffers, hdistinct⟩ := List.pairwise_cons.1 hdistinct
    obtain ⟨⟨node, hnode, hvalue⟩, hes⟩ := List.forall_mem_cons.1 h
    obtain ⟨key, hkey, hkeyValue⟩ := @standsFor_string target? limit depth s
    obtain ⟨nodes, hnodes, hvalues⟩ := ih hothers hdistinct hes
    refine ⟨(key, node) :: nodes, ?_, fun before hbefore => ?_⟩
    · have hentry : ofEntry target? limit depth (ofValue (.string s), ofValue v) =
          pure (key, node) := by
        rw [ofEntry, hkey, hnode]
        rfl
      rw [ofEntries, List.mapM_cons, hentry, hnodes]
      rfl
    · have hnew : before.any (fun b => b.1.same (.string s)) = false := by
        rw [List.any_eq_false]
        exact fun b hb hsame =>
          hbefore b hb _ List.mem_cons_self (Value.same_string_iff.1 hsame)
      have hnext : ∀ b ∈ (Value.string s, v) :: before, ∀ e ∈ es, b.1 ≠ e.1 :=
        List.forall_mem_cons.2
          ⟨hdiffers, fun b hb e he => hbefore b hb e (List.mem_cons_of_mem _ he)⟩
      rw [entryValues, hkeyValue, ok_bind, hnew, hvalue]
      refine (hvalues _ hnext).trans ?_
      simp

/-! ## Data -/

/-- **The draft of data stands for the data.** -/
theorem standsFor_of_isData {v : Value} (h : v.IsData depth) :
    ∀ {n : Nat}, depth ≤ n → StandsFor target? limit n v := by
  induction h with
  | null => exact fun _ => standsFor_scalar rfl rfl
  | bool depth b =>
    refine fun _ => standsFor_scalar rfl ?_
    rw [untaggedScalar, String.toList_ofList, Scalar.meaning_boolText]
    rfl
  | @integer depth n hn =>
    refine fun _ => standsFor_scalar rfl ?_
    rw [untaggedScalar, String.toList_ofList, Number.text, Scalar.meaning_intText hn]
    rfl
  | string depth s => exact fun _ => standsFor_string s
  | @sequence depth items _ ih =>
    intro n hn
    obtain ⟨n, rfl⟩ := Nat.exists_eq_add_of_le' (Nat.le_trans (Nat.le_add_left 1 depth) hn)
    obtain ⟨nodes, hnodes, hvalues⟩ :=
      exists_nodes_of_standsFor fun x hx => ih x hx (Nat.le_of_succ_le_succ hn)
    refine ⟨.sequence none nodes, ?_, ?_⟩
    · rw [ofValue]
      exact ofDraft_sequence hnodes
    · rw [toValue, hvalues]
      rfl
  | @mapping depth entries hkeys hdistinct _ ih =>
    intro n hn
    obtain ⟨n, rfl⟩ := Nat.exists_eq_add_of_le' (Nat.le_trans (Nat.le_add_left 1 depth) hn)
    obtain ⟨nodes, hnodes, hvalues⟩ := exists_nodes_of_entries hkeys hdistinct
      fun e he => ih e he (Nat.le_of_succ_le_succ hn)
    refine ⟨.mapping none nodes, ?_, ?_⟩
    · rw [ofValue]
      exact ofDraft_mapping hnodes
    · rw [toValue, hvalues [] (List.forall_mem_nil _)]
      rfl

end ClusterTuning.Yaml.Draft
