import ClusterTuning.Proofs.Outcome
import ClusterTuning.Proofs.Yaml.Mapping
import ClusterTuning.Stream

/-!
# Documents that have no key twice

A mapping stores one value for each of its keys.  What is read from a text has
this form at every depth, since a key that comes again is a fault.

* `Value.induct` — induction over values;
* `Value.hasDistinctKeys` — no mapping in the value has a key twice;
* `Stream.hasDistinctKeys_of_read` — it holds of the documents of a stream.
-/

namespace ClusterTuning

open Yaml

namespace Yaml

namespace Value

/-! ## Induction over values -/

/-- What holds of a list or a mapping if it holds of everything in it, holds of all values. -/
@[elab_as_elim, induction_eliminator]
theorem induct {P : Value → Prop} (null : P .null) (bool : ∀ b, P (.bool b))
    (number : ∀ n, P (.number n)) (string : ∀ s, P (.string s))
    (sequence : ∀ items, (∀ x ∈ items, P x) → P (.sequence items))
    (mapping : ∀ entries, (∀ e ∈ entries, P e.1 ∧ P e.2) → P (.mapping entries))
    (tagged : ∀ tag v, P v → P (.tagged tag v)) (v : Value) : P v := by
  refine @Value.rec P (fun items => ∀ x ∈ items, P x) (fun entries => ∀ e ∈ entries, P e.1 ∧ P e.2)
    (fun e => P e.1 ∧ P e.2) null bool number string sequence mapping tagged ?_ ?_ ?_ ?_ ?_ v
  · exact List.forall_mem_nil _
  · exact fun _ _ hx hxs => List.forall_mem_cons.2 ⟨hx, hxs⟩
  · exact List.forall_mem_nil _
  · exact fun _ _ he hrest => List.forall_mem_cons.2 ⟨he, hrest⟩
  · exact fun _ _ hk hv => ⟨hk, hv⟩

/-! ## Keys at every depth -/

mutual

/-- Whether no mapping in a value has a key twice. -/
def hasDistinctKeys : Value → Bool
  | .sequence items => itemsHaveDistinctKeys items
  | .mapping entries => entriesHaveDistinctKeys entries
  | .tagged _ v => hasDistinctKeys v
  | _ => true

/-- Whether no mapping in one of the values has a key twice. -/
def itemsHaveDistinctKeys : List Value → Bool
  | [] => true
  | x :: xs => hasDistinctKeys x && itemsHaveDistinctKeys xs

/-- Whether the keys of the entries differ, and no mapping in a key or a value has one twice. -/
def entriesHaveDistinctKeys : List (Value × Value) → Bool
  | [] => true
  | (k, v) :: rest =>
    rest.all (fun e => !k.same e.1) && (hasDistinctKeys k && hasDistinctKeys v) &&
      entriesHaveDistinctKeys rest

end

theorem itemsHaveDistinctKeys_iff {items : List Value} :
    itemsHaveDistinctKeys items = true ↔ ∀ x ∈ items, x.hasDistinctKeys = true := by
  induction items with
  | nil => simp [itemsHaveDistinctKeys]
  | cons x xs ih => rw [itemsHaveDistinctKeys, Bool.and_eq_true, ih, List.forall_mem_cons]

theorem entriesHaveDistinctKeys_iff {entries : List (Value × Value)} :
    entriesHaveDistinctKeys entries = true ↔
      entries.Pairwise (fun a b => a.1.same b.1 = false) ∧
        ∀ e ∈ entries, e.1.hasDistinctKeys = true ∧ e.2.hasDistinctKeys = true := by
  induction entries with
  | nil => simp [entriesHaveDistinctKeys]
  | cons e rest ih =>
    rw [List.pairwise_cons, List.forall_mem_cons, entriesHaveDistinctKeys, Bool.and_eq_true,
      Bool.and_eq_true, Bool.and_eq_true, ih, List.all_eq_true]
    simp only [Bool.not_eq_true']
    exact and_and_and_comm

theorem hasDistinctKeys_untagged (v : Value) : v.untagged.hasDistinctKeys = v.hasDistinctKeys := by
  fun_induction untagged v with
  | case1 tag v ih => rw [ih, hasDistinctKeys]
  | case2 v _ => rfl

theorem asMapping?_eq_some_iff {v : Value} {entries : List (Value × Value)} :
    v.asMapping? = some entries ↔ v.untagged = .mapping entries := by
  unfold asMapping?
  cases v.untagged <;> simp

/-- No text is the key of two fields of a value, if it is a mapping. -/
def DistinctFields (v : Value) : Prop :=
  ∀ entries, v.asMapping? = some entries → Mapping.DistinctTexts entries

theorem entries_of_hasDistinctKeys {v : Value} {entries : List (Value × Value)}
    (h : v.hasDistinctKeys = true) (hentries : v.asMapping? = some entries) :
    entriesHaveDistinctKeys entries = true := by
  rwa [← hasDistinctKeys_untagged, asMapping?_eq_some_iff.1 hentries, hasDistinctKeys] at h

theorem distinctFields_of_hasDistinctKeys {v : Value} (h : v.hasDistinctKeys = true) :
    v.DistinctFields := by
  intro entries hentries
  obtain ⟨hkeys, -⟩ := entriesHaveDistinctKeys_iff.1 (entries_of_hasDistinctKeys h hentries)
  refine hkeys.imp fun hab s ha hb => ?_
  rw [ha, hb, same_string_iff.2 rfl] at hab
  exact absurd hab (by decide)

theorem hasDistinctKeys_of_mapping_get? {entries : List (Value × Value)} {key v : Value}
    (h : entriesHaveDistinctKeys entries = true) (hv : Mapping.get? key entries = some v) :
    v.hasDistinctKeys = true := by
  obtain ⟨e, he, -, rfl⟩ := Mapping.exists_mem_of_get? hv
  exact ((entriesHaveDistinctKeys_iff.1 h).2 e he).2

theorem hasDistinctKeys_of_get? {v field : Value} {key : String} (h : v.hasDistinctKeys = true)
    (hfield : v.get? key = some field) : field.hasDistinctKeys = true := by
  obtain ⟨entries, hentries, hget⟩ := Option.bind_eq_some_iff.1 hfield
  exact hasDistinctKeys_of_mapping_get? (entries_of_hasDistinctKeys h hentries) hget

end Value

/-! ## Reading -/

namespace Node

open Value

theorem hasDistinctKeys_withTag (tag : Option Tag) (v : Value) :
    (withTag tag v).hasDistinctKeys = v.hasDistinctKeys := by
  unfold withTag
  split <;> rfl

theorem hasDistinctKeys_of_meaning {meaning : Scalar.Meaning} {text : String} {v : Value}
    (h : meaning.value text = .ok v) : v.hasDistinctKeys = true := by
  cases meaning with
  | oversized => exact nomatch h
  | _ =>
    obtain rfl := Except.ok.inj h
    rfl

theorem hasDistinctKeys_of_untaggedScalar {style : ScalarStyle} {text : String} {v : Value}
    (h : untaggedScalar style text = .ok v) : v.hasDistinctKeys = true := by
  unfold untaggedScalar at h
  split at h
  · exact hasDistinctKeys_of_meaning h
  · obtain rfl := Except.ok.inj h
    rfl

theorem hasDistinctKeys_of_scalarValue {tag : Option Tag} {style : ScalarStyle} {text : String}
    {v : Value} (h : scalarValue tag style text = .ok v) : v.hasDistinctKeys = true := by
  unfold scalarValue at h
  split at h
  · split at h
    · obtain rfl := Except.ok.inj h
      rfl
    · exact nomatch h
  · obtain ⟨b, -, rfl⟩ := map_eq_ok_iff.1 h
    rfl
  · obtain ⟨n, -, rfl⟩ := map_eq_ok_iff.1 h
    rfl
  · obtain ⟨x, -, rfl⟩ := map_eq_ok_iff.1 h
    rfl
  · obtain rfl := Except.ok.inj h
    rfl
  · obtain ⟨w, hw, rfl⟩ := map_eq_ok_iff.1 h
    rw [hasDistinctKeys]
    exact hasDistinctKeys_of_untaggedScalar hw
  · exact hasDistinctKeys_of_untaggedScalar h
  · exact hasDistinctKeys_of_untaggedScalar h

mutual

/-- The value of a node has no key twice. -/
theorem hasDistinctKeys_of_toValue :
    ∀ {n : Node} {v : Value}, n.toValue = .ok v → v.hasDistinctKeys = true
  | .scalar tag style text, v, h => hasDistinctKeys_of_scalarValue h
  | .sequence tag items, v, h => by
    obtain ⟨values, hvalues, h⟩ := bind_eq_ok_iff.1 h
    obtain rfl := Except.ok.inj h
    rw [hasDistinctKeys_withTag]
    exact itemsHaveDistinctKeys_of_itemValues hvalues
  | .mapping tag entries, v, h => by
    obtain ⟨values, hvalues, h⟩ := bind_eq_ok_iff.1 h
    obtain rfl := Except.ok.inj h
    rw [hasDistinctKeys_withTag]
    exact entriesHaveDistinctKeys_of_entryValues rfl hvalues
  | .absent, v, h => by
    obtain rfl := Except.ok.inj h
    rfl
  | .excess, v, h => nomatch h

theorem itemsHaveDistinctKeys_of_itemValues :
    ∀ {items : List Node} {values : List Value}, itemValues items = .ok values →
      itemsHaveDistinctKeys values = true
  | [], values, h => by
    obtain rfl := Except.ok.inj h
    rfl
  | x :: xs, values, h => by
    obtain ⟨v, hv, h⟩ := bind_eq_ok_iff.1 h
    obtain ⟨vs, hvs, h⟩ := bind_eq_ok_iff.1 h
    obtain rfl := Except.ok.inj h
    rw [itemsHaveDistinctKeys, hasDistinctKeys_of_toValue hv,
      itemsHaveDistinctKeys_of_itemValues hvs]
    rfl

/-- The entries read so far have no key twice, and no other entry brings one of their keys. -/
theorem entriesHaveDistinctKeys_of_entryValues :
    ∀ {before : List (Value × Value)} {entries : List (Node × Node)}
      {values : List (Value × Value)}, entriesHaveDistinctKeys before.reverse = true →
      entryValues before entries = .ok values → entriesHaveDistinctKeys values = true
  | before, [], values, hbefore, h => by
    obtain rfl := Except.ok.inj h
    exact hbefore
  | before, (k, v) :: rest, values, hbefore, h => by
    obtain ⟨key, hkey, h⟩ := bind_eq_ok_iff.1 h
    dsimp only at h
    split at h
    · exact nomatch h
    · next hnew =>
      obtain ⟨value, hvalue, h⟩ := bind_eq_ok_iff.1 h
      refine entriesHaveDistinctKeys_of_entryValues ?_ h
      obtain ⟨hpairwise, hall⟩ := entriesHaveDistinctKeys_iff.1 hbefore
      rw [List.reverse_cons, entriesHaveDistinctKeys_iff, List.pairwise_append,
        List.forall_mem_append, List.forall_mem_singleton]
      refine ⟨⟨hpairwise, List.pairwise_singleton _ _, fun a ha b hb => ?_⟩, hall,
        hasDistinctKeys_of_toValue hkey, hasDistinctKeys_of_toValue hvalue⟩
      obtain rfl := List.mem_singleton.1 hb
      rw [← Bool.not_eq_true]
      exact fun hsame => hnew (List.any_eq_true.2 ⟨a, List.mem_reverse.1 ha, hsame⟩)

end

end Node

end Yaml

/-- The documents of a stream have no key twice. -/
theorem Stream.hasDistinctKeys_of_read {text : String} {documents : List Value}
    (h : Stream.read text = .ok documents) {d : Value} (hd : d ∈ documents) :
    d.hasDistinctKeys = true := by
  obtain ⟨all, hall, rfl⟩ := map_eq_ok_iff.1 h
  obtain ⟨nodes, -, hvalues⟩ := bind_eq_ok_iff.1 (mapError_eq_ok_iff.1 hall)
  obtain ⟨n, -, hn⟩ := exists_of_mem_mapM hvalues (List.mem_of_mem_filter hd)
  exact Node.hasDistinctKeys_of_toValue hn

end ClusterTuning
