import ClusterTuning.Yaml.Value
import Mathlib.Data.List.Induction
import Mathlib.Data.List.Perm.Basic

/-!
# Keys of a mapping

A mapping finds the value of a key under the first key that is the same.  Where no
two of its keys are the same as that one, the order of the entries does not matter:
a removal, which moves the last entry, takes away one key and no other.

Resources keep what they say about themselves under texts.  A text is the same as
nothing but itself, so that looking one up is not disturbed by the other keys,
whatever they are.

* `Value.SinglesOut` — what a key has to do for other keys not to disturb it;
* `Mapping.get?_alter`, `Mapping.get?_remove` — what is found afterwards;
* `Mapping.DistinctTexts` — no text is a key twice.
-/

namespace ClusterTuning.Yaml

/-! ## Mappings under tags -/

theorem Value.isNull_eq_false {v : Value} (h : v.asMapping?.isSome = true) : v.isNull = false := by
  unfold asMapping? at h
  unfold isNull
  cases hv : v.untagged with
  | null => rw [hv] at h; exact nomatch h
  | _ => rfl

/-! ## Sameness with a key -/

/-- Of two keys, a third one singles out both or none when they are the same, and never both when
they are not. -/
structure Value.SinglesOut (key x y : Value) : Prop where
  congr : x.same y = true → x.same key = y.same key
  joins : x.same key = true → y.same key = true → x.same y = true

theorem Value.same_string_iff {v : Value} {s : String} :
    v.same (.string s) = true ↔ v = .string s := by
  cases v <;> simp [same]

theorem Value.string_same_iff {v : Value} {s : String} :
    (Value.string s).same v = true ↔ v = .string s := by
  cases v <;> simp [same]
  exact eq_comm

theorem Value.singlesOut_string (s : String) (x y : Value) : SinglesOut (.string s) x y where
  congr h := by
    rw [Bool.eq_iff_iff, same_string_iff, same_string_iff]
    constructor
    · rintro rfl
      exact string_same_iff.1 h
    · rintro rfl
      exact same_string_iff.1 h
  joins hx hy := by
    rw [same_string_iff.1 hx, same_string_iff.1 hy]
    exact same_string_iff.2 rfl

namespace Mapping

open Value

variable {entries target : List (Value × Value)} {key sought v : Value} {s : String}

/-! ## Looking up keys -/

/-- No two keys are the same as the given one. -/
def HoldsOnce (key : Value) (entries : List (Value × Value)) : Prop :=
  entries.Pairwise fun a b => a.1.same key = true → b.1.same key = false

theorem HoldsOnce.perm (h : HoldsOnce key entries) (hperm : entries.Perm target) :
    HoldsOnce key target := by
  refine List.Pairwise.perm h hperm fun hab hb => ?_
  by_contra ha
  rw [hab (by simpa using ha)] at hb
  exact nomatch hb

theorem get?_cons (entry : Value × Value) :
    get? key (entry :: entries) = if entry.1.same key then some entry.2 else get? key entries :=
  rfl

theorem get?_eq_none_iff : get? key entries = none ↔ ∀ e ∈ entries, e.1.same key = false := by
  induction entries with
  | nil => simp [get?]
  | cons entry rest ih =>
    rw [get?_cons, List.forall_mem_cons, ← ih]
    by_cases h : entry.1.same key = true
    · simp [h]
    · simp [h]

theorem exists_mem_of_get? (h : get? key entries = some v) :
    ∃ e ∈ entries, e.1.same key = true ∧ e.2 = v := by
  induction entries with
  | nil => exact nomatch h
  | cons entry rest ih =>
    rw [get?_cons] at h
    by_cases hsame : entry.1.same key = true
    · rw [if_pos hsame] at h
      exact ⟨entry, List.mem_cons_self, hsame, Option.some.inj h⟩
    · rw [if_neg hsame] at h
      obtain ⟨e, he, hfound⟩ := ih h
      exact ⟨e, List.mem_cons_of_mem _ he, hfound⟩

theorem get?_eq_some_iff (h : HoldsOnce key entries) :
    get? key entries = some v ↔ ∃ e ∈ entries, e.1.same key = true ∧ e.2 = v := by
  induction entries with
  | nil => simp [get?]
  | cons entry rest ih =>
    obtain ⟨hentry, hrest⟩ := List.pairwise_cons.1 h
    rw [get?_cons, List.exists_mem_cons_iff, ← ih hrest]
    by_cases hsame : entry.1.same key = true
    · have habsent : get? key rest = none := get?_eq_none_iff.2 fun e he => hentry e he hsame
      simp [hsame, habsent]
    · simp [hsame]

/-- The order of the entries does not matter. -/
theorem get?_perm (h : HoldsOnce key entries) (hperm : entries.Perm target) :
    get? key entries = get? key target := by
  refine Option.ext fun v => ?_
  rw [get?_eq_some_iff h, get?_eq_some_iff (h.perm hperm)]
  simp only [hperm.mem_iff]

/-! ## Changing the value of a key -/

theorem mem_alter {change : Option Value → Value} {e : Value × Value}
    (h : e ∈ alter key change entries) : (∃ v, (e.1, v) ∈ entries) ∨ e.1 = key := by
  induction entries with
  | nil =>
    rw [alter, List.mem_singleton] at h
    exact .inr (congrArg Prod.fst h)
  | cons entry rest ih =>
    obtain ⟨k, w⟩ := entry
    rw [alter] at h
    split at h
    · rcases List.mem_cons.1 h with rfl | h
      · exact .inl ⟨w, List.mem_cons_self⟩
      · exact .inl ⟨e.2, List.mem_cons_of_mem _ h⟩
    · rcases List.mem_cons.1 h with rfl | h
      · exact .inl ⟨w, List.mem_cons_self⟩
      · rcases ih h with ⟨v, hv⟩ | hkey
        · exact .inl ⟨v, List.mem_cons_of_mem _ hv⟩
        · exact .inr hkey

theorem HoldsOnce.alter {change : Option Value → Value} (h : HoldsOnce sought entries)
    (hkeys : ∀ e ∈ entries, SinglesOut sought e.1 key) :
    HoldsOnce sought (alter key change entries) := by
  induction entries with
  | nil => exact List.pairwise_singleton _ _
  | cons entry rest ih =>
    obtain ⟨k, w⟩ := entry
    obtain ⟨hk, hrest⟩ := List.pairwise_cons.1 h
    obtain ⟨hkkey, hkeys⟩ := List.forall_mem_cons.1 hkeys
    rw [Mapping.alter]
    split
    · exact List.pairwise_cons.2 ⟨hk, hrest⟩
    · next hother =>
      refine List.pairwise_cons.2 ⟨fun e he hsame => ?_, ih hrest hkeys⟩
      rcases mem_alter he with ⟨v, hv⟩ | heq
      · exact hk (e.1, v) hv hsame
      · rw [heq]
        by_contra hnew
        exact hother (hkkey.joins hsame (by simpa using hnew))

theorem get?_alter {change : Option Value → Value}
    (hkeys : ∀ e ∈ entries, SinglesOut sought e.1 key) :
    get? sought (alter key change entries) =
      if key.same sought then some (change (get? sought entries)) else get? sought entries := by
  induction entries with
  | nil => rfl
  | cons entry rest ih =>
    obtain ⟨k, w⟩ := entry
    obtain ⟨hkkey, hkeys⟩ := List.forall_mem_cons.1 hkeys
    rw [alter]
    by_cases hk : k.same key = true
    · rw [if_pos hk, get?_cons, get?_cons, hkkey.congr hk]
      by_cases hkey : key.same sought = true
      · simp [hkey]
      · simp [hkey]
    · rw [if_neg hk, get?_cons, get?_cons, ih hkeys]
      by_cases hks : k.same sought = true
      · have hkey : ¬ key.same sought = true := fun hkey => hk (hkkey.joins hks hkey)
        simp [hks, hkey]
      · simp [hks]

theorem alter_eq_self {change : Option Value → Value} (h : get? key entries = some v)
    (hchange : change (some v) = v) : alter key change entries = entries := by
  induction entries with
  | nil => exact nomatch h
  | cons entry rest ih =>
    rw [get?_cons] at h
    rw [alter]
    by_cases hkey : entry.1.same key = true
    · rw [if_pos hkey] at h
      obtain rfl := Option.some.inj h
      rw [if_pos hkey, hchange]
    · rw [if_neg hkey] at h
      rw [if_neg hkey, ih h]

theorem alter_alter {change further : Option Value → Value} (hkey : key.same key = true) :
    alter key further (alter key change entries) =
      alter key (fun found => further (some (change found))) entries := by
  induction entries with
  | nil => simp only [alter, hkey, if_true]
  | cons entry rest ih =>
    obtain ⟨k, w⟩ := entry
    rw [alter]
    by_cases hk : k.same key = true
    · rw [if_pos hk, alter, if_pos hk, alter, if_pos hk]
    · rw [if_neg hk, alter, if_neg hk, ih, alter, if_neg hk]

/-! ## Removing a key -/

/-- Removing the entry at a position takes away this entry and reorders the others. -/
theorem perm_cons_removeAt {i : Nat} (hi : i < entries.length) :
    entries.Perm (entries[i] :: removeAt i entries) := by
  induction entries using List.reverseRecOn with
  | nil => exact absurd hi (Nat.not_lt_zero i)
  | append_singleton init last _ =>
    have hremove : removeAt i (init ++ [last]) = ((init ++ [last]).set i last).dropLast := by
      simp [removeAt]
    rw [hremove]
    refine (List.perm_append_singleton last init).trans ?_
    by_cases h : i < init.length
    · rw [List.set_append_left i last h, List.dropLast_concat, List.getElem_append_left h]
      refine ((List.getElem_cons_eraseIdx_perm h).symm.cons last).trans ?_
      refine (List.Perm.swap _ _ _).trans ?_
      exact (List.set_perm_cons_eraseIdx h last).symm.cons _
    · obtain rfl : i = init.length := by
        simp only [List.length_append, List.length_singleton] at hi
        omega
      simp

/-- A removal takes away one entry with the key, if there is one. -/
theorem remove_spec (key : Value) (entries : List (Value × Value)) :
    (∃ e, e.1.same key = true ∧ entries.Perm (e :: remove key entries)) ∨
      ((∀ e ∈ entries, e.1.same key = false) ∧ remove key entries = entries) := by
  unfold remove
  cases hposition : position? key entries with
  | none => exact .inr ⟨List.findIdx?_eq_none_iff.1 hposition, rfl⟩
  | some i =>
    obtain ⟨hi, hsame, -⟩ := List.findIdx?_eq_some_iff_getElem.1 hposition
    exact .inl ⟨entries[i], hsame, perm_cons_removeAt hi⟩

theorem mem_of_mem_remove {e : Value × Value} (h : e ∈ remove key entries) : e ∈ entries := by
  rcases remove_spec key entries with ⟨e', -, hperm⟩ | ⟨-, heq⟩
  · exact hperm.mem_iff.2 (List.mem_cons_of_mem _ h)
  · rwa [heq] at h

theorem HoldsOnce.remove (h : HoldsOnce sought entries) : HoldsOnce sought (remove key entries) := by
  rcases remove_spec key entries with ⟨e, -, hperm⟩ | ⟨-, heq⟩
  · exact (List.pairwise_cons.1 (h.perm hperm)).2
  · rwa [heq]

theorem get?_remove (h : HoldsOnce sought entries)
    (hkeys : ∀ e ∈ entries, SinglesOut sought e.1 key) :
    get? sought (remove key entries) =
      if key.same sought then none else get? sought entries := by
  rcases remove_spec key entries with ⟨e, hsame, hperm⟩ | ⟨habsent, heq⟩
  · have hmem : e ∈ entries := hperm.mem_iff.2 List.mem_cons_self
    obtain ⟨he, -⟩ := List.pairwise_cons.1 (h.perm hperm)
    rw [get?_perm h hperm, get?_cons, (hkeys e hmem).congr hsame]
    by_cases hkey : key.same sought = true
    · rw [if_pos hkey]
      exact get?_eq_none_iff.2 fun b hb => he b hb (((hkeys e hmem).congr hsame).trans hkey)
    · rw [if_neg hkey, if_neg hkey]
  · rw [heq]
    by_cases hkey : key.same sought = true
    · rw [if_pos hkey]
      refine get?_eq_none_iff.2 fun e he => ?_
      by_contra hsought
      have hsame := (hkeys e he).joins (by simpa using hsought) hkey
      rw [habsent e he] at hsame
      exact nomatch hsame
    · rw [if_neg hkey]

/-! ## Mappings that have no text twice -/

/-- No text is the key of two entries. -/
def DistinctTexts (entries : List (Value × Value)) : Prop :=
  entries.Pairwise fun a b => ∀ s, a.1 = .string s → b.1 ≠ .string s

theorem distinctTexts_iff : DistinctTexts entries ↔ ∀ s, HoldsOnce (.string s) entries := by
  simp only [DistinctTexts, HoldsOnce, ← Bool.not_eq_true, same_string_iff]
  constructor
  · intro h s
    exact h.imp fun hab => hab s
  · intro h
    refine List.pairwise_iff_forall_sublist.2 fun hsub s => ?_
    exact List.pairwise_iff_forall_sublist.1 (h s) hsub

theorem DistinctTexts.holdsOnce (h : DistinctTexts entries) (s : String) :
    HoldsOnce (.string s) entries :=
  distinctTexts_iff.1 h s

theorem getText?_cons (entry : Value × Value) :
    getText? s (entry :: entries) =
      if entry.1.same (.string s) then some entry.2 else getText? s entries :=
  rfl

theorem getText?_eq_none_iff : getText? s entries = none ↔ ∀ e ∈ entries, e.1 ≠ .string s := by
  simp only [getText?, get?_eq_none_iff, ← Bool.not_eq_true, same_string_iff, ne_eq]

theorem getText?_eq_some_iff (h : DistinctTexts entries) :
    getText? s entries = some v ↔ (.string s, v) ∈ entries := by
  rw [getText?, get?_eq_some_iff (h.holdsOnce s)]
  constructor
  · rintro ⟨⟨k, w⟩, hmem, hkey, rfl⟩
    rwa [← same_string_iff.1 hkey]
  · intro hmem
    exact ⟨_, hmem, same_string_iff.2 rfl, rfl⟩

end Mapping

end ClusterTuning.Yaml
