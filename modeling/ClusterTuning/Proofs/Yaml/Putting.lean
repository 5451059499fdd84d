import ClusterTuning.Proofs.Yaml.Mapping

/-!
# One more value in a document

A value is put at the end of a path of texts, each of them a key in the mapping
under the one before.  The tags on the way and the order of all entries are kept, so
that the documents before and after differ in nothing but that value and the
mappings that had to be made for it.

* `Value.Puts` — the two documents, side by side;
* `Value.Puts.reach?_stepsTo` — the value is found;
* `Value.Puts.reach?_of_apart` — everything else is found as before.
-/

namespace ClusterTuning

open Yaml

/-! ## Mappings under tags -/

namespace Yaml.Value

variable {v w : Value} {entries : List (Value × Value)} {key : String}

theorem untagged_withUntagged (v w : Value) : (v.withUntagged w).untagged = w.untagged := by
  induction v using untagged.induct with
  | case1 tag v ih => exact ih
  | case2 v hv =>
    cases v with
    | tagged tag v => exact absurd rfl (hv tag v)
    | _ => rfl

theorem withUntagged_self (h : v.asMapping? = some entries) :
    v.withUntagged (.mapping entries) = v := by
  induction v using untagged.induct with
  | case1 tag v ih => exact congrArg (tagged tag) (ih h)
  | case2 v hv =>
    cases v with
    | tagged tag v => exact absurd rfl (hv tag v)
    | mapping entries' =>
      obtain rfl := Option.some.inj h
      rfl
    | _ => cases h

theorem asMapping?_withUntagged (v : Value) (entries : List (Value × Value)) :
    (v.withUntagged (.mapping entries)).asMapping? = some entries := by
  rw [asMapping?, untagged_withUntagged]
  rfl

theorem isNull_withUntagged (v : Value) (entries : List (Value × Value)) :
    (v.withUntagged (.mapping entries)).isNull = false := by
  rw [isNull, untagged_withUntagged]
  rfl

theorem get?_of_asMapping? (h : v.asMapping? = some entries) :
    v.get? key = Mapping.getText? key entries := by
  rw [get?, h]
  rfl

theorem get?_of_asMapping?_eq_none (h : v.asMapping? = none) : v.get? key = none := by
  rw [get?, h]
  rfl

theorem asMapping?_eq_none_of_isNull (h : v.isNull = true) : v.asMapping? = none := by
  cases hv : v.asMapping? with
  | none => rfl
  | some entries => rw [isNull_eq_false (by rw [hv]; rfl)] at h; exact nomatch h

end Yaml.Value

/-! ## Texts of a mapping -/

namespace Yaml.Mapping

variable {v w child : Value} {before after entries : List (Value × Value)} {key : String}

theorem getText?_alter (key : String) (change : Option Value → Value)
    (entries : List (Value × Value)) :
    getText? key (alter (.string key) change entries) = some (change (getText? key entries)) := by
  rw [getText?, get?_alter fun _ _ => Value.singlesOut_string _ _ _,
    if_pos (Value.same_string_iff.2 rfl)]
  rfl

theorem getText?_insert (key : String) (v : Value) (entries : List (Value × Value)) :
    getText? key (insert (.string key) v entries) = some v :=
  getText?_alter key _ entries

theorem insert_alter (key : String) (change : Option Value → Value) (v : Value)
    (entries : List (Value × Value)) :
    insert (.string key) v (alter (.string key) change entries) =
      insert (.string key) v entries :=
  alter_alter (Value.same_string_iff.2 rfl)

theorem insert_self (h : getText? key entries = some v) :
    insert (.string key) v entries = entries :=
  alter_eq_self h rfl

theorem get?_append (k : Value) (before after : List (Value × Value)) :
    get? k (before ++ after) = (get? k before).or (get? k after) := by
  induction before with
  | nil => rfl
  | cons entry rest ih =>
    rw [List.cons_append, get?_cons, get?_cons, ih]
    split <;> rfl

/-- The first entry with a text is the one that is found. -/
theorem getText?_at (first : ∀ e ∈ before, e.1 ≠ .string key) :
    getText? key (before ++ (.string key, v) :: after) = some v := by
  have hbefore : getText? key before = none := getText?_eq_none_iff.2 first
  rw [getText?, get?_append, ← getText?, hbefore, Option.none_or, get?_cons,
    if_pos (Value.same_string_iff.2 rfl)]

/-- An entry with a text is not found under another key. -/
theorem get?_at_of_ne {k : Value} (hk : k ≠ .string key) :
    get? k (before ++ (.string key, v) :: after) = (get? k before).or (get? k after) := by
  rw [get?_append, get?_cons, if_neg fun h => hk (Value.string_same_iff.1 h)]

/-- A text is stored in the place of the entry that has it, or behind all entries. -/
theorem insert_cases (key : String) (child : Value) (entries : List (Value × Value)) :
    (∃ before old after, entries = before ++ (.string key, old) :: after ∧
      (∀ e ∈ before, e.1 ≠ .string key) ∧ getText? key entries = some old ∧
      insert (.string key) child entries = before ++ (.string key, child) :: after) ∨
    (∀ e ∈ entries, e.1 ≠ .string key) ∧ getText? key entries = none ∧
      insert (.string key) child entries = entries ++ [(.string key, child)] := by
  induction entries with
  | nil => exact .inr ⟨List.forall_mem_nil _, rfl, rfl⟩
  | cons entry rest ih =>
    obtain ⟨k, v⟩ := entry
    have hrest : insert (.string key) child ((k, v) :: rest) =
        if k.same (.string key) then (k, child) :: rest
        else (k, v) :: insert (.string key) child rest := rfl
    rw [getText?_cons, hrest]
    by_cases hk : k.same (.string key) = true
    · obtain rfl := Value.same_string_iff.1 hk
      rw [if_pos hk, if_pos hk]
      exact .inl ⟨[], v, rest, rfl, List.forall_mem_nil _, rfl, rfl⟩
    · have hne : k ≠ .string key := fun h => hk (Value.same_string_iff.2 h)
      rw [if_neg hk, if_neg hk]
      rcases ih with ⟨before, old, after, rfl, first, hold, hinsert⟩ | ⟨absent, hnone, hinsert⟩
      · exact .inl ⟨(k, v) :: before, old, after, rfl, List.forall_mem_cons.2 ⟨hne, first⟩, hold,
          by rw [hinsert]; rfl⟩
      · exact .inr ⟨List.forall_mem_cons.2 ⟨hne, absent⟩, hnone, by rw [hinsert]; rfl⟩

end Yaml.Mapping

/-! ## One more value -/

namespace Yaml.Value

/-- A step into a document: to the value under a key, or to an item of a list. -/
inductive Step where
  | key (key : Value)
  | item (position : Nat)

/-- The value behind a step, through tags. -/
def Step.take? : Step → Value → Option Value
  | key k, v => v.asMapping?.bind (Mapping.get? k)
  | item position, v =>
    match v.untagged with
    | sequence items => items[position]?
    | _ => none

/-- The value behind some steps. -/
def reach? : List Step → Value → Option Value
  | [], v => some v
  | s :: rest, v => (s.take? v).bind (reach? rest)

/-- The steps to the value under some texts, one in the other. -/
def stepsTo (keys : List String) : List Step :=
  keys.map fun key => .key (.string key)

/-- A value is put at the end of a path of texts: what is there already is replaced in its place; a
text that is not there comes behind the others; absent or null, a mapping is made that has nothing
else in it.  Nothing else changes, tags and the order of entries included. -/
inductive Puts (new : Value) : List String → Option Value → Value → Prop
  | here {old : Option Value} : Puts new [] old new
  | made {old : Option Value} {key : String} {rest : List String} {child : Value}
    (nothing : ∀ v ∈ old, v.isNull = true) (inside : Puts new rest none child) :
    Puts new (key :: rest) old (.mapping [(.string key, child)])
  | replaced {v old child : Value} {before after : List (Value × Value)} {key : String}
    {rest : List String} (holds : v.asMapping? = some (before ++ (.string key, old) :: after))
    (first : ∀ e ∈ before, e.1 ≠ .string key) (inside : Puts new rest (some old) child) :
    Puts new (key :: rest) (some v)
      (v.withUntagged (.mapping (before ++ (.string key, child) :: after)))
  | added {v child : Value} {entries : List (Value × Value)} {key : String} {rest : List String}
    (holds : v.asMapping? = some entries) (absent : ∀ e ∈ entries, e.1 ≠ .string key)
    (inside : Puts new rest none child) :
    Puts new (key :: rest) (some v) (v.withUntagged (.mapping (entries ++ [(.string key, child)])))

variable {v w new old child : Value} {before after entries : List (Value × Value)} {key : String}
  {keys rest : List String} {steps : List Step} {s : Step}

theorem take?_of_asMapping? (h : v.asMapping? = some entries) {k : Value} :
    (Step.key k).take? v = Mapping.get? k entries := by
  rw [Step.take?, h]
  rfl

/-- A mapping has no items. -/
theorem take?_item_of_asMapping? (h : v.asMapping? = some entries) {position : Nat} :
    (Step.item position).take? v = none := by
  unfold asMapping? at h
  unfold Step.take?
  split at h
  · next hv => simp only [hv]
  · exact nomatch h

/-- Nothing is behind null. -/
theorem take?_of_isNull (h : v.isNull = true) : s.take? v = none := by
  cases s with
  | key k =>
    rw [Step.take?, asMapping?_eq_none_of_isNull h]
    rfl
  | item position =>
    unfold isNull at h
    unfold Step.take?
    split at h
    · next hv => simp only [hv]
    · exact nomatch h

end Yaml.Value

namespace Yaml.Value.Puts

open Mapping

variable {v w new child : Value} {old : Option Value} {entries : List (Value × Value)}
  {key : String} {keys rest : List String} {steps : List Step}

/-- Behind the first text of the path, the value is put at the end of the rest; behind any other
step is what was there. -/
theorem step (h : Puts new (key :: rest) old w) :
    (∃ child, (Step.key (.string key)).take? w = some child ∧
      Puts new rest (old.bind (Step.key (.string key)).take?) child) ∧
    ∀ s : Step, s ≠ .key (.string key) → s.take? w = old.bind s.take? := by
  cases h with
  | @made _ _ _ child nothing inside =>
    have hold (s : Step) : old.bind s.take? = none := by
      cases old with
      | none => rfl
      | some v => exact take?_of_isNull (nothing v rfl)
    have hchild : getText? key [(.string key, child)] = some child :=
      getText?_at (List.forall_mem_nil _)
    refine ⟨⟨child, hchild, ?_⟩, fun s hs => ?_⟩
    · rwa [hold]
    · rw [hold]
      cases s with
      | key k =>
        have hk : k ≠ .string key := fun h => hs (congrArg Step.key h)
        have hother : Mapping.get? k [(.string key, child)] = none :=
          if_neg fun h => hk (Value.string_same_iff.1 h)
        exact (take?_of_asMapping? rfl).trans hother
      | item position => rfl
  | @replaced v old child before after _ _ holds first inside =>
    have hmade := asMapping?_withUntagged v (before ++ (.string key, child) :: after)
    refine ⟨⟨child, (take?_of_asMapping? hmade).trans (getText?_at first), ?_⟩, fun s hs => ?_⟩
    · rwa [Option.bind_some, take?_of_asMapping? holds, ← getText?, getText?_at first]
    · cases s with
      | key k =>
        have hk : k ≠ .string key := fun h => hs (congrArg Step.key h)
        rw [Option.bind_some, take?_of_asMapping? holds, take?_of_asMapping? hmade,
          get?_at_of_ne hk, get?_at_of_ne hk]
      | item position =>
        rw [Option.bind_some, take?_item_of_asMapping? holds, take?_item_of_asMapping? hmade]
  | @added v child entries _ _ holds absent inside =>
    have hmade := asMapping?_withUntagged v (entries ++ [(.string key, child)])
    refine ⟨⟨child, (take?_of_asMapping? hmade).trans (getText?_at absent), ?_⟩, fun s hs => ?_⟩
    · rwa [Option.bind_some, take?_of_asMapping? holds, ← getText?, getText?_eq_none_iff.2 absent]
    · cases s with
      | key k =>
        have hk : k ≠ .string key := fun h => hs (congrArg Step.key h)
        rw [Option.bind_some, take?_of_asMapping? holds, take?_of_asMapping? hmade,
          get?_at_of_ne hk]
        exact Option.or_none
      | item position =>
        rw [Option.bind_some, take?_item_of_asMapping? holds, take?_item_of_asMapping? hmade]

/-- The value is found at the end of the path. -/
theorem reach?_stepsTo (h : Puts new keys old w) : reach? (stepsTo keys) w = some new := by
  induction keys generalizing old w with
  | nil =>
    cases h
    rfl
  | cons key rest ih =>
    obtain ⟨⟨child, hchild, inside⟩, -⟩ := h.step
    exact (congrArg (·.bind (reach? (stepsTo rest))) hchild).trans (ih inside)

/-- **At every other path is what was there**: at those that part from the path to the value. -/
theorem reach?_of_apart (h : Puts new keys old w) (hahead : ¬ stepsTo keys <+: steps)
    (hbehind : ¬ steps <+: stepsTo keys) : reach? steps w = old.bind (reach? steps) := by
  induction keys generalizing old w steps with
  | nil => exact absurd List.nil_prefix hahead
  | cons key rest ih =>
    cases steps with
    | nil => exact absurd List.nil_prefix hbehind
    | cons s steps =>
      obtain ⟨⟨child, hchild, inside⟩, hother⟩ := h.step
      have hsplit : old.bind (reach? (s :: steps)) = (old.bind s.take?).bind (reach? steps) := by
        cases old <;> rfl
      rw [hsplit]
      by_cases hs : s = .key (.string key)
      · subst hs
        have happart := ih inside (fun h => hahead (List.cons_prefix_cons.2 ⟨rfl, h⟩))
          (fun h => hbehind (List.cons_prefix_cons.2 ⟨rfl, h⟩))
        exact (congrArg (·.bind (reach? steps)) hchild).trans happart
      · exact congrArg (·.bind (reach? steps)) (hother s hs)

/-- What is put into a mapping without entries is put where there is nothing. -/
theorem of_empty (h : Puts new keys (some (.mapping [])) w)
    (nothing : ∀ v ∈ old, v.isNull = true) : Puts new keys old w := by
  cases h with
  | here => exact .here
  | made empty inside => exact .made nothing inside
  | replaced holds first inside =>
    exact absurd (Option.some.inj holds).symm (List.append_ne_nil_of_right_ne_nil _ (by simp))
  | added holds absent inside =>
    obtain rfl := Option.some.inj holds
    exact .made nothing inside

/-- A child that was put is stored under its text. -/
theorem insert (h : v.asMapping? = some entries)
    (inside : Puts new rest (getText? key entries) child) :
    Puts new (key :: rest) (some v)
      (v.withUntagged (.mapping (Mapping.insert (.string key) child entries))) := by
  rcases insert_cases key child entries with
    ⟨before, old, after, rfl, first, hold, hinsert⟩ | ⟨absent, hnone, hinsert⟩
  · rw [hold] at inside
    rw [hinsert]
    exact .replaced h first inside
  · rw [hnone] at inside
    rw [hinsert]
    exact .added h absent inside

end Yaml.Value.Puts

end ClusterTuning
