import ClusterTuning.Proofs.Yaml.Keys

/-!
# Sameness is an equivalence

Two mappings are compared by looking up each entry of the first one in the second
one, and counting.  Where no key comes twice this does not depend on which of them
is the first: entries with different keys find different entries, so that none is
left over.  Sameness is then an equivalence, and any key singles out its like.

* `Value.ComparesWell` — what is proved of a value by induction;
* `Value.same_congr`, `Value.same_symm` — the laws of sameness;
* `Value.singlesOut_of_hasDistinctKeys` — the same, as lookups need it.
-/

namespace ClusterTuning

/-- When as many things are related to others as there are others, and no two of them to the same
one, none of the others is left over. -/
theorem exists_mem_of_length_eq {α β : Type} {R : α → β → Prop} {xs : List α} {ys : List β}
    (hlength : xs.length = ys.length)
    (hdistinct : xs.Pairwise fun a b => ∀ y, R a y → ¬ R b y) (h : ∀ x ∈ xs, ∃ y ∈ ys, R x y) :
    ∀ y ∈ ys, ∃ x ∈ xs, R x y := by
  induction xs generalizing ys with
  | nil =>
    rw [List.eq_nil_of_length_eq_zero hlength.symm]
    exact fun y hy => absurd hy List.not_mem_nil
  | cons x xs ih =>
    obtain ⟨hx, hxs⟩ := List.pairwise_cons.1 hdistinct
    obtain ⟨⟨w, hw, hxw⟩, hrelated⟩ := List.forall_mem_cons.1 h
    obtain ⟨before, after, rfl⟩ := List.append_of_mem hw
    have hothers : ∀ x' ∈ xs, ∃ y ∈ before ++ after, R x' y := by
      intro x' hx'
      obtain ⟨y, hy, hxy⟩ := hrelated x' hx'
      refine ⟨y, ?_, hxy⟩
      rcases List.mem_append.1 hy with hy | hy
      · exact List.mem_append_left _ hy
      · rcases List.mem_cons.1 hy with rfl | hy
        · exact absurd hxy (hx x' hx' y hxw)
        · exact List.mem_append_right _ hy
    have hlength' : xs.length = (before ++ after).length := by
      simp only [List.length_append, List.length_cons] at hlength ⊢
      omega
    intro y hy
    by_cases hyw : y = w
    · exact ⟨x, List.mem_cons_self, hyw ▸ hxw⟩
    · have hy' : y ∈ before ++ after := by simpa [hyw] using hy
      obtain ⟨x', hx', hxy⟩ := ih hlength' hxs hothers y hy'
      exact ⟨x', List.mem_cons_of_mem _ hx', hxy⟩

namespace Yaml

/-! ## Scalars -/

theorem Number.same_self (a : Number) : a.same a = true := by
  cases a with
  | integer n => simp [same]
  | float x => cases x <;> simp [same, Binary64.same]

theorem Number.same_congr {a b : Number} (h : a.same b = true) (c : Number) :
    a.same c = b.same c := by
  cases a with
  | integer m =>
    cases b with
    | integer n => simp_all [same]
    | float y => simp [same] at h
  | float x =>
    cases b with
    | integer n => simp [same] at h
    | float y =>
      cases c with
      | integer k => simp [same]
      | float z => cases x <;> cases y <;> cases z <;> simp_all [same, Binary64.same]

namespace Value

variable {a b c : Value}

/-! ## Comparing one value with others -/

/-- A value is the same as itself, and values that it is the same as are the same as the same
values. -/
structure ComparesWell (a : Value) : Prop where
  refl : a.same a = true
  congr : ∀ b, b.hasDistinctKeys = true → a.same b = true →
    ∀ c, c.hasDistinctKeys = true → a.same c = b.same c

/-! ### Sequences -/

theorem sameItems_self {xs : List Value} (h : ∀ x ∈ xs, ComparesWell x) :
    sameItems xs xs = true := by
  induction xs with
  | nil => rfl
  | cons x xs ih =>
    obtain ⟨hx, hxs⟩ := List.forall_mem_cons.1 h
    rw [sameItems, hx.refl, ih hxs]
    rfl

theorem sameItems_congr {xs ys zs : List Value} (h : ∀ x ∈ xs, ComparesWell x)
    (hys : itemsHaveDistinctKeys ys = true) (hsame : sameItems xs ys = true)
    (hzs : itemsHaveDistinctKeys zs = true) : sameItems xs zs = sameItems ys zs := by
  induction xs generalizing ys zs with
  | nil =>
    cases ys with
    | nil => rfl
    | cons y ys => simp [sameItems] at hsame
  | cons x xs ih =>
    cases ys with
    | nil => simp [sameItems] at hsame
    | cons y ys =>
      obtain ⟨hx, hxs⟩ := List.forall_mem_cons.1 h
      simp only [sameItems, itemsHaveDistinctKeys, Bool.and_eq_true] at hys hsame
      cases zs with
      | nil => rfl
      | cons z zs =>
        simp only [itemsHaveDistinctKeys, Bool.and_eq_true] at hzs
        rw [sameItems, sameItems, hx.congr y hys.1 hsame.1 z hzs.1, ih hxs hys.2 hsame.2 hzs.2]

/-! ### Mappings -/

/-- An entry has its like in a mapping, which is the first one with the same key. -/
def FoundIn (e : Value × Value) (entries : List (Value × Value)) : Prop :=
  ∃ w, entries.find? (fun x => e.1.same x.1) = some w ∧ e.2.same w.2 = true

theorem sameEntries_iff {xs ys : List (Value × Value)} :
    sameEntries xs ys = true ↔ ∀ e ∈ xs, FoundIn e ys := by
  induction xs with
  | nil => simp [sameEntries]
  | cons e rest ih =>
    rw [List.forall_mem_cons, ← ih, sameEntries, Bool.and_eq_true, FoundIn]
    refine and_congr_left fun _ => ?_
    cases ys.find? fun x => e.1.same x.1 <;> simp

variable {e e' : Value × Value} {xs ys zs : List (Value × Value)}

/-- In its own mapping an entry finds itself: one before it with the same key would have the key a
second time. -/
theorem foundIn_self (hxs : entriesHaveDistinctKeys xs = true) (he : e ∈ xs)
    (hkey : ComparesWell e.1) (hvalue : ComparesWell e.2) : FoundIn e xs := by
  obtain ⟨hdistinct, hwell⟩ := entriesHaveDistinctKeys_iff.1 hxs
  refine ⟨e, List.find?_eq_some_iff_append.2 ⟨hkey.refl, ?_⟩, hvalue.refl⟩
  obtain ⟨before, after, rfl⟩ := List.append_of_mem he
  refine ⟨before, after, rfl, fun x hx => ?_⟩
  obtain ⟨-, -, hacross⟩ := List.pairwise_append.1 hdistinct
  have hother : x.1.same e.1 = false := hacross x hx e List.mem_cons_self
  by_contra hsame
  have hx' := (hwell x (List.mem_append_left _ hx)).1
  rw [← hkey.congr x.1 hx' (by simpa using hsame) e.1 (hwell e he).1, hkey.refl] at hother
  exact nomatch hother

/-- Entries that are the same find the same. -/
theorem foundIn_congr (hkey : ComparesWell e.1) (hvalue : ComparesWell e.2)
    (he' : e'.1.hasDistinctKeys = true ∧ e'.2.hasDistinctKeys = true)
    (hsame : e.1.same e'.1 = true ∧ e.2.same e'.2 = true)
    (hzs : ∀ z ∈ zs, z.1.hasDistinctKeys = true ∧ z.2.hasDistinctKeys = true) :
    FoundIn e zs ↔ FoundIn e' zs := by
  have hfind : zs.find? (fun x => e.1.same x.1) = zs.find? (fun x => e'.1.same x.1) := by
    rw [← List.head?_filter, ← List.head?_filter]
    exact congrArg List.head?
      (List.filter_congr fun x hx => hkey.congr e'.1 he'.1 hsame.1 x.1 (hzs x hx).1)
  unfold FoundIn
  rw [hfind]
  refine exists_congr fun w => and_congr_right fun hw => ?_
  rw [hvalue.congr e'.2 he'.2 hsame.2 w.2 (hzs w (List.mem_of_find?_eq_some hw)).2]

theorem exists_mem_of_foundIn (h : FoundIn e ys) :
    ∃ w ∈ ys, e.1.same w.1 = true ∧ e.2.same w.2 = true := by
  obtain ⟨w, hw, hvalue⟩ := h
  exact ⟨w, List.mem_of_find?_eq_some hw, by simpa using List.find?_some hw, hvalue⟩

/-- If all entries of a mapping are found in another one of the same length, none of the other one
is left over. -/
theorem exists_same_of_foundIn (hxs : entriesHaveDistinctKeys xs = true)
    (hys : entriesHaveDistinctKeys ys = true) (hkeys : ∀ e ∈ xs, ComparesWell e.1)
    (hlength : xs.length = ys.length) (h : ∀ e ∈ xs, FoundIn e ys) :
    ∀ w ∈ ys, ∃ e ∈ xs, w ∈ ys ∧ e.1.same w.1 = true ∧ e.2.same w.2 = true := by
  obtain ⟨hdistinct, hxwell⟩ := entriesHaveDistinctKeys_iff.1 hxs
  obtain ⟨-, hywell⟩ := entriesHaveDistinctKeys_iff.1 hys
  refine exists_mem_of_length_eq hlength ?_ fun e he => ?_
  · refine hdistinct.imp_of_mem fun {a b} ha hb hab w hw hw' => ?_
    -- two keys that are the same as a third one are the same as each other
    have hleft := (hkeys a ha).congr w.1 (hywell w hw.1).1 hw.2.1 b.1 (hxwell b hb).1
    have hright := (hkeys b hb).congr w.1 (hywell w hw.1).1 hw'.2.1 b.1 (hxwell b hb).1
    rw [hleft, ← hright, (hkeys b hb).refl] at hab
    exact nomatch hab
  · obtain ⟨w, hw, hsame⟩ := exists_mem_of_foundIn (h e he)
    exact ⟨w, hw, hw, hsame⟩

theorem sameEntries_congr (hwell : ∀ e ∈ xs, ComparesWell e.1 ∧ ComparesWell e.2)
    (hxs : entriesHaveDistinctKeys xs = true) (hys : entriesHaveDistinctKeys ys = true)
    (hlength : xs.length = ys.length) (hsame : sameEntries xs ys = true)
    (hzs : entriesHaveDistinctKeys zs = true) : sameEntries xs zs = sameEntries ys zs := by
  obtain ⟨-, hywell⟩ := entriesHaveDistinctKeys_iff.1 hys
  obtain ⟨-, hzwell⟩ := entriesHaveDistinctKeys_iff.1 hzs
  rw [sameEntries_iff] at hsame
  rw [Bool.eq_iff_iff, sameEntries_iff, sameEntries_iff]
  constructor
  · intro h w hw
    obtain ⟨e, he, -, heq⟩ :=
      exists_same_of_foundIn hxs hys (fun e he => (hwell e he).1) hlength hsame w hw
    exact (foundIn_congr (hwell e he).1 (hwell e he).2 (hywell w hw) heq hzwell).1 (h e he)
  · intro h e he
    obtain ⟨w, hw, heq⟩ := exists_mem_of_foundIn (hsame e he)
    exact (foundIn_congr (hwell e he).1 (hwell e he).2 (hywell w hw) heq hzwell).2 (h w hw)

/-! ### All values -/

/-- A value that has no key twice compares well. -/
theorem comparesWell (ha : a.hasDistinctKeys = true) : ComparesWell a := by
  induction a with
  | null => exact ⟨rfl, fun b _ h c _ => by cases b <;> simp_all [same]⟩
  | bool x => exact ⟨by simp [same], fun b _ h c _ => by cases b <;> simp_all [same]⟩
  | string s => exact ⟨by simp [same], fun b _ h c _ => by cases b <;> simp_all [same]⟩
  | number n =>
    refine ⟨by simp [same, Number.same_self], fun b _ h c _ => ?_⟩
    cases b with
    | number m => cases c <;> simp [same, Number.same_congr (show n.same m = true from h)]
    | _ => simp [same] at h
  | tagged t v ih =>
    have hwell : ComparesWell v := ih ha
    refine ⟨by simp [same, hwell.refl], fun b hb h c hc => ?_⟩
    cases b with
    | tagged t' w =>
      simp only [same, Bool.and_eq_true, beq_iff_eq] at h
      cases c with
      | tagged t'' u => simp only [same, h.1, hwell.congr w hb h.2 u hc]
      | _ => rfl
    | _ => simp [same] at h
  | sequence xs ih =>
    have hwell : ∀ x ∈ xs, ComparesWell x := fun x hx => ih x hx (itemsHaveDistinctKeys_iff.1 ha x hx)
    refine ⟨sameItems_self hwell, fun b hb h c hc => ?_⟩
    cases b with
    | sequence ys =>
      cases c with
      | sequence zs => exact sameItems_congr hwell hb h hc
      | _ => rfl
    | _ => simp [same] at h
  | mapping xs ih =>
    have hwell : ∀ e ∈ xs, ComparesWell e.1 ∧ ComparesWell e.2 := by
      intro e he
      obtain ⟨hkey, hvalue⟩ := (entriesHaveDistinctKeys_iff.1 ha).2 e he
      exact ⟨(ih e he).1 hkey, (ih e he).2 hvalue⟩
    refine ⟨?_, fun b hb h c hc => ?_⟩
    · rw [same, beq_self_eq_true, Bool.true_and, sameEntries_iff]
      exact fun e he => foundIn_self ha he (hwell e he).1 (hwell e he).2
    · cases b with
      | mapping ys =>
        simp only [same, Bool.and_eq_true, beq_iff_eq] at h
        cases c with
        | mapping zs => rw [same, same, h.1, sameEntries_congr hwell ha hb h.1 h.2 hc]
        | _ => rfl
      | _ => simp [same] at h

/-! ## Laws of sameness -/

theorem same_self (ha : a.hasDistinctKeys = true) : a.same a = true :=
  (comparesWell ha).refl

theorem same_congr (ha : a.hasDistinctKeys = true) (hb : b.hasDistinctKeys = true)
    (hc : c.hasDistinctKeys = true) (h : a.same b = true) : a.same c = b.same c :=
  (comparesWell ha).congr b hb h c hc

theorem same_symm (ha : a.hasDistinctKeys = true) (hb : b.hasDistinctKeys = true)
    (h : a.same b = true) : b.same a = true := by
  rw [← same_congr ha hb ha h]
  exact same_self ha

/-- Every key singles out its like. -/
theorem singlesOut_of_hasDistinctKeys {key : Value} (hkey : key.hasDistinctKeys = true)
    (ha : a.hasDistinctKeys = true) (hb : b.hasDistinctKeys = true) : SinglesOut key a b where
  congr h := same_congr ha hb hkey h
  joins hakey hbkey := by
    rw [same_congr ha hkey hb hakey]
    exact same_symm hb hkey hbkey

/-- No key comes twice when none has its like twice. -/
theorem entriesHaveDistinctKeys_iff_holdsOnce {entries : List (Value × Value)} :
    entriesHaveDistinctKeys entries = true ↔
      (∀ e ∈ entries, e.1.hasDistinctKeys = true ∧ e.2.hasDistinctKeys = true) ∧
        ∀ key, key.hasDistinctKeys = true → Mapping.HoldsOnce key entries := by
  rw [entriesHaveDistinctKeys_iff, and_comm]
  refine and_congr_right fun hwell => ?_
  constructor
  · intro hdistinct key hkey
    refine hdistinct.imp_of_mem fun {a b} ha hb hab hakey => ?_
    by_contra hbkey
    have hjoins := (singlesOut_of_hasDistinctKeys hkey (hwell a ha).1 (hwell b hb).1).joins
    rw [hjoins hakey (by simpa using hbkey)] at hab
    exact nomatch hab
  · intro honce
    refine List.pairwise_iff_forall_sublist.2 fun {a b} hsub => ?_
    have hb : b.1.hasDistinctKeys = true := (hwell b (hsub.subset (by simp))).1
    have hab := List.pairwise_iff_forall_sublist.1 (honce b.1 hb) hsub
    rw [same_self hb] at hab
    simpa using hab

end Value

end Yaml

end ClusterTuning
