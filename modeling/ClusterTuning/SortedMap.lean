/-!
# Association lists in key order

Lists of pairs whose keys increase strictly.  They stand for finite maps where
the order of the keys shows in the output.  Main statement: storing a value keeps
the keys in order, so a list of pairs always gives such a map, in which the last
value of a key is found.
-/

namespace ClusterTuning

namespace SortedMap

variable {α β : Type} (order : α → α → Ordering)

/-- The keys increase strictly. -/
def Sorted (entries : List (α × β)) : Prop :=
  entries.Pairwise fun a b => order a.1 b.1 = .lt

/-- The value stored under a key. -/
def get? (key : α) : List (α × β) → Option β
  | [] => none
  | (k, v) :: rest => if order key k = .eq then some v else get? key rest

/-- Replaces the value under a key, which may be absent, by a function of it. -/
def alter (key : α) (change : Option β → β) : List (α × β) → List (α × β)
  | [] => [(key, change none)]
  | (k, v) :: rest =>
    match order key k with
    | .lt => (key, change none) :: (k, v) :: rest
    | .eq => (k, change (some v)) :: rest
    | .gt => (k, v) :: alter key change rest

/-- Stores a value under a key. -/
def insert (key : α) (value : β) (entries : List (α × β)) : List (α × β) :=
  alter order key (fun _ => value) entries

/-- The map of a list of pairs; of two values for a key the later one counts. -/
def ofList (pairs : List (α × β)) : List (α × β) :=
  pairs.foldl (fun entries pair => insert order pair.1 pair.2 entries) []

/-! ## The keys stay in order -/

variable {order}

theorem key_of_mem_alter {key : α} {change : Option β → β} {entries : List (α × β)}
    {entry : α × β} (h : entry ∈ alter order key change entries) :
    entry.1 = key ∨ ∃ e ∈ entries, e.1 = entry.1 := by
  induction entries with
  | nil => simp_all [alter]
  | cons head rest ih =>
    rw [alter] at h
    split at h
    · rcases List.mem_cons.1 h with rfl | h
      · exact .inl rfl
      · exact .inr ⟨entry, h, rfl⟩
    · rcases List.mem_cons.1 h with rfl | h
      · exact .inr ⟨head, List.mem_cons_self, rfl⟩
      · exact .inr ⟨entry, List.mem_cons_of_mem _ h, rfl⟩
    · rcases List.mem_cons.1 h with rfl | h
      · exact .inr ⟨head, List.mem_cons_self, rfl⟩
      · rcases ih h with h | ⟨e, he, hk⟩
        · exact .inl h
        · exact .inr ⟨e, List.mem_cons_of_mem _ he, hk⟩

theorem sorted_alter [Std.TransCmp order] {key : α} {change : Option β → β}
    {entries : List (α × β)} (h : Sorted order entries) :
    Sorted order (alter order key change entries) := by
  induction entries with
  | nil => simp [alter, Sorted]
  | cons head rest ih =>
    have hr := List.pairwise_cons.1 h
    rw [alter]
    split
    · next hk =>
      refine List.pairwise_cons.2 ⟨fun b hb => ?_, h⟩
      rcases List.mem_cons.1 hb with rfl | hb
      · exact hk
      · exact Std.TransCmp.lt_trans hk (hr.1 b hb)
    · exact List.pairwise_cons.2 ⟨hr.1, hr.2⟩
    · next hk =>
      refine List.pairwise_cons.2 ⟨fun b hb => ?_, ih hr.2⟩
      rcases key_of_mem_alter hb with hb | ⟨e, he, hb⟩
      · rw [hb]
        exact Std.OrientedCmp.lt_of_gt hk
      · rw [← hb]
        exact hr.1 e he

theorem sorted_ofList [Std.TransCmp order] (pairs : List (α × β)) :
    Sorted order (ofList order pairs) := by
  suffices ∀ entries, Sorted order entries →
      Sorted order (pairs.foldl (fun entries pair => insert order pair.1 pair.2 entries) entries)
    from this [] List.Pairwise.nil
  induction pairs with
  | nil => exact fun _ h => h
  | cons pair rest ih => exact fun entries h => ih _ (sorted_alter h)

/-! ## Looking up -/

/-- Storing a value changes what is found under its key, and nothing else. -/
theorem get?_insert [Std.LawfulEqCmp order] [DecidableEq α] (key k : α)
    (value : β) (entries : List (α × β)) :
    get? order k (insert order key value entries) =
      if k = key then some value else get? order k entries := by
  have eq_iff : ∀ {a b : α}, order a b = .eq ↔ a = b :=
    fun {_ _} => Std.LawfulEqCmp.compare_eq_iff_eq
  induction entries with
  | nil => simp only [insert, alter, get?, eq_iff]
  | cons head rest ih =>
    obtain ⟨k', v'⟩ := head
    rw [insert, alter]
    split
    · simp only [get?, eq_iff]
    · next h =>
      obtain rfl := eq_iff.1 h
      by_cases hk : k = key
      · simp only [get?, eq_iff, if_pos hk]
      · simp only [get?, eq_iff, if_neg hk]
    · next h =>
      have hne : key ≠ k' := fun he => by rw [eq_iff.2 he] at h; exact Ordering.noConfusion h
      rw [get?, get?, ← insert, ih]
      simp only [eq_iff]
      by_cases hk : k = key
      · rw [if_pos hk, if_neg (fun he => hne (hk.symm.trans he)), if_pos hk]
      · rw [if_neg hk, if_neg hk]

/-- Of several values stored one after the other under a key, the last one is found. -/
theorem get?_foldl_insert [Std.LawfulEqCmp order] [DecidableEq α] (k : α) (pairs : List (α × β))
    (entries : List (α × β)) :
    get? order k (pairs.foldl (fun entries pair => insert order pair.1 pair.2 entries) entries) =
      (get? order k (ofList order pairs)).or (get? order k entries) := by
  induction pairs generalizing entries with
  | nil => rfl
  | cons pair rest ih =>
    rw [List.foldl_cons, ofList, List.foldl_cons, ih, ih (insert order pair.1 pair.2 []),
      get?_insert, get?_insert]
    by_cases hk : k = pair.1
    · rw [if_pos hk, if_pos hk, Option.or_assoc, Option.some_or]
    · rw [if_neg hk, if_neg hk, get?, Option.or_none]

theorem mem_of_get? [Std.LawfulEqCmp order] {key : α} {value : β} {entries : List (α × β)}
    (h : get? order key entries = some value) : (key, value) ∈ entries := by
  induction entries with
  | nil => exact absurd h (by simp [get?])
  | cons head rest ih =>
    rw [get?] at h
    split at h
    · next hk =>
      rw [Std.LawfulEqCmp.eq_of_compare hk, ← Option.some.inj h]
      exact List.mem_cons_self
    · exact List.mem_cons_of_mem _ (ih h)

/-- Keys that increase strictly are all different, so each entry can be found. -/
theorem get?_of_mem [Std.OrientedCmp order] {key : α} {value : β} {entries : List (α × β)}
    (hs : Sorted order entries) (h : (key, value) ∈ entries) :
    get? order key entries = some value := by
  induction entries with
  | nil => exact absurd h List.not_mem_nil
  | cons head rest ih =>
    obtain ⟨hhead, hrest⟩ := List.pairwise_cons.1 hs
    rcases List.mem_cons.1 h with rfl | h
    · rw [get?, if_pos Std.ReflCmp.compare_self]
    · have hgt : order key head.1 = .gt := Std.OrientedCmp.gt_of_lt (hhead _ h)
      rw [get?, if_neg (by rw [hgt]; exact Ordering.noConfusion), ih hrest h]

/-- A key that comes before all others is not found. -/
theorem get?_of_forall_lt {key : α} {entries : List (α × β)}
    (h : ∀ e ∈ entries, order key e.1 = .lt) : get? order key entries = none := by
  induction entries with
  | nil => rfl
  | cons head rest ih =>
    have hhead := h head List.mem_cons_self
    rw [get?, if_neg (by rw [hhead]; exact Ordering.noConfusion),
      ih fun e he => h e (List.mem_cons_of_mem _ he)]

/-- There are several entries exactly if something is found under two different keys. -/
theorem one_lt_length_iff [Std.OrientedCmp order] [Std.LawfulEqCmp order] {entries : List (α × β)}
    (hs : Sorted order entries) :
    1 < entries.length ↔
      ∃ j k, j ≠ k ∧ (get? order j entries).isSome ∧ (get? order k entries).isSome := by
  constructor
  · intro h
    match entries, hs with
    | first :: second :: rest, hs =>
      have hlt : order first.1 second.1 = .lt := List.rel_of_pairwise_cons hs List.mem_cons_self
      have hself : order second.1 second.1 = .eq := Std.ReflCmp.compare_self
      refine ⟨first.1, second.1, fun heq => ?_, ?_, ?_⟩
      · rw [heq, hself] at hlt
        exact Ordering.noConfusion hlt
      · rw [get?_of_mem hs List.mem_cons_self]
        rfl
      · rw [get?_of_mem hs (List.mem_cons_of_mem _ List.mem_cons_self)]
        rfl
  · rintro ⟨j, k, hne, hj, hk⟩
    obtain ⟨v, hv⟩ := Option.isSome_iff_exists.1 hj
    obtain ⟨w, hw⟩ := Option.isSome_iff_exists.1 hk
    match entries, mem_of_get? hv, mem_of_get? hw with
    | [entry], hv, hw =>
      rw [List.mem_singleton] at hv hw
      exact absurd (congrArg Prod.fst (hv.trans hw.symm)) hne
    | _ :: _ :: _, _, _ => simp

/-- Two maps in which the same is found under every key are equal. -/
theorem eq_of_get? [Std.TransCmp order] [Std.LawfulEqCmp order] {a b : List (α × β)}
    (ha : Sorted order a) (hb : Sorted order b) (h : ∀ k, get? order k a = get? order k b) :
    a = b := by
  have mem_iff : ∀ e, e ∈ a ↔ e ∈ b := by
    intro e
    constructor
    · intro he
      exact mem_of_get? ((h e.1).symm.trans (get?_of_mem ha he))
    · intro he
      exact mem_of_get? ((h e.1).trans (get?_of_mem hb he))
  have nodup : ∀ {c : List (α × β)}, Sorted order c → c.Nodup := by
    intro c hc
    refine hc.imp fun {x y} hlt heq => ?_
    have hself : order y.1 y.1 = .eq := Std.ReflCmp.compare_self
    rw [heq, hself] at hlt
    exact Ordering.noConfusion hlt
  refine List.Perm.eq_of_pairwise (fun x y _ _ hxy hyx => ?_) ha hb
    ((List.perm_ext_iff_of_nodup (nodup ha) (nodup hb)).2 mem_iff)
  rw [Std.OrientedCmp.gt_of_lt hxy] at hyx
  exact Ordering.noConfusion hyx

/-! ## Changing the value under a key -/

/-- Two changes under one key are one change. -/
theorem alter_alter [Std.ReflCmp order] (key : α) (f g : Option β → β) (entries : List (α × β)) :
    alter order key g (alter order key f entries) =
      alter order key (fun value => g (some (f value))) entries := by
  have hself : order key key = .eq := Std.ReflCmp.compare_self
  induction entries with
  | nil => simp only [alter, hself]
  | cons head rest ih =>
    obtain ⟨k, v⟩ := head
    cases hk : order key k with
    | lt => simp only [alter, hk, hself]
    | eq => simp only [alter, hk]
    | gt => simp only [alter, hk, ih]

/-- In a map, a change stores what it makes of the value that is found. -/
theorem alter_eq_insert [Std.TransCmp order] (key : α) (change : Option β → β)
    {entries : List (α × β)} (h : Sorted order entries) :
    alter order key change entries =
      insert order key (change (get? order key entries)) entries := by
  induction entries with
  | nil => rfl
  | cons head rest ih =>
    obtain ⟨k, v⟩ := head
    obtain ⟨hhead, hrest⟩ := List.pairwise_cons.1 h
    cases hk : order key k with
    | lt =>
      have habsent : get? order key rest = none :=
        get?_of_forall_lt fun e he => Std.TransCmp.lt_trans hk (hhead e he)
      simp only [insert, alter, get?, hk, habsent, reduceCtorEq, if_false]
    | eq => simp only [insert, alter, get?, hk, if_true]
    | gt => simp only [insert, alter, get?, hk, reduceCtorEq, if_false, ih hrest]

/-- Storing what is there already changes nothing. -/
theorem insert_of_get? [Std.TransCmp order] [Std.LawfulEqCmp order] [DecidableEq α] {key : α}
    {value : β} {entries : List (α × β)} (h : Sorted order entries)
    (hget : get? order key entries = some value) : insert order key value entries = entries := by
  refine eq_of_get? (sorted_alter h) h fun k => ?_
  rw [get?_insert]
  by_cases hk : k = key
  · rw [if_pos hk, hk, hget]
  · rw [if_neg hk]

end SortedMap

/-! ## Maps from texts -/

/-- A finite map from texts, as the list of its entries in the order of the keys. -/
structure Dictionary (β : Type) where
  entries : List (String × β)
  sorted : SortedMap.Sorted compare entries
deriving DecidableEq, Repr

namespace Dictionary

variable {β : Type}

/-- The map without entries. -/
def empty : Dictionary β :=
  ⟨[], List.Pairwise.nil⟩

instance : Inhabited (Dictionary β) :=
  ⟨empty⟩

/-- The map of a list of pairs; of two values for a key the later one counts. -/
def ofList (pairs : List (String × β)) : Dictionary β :=
  ⟨SortedMap.ofList compare pairs, SortedMap.sorted_ofList pairs⟩

/-- The value stored under a key. -/
def get? (key : String) (map : Dictionary β) : Option β :=
  SortedMap.get? compare key map.entries

theorem get?_ofList_nil (k : String) : (ofList ([] : List (String × β))).get? k = none :=
  rfl

/-- A pair counts if no later one has its key. -/
theorem get?_ofList_cons (k : String) (pair : String × β) (pairs : List (String × β)) :
    (ofList (pair :: pairs)).get? k =
      ((ofList pairs).get? k).or (if k = pair.1 then some pair.2 else none) := by
  show SortedMap.get? compare k (SortedMap.ofList compare (pair :: pairs)) = _
  rw [SortedMap.ofList, List.foldl_cons, SortedMap.get?_foldl_insert, SortedMap.get?_insert]
  rfl

/-- Replaces the value under a key, which may be absent, by a function of it. -/
def alter (key : String) (change : Option β → β) (map : Dictionary β) : Dictionary β :=
  ⟨SortedMap.alter compare key change map.entries, SortedMap.sorted_alter map.sorted⟩

/-- How many keys there are. -/
def size (map : Dictionary β) : Nat :=
  map.entries.length

@[simp] theorem get?_empty (k : String) : (empty : Dictionary β).get? k = none :=
  rfl

theorem get?_alter (key k : String) (change : Option β → β) (map : Dictionary β) :
    (map.alter key change).get? k =
      if k = key then some (change (map.get? key)) else map.get? k := by
  show SortedMap.get? compare k (SortedMap.alter compare key change map.entries) = _
  rw [SortedMap.alter_eq_insert key change map.sorted, SortedMap.get?_insert]
  rfl

/-- Two maps in which the same is found under every key are equal. -/
theorem eq_of_get? {a b : Dictionary β} (h : ∀ k, a.get? k = b.get? k) : a = b := by
  have hentries : a.entries = b.entries := SortedMap.eq_of_get? a.sorted b.sorted h
  cases a
  cases b
  congr

/-- A map is the map of its entries. -/
theorem ofList_entries (map : Dictionary β) : ofList map.entries = map := by
  have hget : ∀ entries : List (String × β), SortedMap.Sorted compare entries →
      ∀ k, (ofList entries).get? k = SortedMap.get? compare k entries := by
    intro entries hs k
    induction entries with
    | nil => rfl
    | cons head rest ih =>
      obtain ⟨hhead, hrest⟩ := List.pairwise_cons.1 hs
      rw [get?_ofList_cons, ih hrest, SortedMap.get?]
      by_cases hk : k = head.1
      · have habsent : SortedMap.get? compare head.1 rest = none := SortedMap.get?_of_forall_lt hhead
        rw [hk, if_pos rfl, if_pos Std.ReflCmp.compare_self, habsent, Option.none_or]
      · rw [if_neg hk, if_neg (mt Std.LawfulEqCmp.eq_of_compare hk), Option.or_none]
  exact eq_of_get? (hget map.entries map.sorted)

/-- A map has several keys exactly if something is found under two different ones. -/
theorem one_lt_size_iff {map : Dictionary β} :
    1 < map.size ↔ ∃ j k, j ≠ k ∧ (map.get? j).isSome ∧ (map.get? k).isSome :=
  SortedMap.one_lt_length_iff map.sorted

/-- Whether the map has no entries. -/
def isEmpty (map : Dictionary β) : Bool :=
  map.entries.isEmpty

end Dictionary

end ClusterTuning
