import ClusterTuning.Proofs.Selector.Meaning

/-!
# The structured form of a selector

A text that spells requirements is read as the structured form of these, and no
other text is read.  Requirements other than equalities become expressions, one
each and in the order of the text; equalities become the entries of a map, which
keeps the last value of each key.  Nothing else comes in, and a part without
entries is absent.

* `Selector.isName_iff_word` — keys and values as words;
* `Selector.isFormOf_iff` — the structured form, as what it must hold;
* `Selector.parse_eq_ok_iff_grammar` — which texts are read, and as what.
-/

namespace ClusterTuning

namespace Selector

open Text

/-! ## Words -/

/-- A letter or digit, or two of them around letters, digits and some other characters. -/
inductive Word (others : List Char) : List Char → Prop where
  | single {c : Char} (h : c.isAlphanum = true) : Word others [c]
  | long {first last : Char} {middle : List Char} (hfirst : first.isAlphanum = true)
      (hmiddle : ∀ c ∈ middle, c.isAlphanum = true ∨ c ∈ others) (hlast : last.isAlphanum = true) :
      Word others (first :: (middle ++ [last]))

theorem isAlnum_eq (c : Char) : isAlnum c = c.isAlphanum := by
  have hupper : c.isUpper = (decide ('A' ≤ c) && decide (c ≤ 'Z')) := Bool.decide_and ..
  calc isAlnum c
    _ = (c.isLower || (decide ('A' ≤ c) && decide (c ≤ 'Z')) || c.isDigit) := rfl
    _ = (c.isLower || c.isUpper || c.isDigit) := by rw [hupper]
    _ = c.isAlphanum := congrArg (· || c.isDigit) (Bool.or_comm c.isLower c.isUpper)

theorem isName_iff_word {inside : Char → Bool} {others s : List Char}
    (hinside : ∀ c, inside c = true ↔ c.isAlphanum = true ∨ c ∈ others) :
    isName inside s = true ↔ Word others s := by
  simp only [isName, Bool.and_eq_true, List.all_eq_true, hinside, Option.any_eq_true, isAlnum_eq]
  constructor
  · rintro ⟨⟨⟨first, hhead, hfirst⟩, last, hlast, halnum⟩, hall⟩
    cases s with
    | nil => cases hhead
    | cons c rest =>
      obtain rfl := Option.some.inj hhead
      rcases List.eq_nil_or_concat' rest with rfl | ⟨middle, d, rfl⟩
      · exact .single hfirst
      · obtain rfl : d = last := by
          rw [← List.cons_append, List.getLast?_concat] at hlast
          exact Option.some.inj hlast
        refine .long hfirst (fun e he => hall e ?_) halnum
        exact List.mem_cons_of_mem c (List.mem_append_left _ he)
  · intro h
    cases h with
    | @single c h =>
      refine ⟨⟨⟨c, rfl, h⟩, c, rfl, h⟩, fun d hd => .inl ?_⟩
      rw [List.mem_singleton.1 hd]
      exact h
    | @long first last middle hfirst hmiddle hlast =>
      refine ⟨⟨⟨first, rfl, hfirst⟩, last, ?_, hlast⟩, ?_⟩
      · rw [← List.cons_append, List.getLast?_concat]
      · simp only [List.mem_cons, List.mem_append, List.not_mem_nil, or_false]
        rintro c (rfl | hc | rfl)
        · exact .inl hfirst
        · exact hmiddle c hc
        · exact .inl hlast

theorem isKey_iff_word {s : List Char} : isKey s = true ↔ Word ['-', '_', '.', '/'] s := by
  refine isName_iff_word fun c => ?_
  simp [isKeyChar, isValueChar, isAlnum_eq, or_assoc]

theorem isValue_iff_word {s : List Char} :
    isValue s = true ↔ s = [] ∨ Word ['-', '_', '.'] s := by
  rw [isValue, Bool.or_eq_true, List.isEmpty_iff]
  refine or_congr_right (isName_iff_word fun c => ?_)
  simp [isValueChar, isAlnum_eq, or_assoc]

/-! ## Expressions -/

/-- The requirement is an equality, which asks for an entry of the map. -/
def Requirement.isEquality : Requirement → Bool
  | equal _ _ => true
  | _ => false

/-- The expression that a requirement other than an equality becomes. -/
inductive Requirement.Becomes : Requirement → SelectorRequirement → Prop where
  | isIn (key : List Char) (values : List (List Char)) : Becomes (.set key true values)
      ⟨String.ofList key, "In", some (values.map String.ofList)⟩
  | notIn (key : List Char) (values : List (List Char)) : Becomes (.set key false values)
      ⟨String.ofList key, "NotIn", some (values.map String.ofList)⟩
  | unequal (key value : List Char) : Becomes (.unequal key value)
      ⟨String.ofList key, "NotIn", some [String.ofList value]⟩
  | present (key : List Char) : Becomes (.present key) ⟨String.ofList key, "Exists", none⟩
  | absent (key : List Char) : Becomes (.absent key) ⟨String.ofList key, "DoesNotExist", none⟩

theorem Requirement.becomes_iff {r : Requirement} {e : SelectorRequirement} :
    r.Becomes e ↔ r.expression? = some e := by
  constructor
  · intro h
    cases h <;> rfl
  · intro h
    cases r with
    | set key positive values =>
      obtain rfl := Option.some.inj h
      cases positive with
      | true => exact .isIn key values
      | false => exact .notIn key values
    | equal key value => exact nomatch h
    | unequal key value =>
      obtain rfl := Option.some.inj h
      exact .unequal key value
    | present key =>
      obtain rfl := Option.some.inj h
      exact .present key
    | absent key =>
      obtain rfl := Option.some.inj h
      exact .absent key

theorem Requirement.expression?_eq_none_iff {r : Requirement} :
    r.expression? = none ↔ r.isEquality = true := by
  cases r <;> simp [expression?, isEquality]

/-- The expressions are those of the requirements other than equalities, in their order. -/
theorem forall₂_becomes_iff {rs : List Requirement} {es : List SelectorRequirement} :
    List.Forall₂ Requirement.Becomes (rs.filter (!·.isEquality)) es ↔
      rs.filterMap (·.expression?) = es := by
  induction rs generalizing es with
  | nil => simp [eq_comm]
  | cons r rs ih =>
    cases he : r.expression? with
    | none =>
      have hequality := Requirement.expression?_eq_none_iff.1 he
      rw [List.filterMap_cons_none he, List.filter_cons_of_neg (by simpa using hequality), ih]
    | some e =>
      have hother : r.isEquality = false := by
        rw [← Bool.not_eq_true, ← Requirement.expression?_eq_none_iff, he]
        exact Option.some_ne_none e
      rw [List.filterMap_cons_some he, List.filter_cons_of_pos (by simpa using hother)]
      constructor
      · intro h
        cases h with
        | cons hr hrs =>
          rw [Requirement.becomes_iff, he] at hr
          rw [← Option.some.inj hr, ih.1 hrs]
      · rintro rfl
        exact .cons (Requirement.becomes_iff.2 he) (ih.2 rfl)

/-! ## Labels -/

/-- The last equality on a label asks for a value. -/
def IsLastValue (rs : List Requirement) (label value : String) : Prop :=
  ∃ before key v after, rs = before ++ .equal key v :: after ∧ String.ofList key = label ∧
    String.ofList v = value ∧ ∀ w, .equal key w ∉ after

/-- An equality is in force where no later one has its key. -/
theorem mem_inForce_equal_iff {rs : List Requirement} {key v : List Char} :
    .equal key v ∈ inForce rs ↔
      ∃ before after, rs = before ++ .equal key v :: after ∧ ∀ w, .equal key w ∉ after := by
  induction rs with
  | nil => simp [inForce]
  | cons r rs ih =>
    have hreplaced : rs.any (·.replaces (.equal key v)) = true ↔ ∃ w, .equal key w ∈ rs := by
      rw [List.any_eq_true]
      constructor
      · rintro ⟨s, hs, hrep⟩
        obtain ⟨key', w, v', rfl, heq⟩ := replaces_iff.1 hrep
        obtain ⟨rfl, rfl⟩ := Requirement.equal.inj heq
        exact ⟨w, hs⟩
      · rintro ⟨w, hw⟩
        exact ⟨_, hw, replaces_iff.2 ⟨key, w, v, rfl, rfl⟩⟩
    constructor
    · intro h
      rw [inForce] at h
      split at h
      · obtain ⟨before, after, rfl, hafter⟩ := ih.1 h
        exact ⟨r :: before, after, rfl, hafter⟩
      · next hkept =>
        rcases List.mem_cons.1 h with rfl | h
        · exact ⟨[], rs, rfl, fun w hw => hkept (hreplaced.2 ⟨w, hw⟩)⟩
        · obtain ⟨before, after, rfl, hafter⟩ := ih.1 h
          exact ⟨r :: before, after, rfl, hafter⟩
    · rintro ⟨before, after, heq, hafter⟩
      rw [inForce]
      rcases List.cons_eq_append_iff.1 heq with ⟨rfl, heq⟩ | ⟨before, rfl, rfl⟩
      · obtain ⟨rfl, rfl⟩ := List.cons.inj heq
        rw [if_neg fun hrep => (hreplaced.1 hrep).elim hafter]
        exact List.mem_cons_self
      · have hrest := ih.2 ⟨before, after, rfl, hafter⟩
        split
        · exact hrest
        · exact List.mem_cons_of_mem r hrest

/-- The map of labels holds the last value of each of them. -/
theorem get?_labels_eq_some_iff_last {rs : List Requirement} {label value : String} :
    (Dictionary.ofList (rs.filterMap (·.label?))).get? label = some value ↔
      IsLastValue rs label value := by
  simp only [get?_labels_eq_some_iff, mem_inForce_equal_iff]
  constructor
  · rintro ⟨key, v, ⟨before, after, rfl, hafter⟩, hlabel, hvalue⟩
    exact ⟨before, key, v, after, rfl, hlabel, hvalue, hafter⟩
  · rintro ⟨before, key, v, after, rfl, hlabel, hvalue, hafter⟩
    exact ⟨key, v, ⟨before, after, rfl, hafter⟩, hlabel, hvalue⟩

theorem isEmpty_labels_iff {rs : List Requirement} :
    (Dictionary.ofList (rs.filterMap (·.label?))).isEmpty = true ↔
      ∀ r ∈ rs, r.isEquality = false := by
  constructor
  · intro hempty r hr
    cases r with
    | equal key v =>
      -- of the equalities on a key one is in force, so the map has an entry for the key
      obtain ⟨w, hw⟩ : ∃ w, .equal key w ∈ inForce rs := by
        rcases mem_inForce_or hr with hin | ⟨key', v', w, heq, hin⟩
        · exact ⟨v, hin⟩
        · obtain ⟨rfl, rfl⟩ := Requirement.equal.inj heq
          exact ⟨w, hin⟩
      have hget := get?_labels_eq_some_iff.2 ⟨key, w, hw, rfl, rfl⟩
      rw [Dictionary.get?, List.isEmpty_iff.1 hempty] at hget
      cases hget
    | _ => rfl
  · intro hnone
    have hlabels : rs.filterMap (·.label?) = [] := by
      refine List.filterMap_eq_nil_iff.2 fun r hr => ?_
      have hother := hnone r hr
      cases r with
      | equal key v => exact Bool.noConfusion hother
      | _ => rfl
    rw [hlabels]
    rfl

/-! ## Structured forms -/

/-- What the structured form of some requirements holds. -/
structure IsFormOf (rs : List Requirement) (selector : LabelSelector) : Prop where
  /-- The labels with their last values, unless there is no equality. -/
  labels : match selector.matchLabels with
    | none => ∀ r ∈ rs, r.isEquality = false
    | some wanted => (∃ r ∈ rs, r.isEquality = true) ∧
        ∀ label value, wanted.get? label = some value ↔ IsLastValue rs label value
  /-- The other requirements in their order, unless there is none. -/
  expressions : match selector.matchExpressions with
    | none => ∀ r ∈ rs, r.isEquality = true
    | some es => es ≠ [] ∧ List.Forall₂ Requirement.Becomes (rs.filter (!·.isEquality)) es

theorem matchLabels_eq_iff {rs : List Requirement} {labels : Option (Dictionary String)} :
    (ofRequirements rs).matchLabels = labels ↔ match labels with
      | none => ∀ r ∈ rs, r.isEquality = false
      | some wanted => (∃ r ∈ rs, r.isEquality = true) ∧
          ∀ label value, wanted.get? label = some value ↔ IsLastValue rs label value := by
  have hsome : (∃ r ∈ rs, r.isEquality = true) ↔
      (Dictionary.ofList (rs.filterMap (·.label?))).isEmpty = false := by
    rw [← Bool.not_eq_true, isEmpty_labels_iff]
    simp
  cases labels with
  | none =>
    dsimp only
    rw [← isEmpty_labels_iff]
    simp [ofRequirements, Option.filter_eq_none_iff]
  | some wanted =>
    dsimp only
    rw [hsome]
    simp only [ofRequirements, Option.filter_eq_some_iff, Option.some.injEq, Bool.not_eq_true',
      ← get?_labels_eq_some_iff_last]
    constructor
    · rintro ⟨rfl, hfilled⟩
      exact ⟨hfilled, fun _ _ => Iff.rfl⟩
    · rintro ⟨hfilled, hget⟩
      have heq : Dictionary.ofList (rs.filterMap (·.label?)) = wanted :=
        Dictionary.eq_of_get? fun label => Option.ext fun value => (hget label value).symm
      exact ⟨heq, heq ▸ hfilled⟩

theorem matchExpressions_eq_iff {rs : List Requirement}
    {expressions : Option (List SelectorRequirement)} :
    (ofRequirements rs).matchExpressions = expressions ↔ match expressions with
      | none => ∀ r ∈ rs, r.isEquality = true
      | some es => es ≠ [] ∧ List.Forall₂ Requirement.Becomes (rs.filter (!·.isEquality)) es := by
  cases expressions with
  | none =>
    simp only [ofRequirements, Option.filter_eq_none_iff, Option.some.injEq, forall_eq',
      List.isEmpty_iff, List.filterMap_eq_nil_iff,
      Requirement.expression?_eq_none_iff, Bool.not_eq_true, Bool.not_eq_false']
  | some es =>
    simp only [ofRequirements, Option.filter_eq_some_iff, Option.some.injEq, Bool.not_eq_true',
      List.isEmpty_eq_false_iff, forall₂_becomes_iff]
    constructor
    · rintro ⟨rfl, hfilled⟩
      exact ⟨hfilled, rfl⟩
    · rintro ⟨hfilled, rfl⟩
      exact ⟨rfl, hfilled⟩

/-- **The structured form of requirements** is determined by what it must hold. -/
theorem isFormOf_iff {rs : List Requirement} {selector : LabelSelector} :
    IsFormOf rs selector ↔ ofRequirements rs = selector := by
  constructor
  · rintro ⟨hlabels, hexpressions⟩
    have hlabels := matchLabels_eq_iff.2 hlabels
    have hexpressions := matchExpressions_eq_iff.2 hexpressions
    exact congrArg₂ LabelSelector.mk hlabels hexpressions
  · rintro rfl
    exact ⟨matchLabels_eq_iff.1 rfl, matchExpressions_eq_iff.1 rfl⟩

/-- **Which texts are read, and as what.**  A text is read exactly if it spells requirements: none,
if it is blank, or one for each of its parts between the commas outside parentheses.  It is read as
the structured form of these.  Keys are words with `-`, `_`, `.` and `/` inside, and values are
empty or words with `-`, `_` and `.` inside. -/
theorem parse_eq_ok_iff_grammar :
    (∀ key, isKey key = true ↔ Word ['-', '_', '.', '/'] key) ∧
      (∀ value, isValue value = true ↔ value = [] ∨ Word ['-', '_', '.'] value) ∧
      ∀ text selector, parse text = .ok selector ↔
        ∃ rs, Spells text.toList rs ∧ IsFormOf rs selector := by
  refine ⟨fun _ => isKey_iff_word, fun _ => isValue_iff_word, fun text selector => ?_⟩
  rw [parse_eq_ok_iff]
  simp only [isFormOf_iff]

/-- Parentheses in a value are no list of values, and what they enclose is not cut at its commas. -/
example : parse "env in (a, (b, c))" = .error (.invalidValue "env in (a, (b, c))") := by rfl

end Selector

end ClusterTuning
