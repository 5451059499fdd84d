import ClusterTuning.Proofs.Selector.Spelling

/-!
# What a selector selects

A selector is satisfied by the labels of some resources.  The text asks for one
requirement after the other; the structured form asks for the entries of a map and
for a list of expressions.  Both ask for the same, but for one thing: the map has
one entry for a label, so of several equalities on a label the last one is in
force and the others are lost.

* `Selector.selects_ofRequirements_iff` — a structured form asks for the
  requirements in force;
* `Selector.selects_iff_of_parse` — and so for what the text says exactly when no
  label is to equal two values, or nothing is selected anyway.
-/

namespace ClusterTuning

/-- The labels of a resource: the value of each label that it has. -/
abbrev Labels := String → Option String

/-! ## The meaning of structured selectors -/

/-- What an operator asks of a label, given the values that come with it. -/
def SelectorOperator.Holds (values : List String) (label : Option String) :
    SelectorOperator → Prop
  | isIn => ∃ v ∈ values, label = some v
  | notIn => ∀ v ∈ values, label ≠ some v
  | .exists => label ≠ none
  | doesNotExist => label = none

/-- The labels satisfy an expression; one whose operator is unknown is satisfied by none. -/
def SelectorRequirement.Selects (r : SelectorRequirement) (labels : Labels) : Prop :=
  ∃ operator : SelectorOperator, operator.name = r.operator ∧
    operator.Holds (r.values.getD []) (labels r.key)

/-- The labels have the given values and satisfy all expressions. -/
def LabelSelector.Selects (selector : LabelSelector) (labels : Labels) : Prop :=
  (∀ wanted, selector.matchLabels = some wanted →
      ∀ key value, wanted.get? key = some value → labels key = some value) ∧
    ∀ expressions, selector.matchExpressions = some expressions →
      ∀ r ∈ expressions, r.Selects labels

theorem SelectorOperator.name_inj {a b : SelectorOperator} : a.name = b.name ↔ a = b := by
  constructor
  · cases a <;> cases b <;> decide
  · rintro rfl
    rfl

theorem selects_mk_iff {key : String} {operator : SelectorOperator}
    {values : Option (List String)} {labels : Labels} :
    (SelectorRequirement.mk key operator.name values).Selects labels ↔
      operator.Holds (values.getD []) (labels key) := by
  constructor
  · rintro ⟨op, hname, hop⟩
    obtain rfl := SelectorOperator.name_inj.1 hname
    exact hop
  · exact fun h => ⟨operator, rfl, h⟩

namespace Selector

/-! ## The meaning of requirements -/

/-- The labels satisfy a requirement. -/
def Requirement.Holds (labels : Labels) : Requirement → Prop
  | set key true values => ∃ v ∈ values, labels (String.ofList key) = some (String.ofList v)
  | set key false values => ∀ v ∈ values, labels (String.ofList key) ≠ some (String.ofList v)
  | equal key value => labels (String.ofList key) = some (String.ofList value)
  | unequal key value => labels (String.ofList key) ≠ some (String.ofList value)
  | present key => labels (String.ofList key) ≠ none
  | absent key => labels (String.ofList key) = none

theorem Requirement.holds_of_expression? {r : Requirement} {e : SelectorRequirement}
    {labels : Labels} (h : r.expression? = some e) : e.Selects labels ↔ r.Holds labels := by
  cases r with
  | set key positive values =>
    obtain rfl := Option.some.inj h
    rw [selects_mk_iff]
    cases positive <;> simp [SelectorOperator.Holds, Requirement.Holds]
  | equal key value => exact nomatch h
  | unequal key value =>
    obtain rfl := Option.some.inj h
    rw [selects_mk_iff]
    simp [SelectorOperator.Holds, Requirement.Holds]
  | present key =>
    obtain rfl := Option.some.inj h
    exact selects_mk_iff
  | absent key =>
    obtain rfl := Option.some.inj h
    exact selects_mk_iff

/-! ## Requirements in force -/

/-- A later requirement takes the place of an earlier one: both are equalities on one label. -/
def Requirement.replaces : Requirement → Requirement → Bool
  | equal key _, equal key' _ => key == key'
  | _, _ => false

/-- The requirements that no later one replaces. -/
def inForce : List Requirement → List Requirement
  | [] => []
  | r :: later => if later.any (·.replaces r) then inForce later else r :: inForce later

theorem replaces_iff {r s : Requirement} :
    r.replaces s = true ↔ ∃ key v w, r = .equal key v ∧ s = .equal key w := by
  cases r <;> cases s <;> simp [Requirement.replaces]
  exact eq_comm

theorem mem_of_mem_inForce {r : Requirement} {rs : List Requirement} (h : r ∈ inForce rs) :
    r ∈ rs := by
  induction rs with
  | nil => exact h
  | cons s rs ih =>
    rw [inForce] at h
    split at h
    · exact List.mem_cons_of_mem s (ih h)
    · rcases List.mem_cons.1 h with rfl | h
      · exact List.mem_cons_self
      · exact List.mem_cons_of_mem s (ih h)

/-- A requirement that is not in force is an equality, and another equality on its label is. -/
theorem mem_inForce_or {r : Requirement} {rs : List Requirement} (h : r ∈ rs) :
    r ∈ inForce rs ∨ ∃ key v w, r = .equal key v ∧ .equal key w ∈ inForce rs := by
  induction rs generalizing r with
  | nil => exact absurd h List.not_mem_nil
  | cons s rs ih =>
    rw [inForce]
    split
    · next hreplaced =>
      rcases List.mem_cons.1 h with rfl | h
      · obtain ⟨t, ht, hrep⟩ := List.any_eq_true.1 hreplaced
        obtain ⟨key, v, w, rfl, rfl⟩ := replaces_iff.1 hrep
        rcases ih ht with hin | ⟨key', v', w', heq, hin⟩
        · exact .inr ⟨key, w, v, rfl, hin⟩
        · obtain ⟨rfl, rfl⟩ := Requirement.equal.inj heq
          exact .inr ⟨key, w, w', rfl, hin⟩
      · exact ih h
    · rcases List.mem_cons.1 h with rfl | h
      · exact .inl List.mem_cons_self
      · rcases ih h with hin | ⟨key, v, w, hr, hin⟩
        · exact .inl (List.mem_cons_of_mem s hin)
        · exact .inr ⟨key, v, w, hr, List.mem_cons_of_mem s hin⟩

/-- No label is to equal two different values. -/
def Consistent (rs : List Requirement) : Prop :=
  ∀ key v w, .equal key v ∈ rs → .equal key w ∈ rs → v = w

theorem mem_inForce_iff {rs : List Requirement} (h : Consistent rs) {r : Requirement} :
    r ∈ inForce rs ↔ r ∈ rs := by
  refine ⟨mem_of_mem_inForce, fun hr => ?_⟩
  rcases mem_inForce_or hr with hin | ⟨key, v, w, rfl, hin⟩
  · exact hin
  · rwa [h key v w hr (mem_of_mem_inForce hin)]

theorem mem_inForce_of_expression? {r : Requirement} {rs : List Requirement}
    {e : SelectorRequirement} (hr : r ∈ rs) (he : r.expression? = some e) : r ∈ inForce rs := by
  rcases mem_inForce_or hr with hin | ⟨key, v, w, rfl, -⟩
  · exact hin
  · exact nomatch he

/-- An equality is replaced exactly if another one on its label is in force later. -/
theorem any_replaces_equal_iff {key w : List Char} {rs : List Requirement} :
    rs.any (·.replaces (.equal key w)) = true ↔ ∃ v, .equal key v ∈ inForce rs := by
  constructor
  · intro h
    obtain ⟨s, hs, hrep⟩ := List.any_eq_true.1 h
    obtain ⟨key', v, w', rfl, heq⟩ := replaces_iff.1 hrep
    obtain ⟨rfl, rfl⟩ := Requirement.equal.inj heq
    rcases mem_inForce_or hs with hin | ⟨key', v', w', heq, hin⟩
    · exact ⟨v, hin⟩
    · obtain ⟨rfl, rfl⟩ := Requirement.equal.inj heq
      exact ⟨w', hin⟩
  · rintro ⟨v, hv⟩
    exact List.any_eq_true.2 ⟨_, mem_of_mem_inForce hv, replaces_iff.2 ⟨key, v, w, rfl, rfl⟩⟩

theorem any_replaces_of_label?_eq_none {r : Requirement} (h : r.label? = none)
    (rs : List Requirement) : rs.any (·.replaces r) = false := by
  refine List.any_eq_false.2 fun s _ hs => ?_
  obtain ⟨key, v, w, -, rfl⟩ := replaces_iff.1 hs
  exact nomatch h

/-! ## The structured form of requirements -/

/-- The entries are the equalities in force. -/
theorem get?_labels_eq_some_iff {label value : String} {rs : List Requirement} :
    (Dictionary.ofList (rs.filterMap (·.label?))).get? label = some value ↔
      ∃ key v, .equal key v ∈ inForce rs ∧ String.ofList key = label ∧
        String.ofList v = value := by
  induction rs generalizing label value with
  | nil => simp [inForce, Dictionary.get?_ofList_nil]
  | cons r rs ih =>
    cases hr : r.label? with
    | none =>
      have hne : ∀ key v, r ≠ .equal key v := by
        rintro key v rfl
        exact nomatch hr
      rw [List.filterMap_cons_none hr, ih, inForce, any_replaces_of_label?_eq_none hr]
      simp [hne, eq_comm]
    | some pair =>
      obtain ⟨key, w, rfl⟩ : ∃ key w, r = .equal key w := by
        cases r with
        | equal key w => exact ⟨key, w, rfl⟩
        | _ => exact nomatch hr
      obtain rfl := Option.some.inj hr
      have hlater : (Dictionary.ofList (rs.filterMap (·.label?))).get? (String.ofList key) ≠ none ↔
          rs.any (·.replaces (.equal key w)) = true := by
        rw [any_replaces_equal_iff, Option.ne_none_iff_exists']
        simp only [ih, String.ofList_inj]
        constructor
        · rintro ⟨-, key', v, hin, rfl, -⟩
          exact ⟨v, hin⟩
        · rintro ⟨v, hin⟩
          exact ⟨_, key, v, hin, rfl, rfl⟩
      rw [List.filterMap_cons_some hr, Dictionary.get?_ofList_cons, Option.or_eq_some_iff, ih]
      by_cases hreplaced : rs.any (·.replaces (.equal key w)) = true
      · -- the label is wanted later, so what comes here is not looked at
        rw [inForce, if_pos hreplaced, or_iff_left]
        rintro ⟨hnone, hif⟩
        split_ifs at hif with hlabel
        rw [hlabel] at hnone
        exact hlater.2 hreplaced hnone
      · rw [inForce, if_neg hreplaced]
        constructor
        · rintro (⟨key', v, hin, hkey, hv⟩ | ⟨-, hif⟩)
          · exact ⟨key', v, List.mem_cons_of_mem _ hin, hkey, hv⟩
          · split_ifs at hif with hlabel
            exact ⟨key, w, List.mem_cons_self, hlabel.symm, Option.some.inj hif⟩
        · rintro ⟨key', v, hin, rfl, rfl⟩
          rcases List.mem_cons.1 hin with heq | hin
          · obtain ⟨rfl, rfl⟩ := Requirement.equal.inj heq
            exact .inr ⟨not_not.1 (mt hlater.1 hreplaced), if_pos rfl⟩
          · exact .inl ⟨key', v, hin, rfl, rfl⟩

/-- A part of a selector that is left out has no entries, so it asks for nothing. -/
theorem selects_ofRequirements_iff_parts {rs : List Requirement} {labels : Labels} :
    (ofRequirements rs).Selects labels ↔
      (∀ label value, (Dictionary.ofList (rs.filterMap (·.label?))).get? label = some value →
        labels label = some value) ∧
      ∀ e ∈ rs.filterMap (·.expression?), e.Selects labels := by
  unfold LabelSelector.Selects ofRequirements
  simp only [Option.filter_eq_some_iff, Option.some.injEq, Bool.not_eq_true']
  refine and_congr ⟨fun h label value hget => ?_, ?_⟩ ⟨fun h e he => ?_, ?_⟩
  · refine h _ ⟨rfl, ?_⟩ label value hget
    refine Bool.eq_false_iff.2 fun hempty => ?_
    rw [Dictionary.get?, List.isEmpty_iff.1 hempty] at hget
    exact nomatch hget
  · rintro h wanted ⟨rfl, -⟩
    exact h
  · refine h _ ⟨rfl, ?_⟩ e he
    exact List.isEmpty_eq_false_iff.2 (List.ne_nil_of_mem he)
  · rintro h expressions ⟨rfl, -⟩
    exact h

/-- **A structured selector asks for the requirements in force.** -/
theorem selects_ofRequirements_iff {rs : List Requirement} {labels : Labels} :
    (ofRequirements rs).Selects labels ↔ ∀ r ∈ inForce rs, r.Holds labels := by
  rw [selects_ofRequirements_iff_parts]
  constructor
  · rintro ⟨hlabels, hexpressions⟩ r hr
    cases he : r.expression? with
    | some e =>
      refine (Requirement.holds_of_expression? he).1 (hexpressions e ?_)
      exact List.mem_filterMap.2 ⟨r, mem_of_mem_inForce hr, he⟩
    | none =>
      cases r with
      | equal key v =>
        exact hlabels _ _ (get?_labels_eq_some_iff.2 ⟨key, v, hr, rfl, rfl⟩)
      | _ => exact nomatch he
  · intro h
    constructor
    · intro label value hget
      obtain ⟨key, v, hin, rfl, rfl⟩ := get?_labels_eq_some_iff.1 hget
      exact h _ hin
    · intro e he
      obtain ⟨r, hr, he⟩ := List.mem_filterMap.1 he
      exact (Requirement.holds_of_expression? he).2 (h r (mem_inForce_of_expression? hr he))

/-! ## The meaning of what is read -/

/-- **What a selector selects that is read from a text.**  There is one list of requirements that
the text spells, and of these the selector asks for the ones in force.  It selects what satisfies
all of them exactly when they are consistent or it selects nothing. -/
theorem selects_iff_of_parse {text : String} {selector : LabelSelector}
    (h : parse text = .ok selector) :
    ∃ rs, (∀ rs', Spells text.toList rs' ↔ rs' = rs) ∧
      (∀ labels, selector.Selects labels ↔ ∀ r ∈ inForce rs, r.Holds labels) ∧
      ((∀ labels, selector.Selects labels ↔ ∀ r ∈ rs, r.Holds labels) ↔
        Consistent rs ∨ ∀ labels, ¬ selector.Selects labels) := by
  obtain ⟨rs, hrs, rfl⟩ := parse_eq_ok_iff.1 h
  refine ⟨rs, fun rs' => ⟨fun h' => h'.unique hrs, fun heq => heq ▸ hrs⟩,
    fun labels => selects_ofRequirements_iff, ?_⟩
  simp only [selects_ofRequirements_iff]
  constructor
  · intro hmeaning
    by_cases hnone : ∀ labels, ¬ ∀ r ∈ inForce rs, r.Holds labels
    · exact .inr hnone
    · obtain ⟨labels, hlabels⟩ := not_forall_not.1 hnone
      have hall := (hmeaning labels).1 hlabels
      refine .inl fun key v w hv hw => ?_
      have hv := hall _ hv
      rw [Requirement.Holds, show labels (String.ofList key) = some (String.ofList w) from
        hall _ hw] at hv
      exact (String.ofList_inj.1 (Option.some.inj hv)).symm
  · rintro (hconsistent | hnone) labels
    · simp only [mem_inForce_iff hconsistent]
    · exact iff_of_false (hnone labels)
        fun hall => hnone labels fun r hr => hall r (mem_of_mem_inForce hr)

/-- The forms of requirements together, with an equality that is asked for twice. -/
def sampleText : String :=
  "app=web, env in (prod, staging), track notin (canary), tier!=db, release, !legacy, app==web"

theorem selects_iff_of_parse_sample :
    ∃ selector, parse sampleText = .ok selector ∧
      ∃ rs, (∀ rs', Spells sampleText.toList rs' ↔ rs' = rs) ∧
        (∀ labels, selector.Selects labels ↔ ∀ r ∈ inForce rs, r.Holds labels) ∧
        ((∀ labels, selector.Selects labels ↔ ∀ r ∈ rs, r.Holds labels) ↔
          Consistent rs ∨ ∀ labels, ¬ selector.Selects labels) :=
  ⟨_, by rfl, selects_iff_of_parse (by rfl)⟩

/-- Two equalities on one label. -/
def repeatedLabel : List Requirement :=
  [.equal ['a', 'p', 'p'] ['a'], .equal ['a', 'p', 'p'] ['b']]

/-- Of two equalities on a label the first one is lost: no labels satisfy both, yet some are
selected. -/
theorem selects_of_repeated_label :
    parse "app=a,app=b" = .ok (ofRequirements repeatedLabel) ∧
      Spells "app=a,app=b".toList repeatedLabel ∧
      ∃ labels : Labels, (ofRequirements repeatedLabel).Selects labels ∧
        ¬ ∀ r ∈ repeatedLabel, r.Holds labels := by
  refine ⟨by rfl, requirements_bind_eq_ok_iff.1 (by rfl), fun _ => some "b", ?_, ?_⟩
  · have hforce : inForce repeatedLabel = [.equal ['a', 'p', 'p'] ['b']] := by decide
    rw [selects_ofRequirements_iff, hforce, List.forall_mem_singleton]
    rfl
  · intro hall
    have hfirst := hall (.equal ['a', 'p', 'p'] ['a']) List.mem_cons_self
    exact absurd (Option.some.inj hfirst) (by decide)

end Selector

end ClusterTuning
