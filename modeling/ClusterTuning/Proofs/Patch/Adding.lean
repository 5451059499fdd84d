import ClusterTuning.Proofs.Patch.Collecting

/-!
# Adding edits, also where some are refused

An edit is added to a patch set in place: its target gets an entry before the
strategies are compared.  An edit is refused only if its target has a strategy
already, so a target has an entry whenever an edit for it is refused, and nothing
is left of the attempt.  A run of additions comes therefore to the same as the
accepted ones alone, wherever the others stand between them.

* `PatchSet.push_eq` — one addition, with the set that it leaves behind;
* `Additions.holds_run` — what the set holds after a run;
* `PatchSet.run_eq_accepted` — refused additions leave nothing.
-/

namespace ClusterTuning

open TargetedEdit

namespace PatchSet

/-! ## One addition -/

variable {patches : PatchSet} {es : List TargetedEdit} {target : Reference}

theorem modify_eq (h : SortedMap.Sorted Reference.order patches.targets)
    (change : TargetEdits → TargetEdits) :
    patches.modify target change = ⟨SortedMap.insert Reference.order target
      (change (patches.contents target)) patches.targets⟩ := by
  rw [modify, SortedMap.alter_eq_insert target _ h, contents]

theorem modify_modify (f g : TargetEdits → TargetEdits) :
    (patches.modify target f).modify target g =
      patches.modify target fun entry => g (f entry) := by
  simp only [modify, SortedMap.alter_alter, Option.getD_some]

theorem contents_modify (h : SortedMap.Sorted Reference.order patches.targets)
    (change : TargetEdits → TargetEdits) :
    (patches.modify target change).contents target = change (patches.contents target) := by
  rw [modify_eq h, contents, SortedMap.get?_insert, if_pos rfl, Option.getD_some]

/-- Where there is something to see, the target has its entry already. -/
theorem modify_id (h : SortedMap.Sorted Reference.order patches.targets) {s : PatchStrategy}
    (hs : (patches.contents target).strategy = some s) : patches.modify target id = patches := by
  rw [modify_eq h, id]
  cases hget : SortedMap.get? Reference.order target patches.targets with
  | none =>
    rw [contents, hget] at hs
    exact nomatch hs
  | some entry =>
    have hentry : patches.contents target = entry := by rw [contents, hget, Option.getD_some]
    rw [hentry, SortedMap.insert_of_get? h hget]

/-- **An addition in place** makes the set that it should make, or leaves the set as it was. -/
theorem push_eq (h : SortedMap.Sorted Reference.order patches.targets)
    (strategy : Option PatchStrategy) (edit : Edit) :
    patches.push target strategy edit =
      match patches.add target strategy edit with
      | .ok next => (next, .ok ())
      | .error failure => (patches, .error failure) := by
  have hadd : patches.add target strategy edit =
      (joinStrategy target (patches.contents target).strategy strategy).map fun joined =>
        ⟨SortedMap.insert Reference.order target
          { strategy := joined, edits := (patches.contents target).edits ++ [edit] }
          patches.targets⟩ := by
    rw [add, contents]
    cases joinStrategy target _ strategy <;> rfl
  rw [push, hadd]
  simp only [contents_modify h, id]
  cases hjoin : joinStrategy target (patches.contents target).strategy strategy with
  | ok joined =>
    simp only [modify_modify, id]
    rw [modify_eq h]
    rfl
  | error failure =>
    obtain ⟨s, -, hs, -⟩ := joinStrategy_eq_error_iff.1 hjoin
    simp only [modify_id h hs, Except.map]

/-- An edit is refused exactly if it asks for another strategy than an edit that was accepted for
its target. -/
theorem Holds.push_eq_error_iff (h : patches.Holds es) {e : TargetedEdit} {failure : Failure} :
    (patches.push e.target e.strategy e.edit).2 = .error failure ↔
      ∃ existing requested, e.strategy = some requested ∧
        (∃ d ∈ es, d.target = e.target ∧ d.strategy = some existing) ∧ existing ≠ requested ∧
          failure = .strategyConflict e.target existing requested := by
  have hfails : (patches.push e.target e.strategy e.edit).2 = .error failure ↔
      joinStrategy e.target (strategyFor e.target es) e.strategy = .error failure := by
    rw [push_eq h.sorted, h.add_eq]
    cases joinStrategy e.target (strategyFor e.target es) e.strategy <;> simp [Except.map]
  rw [hfails, joinStrategy_eq_error_iff]
  simp only [strategyFor_eq_some_iff h.agree]
  constructor
  · rintro ⟨existing, requested, hexisting, hrequested, hne, rfl⟩
    exact ⟨existing, requested, hrequested, hexisting, hne, rfl⟩
  · rintro ⟨existing, requested, hrequested, hexisting, hne, rfl⟩
    exact ⟨existing, requested, hexisting, hrequested, hne, rfl⟩

end PatchSet

/-! ## A run of additions -/

/-- A patch set and the edits that were accepted for it, in the order in which they came. -/
structure Additions where
  patches : PatchSet := {}
  accepted : List TargetedEdit := []

namespace Additions

/-- One more addition; whatever it leaves behind stays in the set. -/
def next (a : Additions) (e : TargetedEdit) : Additions :=
  match a.patches.push e.target e.strategy e.edit with
  | (patches, .ok ()) => { patches, accepted := a.accepted ++ [e] }
  | (patches, .error _) => { a with patches }

/-- Additions to an empty set, one after the other, whether they are accepted or not. -/
def run (es : List TargetedEdit) : Additions :=
  es.foldl next {}

theorem run_append_singleton (es : List TargetedEdit) (e : TargetedEdit) :
    run (es ++ [e]) = (run es).next e := by
  rw [run, List.foldl_append]
  rfl

/-- An addition is refused and leaves everything as it was, or the set holds one more edit. -/
theorem next_spec {a : Additions} (h : a.patches.Holds a.accepted) (e : TargetedEdit) :
    a.next e = a ∨ (a.next e).accepted = a.accepted ++ [e] ∧
      a.patches.add e.target e.strategy e.edit = .ok (a.next e).patches := by
  unfold next
  rw [PatchSet.push_eq h.sorted]
  cases a.patches.add e.target e.strategy e.edit with
  | ok patches => exact .inr ⟨rfl, rfl⟩
  | error failure => exact .inl rfl

theorem holds_next {a : Additions} (h : a.patches.Holds a.accepted) (e : TargetedEdit) :
    (a.next e).patches.Holds (a.next e).accepted := by
  rcases next_spec h e with hrefused | ⟨haccepted, hadd⟩
  · rwa [hrefused]
  · rw [haccepted]
    exact h.add hadd

/-- After a run, the set holds the edits that were accepted. -/
theorem holds_run (es : List TargetedEdit) : (run es).patches.Holds (run es).accepted := by
  induction es using List.reverseRecOn with
  | nil => exact PatchSet.holds_nil
  | append_singleton passed e ih =>
    rw [run_append_singleton]
    exact holds_next ih e

/-- The accepted additions alone come to the same, and all of them are accepted again. -/
theorem run_accepted (es : List TargetedEdit) : run (run es).accepted = run es := by
  induction es using List.reverseRecOn with
  | nil => rfl
  | append_singleton passed e ih =>
    rw [run_append_singleton]
    rcases next_spec (holds_run passed) e with hrefused | ⟨haccepted, -⟩
    · rw [hrefused, ih]
    · rw [haccepted, run_append_singleton, ih]

end Additions

/-! ## Patches of a run -/

/-- Two patches are one patch exactly if their targets have the same four texts. -/
theorem ArePatchesOf.eq_iff {es : List TargetedEdit} {ps : List PatchTemplate}
    (h : ArePatchesOf es ps) {p q : PatchTemplate} (hp : p ∈ ps) (hq : q ∈ ps) {r s : Reference}
    (hr : p.target = some r) (hs : q.target = some s) :
    p = q ↔ r.apiVersion = s.apiVersion ∧ r.kind = s.kind ∧ r.namespace = s.namespace ∧
      r.name = s.name := by
  constructor
  · rintro rfl
    obtain rfl := Option.some.inj (hr.symm.trans hs)
    exact ⟨rfl, rfl, rfl, rfl⟩
  · rintro ⟨hversion, hkind, hnamespace, hname⟩
    have hrs : r = s := by
      cases r
      cases s
      simp_all
    subst hrs
    -- of two patches, the one that comes first has the smaller target
    obtain ⟨i, hi, rfl⟩ := List.getElem_of_mem hp
    obtain ⟨j, hj, rfl⟩ := List.getElem_of_mem hq
    have hordered := List.pairwise_iff_getElem.1 h.ascending
    rcases Nat.lt_trichotomy i j with hlt | rfl | hgt
    · exact absurd (hordered i j hi hj hlt r r hr hs) (List.lt_irrefl _)
    · rfl
    · exact absurd (hordered j i hj hi hgt r r hs hr) (List.lt_irrefl _)

/-- **Refused additions leave nothing.**  After any run, an addition that is refused leaves the set
as it was; it is refused exactly if it asks for another strategy than an edit that was accepted for
its target.  The set is the one that the accepted additions alone make.  It holds them by target,
and gives one patch for each of their targets, in the order of the bytes of their texts. -/
theorem PatchSet.run_eq_accepted (es : List TargetedEdit) :
    (∀ (e : TargetedEdit) left failure,
      (Additions.run es).patches.push e.target e.strategy e.edit = (left, .error failure) →
        left = (Additions.run es).patches) ∧
    (∀ (e : TargetedEdit) failure,
      ((Additions.run es).patches.push e.target e.strategy e.edit).2 = .error failure ↔
        ∃ existing requested, e.strategy = some requested ∧
          (∃ d ∈ (Additions.run es).accepted, d.target = e.target ∧ d.strategy = some existing) ∧
            existing ≠ requested ∧ failure = .strategyConflict e.target existing requested) ∧
    Additions.run (Additions.run es).accepted = Additions.run es ∧
    (Additions.run es).patches.Holds (Additions.run es).accepted ∧
    ∀ ps, (Additions.run es).patches.render = .ok ps →
      ArePatchesOf (Additions.run es).accepted ps ∧
        ∀ p ∈ ps, ∀ q ∈ ps, ∀ r s, p.target = some r → q.target = some s →
          (p = q ↔ r.apiVersion = s.apiVersion ∧ r.kind = s.kind ∧ r.namespace = s.namespace ∧
            r.name = s.name) := by
  have hholds := Additions.holds_run es
  refine ⟨fun e left failure hpush => ?_, fun e failure => hholds.push_eq_error_iff,
    Additions.run_accepted es, hholds, fun ps hps => ?_⟩
  · rw [push_eq hholds.sorted] at hpush
    cases hadd : (Additions.run es).patches.add e.target e.strategy e.edit with
    | ok next =>
      rw [hadd] at hpush
      exact nomatch congrArg Prod.snd hpush
    | error failure' =>
      rw [hadd] at hpush
      exact (congrArg Prod.fst hpush).symm
  · have hpatches := hholds.arePatchesOf hps
    exact ⟨hpatches, fun p hp q hq r s hr hs => hpatches.eq_iff hp hq hr hs⟩

namespace Additions

/-- A workload. -/
def sampleWorkload : Reference :=
  { apiVersion := "apps/v1", kind := "Deployment", name := "web" }

/-- The configuration of the workload. -/
def sampleConfiguration : Reference :=
  { apiVersion := "v1", kind := "ConfigMap", name := "web" }

/-- An edit that sets one field. -/
def sampleEdit (field : String) : Edit :=
  .set [.field field] (.bool true)

/-- Three edits for the workload, of which the second asks for another strategy than the first, and
one for its configuration. -/
def sampleEdits : List TargetedEdit := [
  { target := sampleWorkload, strategy := some .merge, edit := sampleEdit "paused" },
  { target := sampleWorkload, strategy := some .json, edit := sampleEdit "refused" },
  { target := sampleConfiguration, edit := sampleEdit "immutable" },
  { target := sampleWorkload, edit := sampleEdit "ready" }]

/-- The patches of those edits that are accepted. -/
def samplePatches : List PatchTemplate := [
  { patch := "immutable: true\n", target := some sampleConfiguration },
  { strategy := some .merge, patch := "paused: true\nready: true\n",
    target := some sampleWorkload }]

end Additions

open Additions in
theorem PatchSet.run_eq_accepted_sample :
    (run sampleEdits).accepted.length = 3 ∧
      (run sampleEdits).patches.render = .ok samplePatches ∧
      ArePatchesOf (run sampleEdits).accepted samplePatches := by
  have hpatches : (run sampleEdits).patches = ⟨[
      (sampleConfiguration, { edits := [sampleEdit "immutable"] }),
      (sampleWorkload,
        { strategy := some .merge, edits := [sampleEdit "paused", sampleEdit "ready"] })]⟩ := by
    rfl
  have hrender : (run sampleEdits).patches.render = .ok samplePatches := by
    rw [hpatches]
    rfl
  exact ⟨by rfl, hrender, ((run_eq_accepted sampleEdits).2.2.2.2 samplePatches hrender).1⟩

end ClusterTuning
