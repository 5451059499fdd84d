import ClusterTuning.Patch
import ClusterTuning.Proofs.Outcome
import ClusterTuning.Proofs.Text.ByteOrder

/-!
# What a patch set collects

Edits are added to a patch set one by one.  After any number of them, the set
holds under each target exactly the edits for that target, in the order in which
they came, and the strategy that they agree on.

* `PatchSet.Holds.add` — one more edit keeps this invariant;
* `PatchSet.Holds.arePatchesOf` — the patches rendered from such a set are the
  edits grouped by their targets.
-/

namespace ClusterTuning

/-- An edit together with the target it is for and the strategy it needs. -/
structure TargetedEdit where
  target : Reference
  strategy : Option PatchStrategy := none
  edit : Edit
deriving Inhabited

namespace TargetedEdit

/-- The edits of a list that are for one target. -/
def forTarget (r : Reference) (es : List TargetedEdit) : List TargetedEdit :=
  es.filter fun e => e.target = r

/-- The changes that a list asks for at one target, in order. -/
def editsFor (r : Reference) (es : List TargetedEdit) : List Edit :=
  (forTarget r es).map (·.edit)

/-- The first strategy that a list asks for at one target. -/
def strategyFor (r : Reference) (es : List TargetedEdit) : Option PatchStrategy :=
  (forTarget r es).findSome? (·.strategy)

/-- No two edits for one target ask for different strategies. -/
def Agree (es : List TargetedEdit) : Prop :=
  ∀ a ∈ es, ∀ b ∈ es, a.target = b.target →
    ∀ s t, a.strategy = some s → b.strategy = some t → s = t

variable {r : Reference} {es : List TargetedEdit} {e : TargetedEdit}

theorem mem_forTarget : e ∈ forTarget r es ↔ e ∈ es ∧ e.target = r := by
  simp [forTarget]

theorem forTarget_append_self : forTarget e.target (es ++ [e]) = forTarget e.target es ++ [e] := by
  simp [forTarget]

theorem forTarget_append_of_ne (h : r ≠ e.target) : forTarget r (es ++ [e]) = forTarget r es := by
  simp [forTarget, Ne.symm h]

theorem editsFor_append_self :
    editsFor e.target (es ++ [e]) = editsFor e.target es ++ [e.edit] := by
  rw [editsFor, forTarget_append_self, List.map_append, List.map_singleton, ← editsFor]

theorem strategyFor_append (r : Reference) (es ds : List TargetedEdit) :
    strategyFor r (es ++ ds) = (strategyFor r es).or (strategyFor r ds) := by
  rw [strategyFor, forTarget, List.filter_append, List.findSome?_append]
  rfl

theorem strategyFor_append_self :
    strategyFor e.target (es ++ [e]) = (strategyFor e.target es).or e.strategy := by
  rw [strategyFor, forTarget_append_self, List.findSome?_append, ← strategyFor,
    List.findSome?_singleton]

theorem editsFor_append_of_ne (h : r ≠ e.target) : editsFor r (es ++ [e]) = editsFor r es := by
  rw [editsFor, forTarget_append_of_ne h, editsFor]

theorem strategyFor_append_of_ne (h : r ≠ e.target) :
    strategyFor r (es ++ [e]) = strategyFor r es := by
  rw [strategyFor, forTarget_append_of_ne h, strategyFor]

/-- Where the edits agree, the strategy for a target is the one that any of its edits asks for. -/
theorem strategyFor_eq_some_iff (h : Agree es) {s : PatchStrategy} :
    strategyFor r es = some s ↔ ∃ e ∈ es, e.target = r ∧ e.strategy = some s := by
  constructor
  · intro hs
    obtain ⟨e, he, hes⟩ := List.exists_of_findSome?_eq_some hs
    exact ⟨e, (mem_forTarget.1 he).1, (mem_forTarget.1 he).2, hes⟩
  · rintro ⟨e, he, htarget, hes⟩
    cases hs : strategyFor r es with
    | none =>
      have := List.findSome?_eq_none_iff.1 hs e (mem_forTarget.2 ⟨he, htarget⟩)
      rw [hes] at this
      exact absurd this (Option.some_ne_none s)
    | some t =>
      obtain ⟨d, hd, hdt⟩ := List.exists_of_findSome?_eq_some hs
      obtain ⟨hd, hdr⟩ := mem_forTarget.1 hd
      rw [h d hd e he (hdr.trans htarget.symm) t s hdt hes]

/-- The strategies of a longer list agree when the new one fits the first strategy for its
target. -/
theorem Agree.append (h : Agree es)
    (hfit : ∀ s t, strategyFor e.target es = some s → e.strategy = some t → s = t) :
    Agree (es ++ [e]) := by
  have hnew : ∀ a ∈ es, a.target = e.target →
      ∀ s t, a.strategy = some s → e.strategy = some t → s = t := by
    intro a ha hae s t hs ht
    exact hfit s t ((strategyFor_eq_some_iff h).2 ⟨a, ha, hae, hs⟩) ht
  intro a ha b hb hab s t hs ht
  rcases List.mem_append.1 ha with ha' | ha' <;> rcases List.mem_append.1 hb with hb' | hb'
  · exact h a ha' b hb' hab s t hs ht
  · obtain rfl := List.mem_singleton.1 hb'
    exact hnew a ha' hab s t hs ht
  · obtain rfl := List.mem_singleton.1 ha'
    exact (hnew b hb' hab.symm t s ht hs).symm
  · obtain rfl := List.mem_singleton.1 ha'
    obtain rfl := List.mem_singleton.1 hb'
    exact Option.some.inj (hs.symm.trans ht)

end TargetedEdit

open TargetedEdit

/-! ## Adding edits -/

namespace PatchSet

theorem joinStrategy_eq_ok_iff {r : Reference} {a b c : Option PatchStrategy} :
    joinStrategy r a b = .ok c ↔ (∀ s t, a = some s → b = some t → s = t) ∧ c = a.or b := by
  cases a with
  | none => cases b <;> simp [joinStrategy, eq_comm]
  | some s =>
    cases b with
    | none => simp [joinStrategy, eq_comm]
    | some t =>
      by_cases h : s = t <;> simp [joinStrategy, h, eq_comm]

theorem joinStrategy_eq_error_iff {r : Reference} {a b : Option PatchStrategy} {e : Failure} :
    joinStrategy r a b = .error e ↔
      ∃ s t, a = some s ∧ b = some t ∧ s ≠ t ∧ e = .strategyConflict r s t := by
  cases a with
  | none => cases b <;> simp [joinStrategy]
  | some s =>
    cases b with
    | none => simp [joinStrategy]
    | some t => by_cases h : s = t <;> simp [joinStrategy, h, eq_comm]

/-- The set holds the edits of a list and nothing else: targets are in order, each of them has its
edits in the order of the list, and the edits agree on strategies. -/
structure Holds (patches : PatchSet) (es : List TargetedEdit) : Prop where
  sorted : SortedMap.Sorted Reference.order patches.targets
  get? (r : Reference) : SortedMap.get? Reference.order r patches.targets =
    if ∃ e ∈ es, e.target = r then some { strategy := strategyFor r es, edits := editsFor r es }
    else none
  agree : Agree es

theorem holds_nil : Holds {} [] where
  sorted := List.Pairwise.nil
  get? r := by simp [SortedMap.get?]
  agree := fun _ h => absurd h List.not_mem_nil

variable {patches : PatchSet} {es : List TargetedEdit}

/-- A target for which there is no edit yet has the same contents as one with an empty list. -/
theorem Holds.getD (h : patches.Holds es) (r : Reference) :
    (SortedMap.get? Reference.order r patches.targets).getD {} =
      { strategy := strategyFor r es, edits := editsFor r es } := by
  rw [h.get? r]
  split
  · rfl
  · next hr =>
    have hnil : forTarget r es = [] :=
      List.filter_eq_nil_iff.2 fun e he => by simpa using fun heq => hr ⟨e, he, heq⟩
    rw [Option.getD_none, strategyFor, editsFor, hnil]
    rfl

/-- Two sets are equal if they hold the same edits for each target, in whatever order the targets
come. -/
theorem Holds.eq_of_forTarget {patches' : PatchSet} {ds : List TargetedEdit}
    (h : patches.Holds es) (h' : patches'.Holds ds)
    (hsame : ∀ r, forTarget r es = forTarget r ds) : patches = patches' := by
  have hget : ∀ r, SortedMap.get? Reference.order r patches.targets =
      SortedMap.get? Reference.order r patches'.targets := by
    intro r
    have hiff : (∃ e ∈ es, e.target = r) ↔ ∃ d ∈ ds, d.target = r := by
      simp only [← mem_forTarget, hsame r]
    rw [h.get? r, h'.get? r, strategyFor, strategyFor, editsFor, editsFor, hsame r]
    simp only [hiff]
  obtain ⟨targets⟩ := patches
  obtain ⟨targets'⟩ := patches'
  exact congrArg PatchSet.mk (SortedMap.eq_of_get? h.sorted h'.sorted hget)

/-- An edit can be added exactly when it fits the strategy for its target. -/
theorem Holds.add_eq (h : patches.Holds es) (e : TargetedEdit) :
    patches.add e.target e.strategy e.edit =
      (joinStrategy e.target (strategyFor e.target es) e.strategy).map fun strategy =>
        ⟨SortedMap.insert Reference.order e.target
          { strategy, edits := editsFor e.target (es ++ [e]) } patches.targets⟩ := by
  rw [add, h.getD, editsFor_append_self]
  cases joinStrategy e.target (strategyFor e.target es) e.strategy <;> rfl

/-- One more edit keeps what a set holds. -/
theorem Holds.add {patches' : PatchSet} (h : patches.Holds es) {e : TargetedEdit}
    (hadd : patches.add e.target e.strategy e.edit = .ok patches') :
    patches'.Holds (es ++ [e]) := by
  rw [h.add_eq, map_eq_ok_iff] at hadd
  obtain ⟨strategy, hjoin, rfl⟩ := hadd
  obtain ⟨hfit, rfl⟩ := joinStrategy_eq_ok_iff.1 hjoin
  refine ⟨SortedMap.sorted_alter h.sorted, fun r => ?_, h.agree.append hfit⟩
  rw [SortedMap.get?_insert, h.get? r]
  by_cases hr : r = e.target
  · subst hr
    rw [if_pos rfl, if_pos ⟨e, by simp, rfl⟩, strategyFor_append_self]
  · have hiff : (∃ d ∈ es ++ [e], d.target = r) ↔ ∃ d ∈ es, d.target = r := by
      simp [or_and_right, exists_or, Ne.symm hr]
    rw [if_neg hr, strategyFor_append_of_ne hr, editsFor_append_of_ne hr]
    simp only [hiff]

end PatchSet

/-! ## Rendering -/

/-- The patches that a list of edits makes: one patch for each target in the order of the targets,
which is the order of their bytes, with the text that the edits for this target make and the
strategy that they ask for. -/
structure ArePatchesOf (es : List TargetedEdit) (patches : List PatchTemplate) : Prop where
  targeted : ∀ p ∈ patches, ∃ r, p.target = some r
  ascending : patches.Pairwise fun p q => ∀ r s, p.target = some r → q.target = some s →
    r.byteKey < s.byteKey
  target_iff (r : Reference) : (∃ p ∈ patches, p.target = some r) ↔ ∃ e ∈ es, e.target = r
  text : ∀ p ∈ patches, ∀ r, p.target = some r → Edit.render (editsFor r es) = .ok p.patch
  strategy : ∀ p ∈ patches, ∀ r, p.target = some r →
    ∀ s, p.strategy = some s ↔ ∃ e ∈ es, e.target = r ∧ e.strategy = some s

namespace PatchSet

theorem template_eq_ok_iff {entry : Reference × TargetEdits} {p : PatchTemplate} :
    template entry = .ok p ↔ Edit.render entry.2.edits = .ok p.patch ∧
      p.strategy = entry.2.strategy ∧ p.target = some entry.1 := by
  rw [template, map_eq_ok_iff]
  constructor
  · rintro ⟨text, htext, rfl⟩
    exact ⟨htext, rfl, rfl⟩
  · rintro ⟨htext, hstrategy, htarget⟩
    refine ⟨p.patch, htext, ?_⟩
    cases p
    simp_all

/-- Rendering keeps the targets and their order. -/
theorem map_target_render {patches : PatchSet} {ps : List PatchTemplate}
    (h : patches.render = .ok ps) :
    ps.map (·.target) = patches.targets.map fun entry => some entry.1 := by
  have hps := mapM_eq_ok_iff.1 h
  have htargets : List.Forall₂ (fun entry p => some entry.1 = PatchTemplate.target p)
      patches.targets ps :=
    hps.imp fun _ _ hp => (template_eq_ok_iff.1 hp).2.2.symm
  have heq := List.forall₂_map_left_iff.2 (List.forall₂_map_right_iff.2 htargets)
  rw [List.forall₂_eq_eq_eq] at heq
  exact heq.symm

/-- The patches of a set are the edits that it holds, grouped by target. -/
theorem Holds.arePatchesOf {patches : PatchSet} {es : List TargetedEdit} {ps : List PatchTemplate}
    (h : patches.Holds es) (hps : patches.render = .ok ps) : ArePatchesOf es ps := by
  -- each patch comes from the contents that the set has under the target of the patch
  have contents : ∀ p ∈ ps, ∀ r, p.target = some r →
      (∃ e ∈ es, e.target = r) ∧ Edit.render (editsFor r es) = .ok p.patch ∧
        p.strategy = strategyFor r es := by
    intro p hp r hr
    obtain ⟨entry, hentry, htemplate⟩ := exists_of_mem_mapM hps hp
    obtain ⟨htext, hstrategy, htarget⟩ := template_eq_ok_iff.1 htemplate
    obtain rfl : entry.1 = r := Option.some.inj (htarget.symm.trans hr)
    have hget := (h.get? entry.1).symm.trans (SortedMap.get?_of_mem h.sorted hentry)
    split at hget
    · next hex =>
      rw [← Option.some.inj hget] at htext hstrategy
      exact ⟨hex, htext, hstrategy⟩
    · exact absurd hget.symm (Option.some_ne_none _)
  refine ⟨?_, ?_, ?_, fun p hp r hr => (contents p hp r hr).2.1, ?_⟩
  · intro p hp
    obtain ⟨entry, -, htemplate⟩ := exists_of_mem_mapM hps hp
    exact ⟨entry.1, (template_eq_ok_iff.1 htemplate).2.2⟩
  · have hsorted : (patches.targets.map fun entry => some entry.1).Pairwise fun x y =>
        ∀ r s, x = some r → y = some s → r.byteKey < s.byteKey := by
      refine List.pairwise_map.2 (h.sorted.imp ?_)
      intro a b hab r s hr hs
      rw [← Option.some.inj hr, ← Option.some.inj hs]
      exact Reference.order_eq_lt_iff.1 hab
    rw [← map_target_render hps] at hsorted
    exact List.pairwise_map.1 hsorted
  · intro r
    constructor
    · rintro ⟨p, hp, hr⟩
      exact (contents p hp r hr).1
    · intro hex
      have hget := h.get? r
      rw [if_pos hex] at hget
      obtain ⟨p, hp, htemplate⟩ := exists_mem_mapM hps (SortedMap.mem_of_get? hget)
      exact ⟨p, hp, (template_eq_ok_iff.1 htemplate).2.2⟩
  · intro p hp r hr s
    rw [(contents p hp r hr).2.2]
    exact strategyFor_eq_some_iff h.agree

end PatchSet

end ClusterTuning
