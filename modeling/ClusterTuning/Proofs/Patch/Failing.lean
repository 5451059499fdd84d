import ClusterTuning.Proofs.Patch.Collecting

/-!
# Edits that fail

A patch set is rendered target by target, and the edits of a target are applied
one by one.  So the failure that comes out, if there is one, is that of the first
edit to fail among those for the first target that has such an edit; where this
edit stood among the edits for other targets does not matter.

* `Edit.applyAll_eq_error_iff` — the failure of a list of edits;
* `PatchSet.Holds.render_eq_error_iff` — the failure of a patch set.
-/

namespace ClusterTuning

open Yaml TargetedEdit

namespace Edit

variable {edits : List Edit} {e : Failure}

theorem applyAll_singleton (v : Value) (edit : Edit) : applyAll v [edit] = apply v edit := by
  rw [applyAll]
  rcases apply v edit with ⟨document, _ | _⟩ <;> rfl

theorem applyAll_append (v : Value) (before after : List Edit) :
    applyAll v (before ++ after) = match applyAll v before with
      | (document, .ok ()) => applyAll document after
      | (document, .error failure) => (document, .error failure) := by
  induction before generalizing v with
  | nil => rfl
  | cons first rest ih =>
    rw [List.cons_append, applyAll, applyAll]
    rcases apply v first with ⟨document, _ | _⟩
    · rfl
    · exact ih document

theorem applyAll_eq_error_iff {v : Value} :
    (applyAll v edits).2 = .error e ↔ ∃ before edit after document,
      edits = before ++ edit :: after ∧ applyAll v before = (document, .ok ()) ∧
        (apply document edit).2 = .error e := by
  constructor
  · intro h
    induction edits generalizing v with
    | nil => exact nomatch h
    | cons first rest ih =>
      rw [applyAll] at h
      split at h
      · next document hfirst =>
        obtain ⟨before, edit, after, document', rfl, hbefore, hedit⟩ := ih h
        refine ⟨first :: before, edit, after, document', rfl, ?_, hedit⟩
        rw [applyAll, hfirst]
        exact hbefore
      · next document failure hfirst =>
        exact ⟨[], first, rest, v, rfl, rfl, by rw [hfirst]; exact h⟩
  · rintro ⟨before, edit, after, document, rfl, hbefore, hedit⟩
    rw [applyAll_append, hbefore]
    rcases hrun : apply document edit with ⟨document', _ | _⟩
    · rw [hrun] at hedit
      simp only [applyAll, hrun]
      exact hedit
    · rw [hrun] at hedit
      exact nomatch hedit

/-- Whether every document that some edits make can be written. -/
def Writes (edits : List Edit) : Prop :=
  ∀ document, applyAll (.mapping []) edits = (document, .ok ()) →
    ∃ text, document.write = .ok text

/-- Where documents can be written, a patch fails with its edits. -/
theorem render_eq_error_iff (h : Writes edits) :
    render edits = .error e ↔ (applyAll (.mapping []) edits).2 = .error e := by
  unfold render
  split
  · next failure happly => simp [happly]
  · next document happly =>
    obtain ⟨text, htext⟩ := h document happly
    rw [happly, htext]
    exact ⟨nofun, nofun⟩

end Edit

/-- The first edit that fails among those for a target, and its failure: the edits for this target
that come before it make a document, on which it fails. -/
def TargetedEdit.FailsFor (r : Reference) (es : List TargetedEdit) (e : Failure) : Prop :=
  ∃ before edit after document, editsFor r es = before ++ edit :: after ∧
    Edit.applyAll (.mapping []) before = (document, .ok ()) ∧
      (Edit.apply document edit).2 = .error e

namespace PatchSet

variable {patches : PatchSet} {es : List TargetedEdit} {e : Failure}

theorem Holds.mem_targets_iff (h : patches.Holds es) {r : Reference} {contents : TargetEdits} :
    (r, contents) ∈ patches.targets ↔ (∃ d ∈ es, d.target = r) ∧
      contents = { strategy := strategyFor r es, edits := editsFor r es } := by
  constructor
  · intro hmem
    have hget := (h.get? r).symm.trans (SortedMap.get?_of_mem h.sorted hmem)
    split at hget
    · next hex => exact ⟨hex, (Option.some.inj hget).symm⟩
    · exact absurd hget.symm (Option.some_ne_none _)
  · rintro ⟨hex, rfl⟩
    have hget := h.get? r
    rw [if_pos hex] at hget
    exact SortedMap.mem_of_get? hget

/-- A target for which an edit fails is one of those of the set. -/
theorem Holds.exists_contents (h : patches.Holds es) {r : Reference} (hfails : FailsFor r es e) :
    ∃ contents, (r, contents) ∈ patches.targets := by
  obtain ⟨before, edit, after, -, hedits, -⟩ := hfails
  have hmem : edit ∈ editsFor r es := by
    rw [hedits]
    exact List.mem_append_right _ List.mem_cons_self
  obtain ⟨d, hd, -⟩ := List.mem_map.1 hmem
  exact ⟨_, h.mem_targets_iff.2 ⟨⟨d, mem_forTarget.1 hd⟩, rfl⟩⟩

theorem template_eq_error_iff (h : patches.Holds es) (hwrite : ∀ r, Edit.Writes (editsFor r es))
    {entry : Reference × TargetEdits} (hmem : entry ∈ patches.targets) :
    template entry = .error e ↔ FailsFor entry.1 es e := by
  obtain ⟨-, hcontents⟩ := h.mem_targets_iff.1 hmem
  rw [template, map_eq_error_iff, hcontents, Edit.render_eq_error_iff (hwrite entry.1),
    Edit.applyAll_eq_error_iff, FailsFor]

/-- A set whose patches can be made has no target for which an edit fails. -/
theorem Holds.not_failsFor (h : patches.Holds es) (hwrite : ∀ r, Edit.Writes (editsFor r es))
    {ps : List PatchTemplate} (hrender : patches.render = .ok ps) (r : Reference) :
    ¬ FailsFor r es e := by
  intro hfails
  obtain ⟨contents, hmem⟩ := h.exists_contents hfails
  obtain ⟨p, -, hp⟩ := exists_mem_mapM hrender hmem
  rw [(template_eq_error_iff h hwrite hmem).2 hfails] at hp
  exact nomatch hp

/-- **The failure of a patch set** is that of the smallest target for which an edit fails. -/
theorem Holds.render_eq_error_iff (h : patches.Holds es)
    (hwrite : ∀ r, Edit.Writes (editsFor r es)) :
    patches.render = .error e ↔ ∃ r, FailsFor r es e ∧
      ∀ r' e', FailsFor r' es e' → r' = r ∨ r.byteKey < r'.byteKey := by
  rw [render, mapM_eq_error_iff]
  constructor
  · rintro ⟨before, entry, after, htargets, hbefore, hentry⟩
    have hmem : ∀ d, d ∈ patches.targets ↔ d ∈ before ∨ d = entry ∨ d ∈ after := by
      simp [htargets]
    refine ⟨entry.1, (template_eq_error_iff h hwrite ((hmem _).2 (by simp))).1 hentry, ?_⟩
    intro r' e' hfails
    obtain ⟨contents, hcontents⟩ := h.exists_contents hfails
    rcases (hmem _).1 hcontents with hr' | hr' | hr'
    · obtain ⟨p, hp⟩ := hbefore _ hr'
      rw [(template_eq_error_iff h hwrite hcontents).2 hfails] at hp
      exact nomatch hp
    · exact .inl (congrArg Prod.fst hr')
    · have hsorted := h.sorted
      rw [htargets] at hsorted
      have hafter := (List.pairwise_append.1 hsorted).2.1
      have hgreater := (List.pairwise_cons.1 hafter).1 (r', contents) hr'
      exact .inr (Reference.order_eq_lt_iff.1 hgreater)
  · rintro ⟨r, hfails, hleast⟩
    obtain ⟨contents, hmem⟩ := h.exists_contents hfails
    obtain ⟨before, after, htargets⟩ := List.append_of_mem hmem
    have hfirst : template (r, contents) = .error e :=
      (template_eq_error_iff h hwrite hmem).2 hfails
    refine ⟨before, (r, contents), after, htargets, fun d hd => ?_, hfirst⟩
    have hdmem : d ∈ patches.targets := by
      rw [htargets]
      exact List.mem_append_left _ hd
    cases htemplate : template d with
    | ok p => exact ⟨p, rfl⟩
    | error e' =>
      have hsorted := h.sorted
      rw [htargets] at hsorted
      have hless := (List.pairwise_append.1 hsorted).2.2 d hd (r, contents) List.mem_cons_self
      rcases hleast d.1 e' ((template_eq_error_iff h hwrite hdmem).1 htemplate) with heq | hgt
      · have hself : Reference.order r r = .eq := Std.ReflCmp.compare_self
        rw [heq, hself] at hless
        exact nomatch hless
      · have hgt := Reference.order_eq_lt_iff.2 hgt
        rw [Std.OrientedCmp.gt_of_lt hless] at hgt
        exact nomatch hgt

end PatchSet

end ClusterTuning
