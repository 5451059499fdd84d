import ClusterTuning.Proofs.Generation.Failing
import ClusterTuning.Proofs.Naming.Words

/-!
# The order of unrelated selections

A pass goes through the selections in their order, but little of this order shows
in its result.  Names are computed from how often each resource is selected,
patches are kept in the order of their targets, and a clash of strategies is
found wherever the two selections stand.  Only selections that patch the same
target have to stay in their order.

* `Generation.exists_foldlM_iff` — when a pass goes through, said without its order;
* `Generation.patches_eq_of_rearranged` — patches see the order for each target only;
* `Generator.generate_of_rearranged` — the statement for whole passes.
-/

namespace ClusterTuning

open TargetedEdit

/-! ## Rearranged selections -/

namespace Selection

/-- Whether a selection edits the patch of a target. -/
def patches (r : Reference) (s : Selection) : Bool :=
  s.patch.any fun p => p.target = r

/-- The changes that a selection makes to an experiment never fail. -/
def AlwaysUpdates (s : Selection) : Prop :=
  ∀ e, ∃ e', s.update e = .ok e'

/-- One list of selections is another one in a different order, in which the selections that patch
one target follow each other as before. -/
structure Rearranged (ss ts : List Selection) : Prop where
  perm : ss.Perm ts
  patching (r : Reference) : ss.filter (patches r) = ts.filter (patches r)

theorem Rearranged.symm {ss ts : List Selection} (h : Rearranged ss ts) : Rearranged ts ss :=
  ⟨h.perm.symm, fun r => (h.patching r).symm⟩

variable {ss ts : List Selection} {s : Selection} {namer : Namer} {es : List TargetedEdit}

/-- Names do not see the order of the selections. -/
theorem Rearranged.ofSelections_eq (h : Rearranged ss ts) :
    Namer.ofSelections ss = Namer.ofSelections ts :=
  Namer.ofTargets_eq_of_perm (h.perm.filterMap _)

/-! ## What a list of selections contributes -/

theorem gather_cons_eq_ok_iff {α : Type} {contribution : Selection → Except Failure (List α)}
    {xs : List α} :
    gather contribution (s :: ss) = .ok xs ↔
      ∃ ys zs, contribution s = .ok ys ∧ gather contribution ss = .ok zs ∧ ys ++ zs = xs := by
  simp only [gather, map_eq_ok_iff, List.mapM_cons, bind_eq_ok_iff, pure, Except.pure]
  constructor
  · rintro ⟨_, ⟨ys, hys, zss, hzss, hok⟩, rfl⟩
    obtain rfl := Except.ok.inj hok
    exact ⟨ys, zss.flatten, hys, ⟨zss, hzss, rfl⟩, rfl⟩
  · rintro ⟨ys, _, hys, ⟨zss, hzss, rfl⟩, rfl⟩
    exact ⟨ys :: zss, ⟨ys, hys, zss, hzss, rfl⟩, rfl⟩

theorem gather_congr {α : Type} {f g : Selection → Except Failure (List α)}
    (h : ∀ s ∈ ss, f s = g s) : gather f ss = gather g ss := by
  have hmapM : ss.mapM f = ss.mapM g := by
    induction ss with
    | nil => rfl
    | cons s ss ih =>
      obtain ⟨hs, hss⟩ := List.forall_mem_cons.1 h
      rw [List.mapM_cons, List.mapM_cons, hs, ih hss]
  rw [gather, gather, hmapM]

/-- What a selection contributes in one respect, which is nothing where it fails. -/
def share {α : Type} (contribution : Selection → Except Failure (List α)) (s : Selection) :
    List α :=
  match contribution s with
  | .ok xs => xs
  | .error _ => []

theorem share_of_ok {α : Type} {contribution : Selection → Except Failure (List α)} {xs : List α}
    (h : contribution s = .ok xs) : share contribution s = xs := by
  rw [share, h]

/-- What some selections contribute is put together from the share of each of them. -/
theorem gather_eq_ok_iff {α : Type} {contribution : Selection → Except Failure (List α)}
    {xs : List α} :
    gather contribution ss = .ok xs ↔
      (∀ s ∈ ss, contribution s = .ok (share contribution s)) ∧
        ss.flatMap (share contribution) = xs := by
  induction ss generalizing xs with
  | nil => simp [gather, Except.map, pure, Except.pure]
  | cons s ss ih =>
    simp only [gather_cons_eq_ok_iff, ih, List.forall_mem_cons, List.flatMap_cons]
    constructor
    · rintro ⟨ys, _, hys, ⟨hss, rfl⟩, rfl⟩
      rw [share_of_ok hys]
      exact ⟨⟨hys, hss⟩, rfl⟩
    · rintro ⟨⟨hs, hss⟩, rfl⟩
      exact ⟨_, _, hs, ⟨hss, rfl⟩, rfl⟩

/-- A selection edits one target at most. -/
theorem forTarget_editList (h : s.editList namer = .ok es) (r : Reference) :
    forTarget r es = if s.patches r then es else [] := by
  unfold editList at h
  unfold patches
  cases hpatch : s.patch with
  | none =>
    rw [hpatch] at h
    obtain rfl := Except.ok.inj h
    rfl
  | some p =>
    rw [hpatch] at h
    obtain ⟨edit, -, rfl⟩ := map_eq_ok_iff.1 h
    by_cases hr : p.target = r <;> simp [forTarget, hr]

/-- The edits for a target come from the selections that patch it. -/
theorem forTarget_gather (h : gather (editList namer) ss = .ok es) (r : Reference) :
    gather (editList namer) (ss.filter (patches r)) = .ok (forTarget r es) := by
  -- both filters drop the same selections, since one selection has edits for one target only
  induction ss generalizing es with
  | nil =>
    obtain rfl := Except.ok.inj h
    rfl
  | cons s ss ih =>
    obtain ⟨ds, es, hds, hes, rfl⟩ := gather_cons_eq_ok_iff.1 h
    rw [forTarget, List.filter_append, ← forTarget, ← forTarget, forTarget_editList hds,
      List.filter_cons]
    by_cases hr : s.patches r
    · rw [if_pos hr, if_pos hr]
      exact gather_cons_eq_ok_iff.2 ⟨ds, _, hds, ih hes, rfl⟩
    · rw [if_neg hr, if_neg hr, List.nil_append]
      exact ih hes

/-- A selection fails in no respect. -/
structure Contributes (namer : Namer) (s : Selection) : Prop where
  parameters : ∃ ps, s.parameterList namer = .ok ps
  edits : ∃ es, s.editList namer = .ok es
  metrics : ∃ ms, s.metricList = .ok ms
  documents : ∃ ds, s.documentList = .ok ds

theorem Disagree.of_perm (hperm : ss.Perm ts) (h : Disagree ss) : Disagree ts := by
  obtain ⟨s, hs, t, ht, hstrategies⟩ := h
  exact ⟨s, hperm.mem_iff.1 hs, t, hperm.mem_iff.1 ht, hstrategies⟩

end Selection

namespace Generation

open Selection

/-! ## Passes -/

variable {ss ts : List Selection} {namer : Namer} {c d : Collected}

/-- **When a pass goes through**: no selection fails, and no two of them ask for different
strategies at one target. -/
theorem exists_foldlM_iff (hs : ∀ s ∈ ss, s.LeavesLists ∧ s.AlwaysUpdates) :
    (∃ c, ss.foldlM (absorb namer) {} = .ok c) ↔
      (∀ s ∈ ss, s.Contributes namer) ∧ ¬ Disagree ss := by
  constructor
  · rintro ⟨c, hfold⟩
    have hc := gathered_foldlM (fun s h => (hs s h).1) hfold
    obtain ⟨es, hes, hholds⟩ := hc.edits
    refine ⟨?_, not_disagree hes hholds.agree⟩
    intro s hmem
    constructor
    · exact ⟨_, (gather_eq_ok_iff.1 hc.parameters).1 s hmem⟩
    · exact ⟨_, (gather_eq_ok_iff.1 hes).1 s hmem⟩
    · exact ⟨_, (gather_eq_ok_iff.1 hc.metrics).1 s hmem⟩
    · exact ⟨_, (gather_eq_ok_iff.1 hc.documents).1 s hmem⟩
  · rintro ⟨hcontributes, hagree⟩
    cases hfold : ss.foldlM (absorb namer) {} with
    | ok c => exact ⟨c, rfl⟩
    | error e =>
      obtain ⟨⟨i, stage⟩, hfirst⟩ := exists_failsFirst hfold
      obtain ⟨s, hget, hfails⟩ := hfirst.fails
      have hmem : s ∈ ss := List.mem_of_getElem? hget
      have hcontributes := hcontributes s hmem
      exfalso
      -- only a clash depends on where the selection stands, and a clash needs two that disagree
      cases stage with
      | experiment =>
        obtain ⟨left, -, hupdate⟩ := hfails
        obtain ⟨after, hafter⟩ := (hs s hmem).2 left
        exact nomatch hafter.symm.trans hupdate
      | parameters =>
        obtain ⟨ps, hps⟩ := hcontributes.parameters
        exact nomatch hps.symm.trans hfails
      | patch =>
        obtain ⟨es, hes⟩ := hcontributes.edits
        exact nomatch hes.symm.trans hfails
      | strategy =>
        obtain ⟨r, existing, requested, -, hclashes⟩ := hfirst.clashes
        exact hagree hclashes.disagree
      | metrics =>
        obtain ⟨ms, hms⟩ := hcontributes.metrics
        exact nomatch hms.symm.trans hfails
      | documents =>
        obtain ⟨ds, hds⟩ := hcontributes.documents
        exact nomatch hds.symm.trans hfails

/-- A pass over rearranged selections goes through, too. -/
theorem exists_foldlM_of_rearranged (h : Rearranged ss ts)
    (hs : ∀ s ∈ ss, s.LeavesLists ∧ s.AlwaysUpdates)
    (hfold : ss.foldlM (absorb namer) {} = .ok c) : ∃ d, ts.foldlM (absorb namer) {} = .ok d := by
  obtain ⟨hcontributes, hagree⟩ := (exists_foldlM_iff hs).1 ⟨c, hfold⟩
  have hmem : ∀ {s}, s ∈ ts → s ∈ ss := h.perm.mem_iff.2
  apply (exists_foldlM_iff fun s ht => hs s (hmem ht)).2
  constructor
  · intro s ht
    exact hcontributes s (hmem ht)
  · intro hdisagree
    exact hagree (hdisagree.of_perm h.perm.symm)

/-- The patches of a pass do not show the order of selections for different targets. -/
theorem patches_eq_of_rearranged (h : Rearranged ss ts) (hc : Reached namer ss c)
    (hd : Reached namer ts d) : c.patches = d.patches := by
  obtain ⟨es, hes, hholds⟩ := hc.edits
  obtain ⟨ds, hds, hholds'⟩ := hd.edits
  have hforTarget : ∀ r, forTarget r es = forTarget r ds := by
    intro r
    have hfirst := forTarget_gather hes r
    rw [h.patching r, forTarget_gather hds r] at hfirst
    exact (Except.ok.inj hfirst).symm
  exact hholds.eq_of_forTarget hholds' hforTarget

/-! ## Results -/

theorem exists_finish_iff {defaultName : String} :
    (∃ g, finish defaultName c = .ok g) ↔ ∃ ps, c.patches.render = .ok ps := by
  constructor
  · rintro ⟨g, hfinish⟩
    obtain ⟨ps, hrender, -⟩ := bind_eq_ok_iff.1 hfinish
    exact ⟨ps, hrender⟩
  · rintro ⟨ps, hrender⟩
    exact ⟨_, bind_eq_ok_iff.2 ⟨ps, hrender, rfl⟩⟩

theorem Gathered.render {defaultName : String} {g : Generation} (h : Gathered namer ss c)
    (hfinish : finish defaultName c = .ok g) : c.patches.render = .ok g.experiment.patches := by
  obtain ⟨ps, hrender, hg⟩ := bind_eq_ok_iff.1 hfinish
  obtain rfl := Except.ok.inj hg
  rw [hrender, h.noPatches, List.nil_append, nameIfNone_eq]
  rfl

/-- Two lists are put together from the same shares: one for each selection, which it contributes
in both cases, in the order of the selections of either case. -/
def SameShares {α : Type} (f g : Selection → Except Failure (List α)) (ss ts : List Selection)
    (xs ys : List α) : Prop :=
  ∃ part : Selection → List α, (∀ s ∈ ss, f s = .ok (part s) ∧ g s = .ok (part s)) ∧
    xs = ss.flatMap part ∧ ys = ts.flatMap part

theorem sameShares_of_gather {α : Type} {f g : Selection → Except Failure (List α)} {xs ys : List α}
    (hperm : ss.Perm ts) (hsame : ∀ s ∈ ss, f s = g s) (hxs : gather f ss = .ok xs)
    (hys : gather g ts = .ok ys) : SameShares f g ss ts xs ys := by
  have hgather : gather f ts = gather g ts := by
    apply gather_congr
    intro s ht
    exact hsame s (hperm.mem_iff.2 ht)
  rw [← hgather] at hys
  obtain ⟨hshare, rfl⟩ := gather_eq_ok_iff.1 hxs
  obtain ⟨-, rfl⟩ := gather_eq_ok_iff.1 hys
  refine ⟨share f, ?_, rfl, rfl⟩
  intro s hmem
  have hs := hshare s hmem
  exact ⟨hs, (hsame s hmem).symm.trans hs⟩

end Generation

namespace Generator

open Generation Selection

variable {ss ts : List Selection}

/-- A generation goes through for rearranged selections, too. -/
theorem exists_generate_of_rearranged {g : Generator} {seconds seconds' : Binary64}
    {counters counters' : Counters} (h : Rearranged ss ts)
    (hs : ∀ s ∈ ss, s.LeavesLists ∧ s.AlwaysUpdates)
    (hx : ∃ x, ((g.generate seconds ss).run counters).1 = .ok x) :
    ∃ y, ((g.generate seconds' ts).run counters').1 = .ok y := by
  obtain ⟨x, hx⟩ := hx
  obtain ⟨c, hc, hfinish⟩ := generate_eq_ok_iff.1 hx
  rw [h.ofSelections_eq] at hc
  obtain ⟨d, hd⟩ := exists_foldlM_of_rearranged h hs hc
  have hpatches : c.patches = d.patches :=
    patches_eq_of_rearranged h (reached_foldlM hc) (reached_foldlM hd)
  obtain ⟨ps, hrender⟩ := exists_finish_iff.1 ⟨x, hfinish⟩
  obtain ⟨y, hy⟩ := exists_finish_iff.2 ⟨ps, hpatches ▸ hrender⟩
  exact ⟨y, generate_eq_ok_iff.2 ⟨d, hd, hy⟩⟩

/-- **The order of unrelated selections does not matter.**  Let selections be put into another
order in which those that patch one target follow each other as before, and let their changes of
the experiment never fail and leave its lists alone.  Then a generation goes through for both
orders or for none.  Names are the same, patches are the same, and every selection contributes the
same parameters, metrics and documents, which stand in the order of the selections. -/
theorem generate_of_rearranged (g : Generator) (seconds seconds' : Binary64)
    (counters counters' : Counters) (h : Rearranged ss ts)
    (hs : ∀ s ∈ ss, s.LeavesLists ∧ s.AlwaysUpdates) :
    ((∃ x, ((g.generate seconds ss).run counters).1 = .ok x) ↔
      ∃ y, ((g.generate seconds' ts).run counters').1 = .ok y) ∧
    Namer.ofSelections ss = Namer.ofSelections ts ∧
    ∀ x y, ((g.generate seconds ss).run counters).1 = .ok x →
      ((g.generate seconds' ts).run counters').1 = .ok y →
      x.experiment.patches = y.experiment.patches ∧
      SameShares (parameterList (Namer.ofSelections ss)) (parameterList (Namer.ofSelections ts))
        ss ts x.experiment.parameters y.experiment.parameters ∧
      SameShares metricList metricList ss ts x.experiment.metrics y.experiment.metrics ∧
      SameShares documentList documentList ss ts x.documents y.documents := by
  have hs' : ∀ s ∈ ts, s.LeavesLists ∧ s.AlwaysUpdates := fun s ht => hs s (h.perm.mem_iff.2 ht)
  have hnamer := h.ofSelections_eq
  refine ⟨⟨exists_generate_of_rearranged h hs, exists_generate_of_rearranged h.symm hs'⟩, hnamer,
    ?_⟩
  intro x y hx hy
  obtain ⟨c, hc, hfinish⟩ := generate_eq_ok_iff.1 hx
  obtain ⟨d, hd, hfinish'⟩ := generate_eq_ok_iff.1 hy
  have hcs := gathered_foldlM (fun s h => (hs s h).1) hc
  have hds := gathered_foldlM (fun s h => (hs' s h).1) hd
  have hpatches : c.patches = d.patches :=
    patches_eq_of_rearranged h (reached_foldlM hc) (hnamer ▸ reached_foldlM hd)
  have hrender := hcs.render hfinish
  rw [hpatches, hds.render hfinish'] at hrender
  have hx := hcs.isGrouping hfinish
  have hy := hds.isGrouping hfinish'
  refine ⟨(Except.ok.inj hrender).symm, ?_, ?_, ?_⟩
  · exact sameShares_of_gather h.perm (fun _ _ => by rw [hnamer]) hx.parameters hy.parameters
  · exact sameShares_of_gather h.perm (fun _ _ => rfl) hx.metrics hy.metrics
  · exact sameShares_of_gather h.perm (fun _ _ => rfl) hx.documents hy.documents

/-- The replicas of a workload. -/
def sampleReplicas : Selection :=
  TunedField.replicas { target := sampleWorkload, path := ["spec", "replicas"] }

/-- Another edit of the same workload. -/
def samplePausing : Selection :=
  { patch := some {
      target := sampleWorkload
      strategy := some .merge
      edit := fun _ => .ok (.set [.field "paused"] (.bool true)) } }

/-- An edit of another resource, which goes with a document. -/
def sampleData : Selection :=
  { patch := some {
      target := sampleConfiguration
      edit := fun _ => .ok (.set [.field "data"] (.mapping [])) }
    documents := some (.ok [.null]) }

/-- A scenario, which changes the trial. -/
def sampleScenario : Selection :=
  ({ image := some "load:1" } : CustomScenario).selection []

/-- Replicas and pausing are edits of one workload, so they stay in order. -/
theorem rearranged_sample :
    Rearranged [sampleReplicas, samplePausing, sampleData, sampleScenario]
      [sampleData, sampleScenario, sampleReplicas, samplePausing] where
  perm :=
    show ([sampleReplicas, samplePausing] ++ [sampleData, sampleScenario]).Perm
      ([sampleData, sampleScenario] ++ [sampleReplicas, samplePausing]) from List.perm_append_comm
  patching r := by
    have hdiffer : sampleConfiguration ≠ sampleWorkload := by decide
    by_cases hworkload : sampleWorkload = r
    · subst hworkload
      simp [patches, sampleReplicas, samplePausing, sampleData, sampleScenario, TunedField.replicas,
        CustomScenario.selection, hdiffer]
    · simp [patches, sampleReplicas, samplePausing, sampleData, sampleScenario, TunedField.replicas,
        CustomScenario.selection, hworkload, List.filter_cons]

theorem generate_of_rearranged_sample :
    Rearranged [sampleReplicas, samplePausing, sampleData, sampleScenario]
      [sampleData, sampleScenario, sampleReplicas, samplePausing] ∧
    (∀ s ∈ [sampleReplicas, samplePausing, sampleData, sampleScenario],
      s.LeavesLists ∧ s.AlwaysUpdates) ∧
    ∃ x y, ((Generator.generate {} .nan
        [sampleReplicas, samplePausing, sampleData, sampleScenario]).run {}).1 = .ok x ∧
      ((Generator.generate {} .nan
        [sampleData, sampleScenario, sampleReplicas, samplePausing]).run {}).1 = .ok y ∧
      x.experiment.patches.map (·.patch) =
        ["data: \x7b\x7d\n",
          "spec:\n  replicas: \x7b\x7b .Values.deployment_replicas \x7d\x7d\npaused: true\n"] ∧
      x.experiment.patches = y.experiment.patches := by
  have hs : ∀ s ∈ [sampleReplicas, samplePausing, sampleData, sampleScenario],
      s.LeavesLists ∧ s.AlwaysUpdates := by
    simp only [List.forall_mem_cons]
    exact ⟨⟨leavesLists_of_none rfl, fun e => ⟨e, rfl⟩⟩,
      ⟨leavesLists_of_none rfl, fun e => ⟨e, rfl⟩⟩, ⟨leavesLists_of_none rfl, fun e => ⟨e, rfl⟩⟩,
      ⟨CustomScenario.leavesLists _ _, fun e => ⟨_, rfl⟩⟩, fun _ h => absurd h List.not_mem_nil⟩
  obtain ⟨hiff, -, hsame⟩ := generate_of_rearranged {} .nan .nan {} {} rearranged_sample hs
  obtain ⟨y, hy⟩ := hiff.1 ⟨_, by rfl⟩
  exact ⟨rearranged_sample, hs, _, y, by rfl, hy, by rfl, (hsame _ y (by rfl) hy).1⟩

end Generator

end ClusterTuning
