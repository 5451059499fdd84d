import ClusterTuning.Generation
import ClusterTuning.Proofs.Patch.Collecting

/-!
# What a selection contributes

A pass counts while it collects, but what it collects does not depend on what was
counted before.  So its result can be computed without counters, selection by
selection, from what each of them contributes.  What it counts is added to what
was counted before, contribution by contribution, each of them when it was taken.

* `Generation.Takes` — a stage of a pass, its result and its tally;
* `Generation.gives_take` — one selection, `Generation.absorb`;
* `Generation.gives_collect`, `Generation.gives_generate` — a whole pass.
-/

namespace ClusterTuning

open Yaml

/-! ## Contributions -/

namespace Selection

/-- The experiment after the changes of a selection. -/
def update (s : Selection) (e : Experiment) : Except Failure Experiment :=
  match s.experiment with
  | none => .ok e
  | some change => change e

/-- The parameters of a selection. -/
def parameterList (namer : Namer) (s : Selection) : Except Failure (List Parameter) :=
  match s.parameters with
  | none => .ok []
  | some parameters => parameters namer

/-- The edits of a selection: one, or none. -/
def editList (namer : Namer) (s : Selection) : Except Failure (List TargetedEdit) :=
  match s.patch with
  | none => .ok []
  | some patch => (patch.edit namer).map fun edit =>
      [{ target := patch.target, strategy := patch.strategy, edit }]

/-- The metrics of a selection. -/
def metricList (s : Selection) : Except Failure (List Metric) :=
  s.metrics.getD (.ok [])

/-- The documents of a selection. -/
def documentList (s : Selection) : Except Failure (List Value) :=
  s.documents.getD (.ok [])

/-- The number of contributions that a selection makes by a capability: a change of the experiment
and an edit count as one, lists by their length. -/
def amount (namer : Namer) (s : Selection) : Capability → Nat
  | .experiment => if s.experiment.isSome then 1 else 0
  | .parameter => ((s.parameterList namer).map List.length).toOption.getD 0
  | .patch => if s.patch.isSome then 1 else 0
  | .metric => (s.metricList.map List.length).toOption.getD 0
  | .resource => (s.documentList.map List.length).toOption.getD 0

/-- What several selections contribute, one after the other. -/
def gather {α : Type} (contribution : Selection → Except Failure (List α)) (ss : List Selection) :
    Except Failure (List α) :=
  (ss.mapM contribution).map List.flatten

theorem gather_append_singleton {α : Type} {contribution : Selection → Except Failure (List α)}
    {ss : List Selection} {s : Selection} {xs ys : List α}
    (hss : gather contribution ss = .ok xs) (hs : contribution s = .ok ys) :
    gather contribution (ss ++ [s]) = .ok (xs ++ ys) := by
  obtain ⟨xss, hxss, rfl⟩ := map_eq_ok_iff.1 hss
  refine map_eq_ok_iff.2 ⟨xss ++ [ys], ?_, by simp⟩
  rw [List.mapM_append, hxss, List.mapM_cons, List.mapM_nil, hs]
  rfl

end Selection

/-- Adds edits one by one. -/
def PatchSet.addAll (patches : PatchSet) (es : List TargetedEdit) : Except Failure PatchSet :=
  es.foldlM (fun ps e => ps.add e.target e.strategy e.edit) patches

theorem PatchSet.addAll_singleton (patches : PatchSet) (e : TargetedEdit) :
    patches.addAll [e] = patches.add e.target e.strategy e.edit := by
  rw [addAll, List.foldlM_cons]
  cases patches.add e.target e.strategy e.edit <;> rfl

theorem PatchSet.Holds.addAll {patches patches' : PatchSet} {es ds : List TargetedEdit}
    (h : patches.Holds es) (hadd : patches.addAll ds = .ok patches') :
    patches'.Holds (es ++ ds) := by
  induction ds generalizing patches es with
  | nil =>
    obtain rfl := Except.ok.inj hadd
    rwa [List.append_nil]
  | cons d ds ih =>
    obtain ⟨between, hd, hds⟩ := bind_eq_ok_iff.1 hadd
    have := ih (h.add hd) hds
    rwa [List.append_assoc, List.singleton_append] at this

/-! ## Counters with more contributions -/

/-- The counters after some contributions. -/
def Counters.plus (c : Counters) (amount : Capability → Nat) : Counters :=
  { c with contributions := fun k => c.contributions k + amount k }

/-- A number of contributions by one capability. -/
def Capability.times (capability : Capability) (n : Nat) (k : Capability) : Nat :=
  if k = capability then n else 0

theorem Counters.plus_plus (c : Counters) (amount amount' : Capability → Nat) :
    (c.plus amount).plus amount' = c.plus fun k => amount k + amount' k := by
  simp only [plus, Nat.add_assoc]

theorem Counters.contribute_eq_plus (c : Counters) (capability : Capability) (n : Nat) :
    c.contribute capability n = c.plus (capability.times n) := by
  unfold contribute plus Capability.times
  congr 1
  funext k
  split <;> rfl

namespace Generation

open Capability

/-! ## The result of a pass -/

variable {α β : Type}

/-- Two passes one after the other: the second one goes on from what the first one counted. -/
theorem run_bind (p : Pass α) (f : α → Pass β) (counters : Counters) :
    (p >>= f).run counters = match p.run counters with
      | (.ok a, after) => (f a).run after
      | (.error e, after) => (.error e, after) := by
  unfold ExceptT.run
  simp only [bind, ExceptT.bind, ExceptT.mk, StateT.bind, ExceptT.bindCont]
  cases p counters with
  | mk result after => cases result <;> rfl

/-- A pass gives a result, whatever was counted before. -/
def Gives (p : Pass α) (r : Except Failure α) : Prop :=
  ∀ counters, (p.run counters).1 = r

theorem gives_pure (a : α) : Gives (pure a) (.ok a) :=
  fun _ => rfl

theorem gives_mk (r : Except Failure α) : Gives (ExceptT.mk (pure r)) r :=
  fun _ => rfl

theorem Gives.bind {p : Pass α} {r : Except Failure α} {f : α → Pass β} {g : α → Except Failure β}
    (hp : Gives p r) (hf : ∀ a, Gives (f a) (g a)) : Gives (p >>= f) (r >>= g) := by
  intro counters
  have hr := hp counters
  rw [run_bind]
  cases hrun : p.run counters with
  | mk result after =>
    rw [hrun] at hr
    subst hr
    cases result with
    | ok a => exact hf a after
    | error e => rfl

theorem Gives.foldlM {f : β → α → Pass β} {g : β → α → Except Failure β}
    (h : ∀ b a, Gives (f b a) (g b a)) (xs : List α) (b : β) :
    Gives (xs.foldlM f b) (xs.foldlM g b) := by
  induction xs generalizing b with
  | nil => exact gives_pure b
  | cons x xs ih =>
    rw [List.foldlM_cons, List.foldlM_cons]
    exact (h b x).bind ih

/-! ## The tally of a pass -/

variable {p : Pass α} {f : α → Pass β} {a : α} {e : Failure}
  {amount amount' : Capability → Nat}

/-- A pass adds some contributions to what was counted before, and counts nothing else. -/
def Tallies (p : Pass α) (amount : Capability → Nat) : Prop :=
  ∀ counters, (p.run counters).2 = counters.plus amount

theorem Tallies.congr (h : Tallies p amount) (heq : ∀ k, amount k = amount' k) :
    Tallies p amount' := by
  rwa [← funext heq]

theorem tallies_pure (a : α) : Tallies (pure a) fun _ => 0 :=
  fun _ => rfl

/-- The tally of two passes, of which the first one succeeds. -/
theorem Tallies.bind (hgives : Gives p (.ok a)) (hp : Tallies p amount)
    (hf : Tallies (f a) amount') : Tallies (p >>= f) fun k => amount k + amount' k := by
  intro counters
  have hresult := hgives counters
  have hafter := hp counters
  rw [run_bind, ← Counters.plus_plus, ← hafter]
  cases hrun : p.run counters with
  | mk result after =>
    rw [hrun] at hresult
    obtain rfl : result = .ok a := hresult
    exact hf after

/-- What comes after a failure is not counted. -/
theorem Tallies.stop (hgives : Gives p (.error e)) (hp : Tallies p amount) :
    Tallies (p >>= f) amount := by
  intro counters
  have hresult := hgives counters
  rw [run_bind, ← hp counters]
  cases hrun : p.run counters with
  | mk result after =>
    rw [hrun] at hresult
    obtain rfl : result = .error e := hresult
    rfl

/-! ## One stage -/

/-- A pass takes a contribution: it counts the contribution when it succeeds, and nothing when it
fails. -/
structure Takes (p : Pass α) (r : Except Failure α) (capability : Capability) (n : Nat) : Prop where
  gives : Gives p r
  taken : ∀ a, r = .ok a → Tallies p (capability.times n)
  refused : ∀ e, r = .error e → Tallies p fun _ => 0

/-- What comes in is counted by its size and then used. -/
theorem takes_counted (r : Except Failure β) (capability : Capability) (size : β → Nat)
    (use : β → α) {n : Nat} (hn : ∀ b, r = .ok b → n = size b) : Takes (do
      let b ← ExceptT.mk (pure r)
      count capability (size b)
      pure (use b)) (r.map use) capability n where
  gives _ := by cases r <;> rfl
  taken a h := by
    obtain ⟨b, rfl, -⟩ := map_eq_ok_iff.1 h
    rw [hn b rfl]
    exact fun counters => counters.contribute_eq_plus capability (size b)
  refused e h := by
    obtain rfl := map_eq_error_iff.1 h
    exact fun _ => rfl

/-- Without a capability there is nothing to take. -/
theorem takes_pure (a : α) (capability : Capability) : Takes (pure a) (.ok a) capability 0 where
  gives := gives_pure a
  taken _ _ := (tallies_pure a).congr fun k => by simp [times]
  refused e h := nomatch h

/-- What has to be there before a contribution is taken is not counted. -/
theorem Takes.after {r : Except Failure β} {q : β → Pass α} {r' : β → Except Failure α}
    {capability : Capability} {n : Nat} (h : ∀ b, Takes (q b) (r' b) capability n) :
    Takes (ExceptT.mk (pure r) >>= q) (r >>= r') capability n := by
  cases r with
  | error e => exact ⟨fun _ => rfl, nofun, fun _ _ => fun _ => rfl⟩
  | ok b => exact h b

theorem Takes.bind {r : Except Failure α} {capability : Capability} {n : Nat}
    (h : Takes p r capability n) (hr : r = .ok a) (hf : Tallies (f a) amount) :
    Tallies (p >>= f) fun k => capability.times n k + amount k :=
  Tallies.bind (hr ▸ h.gives) (h.taken a hr) hf

theorem Takes.stop {r : Except Failure α} {capability : Capability} {n : Nat}
    (h : Takes p r capability n) (hr : r = .error e) : Tallies (p >>= f) fun _ => 0 :=
  Tallies.stop (hr ▸ h.gives) (h.refused e hr)

/-! ## One selection -/

variable (namer : Namer) (s : Selection) (c : Collected)

theorem takes_experiment : Takes (takeExperiment s c)
    ((s.update c.experiment).map fun experiment => { c with experiment }) .experiment
    (s.amount namer .experiment) := by
  unfold takeExperiment Selection.update Selection.amount
  cases s.experiment with
  | none => exact takes_pure c .experiment
  | some change => exact takes_counted (change c.experiment) .experiment (fun _ => 1) _ fun _ _ => rfl

theorem takes_parameters : Takes (takeParameters namer s c)
    ((s.parameterList namer).map fun ps => { c with experiment :=
      { c.experiment with parameters := c.experiment.parameters ++ ps } }) .parameter
    (s.amount namer .parameter) := by
  unfold takeParameters Selection.amount Selection.parameterList
  cases s.parameters with
  | none =>
    simp only [Except.map, List.append_nil]
    exact takes_pure c .parameter
  | some parameters =>
    refine takes_counted (parameters namer) .parameter List.length _ fun ps hps => ?_
    simp only [hps]
    rfl

theorem takes_metrics : Takes (takeMetrics s c)
    (s.metricList.map fun ms => { c with experiment :=
      { c.experiment with metrics := c.experiment.metrics ++ ms } }) .metric
    (s.amount namer .metric) := by
  unfold takeMetrics Selection.amount Selection.metricList
  cases s.metrics with
  | none =>
    simp only [Option.getD_none, Except.map, List.append_nil]
    exact takes_pure c .metric
  | some metrics =>
    refine takes_counted metrics .metric List.length _ fun ms hms => ?_
    simp only [hms]
    rfl

theorem takes_documents : Takes (takeDocuments s c)
    (s.documentList.map fun ds => { c with documents := c.documents ++ ds }) .resource
    (s.amount namer .resource) := by
  unfold takeDocuments Selection.amount Selection.documentList
  cases s.documents with
  | none =>
    simp only [Option.getD_none, Except.map, List.append_nil]
    exact takes_pure c .resource
  | some documents =>
    refine takes_counted documents .resource List.length _ fun ds hds => ?_
    simp only [hds]
    rfl

/-- An edit is counted when it has been made and accepted. -/
theorem takes_patch : Takes (takePatch namer s c) (do
    let es ← s.editList namer
    let patches ← c.patches.addAll es
    return { c with patches }) .patch (s.amount namer .patch) := by
  unfold takePatch Selection.amount Selection.editList
  cases s.patch with
  | none => exact takes_pure c .patch
  | some patch =>
    have h := Takes.after (r := patch.edit namer) fun edit =>
      takes_counted (c.patches.add patch.target patch.strategy edit) .patch (fun _ => 1)
        (fun patches => { c with patches }) (n := 1) fun _ _ => rfl
    convert h using 1
    · dsimp only
      cases patch.edit namer with
      | error e => rfl
      | ok edit =>
        simp only [Except.map, bind, Except.bind, PatchSet.addAll_singleton]
        rfl
    · rfl

/-- What is collected once a selection has contributed. -/
def absorb (namer : Namer) (c : Collected) (s : Selection) : Except Failure Collected := do
  let experiment ← s.update c.experiment
  let parameters ← s.parameterList namer
  let es ← s.editList namer
  let patches ← c.patches.addAll es
  let metrics ← s.metricList
  let documents ← s.documentList
  return {
    experiment := { experiment with
      parameters := experiment.parameters ++ parameters
      metrics := experiment.metrics ++ metrics }
    patches
    documents := c.documents ++ documents }

theorem gives_take : Gives (take namer c s) (absorb namer c s) := by
  have h : Gives (take namer c s) _ :=
    ((((takes_experiment namer s c).gives.bind fun c => (takes_parameters namer s c).gives).bind
      fun c => (takes_patch namer s c).gives).bind fun c => (takes_metrics namer s c).gives).bind
        fun c => (takes_documents namer s c).gives
  convert h using 1
  unfold absorb
  cases s.update c.experiment with
  | error e => rfl
  | ok experiment =>
  cases s.parameterList namer with
  | error e => rfl
  | ok parameters =>
  cases s.editList namer with
  | error e => rfl
  | ok es =>
  simp only [Except.map, bind, Except.bind, pure, Except.pure]
  cases c.patches.addAll es with
  | error e => rfl
  | ok patches =>
  cases s.metricList with
  | error e => rfl
  | ok metrics =>
  cases s.documentList with
  | error e => rfl
  | ok documents => rfl

/-! ## A whole pass -/

/-- The result of a pass, computed without counters. -/
theorem gives_collect (defaultName : String) (selections : List Selection) :
    Gives (collect defaultName selections)
      (selections.foldlM (absorb (Namer.ofSelections selections)) {} >>= finish defaultName) :=
  (Gives.foldlM (fun c s => gives_take (Namer.ofSelections selections) s c) selections {}).bind
    fun c => gives_mk (finish defaultName c)

/-- Counting the pass does not change its result. -/
theorem gives_generate (g : Generator) (seconds : Binary64) (selections : List Selection) :
    Gives (g.generate seconds selections)
      (selections.foldlM (absorb (Namer.ofSelections selections)) {} >>= finish g.defaultName) := by
  intro counters
  rw [← gives_collect g.defaultName selections counters]
  unfold Generator.generate ExceptT.run
  dsimp only
  cases collect g.defaultName selections counters with
  | mk result after => cases result <;> rfl

end Generation

end ClusterTuning
