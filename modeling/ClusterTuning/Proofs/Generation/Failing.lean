import ClusterTuning.Proofs.Generation.Grouping
import ClusterTuning.Proofs.Patch.Failing

/-!
# How a generation fails

A pass asks one selection after the other for what it contributes, stage by stage,
and stops at the first failure.  Which stage of which selection would fail can be
said without running the pass: it depends on the selection, on the experiment
that the selections before it leave, and on the strategies that they ask for.
Edits are applied last, target by target, when nothing else has failed.

* `Generation.Reached.exists_failsIn` — where a single step of the pass fails;
* `Generation.foldlM_absorb_eq_error_iff` — where a pass fails;
* `Generator.generate_eq_error_iff` — whether a generation fails, and with what.
-/

namespace ClusterTuning

open TargetedEdit

/-! ## Strategies that selections ask for -/

namespace Selection

variable {namer : Namer} {s : Selection} {ss : List Selection} {es : List TargetedEdit}

/-- The strategy that a selection asks for at a target. -/
def strategyAt (r : Reference) (s : Selection) : Option PatchStrategy :=
  s.patch.bind fun p => if p.target = r then p.strategy else none

/-- The first strategy that some selections ask for at a target. -/
def firstStrategyAt (r : Reference) (ss : List Selection) : Option PatchStrategy :=
  ss.findSome? (strategyAt r)

/-- Two selections ask for different strategies at one target. -/
def Disagree (ss : List Selection) : Prop :=
  ∃ s ∈ ss, ∃ t ∈ ss, ∃ r a b, s.strategyAt r = some a ∧ t.strategyAt r = some b ∧ a ≠ b

theorem eq_of_strategyAt {r r' : Reference} {a b : PatchStrategy}
    (h : s.strategyAt r = some a) (h' : s.strategyAt r' = some b) : r = r' := by
  unfold strategyAt at h h'
  cases hpatch : s.patch with
  | none =>
    rw [hpatch] at h
    exact nomatch h
  | some p =>
    simp only [hpatch, Option.bind_some, Option.ite_none_right_eq_some] at h h'
    exact h.1.symm.trans h'.1

theorem strategyFor_editList (h : s.editList namer = .ok es) (r : Reference) :
    strategyFor r es = s.strategyAt r := by
  unfold editList at h
  unfold strategyAt
  split at h
  · obtain rfl := Except.ok.inj h
    next hpatch => rw [hpatch]; rfl
  · next p hpatch =>
    obtain ⟨edit, -, rfl⟩ := map_eq_ok_iff.1 h
    rw [hpatch]
    by_cases hr : p.target = r <;> simp [strategyFor, forTarget, hr]

/-- The edits of some selections ask for what the selections ask for. -/
theorem strategyFor_gather (h : gather (editList namer) ss = .ok es) (r : Reference) :
    strategyFor r es = firstStrategyAt r ss := by
  obtain ⟨ess, hess, rfl⟩ := map_eq_ok_iff.1 h
  clear h
  induction mapM_eq_ok_iff.1 hess with
  | nil => rfl
  | @cons s es ss ess hs hss ih =>
    rw [List.flatten_cons, strategyFor_append, strategyFor_editList hs,
      ih (mapM_eq_ok_iff.2 hss), firstStrategyAt, firstStrategyAt, List.findSome?_cons]
    cases s.strategyAt r <;> rfl

/-- Where the edits agree, the selections do. -/
theorem not_disagree (h : gather (editList namer) ss = .ok es) (hagree : Agree es) :
    ¬ Disagree ss := by
  obtain ⟨ess, hess, rfl⟩ := map_eq_ok_iff.1 h
  have hmem : ∀ s ∈ ss, ∀ r a, s.strategyAt r = some a →
      ∃ e ∈ ess.flatten, e.target = r ∧ e.strategy = some a := by
    intro s hs r a ha
    obtain ⟨es, hes, hedits⟩ := exists_mem_mapM hess hs
    rw [← strategyFor_editList hedits r] at ha
    obtain ⟨e, he, hstrategy⟩ := List.exists_of_findSome?_eq_some ha
    obtain ⟨he, htarget⟩ := mem_forTarget.1 he
    exact ⟨e, List.mem_flatten_of_mem hes he, htarget, hstrategy⟩
  rintro ⟨s, hs, t, ht, r, a, b, ha, hb, hne⟩
  obtain ⟨d, hd, hdr, hda⟩ := hmem s hs r a ha
  obtain ⟨e, he, her, heb⟩ := hmem t ht r b hb
  exact hne (hagree d hd e he (hdr.trans her.symm) a b hda heb)

end Selection

namespace Generation

open Selection

/-! ## Stages -/

/-- The stages in which a pass takes what a selection contributes. -/
inductive Stage where
  | experiment
  | parameters
  | patch
  | strategy
  | metrics
  | documents
deriving DecidableEq, Repr

/-- The stages come one after the other. -/
def Stage.place : Stage → Nat
  | experiment => 0
  | parameters => 1
  | patch => 2
  | strategy => 3
  | metrics => 4
  | documents => 5

theorem Stage.place_inj {a b : Stage} (h : a.place = b.place) : a = b := by
  cases a <;> cases b <;> first | rfl | exact nomatch h

/-- How a stage of a selection fails after other selections.

The changes of the experiment are made to what the selections before have left, and the strategy
of an edit is held against the first one that they ask for at its target.  All other contributions
stand for themselves. -/
def FailsIn (namer : Namer) (passed : List Selection) (s : Selection) : Stage → Failure → Prop
  | .experiment, e =>
    ∃ left, passed.foldlM (evolve namer) .new = .ok left ∧ s.update left = .error e
  | .parameters, e => s.parameterList namer = .error e
  | .patch, e => s.editList namer = .error e
  | .strategy, e => ∃ r existing requested, firstStrategyAt r passed = some existing ∧
      s.strategyAt r = some requested ∧ existing ≠ requested ∧
        e = .strategyConflict r existing requested
  | .metrics, e => s.metricList = .error e
  | .documents, e => s.documentList = .error e

/-! ## One selection -/

variable {namer : Namer} {passed selections : List Selection} {c c' : Collected} {s : Selection}
  {stage : Stage} {e e' : Failure}

theorem Reached.failsIn_experiment_iff (h : Reached namer passed c) :
    FailsIn namer passed s .experiment e ↔ s.update c.experiment = .error e := by
  constructor
  · rintro ⟨left, hleft, hupdate⟩
    obtain rfl := Except.ok.inj (h.experiment.symm.trans hleft)
    exact hupdate
  · exact fun hupdate => ⟨_, h.experiment, hupdate⟩

/-- The edit of the next selection is refused where it asks for another strategy than the first one
at its target. -/
theorem Reached.failsIn_strategy_iff (h : Reached namer passed c) {es : List TargetedEdit}
    (hes : s.editList namer = .ok es) :
    FailsIn namer passed s .strategy e ↔ c.patches.addAll es = .error e := by
  obtain ⟨ds, hds, hholds⟩ := h.edits
  unfold FailsIn strategyAt
  unfold editList at hes
  cases hpatch : s.patch with
  | none =>
    rw [hpatch] at hes
    obtain rfl := Except.ok.inj hes
    constructor
    · rintro ⟨r, existing, requested, -, hasks, -⟩
      exact nomatch hasks
    · exact nofun
  | some p =>
    rw [hpatch] at hes
    obtain ⟨edit, -, rfl⟩ := map_eq_ok_iff.1 hes
    rw [PatchSet.addAll_singleton, hholds.add_eq, map_eq_error_iff,
      PatchSet.joinStrategy_eq_error_iff, strategyFor_gather hds]
    simp only [Option.bind_some, Option.ite_none_right_eq_some]
    constructor
    · rintro ⟨r, existing, requested, hfirst, ⟨rfl, hasks⟩, hne, rfl⟩
      exact ⟨existing, requested, hfirst, hasks, hne, rfl⟩
    · rintro ⟨existing, requested, hfirst, hasks, hne, rfl⟩
      exact ⟨p.target, existing, requested, hfirst, ⟨rfl, hasks⟩, hne, rfl⟩

/-- No stage before a given one fails. -/
def PassesUntil (namer : Namer) (passed : List Selection) (s : Selection) (stage : Stage) : Prop :=
  ∀ stage' e, stage'.place < stage.place → ¬ FailsIn namer passed s stage' e

theorem PassesUntil.next {next : Stage} (h : PassesUntil namer passed s stage)
    (hstage : ∀ e, ¬ FailsIn namer passed s stage e) (hnext : next.place = stage.place + 1) :
    PassesUntil namer passed s next := by
  intro stage' e hlt
  rw [hnext, Nat.lt_succ_iff_lt_or_eq] at hlt
  rcases hlt with hlt | heq
  · exact h stage' e hlt
  · rw [Stage.place_inj heq]
    exact hstage e

/-- **The step of a pass.**  The next selection fails with the failure of its first stage that
fails. -/
theorem Reached.exists_failsIn (h : Reached namer passed c)
    (habsorb : Generation.absorb namer c s = .error e) :
    ∃ stage, FailsIn namer passed s stage e ∧ PassesUntil namer passed s stage := by
  have hstart : PassesUntil namer passed s .experiment :=
    fun _ _ hlt => absurd hlt (Nat.not_lt_zero _)
  unfold Generation.absorb at habsorb
  rcases bind_eq_error_iff.1 habsorb with hfails | ⟨experiment, he, habsorb⟩
  · exact ⟨.experiment, h.failsIn_experiment_iff.2 hfails, hstart⟩
  have hexperiment : PassesUntil namer passed s .parameters := by
    refine hstart.next (fun e' hfails => ?_) rfl
    rw [h.failsIn_experiment_iff, he] at hfails
    exact nomatch hfails
  rcases bind_eq_error_iff.1 habsorb with hfails | ⟨parameters, hp, habsorb⟩
  · exact ⟨.parameters, hfails, hexperiment⟩
  have hparameters : PassesUntil namer passed s .patch :=
    hexperiment.next (fun e' hfails => nomatch hp.symm.trans hfails) rfl
  rcases bind_eq_error_iff.1 habsorb with hfails | ⟨es, hes, habsorb⟩
  · exact ⟨.patch, hfails, hparameters⟩
  have hedits : PassesUntil namer passed s .strategy :=
    hparameters.next (fun e' hfails => nomatch hes.symm.trans hfails) rfl
  rcases bind_eq_error_iff.1 habsorb with hfails | ⟨patches, hadd, habsorb⟩
  · exact ⟨.strategy, (h.failsIn_strategy_iff hes).2 hfails, hedits⟩
  have hstrategy : PassesUntil namer passed s .metrics := by
    refine hedits.next (fun e' hfails => ?_) rfl
    rw [h.failsIn_strategy_iff hes, hadd] at hfails
    exact nomatch hfails
  rcases bind_eq_error_iff.1 habsorb with hfails | ⟨metrics, hm, habsorb⟩
  · exact ⟨.metrics, hfails, hstrategy⟩
  have hmetrics : PassesUntil namer passed s .documents :=
    hstrategy.next (fun e' hfails => nomatch hm.symm.trans hfails) rfl
  rcases bind_eq_error_iff.1 habsorb with hfails | ⟨documents, -, hpure⟩
  · exact ⟨.documents, hfails, hmetrics⟩
  · exact nomatch hpure

/-- A selection that contributes does not fail in any stage. -/
theorem Reached.not_failsIn (h : Reached namer passed c)
    (habsorb : Generation.absorb namer c s = .ok c') : ¬ FailsIn namer passed s stage e := by
  obtain ⟨experiment, parameters, es, patches, metrics, documents, he, hp, hes, hadd, hm, hd,
    -⟩ := absorb_eq_ok_iff.1 habsorb
  intro hfails
  cases stage with
  | experiment => exact nomatch he.symm.trans (h.failsIn_experiment_iff.1 hfails)
  | parameters => exact nomatch hp.symm.trans hfails
  | patch => exact nomatch hes.symm.trans hfails
  | strategy => exact nomatch hadd.symm.trans ((h.failsIn_strategy_iff hes).1 hfails)
  | metrics => exact nomatch hm.symm.trans hfails
  | documents => exact nomatch hd.symm.trans hfails

/-! ## A whole pass -/

/-- How a pass over some selections fails at a point, which is the position of a selection and a
stage. -/
def FailsAt (namer : Namer) (selections : List Selection) (point : Nat × Stage) (e : Failure) :
    Prop :=
  ∃ s, selections[point.1]? = some s ∧
    FailsIn namer (selections.take point.1) s point.2 e

/-- The order of the points of a pass. -/
def Earlier (p q : Nat × Stage) : Prop :=
  p.1 < q.1 ∨ p.1 = q.1 ∧ p.2.place < q.2.place

/-- A point is the first one at which a pass fails. -/
structure FailsFirst (namer : Namer) (selections : List Selection) (point : Nat × Stage)
    (e : Failure) : Prop where
  fails : FailsAt namer selections point e
  first : ∀ q e', Earlier q point → ¬ FailsAt namer selections q e'

/-- A pass that goes through does not fail at any point. -/
theorem not_failsAt_of_foldlM (hfold : selections.foldlM (Generation.absorb namer) {} = .ok c)
    (point : Nat × Stage) (e : Failure) : ¬ FailsAt namer selections point e := by
  rintro ⟨s, hs, hfails⟩
  obtain ⟨hlt, rfl⟩ := List.getElem?_eq_some_iff.1 hs
  have hsplit : selections =
      selections.take point.1 ++ selections[point.1] :: selections.drop (point.1 + 1) := by
    rw [← List.drop_eq_getElem_cons hlt, List.take_append_drop]
  rw [hsplit, List.foldlM_append, bind_eq_ok_iff] at hfold
  obtain ⟨between, hpassed, hrest⟩ := hfold
  rw [List.foldlM_cons, bind_eq_ok_iff] at hrest
  obtain ⟨next, habsorb, -⟩ := hrest
  exact (reached_foldlM hpassed).not_failsIn habsorb hfails

/-- Where a selection fails that others have come before, a pass fails first. -/
theorem failsFirst_of_failsIn {later : List Selection}
    (hpassed : passed.foldlM (Generation.absorb namer) {} = .ok c)
    (hfails : FailsIn namer passed s stage e) (hpasses : PassesUntil namer passed s stage) :
    FailsFirst namer (passed ++ s :: later) (passed.length, stage) e := by
  refine ⟨⟨s, by simp, by simpa using hfails⟩, ?_⟩
  rintro ⟨j, stage'⟩ e' hearlier ⟨t, ht, ht'⟩
  rcases hearlier with hlt | ⟨heq, hlt⟩
  · rw [List.getElem?_append_left hlt] at ht
    rw [List.take_append_of_le_length (Nat.le_of_lt hlt)] at ht'
    exact not_failsAt_of_foldlM hpassed (j, stage') e' ⟨t, ht, ht'⟩
  · obtain rfl : j = passed.length := heq
    obtain rfl : s = t := by simpa using ht
    rw [List.take_left] at ht'
    exact hpasses stage' e' hlt ht'

/-- A pass that fails does so at its first point that fails. -/
theorem exists_failsFirst (hfold : selections.foldlM (Generation.absorb namer) {} = .error e) :
    ∃ point, FailsFirst namer selections point e := by
  obtain ⟨passed, s, later, c, rfl, hpassed, habsorb⟩ := foldlM_eq_error_iff.1 hfold
  obtain ⟨stage, hfails, hpasses⟩ := (reached_foldlM hpassed).exists_failsIn habsorb
  exact ⟨_, failsFirst_of_failsIn hpassed hfails hpasses⟩

theorem FailsIn.unique (h : FailsIn namer passed s stage e)
    (h' : FailsIn namer passed s stage e') : e = e' := by
  cases stage with
  | experiment =>
    obtain ⟨left, hleft, hupdate⟩ := h
    obtain ⟨left', hleft', hupdate'⟩ := h'
    obtain rfl := Except.ok.inj (hleft.symm.trans hleft')
    exact Except.error.inj (hupdate.symm.trans hupdate')
  | strategy =>
    obtain ⟨r, existing, requested, hfirst, hasks, -, rfl⟩ := h
    obtain ⟨r', existing', requested', hfirst', hasks', -, rfl⟩ := h'
    obtain rfl := eq_of_strategyAt hasks hasks'
    rw [Option.some.inj (hfirst.symm.trans hfirst'), Option.some.inj (hasks.symm.trans hasks')]
  | _ => exact Except.error.inj (h.symm.trans h')

theorem FailsAt.unique {p : Nat × Stage} (h : FailsAt namer selections p e)
    (h' : FailsAt namer selections p e') : e = e' := by
  obtain ⟨s, hs, hfails⟩ := h
  obtain ⟨s', hs', hfails'⟩ := h'
  obtain rfl := Option.some.inj (hs.symm.trans hs')
  exact hfails.unique hfails'

theorem earlier_trichotomy (p q : Nat × Stage) : Earlier p q ∨ p = q ∨ Earlier q p := by
  rcases lt_trichotomy p.1 q.1 with hlt | heq | hgt
  · exact .inl (.inl hlt)
  · rcases lt_trichotomy p.2.place q.2.place with hlt | hplace | hgt
    · exact .inl (.inr ⟨heq, hlt⟩)
    · exact .inr (.inl (Prod.ext heq (Stage.place_inj hplace)))
    · exact .inr (.inr (.inr ⟨heq.symm, hgt⟩))
  · exact .inr (.inr (.inl hgt))

/-- There is one first point at most, and one failure there. -/
theorem FailsFirst.unique {p q : Nat × Stage} (h : FailsFirst namer selections p e)
    (h' : FailsFirst namer selections q e') : p = q ∧ e = e' := by
  rcases earlier_trichotomy p q with hlt | rfl | hgt
  · exact absurd h.fails (h'.first p e hlt)
  · exact ⟨rfl, h.fails.unique h'.fails⟩
  · exact absurd h'.fails (h.first q e' hgt)

/-- **Where a pass fails**: at the first point, with the failure there. -/
theorem foldlM_absorb_eq_error_iff :
    selections.foldlM (Generation.absorb namer) {} = .error e ↔
      ∃ point, FailsFirst namer selections point e := by
  constructor
  · exact exists_failsFirst
  · rintro ⟨point, hfirst⟩
    cases hfold : selections.foldlM (Generation.absorb namer) {} with
    | ok c => exact absurd hfirst.fails (not_failsAt_of_foldlM hfold point e)
    | error e' =>
      obtain ⟨point', hfirst'⟩ := exists_failsFirst hfold
      rw [(hfirst'.unique hfirst).2]

/-- The first selection whose strategy for a target is not the one that the selections before it
have fixed. -/
structure Clashes (selections : List Selection) (i : Nat) (r : Reference)
    (existing requested : PatchStrategy) : Prop where
  fixed : firstStrategyAt r (selections.take i) = some existing
  agreed : ∀ t ∈ selections.take i, ∀ strategy, t.strategyAt r = some strategy → strategy = existing
  asks : ∃ s, selections[i]? = some s ∧ s.strategyAt r = some requested
  differ : existing ≠ requested

theorem FailsFirst.clashes {i : Nat} (h : FailsFirst namer selections (i, .strategy) e) :
    ∃ r existing requested, e = .strategyConflict r existing requested ∧
      Clashes selections i r existing requested := by
  obtain ⟨s, hs, r, existing, requested, hfirst, hasks, hne, rfl⟩ := h.fails
  refine ⟨r, existing, requested, rfl, hfirst, fun t ht strategy hstrategy => ?_, ⟨s, hs, hasks⟩,
    hne⟩
  obtain ⟨before, after, hsplit⟩ := List.append_of_mem ht
  rw [hsplit, firstStrategyAt, List.findSome?_append, List.findSome?_cons, hstrategy] at hfirst
  by_contra hother
  cases hbefore : firstStrategyAt r before with
  | none =>
    rw [firstStrategyAt] at hbefore
    rw [hbefore] at hfirst
    exact hother (Option.some.inj hfirst)
  | some first =>
    -- a strategy other than the first one would have been an earlier failure
    rw [firstStrategyAt] at hbefore
    rw [hbefore] at hfirst
    have hne' : first ≠ strategy := by
      rw [Option.some.inj hfirst]
      exact Ne.symm hother
    obtain ⟨rest, hrest⟩ : ∃ rest, selections = before ++ t :: rest := by
      refine ⟨after ++ selections.drop i, ?_⟩
      rw [← List.cons_append, ← List.append_assoc, ← hsplit, List.take_append_drop]
    have hlt : before.length < i := by
      have hlength := congrArg List.length hsplit
      simp only [List.length_take, List.length_append, List.length_cons] at hlength
      omega
    refine h.first (before.length, .strategy) _ (.inl hlt)
      ⟨t, by rw [hrest]; simp, r, first, strategy, ?_, hstrategy, hne', rfl⟩
    rw [hrest, List.take_left]
    exact hbefore

theorem Clashes.disagree {i : Nat} {r : Reference} {existing requested : PatchStrategy}
    (h : Clashes selections i r existing requested) : Disagree selections := by
  obtain ⟨s, hs, hasks⟩ := h.asks
  obtain ⟨t, ht, hstrategy⟩ := List.exists_of_findSome?_eq_some h.fixed
  exact ⟨t, List.mem_of_mem_take ht, s, List.mem_of_getElem? hs, r, existing, requested, hstrategy,
    hasks, h.differ⟩

/-! ## A generation -/

theorem finish_eq_error_iff {defaultName : String} :
    finish defaultName c = .error e ↔ c.patches.render = .error e := by
  rw [finish, bind_eq_error_iff]
  constructor
  · rintro (hrender | ⟨ps, -, hpure⟩)
    · exact hrender
    · exact nomatch hpure
  · exact .inl

/-- Where a complete pass fails: at its first point, or at the smallest target with an edit that
fails. -/
theorem run_eq_error_iff {defaultName : String}
    (hwrite : ∀ es, gather (editList namer) selections = .ok es → ∀ r, Edit.Writes (editsFor r es)) :
    selections.foldlM (Generation.absorb namer) {} >>= finish defaultName = .error e ↔
      (∃ point, FailsFirst namer selections point e) ∨
      (∀ point e', ¬ FailsAt namer selections point e') ∧
        ∃ es r, gather (editList namer) selections = .ok es ∧ FailsFor r es e ∧
          ∀ r' e', FailsFor r' es e' → r' = r ∨ r.byteKey < r'.byteKey := by
  rw [bind_eq_error_iff, foldlM_absorb_eq_error_iff]
  refine or_congr_right ⟨?_, ?_⟩
  · rintro ⟨c, hfold, hfinish⟩
    obtain ⟨es, hes, hholds⟩ := (reached_foldlM hfold).edits
    obtain ⟨r, hfails, hleast⟩ :=
      (hholds.render_eq_error_iff (hwrite es hes)).1 (finish_eq_error_iff.1 hfinish)
    exact ⟨not_failsAt_of_foldlM hfold, es, r, hes, hfails, hleast⟩
  · rintro ⟨hpasses, es, r, hes, hfails, hleast⟩
    cases hfold : selections.foldlM (Generation.absorb namer) {} with
    | error e' =>
      obtain ⟨point, hfirst⟩ := exists_failsFirst hfold
      exact absurd hfirst.fails (hpasses point e')
    | ok c =>
      obtain ⟨es', hes', hholds⟩ := (reached_foldlM hfold).edits
      obtain rfl := Except.ok.inj (hes.symm.trans hes')
      exact ⟨c, rfl, finish_eq_error_iff.2
        ((hholds.render_eq_error_iff (hwrite es hes)).2 ⟨r, hfails, hleast⟩)⟩

/-- What holds of a complete pass that goes through. -/
theorem not_fails_of_run {defaultName : String} {g : Generation}
    (hwrite : ∀ es, gather (editList namer) selections = .ok es → ∀ r, Edit.Writes (editsFor r es))
    (hrun : selections.foldlM (Generation.absorb namer) {} >>= finish defaultName = .ok g) :
    (∀ point e, ¬ FailsAt namer selections point e) ∧ ¬ Disagree selections ∧
      ∀ es r e, gather (editList namer) selections = .ok es → ¬ FailsFor r es e := by
  obtain ⟨c, hfold, hfinish⟩ := bind_eq_ok_iff.1 hrun
  obtain ⟨ps, hrender, -⟩ := bind_eq_ok_iff.1 hfinish
  obtain ⟨es, hes, hholds⟩ := (reached_foldlM hfold).edits
  refine ⟨not_failsAt_of_foldlM hfold, not_disagree hes hholds.agree, fun es' r e hes' => ?_⟩
  obtain rfl := Except.ok.inj (hes.symm.trans hes')
  exact hholds.not_failsFor (hwrite es hes) hrender r

end Generation

open Generation Selection in
/-- **Whether a generation fails, and with what.**  It fails exactly if a capability fails, if two
selections ask for different strategies at one target, or if an edit of a target fails.  The failure
is that of the first point of the pass; an edit comes into it only if the pass has none, and then it
is the first one to fail at the smallest target that has one.  A clash of strategies names the one
that was fixed first and the first one that differs from it. -/
theorem Generator.generate_eq_error_iff (g : Generator) (seconds : Binary64)
    (selections : List Selection) (counters : Counters)
    (hwrite : ∀ es, gather (editList (Namer.ofSelections selections)) selections = .ok es →
      ∀ r, Edit.Writes (editsFor r es)) :
    ((∃ e, ((g.generate seconds selections).run counters).1 = .error e) ↔
      (∃ point e, point.2 ≠ .strategy ∧
        FailsAt (Namer.ofSelections selections) selections point e) ∨
      Disagree selections ∨
      ∃ es r e, gather (editList (Namer.ofSelections selections)) selections = .ok es ∧
        FailsFor r es e) ∧
    (∀ e, ((g.generate seconds selections).run counters).1 = .error e ↔
      (∃ point, FailsFirst (Namer.ofSelections selections) selections point e) ∨
      (∀ point e', ¬ FailsAt (Namer.ofSelections selections) selections point e') ∧
        ∃ es r, gather (editList (Namer.ofSelections selections)) selections = .ok es ∧
          FailsFor r es e ∧ ∀ r' e', FailsFor r' es e' → r' = r ∨ r.byteKey < r'.byteKey) ∧
    ∀ i e, FailsFirst (Namer.ofSelections selections) selections (i, .strategy) e →
      ∃ r existing requested, e = .strategyConflict r existing requested ∧
        Clashes selections i r existing requested := by
  rw [gives_generate g seconds selections counters]
  refine ⟨⟨?_, ?_⟩, fun e => run_eq_error_iff hwrite, fun i e hfirst => hfirst.clashes⟩
  · rintro ⟨e, hrun⟩
    rcases (run_eq_error_iff hwrite).1 hrun with ⟨⟨i, stage⟩, hfirst⟩ | ⟨-, es, r, hes, hfails, -⟩
    · by_cases hstage : stage = .strategy
      · subst hstage
        obtain ⟨r, existing, requested, -, hclashes⟩ := hfirst.clashes
        exact .inr (.inl hclashes.disagree)
      · exact .inl ⟨(i, stage), e, hstage, hfirst.fails⟩
    · exact .inr (.inr ⟨es, r, e, hes, hfails⟩)
  · intro hfails
    by_contra hnone
    cases hrun : selections.foldlM (absorb (Namer.ofSelections selections)) {} >>=
        finish g.defaultName with
    | error e => exact hnone ⟨e, hrun⟩
    | ok generation =>
      obtain ⟨hpasses, hagree, hedits⟩ := not_fails_of_run hwrite hrun
      rcases hfails with ⟨point, e, -, hpoint⟩ | hdisagree | ⟨es, r, e, hes, hfails⟩
      · exact hpasses point e hpoint
      · exact hagree hdisagree
      · exact hedits es r e hes hfails

namespace Generator

/-- A workload. -/
def sampleWorkload : Reference :=
  { apiVersion := "apps/v1", kind := "Deployment", name := "web" }

/-- A configuration, which comes before the workload in the order of targets. -/
def sampleConfiguration : Reference :=
  { apiVersion := "v1", kind := "ConfigMap", name := "web" }

/-- Two edits that fail; the one for the greater target comes first. -/
def sampleFailing : List Selection := [
  { patch := some {
      target := sampleWorkload
      edit := fun _ => .ok (.set [.keyed "name" "app"] .null) } },
  { patch := some {
      target := sampleConfiguration
      edit := fun _ => .ok (.chain [.set [.field "data"] .null, .fail (.selection "no data")]) } }]

open Generation Selection in
theorem generate_eq_error_iff_sample :
    (∀ es, gather (editList (Namer.ofSelections sampleFailing)) sampleFailing = .ok es →
      ∀ r, Edit.Writes (editsFor r es)) ∧
    ((Generator.generate {} .nan sampleFailing).run {}).1 = .error (.selection "no data") ∧
    ∃ es r, gather (editList (Namer.ofSelections sampleFailing)) sampleFailing = .ok es ∧
      FailsFor r es (.selection "no data") ∧
        ∀ r' e', FailsFor r' es e' → r' = r ∨ r.byteKey < r'.byteKey := by
  have hwrite : ∀ es, gather (editList (Namer.ofSelections sampleFailing)) sampleFailing = .ok es →
      ∀ r, Edit.Writes (editsFor r es) := by
    intro es hes r document happly
    have hgather : gather (editList (Namer.ofSelections sampleFailing)) sampleFailing = .ok [
        { target := sampleWorkload, edit := .set [.keyed "name" "app"] .null },
        { target := sampleConfiguration,
          edit := .chain [.set [.field "data"] .null, .fail (.selection "no data")] }] := by rfl
    obtain rfl := Except.ok.inj (hgather.symm.trans hes)
    by_cases hworkload : sampleWorkload = r
    · subst hworkload
      exact nomatch congrArg Prod.snd happly
    · by_cases hconfiguration : sampleConfiguration = r
      · subst hconfiguration
        exact nomatch congrArg Prod.snd happly
      · simp only [editsFor, forTarget, List.filter_cons, hworkload, hconfiguration, decide_false,
          Bool.false_eq_true, if_false, List.filter_nil, List.map_nil] at happly
        obtain rfl : .mapping [] = document := congrArg Prod.fst happly
        exact ⟨_, by rfl⟩
  have hrun : ((Generator.generate {} .nan sampleFailing).run {}).1 =
      .error (.selection "no data") := by rfl
  have hfold : ∃ c, sampleFailing.foldlM (absorb (Namer.ofSelections sampleFailing)) {} = .ok c :=
    ⟨_, by rfl⟩
  obtain ⟨c, hfold⟩ := hfold
  rcases ((generate_eq_error_iff {} .nan sampleFailing {} hwrite).2.1 _).1 hrun with
    ⟨point, hfirst⟩ | ⟨-, htarget⟩
  · exact absurd hfirst.fails (not_failsAt_of_foldlM hfold point _)
  · exact ⟨hwrite, hrun, htarget⟩

/-- An edit without a strategy stands between two that clash, and a failure after them does not
show. -/
example :
    let web : Reference := { apiVersion := "apps/v1", kind := "Deployment", name := "web" }
    let edit (strategy : Option PatchStrategy) : Option PatchContribution :=
      some { target := web, strategy, edit := fun _ => .ok (.chain []) }
    ((Generator.generate {} .nan [{ patch := edit (some .merge) }, { patch := edit none },
      { patch := edit (some .json), documents := some (.error .document) }]).run {}).1 =
        .error (.strategyConflict web .merge .json) := by
  rfl

end Generator

end ClusterTuning
