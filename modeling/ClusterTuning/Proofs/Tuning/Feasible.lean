import ClusterTuning.Proofs.Tuning.Memory
import ClusterTuning.Proofs.Tuning.Uniqueness
import ClusterTuning.Tuning.Replicas

/-!
# Parameters that can be tuned

The range of a parameter goes from one on, and its baseline is an integer in it, whatever
the present value of the field is.  A present value that is not positive is no baseline,
and one outside the default bounds moves one of them.

* `Tuned.exists_parameterList_iff` — when a field gives parameters;
* `TunedField.StartsAt.feasible` — the range around a present value;
* `Tuned.feasible_of_parameterList` — every parameter of a field is feasible.
-/

namespace ClusterTuning

/-! ## Ranges -/

namespace Parameter

/-- The parameter is tuned within positive integers of 32 bits, and from an integer among them, if
it has a baseline. -/
structure Feasible (p : Parameter) : Prop where
  one_le_min : 1 ≤ p.min.toInt
  min_le_max : p.min.toInt ≤ p.max.toInt
  max_le : p.max.toInt ≤ 2147483647
  baseline_within : ∀ b ∈ p.baseline, ∃ n : Int32, b = .int n ∧
    p.min.toInt ≤ n.toInt ∧ n.toInt ≤ p.max.toInt

/-- The range takes in the given bounds, and where it goes beyond one of them it ends with the
baseline. -/
structure Widens (bounds : Int32 × Int32) (p : Parameter) : Prop where
  min_le : p.min.toInt ≤ bounds.1.toInt
  le_max : bounds.2.toInt ≤ p.max.toInt
  min_cases : p.min = bounds.1 ∨ p.baseline = some (.int p.min)
  max_cases : p.max = bounds.2 ∨ p.baseline = some (.int p.max)

end Parameter

namespace TunedField

variable {f : TunedField} {bounds : Int32 × Int32} {n : Int32} {p : Parameter}

/-- A range that is widened for a present value is feasible, if the bounds are. -/
theorem StartsAt.feasible (h : StartsAt bounds n.toInt p) (hone : 1 ≤ bounds.1.toInt)
    (hle : bounds.1.toInt ≤ bounds.2.toInt) : p.Widens bounds ∧ p.Feasible := by
  obtain ⟨hbaseline, hmin, hmax⟩ := h
  have hlimit := p.max.toInt_le
  by_cases hn : 0 < n.toInt
  · rw [if_pos hn, Int32.ofInt_toInt] at hbaseline
    rw [if_pos hn] at hmin hmax
    refine ⟨⟨by omega, by omega, ?_, ?_⟩, ⟨by omega, by omega, hlimit, ?_⟩⟩
    · rcases le_total bounds.1.toInt n.toInt with hlow | hlow
      · exact .inl (Int32.toInt_inj.1 (by omega))
      · obtain rfl : p.min = n := Int32.toInt_inj.1 (by omega)
        exact .inr hbaseline
    · rcases le_total n.toInt bounds.2.toInt with hhigh | hhigh
      · exact .inl (Int32.toInt_inj.1 (by omega))
      · obtain rfl : p.max = n := Int32.toInt_inj.1 (by omega)
        exact .inr hbaseline
    · intro b hb
      rw [hbaseline] at hb
      exact ⟨n, (Option.some.inj hb).symm, by omega, by omega⟩
  · rw [if_neg hn] at hbaseline hmin hmax
    refine ⟨⟨hmin.le, hmax.ge, .inl (Int32.toInt_inj.1 hmin), .inl (Int32.toInt_inj.1 hmax)⟩,
      ⟨by omega, by omega, hlimit, ?_⟩⟩
    intro b hb
    rw [hbaseline] at hb
    exact nomatch hb

/-! ## Present values -/

theorem exists_startsAt_bounded (name : String) (bounds : Int32 × Int32)
    (current : Option Int32) : ∃ n : Int32, StartsAt bounds n.toInt (bounded name bounds current) := by
  cases current with
  | none => exact ⟨0, bounded_startsAt 0⟩
  | some n => exact ⟨n, bounded_startsAt n⟩

theorem pos_of_currentReplicas? (h : f.currentReplicas? = some n) : 0 < n.toInt := by
  unfold currentReplicas? at h
  obtain ⟨k, hk, rfl⟩ := Option.map_eq_some_iff.1 h
  obtain ⟨-, hrange⟩ := Option.filter_eq_some_iff.1 hk
  simp only [Bool.and_eq_true, decide_eq_true_eq] at hrange
  unfold maxInt32 at hrange
  rw [Int32.toInt_ofInt_of_le (by omega) (by omega)]
  exact hrange.1

/-- A number of replicas that is not positive counts as no number. -/
theorem exists_startsAt_replicas (f : TunedField) (namer : Namer) :
    ∃ n : Int32, StartsAt (1, 5) n.toInt (f.replicasParameter namer) := by
  cases h : f.currentReplicas? with
  | none =>
    refine ⟨0, ?_, ?_, ?_⟩
    all_goals
      rw [replicasParameter, h]
      rfl
  | some n =>
    have hn := pos_of_currentReplicas? h
    refine ⟨n, ?_, ?_, ?_⟩
    · rw [replicasParameter, h, if_pos hn, Int32.ofInt_toInt]
      rfl
    · have hone : (1 : Int32).toInt = 1 := by decide
      rw [if_pos hn, replicasParameter, minReplicas, hone]
      omega
    · rw [if_pos hn, replicasParameter, h]
      exact toInt_max 5 n

end TunedField

/-! ## The parameters of a field -/

namespace Tuned

open TunedField

/-- The bounds between which the parameters of a field are tuned by default. -/
def bounds : Tuned → List (Int32 × Int32)
  | replicas _ => [(1, 5)]
  | resources _ => [(100, 4000), (128, 4096)]

/-- The present quantities of a field. -/
def quantities : Tuned → List String
  | replicas _ => []
  | resources f => ["cpu", "memory"].filterMap f.currentQuantity?

/-- The present memory is too large for the parameters to be worked out. -/
def Overflows : Tuned → Prop
  | replicas _ => False
  | resources f => f.Overflows

variable {f : TunedField} {namer : Namer} {ps : List Parameter}

/-- A field gives parameters exactly if its present quantities can be read, and nothing overflows. -/
theorem exists_parameterList_iff (t : Tuned) (namer : Namer) :
    (∃ ps, t.selection.parameterList namer = .ok ps) ↔
      (∀ q ∈ t.quantities, ∃ x, Quantity.parse q = .ok x) ∧ ¬ t.Overflows := by
  cases t with
  | replicas f => exact iff_of_true ⟨_, rfl⟩ ⟨List.forall_mem_nil _, not_false⟩
  | resources f =>
    have hcpu : (∃ r, f.currentCpu = .ok r) ↔
        ∀ q ∈ f.currentQuantity? "cpu", ∃ x, Quantity.parse q = .ok x := by
      simp only [currentCpu, exists_optional_eq_ok_iff, exists_map_eq_ok_iff, Quantity.milliValue]
    have hboth : (∃ ps, (resources f).selection.parameterList namer = .ok ps) ↔
        (∃ r, f.currentCpu = .ok r) ∧ ∃ r, f.currentMemory = .ok r := by
      constructor
      · rintro ⟨ps, hps⟩
        obtain ⟨cpu, hcpu, hps⟩ := bind_eq_ok_iff.1 hps
        obtain ⟨memory, hmemory, -⟩ := bind_eq_ok_iff.1 hps
        exact ⟨⟨cpu, hcpu⟩, memory, hmemory⟩
      · rintro ⟨⟨cpu, hcpu⟩, memory, hmemory⟩
        exact ⟨_, bind_eq_ok_iff.2 ⟨cpu, hcpu, bind_eq_ok_iff.2 ⟨memory, hmemory, rfl⟩⟩⟩
    rw [hboth, hcpu, exists_currentMemory_iff, Overflows, ← and_assoc]
    simp [quantities, or_imp, forall_and]

/-- **Every parameter is feasible.**  A field gives parameters exactly if its present quantities can
be read and nothing overflows, whatever else the field holds; and then the default bounds are
widened for the baseline where it lies outside and are otherwise kept, the range goes from one on,
and the baseline is an integer in it. -/
theorem feasible_of_parameterList (t : Tuned) (namer : Namer) :
    ((∃ ps, t.selection.parameterList namer = .ok ps) ↔
      (∀ q ∈ t.quantities, ∃ x, Quantity.parse q = .ok x) ∧ ¬ t.Overflows) ∧
    ∀ ps, t.selection.parameterList namer = .ok ps →
      List.Forall₂ (fun bounds p => p.Widens bounds ∧ p.Feasible) t.bounds ps := by
  refine ⟨t.exists_parameterList_iff namer, fun ps hps => ?_⟩
  cases t with
  | replicas f =>
    obtain rfl := Except.ok.inj hps
    obtain ⟨n, hn⟩ := f.exists_startsAt_replicas namer
    exact .cons (hn.feasible (by decide) (by decide)) .nil
  | resources f =>
    obtain ⟨cpu, -, hps⟩ := bind_eq_ok_iff.1 hps
    obtain ⟨memory, -, hps⟩ := bind_eq_ok_iff.1 hps
    obtain rfl := Except.ok.inj hps
    obtain ⟨n, hn⟩ := exists_startsAt_bounded (f.resourceName namer "cpu") cpuBounds cpu
    obtain ⟨m, hm⟩ := exists_startsAt_bounded (f.resourceName namer "memory") memoryBounds memory
    exact .cons (hn.feasible (by decide) (by decide))
      (.cons (hm.feasible (by decide) (by decide)) .nil)

/-- A container with less memory than the bounds would allow, and a quantity of processor time that
makes no sense. -/
def scantyContainer : TunedField :=
  { target := default, path := ["resources"],
    current := .mapping [(.string "requests", .mapping [
      (.string "cpu", .string "-1"), (.string "memory", .string "64Mi")])] }

theorem feasible_of_parameterList_sample : ∃ cpu memory : Parameter,
    (resources scantyContainer).selection.parameterList .empty = .ok [cpu, memory] ∧
      (cpu.baseline = none ∧ memory.baseline = some (.int 64) ∧ memory.min = 64) ∧
      (cpu.Widens (100, 4000) ∧ cpu.Feasible) ∧ memory.Widens (128, 4096) ∧ memory.Feasible := by
  have hparameters : (resources scantyContainer).selection.parameterList .empty =
      .ok [{ name := "cpu", min := 100, max := 4000 },
        { name := "memory", min := 64, max := 4096, baseline := some (.int 64) }] := by
    decide +kernel
  have hfeasible := (feasible_of_parameterList (resources scantyContainer) .empty).2 _ hparameters
  obtain ⟨hcpu, hfeasible⟩ := List.forall₂_cons.1 hfeasible
  obtain ⟨hmemory, -⟩ := List.forall₂_cons.1 hfeasible
  exact ⟨_, _, hparameters, ⟨rfl, rfl, rfl⟩, hcpu, hmemory⟩

end Tuned

end ClusterTuning
