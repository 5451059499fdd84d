import ClusterTuning.Proofs.Outcome
import ClusterTuning.Proofs.Quantity.RoundingUp
import ClusterTuning.Tuning.Resources

/-!
# The present memory of a container

Memory is tuned in mebibytes, from its present value on.  The number of bytes is
rounded up by adding a mebibyte and taking one away, in 64 bits with a sign: next to
the greatest integer the sum overflows, and there are no parameters at all.

* `currentMemory_of_le`, `currentMemory_of_lt` — the present memory while the sum fits,
  and when it does not;
* `startsAt_wholeMebibytes_or_overflow` — for which quantities the memory parameter
  starts at the present value.
-/

namespace ClusterTuning.TunedField

variable {f : TunedField} {namer : Namer} {v : Int} {q name : String}
  {bounds : Int32 × Int32} {parameters : List Parameter}

/-! ## Parameters with a present value -/

/-- A parameter between two bounds starts at a number: if the number is positive it is the baseline
and within the bounds, which are widened for it; else there is no baseline. -/
structure StartsAt (bounds : Int32 × Int32) (n : Int) (p : Parameter) : Prop where
  baseline_eq : p.baseline = if 0 < n then some (.int (Int32.ofInt n)) else none
  min_eq : p.min.toInt = if 0 < n then min bounds.1.toInt n else bounds.1.toInt
  max_eq : p.max.toInt = if 0 < n then max bounds.2.toInt n else bounds.2.toInt

theorem toInt_min (a b : Int32) : (min a b).toInt = min a.toInt b.toInt := by
  have hmin : min a b = if a ≤ b then a else b := rfl
  rw [hmin, apply_ite Int32.toInt]
  simp only [Int32.le_iff_toInt_le]
  exact (Int.min_def _ _).symm

theorem toInt_max (a b : Int32) : (max a b).toInt = max a.toInt b.toInt := by
  have hmax : max a b = if a ≤ b then b else a := rfl
  rw [hmax, apply_ite Int32.toInt]
  simp only [Int32.le_iff_toInt_le]
  exact (Int.max_def _ _).symm

theorem bounded_startsAt (n : Int32) :
    StartsAt bounds n.toInt (bounded name bounds (some n)) := by
  have hpos : 0 < n ↔ 0 < n.toInt := Int32.lt_iff_toInt_lt
  have hfilter : (some n).filter (0 < ·) = if 0 < n then some n else none := by
    simp [Option.filter]
  unfold bounded
  rw [hfilter]
  by_cases h : 0 < n
  · rw [if_pos h]
    have h' := hpos.1 h
    refine ⟨?_, ?_, ?_⟩
    · rw [if_pos h', Int32.ofInt_toInt]
    · rw [if_pos h', toInt_min]
    · rw [if_pos h', toInt_max]
  · rw [if_neg h]
    have h' := mt hpos.2 h
    refine ⟨?_, ?_, ?_⟩
    · rw [if_neg h']
    · rw [if_neg h']
    · rw [if_neg h']

/-! ## Mebibytes -/

/-- The least number of mebibytes that holds so many bytes, within the nonnegative integers of 32
bits. -/
def wholeMebibytes (bytes : Int) : Int :=
  max 0 (min ((bytes : Rat) / 1048576).ceil maxInt32)

theorem ceil_div_mebibyte (v : Int) : ((v : Rat) / 1048576).ceil = (v + 1048575) / 1048576 := by
  have hlt : (v + 1048575) / 1048576 * 1048576 < v + 1048576 := by omega
  have hle : v ≤ (v + 1048575) / 1048576 * 1048576 := by omega
  rw [Quantity.ceil_eq_iff, lt_div_iff₀ (by norm_num), div_le_iff₀ (by norm_num)]
  constructor
  · have : (((v + 1048575) / 1048576 : Int) : Rat) * 1048576 < v + 1048576 := by exact_mod_cast hlt
    linarith
  · exact_mod_cast hle

theorem clamped_toInt (n : Int) : (clamped n).toInt = max 0 (min n maxInt32) := by
  refine Int32.toInt_ofInt_of_le ?_ ?_
  · omega
  · unfold maxInt32
    omega

theorem tdiv_nonpos {a b : Int} (ha : a ≤ 0) (hb : 0 ≤ b) : a.tdiv b ≤ 0 := by
  have hquotient : 0 ≤ (-a).tdiv b := Int.tdiv_nonneg (by omega) hb
  rw [Int.neg_tdiv] at hquotient
  omega

/-- The quotient is cut off towards zero, which matters below zero only. -/
theorem clamped_tdiv (v : Int) :
    (clamped ((v + mebibyte - 1).tdiv mebibyte)).toInt = wholeMebibytes v := by
  rw [clamped_toInt, wholeMebibytes, ceil_div_mebibyte, mebibyte]
  rcases le_or_gt 0 (v + 1048576 - 1) with h | h
  · rw [Int.tdiv_eq_ediv_of_nonneg h]
    omega
  · have : (v + 1048576 - 1).tdiv 1048576 ≤ 0 := tdiv_nonpos h.le (by decide)
    omega

/-- While the sum fits, the bytes are divided. -/
theorem mebibytes_of_le (hmin : minInt64 ≤ v) (hsum : v + mebibyte ≤ maxInt64) :
    mebibytes v = .ok ((v + mebibyte - 1).tdiv mebibyte) := by
  have hpos : 0 < mebibyte := by decide
  unfold mebibytes
  rw [checkedInt64_eq_ok (by omega) hsum, ok_bind, checkedInt64_eq_ok (by omega) (by omega), ok_bind]
  rfl

theorem mebibytes_of_lt (hover : maxInt64 < v + mebibyte) : mebibytes v = .error .overflow := by
  unfold mebibytes
  rw [checkedInt64_eq_overflow hover]
  rfl

/-- Where the sum does not fit, the mebibytes would be more than a parameter can be. -/
theorem wholeMebibytes_of_lt (hover : maxInt64 < v + mebibyte) : wholeMebibytes v = maxInt32 := by
  rw [wholeMebibytes, ceil_div_mebibyte]
  unfold maxInt64 mebibyte at hover
  unfold maxInt32
  omega

/-! ## The present memory -/

theorem value_in_range (h : Quantity.value q = .ok v) : minInt64 ≤ v ∧ v ≤ maxInt64 := by
  unfold Quantity.value at h
  obtain ⟨x, -, rfl⟩ := map_eq_ok_iff.1 h
  unfold Quantity.roundUp
  dsimp only
  split
  · exact ⟨Binary64.minInt64_le_toInt64 _, Binary64.toInt64_le_maxInt64 _⟩
  · exact ⟨Binary64.minInt64_le_toInt64 _, Binary64.toInt64_le_maxInt64 _⟩

theorem currentMemory_of_le (hquantity : f.currentQuantity? "memory" = some q)
    (hvalue : Quantity.value q = .ok v) (hsum : v + mebibyte ≤ maxInt64) :
    f.currentMemory = .ok (some (clamped ((v + mebibyte - 1).tdiv mebibyte))) := by
  unfold currentMemory
  rw [hquantity, Option.mapM_some, hvalue, ok_bind, mebibytes_of_le (value_in_range hvalue).1 hsum]
  rfl

theorem currentMemory_of_lt (hquantity : f.currentQuantity? "memory" = some q)
    (hvalue : Quantity.value q = .ok v) (hover : maxInt64 < v + mebibyte) :
    f.currentMemory = .error .overflow := by
  unfold currentMemory
  rw [hquantity, Option.mapM_some, hvalue, ok_bind, mebibytes_of_lt hover]
  rfl

/-- The sum for the present memory is beyond 64 bits. -/
def Overflows (f : TunedField) : Prop :=
  ∃ q v, f.currentQuantity? "memory" = some q ∧ Quantity.value q = .ok v ∧ maxInt64 < v + 1048576

/-- A quantity gives a present memory if it can be read and the sum fits. -/
theorem exists_clamped_mebibytes_iff : (∃ n, (do
      return clamped (← mebibytes (← Quantity.value q)) : Except Failure Int32) = .ok n) ↔
    ∃ v, Quantity.value q = .ok v ∧ v + 1048576 ≤ maxInt64 := by
  constructor
  · rintro ⟨n, h⟩
    obtain ⟨v, hvalue, h⟩ := bind_eq_ok_iff.1 h
    obtain ⟨m, hmebibytes, -⟩ := bind_eq_ok_iff.1 h
    refine ⟨v, hvalue, not_lt.1 fun hover => ?_⟩
    exact nomatch hmebibytes.symm.trans (mebibytes_of_lt hover)
  · rintro ⟨v, hvalue, hsum⟩
    have hmebibytes := mebibytes_of_le (value_in_range hvalue).1 hsum
    exact ⟨_, bind_eq_ok_iff.2 ⟨v, hvalue, bind_eq_ok_iff.2 ⟨_, hmebibytes, rfl⟩⟩⟩

/-- The present memory is known, or known to be absent, if the quantity can be read and the sum
fits. -/
theorem exists_currentMemory_iff : (∃ r, f.currentMemory = .ok r) ↔
    (∀ q ∈ f.currentQuantity? "memory", ∃ x, Quantity.parse q = .ok x) ∧ ¬ f.Overflows := by
  simp only [currentMemory, exists_optional_eq_ok_iff, exists_clamped_mebibytes_iff]
  constructor
  · intro h
    refine ⟨fun q hq => ?_, ?_⟩
    · obtain ⟨v, hvalue, -⟩ := h q hq
      exact exists_map_eq_ok_iff.1 ⟨v, hvalue⟩
    · rintro ⟨q, v, hq, hvalue, hover⟩
      obtain ⟨v', hvalue', hsum⟩ := h q hq
      obtain rfl := Except.ok.inj (hvalue.symm.trans hvalue')
      exact absurd hsum (not_le.2 hover)
  · rintro ⟨hread, hfits⟩ q hq
    obtain ⟨v, hvalue⟩ : ∃ v, Quantity.value q = .ok v := exists_map_eq_ok_iff.2 (hread q hq)
    exact ⟨v, hvalue, not_lt.1 fun hover => hfits ⟨q, v, hq, hvalue, hover⟩⟩

/-- The second parameter is the one for the memory. -/
theorem exists_of_currentMemory {cpu : Option Int32} {n : Int32} (hcpu : f.currentCpu = .ok cpu)
    (hmemory : f.currentMemory = .ok (some n)) (namer : Namer) :
    ∃ p memory, f.resourceParameters namer = .ok [p, memory] ∧
      StartsAt memoryBounds n.toInt memory := by
  have hparameters : f.resourceParameters namer = .ok
      [bounded (f.resourceName namer "cpu") cpuBounds cpu,
        bounded (f.resourceName namer "memory") memoryBounds (some n)] := by
    rw [resourceParameters, hcpu, ok_bind, hmemory]
    rfl
  exact ⟨_, _, hparameters, bounded_startsAt n⟩

theorem resourceParameters_of_overflow (hmemory : f.currentMemory = .error .overflow)
    (namer : Namer) :
    (∀ parameters, f.resourceParameters namer ≠ .ok parameters) ∧
      ∀ cpu, f.currentCpu = .ok cpu → f.resourceParameters namer = .error .overflow := by
  have hgives (cpu : Option Int32) (hcpu : f.currentCpu = .ok cpu) :
      f.resourceParameters namer = .error .overflow := by
    rw [resourceParameters, hcpu, ok_bind, hmemory]
    rfl
  refine ⟨fun parameters h => ?_, hgives⟩
  obtain ⟨cpu, hcpu, -⟩ := bind_eq_ok_iff.1 h
  exact nomatch (hgives cpu hcpu).symm.trans h

/-- **The present memory is right unless the sum overflows.**  For every quantity that is accepted,
with its number of bytes in 64 bits: if a mebibyte more is within 64 bits as well, the memory
parameter starts at the mebibytes that hold these bytes, limited to what a parameter can be.
Otherwise, where this would be the limit, the sum overflows and there are no parameters.  It never
falls below the least integer. -/
theorem startsAt_wholeMebibytes_or_overflow {x : Binary64}
    (hquantity : f.currentQuantity? "memory" = some q) (haccepted : Quantity.parse q = .ok x) :
    ∃ v, Quantity.value q = .ok v ∧ minInt64 ≤ v ∧ v ≤ maxInt64 ∧
      (v + 1048576 ≤ maxInt64 →
        (∃ n : Int32, f.currentMemory = .ok (some n) ∧ n.toInt = wholeMebibytes v) ∧
        ∀ namer cpu, f.currentCpu = .ok cpu → ∃ p memory,
          f.resourceParameters namer = .ok [p, memory] ∧
            StartsAt memoryBounds (wholeMebibytes v) memory) ∧
      (maxInt64 < v + 1048576 →
        wholeMebibytes v = maxInt32 ∧ f.currentMemory = .error .overflow ∧
        ∀ namer, (∀ parameters, f.resourceParameters namer ≠ .ok parameters) ∧
          ∀ cpu, f.currentCpu = .ok cpu → f.resourceParameters namer = .error .overflow) := by
  obtain ⟨v, hvalue⟩ : ∃ v, Quantity.value q = .ok v := ⟨_, congrArg (Except.map _) haccepted⟩
  obtain ⟨hmin, hmax⟩ := value_in_range hvalue
  refine ⟨v, hvalue, hmin, hmax, fun hsum => ?_, fun hover => ?_⟩
  · have hmemory := currentMemory_of_le hquantity hvalue hsum
    refine ⟨⟨_, hmemory, clamped_tdiv v⟩, fun namer cpu hcpu => ?_⟩
    exact clamped_tdiv v ▸ exists_of_currentMemory hcpu hmemory namer
  · have hmemory := currentMemory_of_lt hquantity hvalue hover
    exact ⟨wholeMebibytes_of_lt hover, hmemory, resourceParameters_of_overflow hmemory⟩

/-- A container with nothing but a limit of its memory. -/
def withLimit (memory : String) : TunedField :=
  { target := default, path := ["spec"],
    current := .mapping [(.string "limits", .mapping [(.string "memory", .string memory)])] }

/-- Eight gibibytes, more than the parameter would go up to. -/
theorem startsAt_wholeMebibytes_or_overflow_sample : ∃ cpu memory,
    (withLimit "8Gi").resourceParameters .empty = .ok [cpu, memory] ∧
      memory.max = 8192 ∧ StartsAt memoryBounds 8192 memory := by
  have hquantity : (withLimit "8Gi").currentQuantity? "memory" = some "8Gi" := rfl
  have haccepted : Quantity.parse "8Gi" = .ok (.finite false 4503599627370496 (-19)) := by
    decide +kernel
  obtain ⟨v, hvalue, -, -, hfits, -⟩ := startsAt_wholeMebibytes_or_overflow hquantity haccepted
  obtain rfl : v = 8589934592 := by
    have hread : Quantity.value "8Gi" = .ok 8589934592 := by decide +kernel
    exact Except.ok.inj (hvalue.symm.trans hread)
  have hwhole : wholeMebibytes 8589934592 = 8192 := by decide +kernel
  obtain ⟨-, hstarts⟩ := hfits (by decide)
  obtain ⟨cpu, memory, hlist, hmemory⟩ := hstarts .empty none rfl
  rw [hwhole] at hmemory
  exact ⟨cpu, memory, hlist, Int32.toInt_inj.1 hmemory.max_eq, hmemory⟩

/-- Nine exbibytes are as much as 64 bits hold; they overflow where they should be the limit. -/
theorem overflow_of_nine_exbibytes : Quantity.value "9Ei" = .ok maxInt64 ∧
    wholeMebibytes maxInt64 = maxInt32 ∧
    (withLimit "9Ei").resourceParameters .empty = .error .overflow := by
  decide +kernel

end ClusterTuning.TunedField
