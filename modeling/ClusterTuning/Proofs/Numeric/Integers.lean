import ClusterTuning.Proofs.Numeric.Rounding

/-!
# Integers next to a number

The nearest integer to a number of the format and the least integer that is not
below it are numbers of the format themselves, and so is what the number differs
from its nearest integer: no rounding changes any of them.

* `Represents.nearestAway`, `Represents.ceiling` — the two integers;
* `Represents.sub_of_near` — the difference from an integer nearby is exact;
* `Represents.toInt64_eq` — an integer of the format, limited to 64 bits.
-/

namespace ClusterTuning.Binary64

variable {negative sign : Bool} {q r : Rat} {x y : Binary64} {n : Nat}

/-! ## Signs and comparisons -/

theorem Represents.neg (h : Represents negative q x) : Represents (!negative) q x.neg := by
  obtain ⟨fits, hvalue⟩ := h
  exact .mk fits hvalue

theorem Represents.abs (h : Represents negative q x) : Represents false q x.abs := by
  obtain ⟨fits, hvalue⟩ := h
  exact .mk fits hvalue

theorem Represents.lt_iff (hx : Represents false q x) (hy : Represents false r y) :
    x.lt y = true ↔ q < r := by
  obtain ⟨-, rfl⟩ := hx
  obtain ⟨-, rfl⟩ := hy
  exact decide_eq_true_iff

/-! ## The two integers -/

/-- A number of the format is an integer, or its magnitude is below half of the bound of a
significand. -/
theorem Fits.cases {significand : Nat} {exponent : Int} (h : Fits significand exponent) :
    (0 ≤ exponent ∧ ∃ n : Nat, (significand : Rat) * 2 ^ exponent = n) ∨
      exponent < 0 ∧ (significand : Rat) * 2 ^ exponent < 4503599627370496 := by
  rcases le_or_gt 0 exponent with he | he
  · obtain ⟨k, rfl⟩ := Int.eq_ofNat_of_zero_le he
    exact .inl ⟨he, significand * 2 ^ k, by push_cast; rfl⟩
  · refine .inr ⟨he, ?_⟩
    have hs : (significand : Rat) < 9007199254740992 := by exact_mod_cast h.significand_lt
    have hhalf : (2 : Rat) ^ exponent ≤ 2 ^ (-1 : Int) := two_zpow_le (by omega)
    calc (significand : Rat) * 2 ^ exponent ≤ significand * 2 ^ (-1 : Int) :=
          mul_le_mul_of_nonneg_left hhalf significand.cast_nonneg
      _ < 4503599627370496 := by
        norm_num
        linarith

/-- An integer next to a number below half of the bound is one that a significand can hold. -/
theorem lt_significandBound (hq : q < 4503599627370496) (hn : (n : Rat) ≤ q + 1) :
    n < significandBound := by
  have hbound : ((significandBound : Nat) : Rat) = 9007199254740992 := by
    norm_num [significandBound]
  have : (n : Rat) < (significandBound : Nat) := by
    rw [hbound]
    linarith
  exact_mod_cast this

/-- The nearest integer is a number of the format. -/
theorem Represents.nearestAway (h : Represents negative q x) :
    ∃ n : Nat, Represents negative n x.nearestAway ∧ q - 1 / 2 ≤ n ∧ n ≤ q + 1 / 2 := by
  obtain @⟨significand, exponent, fits, rfl⟩ := h
  rcases fits.cases with ⟨he, n, hn⟩ | ⟨he, hlt⟩
  · refine ⟨n, ?_, by linarith, by linarith⟩
    rw [Binary64.nearestAway, if_pos he]
    exact .mk fits hn
  · have hnonneg : (0 : Rat) ≤ significand * 2 ^ exponent := by positivity
    generalize hq : (significand : Rat) * 2 ^ exponent = q at hlt hnonneg
    have hfloor : 0 ≤ (q + 1 / 2).floor := Rat.le_floor_iff.2 (by push_cast; linarith)
    obtain ⟨n, hn⟩ := Int.eq_ofNat_of_zero_le hfloor
    have hle := Rat.floor_le (q + 1 / 2)
    have hgt := Rat.lt_floor_add_one (q + 1 / 2)
    rw [hn] at hle hgt
    push_cast at hle hgt
    refine ⟨n, ?_, by linarith, by linarith⟩
    rw [Binary64.nearestAway, if_neg (by omega), hq]
    dsimp only
    rw [hn]
    exact represents_round (lt_significandBound hlt (by linarith))

/-- The least integer that is not below a number is a number of the format. -/
theorem Represents.ceiling (h : Represents negative q x) :
    ∃ n : Nat, Represents negative n x.ceiling ∧ signed negative n = (signed negative q).ceil := by
  obtain @⟨significand, exponent, fits, rfl⟩ := h
  rcases fits.cases with ⟨he, n, hn⟩ | ⟨he, hlt⟩
  · refine ⟨n, ?_, ?_⟩
    · rw [Binary64.ceiling, if_pos he]
      exact .mk fits hn
    · have hint : signed negative (n : Rat) = (signed negative n).num := by
        cases negative <;> simp [signed]
      rw [hn, hint, Rat.ceil_intCast]
  · have hnonneg : (0 : Rat) ≤ significand * 2 ^ exponent := by positivity
    generalize hq : (significand : Rat) * 2 ^ exponent = q at hlt hnonneg
    -- away from zero for a positive number, towards zero for a negative one
    have hstep : ∃ n : Nat, (if negative = true then (q.floor : Rat) else q.ceil) = n ∧
        (n : Rat) ≤ q + 1 := by
      have hfloor : 0 ≤ q.floor := Rat.le_floor_iff.2 hnonneg
      have hceil : -1 < q.ceil := Rat.lt_ceil_iff.2 (by push_cast; linarith)
      cases negative
      · obtain ⟨n, hn⟩ := Int.eq_ofNat_of_zero_le (show 0 ≤ q.ceil by omega)
        have hlt := Rat.ceil_lt (x := q)
        rw [hn, Int.cast_natCast] at hlt
        exact ⟨n, by rw [if_neg Bool.false_ne_true, hn, Int.cast_natCast], hlt.le⟩
      · obtain ⟨n, hn⟩ := Int.eq_ofNat_of_zero_le hfloor
        have hle := Rat.floor_le q
        rw [hn, Int.cast_natCast] at hle
        exact ⟨n, by rw [if_pos rfl, hn, Int.cast_natCast], by linarith⟩
    obtain ⟨n, hn, hle⟩ := hstep
    refine ⟨n, ?_, ?_⟩
    · rw [Binary64.ceiling, if_neg (by omega), hq]
      dsimp only
      rw [hn]
      exact represents_round (lt_significandBound hlt hle)
    · cases negative
      · rw [if_neg Bool.false_ne_true] at hn
        simp [signed, hn]
      · rw [if_pos rfl] at hn
        simp [signed, Rat.ceil_eq_neg_floor_neg, hn]

/-! ## The difference -/

theorem abs_intCast_mul (k : Int) (hr : 0 ≤ r) : ((k : Rat) * r).abs = (k.natAbs : Rat) * r := by
  rcases le_total 0 k with hk | hk
  · have hk' : (0 : Rat) ≤ k := by exact_mod_cast hk
    rw [Rat.abs_of_nonneg (mul_nonneg hk' hr), ← Int.cast_natCast, Int.natAbs_of_nonneg hk]
  · have hk' : (k : Rat) ≤ 0 := by exact_mod_cast hk
    rw [Rat.abs_of_nonpos (mul_nonpos_of_nonpos_of_nonneg hk' hr), ← Int.cast_natCast,
      Int.ofNat_natAbs_of_nonpos hk, Int.cast_neg, neg_mul]

/-- A number and an integer nearby differ by a number of the format. -/
theorem Fits.sub_of_near {significand : Nat} {exponent : Int} (h : Fits significand exponent)
    (hlow : (significand : Rat) * 2 ^ exponent - 1 / 2 ≤ n)
    (hhigh : (n : Rat) ≤ significand * 2 ^ exponent + 1 / 2) :
    ∃ s e, Fits s e ∧ (s : Rat) * 2 ^ e = ((significand : Rat) * 2 ^ exponent - n).abs := by
  rcases h.cases with ⟨-, m, hm⟩ | ⟨he, -⟩
  · -- two integers that are near are the same
    rw [hm] at hlow hhigh ⊢
    have hmn : m < n + 1 := by
      have : (m : Rat) < n + 1 := by linarith
      exact_mod_cast this
    have hnm : n < m + 1 := by
      have : (n : Rat) < m + 1 := by linarith
      exact_mod_cast this
    obtain rfl : m = n := by omega
    refine ⟨0, minExponent, ⟨by decide, by decide, by decide⟩, ?_⟩
    rw [sub_self, Rat.abs_zero, Nat.cast_zero, zero_mul]
  · obtain ⟨j, rfl⟩ : ∃ j : Nat, exponent = -j := ⟨exponent.natAbs, by omega⟩
    have hpos : (0 : Rat) < 2 ^ j := by positivity
    have hunit : (2 : Rat) ^ (-(j : Int)) = 1 / 2 ^ j := by
      rw [zpow_neg, zpow_natCast, one_div]
    -- on the grid of the number the difference is an integer
    have hgrid : (significand : Rat) * 2 ^ (-(j : Int)) - n =
        ((significand : Int) - n * 2 ^ j : Int) * 2 ^ (-(j : Int)) := by
      rw [hunit]
      push_cast
      rw [sub_mul, mul_assoc, mul_one_div_cancel hpos.ne', mul_one]
    rw [hunit, mul_one_div, sub_le_iff_le_add, div_le_iff₀ hpos] at hlow
    rw [hunit, mul_one_div, div_add' _ _ _ hpos.ne', le_div_iff₀ hpos] at hhigh
    refine ⟨((significand : Int) - n * 2 ^ j).natAbs, -j, ⟨?_, h.min_le, h.le_max⟩, ?_⟩
    · have hlow' : 2 * significand ≤ 2 * (n * 2 ^ j) + 2 ^ j := by
        have : (2 : Rat) * significand ≤ 2 * (n * 2 ^ j) + 2 ^ j := by linarith
        exact_mod_cast this
      have hhigh' : 2 * (n * 2 ^ j) ≤ 2 * significand + 2 ^ j := by
        have : 2 * ((n : Rat) * 2 ^ j) ≤ 2 * significand + 2 ^ j := by linarith
        exact_mod_cast this
      have hlt := h.significand_lt
      have hcast : (n : Int) * 2 ^ j = (n * 2 ^ j : Nat) := by push_cast; rfl
      rw [hcast]
      unfold significandBound at hlt ⊢
      rcases Nat.lt_or_ge j 54 with hj | hj
      · have : 2 ^ j ≤ 2 ^ 53 := Nat.pow_le_pow_right (by decide) (by omega)
        omega
      · -- a number this small has no other integer nearby than zero
        have : 2 ^ 54 ≤ 2 ^ j := Nat.pow_le_pow_right (by decide) hj
        rcases Nat.eq_zero_or_pos n with rfl | hn
        · omega
        · have : 2 ^ j ≤ n * 2 ^ j := Nat.le_mul_of_pos_left _ hn
          omega
    · rw [hgrid, abs_intCast_mul _ (two_zpow_pos _).le]

theorem Represents.add_eq (hx : Represents negative q x) (hy : Represents sign r y) :
    x.add y =
      if x.toRat + y.toRat = 0 then zero (negative && sign)
      else round (decide (x.toRat + y.toRat < 0)) (x.toRat + y.toRat).abs := by
  obtain ⟨-, -⟩ := hx
  obtain ⟨-, -⟩ := hy
  rfl

/-- No rounding changes the difference of a number and an integer nearby. -/
theorem Represents.sub_of_near (hx : Represents negative q x) (hy : Represents negative n y)
    (hlow : q - 1 / 2 ≤ n) (hhigh : (n : Rat) ≤ q + 1 / 2) :
    ∃ sign, Represents sign (q - n).abs (x.sub y) := by
  obtain ⟨s, e, fits, hvalue⟩ : ∃ s e, Fits s e ∧ (s : Rat) * 2 ^ e = (q - n).abs := by
    obtain ⟨hfits, rfl⟩ := hx
    exact hfits.sub_of_near hlow hhigh
  have hsum : x.toRat + y.neg.toRat = signed negative (q - n) := by
    rw [hx.toRat_eq, hy.neg.toRat_eq]
    cases negative <;> simp [signed] <;> ring
  have habs : (signed negative (q - n)).abs = (q - n).abs := by
    cases negative
    · rfl
    · exact Rat.abs_neg
  rw [sub, hx.add_eq hy.neg, hsum, habs]
  split
  · next hzero =>
    have : (q - n).abs = 0 := by rw [← habs, hzero, Rat.abs_zero]
    exact ⟨_, this ▸ represents_zero⟩
  · have hlarge : (s : Rat) * 2 ^ e ≤ largest := by
      refine mul_le_mul ?_ (two_zpow_le fits.le_max) (two_zpow_pos _).le (by norm_num)
      exact_mod_cast Nat.le_of_lt_succ fits.significand_lt
    have hround := round_of_fits (decide (signed negative (q - n) < 0))
      fits.significand_lt fits.min_le hlarge
    rw [hvalue] at hround
    exact ⟨_, hround⟩

/-! ## Conversion -/

/-- An integer limited to 64 bits with a sign. -/
def limitInt64 (n : Int) : Int := max minInt64 (min maxInt64 n)

theorem toInt64_le_maxInt64 (x : Binary64) : x.toInt64 ≤ maxInt64 := by
  cases x with
  | nan => decide
  | infinite sign => cases sign <;> decide
  | finite sign significand exponent =>
    cases sign
    · simp only [toInt64, Bool.false_eq_true, if_false]
      exact min_le_left _ _
    · have hfloor : 0 ≤ ((significand : Rat) * 2 ^ exponent).floor :=
        Rat.le_floor_iff.2 (by push_cast; positivity)
      simp only [toInt64, if_true, minInt64, maxInt64]
      omega

/-- An integer of the format is kept by the conversion, as far as it fits. -/
theorem Represents.toInt64_eq {m : Int} (h : Represents negative n x)
    (hm : signed negative n = m) : x.toInt64 = limitInt64 m := by
  obtain ⟨-, hvalue⟩ := h
  rw [toInt64, hvalue, ← Int.cast_natCast, Rat.floor_intCast, limitInt64]
  cases negative
  · have : (n : Int) = m := by
      rw [signed, if_neg Bool.false_ne_true] at hm
      exact_mod_cast hm
    rw [if_neg Bool.false_ne_true, ← this]
    simp only [minInt64, maxInt64]
    omega
  · have : -(n : Int) = m := by
      rw [signed, if_pos rfl] at hm
      exact_mod_cast hm
    rw [if_pos rfl, ← this]
    simp only [minInt64, maxInt64]
    omega

end ClusterTuning.Binary64
