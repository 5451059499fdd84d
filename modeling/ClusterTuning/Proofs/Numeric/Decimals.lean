import ClusterTuning.Proofs.Numeric.Closeness

/-!
# Reading a decimal numeral

The number of the format that is nearest to a decimal numeral is the rounding of
the exact number, also where the position of the first digit settles it.  A number
that survives rounding is kept as it is.

* `Survives.represents` — a number that survives is represented by its rounding;
* `ofDecimal_eq_round` — a numeral within the format is rounded once.
-/

namespace ClusterTuning

/-! ## Digits of the coefficient -/

namespace Decimal

variable {d : Decimal}

theorem toRat_nonneg (d : Decimal) : 0 ≤ d.toRat := by
  unfold toRat
  positivity

theorem lt_ten_pow_digitCount (d : Decimal) : d.coefficient < 10 ^ d.digitCount :=
  (Nat.length_toDigits_le_iff (by decide) Nat.length_toDigits_pos).1 le_rfl

theorem ten_pow_le_coefficient (h : d.coefficient ≠ 0) :
    10 ^ (d.digitCount - 1) ≤ d.coefficient := by
  rcases Nat.eq_zero_or_pos (d.digitCount - 1) with hone | hpos
  · rw [hone]
    omega
  · refine not_lt.1 fun hlt => ?_
    have hle : d.digitCount ≤ d.digitCount - 1 :=
      (Nat.length_toDigits_le_iff (by decide) hpos).2 hlt
    omega

end Decimal

namespace Binary64

variable {negative : Bool} {q : Rat} {d : Decimal}

/-! ## Numbers that survive -/

/-- Rounding does not change the number. -/
def Survives (q : Rat) : Prop := (round false q).magnitude = q

instance : DecidablePred Survives := fun q =>
  inferInstanceAs (Decidable ((round false q).magnitude = q))

theorem Survives.represents (h : Survives q) (hq : 0 ≤ q) (hmax : q ≤ largest) :
    Represents negative q (round negative q) := by
  rcases hq.eq_or_lt with rfl | hpos
  · rw [round, if_pos rfl]
    exact represents_zero
  · have hsame := (round_grid false hpos hmax).magnitude_eq
    rw [h] at hsame
    have hround := round_grid negative hpos hmax
    rwa [← hsame] at hround

/-! ## Numbers below the least one -/

theorem nearestEven_eq_zero (hq : 0 ≤ q) (hlt : q < 1 / 2) : nearestEven q = 0 := by
  have hfloor : q.floor = 0 := by
    have hge : 0 ≤ q.floor := Rat.le_floor_iff.2 hq
    have hle : q.floor < 1 := Rat.floor_lt_iff.2 (by push_cast; linarith)
    omega
  unfold nearestEven
  dsimp only
  rw [hfloor, Int.cast_zero, sub_zero, if_pos hlt]

/-- Below half of the least positive number everything is rounded to zero. -/
theorem round_of_tiny (hq : 0 < q) (htiny : q < 2 ^ (-1075 : Int)) :
    round negative q = zero negative := by
  have hgrid : gridExponent q = minExponent := by
    have hlt := two_zpow_lt_iff.1 ((floorLog2_spec hq).1.trans_lt htiny)
    refine max_eq_right ?_
    unfold minExponent
    omega
  have hhalf : q * 2 ^ (-minExponent) < 1 / 2 := by
    calc q * 2 ^ (-minExponent) < 2 ^ (-1075 : Int) * 2 ^ (-minExponent) :=
          mul_lt_mul_of_pos_right htiny (two_zpow_pos _)
      _ = 1 / 2 := by
        rw [← two_zpow_add]
        norm_num [minExponent]
  have hzero : nearestEven (q * 2 ^ (-gridExponent q)) = (0 : Nat) := by
    rw [hgrid]
    exact nearestEven_eq_zero (mul_nonneg hq.le (two_zpow_pos _).le) hhalf
  rw [round_of_lt negative hq.ne' hzero (by decide) (by rw [hgrid]; decide), if_pos rfl]

/-! ## The position of the first digit -/

/-- A numeral with a first digit far before the point is beyond the format. -/
theorem largest_lt_toRat (h : d.coefficient ≠ 0) (htop : 310 < d.digitCount + d.exponent) :
    largest < d.toRat := by
  have hlargest : largest < 10 ^ (310 : Nat) := by
    have hnat : 9007199254740991 * 2 ^ 971 < 10 ^ 310 := by decide +kernel
    rw [largest, maxExponent, show (971 : Int) = (971 : Nat) by rfl, zpow_natCast]
    exact_mod_cast hnat
  have hpos : 0 < d.digitCount := Nat.length_toDigits_pos
  calc largest < (10 : Rat) ^ (310 : Nat) := hlargest
    _ = (10 : Rat) ^ ((310 : Nat) : Int) := (zpow_natCast _ _).symm
    _ ≤ (10 : Rat) ^ (((d.digitCount - 1 : Nat) : Int) + d.exponent) :=
        zpow_le_zpow_right₀ (by norm_num) (by omega)
    _ = (10 : Rat) ^ (d.digitCount - 1) * 10 ^ d.exponent := by
        rw [zpow_add₀ (by norm_num), zpow_natCast]
    _ ≤ d.toRat := by
        refine mul_le_mul_of_nonneg_right ?_ (by positivity)
        exact_mod_cast Decimal.ten_pow_le_coefficient h

/-- A numeral with a first digit far behind the point is below the least number. -/
theorem toRat_lt_tiny (htop : d.digitCount + d.exponent < -330) :
    d.toRat < 2 ^ (-1075 : Int) := by
  have htiny : (10 : Rat) ^ (-331 : Int) < 2 ^ (-1075 : Int) := by
    have hnat : 2 ^ 1075 < 10 ^ 331 := by decide +kernel
    rw [show (-331 : Int) = -(331 : Nat) by rfl, show (-1075 : Int) = -(1075 : Nat) by rfl,
      zpow_neg, zpow_neg, zpow_natCast, zpow_natCast]
    exact inv_strictAnti₀ (by positivity) (by exact_mod_cast hnat)
  calc d.toRat ≤ (10 : Rat) ^ d.digitCount * 10 ^ d.exponent := by
        refine mul_le_mul_of_nonneg_right ?_ (by positivity)
        exact_mod_cast d.lt_ten_pow_digitCount.le
    _ = (10 : Rat) ^ (d.digitCount + d.exponent) := by
        rw [zpow_add₀ (by norm_num), zpow_natCast]
    _ ≤ 10 ^ (-331 : Int) := zpow_le_zpow_right₀ (by norm_num) (by omega)
    _ < 2 ^ (-1075 : Int) := htiny

/-! ## Reading -/

/-- **A numeral within the format is read with one rounding.** -/
theorem ofDecimal_eq_round (hmax : d.toRat ≤ largest) :
    ofDecimal negative d = round negative d.toRat := by
  unfold ofDecimal
  dsimp only
  split
  · next hzero =>
    have : d.toRat = 0 := by rw [Decimal.toRat, hzero, Nat.cast_zero, zero_mul]
    rw [this, round, if_pos rfl]
  · next hne =>
    split
    · next htop => exact absurd hmax (not_le.2 (largest_lt_toRat hne htop))
    · split
      · next htop =>
        have hpos : 0 < d.toRat := by
          refine mul_pos ?_ (by positivity)
          exact_mod_cast Nat.pos_of_ne_zero hne
        exact (round_of_tiny hpos (toRat_lt_tiny htop)).symm
      · rfl

end Binary64

end ClusterTuning
