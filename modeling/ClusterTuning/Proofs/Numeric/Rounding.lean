import ClusterTuning.Numeric.Decimal
import Mathlib.Algebra.Order.Field.Power
import Mathlib.Algebra.Order.Ring.Rat
import Mathlib.Tactic.Linarith
import Mathlib.Tactic.Positivity
import Mathlib.Tactic.Ring

/-!
# One rounding

A finite number of the format stands for a magnitude `significand * 2 ^ exponent`.
Rounding takes a number to the nearest point of a grid, whose spacing is chosen so
that the significand has 53 digits, or is the least one of the format.

* `round_grid` — what rounding gives, while it stays within the format;
* `round_of_fits` — a number of the format is its own rounding;
* `round_error` — the result is off by half a unit of the grid at most.
-/

namespace ClusterTuning.Binary64

/-! ## Numbers of the format -/

/-- A significand and an exponent that the format has room for. -/
structure Fits (significand : Nat) (exponent : Int) : Prop where
  significand_lt : significand < significandBound
  min_le : minExponent ≤ exponent
  le_max : exponent ≤ maxExponent

/-- A magnitude with a sign. -/
def signed (negative : Bool) (q : Rat) : Rat := if negative then -q else q

/-- A finite number of the format with this sign and magnitude. -/
inductive Represents (negative : Bool) (q : Rat) : Binary64 → Prop
  | mk {significand : Nat} {exponent : Int} (fits : Fits significand exponent)
      (value : (significand : Rat) * 2 ^ exponent = q) :
      Represents negative q (.finite negative significand exponent)

/-- The greatest magnitude of a finite number. -/
def largest : Rat := 9007199254740991 * 2 ^ maxExponent

variable {negative : Bool} {q : Rat}

theorem two_zpow_pos (k : Int) : (0 : Rat) < 2 ^ k := by
  positivity

theorem two_zpow_le {a b : Int} (h : a ≤ b) : (2 : Rat) ^ a ≤ 2 ^ b :=
  zpow_le_zpow_right₀ (by norm_num) h

theorem two_zpow_lt_iff {a b : Int} : (2 : Rat) ^ a < 2 ^ b ↔ a < b :=
  zpow_lt_zpow_iff_right₀ (by norm_num)

theorem two_zpow_add (a b : Int) : (2 : Rat) ^ (a + b) = 2 ^ a * 2 ^ b :=
  zpow_add₀ (by norm_num) a b

theorem two_zpow_neg_mul (k : Int) : (2 : Rat) ^ (-k) * 2 ^ k = 1 := by
  rw [← two_zpow_add, neg_add_cancel, zpow_zero]

theorem Represents.nonneg {x : Binary64} (h : Represents negative q x) : 0 ≤ q := by
  obtain ⟨-, rfl⟩ := h
  positivity

theorem Represents.magnitude_eq {x : Binary64} (h : Represents negative q x) : x.magnitude = q := by
  obtain ⟨-, rfl⟩ := h
  rfl

theorem Represents.toRat_eq {x : Binary64} (h : Represents negative q x) :
    x.toRat = signed negative q := by
  obtain ⟨-, rfl⟩ := h
  rfl

theorem represents_zero : Represents negative 0 (zero negative) := by
  refine .mk ⟨?_, ?_, ?_⟩ ?_
  · decide
  · decide
  · decide
  · simp

/-! ## The grid -/

/-- A positive number lies between two powers of two. -/
theorem floorLog2_spec (hq : 0 < q) :
    (2 : Rat) ^ floorLog2 q ≤ q ∧ q < 2 ^ (floorLog2 q + 1) := by
  have hnum : q.num.natAbs ≠ 0 := by
    have := Rat.num_pos.2 hq
    omega
  have hq' : q * q.den = q.num.natAbs := by
    rw [Rat.mul_den_eq_num, ← Int.cast_natCast, Int.natAbs_of_nonneg (Rat.num_nonneg.2 hq.le)]
  have hden : (0 : Rat) < q.den := by exact_mod_cast q.den_pos
  -- numerator and denominator each lie between two powers of two
  have hn : (2 : Rat) ^ (q.num.natAbs.log2 : Int) ≤ q.num.natAbs := by
    rw [zpow_natCast]
    exact_mod_cast Nat.log2_self_le hnum
  have hn' : (q.num.natAbs : Rat) < 2 ^ ((q.num.natAbs.log2 : Int) + 1) := by
    rw [← Nat.cast_succ, zpow_natCast]
    exact_mod_cast Nat.lt_log2_self
  have hd : (2 : Rat) ^ (q.den.log2 : Int) ≤ q.den := by
    rw [zpow_natCast]
    exact_mod_cast Nat.log2_self_le q.den_nz
  have hd' : (q.den : Rat) < 2 ^ ((q.den.log2 : Int) + 1) := by
    rw [← Nat.cast_succ, zpow_natCast]
    exact_mod_cast Nat.lt_log2_self
  have hbelow : (2 : Rat) ^ ((q.num.natAbs.log2 : Int) - q.den.log2 - 1) ≤ q := by
    refine le_of_mul_le_mul_right ?_ hden
    calc (2 : Rat) ^ ((q.num.natAbs.log2 : Int) - q.den.log2 - 1) * q.den
        ≤ 2 ^ ((q.num.natAbs.log2 : Int) - q.den.log2 - 1) * 2 ^ ((q.den.log2 : Int) + 1) :=
          mul_le_mul_of_nonneg_left hd'.le (two_zpow_pos _).le
      _ = 2 ^ (q.num.natAbs.log2 : Int) := by
          rw [← two_zpow_add]
          congr 1
          ring
      _ ≤ q * q.den := hq' ▸ hn
  have habove : q < 2 ^ ((q.num.natAbs.log2 : Int) - q.den.log2 + 1) := by
    refine lt_of_mul_lt_mul_right ?_ hden.le
    calc q * q.den < 2 ^ ((q.num.natAbs.log2 : Int) + 1) := hq' ▸ hn'
      _ = 2 ^ ((q.num.natAbs.log2 : Int) - q.den.log2 + 1) * 2 ^ (q.den.log2 : Int) := by
          rw [← two_zpow_add]
          congr 1
          ring
      _ ≤ 2 ^ ((q.num.natAbs.log2 : Int) - q.den.log2 + 1) * q.den :=
          mul_le_mul_of_nonneg_left hd (two_zpow_pos _).le
  unfold floorLog2
  dsimp only
  split
  · next h => exact ⟨h, habove⟩
  · next h =>
    refine ⟨hbelow, ?_⟩
    rw [sub_add_cancel]
    exact not_le.1 h

/-- The exponent of the grid on which a positive number is rounded. -/
def gridExponent (q : Rat) : Int :=
  max (floorLog2 q - 52) minExponent

theorem lt_grid (hq : 0 < q) : q < 2 ^ (gridExponent q + 53) := by
  refine lt_of_lt_of_le (floorLog2_spec hq).2 (two_zpow_le ?_)
  unfold gridExponent
  omega

theorem grid_le (hq : 0 < q) :
    gridExponent q = minExponent ∨ (2 : Rat) ^ (gridExponent q + 52) ≤ q := by
  rcases max_choice (floorLog2 q - 52) minExponent with h | h
  · refine .inr (le_of_eq_of_le ?_ (floorLog2_spec hq).1)
    rw [gridExponent, h, sub_add_cancel]
  · exact .inl h

/-! ## The nearest integer -/

theorem nearestEven_near (q : Rat) : q - 1 / 2 ≤ nearestEven q ∧ nearestEven q ≤ q + 1 / 2 := by
  have hle := Rat.floor_le q
  have hlt := Rat.lt_floor_add_one q
  rw [Int.cast_add, Int.cast_one] at hlt
  unfold nearestEven
  dsimp only
  split
  · constructor <;> linarith
  · split
    · rw [Int.cast_add, Int.cast_one]
      constructor <;> linarith
    · split
      · constructor <;> linarith
      · rw [Int.cast_add, Int.cast_one]
        constructor <;> linarith

theorem nearestEven_intCast (n : Int) : nearestEven n = n := by
  unfold nearestEven
  dsimp only
  rw [Rat.floor_intCast, sub_self, if_pos (by norm_num)]

/-- Rounding to an integer does not pass by an integer. -/
theorem nearestEven_le {n : Int} (h : q ≤ n) : nearestEven q ≤ n := by
  have hnear := (nearestEven_near q).2
  have hlt : (nearestEven q : Rat) < (n + 1 : Int) := by
    rw [Int.cast_add, Int.cast_one]
    linarith
  have : nearestEven q < n + 1 := by exact_mod_cast hlt
  omega

theorem nearestEven_nonneg (hq : 0 ≤ q) : 0 ≤ nearestEven q := by
  have hnear := (nearestEven_near q).1
  have hlt : ((-1 : Int) : Rat) < nearestEven q := by
    rw [Int.cast_neg, Int.cast_one]
    linarith
  have : -1 < nearestEven q := by exact_mod_cast hlt
  omega

/-! ## Rounding -/

theorem gridExponent_le (hq : 0 < q) (hmax : q ≤ largest) : gridExponent q ≤ maxExponent := by
  rcases grid_le hq with h | h
  · rw [h]
    decide
  · have hlt : (2 : Rat) ^ (gridExponent q + 52) < 2 ^ (maxExponent + 53) := by
      refine lt_of_le_of_lt (h.trans hmax) ?_
      rw [largest, add_comm, two_zpow_add]
      exact mul_lt_mul_of_pos_right (by norm_num) (two_zpow_pos _)
    have := two_zpow_lt_iff.1 hlt
    omega

/-- On its grid a number is below the bound of a significand. -/
theorem significand_le (hq : 0 < q) :
    nearestEven (q * 2 ^ (-gridExponent q)) ≤ significandBound := by
  refine nearestEven_le ?_
  have hlt := mul_lt_mul_of_pos_right (lt_grid hq) (two_zpow_pos (-gridExponent q))
  rw [← two_zpow_add, show gridExponent q + 53 + -gridExponent q = 53 by ring] at hlt
  refine hlt.le.trans (le_of_eq ?_)
  norm_num [significandBound]

theorem significand_le_of_largest (hmax : q ≤ largest) (h : gridExponent q = maxExponent) :
    nearestEven (q * 2 ^ (-gridExponent q)) ≤ 9007199254740991 := by
  refine nearestEven_le ?_
  have hle := mul_le_mul_of_nonneg_right hmax (two_zpow_pos (-gridExponent q)).le
  rw [largest, h, mul_assoc, mul_comm (2 ^ maxExponent), two_zpow_neg_mul, mul_one] at hle
  rw [h]
  exact_mod_cast hle

/-- A number that is rounded up to the next power of two has the next exponent. -/
theorem round_of_carry (negative : Bool) (hq : q ≠ 0)
    (hs : nearestEven (q * 2 ^ (-gridExponent q)) = (significandBound : Nat))
    (hmax : gridExponent q < maxExponent) :
    round negative q = .finite negative (significandBound / 2) (gridExponent q + 1) := by
  rw [round, if_neg hq]
  dsimp only
  rw [← gridExponent, hs, Int.toNat_natCast, if_pos rfl]
  dsimp only
  rw [if_neg (by omega), if_neg (by decide)]

theorem round_of_lt (negative : Bool) {s : Nat} (hq : q ≠ 0)
    (hs : nearestEven (q * 2 ^ (-gridExponent q)) = s) (hlt : s < significandBound)
    (hmax : gridExponent q ≤ maxExponent) :
    round negative q = if s = 0 then zero negative else .finite negative s (gridExponent q) := by
  rw [round, if_neg hq]
  dsimp only
  rw [← gridExponent, hs, Int.toNat_natCast, if_neg (Nat.ne_of_lt hlt)]
  dsimp only
  rw [if_neg (by omega)]

/-- Within the format, rounding gives the nearest point of the grid. -/
theorem round_grid (negative : Bool) (hq : 0 < q) (hmax : q ≤ largest) :
    Represents negative (nearestEven (q * 2 ^ (-gridExponent q)) * 2 ^ gridExponent q)
      (round negative q) := by
  have hexponent := gridExponent_le hq hmax
  have hmin : minExponent ≤ gridExponent q := le_max_right _ _
  have hle := significand_le hq
  have htop := significand_le_of_largest hmax
  have hnonneg := nearestEven_nonneg (mul_pos hq (two_zpow_pos (-gridExponent q))).le
  obtain ⟨s, hs⟩ := Int.eq_ofNat_of_zero_le hnonneg
  rw [hs] at hle htop ⊢
  rw [Int.cast_natCast]
  by_cases hcarry : s = significandBound
  · have hne : gridExponent q ≠ maxExponent := by
      intro h
      have := htop h
      rw [hcarry] at this
      exact absurd this (by decide)
    rw [hcarry] at hs ⊢
    rw [round_of_carry negative hq.ne' hs (by omega)]
    refine .mk ⟨by decide, by omega, by omega⟩ ?_
    rw [two_zpow_add, significandBound]
    norm_num
    ring
  · rw [round_of_lt negative hq.ne' hs (by omega) hexponent]
    by_cases hzero : s = 0
    · rw [if_pos hzero, hzero, Nat.cast_zero, zero_mul]
      exact represents_zero
    · rw [if_neg hzero]
      exact .mk ⟨by omega, hmin, hexponent⟩ rfl

/-- A number of the format is its own rounding. -/
theorem round_of_fits {significand : Nat} {exponent : Int} (negative : Bool)
    (hfits : significand < significandBound) (hmin : minExponent ≤ exponent)
    (hmax : (significand : Rat) * 2 ^ exponent ≤ largest) :
    Represents negative (significand * 2 ^ exponent)
      (round negative (significand * 2 ^ exponent)) := by
  rcases Nat.eq_zero_or_pos significand with rfl | hpos
  · rw [Nat.cast_zero, zero_mul, round, if_pos rfl]
    exact represents_zero
  have hq : (0 : Rat) < significand * 2 ^ exponent := by positivity
  -- the grid is no coarser than the exponent
  have hgrid : gridExponent (significand * 2 ^ exponent) ≤ exponent := by
    rcases grid_le hq with h | h
    · rw [h]
      exact hmin
    · have hlt : (2 : Rat) ^ (gridExponent (significand * 2 ^ exponent) + 52) <
          2 ^ (exponent + 53) := by
        refine lt_of_le_of_lt h ?_
        rw [add_comm exponent, two_zpow_add]
        refine mul_lt_mul_of_pos_right ?_ (two_zpow_pos _)
        exact_mod_cast hfits
      have := two_zpow_lt_iff.1 hlt
      omega
  have hround := round_grid negative hq hmax
  generalize hg : gridExponent (significand * 2 ^ exponent) = g at hgrid hround
  obtain ⟨k, hk⟩ := Int.eq_ofNat_of_zero_le (sub_nonneg.2 hgrid)
  have hwhole : (significand : Rat) * 2 ^ exponent * 2 ^ (-g) =
      ((significand * 2 ^ k : Nat) : Int) := by
    rw [mul_assoc, ← two_zpow_add, ← sub_eq_add_neg, hk]
    push_cast
    rfl
  rw [hwhole, nearestEven_intCast, ← hwhole, mul_assoc, two_zpow_neg_mul, mul_one] at hround
  exact hround

/-- An integer that a significand can hold is its own rounding. -/
theorem represents_round {n : Nat} (hn : n < significandBound) :
    Represents negative n (round negative n) := by
  have hlarge : (n : Rat) * 2 ^ (0 : Int) ≤ largest := by
    refine mul_le_mul ?_ (two_zpow_le (by decide)) (two_zpow_pos _).le (by norm_num)
    exact_mod_cast Nat.le_of_lt_succ hn
  have hround := round_of_fits negative hn (show minExponent ≤ 0 by decide) hlarge
  rwa [zpow_zero, mul_one] at hround

theorem represents_ofInt {n : Nat} (hn : n < significandBound) : Represents false n (ofInt n) := by
  have hsign : decide ((n : Int) < 0) = false :=
    decide_eq_false (Int.not_lt.2 (Int.natCast_nonneg n))
  rw [ofInt, hsign, Int.natAbs_natCast]
  exact represents_round hn

/-- Rounding is off by half a unit of the grid at most: by one part in `2 ^ 53`, or by half of the
least positive number. -/
theorem round_error (negative : Bool) (hq : 0 ≤ q) (hmax : q ≤ largest) :
    ∃ r, Represents negative r (round negative q) ∧
      q - r ≤ max (q / 2 ^ 53) (2 ^ (-1075 : Int)) ∧
      r - q ≤ max (q / 2 ^ 53) (2 ^ (-1075 : Int)) := by
  rcases hq.eq_or_lt with rfl | hpos
  · have hleast : (0 : Rat) ≤ max (0 / 2 ^ 53) (2 ^ (-1075 : Int)) :=
      le_max_of_le_right (two_zpow_pos (-1075)).le
    refine ⟨0, ?_, ?_, ?_⟩
    · rw [round, if_pos rfl]
      exact represents_zero
    · rwa [sub_zero]
    · rwa [sub_zero]
  · refine ⟨_, round_grid negative hpos hmax, ?_⟩
    -- half a unit of the grid
    have hhalf : (2 : Rat) ^ gridExponent q / 2 ≤ max (q / 2 ^ 53) (2 ^ (-1075 : Int)) := by
      rcases grid_le hpos with h | h
      · refine le_max_of_le_right (le_of_eq ?_)
        rw [h, minExponent, show (-1074 : Int) = -1075 + 1 by rfl, two_zpow_add, zpow_one,
          mul_div_assoc, div_self two_ne_zero, mul_one]
      · refine le_max_of_le_left ?_
        rw [two_zpow_add, show (2 : Rat) ^ (52 : Int) = 2 ^ 53 / 2 by norm_num] at h
        linarith
    have hnear := nearestEven_near (q * 2 ^ (-gridExponent q))
    have hback : q * 2 ^ (-gridExponent q) * 2 ^ gridExponent q = q := by
      rw [mul_assoc, two_zpow_neg_mul, mul_one]
    have hlow := mul_le_mul_of_nonneg_right hnear.1 (two_zpow_pos (gridExponent q)).le
    have hhigh := mul_le_mul_of_nonneg_right hnear.2 (two_zpow_pos (gridExponent q)).le
    rw [sub_mul, hback] at hlow
    rw [add_mul, hback] at hhigh
    constructor <;> linarith

end ClusterTuning.Binary64
