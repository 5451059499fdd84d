import ClusterTuning.Quantity
import ClusterTuning.Proofs.Numeric.Integers

/-!
# Rounding up with a tolerance

An amount is rounded up to an integer, but an amount that is above an integer by
less than the tolerance counts as that integer.  What is rounded is a number of the
format, which differs from the amount by some noise.

* `roundUp_eq` — what rounding up gives, for every number of the format;
* `RoundedUp.eq_ceil_iff` — for an amount that is known well enough it is the least
  integer not below, unless the amount is just above an integer.
-/

namespace ClusterTuning.Quantity

open Binary64

variable {negative : Bool} {q amount seen noise : Rat} {x : Binary64} {n : Int}

/-! ## The tolerance -/

theorem tolerance_eq : tolerance = .finite false 4722366482869645 (-72) := by
  decide +kernel

theorem represents_tolerance : Represents false tolerance.toRat tolerance := by
  rw [tolerance_eq]
  exact .mk ⟨by decide, by decide, by decide⟩ rfl

/-- The tolerance is a millionth, to sixteen digits. -/
theorem tolerance_bounds : 999999999999999 / 10 ^ 21 < tolerance.toRat ∧
    tolerance.toRat < 1 / 10 ^ 6 := by
  have hvalue : tolerance.toRat = 4722366482869645 * 2 ^ (-72 : Int) := by
    rw [tolerance_eq]
    rfl
  rw [hvalue]
  norm_num

/-! ## Rounding up -/

/-- The least integer that a number is not above by the tolerance. -/
def upward (q : Rat) : Int := (q - tolerance.toRat).floor + 1

theorem upward_spec (q : Rat) :
    upward q - 1 + tolerance.toRat ≤ q ∧ q < upward q + tolerance.toRat := by
  have hle := Rat.floor_le (q - tolerance.toRat)
  have hlt := Rat.lt_floor_add_one (q - tolerance.toRat)
  unfold upward
  push_cast at hlt ⊢
  constructor <;> linarith

theorem upward_eq_iff : upward q = n ↔ n - 1 + tolerance.toRat ≤ q ∧ q < n + tolerance.toRat := by
  constructor
  · rintro rfl
    exact upward_spec q
  · rintro ⟨hle, hlt⟩
    unfold upward
    have hle' : n - 1 ≤ (q - tolerance.toRat).floor := by
      rw [Rat.le_floor_iff]
      push_cast
      linarith
    have hlt' : (q - tolerance.toRat).floor < n := by
      rw [Rat.floor_lt_iff]
      linarith
    omega

theorem ceil_eq_iff : q.ceil = n ↔ n - 1 < q ∧ q ≤ n := by
  constructor
  · rintro rfl
    have hlt := Rat.ceil_lt (x := q)
    exact ⟨by linarith, Rat.le_ceil⟩
  · rintro ⟨hlt, hle⟩
    have hlt' : n - 1 < q.ceil := by
      rw [Rat.lt_ceil_iff]
      push_cast
      exact hlt
    have hle' := Rat.ceil_le_iff.2 hle
    omega

/-- A number that is close to an integer counts as this integer. -/
theorem upward_eq_of_close {k : Int} (h : (q - k).abs < tolerance.toRat) : upward q = k := by
  obtain ⟨-, htolerance⟩ := tolerance_bounds
  rw [upward_eq_iff]
  rcases le_total 0 (q - k) with hsign | hsign
  · rw [Rat.abs_of_nonneg hsign] at h
    constructor <;> linarith
  · rw [Rat.abs_of_nonpos hsign] at h
    constructor <;> linarith

/-- A number that is not close to the nearest integer is rounded up as it stands. -/
theorem upward_eq_ceil {k : Int} (hnear : (q - k).abs ≤ 1 / 2)
    (hfar : tolerance.toRat ≤ (q - k).abs) : upward q = q.ceil := by
  obtain ⟨hpositive, -⟩ := tolerance_bounds
  rcases le_total 0 (q - k) with hsign | hsign
  · rw [Rat.abs_of_nonneg hsign] at hnear hfar
    have hceil : q.ceil = k + 1 := by
      rw [ceil_eq_iff]
      push_cast
      constructor <;> linarith
    rw [hceil, upward_eq_iff]
    push_cast
    constructor <;> linarith
  · rw [Rat.abs_of_nonpos hsign] at hnear hfar
    have hceil : q.ceil = k := by
      rw [ceil_eq_iff]
      constructor <;> linarith
    rw [hceil, upward_eq_iff]
    constructor <;> linarith

theorem abs_signed_sub (negative : Bool) (a b : Rat) :
    (signed negative a - signed negative b).abs = (a - b).abs := by
  cases negative
  · rfl
  · rw [← Rat.abs_neg]
    congr 1
    simp only [signed, if_true]
    ring

/-- **Rounding up gives the least integer that the number is not above by the tolerance**, limited
to 64 bits. -/
theorem roundUp_eq (h : Represents negative q x) : roundUp x = limitInt64 (upward x.toRat) := by
  obtain ⟨n, hn, hlow, hhigh⟩ := h.nearestAway
  obtain ⟨sign, hdiff⟩ := h.sub_of_near hn hlow hhigh
  obtain ⟨m, hm, hceil⟩ := h.ceiling
  have hclose := hdiff.abs.lt_iff represents_tolerance
  -- the nearest integer with the sign of the number
  obtain ⟨k, hk⟩ : ∃ k : Int, signed negative n = k := by
    cases negative
    · exact ⟨n, rfl⟩
    · exact ⟨-n, by simp [signed]⟩
  have habs : (x.toRat - k).abs = (q - n).abs := by
    rw [h.toRat_eq, ← hk, abs_signed_sub]
  have hnear : (x.toRat - k).abs ≤ 1 / 2 := by
    rw [habs]
    rcases le_total 0 (q - n) with hsign | hsign
    · rw [Rat.abs_of_nonneg hsign]
      linarith
    · rw [Rat.abs_of_nonpos hsign]
      linarith
  rw [← habs] at hclose
  unfold roundUp
  dsimp only
  split
  · next hlt => rw [hn.toInt64_eq hk, upward_eq_of_close (hclose.1 hlt)]
  · next hge =>
    rw [hm.toInt64_eq hceil, ← h.toRat_eq, upward_eq_ceil hnear (not_lt.1 (mt hclose.2 hge))]

/-! ## Noise -/

/-- An integer that rounding up can give for an amount that is known up to the noise. -/
structure RoundedUp (noise amount : Rat) (n : Int) : Prop where
  lower : amount - noise - tolerance.toRat < n
  upper : n ≤ amount + noise + 1 - tolerance.toRat

/-- An amount that is above an integer, but by less than the tolerance. -/
def IsJustAbove (amount : Rat) : Prop :=
  0 < amount - amount.floor ∧ amount - amount.floor < tolerance.toRat

/-- The noise is below the tolerance, and too small to carry the amount over the point where
rounding up begins. -/
structure Settled (noise amount : Rat) : Prop where
  below : noise < tolerance.toRat
  apart : amount - amount.floor + noise < tolerance.toRat ∨
    tolerance.toRat + noise ≤ amount - amount.floor

theorem roundedUp_upward (hlow : amount - noise ≤ seen) (hhigh : seen ≤ amount + noise) :
    RoundedUp noise amount (upward seen) := by
  obtain ⟨hle, hlt⟩ := upward_spec seen
  constructor <;> linarith

/-- **A settled amount is rounded up to the least integer not below it, unless it is just above an
integer.** -/
theorem RoundedUp.eq_ceil_iff (h : RoundedUp noise amount n) (hnoise : 0 ≤ noise)
    (hsettled : Settled noise amount) : n = amount.ceil ↔ ¬ IsJustAbove amount := by
  have htolerance := tolerance_bounds
  have hbelow := hsettled.below
  have hlow := h.lower
  have hhigh := h.upper
  have hfloor := Rat.floor_le amount
  have hfloor' := Rat.lt_floor_add_one amount
  push_cast at hfloor'
  rcases hsettled.apart with hapart | hapart
  · -- the amount counts as the integer below it
    have hle : n < amount.floor + 1 := by
      have : (n : Rat) < amount.floor + 1 := by linarith
      exact_mod_cast this
    have hge : amount.floor - 1 < n := by
      have : (amount.floor : Rat) - 1 < n := by linarith
      exact_mod_cast this
    obtain rfl : n = amount.floor := by omega
    rw [eq_comm, ceil_eq_iff, IsJustAbove]
    constructor
    · rintro ⟨-, hle⟩ ⟨hpos, -⟩
      linarith
    · intro hnot
      refine ⟨by linarith, not_lt.1 fun hlt => hnot ⟨by linarith, by linarith⟩⟩
  · -- the amount is above that integer by the tolerance
    have hle : n < amount.floor + 2 := by
      have : (n : Rat) < amount.floor + 2 := by linarith
      exact_mod_cast this
    have hge : amount.floor < n := by
      have : (amount.floor : Rat) < n := by linarith
      exact_mod_cast this
    obtain rfl : n = amount.floor + 1 := by omega
    rw [eq_comm, ceil_eq_iff, IsJustAbove]
    push_cast
    constructor
    · rintro - ⟨-, hlt⟩
      linarith
    · intro _
      constructor <;> linarith

end ClusterTuning.Quantity
