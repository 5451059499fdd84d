import ClusterTuning.Proofs.Quantity.Factors
import ClusterTuning.Proofs.Quantity.RoundingUp

/-!
# The amount that a quantity names

A quantity names an exact amount: a decimal numeral times the factor of its suffix.
What is computed instead takes a rounding for the numeral, for the factor unless
the format has it, and for their product.

* `Amount.represents_number`, `Amount.approximates_number` — how the computed number
  is related to the amount, and the same for its thousandfold;
* `roundsUp_roundUp` — rounding up a computed number instead of the exact one;
* `roundsUp_of_parse` — what a quantity comes to as a whole number of units and of
  thousandths.
-/

namespace ClusterTuning.Quantity

open Binary64

variable {slack q : Rat} {i : Nat} {negative : Bool} {x : Binary64} {exact : Prop}
  [Decidable exact]

/-! ## Rounding up what was computed -/

/-- The noise that so many roundings of a number, and what is lost on the way, can make; there is
none if no rounding changes anything. -/
def noiseOf (exact : Prop) [Decidable exact] (roundings : Nat) (q : Rat) : Rat :=
  if exact then 0 else q * roundings / 2 ^ 52 + 2 ^ (-80 : Int)

/-- The result of rounding an exact amount up: an integer that the noise and the tolerance allow,
and if the amount is settled the least one not below it, unless the amount is just above an
integer. -/
def RoundsUp (noise amount : Rat) (result : Except Failure Int) : Prop :=
  ∃ n, result = .ok n ∧ RoundedUp noise amount n ∧
    (Settled noise amount → (n = amount.ceil ↔ ¬ IsJustAbove amount))

theorem noiseOf_nonneg (hq : 0 ≤ q) : 0 ≤ noiseOf exact i q := by
  unfold noiseOf
  split
  · exact le_rfl
  · positivity

theorem noiseOf_le (hmax : q ≤ 2 ^ 53) (hi : i ≤ 300) : noiseOf exact i q ≤ 1024 := by
  have hcount : (i : Rat) ≤ 300 := by exact_mod_cast hi
  have hproduct : q * i ≤ 2 ^ 53 * 300 := mul_le_mul hmax hcount i.cast_nonneg (by norm_num)
  unfold noiseOf
  split
  · norm_num
  · norm_num at hproduct ⊢
    linarith

/-- The slack and the roundings of an approximation are within the noise. -/
theorem within_of_approximates (h : Approximates slack i negative q x) (hq : 0 ≤ q)
    (hslack : slack ≤ 2 ^ (-81 : Int)) (hi : i ≤ 2 ^ 52) :
    ∃ r, Represents negative r x ∧ q - (q * i / 2 ^ 52 + 2 ^ (-80 : Int)) ≤ r ∧
      r ≤ q + (q * i / 2 ^ 52 + 2 ^ (-80 : Int)) := by
  obtain ⟨r, hx, hnear⟩ := h
  have htwice := hnear.le_two_mul hx.nonneg hi
  have hlow := hnear.kept_le
  have hhigh := hnear.le_kept
  have hhalf := half_le_kept hi
  have hleast := two_zpow_pos (-81)
  obtain ⟨part, hpart⟩ : ∃ part, (i : Rat) / 2 ^ 53 = part := ⟨_, rfl⟩
  have hnoise : q * i / 2 ^ 52 + 2 ^ (-80 : Int) = 2 * (q * part) + 2 * 2 ^ (-81 : Int) := by
    rw [← hpart, show (-80 : Int) = 1 + -81 by rfl, two_zpow_add, zpow_one]
    ring
  have hnonneg : 0 ≤ part := by
    rw [← hpart]
    positivity
  rw [kept, hpart] at hlow hhigh hhalf
  rw [hnoise]
  have hqpart := mul_nonneg hq hnonneg
  have hloss := mul_le_mul_of_nonneg_right htwice hnonneg
  generalize (2 : Rat) ^ (-81 : Int) = least at *
  refine ⟨r, hx, by linarith, ?_⟩
  have hless : 2 * slack * part ≤ 2 * least * (1 / 2) :=
    mul_le_mul (by linarith) (by linarith) hnonneg (by linarith)
  linarith

theorem limitInt64_upward (hlow : -2 ^ 54 ≤ q) (hhigh : q ≤ 2 ^ 54) :
    limitInt64 (upward q) = upward q := by
  obtain ⟨hle, hlt⟩ := upward_spec q
  obtain ⟨hpos, hone⟩ := tolerance_bounds
  have hupper : upward q ≤ 2 ^ 54 + 1 := by
    have : (upward q : Rat) ≤ 2 ^ 54 + 1 := by linarith
    exact_mod_cast this
  have hlower : -2 ^ 54 - 1 ≤ upward q := by
    have : (-2 ^ 54 - 1 : Rat) ≤ upward q := by
      norm_num at hone
      linarith
    exact_mod_cast this
  unfold limitInt64 minInt64 maxInt64
  omega

theorem roundedUp_of_represents {noise r : Rat} (hx : Represents negative r x)
    (hlow : q - noise ≤ r) (hhigh : r ≤ q + noise) (hmax : q ≤ 2 ^ 53) (hnoise : noise ≤ 1024) :
    RoundedUp noise (signed negative q) (roundUp x) := by
  have hr := hx.nonneg
  rw [roundUp_eq hx, hx.toRat_eq]
  cases negative
  · simp only [signed, Bool.false_eq_true, if_false]
    rw [limitInt64_upward (by linarith) (by linarith)]
    exact roundedUp_upward hlow hhigh
  · simp only [signed, if_true]
    rw [limitInt64_upward (by linarith) (by linarith)]
    exact roundedUp_upward (by linarith) (by linarith)

/-- A number that approximates an amount, or is the amount, is rounded up like the amount but for
the tolerance and the noise. -/
theorem roundsUp_roundUp (hexact : exact → Represents negative q x)
    (happroximates : Approximates slack i negative q x) (hslack : slack ≤ 2 ^ (-81 : Int))
    (hi : i ≤ 300) (hq : 0 ≤ q) (hmax : q ≤ 2 ^ 53) :
    RoundsUp (noiseOf exact i q) (signed negative q) (.ok (roundUp x)) := by
  obtain ⟨r, hx, hlow, hhigh⟩ : ∃ r, Represents negative r x ∧
      q - noiseOf exact i q ≤ r ∧ r ≤ q + noiseOf exact i q := by
    unfold noiseOf
    split
    · next h => exact ⟨q, hexact h, by linarith, by linarith⟩
    · exact within_of_approximates happroximates hq hslack (by omega)
  have hrounded := roundedUp_of_represents hx hlow hhigh hmax (noiseOf_le hmax hi)
  exact ⟨roundUp x, rfl, hrounded, hrounded.eq_ceil_iff (noiseOf_nonneg hq)⟩

/-! ## Amounts -/

/-- An exact amount: a decimal numeral with a sign, times a factor. -/
structure Amount where
  negative : Bool
  numeral : Decimal
  factor : Factor
deriving DecidableEq

namespace Amount

/-- The amount that a text names. -/
def read? (text : List Char) : Option Amount :=
  let (negative, rest) := cutSign (Text.trim text)
  (Decimal.read? (rest.takeWhile isNumberChar)).bind fun numeral =>
    (Factor.read? (rest.dropWhile isNumberChar)).map (Amount.mk negative numeral)

variable {a : Amount}

/-- The amount without its sign. -/
def magnitude (a : Amount) : Rat := a.numeral.toRat * a.factor.value

/-- The exact amount. -/
def toRat (a : Amount) : Rat := signed a.negative a.magnitude

/-- The number that is computed for the amount. -/
def number (a : Amount) : Binary64 := (ofDecimal a.negative a.numeral).mul a.factor.number

/-- The number that is computed for the amount in thousandths. -/
def milliNumber (a : Amount) : Binary64 := a.number.mul (.ofInt 1000)

/-- No rounding changes the numeral, the factor or their product. -/
def IsExact (a : Amount) : Prop :=
  Survives a.numeral.toRat ∧ a.factor.IsExact ∧ Survives a.magnitude

instance : DecidablePred IsExact := fun a =>
  inferInstanceAs (Decidable (Survives a.numeral.toRat ∧ a.factor.IsExact ∧ Survives a.magnitude))

/-- How far the computed number can be from the amount. -/
def noise (a : Amount) : Rat :=
  noiseOf a.IsExact (a.factor.roundings + 2) a.magnitude

/-- How far the computed number of thousandths can be from the exact one. -/
def milliNoise (a : Amount) : Rat :=
  noiseOf (a.IsExact ∧ Survives (a.magnitude * 1000)) (a.factor.roundings + 3)
    (a.magnitude * 1000)

/-- The amount is small enough for the thousandths to be told apart, and its power of ten is within
the format. -/
structure InRange (a : Amount) : Prop where
  moderate : a.factor.IsModerate
  le_bound : a.magnitude * 1000 ≤ 2 ^ 53

theorem magnitude_nonneg (a : Amount) : 0 ≤ a.magnitude :=
  mul_nonneg a.numeral.toRat_nonneg a.factor.value_pos.le

theorem numeral_le_largest (h : a.InRange) : a.numeral.toRat ≤ largest := by
  refine le_trans ?_ two_zpow_le_largest
  have hbound : a.numeral.toRat * 2 ^ (-970 : Int) ≤ 2 ^ (53 : Int) := by
    calc a.numeral.toRat * 2 ^ (-970 : Int) ≤ a.magnitude :=
          mul_le_mul_of_nonneg_left (Factor.le_value h.moderate) a.numeral.toRat_nonneg
      _ ≤ 2 ^ (53 : Int) := by
        norm_num
        linarith [h.le_bound, a.magnitude_nonneg]
  have hscaled := mul_le_mul_of_nonneg_right hbound (two_zpow_pos 970).le
  rwa [mul_assoc, two_zpow_neg_mul, mul_one, ← two_zpow_add] at hscaled

theorem within_format (h : a.InRange) : 4 * ((a.magnitude + 1) * 1000) ≤ largest := by
  refine four_mul_le_largest ?_
  calc (a.magnitude + 1) * 1000 ≤ 2 ^ (54 : Int) := by
        norm_num
        linarith [h.le_bound]
    _ ≤ 2 ^ (1000 : Int) := two_zpow_le (by decide)

/-! ### The computed number -/

theorem represents_number (h : a.InRange) (hexact : a.IsExact) :
    Represents a.negative a.magnitude a.number := by
  obtain ⟨hnumeral, hfactor, hproduct⟩ := hexact
  have hread : Represents a.negative a.numeral.toRat (ofDecimal a.negative a.numeral) := by
    rw [ofDecimal_eq_round (numeral_le_largest h)]
    exact hnumeral.represents a.numeral.toRat_nonneg (numeral_le_largest h)
  have hnonneg := a.magnitude_nonneg
  have hmax : a.magnitude ≤ largest := by linarith [within_format h]
  rw [number, hread.mul_eq (Factor.represents hfactor), Bool.bne_false]
  exact hproduct.represents hnonneg hmax

theorem represents_milliNumber (h : a.InRange) (hexact : a.IsExact)
    (hmilli : Survives (a.magnitude * 1000)) :
    Represents a.negative (a.magnitude * 1000) a.milliNumber := by
  have hthousand : Represents false 1000 (ofInt 1000) := represents_ofInt (n := 1000) (by decide)
  have hnonneg := a.magnitude_nonneg
  rw [milliNumber, (represents_number h hexact).mul_eq hthousand, Bool.bne_false]
  exact hmilli.represents (by linarith) (by linarith [within_format h])

theorem approximates_number (h : a.InRange) :
    Approximates (2 ^ (-104 : Int)) (a.factor.roundings + 2) a.negative a.magnitude a.number := by
  have hread : Approximates (2 ^ (-1075 : Int)) 1 a.negative a.numeral.toRat
      (ofDecimal a.negative a.numeral) := by
    rw [ofDecimal_eq_round (numeral_le_largest h)]
    exact approximates_round a.negative a.numeral.toRat_nonneg (numeral_le_largest h)
      (two_zpow_pos _).le (.inl le_rfl)
  have hroundings := Factor.roundings_le h.moderate
  -- what was lost of the numeral grows with the factor
  have hslack : (2 : Rat) ^ (-1075 : Int) * a.factor.value ≤ 2 ^ (-105 : Int) := by
    calc (2 : Rat) ^ (-1075 : Int) * a.factor.value ≤ 2 ^ (-1075 : Int) * 2 ^ (970 : Int) :=
          mul_le_mul_of_nonneg_left (Factor.value_le h.moderate) (two_zpow_pos _).le
      _ = 2 ^ (-105 : Int) := by rw [← two_zpow_add]; rfl
  have hleast : (2 : Rat) ^ (-1075 : Int) ≤ 2 ^ (-105 : Int) := two_zpow_le (by decide)
  have hlarge : 4 * (a.numeral.toRat + 2 ^ (-1075 : Int)) * a.factor.value ≤ largest := by
    refine le_trans ?_ (within_format h)
    have hone : (2 : Rat) ^ (-105 : Int) ≤ 1 := by norm_num
    have hnonneg := a.magnitude_nonneg
    calc 4 * (a.numeral.toRat + 2 ^ (-1075 : Int)) * a.factor.value
        = 4 * (a.magnitude + 2 ^ (-1075 : Int) * a.factor.value) := by
          rw [magnitude, mul_assoc, add_mul]
      _ ≤ 4 * ((a.magnitude + 1) * 1000) := by linarith
  have hproduct := hread.mul (Factor.approximates h.moderate) a.numeral.toRat_nonneg
    a.factor.value_pos.le (two_zpow_pos _).le (two_zpow_pos _).le (by omega) (by omega) hlarge
    (.inl le_rfl)
  rw [Bool.bne_false] at hproduct
  refine hproduct.mono a.magnitude_nonneg ?_ (by omega)
  have hdouble : (2 : Rat) ^ (-104 : Int) = 2 ^ (-105 : Int) + 2 ^ (-105 : Int) := by norm_num
  linarith

theorem approximates_milliNumber (h : a.InRange) :
    Approximates (2 ^ (-81 : Int)) (a.factor.roundings + 3) a.negative (a.magnitude * 1000)
      a.milliNumber := by
  have hthousand : Represents false 1000 (ofInt 1000) := represents_ofInt (n := 1000) (by decide)
  have hroundings := Factor.roundings_le h.moderate
  have hlarge : 4 * (a.magnitude + 2 ^ (-104 : Int)) * 1000 ≤ largest := by
    refine le_trans ?_ (within_format h)
    have hone : (2 : Rat) ^ (-104 : Int) ≤ 1 := by norm_num
    linarith
  have hproduct := (approximates_number h).mul hthousand.approximates a.magnitude_nonneg
    (by norm_num) (two_zpow_pos _).le (two_zpow_pos _).le (by omega) (by omega) hlarge
    (.inl le_rfl)
  rw [Bool.bne_false] at hproduct
  refine hproduct.mono (mul_nonneg a.magnitude_nonneg (by norm_num)) ?_ (by omega)
  have hleast : (2 : Rat) ^ (-1075 : Int) ≤ 2 ^ (-82 : Int) := two_zpow_le (by decide)
  have hsum : (2 : Rat) ^ (-104 : Int) * 1000 + 2 ^ (-82 : Int) ≤ 2 ^ (-81 : Int) := by norm_num
  linarith

end Amount

/-! ## Quantities -/

/-- A text is read as the number that is computed for the amount it names. -/
theorem read?_eq (text : List Char) : read? text = (Amount.read? text).map Amount.number := by
  unfold read? Amount.read? readNumber?
  dsimp only
  cases Decimal.read? ((cutSign (Text.trim text)).2.takeWhile isNumberChar) with
  | none => rfl
  | some numeral =>
    simp only [Option.map_some, Option.bind_some]
    rw [Factor.multiplier?_eq, Option.map_map, Option.map_map]
    rfl

theorem parse_eq_ok_iff {text : String} :
    parse text = .ok x ↔ ∃ a, Amount.read? text.toList = some a ∧ a.number = x := by
  unfold parse
  rw [read?_eq]
  cases Amount.read? text.toList <;> simp

/-- **Quantities are rounded up but for the tolerance and the noise**: for every text that is
accepted and every amount in range, the whole number of units and of thousandths is the least one
not below the exact amount, if the amount is settled and not just above an integer, and in any case
misses it by the tolerance and the noise at most. -/
theorem roundsUp_of_parse {text : String} (hparse : parse text = .ok x) :
    ∃ a, Amount.read? text.toList = some a ∧
      (a.InRange → RoundsUp a.noise a.toRat (value text) ∧
        RoundsUp a.milliNoise (a.toRat * 1000) (milliValue text)) := by
  obtain ⟨a, hread, rfl⟩ := parse_eq_ok_iff.1 hparse
  refine ⟨a, hread, fun hrange => ?_⟩
  have hnonneg := a.magnitude_nonneg
  have hbound := hrange.le_bound
  have hroundings := Factor.roundings_le hrange.moderate
  have hvalue : value text = .ok (roundUp a.number) := by
    rw [value, hparse]
    rfl
  have hmilliValue : milliValue text = .ok (roundUp a.milliNumber) := by
    rw [milliValue, hparse]
    rfl
  have hthousand : a.toRat * 1000 = signed a.negative (a.magnitude * 1000) := by
    unfold Amount.toRat signed
    split <;> ring
  rw [hvalue, hmilliValue, hthousand]
  constructor
  · exact roundsUp_roundUp (Amount.represents_number hrange) (Amount.approximates_number hrange)
      (two_zpow_le (by decide)) (by omega) hnonneg (by linarith)
  · exact roundsUp_roundUp (fun h => Amount.represents_milliNumber hrange h.1 h.2)
      (Amount.approximates_milliNumber hrange) le_rfl (by omega)
      (mul_nonneg hnonneg (by norm_num)) hbound

/-- One and a half, in thousandths. -/
theorem roundsUp_of_parse_sample :
    Amount.read? "1500m".toList = some ⟨false, ⟨1500, 0⟩, .scale milli⟩ ∧
      Amount.InRange ⟨false, ⟨1500, 0⟩, .scale milli⟩ ∧
      value "1500m" = .ok 2 ∧ milliValue "1500m" = .ok 1500 := by
  have hread : Amount.read? "1500m".toList = some ⟨false, ⟨1500, 0⟩, .scale milli⟩ := by
    decide +kernel
  have hrange : Amount.InRange ⟨false, ⟨1500, 0⟩, .scale milli⟩ := ⟨trivial, by decide +kernel⟩
  obtain ⟨a, ha, hrounds⟩ := roundsUp_of_parse
    (show parse "1500m" = .ok (.finite false 6755399441055744 (-52)) by decide +kernel)
  obtain rfl := Option.some.inj (ha.symm.trans hread)
  obtain ⟨⟨n, hvalue, -, hn⟩, ⟨m, hmilliValue, -, hm⟩⟩ := hrounds hrange
  have hunits := (hn ⟨by decide +kernel, .inr (by decide +kernel)⟩).2
    fun habove => absurd habove.2 (by decide +kernel)
  have hthousandths := (hm ⟨by decide +kernel, .inl (by decide +kernel)⟩).2
    fun habove => absurd habove.1 (by decide +kernel)
  refine ⟨hread, hrange, ?_, ?_⟩
  · rw [hvalue, hunits]
    decide +kernel
  · rw [hmilliValue, hthousandths]
    decide +kernel

/-- The tolerance swallows the least amounts, and it is less than the noise of the large ones. -/
theorem not_rounded_up :
    (∃ a, Amount.read? "1n".toList = some a ∧ a.InRange ∧ a.toRat.ceil = 1 ∧
      value "1n" = .ok 0) ∧
    ∃ a, Amount.read? "8589934597m".toList = some a ∧ a.InRange ∧
      (a.toRat * 1000).ceil = 8589934597 ∧ milliValue "8589934597m" = .ok 8589934598 := by
  refine ⟨⟨⟨false, ⟨1, 0⟩, .scale nano⟩, ?_, ⟨trivial, ?_⟩, ?_, ?_⟩,
    ⟨⟨false, ⟨8589934597, 0⟩, .scale milli⟩, ?_, ⟨trivial, ?_⟩, ?_, ?_⟩⟩
  all_goals decide +kernel

end ClusterTuning.Quantity
