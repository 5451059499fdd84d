import ClusterTuning.Proofs.Numeric.Rounding

/-!
# Numbers that differ by a few roundings

One rounding changes a number by one part in `2 ^ 53` at most, as long as it does
not fall below the least positive numbers.  Two numbers are near when the one
comes from the other by a number of such changes, and besides by a slack that
covers what is lost there.  Nearness is kept by products and quotients, where the
roundings add up, and so along a power by repeated squaring.

* `Near.trans`, `Near.mul` — roundings add up;
* `Approximates.mul`, `Approximates.reciprocal` — one operation of the format;
* `approximates_power` — a power of ten.
-/

namespace ClusterTuning.Binary64

variable {slack lost : Rat} {i j : Nat} {a b q r s f g : Rat} {negative sign : Bool}
  {x y base result : Binary64}

/-! ## Nearness -/

/-- The part of a number that is left after so many roundings. -/
def kept (roundings : Nat) : Rat := 1 - roundings / 2 ^ 53

/-- Two numbers that differ by so many roundings, and by the slack. -/
structure Near (slack : Rat) (roundings : Nat) (q r : Rat) : Prop where
  kept_le : q * kept roundings ≤ r + slack
  le_kept : r * kept roundings ≤ q + slack

theorem kept_le_one (i : Nat) : kept i ≤ 1 := by
  have : (0 : Rat) ≤ (i : Rat) / 2 ^ 53 := by positivity
  unfold kept
  linarith

theorem half_le_kept (hi : i ≤ 2 ^ 52) : 1 / 2 ≤ kept i := by
  have : (i : Rat) ≤ 2 ^ 52 := by exact_mod_cast hi
  unfold kept
  linarith

theorem kept_pos (hi : i ≤ 2 ^ 52) : 0 < kept i :=
  lt_of_lt_of_le (by norm_num) (half_le_kept hi)

theorem kept_anti (h : i ≤ j) : kept j ≤ kept i := by
  have : (i : Rat) ≤ j := by exact_mod_cast h
  unfold kept
  linarith

/-- Roundings that are counted together leave no more than one after the other. -/
theorem kept_add_le (i j : Nat) : kept (i + j) ≤ kept i * kept j := by
  have : (0 : Rat) ≤ (i : Rat) / 2 ^ 53 * (j / 2 ^ 53) := by positivity
  unfold kept
  push_cast
  linarith

theorem Near.refl (q : Rat) : Near 0 0 q q := by
  constructor <;> simp [kept]

theorem Near.mono (h : Near slack i q r) (hq : 0 ≤ q) (hr : 0 ≤ r) (hslack : slack ≤ lost)
    (hij : i ≤ j) : Near lost j q r := by
  have hkept := kept_anti hij
  constructor
  · linarith [h.kept_le, mul_le_mul_of_nonneg_left hkept hq]
  · linarith [h.le_kept, mul_le_mul_of_nonneg_left hkept hr]

theorem Near.trans (hqr : Near slack i q r) (hrs : Near lost j r s) (hq : 0 ≤ q) (hs : 0 ≤ s)
    (hslack : 0 ≤ slack) (hlost : 0 ≤ lost) (hi : i ≤ 2 ^ 52) (hj : j ≤ 2 ^ 52) :
    Near (slack + lost) (i + j) q s := by
  have hslack' := mul_le_mul_of_nonneg_left (kept_le_one j) hslack
  have hlost' := mul_le_mul_of_nonneg_left (kept_le_one i) hlost
  constructor
  · calc q * kept (i + j) ≤ q * kept i * kept j := by
          rw [mul_assoc]
          exact mul_le_mul_of_nonneg_left (kept_add_le i j) hq
      _ ≤ (r + slack) * kept j := mul_le_mul_of_nonneg_right hqr.kept_le (kept_pos hj).le
      _ ≤ s + (slack + lost) := by linarith [hrs.kept_le]
  · calc s * kept (i + j) ≤ s * kept j * kept i := by
          rw [mul_assoc, mul_comm (kept j)]
          exact mul_le_mul_of_nonneg_left (kept_add_le i j) hs
      _ ≤ (r + lost) * kept i := mul_le_mul_of_nonneg_right hrs.le_kept (kept_pos hi).le
      _ ≤ q + (slack + lost) := by linarith [hqr.le_kept]

/-- Products of near numbers are near, if nothing was lost in the second factor. -/
theorem Near.mul (hqr : Near slack i q r) (hfg : Near 0 j f g) (hq : 0 ≤ q) (hr : 0 ≤ r)
    (hf : 0 ≤ f) (hg : 0 ≤ g) (hslack : 0 ≤ slack) (hj : j ≤ 2 ^ 52) :
    Near (slack * f) (i + j) (q * f) (r * g) := by
  have hkept := kept_pos hj
  have hfg' := hfg.kept_le
  have hgf' := hfg.le_kept
  rw [add_zero] at hfg' hgf'
  constructor
  · calc q * f * kept (i + j) ≤ q * f * (kept i * kept j) :=
          mul_le_mul_of_nonneg_left (kept_add_le i j) (mul_nonneg hq hf)
      _ = q * kept i * (f * kept j) := by ring
      _ ≤ (r + slack) * (f * kept j) :=
          mul_le_mul_of_nonneg_right hqr.kept_le (mul_nonneg hf hkept.le)
      _ = r * (f * kept j) + slack * (f * kept j) := by ring
      _ ≤ r * g + slack * f := by
          refine add_le_add (mul_le_mul_of_nonneg_left hfg' hr) ?_
          refine mul_le_mul_of_nonneg_left ?_ hslack
          exact mul_le_of_le_one_right hf (kept_le_one j)
  · calc r * g * kept (i + j) ≤ r * g * (kept i * kept j) :=
          mul_le_mul_of_nonneg_left (kept_add_le i j) (mul_nonneg hr hg)
      _ = r * kept i * (g * kept j) := by ring
      _ ≤ (q + slack) * (g * kept j) :=
          mul_le_mul_of_nonneg_right hqr.le_kept (mul_nonneg hg hkept.le)
      _ ≤ (q + slack) * f := mul_le_mul_of_nonneg_left hgf' (add_nonneg hq hslack)
      _ = q * f + slack * f := by ring

/-- Nearness without slack passes to the reciprocals. -/
theorem Near.inv (h : Near 0 j q r) (hq : 0 < q) (hr : 0 < r) : Near 0 j q⁻¹ r⁻¹ := by
  have hqr := h.kept_le
  have hrq := h.le_kept
  rw [add_zero] at hqr hrq
  constructor
  · rw [add_zero, ← div_eq_inv_mul, ← one_div, div_le_div_iff₀ hq hr]
    linarith
  · rw [add_zero, ← div_eq_inv_mul, ← one_div, div_le_div_iff₀ hr hq]
    linarith

/-- A near number is at most twice as large, but for the slack. -/
theorem Near.le_two_mul (h : Near slack i q r) (hr : 0 ≤ r) (hi : i ≤ 2 ^ 52) :
    r ≤ 2 * (q + slack) := by
  have := mul_le_mul_of_nonneg_left (half_le_kept hi) hr
  linarith [h.le_kept]

/-- Without slack a near number is at least half as large. -/
theorem Near.half_le (h : Near 0 i q r) (hq : 0 ≤ q) (hi : i ≤ 2 ^ 52) : q / 2 ≤ r := by
  have := mul_le_mul_of_nonneg_left (half_le_kept hi) hq
  linarith [h.kept_le]

/-! ## One operation -/

/-- A finite number of the format that is near a magnitude. -/
def Approximates (slack : Rat) (roundings : Nat) (negative : Bool) (q : Rat) (x : Binary64) :
    Prop :=
  ∃ r, Represents negative r x ∧ Near slack roundings q r

theorem Represents.approximates (h : Represents negative q x) : Approximates 0 0 negative q x :=
  ⟨q, h, .refl q⟩

theorem Approximates.mono (h : Approximates slack i negative q x) (hq : 0 ≤ q)
    (hslack : slack ≤ lost) (hij : i ≤ j) : Approximates lost j negative q x := by
  obtain ⟨r, hx, hnear⟩ := h
  exact ⟨r, hx, hnear.mono hq hx.nonneg hslack hij⟩

/-- Rounding is one rounding; nothing is lost of a number that is not too small. -/
theorem approximates_round (negative : Bool) (hq : 0 ≤ q) (hmax : q ≤ largest) (hslack : 0 ≤ slack)
    (hsmall : (2 : Rat) ^ (-1075 : Int) ≤ slack ∨ 2 ^ (-1022 : Int) ≤ q) :
    Approximates slack 1 negative q (round negative q) := by
  obtain ⟨r, hround, hlow, hhigh⟩ := round_error negative hq hmax
  have hpart : (0 : Rat) ≤ q / 2 ^ 53 := by positivity
  have hle : max (q / 2 ^ 53) (2 ^ (-1075 : Int)) ≤ q / 2 ^ 53 + slack := by
    refine max_le (by linarith) ?_
    rcases hsmall with h | h
    · linarith
    · have := mul_le_mul_of_nonneg_right h (two_zpow_pos (-53)).le
      rw [← two_zpow_add, show (2 : Rat) ^ (-53 : Int) = 1 / 2 ^ 53 by norm_num] at this
      exact le_trans this (by linarith)
  refine ⟨r, hround, ?_, ?_⟩
  · unfold kept
    push_cast
    linarith
  · have hsquare : (0 : Rat) ≤ q / 2 ^ 53 / 2 ^ 53 := by positivity
    have hslack' : (0 : Rat) ≤ slack / 2 ^ 53 := by positivity
    have := mul_le_mul_of_nonneg_right (show r ≤ q + q / 2 ^ 53 + slack by linarith)
      (kept_pos (show 1 ≤ 2 ^ 52 by norm_num)).le
    refine this.trans ?_
    unfold kept
    push_cast
    linarith

theorem Represents.mul_eq (hx : Represents negative q x) (hy : Represents sign f y) :
    x.mul y = round (negative != sign) (q * f) := by
  obtain ⟨-, rfl⟩ := hx
  obtain ⟨-, rfl⟩ := hy
  rfl

/-- A product of approximations approximates the product. -/
theorem Approximates.mul (hx : Approximates slack i negative q x) (hy : Approximates 0 j sign f y)
    (hq : 0 ≤ q) (hf : 0 ≤ f) (hslack : 0 ≤ slack) (hlost : 0 ≤ lost) (hi : i ≤ 2 ^ 51)
    (hj : j ≤ 2 ^ 51) (hmax : 4 * (q + slack) * f ≤ largest)
    (hsmall : (2 : Rat) ^ (-1075 : Int) ≤ lost ∨ slack = 0 ∧ 2 ^ (-1020 : Int) ≤ q * f) :
    Approximates (slack * f + lost) (i + j + 1) (negative != sign) (q * f) (x.mul y) := by
  obtain ⟨r, hx, hqr⟩ := hx
  obtain ⟨g, hy, hfg⟩ := hy
  have hi' : i ≤ 2 ^ 52 := by omega
  have hj' : j ≤ 2 ^ 52 := by omega
  have hlarge : r * g ≤ largest := by
    refine le_trans ?_ hmax
    have hr := hqr.le_two_mul hx.nonneg hi'
    have hg := hfg.le_two_mul hy.nonneg hj'
    calc r * g ≤ 2 * (q + slack) * (2 * (f + 0)) := mul_le_mul hr hg hy.nonneg (by linarith)
      _ = 4 * (q + slack) * f := by ring
  have hnormal : (2 : Rat) ^ (-1075 : Int) ≤ lost ∨ (2 : Rat) ^ (-1022 : Int) ≤ r * g := by
    rcases hsmall with h | ⟨rfl, h⟩
    · exact .inl h
    · refine .inr ?_
      have hr := hqr.half_le hq hi'
      have hg := hfg.half_le hf hj'
      have : q / 2 * (f / 2) ≤ r * g := mul_le_mul hr hg (by linarith) hx.nonneg
      rw [show (-1020 : Int) = -1022 + 2 by rfl, two_zpow_add,
        show (2 : Rat) ^ (2 : Int) = 4 by norm_num] at h
      linarith
  obtain ⟨t, ht, hrt⟩ := approximates_round (negative != sign)
    (mul_nonneg hx.nonneg hy.nonneg) hlarge hlost hnormal
  rw [hx.mul_eq hy]
  refine ⟨t, ht, ?_⟩
  exact (hqr.mul hfg hq hx.nonneg hf hy.nonneg hslack hj').trans hrt (mul_nonneg hq hf) ht.nonneg
    (mul_nonneg hslack hf) hlost (by omega) (by norm_num)

/-! ## Powers -/

theorem two_zpow_le_largest : (2 : Rat) ^ (1023 : Int) ≤ largest := by
  rw [largest, maxExponent, show (1023 : Int) = 52 + 971 by rfl, two_zpow_add]
  exact mul_le_mul_of_nonneg_right (by norm_num) (two_zpow_pos _).le

/-- Numbers up to this bound and a little beyond are within the format. -/
theorem four_mul_le_largest (hq : q ≤ 2 ^ (1000 : Int)) : 4 * q ≤ largest := by
  have hpow : (4 : Rat) * 2 ^ (1000 : Int) = 2 ^ (1002 : Int) := by
    rw [show (1002 : Int) = 2 + 1000 by rfl, two_zpow_add]
    norm_num
  calc 4 * q ≤ 4 * 2 ^ (1000 : Int) := by linarith
    _ = 2 ^ (1002 : Int) := hpow
    _ ≤ 2 ^ (1023 : Int) := two_zpow_le (by decide)
    _ ≤ largest := two_zpow_le_largest

/-- Where nothing is lost, a product only adds roundings. -/
theorem Approximates.mul_of_one_le (hx : Approximates 0 i false q x)
    (hy : Approximates 0 j false f y) (hq : 1 ≤ q) (hf : 1 ≤ f) (hi : i ≤ 2 ^ 51)
    (hj : j ≤ 2 ^ 51) (hmax : q * f ≤ 2 ^ (1000 : Int)) :
    Approximates 0 (i + j + 1) false (q * f) (x.mul y) := by
  have hone : 1 ≤ q * f := one_le_mul_of_one_le_of_one_le hq hf
  have hlarge : 4 * (q + 0) * f ≤ largest := by
    rw [add_zero, mul_assoc]
    exact four_mul_le_largest hmax
  have hsmall : (2 : Rat) ^ (-1020 : Int) ≤ q * f :=
    (two_zpow_le (show (-1020 : Int) ≤ 0 by decide)).trans ((zpow_zero 2).le.trans hone)
  have hproduct := hx.mul hy (zero_le_one.trans hq) (zero_le_one.trans hf) le_rfl le_rfl hi hj
    hlarge (.inr ⟨rfl, hsmall⟩)
  rwa [zero_mul, add_zero] at hproduct

theorem Represents.div_eq (hx : Represents negative q x) (hy : Represents sign f y) (hf : 0 < f) :
    x.div y = round (negative != sign) (q / f) := by
  obtain ⟨-, rfl⟩ := hx
  obtain @⟨significand, exponent, -, hvalue⟩ := hy
  have hne : significand ≠ 0 := by
    rintro rfl
    rw [Nat.cast_zero, zero_mul] at hvalue
    exact hf.ne hvalue
  subst hvalue
  simp [div, isNegative, isZero, magnitude, hne]

/-- The reciprocal of an approximation. -/
theorem Approximates.reciprocal (hx : Represents false 1 x) (hy : Approximates 0 j false f y)
    (hf : 1 ≤ f) (hmax : f ≤ 2 ^ (1000 : Int)) (hj : j ≤ 2 ^ 51) :
    Approximates 0 (j + 1) false f⁻¹ (x.div y) := by
  obtain ⟨g, hy, hfg⟩ := hy
  have hj' : j ≤ 2 ^ 52 := by omega
  have hpos : 0 < f := zero_lt_one.trans_le hf
  have hhalf := hfg.half_le hpos.le hj'
  have htwice := hfg.le_two_mul hy.nonneg hj'
  have hg : 0 < g := by linarith
  have hlarge : 1 / g ≤ largest := by
    have : 1 / g ≤ 1 / (1 / 2) := one_div_le_one_div_of_le (by norm_num) (by linarith)
    have := four_mul_le_largest (q := 1) ((zpow_zero 2).ge.trans (two_zpow_le (by decide)))
    norm_num at *
    linarith
  have hsmall : (2 : Rat) ^ (-1022 : Int) ≤ 1 / g := by
    have hg' : g ≤ 2 ^ (1022 : Int) := by
      calc g ≤ 2 * 2 ^ (1000 : Int) := by linarith
        _ = 2 ^ (1001 : Int) := by rw [show (1001 : Int) = 1 + 1000 by rfl, two_zpow_add, zpow_one]
        _ ≤ 2 ^ (1022 : Int) := two_zpow_le (by decide)
    rw [zpow_neg, ← one_div]
    exact one_div_le_one_div_of_le hg hg'
  obtain ⟨t, ht, hnear⟩ := approximates_round false (one_div_pos.2 hg).le hlarge
    le_rfl (.inr hsmall)
  rw [hx.div_eq hy hg]
  refine ⟨t, ht, ?_⟩
  have htrans := (one_div g ▸ hfg.inv hpos hg).trans hnear (inv_pos.2 hpos).le ht.nonneg le_rfl
    le_rfl hj' (by norm_num)
  rwa [add_zero] at htrans

/-- A power by repeated squaring: what is left to do stands for a power of the present base, and
takes as many roundings as that power has factors. -/
theorem approximates_powerSteps {steps n : Nat} (hsteps : n < 2 ^ steps)
    (hbase : Approximates 0 i false b base) (hresult : Approximates 0 j false r result)
    (hb : 1 ≤ b) (hr : 1 ≤ r) (hmax : r * b ^ n ≤ 2 ^ (1000 : Int))
    (hcount : j + n * (i + 1) ≤ 2 ^ 51) :
    Approximates 0 (j + n * (i + 1)) false (r * b ^ n) (powerSteps steps base n result) := by
  induction steps generalizing n base result b r i j with
  | zero =>
    obtain rfl : n = 0 := by omega
    simpa [powerSteps] using hresult
  | succ steps ih =>
    have hle : ∀ m, m ≤ n → r * b ^ m ≤ 2 ^ (1000 : Int) := fun m hm =>
      (mul_le_mul_of_nonneg_left (pow_le_pow_right₀ hb hm) (zero_le_one.trans hr)).trans hmax
    -- the factor that the lowest digit of the exponent asks for
    have hodd : Approximates 0 (j + n % 2 * (i + 1)) false (r * b ^ (n % 2))
        (if n % 2 = 1 then result.mul base else result) := by
      rcases Nat.mod_two_eq_zero_or_one n with h | h
      · simpa [h] using hresult
      · have h1 : i + 1 ≤ n * (i + 1) := Nat.le_mul_of_pos_left _ (by omega)
        have hproduct := hresult.mul_of_one_le hbase hr hb (by omega) (by omega)
          (by simpa using hle 1 (by omega))
        simpa [h, add_assoc] using hproduct
    rw [powerSteps]
    split
    · next hdone =>
      have hpower : r * b ^ (n % 2) = r * b ^ n := by rw [Nat.mod_eq_of_lt (by omega)]
      have hcounted : j + n % 2 * (i + 1) = j + n * (i + 1) := by
        rw [Nat.mod_eq_of_lt (by omega)]
      rwa [hpower, hcounted] at hodd
    · next hmore =>
      have h2 : 2 * (i + 1) ≤ n * (i + 1) := Nat.mul_le_mul_right _ (by omega)
      have hsquare := hbase.mul_of_one_le hbase hb hb (by omega) (by omega)
        (by
          refine le_trans ?_ (hle 2 (by omega))
          rw [← pow_two]
          exact le_mul_of_one_le_left (by positivity) hr)
      have hpower : r * b ^ (n % 2) * (b * b) ^ (n / 2) = r * b ^ n := by
        rw [← pow_two, ← pow_mul, mul_assoc, ← pow_add, Nat.mod_add_div]
      have hcounted : j + n % 2 * (i + 1) + n / 2 * (i + i + 1 + 1) = j + n * (i + 1) := by
        calc j + n % 2 * (i + 1) + n / 2 * (i + i + 1 + 1)
            = j + (n % 2 + 2 * (n / 2)) * (i + 1) := by ring
          _ = j + n * (i + 1) := by rw [Nat.mod_add_div]
      have hrest := ih (by omega) hsquare hodd (one_le_mul_of_one_le_of_one_le hb hb)
        (one_le_mul_of_one_le_of_one_le hr (one_le_pow₀ hb)) (hpower ▸ hmax) (hcounted ▸ hcount)
      rwa [hpower, hcounted] at hrest

theorem ten_pow_le {n : Nat} (hn : n ≤ 300) : (10 : Rat) ^ n ≤ 2 ^ (1000 : Int) := by
  calc (10 : Rat) ^ n ≤ 10 ^ 300 := pow_le_pow_right₀ (by norm_num) hn
    _ = (10 ^ 3) ^ 100 := by rw [← pow_mul]
    _ ≤ (2 ^ 10) ^ 100 := pow_le_pow_left₀ (by norm_num) (by norm_num) 100
    _ = 2 ^ (1000 : Int) := by
      rw [← pow_mul]
      rfl

/-- A power of ten takes one rounding for each factor, and one for the reciprocal. -/
theorem approximates_power {k : Int} (hk : k.natAbs ≤ 300) :
    Approximates 0 (k.natAbs + 1) false ((10 : Rat) ^ k) (power (ofInt 10) k) := by
  have hten : Represents false 10 (ofInt 10) := represents_ofInt (n := 10) (by decide)
  have hone : Represents false 1 (ofInt 1) := represents_ofInt (n := 1) (by decide)
  have hpowers := approximates_powerSteps (Nat.lt_log2_self (n := k.natAbs)) hten.approximates
    hone.approximates (by norm_num) le_rfl (by simpa using ten_pow_le hk) (by omega)
  rw [one_mul, Nat.zero_add, Nat.zero_add, Nat.mul_one] at hpowers
  have hpos : (1 : Rat) ≤ 10 ^ k.natAbs := one_le_pow₀ (by norm_num)
  unfold power
  dsimp only
  split
  · next hneg =>
    have hreciprocal := Approximates.reciprocal hone hpowers hpos (ten_pow_le hk) (by omega)
    have hpow : (10 : Rat) ^ k = (10 ^ k.natAbs)⁻¹ := by
      rw [← zpow_natCast, ← zpow_neg]
      congr 1
      omega
    rwa [hpow]
  · next hnonneg =>
    have hpow : (10 : Rat) ^ k = 10 ^ k.natAbs := by
      rw [← zpow_natCast]
      congr 1
      omega
    rw [hpow]
    exact hpowers.mono (zero_le_one.trans hpos) le_rfl (Nat.le_succ _)

end ClusterTuning.Binary64
