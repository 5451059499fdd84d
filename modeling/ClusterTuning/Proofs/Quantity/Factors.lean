import ClusterTuning.Proofs.Numeric.Decimals
import ClusterTuning.Quantity

/-!
# The factor of a suffix

A suffix stands for an exact factor, and for a number of the format to multiply by.
The two are the same for the binary suffixes and for the powers of ten that have
room in a significand; the others take a rounding for the factor, or one for each
step of the power.

* `Factor.multiplier?_eq` — a suffix is read as the number of its factor;
* `Factor.represents`, `Factor.approximates` — how that number is related to the
  exact factor.
-/

namespace ClusterTuning.Quantity

open Binary64

/-- The factor of a suffix, between a nano and a binary exa. -/
structure Scale where
  value : Rat
  nano_le : 1 / 10 ^ 9 ≤ value
  le_exa : value ≤ 2 ^ (60 : Int)
deriving DecidableEq

/-- One billionth. -/
def nano : Scale := ⟨1 / 10 ^ 9, by norm_num, by norm_num⟩

/-- One thousandth. -/
def milli : Scale := ⟨1 / 10 ^ 3, by norm_num, by norm_num⟩

/-- The suffixes and the exact factors they stand for. -/
def scales : List (String × Scale) :=
  [("Ki", ⟨2 ^ 10, by norm_num, by norm_num⟩), ("Mi", ⟨2 ^ 20, by norm_num, by norm_num⟩),
   ("Gi", ⟨2 ^ 30, by norm_num, by norm_num⟩), ("Ti", ⟨2 ^ 40, by norm_num, by norm_num⟩),
   ("Pi", ⟨2 ^ 50, by norm_num, by norm_num⟩), ("Ei", ⟨2 ^ 60, by norm_num, by norm_num⟩),
   ("n", nano), ("u", ⟨1 / 10 ^ 6, by norm_num, by norm_num⟩), ("m", milli),
   ("", ⟨1, by norm_num, by norm_num⟩),
   ("k", ⟨10 ^ 3, by norm_num, by norm_num⟩), ("M", ⟨10 ^ 6, by norm_num, by norm_num⟩),
   ("G", ⟨10 ^ 9, by norm_num, by norm_num⟩), ("T", ⟨10 ^ 12, by norm_num, by norm_num⟩),
   ("P", ⟨10 ^ 15, by norm_num, by norm_num⟩), ("E", ⟨10 ^ 18, by norm_num, by norm_num⟩)]

/-- What a numeral is multiplied by. -/
inductive Factor where
  | scale (scale : Scale)
  | power (exponent : Int)
deriving DecidableEq

namespace Factor

/-- The factor that a suffix stands for. -/
def read? (suffix : List Char) : Option Factor :=
  match scales.find? fun entry => entry.1.toList == suffix with
  | some (_, u) => some (.scale u)
  | none =>
    match suffix with
    | e :: digits =>
      if e = 'e' ∨ e = 'E' then ((readInt? digits).filter fitsInt32).map .power else none
    | [] => none

/-- The exact factor. -/
def value : Factor → Rat
  | scale u => u.value
  | power k => 10 ^ k

/-- The factor that is computed with. -/
def number : Factor → Binary64
  | scale u => round false u.value
  | power k => Binary64.power (.ofInt 10) k

/-- A power of ten that is computed without leaving the format. -/
def IsModerate : Factor → Prop
  | scale _ => True
  | power k => k.natAbs ≤ 290

/-- A factor that no rounding changes. -/
def IsExact : Factor → Prop
  | scale u => Survives u.value
  | power k => 0 ≤ k ∧ k ≤ 22

instance : DecidablePred IsExact
  | scale u => inferInstanceAs (Decidable (Survives u.value))
  | power k => inferInstanceAs (Decidable (0 ≤ k ∧ k ≤ 22))

/-- The roundings that the factor takes at most. -/
def roundings : Factor → Nat
  | scale _ => 1
  | power k => k.natAbs + 1

variable {f : Factor}

theorem value_pos (f : Factor) : 0 < f.value := by
  cases f with
  | scale u => exact lt_of_lt_of_le (by norm_num) u.nano_le
  | power k => exact zpow_pos (by norm_num) k

theorem suffixes_eq : suffixes = scales.map fun entry => (entry.1, round false entry.2.value) := by
  decide +kernel

theorem multiplier?_eq (suffix : List Char) :
    multiplier? suffix = (read? suffix).map number := by
  unfold multiplier? read?
  rw [suffixes_eq, List.find?_map]
  have hsame : ((fun entry : String × Binary64 => entry.1.toList == suffix) ∘
      fun entry : String × Scale => (entry.1, round false entry.2.value)) =
      fun entry => entry.1.toList == suffix := rfl
  rw [hsame]
  cases scales.find? fun entry => entry.1.toList == suffix with
  | some entry => rfl
  | none =>
    cases suffix with
    | nil => rfl
    | cons e digits =>
      dsimp only [Option.map_none]
      split
      · rw [Option.map_map]
        rfl
      · rfl

theorem roundings_le (h : f.IsModerate) : f.roundings ≤ 291 := by
  cases f with
  | scale u => exact Nat.le_of_ble_eq_true rfl
  | power k => exact Nat.succ_le_succ h

theorem value_le (h : f.IsModerate) : f.value ≤ 2 ^ (970 : Int) := by
  cases f with
  | scale u =>
    exact u.le_exa.trans (two_zpow_le (by decide))
  | power k =>
    have hk : k ≤ (291 : Nat) := by
      unfold IsModerate at h
      omega
    calc (10 : Rat) ^ k ≤ 10 ^ ((291 : Nat) : Int) := zpow_le_zpow_right₀ (by norm_num) hk
      _ = (10 ^ 3) ^ 97 := by rw [zpow_natCast, ← pow_mul]
      _ ≤ (2 ^ 10) ^ 97 := pow_le_pow_left₀ (by norm_num) (by norm_num) 97
      _ = 2 ^ (970 : Int) := by
        rw [← pow_mul]
        rfl

theorem le_value (h : f.IsModerate) : 2 ^ (-970 : Int) ≤ f.value := by
  cases f with
  | scale u =>
    calc (2 : Rat) ^ (-970 : Int) ≤ 2 ^ (-30 : Int) := two_zpow_le (by decide)
      _ ≤ 1 / 10 ^ 9 := by norm_num
      _ ≤ u.value := u.nano_le
  | power k =>
    have hopposite : (power (-k)).value ≤ 2 ^ (970 : Int) :=
      value_le (show (-k).natAbs ≤ 290 by rwa [Int.natAbs_neg])
    change (2 : Rat) ^ (-970 : Int) ≤ 10 ^ k
    calc (2 : Rat) ^ (-970 : Int) = (2 ^ (970 : Int))⁻¹ := zpow_neg 2 970
      _ ≤ (10 ^ (-k))⁻¹ := inv_anti₀ (power (-k)).value_pos hopposite
      _ = 10 ^ k := by rw [zpow_neg, inv_inv]

theorem scale_le_largest (u : Scale) : u.value ≤ largest := by
  have hexa := two_zpow_le (show (60 : Int) ≤ 1000 by decide)
  have hfour := four_mul_le_largest (u.le_exa.trans hexa)
  have hpos : 0 < u.value := (scale u).value_pos
  linarith

theorem approximates (h : f.IsModerate) : Approximates 0 f.roundings false f.value f.number := by
  cases f with
  | scale u =>
    have hnormal := (two_zpow_le (show (-1022 : Int) ≤ -970 by decide)).trans (le_value h)
    exact approximates_round false (scale u).value_pos.le (scale_le_largest u) le_rfl (.inr hnormal)
  | power k => exact approximates_power (h.trans (by decide))

/-- The format has the powers of ten up to the twenty-second, and no rounding is needed on the
way to them. -/
theorem power_eq_round : ∀ k : Fin 23,
    Binary64.power (.ofInt 10) (k : Nat) = round false (10 ^ (k : Nat)) ∧
      Survives (10 ^ (k : Nat)) := by
  decide +kernel

theorem represents (h : f.IsExact) : Represents false f.value f.number := by
  cases f with
  | scale u => exact Survives.represents h (scale u).value_pos.le (scale_le_largest u)
  | power k =>
    obtain ⟨hnonneg, hle⟩ := h
    obtain ⟨n, rfl⟩ := Int.eq_ofNat_of_zero_le hnonneg
    obtain ⟨hpower, hsurvives⟩ := power_eq_round ⟨n, by omega⟩
    have hmax : (10 : Rat) ^ n ≤ largest := by
      have hfour := four_mul_le_largest (ten_pow_le (show n ≤ 300 by omega))
      have : (0 : Rat) ≤ 10 ^ n := by positivity
      linarith
    rw [value, number, zpow_natCast, hpower]
    exact hsurvives.represents (by positivity) hmax

end Factor

end ClusterTuning.Quantity
