import ClusterTuning.Numeric.Range

/-!
# Binary floating-point numbers of 64 bits

A finite number is a sign, a significand below `2 ^ 53` and an exponent; its
magnitude is the rational `significand * 2 ^ exponent`.  Every operation is the
exact operation on rationals followed by one rounding to the nearest number,
ties to the even significand.
-/

namespace ClusterTuning

/-- A number of the binary format of 64 bits. -/
inductive Binary64 where
  | nan
  | infinite (negative : Bool)
  | finite (negative : Bool) (significand : Nat) (exponent : Int)
deriving DecidableEq, Repr, Inhabited

namespace Binary64

/-! ## The format -/

/-- The exponent of the smallest positive number. -/
def minExponent : Int := -1074

/-- The largest exponent of a finite number. -/
def maxExponent : Int := 971

/-- A significand has at most 53 binary digits. -/
def significandBound : Nat := 9007199254740992

/-- Zero with the given sign. -/
def zero (negative : Bool) : Binary64 :=
  .finite negative 0 minExponent

/-! ## Rounding -/

/-- The largest power of two, as an exponent, that is at most the positive number `q`. -/
def floorLog2 (q : Rat) : Int :=
  let k : Int := (q.num.natAbs.log2 : Int) - (q.den.log2 : Int)
  if (2 : Rat) ^ k ≤ q then k else k - 1

/-- The integer nearest to the number, a half going to the even neighbour. -/
def nearestEven (q : Rat) : Int :=
  let below := q.floor
  let rest := q - below
  if rest < 1 / 2 then below
  else if 1 / 2 < rest then below + 1
  else if below % 2 = 0 then below else below + 1

/-- The number nearest to a nonnegative rational, with the given sign. -/
def round (negative : Bool) (magnitude : Rat) : Binary64 :=
  if magnitude = 0 then zero negative
  else
    let exponent := max (floorLog2 magnitude - 52) minExponent
    let significand := (nearestEven (magnitude * (2 : Rat) ^ (-exponent))).toNat
    let (significand, exponent) :=
      if significand = significandBound then (significand / 2, exponent + 1)
      else (significand, exponent)
    if maxExponent < exponent then .infinite negative
    else if significand = 0 then zero negative
    else .finite negative significand exponent

/-- The number nearest to an integer. -/
def ofInt (n : Int) : Binary64 :=
  round (n < 0) (n.natAbs : Rat)

/-! ## Reading the format -/

/-- Whether the number carries a minus sign. -/
def isNegative : Binary64 → Bool
  | nan => false
  | infinite negative => negative
  | finite negative _ _ => negative

/-- The magnitude of a finite number. -/
def magnitude : Binary64 → Rat
  | finite _ significand exponent => significand * (2 : Rat) ^ exponent
  | _ => 0

/-- The value of a finite number. -/
def toRat (x : Binary64) : Rat :=
  if x.isNegative then -x.magnitude else x.magnitude

/-- Whether the number is neither infinite nor undefined. -/
def isFinite : Binary64 → Bool
  | finite _ _ _ => true
  | _ => false

/-- Whether the number is zero, of either sign. -/
def isZero : Binary64 → Bool
  | finite _ significand _ => significand == 0
  | _ => false

/-! ## Arithmetic -/

/-- The same number with the other sign. -/
def neg : Binary64 → Binary64
  | nan => nan
  | infinite negative => infinite (!negative)
  | finite negative significand exponent => finite (!negative) significand exponent

/-- The same number without its sign. -/
def abs : Binary64 → Binary64
  | nan => nan
  | infinite _ => infinite false
  | finite _ significand exponent => finite false significand exponent

/-- The rounded product. -/
def mul (x y : Binary64) : Binary64 :=
  let negative := x.isNegative != y.isNegative
  match x, y with
  | nan, _ => nan
  | _, nan => nan
  | infinite _, y => if y.isZero then nan else infinite negative
  | x, infinite _ => if x.isZero then nan else infinite negative
  | x, y => round negative (x.magnitude * y.magnitude)

/-- The rounded quotient. -/
def div (x y : Binary64) : Binary64 :=
  let negative := x.isNegative != y.isNegative
  match x, y with
  | nan, _ => nan
  | _, nan => nan
  | infinite _, infinite _ => nan
  | infinite _, _ => infinite negative
  | _, infinite _ => zero negative
  | x, y =>
    if y.isZero then (if x.isZero then nan else infinite negative)
    else round negative (x.magnitude / y.magnitude)

/-- The rounded sum. -/
def add (x y : Binary64) : Binary64 :=
  match x, y with
  | nan, _ => nan
  | _, nan => nan
  | infinite a, infinite b => if a = b then infinite a else nan
  | infinite a, _ => infinite a
  | _, infinite b => infinite b
  | x, y =>
    let sum := x.toRat + y.toRat
    if sum = 0 then zero (x.isNegative && y.isNegative)
    else round (sum < 0) sum.abs

/-- The rounded difference. -/
def sub (x y : Binary64) : Binary64 :=
  x.add y.neg

/-- The order of the numbers; an undefined number is below and above none. -/
def lt : Binary64 → Binary64 → Bool
  | nan, _ => false
  | _, nan => false
  | infinite a, infinite b => a && !b
  | infinite a, _ => a
  | _, infinite b => !b
  | x, y => x.toRat < y.toRat

/-- Equality as a comparison: the two zeros are equal, an undefined number equals none. -/
def same : Binary64 → Binary64 → Bool
  | nan, _ => false
  | _, nan => false
  | infinite a, infinite b => a == b
  | infinite _, _ => false
  | _, infinite _ => false
  | x, y => x.toRat == y.toRat

/-- Multiplies the result by the squares of the base that the binary digits of the exponent
name, lowest first; `steps` bounds the number of digits. -/
def powerSteps : Nat → Binary64 → Nat → Binary64 → Binary64
  | 0, _, _, result => result
  | steps + 1, base, n, result =>
    let result := if n % 2 = 1 then result.mul base else result
    if n / 2 = 0 then result else powerSteps steps (base.mul base) (n / 2) result

/-- A power with an integer exponent by repeated squaring; a negative exponent takes the
reciprocal at the end. -/
def power (base : Binary64) (n : Int) : Binary64 :=
  let result := powerSteps (n.natAbs.log2 + 1) base n.natAbs (ofInt 1)
  if n < 0 then (ofInt 1).div result else result

/-! ## Integers -/

/-- The nearest integer as a number, a half going away from zero. -/
def nearestAway : Binary64 → Binary64
  | finite negative significand exponent =>
    if 0 ≤ exponent then finite negative significand exponent
    else
      let x := (significand : Rat) * (2 : Rat) ^ exponent
      round negative ((x + 1 / 2).floor : Int)
  | x => x

/-- The least integer that is not below the number, as a number. -/
def ceiling : Binary64 → Binary64
  | finite negative significand exponent =>
    if 0 ≤ exponent then finite negative significand exponent
    else
      let x := (significand : Rat) * (2 : Rat) ^ exponent
      round negative (if negative then x.floor else x.ceil)
  | x => x

/-- The integer part, limited to 64 bits with a sign; an undefined number gives zero. -/
def toInt64 : Binary64 → Int
  | nan => 0
  | infinite negative => if negative then minInt64 else maxInt64
  | finite negative significand exponent =>
    let whole : Int := ((significand : Rat) * (2 : Rat) ^ exponent).floor
    if negative then max minInt64 (-whole) else min maxInt64 whole

theorem minInt64_le_toInt64 (x : Binary64) : minInt64 ≤ x.toInt64 := by
  cases x with
  | nan => decide
  | infinite negative => cases negative <;> decide
  | finite negative significand exponent =>
    cases negative with
    | true => simp only [toInt64, if_true]; omega
    | false =>
      have h : (0 : Rat) ≤ (significand : Rat) * (2 : Rat) ^ exponent :=
        Rat.mul_nonneg (by exact_mod_cast Nat.zero_le significand)
          (Rat.le_of_lt (Rat.zpow_pos (by decide)))
      have h' : 0 ≤ ((significand : Rat) * (2 : Rat) ^ exponent).floor :=
        Rat.le_floor_iff.2 (by exact_mod_cast h)
      simp only [toInt64, Bool.false_eq_true, if_false, minInt64, maxInt64]
      omega

end Binary64

end ClusterTuning
