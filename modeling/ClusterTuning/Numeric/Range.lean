/-!
# Ranges of integers

Whole numbers are kept without bounds.  Where a format asks for an integer of a
fixed width, the number is held against the range of that width.
-/

namespace ClusterTuning

/-- The least integer of 32 bits with a sign. -/
def minInt32 : Int := -2147483648

/-- The greatest integer of 32 bits with a sign. -/
def maxInt32 : Int := 2147483647

/-- The least integer of 64 bits with a sign. -/
def minInt64 : Int := -9223372036854775808

/-- The greatest integer of 64 bits with a sign. -/
def maxInt64 : Int := 9223372036854775807

/-- The greatest integer of 64 bits without a sign. -/
def maxUInt64 : Int := 18446744073709551615

/-- The least integer of 128 bits with a sign. -/
def minInt128 : Int := -170141183460469231731687303715884105728

/-- The greatest integer of 128 bits without a sign. -/
def maxUInt128 : Int := 340282366920938463463374607431768211455

/-- Whether an integer fits 32 bits with a sign. -/
def fitsInt32 (n : Int) : Bool :=
  minInt32 ≤ n && n ≤ maxInt32

/-- Whether an integer fits 64 bits with a sign. -/
def fitsInt64 (n : Int) : Bool :=
  minInt64 ≤ n && n ≤ maxInt64

theorem fitsInt32_iff (n : Int) : fitsInt32 n = true ↔ minInt32 ≤ n ∧ n ≤ maxInt32 := by
  simp [fitsInt32]

theorem fitsInt64_iff (n : Int) : fitsInt64 n = true ↔ minInt64 ≤ n ∧ n ≤ maxInt64 := by
  simp [fitsInt64]

end ClusterTuning
