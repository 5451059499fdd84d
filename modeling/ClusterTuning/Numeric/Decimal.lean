import ClusterTuning.Numeric.Binary64

/-!
# Decimal numerals

Unsigned decimal numerals with an optional point and an optional exponent, the
exact number each of them names, and its nearest number of the binary format.
-/

namespace ClusterTuning

/-- The number `coefficient * 10 ^ exponent`. -/
structure Decimal where
  coefficient : Nat
  exponent : Int
deriving DecidableEq, Repr

/-! ## Digits -/

/-- The decimal digits `0` to `9`. -/
def isDigit (c : Char) : Bool :=
  0x30 ≤ c.toNat && c.toNat ≤ 0x39

/-- The value of one digit. -/
def digitValue (c : Char) : Nat :=
  c.toNat - 0x30

/-- The number that a run of digits names. -/
def digitsValue (digits : List Char) : Nat :=
  digits.foldl (fun n c => 10 * n + digitValue c) 0

/-- The digits of a natural number, without leading zeros. -/
def natDigits (n : Nat) : List Char :=
  Nat.toDigits 10 n

/-- The number that a nonempty run of digits names. -/
def readNat? (s : List Char) : Option Nat :=
  if s ≠ [] ∧ s.all isDigit then some (digitsValue s) else none

/-- The integer that a nonempty run of digits with an optional sign names. -/
def readInt? : List Char → Option Int
  | '+' :: rest => (readNat? rest).map Int.ofNat
  | '-' :: rest => (readNat? rest).map fun n => -(n : Int)
  | s => (readNat? s).map Int.ofNat

/-- The text of an integer. -/
def intText (n : Int) : String :=
  String.ofList (if n < 0 then '-' :: natDigits n.natAbs else natDigits n.natAbs)

namespace Decimal

/-- The exact number. -/
def toRat (d : Decimal) : Rat :=
  d.coefficient * (10 : Rat) ^ d.exponent

/-- The numeral of a whole part and a fraction, read as one run of digits. -/
def ofParts (whole fraction : List Char) : Decimal :=
  ⟨digitsValue (whole ++ fraction), -(fraction.length : Int)⟩

/-- Reads digits with at most one point among them and at least one digit, then nothing or an
exponent. -/
def read? (s : List Char) : Option Decimal :=
  let whole := s.takeWhile isDigit
  let rest := s.dropWhile isDigit
  let fraction := match rest with
    | '.' :: r => r.takeWhile isDigit
    | _ => []
  let rest := match rest with
    | '.' :: r => r.dropWhile isDigit
    | r => r
  if whole = [] ∧ fraction = [] then none
  else match rest with
    | [] => some (ofParts whole fraction)
    | e :: power =>
      if e = 'e' ∨ e = 'E' then
        (readInt? power).map fun k =>
          { ofParts whole fraction with exponent := (ofParts whole fraction).exponent + k }
      else none

/-- The number of digits of the coefficient. -/
def digitCount (d : Decimal) : Nat :=
  (natDigits d.coefficient).length

end Decimal

namespace Binary64

/-- The number nearest to a decimal numeral, with the given sign.  Numerals beyond either end of
the format are settled by the position of their first digit. -/
def ofDecimal (negative : Bool) (d : Decimal) : Binary64 :=
  if d.coefficient = 0 then zero negative
  else
    let top := (d.digitCount : Int) + d.exponent
    if 310 < top then .infinite negative
    else if top < -330 then zero negative
    else round negative d.toRat

end Binary64

end ClusterTuning
