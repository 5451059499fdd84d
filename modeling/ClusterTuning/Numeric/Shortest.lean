import ClusterTuning.Numeric.Decimal

/-!
# The shortest numeral of a binary number

A binary number stands for every real number that rounds to it.  Among the
decimal numerals in that interval the shortest one is written, and among those
of the same length the one nearest to the number itself.  A layout then says
where the point goes and when an exponent is used.
-/

namespace ClusterTuning

/-! ## The digits -/

/-- Which of two equally near numerals is taken. -/
inductive Tie where
  | even
  | up
deriving DecidableEq, Repr

/-- The largest power of ten, as an exponent, that is at most the positive number `q`. -/
def floorLog10 (q : Rat) : Int :=
  let k : Int := ((natDigits q.num.natAbs).length : Int) - (natDigits q.den).length
  if (10 : Rat) ^ k ≤ q then k else k - 1

/-- The real numbers that round to one binary number. -/
structure RoundingInterval where
  value : Rat
  low : Rat
  high : Rat
  /-- The two ends round to the number as well. -/
  closed : Bool

namespace RoundingInterval

/-- The interval of the number `significand * 2 ^ exponent`.  Below a power of two the numbers
lie twice as close. -/
def ofParts (significand : Nat) (exponent : Int) : RoundingInterval :=
  let value := (significand : Rat) * (2 : Rat) ^ exponent
  let half := (2 : Rat) ^ (exponent - 1)
  let atPower := 2 * significand = Binary64.significandBound ∧ Binary64.minExponent < exponent
  { value, high := value + half, closed := significand % 2 == 0,
    low := if atPower then value - half / 2 else value - half }

/-- Whether a number rounds to the number of the interval. -/
def contains (interval : RoundingInterval) (q : Rat) : Bool :=
  if interval.closed then interval.low ≤ q && q ≤ interval.high
  else interval.low < q && q < interval.high

/-- The multiple of `10 ^ grid` in the interval that is nearest to its number, if there is one. -/
def onGrid? (interval : RoundingInterval) (tie : Tie) (grid : Int) : Option Decimal :=
  let unit := (10 : Rat) ^ grid
  let below := (interval.value / unit).floor.toNat
  let above := below + 1
  let down := interval.value - below * unit
  let up := above * unit - interval.value
  let preferDown := down < up || (down == up && (tie == .even && below % 2 == 0))
  match interval.contains (below * unit), interval.contains (above * unit) with
  | true, true => some ⟨if preferDown then below else above, grid⟩
  | true, false => some ⟨below, grid⟩
  | false, true => some ⟨above, grid⟩
  | false, false => none

/-- The first hit on ever finer grids, starting from `grid`. -/
def search (interval : RoundingInterval) (tie : Tie) : Nat → Int → Decimal
  | 0, grid => ⟨(interval.value / (10 : Rat) ^ grid).floor.toNat, grid⟩
  | steps + 1, grid =>
    match interval.onGrid? tie grid with
    | some d => d
    | none => search interval tie steps (grid - 1)

end RoundingInterval

/-- A numeral without trailing zeros in its coefficient; `steps` bounds their number. -/
def Decimal.trimmed : Nat → Decimal → Decimal
  | 0, d => d
  | steps + 1, d =>
    if d.coefficient ≠ 0 ∧ d.coefficient % 10 = 0 then
      trimmed steps ⟨d.coefficient / 10, d.exponent + 1⟩
    else d

/-- Seventeen digits tell any two numbers of the format apart. -/
def longestNumeral : Nat := 17

/-- The shortest numeral that reads back as the number `significand * 2 ^ exponent`. -/
def shortestDecimal (tie : Tie) (significand : Nat) (exponent : Int) : Decimal :=
  if significand = 0 then ⟨0, 0⟩
  else
    let interval := RoundingInterval.ofParts significand exponent
    (interval.search tie longestNumeral (floorLog10 interval.value)).trimmed longestNumeral

/-! ## The layout -/

/-- How the digits of a number are laid out. -/
structure NumberLayout where
  /-- Which of two equally near numerals is written. -/
  tie : Tie
  /-- The positions of the point that are written without an exponent; all of them if absent. -/
  positional : Option (Int × Int)
  /-- A whole number keeps a zero after the point. -/
  keepsPoint : Bool
  /-- The texts for an undefined number and for the two infinite ones. -/
  undefinedText : String
  infiniteText : String
  negativeInfiniteText : String

namespace NumberLayout

/-- The digits around a point at position `point`, without an exponent. -/
def positionalText (layout : NumberLayout) (digits : List Char) (point : Int) : List Char :=
  if point ≤ 0 then ['0', '.'] ++ List.replicate (-point).toNat '0' ++ digits
  else
    let whole := point.toNat
    if digits.length ≤ whole then
      digits ++ List.replicate (whole - digits.length) '0' ++
        (if layout.keepsPoint then ['.', '0'] else [])
    else digits.take whole ++ '.' :: digits.drop whole

/-- The digits with the point after the first of them and an exponent. -/
def exponentText (digits : List Char) (point : Int) : List Char :=
  (match digits with
    | [] => []
    | [d] => [d]
    | d :: rest => d :: '.' :: rest) ++ 'e' :: (intText (point - 1)).toList

/-- The text of a numeral. -/
def numeral (layout : NumberLayout) (d : Decimal) : List Char :=
  let digits := natDigits d.coefficient
  let point := (digits.length : Int) + d.exponent
  match layout.positional with
  | none => layout.positionalText digits point
  | some (lowest, highest) =>
    if lowest ≤ point ∧ point ≤ highest then layout.positionalText digits point
    else exponentText digits point

/-- The text of a number. -/
def text (layout : NumberLayout) : Binary64 → String
  | .nan => layout.undefinedText
  | .infinite negative => if negative then layout.negativeInfiniteText else layout.infiniteText
  | .finite negative significand exponent =>
    let digits := layout.numeral (shortestDecimal layout.tie significand exponent)
    String.ofList (if negative then '-' :: digits else digits)

/-- Amounts are written in full, whatever their size. -/
def plain : NumberLayout :=
  { tie := .up, positional := none, keepsPoint := false,
    undefinedText := "NaN", infiniteText := "inf", negativeInfiniteText := "-inf" }

/-- Documents keep a point in every number and use an exponent from `10 ^ 16` up and
below `10 ^ -5`. -/
def document : NumberLayout :=
  { tie := .even, positional := some (-4, 16), keepsPoint := true,
    undefinedText := ".nan", infiniteText := ".inf", negativeInfiniteText := "-.inf" }

end NumberLayout

end ClusterTuning
