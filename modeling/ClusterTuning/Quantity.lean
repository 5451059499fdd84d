import ClusterTuning.Failure
import ClusterTuning.Numeric.Shortest

/-!
# Resource quantities

Amounts of a resource are written as decimal numbers with a suffix: a binary one
(`Ki` to `Ei`), a decimal one (`n` to `E`) or a power of ten (`e3`).  They are
computed with in binary floating point and rounded up to whole units or
thousandths of a unit.
-/

namespace ClusterTuning.Quantity

/-- The suffixes and the factors they stand for. -/
def suffixes : List (String × Binary64) :=
  [("Ki", .ofInt 1024), ("Mi", .ofInt 1048576), ("Gi", .ofInt 1073741824),
   ("Ti", .ofInt 1099511627776), ("Pi", .ofInt 1125899906842624),
   ("Ei", .ofInt 1152921504606846976),
   ("n", .ofDecimal false ⟨1, -9⟩), ("u", .ofDecimal false ⟨1, -6⟩),
   ("m", .ofDecimal false ⟨1, -3⟩), ("", .ofInt 1), ("k", .ofInt 1000),
   ("M", .ofInt 1000000), ("G", .ofInt 1000000000), ("T", .ofInt 1000000000000),
   ("P", .ofInt 1000000000000000), ("E", .ofInt 1000000000000000000)]

/-- The factor that a suffix stands for. -/
def multiplier? (suffix : List Char) : Option Binary64 :=
  match suffixes.find? fun entry => entry.1.toList == suffix with
  | some (_, factor) => some factor
  | none =>
    match suffix with
    | e :: power =>
      if e = 'e' ∨ e = 'E' then
        ((readInt? power).filter fitsInt32).map (Binary64.power (.ofInt 10))
      else none
    | [] => none

/-- The characters that belong to the number of a quantity. -/
def isNumberChar (c : Char) : Bool :=
  isDigit c || c == '.'

/-- The sign at the start of a text, and what follows it. -/
def cutSign : List Char → Bool × List Char
  | '-' :: rest => (true, rest)
  | '+' :: rest => (false, rest)
  | s => (false, s)

/-- The number of a quantity without its suffix. -/
def readNumber? (negative : Bool) (digits : List Char) : Option Binary64 :=
  (Decimal.read? digits).map (Binary64.ofDecimal negative)

/-- The value of a quantity in base units. -/
def read? (text : List Char) : Option Binary64 :=
  let (negative, rest) := cutSign (Text.trim text)
  (readNumber? negative (rest.takeWhile isNumberChar)).bind fun number =>
    (multiplier? (rest.dropWhile isNumberChar)).map number.mul

/-- The value of a quantity in base units, or the failure that names the text. -/
def parse (text : String) : Except Failure Binary64 :=
  match read? text.toList with
  | some x => .ok x
  | none => .error (.quantity text)

/-- Values nearer than this to an integer count as that integer. -/
def tolerance : Binary64 :=
  .ofDecimal false ⟨1, -6⟩

/-- The next integer that is not below the value, but for noise in the last digits. -/
def roundUp (x : Binary64) : Int :=
  let nearest := x.nearestAway
  if (x.sub nearest).abs.lt tolerance then nearest.toInt64 else x.ceiling.toInt64

/-- The quantity in whole base units, rounded up. -/
def value (text : String) : Except Failure Int :=
  (parse text).map roundUp

/-- The quantity in thousandths of the base unit, rounded up. -/
def milliValue (text : String) : Except Failure Int :=
  (parse text).map fun x => roundUp (x.mul (.ofInt 1000))

end ClusterTuning.Quantity
