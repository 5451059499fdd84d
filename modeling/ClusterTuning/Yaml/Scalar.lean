import ClusterTuning.Yaml.Value

/-!
# What a plain scalar means

A scalar written without quotes is null, a truth value, an integer, a number
with a point or else a text.  The same rules tell the writer which texts have to
be quoted.
-/

namespace ClusterTuning.Yaml.Scalar

/-- The meaning of a plain scalar. -/
inductive Meaning where
  | null
  | bool (b : Bool)
  | integer (n : Int)
  /-- An integer of more than 64 bits. -/
  | oversized
  | float (x : Binary64)
  | text
deriving DecidableEq, Repr

/-- The spellings of null. -/
def isNullWord (s : List Char) : Bool :=
  ["null", "Null", "NULL", "~"].any (·.toList == s)

/-- The spellings of the truth values. -/
def readBool? (s : List Char) : Option Bool :=
  if ["true", "True", "TRUE"].any (·.toList == s) then some true
  else if ["false", "False", "FALSE"].any (·.toList == s) then some false
  else none

/-! ## Integers -/

/-- The value of a digit in bases up to sixteen. -/
def digitValue? (base : Nat) (c : Char) : Option Nat :=
  let n := c.toNat
  let value : Option Nat :=
    if 0x30 ≤ n ∧ n ≤ 0x39 then some (n - 0x30)
    else if 0x61 ≤ n ∧ n ≤ 0x66 then some (n - 0x61 + 10)
    else if 0x41 ≤ n ∧ n ≤ 0x46 then some (n - 0x41 + 10)
    else none
  value.filter (· < base)

/-- The number that a nonempty run of digits names in a base. -/
def readDigits? (base : Nat) (s : List Char) : Option Nat :=
  if s = [] then none
  else s.foldl (fun n c => n.bind fun n => (digitValue? base c).map (base * n + ·)) (some 0)

/-- Several digits of which the first is zero are no number. -/
def isPaddedDigits (s : List Char) : Bool :=
  let digits := match s with
    | '-' :: rest => rest
    | '+' :: rest => rest
    | s => s
  match digits with
  | '0' :: rest => !rest.isEmpty && rest.all isDigit
  | _ => false

/-- A number without a sign, in base ten or with the mark of another base. -/
def readUnsigned? : List Char → Option Nat
  | '0' :: 'x' :: rest => readDigits? 16 rest
  | '0' :: 'o' :: rest => readDigits? 8 rest
  | '0' :: 'b' :: rest => readDigits? 2 rest
  | s => if isPaddedDigits s then none else readDigits? 10 s

/-- An integer with an optional sign, of any size. -/
def readInteger? : List Char → Option Int
  | '+' :: rest => (readUnsigned? rest).map Int.ofNat
  | '-' :: rest => (readUnsigned? rest).map fun n => -(n : Int)
  | s => (readUnsigned? s).map Int.ofNat

/-- The integers that fit 64 bits, with or without a sign. -/
def fits64 (n : Int) : Bool :=
  minInt64 ≤ n && n ≤ maxUInt64

/-- The integers that fit 128 bits, with or without a sign. -/
def fits128 (n : Int) : Bool :=
  minInt128 ≤ n && n ≤ maxUInt128

/-! ## Numbers with a point -/

/-- The spellings of infinity, without a sign. -/
def isInfinityWord (s : List Char) : Bool :=
  [".inf", ".Inf", ".INF"].any (·.toList == s)

/-- The spellings of an undefined number. -/
def isUndefinedWord (s : List Char) : Bool :=
  [".nan", ".NaN", ".NAN"].any (·.toList == s)

/-- A decimal numeral that names a finite number. -/
def readFinite? (negative : Bool) (s : List Char) : Option Binary64 :=
  ((Decimal.read? s).map (Binary64.ofDecimal negative)).filter (·.isFinite)

/-- A number of the binary format. -/
def readFloat? (s : List Char) : Option Binary64 :=
  if isUndefinedWord s then some .nan
  else
    let (negative, rest) : Bool × List Char := match s with
      | '+' :: rest => (false, rest)
      | '-' :: rest => (true, rest)
      | s => (false, s)
    if isInfinityWord rest then some (.infinite negative) else readFinite? negative rest

/-! ## Meaning -/

/-- The meaning of a plain scalar. -/
def meaning (s : List Char) : Meaning :=
  if s = [] ∨ isNullWord s then .null
  else match readBool? s with
    | some b => .bool b
    | none =>
      match (readInteger? s).filter fits128 with
      | some n => if fits64 n then .integer n else .oversized
      | none =>
        if isPaddedDigits s then .text
        else match readFloat? s with
          | some x => .float x
          | none => .text

end ClusterTuning.Yaml.Scalar
