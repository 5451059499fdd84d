import ClusterTuning.Text.LetterCase
import ClusterTuning.Yaml.Scalar

/-!
# Settings

The value of a setting comes from a plain word, in the configuration file or in
the environment, and is a truth value, an integer, a number or a text.  Where
another kind is asked for, it is converted.
-/

namespace ClusterTuning.Command

/-- The value of a setting. -/
inductive Setting where
  | absent
  | flag (b : Bool)
  | integer (n : Int)
  | float (x : Binary64)
  | text (s : String)
  /-- A list or a table, which no setting is. -/
  | collection
deriving DecidableEq, Repr, Inhabited

namespace Setting

/-- An integer of 64 bits in base ten. -/
def integer? (s : List Char) : Option Int :=
  (readInt? s).filter fun n => minInt64 ≤ n && n ≤ maxInt64

/-- An integer of 64 bits in another base. -/
def based? (base : Nat) (s : List Char) : Option Int :=
  let (negative, digits) : Bool × List Char := match s with
    | '-' :: rest => (true, rest)
    | '+' :: rest => (false, rest)
    | s => (false, s)
  ((Yaml.Scalar.readDigits? base digits).map fun n => if negative then -(n : Int) else n).filter
    fun n => minInt64 ≤ n && n ≤ maxInt64

/-- A number with a sign, or one of the words for numbers that are not finite, in letters of either
case. -/
def float? (s : List Char) : Option Binary64 :=
  let (negative, rest) : Bool × List Char := match s with
    | '-' :: rest => (true, rest)
    | '+' :: rest => (false, rest)
    | s => (false, s)
  let word := String.ofList (rest.map Char.toLower)
  if word = "nan" then some .nan
  else if word = "inf" ∨ word = "infinity" then some (.infinite negative)
  else (Decimal.read? rest).map (Binary64.ofDecimal negative)

/-- The meaning of a plain word in the configuration file. -/
def ofPlain (s : List Char) : Setting :=
  let based : Option Int := match s with
    | '0' :: 'x' :: rest => based? 16 rest
    | '0' :: 'o' :: rest => based? 8 rest
    | _ => none
  match based <|> integer? s with
  | some n => .integer n
  | none =>
    if s = [] ∨ s = "~".toList ∨ s = "null".toList then .absent
    else if s = "true".toList then .flag true
    else if s = "false".toList then .flag false
    else match float? s with
      | some x => .float x
      | none => .text (String.ofList s)

/-- The meaning of a value in the environment. -/
def ofVariable (s : String) : Setting :=
  let word := Text.lowercase s.toList
  if word = "true".toList then .flag true
  else if word = "false".toList then .flag false
  else match integer? s.toList with
    | some n => .integer n
    | none =>
      match float? s.toList with
      | some x => .float x
      | none => .text s

/-! ## Conversions -/

/-- The truth value that a setting stands for. -/
def asFlag? : Setting → Option Bool
  | flag b => some b
  | integer n => some (n != 0)
  | float x => some (!x.same (.ofInt 0))
  | text s =>
    let word := String.ofList (Text.lowercase s.toList)
    if ["1", "true", "on", "yes"].contains word then some true
    else if ["0", "false", "off", "no"].contains word then some false
    else none
  | _ => none

/-- The text that a setting stands for. -/
def asText? : Setting → Option String
  | flag b => some (if b then "true" else "false")
  | integer n => some (intText n)
  | float x => some (NumberLayout.plain.text x)
  | text s => some s
  | _ => none

end Setting

end ClusterTuning.Command
