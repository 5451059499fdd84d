import ClusterTuning.SortedMap
import ClusterTuning.Text.Blank
import ClusterTuning.Text.Pieces
import ClusterTuning.Text.Quoted

/-!
# Label selectors

The textual form of a label selector is a list of requirements between commas:
`app=web`, `tier!=db`, `env in (a, b)`, `env notin (c)`, `release`, `!legacy`.
Reading it gives the structured form that queries for resources use.
-/

namespace ClusterTuning

/-- What a requirement asks of a label. -/
inductive SelectorOperator where
  | isIn
  | notIn
  | exists
  | doesNotExist
deriving DecidableEq, Repr

/-- The name of an operator. -/
def SelectorOperator.name : SelectorOperator → String
  | isIn => "In"
  | notIn => "NotIn"
  | .exists => "Exists"
  | doesNotExist => "DoesNotExist"

/-- One requirement on a label other than equality. -/
structure SelectorRequirement where
  key : String
  operator : String
  values : Option (List String) := none
deriving DecidableEq, Repr, Inhabited

/-- A label selector: labels with the value they must have and requirements of other kinds. -/
structure LabelSelector where
  matchLabels : Option (Dictionary String) := none
  matchExpressions : Option (List SelectorRequirement) := none
deriving DecidableEq, Repr, Inhabited

namespace Selector

/-- Why a selector cannot be read. -/
inductive Fault where
  | unbalanced
  | emptyRequirement
  | invalidValue (requirement : String)
  | noValue (requirement : String)
  | unrecognized (requirement : String)
deriving DecidableEq, Repr

/-- What a fault says. -/
def Fault.reason : Fault → String
  | unbalanced => "unbalanced parentheses"
  | emptyRequirement => "empty requirement"
  | invalidValue requirement => "invalid value: " ++ Text.quoted requirement
  | noValue requirement =>
    "set requirement needs at least one value: " ++ Text.quoted requirement
  | unrecognized requirement => "unrecognized requirement: " ++ Text.quoted requirement

/-! ## Keys and values of labels -/

/-- The letters and digits that begin and end keys and values. -/
def isAlnum (c : Char) : Bool :=
  ('a' ≤ c && c ≤ 'z') || ('A' ≤ c && c ≤ 'Z') || ('0' ≤ c && c ≤ '9')

/-- The characters inside values. -/
def isValueChar (c : Char) : Bool :=
  isAlnum c || c == '-' || c == '_' || c == '.'

/-- The characters inside keys. -/
def isKeyChar (c : Char) : Bool :=
  isValueChar c || c == '/'

/-- A nonempty text of the given characters that begins and ends with a letter or digit. -/
def isName (inside : Char → Bool) (s : List Char) : Bool :=
  s.head?.any isAlnum && s.getLast?.any isAlnum && s.all inside

/-- The key of a label. -/
def isKey (s : List Char) : Bool :=
  isName isKeyChar s

/-- The value of a label, which may be empty. -/
def isValue (s : List Char) : Bool :=
  s.isEmpty || isName isValueChar s

/-! ## Requirements -/

/-- One requirement as it is written. -/
inductive Requirement where
  | set (key : List Char) (positive : Bool) (values : List (List Char))
  | equal (key value : List Char)
  | unequal (key value : List Char)
  | present (key : List Char)
  | absent (key : List Char)
deriving DecidableEq, Repr

/-- The word `in` or `notin` at the start of a text, and what follows it. -/
def setWord? : List Char → Option (Bool × List Char)
  | 'i' :: 'n' :: rest => some (true, rest)
  | 'n' :: 'o' :: 't' :: 'i' :: 'n' :: rest => some (false, rest)
  | _ => none

/-- The parts of a requirement of the form `key in (…)`: the key, whether the word is `in`, and
the text between the outer parentheses, which stands on one line. -/
def setParts? (s : List Char) : Option (List Char × Bool × List Char) :=
  let key := s.takeWhile isKeyChar
  let rest := s.dropWhile isKeyChar
  if isKey key ∧ rest.head?.any Text.isBlank then
    (setWord? (Text.trimStart rest)).bind fun (positive, after) =>
      match Text.trimStart after with
      | '(' :: body =>
        if body.getLast? = some ')' ∧ '\n' ∉ body.dropLast then some (key, positive, body.dropLast)
        else none
      | _ => none
  else none

/-- The parts of a requirement of the form `key = value`; `true` for equality. -/
def equalityParts? (s : List Char) : Option (List Char × Bool × List Char) :=
  let key := s.takeWhile isKeyChar
  let rest := Text.trimStart (s.dropWhile isKeyChar)
  let cut : Option (Bool × List Char) := match rest with
    | '=' :: '=' :: value => some (true, value)
    | '=' :: value => some (true, value)
    | '!' :: '=' :: value => some (false, value)
    | _ => none
  cut.bind fun (positive, value) =>
    let value := Text.trimStart value
    if isKey key ∧ isValue value then some (key, positive, value) else none

/-- The parts of a requirement of the form `key` or `!key`; `true` for presence. -/
def existenceParts? (s : List Char) : Option (List Char × Bool) :=
  let (present, key) := match s with
    | '!' :: rest => (false, rest)
    | rest => (true, rest)
  let key := Text.trimStart key
  if isKey key then some (key, present) else none

/-- Reads one requirement, without white space around it. -/
def readRequirement (s : List Char) : Except Fault Requirement :=
  match setParts? s with
  | some (key, positive, body) =>
    let values := (Text.pieces ',' body).map Text.trim
    if values.any (fun v => !isValue v) then .error (.invalidValue (String.ofList s))
    else if values.all (·.isEmpty) then .error (.noValue (String.ofList s))
    else .ok (.set key positive values)
  | none =>
    match equalityParts? s with
    | some (key, true, value) => .ok (.equal key value)
    | some (key, false, value) => .ok (.unequal key value)
    | none =>
      match existenceParts? s with
      | some (key, true) => .ok (.present key)
      | some (key, false) => .ok (.absent key)
      | none => .error (.unrecognized (String.ofList s))

/-! ## Lists of requirements -/

/-- Cuts at the commas outside parentheses.  The last argument holds the part that is being read,
reversed. -/
def splitAt : List Char → Nat → List Char → Except Fault (List (List Char))
  | [], 0, part => .ok [part.reverse]
  | [], _ + 1, _ => .error .unbalanced
  | '(' :: rest, depth, part => splitAt rest (depth + 1) ('(' :: part)
  | ')' :: _, 0, _ => .error .unbalanced
  | ')' :: rest, depth + 1, part => splitAt rest depth (')' :: part)
  | ',' :: rest, 0, part => (splitAt rest 0 []).map (part.reverse :: ·)
  | c :: rest, depth, part => splitAt rest depth (c :: part)

/-- The requirements of a selector, trimmed; a blank selector has none. -/
def requirements (s : List Char) : Except Fault (List (List Char)) := do
  let parts := (← splitAt s 0 []).map Text.trim
  if parts = [[]] then .ok []
  else if parts.any (·.isEmpty) then .error .emptyRequirement
  else .ok parts

/-- The structured form of a requirement that is no equality. -/
def Requirement.expression? : Requirement → Option SelectorRequirement
  | .set key positive values =>
    some ⟨String.ofList key, (if positive then SelectorOperator.isIn else .notIn).name,
      some (values.map String.ofList)⟩
  | .equal _ _ => none
  | .unequal key value =>
    some ⟨String.ofList key, SelectorOperator.notIn.name, some [String.ofList value]⟩
  | .present key => some ⟨String.ofList key, SelectorOperator.exists.name, none⟩
  | .absent key => some ⟨String.ofList key, SelectorOperator.doesNotExist.name, none⟩

/-- The label and value that an equality asks for. -/
def Requirement.label? : Requirement → Option (String × String)
  | .equal key value => some (String.ofList key, String.ofList value)
  | _ => none

/-- The structured form of a list of requirements; of two equalities on a label the later one
counts, and a part without entries is absent. -/
def ofRequirements (rs : List Requirement) : LabelSelector :=
  { matchLabels := some (Dictionary.ofList (rs.filterMap (·.label?))) |>.filter (!·.isEmpty),
    matchExpressions := some (rs.filterMap (·.expression?)) |>.filter (!·.isEmpty) }

/-- Reads a selector. -/
def parse (text : String) : Except Fault LabelSelector := do
  let parts ← requirements text.toList
  let rs ← parts.mapM readRequirement
  .ok (ofRequirements rs)

end Selector

end ClusterTuning
