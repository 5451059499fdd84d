/-!
# Arguments of the command

The options of the command by long and short names, and reading them from a list
of arguments.  An option takes its value from the rest of its argument or from
the next argument, unless that looks like an option itself.
-/

namespace ClusterTuning.Command

/-- How the documents are written. -/
inductive OutputFormat where
  | yaml
  | json
deriving DecidableEq, Repr

/-- The format with a given name. -/
def OutputFormat.ofName? (name : String) : Option OutputFormat :=
  if name = "yaml" then some .yaml else if name = "json" then some .json else none

/-- What the command was asked to do. -/
structure Arguments where
  /-- The file with the description of the application. -/
  application : String
  /-- The file with the resources of the application. -/
  resources : Option String := none
  /-- The name of the experiment. -/
  name : Option String := none
  mergeGenerated : Bool := false
  includeResources : Bool := false
  builtInMetrics : Bool := false
  format : OutputFormat := .yaml
  /-- The file to write; without one the text goes to the standard output. -/
  output : Option String := none
deriving DecidableEq, Repr

/-- Why arguments cannot be used. -/
inductive ArgumentFault where
  | missing
  | unknown
  | invalidValue
  | conflict
  | tooManyValues
  /-- Help was asked for. -/
  | help
deriving DecidableEq, Repr

/-! ## Options -/

/-- The options of the command. -/
inductive OptionKind where
  | application
  | resources
  | name
  | mergeGenerated
  | includeResources
  | builtInMetrics
  | format
  | output
  | help
deriving DecidableEq, Repr

namespace OptionKind

/-- The option with a long name. -/
def ofLong? (word : List Char) : Option OptionKind :=
  ([("application", application), ("resources", resources), ("name", name),
    ("merge-generated", mergeGenerated), ("include-resources", includeResources),
    ("builtin-metrics", builtInMetrics), ("format", format), ("output", output),
    ("help", help)].find? (·.1.toList == word)).map (·.2)

/-- The option with a short name. -/
def ofShort? (c : Char) : Option OptionKind :=
  ([('f', application), ('r', resources), ('o', format), ('h', help)].find? (·.1 == c)).map (·.2)

/-- Whether the option has a value. -/
def takesValue : OptionKind → Bool
  | mergeGenerated => false
  | includeResources => false
  | builtInMetrics => false
  | help => false
  | _ => true

/-- Whether the option accepts a value: a file has a name, and a format is a known one. -/
def accepts : OptionKind → String → Bool
  | application, value => !value.isEmpty
  | resources, value => !value.isEmpty
  | output, value => !value.isEmpty
  | format, value => (OutputFormat.ofName? value).isSome
  | _, _ => true

end OptionKind

/-! ## Reading -/

/-- Options with their values; the value of a flag is empty. -/
abbrev Given := List (OptionKind × String)

/-- An option that was read but not checked yet, and its value if that was read. -/
abbrev Pending := Option (OptionKind × Option String)

/-- Adds an option that may be given only once. -/
def give (given : Given) (kind : OptionKind) (value : Option String) :
    Except ArgumentFault Given :=
  if kind = .help then .error .help
  else if kind.takesValue ∧ value = none then .error .invalidValue
  else if given.any (·.1 == kind) then .error .conflict
  else if kind.accepts (value.getD "") then .ok (given ++ [(kind, value.getD "")])
  else .error .invalidValue

/-- Adds the option that is still to be checked. -/
def settle (given : Given) : Pending → Except ArgumentFault Given
  | none => .ok given
  | some (kind, value) => give given kind value

/-- Reads an option and the value in the same argument.  The result holds the options given so far
and the one that is still to be checked. -/
def readOption (given : Given) (pending : Pending) (kind : OptionKind) (value : Option String) :
    Except ArgumentFault (Given × Pending) := do
  let given ← settle given pending
  if kind.takesValue ∧ value = none then return (given, some (kind, none))
  else return (← give given kind value, none)

/-- Reads an argument that starts with two dashes, which are cut off. -/
def readLong (given : Given) (pending : Pending) (s : List Char) :
    Except ArgumentFault (Given × Pending) :=
  let name := s.takeWhile (· != '=')
  let value : Option String := match s.dropWhile (· != '=') with
    | _ :: rest => some (String.ofList rest)
    | [] => none
  match OptionKind.ofLong? name with
  | none => .error .unknown
  | some kind =>
    if !kind.takesValue ∧ value.isSome then .error .tooManyValues
    else readOption given pending kind value

/-- Reads an argument that starts with one dash, which is cut off. -/
def readShort (given : Given) (pending : Pending) :
    List Char → Except ArgumentFault (Given × Pending)
  | [] => .ok (given, pending)
  | c :: rest =>
    match OptionKind.ofShort? c with
    | none => .error .unknown
    | some kind =>
      let value : Option String := match rest with
        | [] => none
        | '=' :: value => some (String.ofList value)
        | value => some (String.ofList value)
      readOption given pending kind value

/-- Reads arguments in turn.  There are no arguments beside options and their values. -/
def readAll (given : Given) (pending : Pending) : List String → Except ArgumentFault Given
  | [] => settle given pending
  | arg :: rest =>
    match arg.toList with
    | ['-', '-'] => if rest.isEmpty then settle given pending else .error .unknown
    | '-' :: '-' :: s => do
      let (given, pending) ← readLong given pending s
      readAll given pending rest
    | '-' :: c :: s => do
      let (given, pending) ← readShort given pending (c :: s)
      readAll given pending rest
    | _ =>
      match pending with
      | some (kind, none) => readAll given (some (kind, some arg)) rest
      | _ => .error .unknown

/-- The value of an option. -/
def valueOf? (given : Given) (kind : OptionKind) : Option String :=
  (given.find? (·.1 == kind)).map (·.2)

/-- Reads the arguments of the command. -/
def Arguments.read (args : List String) : Except ArgumentFault Arguments := do
  let given ← readAll [] none args
  let has (kind : OptionKind) : Bool := (valueOf? given kind).isSome
  match valueOf? given .application with
  | none => throw .missing
  | some application =>
    return {
      application
      resources := valueOf? given .resources
      name := valueOf? given .name
      mergeGenerated := has .mergeGenerated
      includeResources := has .includeResources
      builtInMetrics := has .builtInMetrics
      format := ((valueOf? given .format).bind OutputFormat.ofName?).getD .yaml
      output := valueOf? given .output }

end ClusterTuning.Command
