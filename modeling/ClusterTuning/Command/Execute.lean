import ClusterTuning.Command.Run

/-!
# The command

Reads the arguments, runs the command on the files of the system and writes the
documents, or says why there are none.  A program that uses the command gives it
the reader of cluster objects.
-/

namespace ClusterTuning.Command

/-- How the command is used. -/
def usage : String :=
  "Usage: cluster-tuning [--config CONFIG] generate -f APPLICATION [-r RESOURCES]\n" ++
  "         [--name NAME] [--merge-generated] [--include-resources]\n" ++
  "         [--builtin-metrics] [-o yaml|json] [--output OUTPUT]\n"

/-- What is wrong with the arguments. -/
def ArgumentFault.message : ArgumentFault → String
  | missing => "error: an application is required"
  | unknown => "error: unexpected argument"
  | invalidValue => "error: invalid value"
  | conflict => "error: an argument cannot be used multiple times"
  | tooManyValues => "error: unexpected value"
  | help => ""

/-- The path of a configuration file, if one is named first, and the arguments after the word
`generate`. -/
def splitCommand? : List String → Option (Option String × List String)
  | "--config" :: path :: "generate" :: rest => some (some path, rest)
  | "generate" :: rest => some (none, rest)
  | _ => none

/-- The text of a file, if it can be read. -/
def readFile? (path : String) : IO (Option String) := do
  try
    return some (← IO.FS.readFile path)
  catch _ =>
    return none

/-- The variables of the environment that are settings. -/
def settingVariables : IO (List (String × String)) :=
  ["DEFAULT_EXPERIMENT_NAME", "MERGE_GENERATED", "INCLUDE_APPLICATION_RESOURCES",
    "BUILTIN_METRICS", "GENERATED_BY"].filterMapM fun name => do
      let full := "OPTIMIZE_" ++ name
      return (← IO.getEnv full).map fun value => (full, value)

/-- Reads the files that the arguments name and what else the command finds. -/
def lookAround (cluster : ClusterReader) (config : Option String) (args : Arguments) :
    IO Surroundings := do
  let config := config <|> (← IO.getEnv "OPTIMIZE_CONFIG")
  let standard := (← IO.getEnv "HOME").map (· ++ "/.config/optimize/config.yaml")
  let paths := config.toList ++ standard.toList ++ [args.application] ++ args.resources.toList
  let texts ← paths.mapM fun path => return (path, ← readFile? path)
  return {
    cluster
    file := fun path => (texts.find? (·.1 == path)).bind (·.2)
    environment := ← settingVariables
    configuration := config
    defaultConfiguration := standard }

/-- Writes the text of the documents where it was asked for. -/
def emit (args : Arguments) (text : String) (count : Nat) : IO UInt32 := do
  match args.output with
  | none =>
    (← IO.getStdout).putStr text
    return 0
  | some path =>
    try
      IO.FS.writeFile path text
      IO.eprintln ("Wrote " ++ intText count ++ " documents to " ++ path)
      return 0
    catch _ =>
      IO.eprintln ("Error: Failed to write " ++ path)
      return 1

/-- Runs the command on the arguments after its name. -/
def generate (cluster : ClusterReader) (config : Option String) (args : List String) :
    IO UInt32 := do
  match Arguments.read args with
  | .error .help =>
    IO.print usage
    return 0
  | .error fault =>
    IO.eprintln (fault.message ++ "\n" ++ usage)
    return 2
  | .ok args =>
    match run (← lookAround cluster config args) args with
    | .ok (text, count) => emit args text count
    | .error fault =>
      IO.eprintln ("Error: " ++ fault.message)
      return 1

/-- Runs the command that the arguments name. -/
def execute (cluster : ClusterReader) (args : List String) : IO UInt32 := do
  match splitCommand? args with
  | some (config, args) => generate cluster config args
  | none =>
    IO.eprintln usage
    return 2

end ClusterTuning.Command
