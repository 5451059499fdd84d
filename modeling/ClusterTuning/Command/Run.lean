import ClusterTuning.Application.Document
import ClusterTuning.Application.Selections
import ClusterTuning.Command.Arguments
import ClusterTuning.Command.Configuration
import ClusterTuning.Generation
import ClusterTuning.Json
import ClusterTuning.Stream

/-!
# Running the command

The command reads its configuration, the description of an application and the
resources of the application, generates an experiment and writes the documents.
The files it reads are given as a function from their paths, and the reader of
cluster objects is given with them.
-/

namespace ClusterTuning.Command

open Yaml

/-- Why the command ends without documents. -/
inductive Fault where
  | unreadableConfiguration
  | invalidConfiguration
  | unreadableApplication (path : String)
  | invalidApplication (path : String)
  | unreadableResources (path : String)
  | invalidResources (path : String) (cause : Failure)
  | generation (cause : Failure)
  | noJson
  | unwritable (cause : Failure)
deriving DecidableEq, Repr

namespace Fault

/-- What a fault says. -/
def message : Fault → String
  | unreadableConfiguration => "Failed to read configuration"
  | invalidConfiguration => "Failed to parse configuration"
  | unreadableApplication path => "Failed to read application " ++ path
  | invalidApplication path => "Failed to parse application " ++ path
  | unreadableResources path => "Failed to read resources " ++ path
  | invalidResources path _ => "Failed to parse resources " ++ path
  | generation _ => "Failed to generate experiment"
  | noJson => "Documents cannot be represented as JSON"
  | unwritable _ => "Failed to serialize YAML output"

/-- The failure behind a fault. -/
def cause? : Fault → Option Failure
  | invalidResources _ cause => some cause
  | generation cause => some cause
  | unwritable cause => some cause
  | _ => none

end Fault

/-- What the command finds around it. -/
structure Surroundings where
  /-- The reader of the objects of the cluster. -/
  cluster : ClusterReader
  /-- The text of a file, if it can be read. -/
  file : String → Option String
  /-- The variables of the environment. -/
  environment : List (String × String) := []
  /-- The path of the configuration file, if one was named. -/
  configuration : Option String := none
  /-- The path of the configuration file that is used if it is there. -/
  defaultConfiguration : Option String := none

/-- A result, or the fault that explains why there is none. -/
def orFault {α : Type} (fault : Fault) : Option α → Except Fault α
  | some a => .ok a
  | none => .error fault

namespace Surroundings

/-- The text of a configuration file that was named, in full or without its ending. -/
def namedConfiguration? (s : Surroundings) (path : String) : Option String :=
  match s.file path with
  | some text => if Configuration.isFileName path then some text else none
  | none => Configuration.fileEndings.findSome? fun ending => s.file (path ++ ending)

/-- The text of the configuration file.  One that was named has to be there. -/
def configurationText (s : Surroundings) : Except Fault (Option String) :=
  match s.configuration with
  | some path => (orFault .unreadableConfiguration (s.namedConfiguration? path)).map some
  | none => .ok (s.defaultConfiguration.bind s.file)

/-- The configuration of the command. -/
def readConfiguration (s : Surroundings) : Except Fault Configuration := do
  let settings ← match ← s.configurationText with
    | some text => orFault .unreadableConfiguration (fileSettings text)
    | none => .ok []
  orFault .invalidConfiguration
    (Configuration.ofSettings? (settings ++ variableSettings s.environment))

/-- The description of the application. -/
def readApplication (s : Surroundings) (path : String) : Except Fault Application := do
  let text ← orFault (.unreadableApplication path) (s.file path)
  (Application.read s.cluster text).mapError fun _ => .invalidApplication path

/-- The resources of the application. -/
def readResources (s : Surroundings) (path : Option String) : Except Fault (List Value) :=
  match path with
  | none => .ok []
  | some path => do
    let text ← orFault (.unreadableResources path) (s.file path)
    (Stream.read text).mapError (.invalidResources path)

end Surroundings

/-- The generator for the arguments, the configuration and the application. -/
def generator (args : Arguments) (config : Configuration) (a : Application) : Generator :=
  { defaultName := ((args.name <|> a.name?).getD config.defaultName)
    mergeGenerated := args.mergeGenerated || config.mergeGenerated
    includeApplicationResources := args.includeResources || config.includeResources }

/-- The text of the documents.  Only the document format has a header. -/
def render (format : OutputFormat) (header : Option String) (documents : List Value) :
    Except Fault String :=
  match format with
  | .yaml => (Stream.write documents header).mapError .unwritable
  | .json => (orFault .noJson (Json.ofItems? documents)).map Json.listText

/-- The documents that the command writes. -/
def documents (s : Surroundings) (args : Arguments) (config : Configuration) :
    Except Fault (List Value) := do
  let a ← s.readApplication args.application
  let scanned ← s.readResources args.resources
  let selections := a.selections (args.builtInMetrics || config.builtInMetrics)
  let result := ((generator args config a).documents (.ofInt 0) scanned selections).run {}
  result.1.mapError .generation

/-- The text that the command writes, and the number of its documents. -/
def run (s : Surroundings) (args : Arguments) : Except Fault (String × Nat) := do
  let config ← s.readConfiguration
  let ds ← documents s args config
  return (← render args.format config.generatedBy ds, ds.length)

end ClusterTuning.Command
