import ClusterTuning.Command.Setting
import ClusterTuning.Yaml.Node

/-!
# Configuration of the command

Settings come from a configuration file and from the variables of the
environment that start with `OPTIMIZE_`, which come first.  Other settings are
ignored.
-/

namespace ClusterTuning.Command

open Yaml

/-- The settings of the command. -/
structure Configuration where
  /-- The name of an experiment when neither the arguments nor the application name it. -/
  defaultName : String := "experiment"
  mergeGenerated : Bool := false
  includeResources : Bool := false
  builtInMetrics : Bool := false
  /-- The comment at the top of the documents. -/
  generatedBy : Option String := none
deriving DecidableEq, Repr, Inhabited

/-- Settings by name; of two with the same name the later one counts. -/
abbrev Settings := List (String × Setting)

/-- A variable of the environment starts with this to be a setting. -/
def variableStart : String := "optimize_"

/-- The settings in the environment; the case of letters in their names does not count. -/
def variableSettings (environment : List (String × String)) : Settings :=
  environment.filterMap fun v =>
    let name := Text.lowercase v.1.toList
    if variableStart.toList.isPrefixOf name then
      some (String.ofList (name.drop variableStart.length), Setting.ofVariable v.2)
    else none

/-- The setting that a node of the configuration file stands for. -/
def settingOfNode : Node → Setting
  | .scalar none .plain s => .ofPlain s.toList
  | .scalar (some .null) _ _ => .absent
  | .scalar (some .bool) .plain s => .ofPlain s.toList
  | .scalar (some .int) .plain s => .ofPlain s.toList
  | .scalar (some .float) .plain s => .ofPlain s.toList
  | .scalar _ _ s => .text s
  | .absent => .absent
  | _ => .collection

/-- The settings in a configuration file, which holds one mapping or nothing. -/
def fileSettings (text : String) : Option Settings :=
  match Node.read text with
  | .ok .absent => some []
  | .ok (.mapping _ entries) => entries.mapM fun entry =>
      match entry.1 with
      | .scalar _ _ name => some (name, settingOfNode entry.2)
      | _ => none
  | _ => none

namespace Configuration

/-- The endings that names of configuration files have. -/
def fileEndings : List String :=
  [".yaml", ".yml", ".json"]

/-- Whether a path ends like the name of a configuration file. -/
def isFileName (path : String) : Bool :=
  fileEndings.any fun ending => ending.toList.isSuffixOf path.toList

/-- The setting of a name. -/
def find? (name : String) (settings : Settings) : Option Setting :=
  (settings.reverse.find? (·.1 == name)).map (·.2)

/-- A setting of some kind, with a value for its absence. -/
def getD {α : Type} (name : String) (convert : Setting → Option α) (default : α)
    (settings : Settings) : Option α :=
  match find? name settings with
  | some setting => convert setting
  | none => some default

/-- The configuration that settings describe, if each of them can be converted. -/
def ofSettings? (settings : Settings) : Option Configuration := do
  return {
    defaultName := ← getD "default_experiment_name" Setting.asText? "experiment" settings
    mergeGenerated := ← getD "merge_generated" Setting.asFlag? false settings
    includeResources := ← getD "include_application_resources" Setting.asFlag? false settings
    builtInMetrics := ← getD "builtin_metrics" Setting.asFlag? false settings
    generatedBy := ← getD "generated_by"
      (fun s => if s = .absent then some none else s.asText?.map some) none settings }

end Configuration

end ClusterTuning.Command
