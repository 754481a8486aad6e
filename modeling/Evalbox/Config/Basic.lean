import Evalbox.Datum.Convert
import Evalbox.Flags
import Evalbox.Policy.Table

/-!
# Configurations

An `EngineConfig` is made by `EngineConfig.make`, which brings the classpath into absolute form and
checks the limits and the flags. Limits keep the type they were given in.
-/

namespace Evalbox

/-- The settings of an engine. -/
structure EngineConfig where
  classpath : List String
  flags : List String
  securityEnabled : Datum
  timeout : Datum
  policy : Policy
  maxUnits : Datum
  deriving Inhabited

/-- What a configuration is made from. -/
structure Settings where
  classpath : Datum
  flags : Datum
  securityEnabled : Datum
  timeout : Datum
  policy : Policy
  maxUnits : Datum

namespace Settings

/-- The settings where nothing else is said: five seconds, and 500 units for one target. -/
def default : Settings := ⟨.tuple [], .tuple [], .bool true, .float 5.0, Policy.default, .int 500⟩

end Settings

namespace Datum

/-- What an iteration over a datum goes through. -/
def items (d : Datum) : Except Fault (List Datum) :=
  match d with
  | list xs | tuple xs | set xs => .ok xs
  | dict es => .ok (es.map (·.1))
  | text s => .ok (s.toList.map fun c => text (String.singleton c))
  | bytes bs => .ok (bs.map fun b => int b.toNat)
  | d => .error (.type ("'" ++ d.typeName ++ "' object is not iterable"))

end Datum

namespace EngineConfig

/-- Check and normalize settings. -/
def make (cwd : String) (s : Settings) : Except Fault EngineConfig := do
  let classpath := (← s.classpath.items).map fun d => Path.absolute cwd d.asText
  let flags := (← s.flags.items).map (·.asText)
  if (← s.timeout.toFloat) ≤ 0 then .error (.value "timeout_seconds must be positive")
  if (← s.maxUnits.toInt) < 1 then .error (.value "max_units_per_target must be at least 1")
  match CompilerOptions.ofFlags flags with
  | .error e => .error e.fault
  | .ok _ => .ok ⟨classpath, flags, s.securityEnabled, s.timeout, s.policy, s.maxUnits⟩

/-- The classpath as one text. -/
def classpathText (c : EngineConfig) : String := ":".intercalate c.classpath

/-- The options that the flags ask for. The flags of a configuration that was made are known. -/
def options (c : EngineConfig) : Except FlagError CompilerOptions := CompilerOptions.ofFlags c.flags

end EngineConfig

end Evalbox

/-!
## Configurations from tables and files

The table `engine` of a configuration file holds the settings; the policy is in the table `policy` or
in a file of its own. Relative paths start at the directory of the configuration file.
-/

namespace Evalbox.EngineConfig

/-- The policy for an engine table: from the file that it names, from the policy table, or the
default. -/
def policyOf (files : FileTree) (base : String) (engine : Toml.Table) (policy : Option Datum) :
    Except Fault Policy :=
  let file := match Datum.entry? engine "policy_file" with
    | some .none => none
    | other => other
  match file, policy with
  | some _, some _ => .error (.value "Provide either a [policy] table or 'policy_file', not both")
  | some f, none => Policy.ofFile files (Path.tidy (Path.join base f.asText))
  | none, some (.dict t) => Policy.ofTable t none
  | none, some _ => .error (.value "'policy' must be a TOML table")
  | none, none => .ok Policy.default

/-- Make a configuration from an engine table and a policy table. -/
def ofTables (files : FileTree) (base : String) (engine : Toml.Table) (policy : Option Datum) :
    Except Fault EngineConfig := do
  let get (key : String) (default : Datum) : Datum := (Datum.entry? engine key).getD default
  let policy ← policyOf files base engine policy
  match get "classpath" (.list []), get "compiler_flags" (.list []) with
  | .list classpath, .list flags =>
    make files.cwd
      { classpath := .tuple (classpath.map fun d => .text (Path.tidy (Path.join base d.asText)))
        flags := .tuple (flags.map fun d => .text d.asText)
        securityEnabled := .bool (get "security_enabled" (.bool true)).truth
        timeout := .float (← (get "timeout_seconds" (.float 5.0)).toFloat)
        policy
        maxUnits := .int (← (get "max_units_per_target" (.int 500)).toInt) }
  | _, _ => .error (.value "'classpath' and 'compiler_flags' must be lists of strings")

/-- Read a configuration file. -/
def ofFile (files : FileTree) (path : String) : Except Fault EngineConfig := do
  let place := Path.tidy path
  let document ← Toml.read (← files.readText place)
  match (Datum.entry? document "engine").getD (.dict []) with
  | .dict engine => ofTables files (Path.parent place) engine (Datum.entry? document "policy")
  | _ => .error (.value "'engine' must be a TOML table")

end Evalbox.EngineConfig
