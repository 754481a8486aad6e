import Evalbox.Failure

/-!
# Policies

A policy says what a guarded snippet may do. In `restrict` mode whatever is not blocked is permitted;
in `allow` mode only the imports and builtins that are listed are. Events are blocked in both modes.
-/

namespace Evalbox

inductive PolicyMode where
  | allow
  | restrict
  deriving DecidableEq, Repr, Inhabited

namespace PolicyMode

def name : PolicyMode → String
  | allow => "allow"
  | restrict => "restrict"

def ofName? (name : String) : Option PolicyMode :=
  if name = "allow" then some allow
  else if name = "restrict" then some restrict
  else none

/-- The fault for anything but the two modes. -/
def unknown : Fault := .value "mode must be 'allow' or 'restrict'"

end PolicyMode

/-- What a guarded snippet may do. `path` is the file that the policy was read from. -/
structure Policy where
  mode : PolicyMode
  allowedImports : List String
  blockedImports : List String
  allowedBuiltins : List String
  blockedBuiltins : List String
  blockedEvents : List String
  path : Option String
  deriving DecidableEq, Repr

namespace Policy

/-- The policy that is used where nothing else is said. -/
def default : Policy :=
  ⟨.restrict, [],
   ["os", "subprocess", "socket", "ctypes", "importlib", "multiprocessing", "shutil"],
   [],
   ["eval", "exec", "open", "compile", "breakpoint", "input"],
   ["os.system", "os.exec", "os.fork", "os.forkpty", "os.kill", "os.posix_spawn", "os.remove",
    "os.rename", "os.rmdir", "os.spawn", "shutil.rmtree", "socket.connect", "socket.bind",
    "subprocess.Popen", "ctypes.dlopen", "open:write"],
   none⟩

instance : Inhabited Policy := ⟨default⟩

/-- The policy of a file that does not exist. It names fewer imports and events than the default. -/
def ofMissingFile : Policy :=
  { default with
    blockedImports := ["os", "subprocess", "socket", "ctypes", "importlib"]
    blockedEvents := ["os.system", "subprocess.Popen", "socket.connect", "open:write"] }

/-- Whether a pattern matches an event: it is the event's name, or ends in `.*` and is the front of
the name up to and with the dot. -/
def matchesEvent (event pattern : String) : Bool :=
  let p := pattern.toList
  if p.drop (p.length - 2) = ".*".toList then p.dropLast.isPrefixOf event.toList
  else event = pattern

/-- Whether an event is blocked by name. -/
def blocksEvent (p : Policy) (event : String) : Bool := p.blockedEvents.any (matchesEvent event)

/-- Whether the top-level module of an import is permitted. -/
def permitsRoot (p : Policy) (root : String) : Bool :=
  match p.mode with
  | .allow => p.allowedImports.contains root
  | .restrict => !p.blockedImports.contains root

/-- Whether a builtin of this name is permitted. Names with two leading underscores need not be
listed. -/
def permitsBuiltin (p : Policy) (name : String) : Bool :=
  match p.mode with
  | .allow => p.allowedBuiltins.contains name || "__".toList.isPrefixOf name.toList
  | .restrict => !p.blockedBuiltins.contains name

end Policy

end Evalbox
