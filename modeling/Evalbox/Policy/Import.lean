import Evalbox.Policy.Basic
import Evalbox.Text.Dotted

/-!
# Guarded imports

The import function of a guarded snippet looks at the spelling of an import before it hands it on.
Relative imports are not looked at, but for the loader of the host.
-/

namespace Evalbox

/-- A call of an import function. `origin` stands for the namespaces that the call came with. -/
structure ImportCall (ω : Type) where
  name : String
  origin : ω
  names : List String
  level : Int
  deriving DecidableEq, Repr

namespace Policy

/-- Whether a name is that of the host's import machinery, or lies inside it. -/
def isMachinery (name : String) : Bool :=
  name = "importlib" || "importlib.".toList.isPrefixOf name.toList

/-- Why an import is refused, if it is. -/
def importFault? (p : Policy) (name : String) (level : Int) : Option Fault :=
  if isMachinery name then some (.missingImport "Import 'importlib' is blocked by policy")
  else if level ≠ 0 || p.permitsRoot (Dotted.root name) then none
  else match p.mode with
    | .allow => some (.missingImport ("Import '" ++ name ++ "' is not allowed by policy"))
    | .restrict => some (.missingImport ("Import '" ++ name ++ "' is blocked by policy"))

/-- Import through `importer` what the policy permits. -/
def guardedImport {ω : Type} {m : Type → Type} {α : Type} (p : Policy) (refuse : Fault → m α)
    (importer : ImportCall ω → m α) (c : ImportCall ω) : m α :=
  match p.importFault? c.name c.level with
  | some f => refuse f
  | none => importer c

end Policy

/-- How the import function of a snippet treats its calls. -/
inductive ImportGuard where
  /-- hands every call on -/
  | plain
  /-- asks the policy first -/
  | checked (policy : Policy)
  deriving DecidableEq, Repr

namespace ImportGuard

/-- Import as the guard says. -/
def run {ω : Type} {m : Type → Type} {α : Type} (g : ImportGuard) (refuse : Fault → m α)
    (importer : ImportCall ω → m α) (c : ImportCall ω) : m α :=
  match g with
  | plain => importer c
  | checked p => p.guardedImport refuse importer c

end ImportGuard

end Evalbox

/-!
## Gates

A gate guards a thread while a scope of it is open. Scopes are left innermost first, and the policy
of the innermost scope of an enabled gate is the active one. A disabled gate guards nothing.

`Guards` keeps the policies of all threads; what one thread does leaves the others as they are.
-/

namespace Evalbox

/-- A switch for a policy. -/
structure Gate (π : Type) where
  enabled : Bool
  policy : π
  deriving DecidableEq, Repr

namespace Gate

variable {π : Type}

/-- Open a scope over the policies of a thread, innermost first. -/
def enter (g : Gate π) (policies : List π) : List π :=
  if g.enabled then g.policy :: policies else policies

/-- Leave a scope that was opened last. -/
def leave (g : Gate π) (policies : List π) : List π :=
  if g.enabled then policies.tail else policies

end Gate

/-- The policies that guard each thread, innermost first. -/
structure Guards (τ π : Type) where
  policies : List (τ × List π)

namespace Guards

variable {τ π : Type} [BEq τ]

def none : Guards τ π := ⟨[]⟩

/-- The policies that guard a thread. -/
def of (g : Guards τ π) (t : τ) : List π := (g.policies.lookup t).getD []

/-- The policy that is active on a thread. -/
def active (g : Guards τ π) (t : τ) : Option π := (g.of t).head?

def set (g : Guards τ π) (t : τ) (ps : List π) : Guards τ π :=
  ⟨(t, ps) :: g.policies.filter (!·.1 == t)⟩

def enter (g : Guards τ π) (t : τ) (gate : Gate π) : Guards τ π := g.set t (gate.enter (g.of t))

def leave (g : Guards τ π) (t : τ) (gate : Gate π) : Guards τ π := g.set t (gate.leave (g.of t))

/-- Leave a scope behind a body that ended in some way. What the body returned or raised passes through. -/
def exit {ε α : Type} (g : Guards τ π) (t : τ) (gate : Gate π) (ending : Except ε α) :
    Except ε α × Guards τ π := (ending, g.leave t gate)

/-- Run a body on a thread inside a scope of a gate. -/
def run {ε α : Type} (g : Guards τ π) (t : τ) (gate : Gate π)
    (body : Guards τ π → Except ε α × Guards τ π) : Except ε α × Guards τ π :=
  let (ending, g) := body (g.enter t gate)
  g.exit t gate ending

end Guards

/-- Bind a name to a value: in place if it is bound, at the end otherwise. -/
def bindName {β : Type} (name : String) (value : β) : List (String × β) → List (String × β)
  | [] => [(name, value)]
  | (n, v) :: rest => if n = name then (n, value) :: rest else (n, v) :: bindName name value rest

/-- The namespace of builtins for a unit under a policy, or under none. `importer` makes the import
function, which is always present, whatever the policy says about its name. -/
def unitBuiltins {β : Type} (policy : Option Policy) (host : List (String × β))
    (importer : ImportGuard → β) : List (String × β) :=
  match policy with
  | .none => bindName "__import__" (importer .plain) host
  | some p =>
    bindName "__import__" (importer (.checked p)) (host.filter fun (name, _) => p.permitsBuiltin name)

namespace Gate

/-- The namespace of builtins for units run behind a gate. -/
def unitBuiltins {β : Type} (g : Gate Policy) (host : List (String × β)) (importer : ImportGuard → β) :
    List (String × β) :=
  Evalbox.unitBuiltins (if g.enabled then some g.policy else .none) host importer

end Gate

end Evalbox
