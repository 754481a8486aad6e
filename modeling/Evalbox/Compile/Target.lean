import Evalbox.Failure
import Evalbox.Text.Lines
import Evalbox.Text.Quoted
import Evalbox.Unit.Wrap

/-!
# Compile targets

A target keeps the compiled units of an engine by name, in the order in which the names came. The
source lines of stored units are known process-wide under their filenames, so that tracebacks can show
them; clearing a target drops those lines again.
-/

namespace Evalbox

/-- Source lines that are known for a filename. -/
structure CachedSource where
  size : Nat
  lines : List (List Char)
  deriving DecidableEq, Repr, Inhabited

/-- Sources by filename. -/
structure LineCache where
  entries : List (String × CachedSource)
  deriving DecidableEq, Repr, Inhabited

namespace LineCache

def empty : LineCache := ⟨[]⟩

/-- Set the source of a file. -/
def put (c : LineCache) (file : String) (s : CachedSource) : LineCache :=
  ⟨(file, s) :: c.entries.filter (·.1 ≠ file)⟩

/-- Drop the source of a file. -/
def erase (c : LineCache) (file : String) : LineCache := ⟨c.entries.filter (·.1 ≠ file)⟩

def find? (c : LineCache) (file : String) : Option CachedSource := c.entries.lookup file

/-- A line of a file, counted from 1; empty if there is none. -/
def line (c : LineCache) (file : String) (n : Int) : List Char :=
  match c.find? file with
  | some s => if n ≥ 1 then (s.lines[n.toNat - 1]?).getD [] else []
  | none => []

end LineCache

/-- What is cached for a unit. -/
def SnippetUnit.cached (u : SnippetUnit) : CachedSource := ⟨u.source.length, Text.displayLines u.source⟩

/-- Compiled units by name, how often the target was compiled into, and whether a worker that was
given up may still be using it. -/
structure CompileTarget (κ : Type) where
  artifacts : List (String × SnippetUnit × κ)
  compiled : Nat
  tainted : Bool
  deriving Repr

namespace CompileTarget

variable {κ : Type}

def empty : CompileTarget κ := ⟨[], 0, false⟩

instance : Inhabited (CompileTarget κ) := ⟨empty⟩

/-- Store a unit: in place of one with its name, or at the end. -/
def store (t : CompileTarget κ) (u : SnippetUnit) (code : κ) : CompileTarget κ :=
  { t with artifacts :=
      if t.artifacts.any (·.1 = u.name) then
        t.artifacts.map fun a => if a.1 = u.name then (u.name, u, code) else a
      else t.artifacts ++ [(u.name, u, code)] }

/-- The names of the stored units. -/
def names (t : CompileTarget κ) : List String := t.artifacts.map (·.1)

/-- The code of a stored unit. -/
def codeFor (t : CompileTarget κ) (id name : String) : Except Fault κ :=
  match t.artifacts.lookup name with
  | some (_, code) => .ok code
  | none => .error (.lookup ("No compiled unit named " ++ Text.quote name ++ " in target " ++ id))

/-- Drop every unit. -/
def clear (t : CompileTarget κ) : CompileTarget κ := { t with artifacts := [] }

/-- Whether an engine should take a new target. -/
def shouldRotate (t : CompileTarget κ) (limit : Int) : Bool := t.tainted || t.compiled ≥ limit

/-- Store a unit together with its lines. -/
def storeWith (t : CompileTarget κ) (c : LineCache) (u : SnippetUnit) (code : κ) :
    CompileTarget κ × LineCache :=
  (t.store u code, c.put u.filename u.cached)

/-- Drop every unit together with its lines. -/
def clearWith (t : CompileTarget κ) (c : LineCache) : CompileTarget κ × LineCache :=
  (t.clear, t.artifacts.foldl (fun c a => c.erase a.2.1.filename) c)

end CompileTarget

end Evalbox
