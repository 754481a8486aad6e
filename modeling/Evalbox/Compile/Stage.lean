import Evalbox.Compile.Target
import Evalbox.Diagnostics.Basic
import Evalbox.Flags
import Evalbox.Policy.Import

/-!
# The compile stage

A toolchain is asked to compile a unit; it reports messages and then raises, refuses, or produces
code, if it comes back at all. The stage starts every compilation from an empty target and collector, and stores what was
produced.

Toolchains may keep a state of type `σ`. The policies that are active on the thread are handed over so
that a toolchain can be bound by them.
-/

namespace Evalbox

/-- What a toolchain is asked to compile. -/
structure CompileRequest where
  source : List Char
  filename : String
  classpath : String
  options : CompilerOptions
  deriving DecidableEq, Repr, Inhabited

/-- How a compilation ends. -/
inductive CompileEnd (ε κ : Type) where
  | raised (fault : ε)
  | refused
  | produced (code : κ)
  deriving Repr

/-- What a toolchain does when it is asked: it reports messages and ends. -/
structure Compilation (ε κ : Type) where
  messages : List Message
  result : CompileEnd ε κ
  deriving Repr

/-- A compiler. -/
structure Toolchain (σ π ε κ : Type) where
  run : CompileRequest → List π → σ → Compilation ε κ × σ
  /-- whether it reports its messages and never comes back -/
  hangs : CompileRequest → List π → σ → Bool := fun _ _ _ => false

/-- What the stage works on: the target, the collector, the lines of all sources, the policies of the
thread, and the state of the toolchain. -/
structure CompileState (σ π κ : Type) where
  target : CompileTarget κ
  collector : Collector
  cache : LineCache
  policies : List π
  tools : σ

/-- The fixed settings of a stage. -/
structure CompileStage (σ π ε κ : Type) where
  toolchain : Toolchain σ π ε κ
  gate : Gate π
  classpath : String
  options : CompilerOptions

namespace CompileState

variable {σ π κ : Type}

/-- Empty the collector and the target. -/
def reset (s : CompileState σ π κ) : CompileState σ π κ :=
  let (target, cache) := s.target.clearWith s.cache
  { s with target, cache, collector := s.collector.reset }

end CompileState

namespace CompileStage

variable {σ π ε κ : Type}

def request (stage : CompileStage σ π ε κ) (u : SnippetUnit) : CompileRequest :=
  ⟨u.source, u.filename, stage.classpath, stage.options⟩

/-- Whether the toolchain never comes back when it is asked to compile a unit. -/
def hangs (stage : CompileStage σ π ε κ) (u : SnippetUnit) (s : CompileState σ π κ) : Bool :=
  stage.toolchain.hangs (stage.request u) (stage.gate.enter s.policies) s.tools

/-- Ask the toolchain to compile a unit, behind the gate. -/
def ask (stage : CompileStage σ π ε κ) (u : SnippetUnit) (s : CompileState σ π κ) :
    CompileEnd ε κ × CompileState σ π κ :=
  let s := s.reset
  let policies := stage.gate.enter s.policies
  let (c, tools) := stage.toolchain.run (stage.request u) policies s.tools
  (c.result, { s with tools, policies, collector := c.messages.foldl Collector.report s.collector })

/-- Compile a unit. Answers its diagnostics, or what the toolchain raised. -/
def compile (stage : CompileStage σ π ε κ) (u : SnippetUnit) (s : CompileState σ π κ) :
    Except ε Report × CompileState σ π κ :=
  let (result, s) := stage.ask u s
  let s := { s with policies := stage.gate.leave s.policies }
  let finish (target : CompileTarget κ) (cache : LineCache) : Except ε Report × CompileState σ π κ :=
    (.ok (Report.ofMessages s.collector.messages u.source), { s with target, cache })
  let counted := { s.target with compiled := s.target.compiled + 1 }
  match result with
  | .raised e => (.error e, s)
  | .refused => finish counted s.cache
  | .produced code =>
    let (target, cache) := counted.storeWith s.cache u code
    finish target cache

end CompileStage

end Evalbox
