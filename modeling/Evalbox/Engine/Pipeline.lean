import Evalbox.Compile.Stage
import Evalbox.Engine.RunStage

/-!
# The pipeline

A unit is compiled, and run if nothing was reported as an error. `pipeline` says how the two stages make
an outcome.
-/

namespace Evalbox

/-- How the work on a unit ends. -/
inductive WorkEnd where
  | outcome (o : Outcome)
  | raised (fault : Fault)
  | stopped
  | endless
  deriving Inhabited

/-- The two stages of an engine. A toolchain has a state of its own, and it may look at the world. -/
structure Pipeline (σ τ π ω κ : Type) where
  compile : CompileStage (σ × ω) π Fault κ
  run : RunStage τ π ω κ Produced Thrown

/-- What the stages work on: the target, the collector, the lines of all sources, the state of the toolchain,
and the surroundings of running code. -/
structure PipelineState (σ τ π ω κ : Type) where
  target : CompileTarget κ
  collector : Collector
  cache : LineCache
  tools : σ
  around : Surroundings τ π ω

namespace PipelineState

variable {σ τ π ω κ : Type} [BEq τ]

/-- What the compile stage works on when it is asked on a thread. -/
def toCompile (s : PipelineState σ τ π ω κ) (t : τ) : CompileState (σ × ω) π κ :=
  ⟨s.target, s.collector, s.cache, s.around.guards.of t, (s.tools, s.around.world)⟩

/-- Take over what the compile stage left. -/
def ofCompile (s : PipelineState σ τ π ω κ) (c : CompileState (σ × ω) π κ) : PipelineState σ τ π ω κ :=
  ⟨c.target, c.collector, c.cache, c.tools.1, { s.around with world := c.tools.2 }⟩

end PipelineState

namespace Pipeline

variable {σ τ π ω κ : Type} [BEq τ]

/-- What is left when the toolchain never comes back: the gate is still entered. -/
def hung (p : Pipeline σ τ π ω κ) (t : τ) (u : SnippetUnit) (s : PipelineState σ τ π ω κ) :
    PipelineState σ τ π ω κ :=
  let c := (p.compile.ask u (s.toCompile t)).2
  let s := s.ofCompile c
  { s with around := { s.around with guards := s.around.guards.set t c.policies } }

/-- Compile and run a unit on a thread. `id` names the target in errors. -/
def work (p : Pipeline σ τ π ω κ) (id : String) (t : τ) (u : SnippetUnit) (resultType : Option String)
    (s : PipelineState σ τ π ω κ) : WorkEnd × PipelineState σ τ π ω κ :=
  if p.compile.hangs u (s.toCompile t) then (.endless, p.hung t u s) else
  let (compiled, c) := p.compile.compile u (s.toCompile t)
  let s := s.ofCompile c
  match compiled with
  | .error f => (.raised f, s)
  | .ok diagnostics =>
    if diagnostics.mentions .error then (.outcome (.compileFailure diagnostics), s)
    else
      let (ending, around) := p.run.execute t u (s.target.codeFor id u.name) resultType s.around
      let s := { s with around }
      match ending with
      | .returned (v, output) => (.outcome (.success diagnostics v (String.ofList output)), s)
      | .failed e => (.outcome (.runtimeFailure diagnostics (some (.ofThrown e u))), s)
      | .stopped => (.stopped, s)
      | .endless => (.endless, s)

end Pipeline

end Evalbox
