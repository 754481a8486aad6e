import Evalbox.Capture.Console
import Evalbox.Engine.Outcome
import Evalbox.Policy.Import

/-!
# The run stage

Compiled code runs on a thread while the standard output of the thread is captured and a gate guards it.
Both are undone when the code is left, whichever way it is left; only code that never comes back keeps
them.

How code runs is a parameter, so that statements about the stage hold for any code.
-/

namespace Evalbox

/-- What code runs in: the standard output, the policies of all threads, and the rest of the world. -/
structure Surroundings (τ π ω : Type) where
  console : Console τ
  guards : Guards τ π
  world : ω

/-- How running code ends. -/
inductive Ending (ν ε : Type) where
  | returned (value : ν)
  | failed (error : ε)
  /-- by being stopped from outside -/
  | stopped
  | endless
  deriving Repr

/-- A stage that runs code of type `κ`. -/
structure RunStage (τ π ω κ ν ε : Type) where
  gate : Gate π
  run : τ → SnippetUnit → κ → Surroundings τ π ω → Ending ν ε × Surroundings τ π ω
  /-- an error of the stage itself -/
  ofFault : Fault → ε
  /-- why a value is not of the type that is asked for -/
  mismatch : ν → String → Option Fault

namespace RunStage

variable {τ π ω κ ν ε : Type} [BEq τ]

/-- Load, make and call a unit on a thread. `code` is the fault if there is no code for it. Answers its
value with what it wrote. -/
def execute (stage : RunStage τ π ω κ ν ε) (t : τ) (u : SnippetUnit) (code : Except Fault κ)
    (resultType : Option String) (s : Surroundings τ π ω) :
    Ending (ν × List Char) ε × Surroundings τ π ω :=
  let (capture, console) := s.console.openCapture t
  let inside := { s with console, guards := s.guards.enter t stage.gate }
  let (ending, after) := match code with
    | .ok code => stage.run t u code inside
    | .error f => (.failed (stage.ofFault f), inside)
  let outside : Surroundings τ π ω :=
    { after with
      guards := after.guards.leave t stage.gate
      console := after.console.closeCapture t capture }
  match ending with
  | .returned v =>
    match resultType.bind (stage.mismatch v) with
    | some f => (.failed (stage.ofFault f), outside)
    | none => (.returned (v, after.console.captured capture.buffer), outside)
  | .failed e => (.failed e, outside)
  | .stopped => (.stopped, outside)
  | .endless => (.endless, after)

end RunStage

/-- Why a value is not of a type. -/
def Produced.mismatch (v : Produced) (type : String) : Option Fault :=
  if v.classes.contains type then none
  else some (.resultType ("Snippet produced " ++ v.typeName ++ ", expected " ++ type))

end Evalbox
