import Evalbox.Compile.Artifact
import Evalbox.Engine.Evaluator
import Evalbox.World.Display

/-!
# An evaluator for the snippet language

The toolchain that compiles sources of the snippet language, the one that hands out prepared artifacts, and
the evaluators that are made of them with a configuration.
-/

namespace Evalbox

/-- How many steps a unit may take. -/
def stepLimit : Nat := 1000000

namespace World

/-- Put the builtins of a unit on the heap. -/
def withBuiltins (w : World) (gate : Gate Policy) : Ref × World :=
  let guarded : ImportGuard := if gate.enabled then .checked gate.policy else .plain
  let importer := w.world.heap.objs.size
  let names := gate.unitBuiltins (M.hostBuiltins .none) fun _ => .ref importer
  let objs := (w.world.heap.objs.push (.importer guarded)).push (.names names)
  (importer + 1, w.modify fun o => { o with heap := { o.heap with objs } })

/-- Load, make and call a unit. What a screen would show of its value is found aside: nobody has asked for it yet, and
what is written on the way belongs to no run. -/
def runUnit (gate : Gate Policy) (micros : Nat) (t : ThreadId) (u : SnippetUnit) (p : Program) (w : World) :
    Ending Produced Thrown × World :=
  let (builtins, w) := w.withBuiltins gate
  let task : Task := .unit u.name p.filename p.body builtins p.lazyHints p.optimize
  match w.runTask t task ⟨stepLimit, w.world.clock + micros⟩ with
  | (.returned v, w) => (.returned (w.produced v).1, w)
  | (.failed r, w) =>
    let (x, w) := w.thrown r
    (.failed x, w)
  | (.stopped, w) => (.stopped, w)
  | (.endless, w) => (.endless, w)

end World

/-- The stage that runs programs of the snippet language under a deadline. -/
def snippetStage (gate : Gate Policy) (micros : Nat) : RunStage ThreadId Policy Outside Program Produced Thrown where
  gate
  run := World.runUnit gate micros
  ofFault := .ofFault
  mismatch := Produced.mismatch

namespace Outside

/-- Look for top-level modules along a classpath. `blind` says that directories cannot be read. -/
def lookFor (o : Outside) (blind : Bool) (roots : List String) (classpath : String) : Outside :=
  if roots.all Host.offers then o
  else { o with memory := o.memory.lookAll o.files blind (classpathEntries classpath) }

/-- Whether a top-level module can be imported, as far as is known. -/
def resolves (o : Outside) (classpath root : String) : Bool :=
  Host.offers root || (o.files.findModule o.memory.listing root (classpathEntries classpath)).isSome

end Outside

/-- Compile a source, or say why a policy forbids it. -/
def compileSnippet (r : CompileRequest) (policies : List Policy) (o : Outside) :
    Compilation Fault Program × Outside :=
  match Policy.auditFault policies.head? ⟨"compile", [.text (String.ofList r.source), .text r.filename]⟩ with
  | some f => (⟨[], .raised f⟩, o)
  | none =>
    let roots := match Lang.parse r.source false with
      | (.ok body, _) => (Lang.importedRoots body).map (·.root)
      | (.error _, _) => []
    let blind := (Policy.auditFault policies.head? ⟨"os.listdir", [.text ""]⟩).isSome
    let o := if r.options.checkImports then o.lookFor blind roots r.classpath else o
    let findings := Findings.ofSource (o.resolves r.classpath) r.source r.filename r.options.optimize
      r.options.futureFlags
    let messages := findings.messages r.options
    let result : CompileEnd Fault Program :=
      if messages.any (·.severity = .error) then .refused
      else match findings.program with
        | some p => .produced p
        | none => .refused
    (⟨messages, result⟩, o)

/-- The toolchain for sources of the snippet language. -/
def snippetToolchain : Toolchain (Unit × Outside) Policy Fault Program where
  run r policies s :=
    let (c, o) := compileSnippet r policies s.2
    (c, (s.1, o))

/-- What a prepared compilation does. -/
structure Plan where
  messages : List Message
  raised : Option Fault
  artifact : Option Artifact
  deriving Inhabited

/-- A call of a prepared toolchain, and whether a policy was active. -/
structure SeenCall where
  request : CompileRequest
  guarded : Bool
  deriving Inhabited

/-- Prepared compilations that are still to come, and the calls so far. -/
structure Plans where
  next : List Plan
  seen : List SeenCall
  deriving Inhabited

namespace Plans

/-- The name that a filename of a unit holds. -/
def unitOf (filename : String) : String :=
  String.ofList (((filename.toList.drop "<snippet-eval:".length)).dropLast)

/-- Do what the next plan says. -/
def compile (r : CompileRequest) (guarded : Bool) (p : Plans) : Compilation Fault Program × Plans :=
  let plan := p.next.headD default
  let result : CompileEnd Fault Program := match plan.raised, plan.artifact with
    | some f, _ => .raised f
    | none, some a => .produced (a.program (unitOf r.filename) r.filename)
    | none, none => .refused
  (⟨plan.messages, result⟩, ⟨p.next.tail, p.seen ++ [⟨r, guarded⟩]⟩)

end Plans

/-- The toolchain that follows prepared plans. -/
def plannedToolchain {ω : Type} : Toolchain (Plans × ω) Policy Fault Program where
  run r policies s :=
    let (c, p) := s.1.compile r (!policies.isEmpty)
    (c, (p, s.2))

/-- The world at the start, for a classpath. -/
def World.initial (files : FileTree) (classpath : List String) (kind : HostKind) : World :=
  ⟨.initial kind, .none, ⟨files, .empty, .initial classpath, 0, [.main], 0, none⟩⟩

/-- A deadline in microseconds. A time that is no number expires at once. -/
def Datum.micros (d : Datum) : Nat :=
  match d.toFloat with
  | .ok x => (x * 1000000).toUInt64.toNat
  | .error _ => 0

/-- An evaluator for a configuration. -/
def Evaluator.ofConfig {σ : Type} (toolchain : Toolchain (σ × Outside) Policy Fault Program) (tools : σ)
    (files : FileTree) (c : EngineConfig) : Evaluator σ ThreadId Policy Outside Program :=
  let gate : Gate Policy := ⟨c.securityEnabled.truth, c.policy⟩
  let options := c.options.toOption.getD default
  { pipeline := ⟨⟨toolchain, gate, c.classpathText, options⟩, snippetStage gate c.timeout.micros⟩
    limit := c.maxUnits
    state := ⟨.empty, {}, .empty, tools, World.initial files c.classpath .buffer⟩
    worker := .worker
    nextUnit := 1 }

end Evalbox
