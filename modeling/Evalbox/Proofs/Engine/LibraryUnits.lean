import Evalbox.Proofs.Engine.Isolation
import Evalbox.Proofs.Modules.UnitImports

/-!
# Units that import from a library

An engine whose units do what bodies of modules do, on a classpath that is a library. Its calls share the importer:
the lock, and the shelf with the modules. Each worker comes as far as its `Stamina` lets it; therefore it can stop
anywhere in its unit, and the toolchain may hang before that.
-/

namespace Evalbox

/-- How many steps a worker makes before it stops, and how deep its imports may nest. -/
structure Stamina where
  steps : Nat
  depth : Nat

/-- What a unit sees of a failed import. -/
def ImportFailure.asFault : ImportFailure → Fault
  | refused (.missing name) => .missingModule (ImportRefusal.missing name).text
  | refused (.lostRoot root) => .ofText "KeyError" root
  | refused r => .missingImport r.text
  | fault f => f

/-- The world with the shelf of the importer. -/
abbrev Shared := Outside × Shelf

abbrev SharedSurroundings := Surroundings ThreadId Policy Shared

/-- Let a toolchain work beside an importer, which it does not know. -/
def Toolchain.aside {σ π ε κ : Type} (tc : Toolchain (σ × Outside) π ε κ) : Toolchain (σ × Shared) π ε κ where
  run r policies s :=
    let (c, tools, o) := tc.run r policies (s.1, s.2.1)
    (c, tools, { o with lock := s.2.1.lock }, s.2.2)
  hangs r policies s := tc.hangs r policies (s.1, s.2.1)

/-- The desk at which a worker begins with its unit. -/
def Stamina.desk (w : Stamina) (t : ThreadId) (s : SharedSurroundings) : Desk where
  world := ⟨s.console, s.guards, { s.world.1 with threads := t :: s.world.1.threads }⟩
  shelf := s.world.2
  steps := w.steps

namespace Library

variable (lib : Library) (worker : ThreadId → Stamina)

/-- Run a unit on a thread. -/
def runUnit (t : ThreadId) (_ : SnippetUnit) (body : ModuleBody) (s : SharedSurroundings) :
    Ending Produced Thrown × SharedSurroundings :=
  let (reach, d) := performing (lib.importAt (worker t).depth) body ((worker t).desk t s)
  let after : SharedSurroundings :=
    ⟨d.world.console, d.world.guards, { d.world.world with threads := s.world.1.threads }, d.shelf⟩
  match reach with
  | .ended (.ok ()) => (.returned default, after)
  | .ended (.error e) => (.failed (.ofFault e.asFault), after)
  | .stuck | .waits => (.endless, after)

/-- An evaluator for a configuration, with a library for its classpath. -/
def engine {σ : Type} (toolchain : Toolchain (σ × Outside) Policy Fault ModuleBody) (tools : σ) (files : FileTree)
    (c : EngineConfig) : Evaluator σ ThreadId Policy Shared ModuleBody :=
  let w := World.initial files c.classpath .buffer
  { pipeline := .ofRun toolchain.aside ⟨c.securityEnabled.truth, c.policy⟩ c.classpathText
      (c.options.toOption.getD default) (lib.runUnit worker)
    limit := c.maxUnits
    worker := .worker
    state := ⟨.empty, {}, .empty, tools, w.console, w.guards, w.world, .empty⟩
    nextUnit := 1 }

variable {lib worker} {t : ThreadId} {u : SnippetUnit} {body : ModuleBody} {s : SharedSurroundings}

/-- A unit never comes to its end exactly if its worker stops or waits. -/
theorem runUnit_endless : (lib.runUnit worker t u body s).1 = .endless ↔
    ∀ res d, performing (lib.importAt (worker t).depth) body ((worker t).desk t s) ≠ (.ended res, d) := by
  unfold runUnit
  rcases hx : performing (lib.importAt (worker t).depth) body ((worker t).desk t s) with ⟨reach, d⟩
  cases reach with
  | ended res => cases res <;> simp
  | stuck => simp
  | waits => simp

/-- What a unit leaves of the importer. -/
theorem runUnit_world : (lib.runUnit worker t u body s).2.world.1.lock =
      (performing (lib.importAt (worker t).depth) body ((worker t).desk t s)).2.world.world.lock ∧
    (lib.runUnit worker t u body s).2.world.2 =
      (performing (lib.importAt (worker t).depth) body ((worker t).desk t s)).2.shelf := by
  unfold runUnit
  rcases performing (lib.importAt (worker t).depth) body ((worker t).desk t s) with ⟨reach, d⟩
  cases reach with
  | ended res => cases res <;> exact ⟨rfl, rfl⟩
  | stuck => exact ⟨rfl, rfl⟩
  | waits => exact ⟨rfl, rfl⟩

/-- A unit that finds the lock free leaves it free, with modules that were loaded to their end; or its worker stops
inside an import, and has the lock. -/
theorem runUnit_free (hl : s.world.1.lock = none) :
    ((lib.runUnit worker t u body s).2.world.1.lock = none ∧
      lib.Stretch s.world.2 (lib.runUnit worker t u body s).2.world.2) ∨
    (lib.runUnit worker t u body s).1 = .endless ∧
      (∃ depth, (lib.runUnit worker t u body s).2.world.1.lock = some (t, depth + 1)) ∧
      ∃ r d d', Arrives lib (worker t).depth body ((worker t).desk t s) r d ∧
        lib.importAt (worker t).depth r d = (.stuck, d') := by
  rw [runUnit_endless, runUnit_world.1, runUnit_world.2]
  rcases (performing_halts body ((worker t).desk t s)).free hl with
    ⟨hw, hst⟩ | ⟨hx, ⟨depth, hh⟩, ht, r, d, ha, hi⟩
  · refine .inl ⟨?_, hst⟩
    rw [hw]
    exact hl
  · refine .inr ⟨fun res d' he => ?_, ⟨depth, ?_⟩, r, d, _, ha, hi⟩
    · rw [he] at hx
      cases hx
    · rw [hh, ht]
      rfl

/-- A unit that finds the lock with another thread leaves it there. -/
theorem runUnit_held {owner : ThreadId} {depth : Nat} (hl : s.world.1.lock = some (owner, depth)) (ho : owner ≠ t) :
    (lib.runUnit worker t u body s).2.world.1.lock = some (owner, depth) := by
  rw [runUnit_world.1, (performing_halts body ((worker t).desk t s)).held hl ho]
  exact hl

end Library

namespace Pipeline

variable {σ τ π ω κ : Type} [BEq τ] {p : Pipeline σ τ π ω κ} {t : τ} {u : SnippetUnit} {s : PipelineState σ τ π ω κ}

/-- A unit comes to the running of its code. -/
def Runs (p : Pipeline σ τ π ω κ) (t : τ) (u : SnippetUnit) (s : PipelineState σ τ π ω κ) (code : κ) : Prop :=
  p.called t u s = some (.produced code) ∧ (p.report t u s).mentions .error = false

theorem compiled_world : (p.compiled t u s).around.world = (p.compile.call u (s.toCompile t)).2.2 :=
  congrArg Prod.snd (p.compile.compile_tools u (s.toCompile t))

/-- Work that comes to the running of code leaves the world as this code does. -/
theorem Runs.work_world {code : κ} (h : p.Runs t u s code) (id : String) (resultType : Option String) :
    (p.work id t u resultType s).2.around.world =
        (p.run.run t u code (p.run.inside t (p.compiled t u s).around)).2.world ∧
      ((p.run.run t u code (p.run.inside t (p.compiled t u s).around)).1 = .endless →
        (p.work id t u resultType s).1 = .endless) := by
  rw [work_produced id resultType h.1 h.2]
  constructor
  · rcases @RunStage.execute_around _ _ _ _ _ _ _ p.run t u (p.compiled t u s).around code resultType with he | he
    · simp only [he]
    · simp only [he, RunStage.outside]
  · intro he
    simp only [RunStage.execute_endless he, WorkEnd.ofEnding]

/-- Other work leaves the world as the toolchain does. -/
theorem work_world (id : String) (resultType : Option String) (hn : ∀ code, ¬ p.Runs t u s code) :
    (p.work id t u resultType s).2.around.world = (p.compile.call u (s.toCompile t)).2.2 := by
  rcases p.called_cases t u s with h | ⟨f, h⟩ | h
  · rw [work_hung id resultType h]
    rfl
  · rw [work_raised id resultType h, compiled_world]
  · cases he : (p.report t u s).mentions .error with
    | true => rw [work_errors id resultType h he, compiled_world]
    | false =>
      rcases h with h | ⟨code, h⟩
      · rw [work_refused id resultType h he]
        exact compiled_world
      · exact absurd ⟨h, he⟩ (hn code)

end Pipeline

end Evalbox
