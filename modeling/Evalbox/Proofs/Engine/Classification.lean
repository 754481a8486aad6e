import Evalbox.Engine.Snippets
import Evalbox.Proofs.Compile.Runs

/-!
# What the work on a unit comes to

The outcome of a unit is decided by what the toolchain does, by whether an error was reported, and by how
the code ends: at its load, in its constructor, in its call, or at the check of its value. How the
toolchain behaves and how code runs are arbitrary here.
-/

namespace Evalbox

namespace RunStage

variable {τ π ω κ ν ε : Type} [BEq τ]

/-- What code runs in: the output of the thread is captured, and the gate guards it. -/
def inside (stage : RunStage τ π ω κ ν ε) (t : τ) (s : Surroundings τ π ω) : Surroundings τ π ω :=
  { s with console := (s.console.openCapture t).2, guards := s.guards.enter t stage.gate }

/-- A missing artifact fails as an error of the stage, and nothing is run for it. -/
theorem execute_missing (stage : RunStage τ π ω κ ν ε) (t : τ) (u : SnippetUnit) (f : Fault)
    (resultType : Option String) (s : Surroundings τ π ω) :
    (stage.execute t u (.error f) resultType s).1 = .failed (stage.ofFault f) := rfl

variable {stage : RunStage τ π ω κ ν ε} {t : τ} {u : SnippetUnit} {code : κ} {resultType : Option String}
  {s : Surroundings τ π ω}

/-- How code ends on a thread. -/
def ending (stage : RunStage τ π ω κ ν ε) (t : τ) (u : SnippetUnit) (code : κ) (s : Surroundings τ π ω) :
    Ending ν ε := (stage.run t u code (stage.inside t s)).1

/-- What was written to the capture when the code had ended. -/
def written (stage : RunStage τ π ω κ ν ε) (t : τ) (u : SnippetUnit) (code : κ) (s : Surroundings τ π ω) :
    List Char :=
  (stage.run t u code (stage.inside t s)).2.console.captured (s.console.openCapture t).1.buffer

theorem execute_returned {v : ν} (h : stage.ending t u code s = .returned v) :
    (stage.execute t u (.ok code) resultType s).1 =
      match resultType.bind (stage.mismatch v) with
      | some f => .failed (stage.ofFault f)
      | none => .returned (v, stage.written t u code s) := by
  simp only [ending, inside] at h
  simp only [execute, h, written, inside]
  cases resultType.bind (stage.mismatch v) <;> rfl

theorem execute_failed {e : ε} (h : stage.ending t u code s = .failed e) :
    (stage.execute t u (.ok code) resultType s).1 = .failed e := by
  simp only [ending, inside] at h
  simp only [execute, h]

theorem execute_stopped (h : stage.ending t u code s = .stopped) :
    (stage.execute t u (.ok code) resultType s).1 = .stopped := by
  simp only [ending, inside] at h
  simp only [execute, h]

theorem execute_endless (h : stage.ending t u code s = .endless) :
    (stage.execute t u (.ok code) resultType s).1 = .endless := by
  simp only [ending, inside] at h
  simp only [execute, h]

end RunStage

/-- What the work on a unit comes to when its code was run. -/
def WorkEnd.ofEnding (u : SnippetUnit) (diagnostics : Report) : Ending (Produced × List Char) Thrown → WorkEnd
  | .returned (v, output) => .outcome (.success diagnostics v (String.ofList output))
  | .failed e => .outcome (.runtimeFailure diagnostics (some (.ofThrown e u)))
  | .stopped => .stopped
  | .endless => .endless

namespace Pipeline

/-- The pipeline that runs code as `run` says, and names its own faults as snippets do. -/
def ofRun {σ τ π ω κ : Type} (toolchain : Toolchain (σ × ω) π Fault κ) (gate : Gate π) (classpath : String)
    (options : CompilerOptions)
    (run : τ → SnippetUnit → κ → Surroundings τ π ω → Ending Produced Thrown × Surroundings τ π ω) :
    Pipeline σ τ π ω κ :=
  ⟨⟨toolchain, gate, classpath, options⟩, ⟨gate, run, .ofFault, Produced.mismatch⟩⟩

/-- The evaluators of a configuration use such a pipeline. -/
example {σ : Type} (toolchain : Toolchain (σ × Outside) Policy Fault Program) (tools : σ) (files : FileTree)
    (c : EngineConfig) :
    (Evaluator.ofConfig toolchain tools files c).pipeline =
      .ofRun toolchain ⟨c.securityEnabled.truth, c.policy⟩ c.classpathText (c.options.toOption.getD default)
        (World.runUnit ⟨c.securityEnabled.truth, c.policy⟩ c.timeout.micros) := rfl

variable {σ τ π ω κ : Type} [BEq τ] (p : Pipeline σ τ π ω κ) (t : τ) (u : SnippetUnit)
  (s : PipelineState σ τ π ω κ)

/-- What the toolchain does for a unit. -/
def compilation : Compilation Fault κ := (p.compile.call u (s.toCompile t)).1

/-- How the toolchain ends for a unit; none if it never comes back. -/
def called : Option (CompileEnd Fault κ) :=
  if p.compile.hangs u (s.toCompile t) then none else some (p.compilation t u s).result

/-- The toolchain comes back, and does not raise. -/
def Reports : Prop := p.called t u s = some .refused ∨ ∃ code, p.called t u s = some (.produced code)

/-- The diagnostics of a unit. -/
def report : Report := .ofMessages (p.compilation t u s).messages u.source

/-- The state behind the compilation. -/
def compiled : PipelineState σ τ π ω κ := s.ofCompile (p.compile.compile u (s.toCompile t)).2

/-- How the code of a unit ends when it is loaded, made and called. -/
def behaviour (code : κ) : Ending Produced Thrown := p.run.ending t u code (p.compiled t u s).around

variable {p t u s} (id : String) (resultType : Option String)

theorem called_eq_none : p.called t u s = none ↔ p.compile.hangs u (s.toCompile t) = true := by
  simp [called]

theorem called_eq_some {r : CompileEnd Fault κ} : p.called t u s = some r ↔
    p.compile.hangs u (s.toCompile t) = false ∧ (p.compilation t u s).result = r := by
  simp [called]

theorem work_hung (h : p.called t u s = none) : p.work id t u resultType s = (.endless, p.hung t u s) := by
  simp only [work, called_eq_none.mp h, if_true]

/-- What is made of the answer of a toolchain that comes back. -/
theorem work_back (h : p.compile.hangs u (s.toCompile t) = false) :
    p.work id t u resultType s =
      match (p.compile.compile u (s.toCompile t)).1 with
      | .error f => (.raised f, p.compiled t u s)
      | .ok diagnostics =>
        if diagnostics.mentions .error then (.outcome (.compileFailure diagnostics), p.compiled t u s)
        else
          let r := p.run.execute t u ((p.compiled t u s).target.codeFor id u.name) resultType
            (p.compiled t u s).around
          (.ofEnding u diagnostics r.1, { p.compiled t u s with around := r.2 }) := by
  simp only [work, h, Bool.false_eq_true, if_false, compiled]
  cases (p.compile.compile u (s.toCompile t)).1 with
  | error f => rfl
  | ok diagnostics =>
    by_cases he : diagnostics.mentions .error = true
    · simp only [he, if_true]
    · simp only [he]
      generalize p.run.execute t u _ resultType _ = r
      obtain ⟨ending, around⟩ := r
      cases ending <;> rfl

theorem work_raised {f : Fault} (h : p.called t u s = some (.raised f)) :
    p.work id t u resultType s = (.raised f, p.compiled t u s) := by
  obtain ⟨hb, hr⟩ := called_eq_some.mp h
  have hc : (p.compile.compile u (s.toCompile t)).1 = .error f := CompileStage.compile_raised hr
  rw [work_back id resultType hb, hc]

/-- A toolchain that reports has not raised. -/
theorem Reports.compile_eq (h : p.Reports t u s) : p.compile.hangs u (s.toCompile t) = false ∧
    (p.compile.compile u (s.toCompile t)).1 = .ok (p.report t u s) := by
  obtain ⟨r, hr, hn⟩ : ∃ r, p.called t u s = some r ∧ ∀ f, r ≠ .raised f := by
    rcases h with h | ⟨code, h⟩ <;> exact ⟨_, h, by simp⟩
  obtain ⟨hb, rfl⟩ := called_eq_some.mp hr
  exact ⟨hb, CompileStage.compile_ended hn⟩

theorem work_errors (h : p.Reports t u s) (he : (p.report t u s).mentions .error = true) :
    p.work id t u resultType s = (.outcome (.compileFailure (p.report t u s)), p.compiled t u s) := by
  obtain ⟨hb, hc⟩ := h.compile_eq
  rw [work_back id resultType hb, hc]
  simp only [he, if_true]

/-- A unit without errors is handed to the run stage, with the code that its compilation produced. -/
theorem work_clean (h : p.Reports t u s) (he : (p.report t u s).mentions .error = false) :
    p.work id t u resultType s =
      let r := p.run.execute t u ((p.compiled t u s).target.codeFor id u.name) resultType
        (p.compiled t u s).around
      (.ofEnding u (p.report t u s) r.1, { p.compiled t u s with around := r.2 }) := by
  obtain ⟨hb, hc⟩ := h.compile_eq
  rw [work_back id resultType hb, hc]
  simp only [he, Bool.false_eq_true, if_false]

/-- The work leaves the collector of its compilation, which has errors exactly if the report has. -/
theorem work_hasErrors :
    (p.work id t u resultType s).2.collector.hasErrors = (p.report t u s).mentions .error := by
  have hc : (p.work id t u resultType s).2.collector = (p.compiled t u s).collector := by
    cases hb : p.compile.hangs u (s.toCompile t) with
    | true =>
      rw [work_hung id resultType (called_eq_none.mpr hb)]
      simp only [hung, compiled, PipelineState.ofCompile, CompileStage.ask_collector]
    | false =>
      rw [work_back id resultType hb]
      split
      · rfl
      · split <;> rfl
  have hm : (p.compiled t u s).collector.messages = (p.compilation t u s).messages :=
    p.compile.compile_messages u (s.toCompile t)
  rw [hc, Collector.hasErrors_eq_mentions _ u.source, hm, report]

/-- What the work on a unit has to come to, from the toolchain's call and from how its code behaves. -/
structure Classified (p : Pipeline σ τ π ω κ) (id : String) (t : τ) (u : SnippetUnit)
    (resultType : Option String) (s : PipelineState σ τ π ω κ) : Prop where
  /-- If the toolchain never comes back, neither does the work. -/
  toolchain_hung : p.called t u s = none → (p.work id t u resultType s).1 = .endless
  /-- A fault of the toolchain is passed on as it is, whatever was reported before it. -/
  toolchain_raised : ∀ f, p.called t u s = some (.raised f) →
    (p.work id t u resultType s).1 = .raised f
  /-- A reported error is a failure to compile, even if there is code. -/
  error_reported : p.Reports t u s → (p.report t u s).mentions .error = true →
    (p.work id t u resultType s).1 = .outcome (.compileFailure (p.report t u s)) ∧
      (Outcome.compileFailure (p.report t u s)).errors ≠ []
  /-- Then no code runs: the result is the same for all ways in which code could run, and nothing of the
  surroundings has changed but for what the toolchain did to the world. -/
  nothing_run : p.Reports t u s → (p.report t u s).mentions .error = true →
    (∀ run, { p with run := { p.run with run } }.work id t u resultType s = p.work id t u resultType s) ∧
      (p.work id t u resultType s).2.around =
        { s.around with world := (p.compile.call u (s.toCompile t)).2.2 }
  /-- Without errors, an artifact that is missing is a failure at run time. -/
  artifact_missing : p.called t u s = some .refused → (p.report t u s).mentions .error = false →
    (p.work id t u resultType s).1 = .outcome (.runtimeFailure (p.report t u s) (some (.ofThrown
      (.ofFault (.lookup ("No compiled unit named " ++ Text.quote u.name ++ " in target " ++ id))) u)))
  /-- So is an exception of the code, at its load, in its constructor or in its call. -/
  code_failed : ∀ code e, p.called t u s = some (.produced code) →
    (p.report t u s).mentions .error = false → p.behaviour t u s code = .failed e →
    (p.work id t u resultType s).1 = .outcome (.runtimeFailure (p.report t u s) (some (.ofThrown e u)))
  /-- A cancellation is passed on. -/
  code_stopped : ∀ code, p.called t u s = some (.produced code) →
    (p.report t u s).mentions .error = false → p.behaviour t u s code = .stopped →
    (p.work id t u resultType s).1 = .stopped
  code_endless : ∀ code, p.called t u s = some (.produced code) →
    (p.report t u s).mentions .error = false → p.behaviour t u s code = .endless →
    (p.work id t u resultType s).1 = .endless
  /-- A value of a class that was not asked for is a failure at run time. -/
  value_mistyped : ∀ code v type, p.called t u s = some (.produced code) →
    (p.report t u s).mentions .error = false → p.behaviour t u s code = .returned v →
    resultType = some type → type ∉ v.classes →
    (p.work id t u resultType s).1 = .outcome (.runtimeFailure (p.report t u s) (some (.ofThrown
      (.ofFault (.resultType ("Snippet produced " ++ v.typeName ++ ", expected " ++ type))) u)))
  /-- Any other value is a success, with what was written. -/
  value_returned : ∀ code v, p.called t u s = some (.produced code) →
    (p.report t u s).mentions .error = false → p.behaviour t u s code = .returned v →
    (∀ type, resultType = some type → type ∈ v.classes) →
    (p.work id t u resultType s).1 = .outcome (.success (p.report t u s) v
      (String.ofList (p.run.written t u code (p.compiled t u s).around)))
  success_sound : ∀ ds v output, (p.work id t u resultType s).1 = .outcome (.success ds v output) →
    ds.mentions .error = false ∧ ∀ type, resultType = some type → type ∈ v.classes
  failure_clean : ∀ ds failure, (p.work id t u resultType s).1 = .outcome (.runtimeFailure ds failure) →
    ds.mentions .error = false
  /-- The collector sees an error exactly if the report does. -/
  severities_agree :
    (p.work id t u resultType s).2.collector.hasErrors = (p.report t u s).mentions .error

/-- The fault of a unit for which there is no code. -/
def missing (id : String) (u : SnippetUnit) : Fault :=
  .lookup ("No compiled unit named " ++ Text.quote u.name ++ " in target " ++ id)

/-- Code that is missing is handed to the run stage as a fault. -/
theorem work_refused (hr : p.called t u s = some .refused) (he : (p.report t u s).mentions .error = false) :
    p.work id t u resultType s =
      let r := p.run.execute t u (.error (missing id u)) resultType (p.compiled t u s).around
      (.ofEnding u (p.report t u s) r.1, { p.compiled t u s with around := r.2 }) := by
  have hc : (p.compiled t u s).target.codeFor id u.name = .error (missing id u) :=
    CompileStage.codeFor_refused id (called_eq_some.mp hr).2
  rw [work_clean id resultType (.inl hr) he, hc]

/-- Code that is there is run, and its end decides. -/
theorem work_produced {code : κ} (hr : p.called t u s = some (.produced code))
    (he : (p.report t u s).mentions .error = false) :
    p.work id t u resultType s =
      let r := p.run.execute t u (.ok code) resultType (p.compiled t u s).around
      (.ofEnding u (p.report t u s) r.1, { p.compiled t u s with around := r.2 }) := by
  have hc : (p.compiled t u s).target.codeFor id u.name = .ok code :=
    CompileStage.codeFor_produced id (called_eq_some.mp hr).2
  rw [work_clean id resultType (.inr ⟨code, hr⟩) he, hc]

/-- How a toolchain can end. -/
theorem called_cases (p : Pipeline σ τ π ω κ) (t : τ) (u : SnippetUnit) (s : PipelineState σ τ π ω κ) :
    p.called t u s = none ∨ (∃ f, p.called t u s = some (.raised f)) ∨ p.Reports t u s := by
  cases h : p.called t u s with
  | none => exact .inl rfl
  | some r =>
    cases r with
    | raised f => exact .inr (.inl ⟨f, rfl⟩)
    | refused => exact .inr (.inr (.inl h))
    | produced code => exact .inr (.inr (.inr ⟨code, h⟩))

/-- How work can end in a success or in a failure at run time: without errors, and a success only by a
value that the run stage let through. -/
theorem work_ran {o : Outcome} (hw : (p.work id t u resultType s).1 = .outcome o)
    (ho : ∀ ds, o ≠ .compileFailure ds) :
    (p.report t u s).mentions .error = false ∧
      ((∃ e, o = .runtimeFailure (p.report t u s) (some (.ofThrown e u))) ∨
        ∃ v output, o = .success (p.report t u s) v (String.ofList output) ∧
          (p.run.execute t u ((p.compiled t u s).target.codeFor id u.name) resultType
            (p.compiled t u s).around).1 = .returned (v, output)) := by
  rcases p.called_cases t u s with h | ⟨f, h⟩ | h
  · rw [work_hung id resultType h] at hw
    cases hw
  · rw [work_raised id resultType h] at hw
    cases hw
  · cases he : (p.report t u s).mentions .error with
    | true =>
      rw [work_errors id resultType h he] at hw
      cases hw
      exact absurd rfl (ho _)
    | false =>
      rw [work_clean id resultType h he] at hw
      refine ⟨rfl, ?_⟩
      cases hx : (p.run.execute t u ((p.compiled t u s).target.codeFor id u.name) resultType
          (p.compiled t u s).around).1 with
      | returned value =>
        obtain ⟨v, output⟩ := value
        simp only [hx, WorkEnd.ofEnding] at hw
        cases hw
        exact .inr ⟨v, output, rfl, rfl⟩
      | failed e =>
        simp only [hx, WorkEnd.ofEnding] at hw
        cases hw
        exact .inl ⟨e, rfl⟩
      | stopped => simp only [hx, WorkEnd.ofEnding] at hw; cases hw
      | endless => simp only [hx, WorkEnd.ofEnding] at hw; cases hw

end Pipeline

namespace Produced

theorem mismatch_eq_none {v : Produced} {type : String} (h : type ∈ v.classes) : v.mismatch type = none := by
  simp [mismatch, h]

theorem mismatch_eq_some {v : Produced} {type : String} (h : type ∉ v.classes) :
    v.mismatch type =
      some (.resultType ("Snippet produced " ++ v.typeName ++ ", expected " ++ type)) := by
  simp [mismatch, h]

theorem mem_classes {v : Produced} {type : String} (h : v.mismatch type = none) : type ∈ v.classes := by
  by_cases hc : type ∈ v.classes
  · exact hc
  · rw [mismatch_eq_some hc] at h
    cases h

end Produced

namespace RunStage

variable {τ π ω κ : Type} [BEq τ]

/-- A value that the stage lets through is of the type that was asked for. -/
theorem execute_typed {stage : RunStage τ π ω κ Produced Thrown} (hm : stage.mismatch = Produced.mismatch)
    {t : τ} {u : SnippetUnit} {code : Except Fault κ} {resultType : Option String}
    {s : Surroundings τ π ω} {v : Produced} {output : List Char}
    (h : (stage.execute t u code resultType s).1 = .returned (v, output)) :
    ∀ type, resultType = some type → type ∈ v.classes := by
  rintro type rfl
  cases code with
  | error f => simp [execute_missing] at h
  | ok code =>
    cases he : stage.ending t u code s with
    | returned w =>
      rw [execute_returned he, Option.bind_some, hm] at h
      cases hw : w.mismatch type with
      | none =>
        simp only [hw] at h
        cases h
        exact Produced.mem_classes hw
      | some f => simp [hw] at h
    | failed e => simp [execute_failed he] at h
    | stopped => simp [execute_stopped he] at h
    | endless => simp [execute_endless he] at h

end RunStage

namespace Pipeline

/-- The work on a unit is classified as it has to be, for any toolchain and any way of running code. -/
theorem work_classified {σ τ π ω κ : Type} [BEq τ] (toolchain : Toolchain (σ × ω) π Fault κ) (gate : Gate π)
    (classpath : String) (options : CompilerOptions)
    (run : τ → SnippetUnit → κ → Surroundings τ π ω → Ending Produced Thrown × Surroundings τ π ω)
    (id : String) (t : τ) (u : SnippetUnit) (resultType : Option String) (s : PipelineState σ τ π ω κ) :
    Classified (.ofRun toolchain gate classpath options run) id t u resultType s where
  toolchain_hung hr := by rw [work_hung id resultType hr]
  toolchain_raised f hr := by rw [work_raised id resultType hr]
  error_reported hr he := by
    rw [work_errors id resultType hr he]
    exact ⟨rfl, Report.errors_ne_nil he⟩
  nothing_run hr he := by
    refine ⟨fun run' => ?_, ?_⟩
    · rw [work_errors id resultType hr he]
      exact work_errors id resultType hr he
    · rw [work_errors id resultType hr he]
      simp only [compiled, PipelineState.ofCompile, CompileStage.compile_tools]
  artifact_missing hr he := by
    rw [work_refused id resultType hr he]
    rfl
  code_failed code e hr he hb := by
    simp only [work_produced id resultType hr he, RunStage.execute_failed hb, WorkEnd.ofEnding]
  code_stopped code hr he hb := by
    simp only [work_produced id resultType hr he, RunStage.execute_stopped hb, WorkEnd.ofEnding]
  code_endless code hr he hb := by
    simp only [work_produced id resultType hr he, RunStage.execute_endless hb, WorkEnd.ofEnding]
  value_mistyped code v type hr he hb ht hn := by
    subst ht
    simp only [work_produced id (some type) hr he, RunStage.execute_returned hb]
    simp only [ofRun, Option.bind_some, Produced.mismatch_eq_some hn, WorkEnd.ofEnding]
  value_returned code v hr he hb ht := by
    simp only [work_produced id resultType hr he, RunStage.execute_returned hb]
    cases resultType with
    | none => rfl
    | some type =>
      simp only [ofRun, Option.bind_some, Produced.mismatch_eq_none (ht type rfl), WorkEnd.ofEnding]
  success_sound ds v output hw := by
    obtain ⟨he, ⟨e, ho⟩ | ⟨v', output', ho, hx⟩⟩ := work_ran id resultType hw (by simp)
    · cases ho
    · obtain ⟨rfl, rfl, rfl⟩ : ds = _ ∧ v = v' ∧ output = _ := by simpa using ho
      exact ⟨he, RunStage.execute_typed rfl hx⟩
  failure_clean ds failure hw := by
    obtain ⟨he, ⟨e, ho⟩ | ⟨v, output, ho, -⟩⟩ := work_ran id resultType hw (by simp)
    · obtain ⟨rfl, -⟩ : ds = _ ∧ failure = _ := by simpa using ho
      exact he
    · cases ho
  severities_agree := work_hasErrors id resultType

end Pipeline

end Evalbox
