import Evalbox.Proofs.Capture.Console
import Evalbox.Proofs.Engine.Classification
import Evalbox.Proofs.Policy.Scopes

/-!
# Units that follow a script

A script says what a unit does that has no effects but to print, to return, to raise, to loop and to load
modules of the host. What the world makes of loading them is not seen by anybody. A loop prints what it likes;
it may be stopped, or it may never come back.

The outcome of work on such a unit is known from what the toolchain answers and from the script, wherever
the work is done: `Pipeline.verdict`.
-/

namespace Evalbox

/-- What a unit does. -/
inductive Script (ν ε : Type) where
  | returns (value : ν)
  | raises (error : ε)
  | loops
  | prints (text : List Char) (next : Script ν ε)
  | loads (module : String) (next : Script ν ε)

/-- How code ended, as the run stage sees it: with a value or an error; none if it did not come to its end. -/
def Ending.result {ν ε : Type} : Ending ν ε → Option (Except ε ν)
  | .returned v => some (.ok v)
  | .failed e => some (.error e)
  | .stopped | .endless => none

namespace Script

variable {τ ν ε : Type} [BEq τ]

/-- A thread performs a script on a console. -/
inductive Performed (t : τ) : Script ν ε → Console τ → Ending ν ε → Console τ → Prop
  | returns (v : ν) (c : Console τ) : Performed t (.returns v) c (.returned v) c
  | raises (e : ε) (c : Console τ) : Performed t (.raises e) c (.failed e) c
  | stopped (texts : List (List Char)) (c : Console τ) : Performed t .loops c .stopped (c.writes t texts)
  | endless (texts : List (List Char)) (c : Console τ) : Performed t .loops c .endless (c.writes t texts)
  | prints {text : List Char} {next : Script ν ε} {c c' : Console τ} {x : Ending ν ε} :
    Performed t next (c.write t text) x c' → Performed t (.prints text next) c x c'
  | loads {module : String} {next : Script ν ε} {c c' : Console τ} {x : Ending ν ε} :
    Performed t next c x c' → Performed t (.loads module next) c x c'

/-- What is printed before the end. -/
def written : Script ν ε → List Char
  | .prints text next => text ++ next.written
  | .loads _ next => next.written
  | _ => []

/-- What the end is; none for a loop. -/
def result : Script ν ε → Option (Except ε ν)
  | .returns v => some (.ok v)
  | .raises e => some (.error e)
  | .loops => none
  | .prints _ next | .loads _ next => next.result

namespace Performed

variable {t : τ} {script : Script ν ε} {c c' : Console τ} {x : Ending ν ε}

theorem result_eq (h : Performed t script c x c') : x.result = script.result := by
  induction h with
  | returns v c => rfl
  | raises e c => rfl
  | stopped texts c => rfl
  | endless texts c => rfl
  | prints _ ih => exact ih
  | loads _ ih => exact ih

theorem sound (h : Performed t script c x c') (hc : c.Sound) : c'.Sound := by
  induction h with
  | returns v c => exact hc
  | raises e c => exact hc
  | stopped texts c => exact hc.writes t texts
  | endless texts c => exact hc.writes t texts
  | prints _ ih => exact ih (hc.write t _)
  | loads _ ih => exact ih hc

/-- If the script comes to an end, the capture of the thread has taken what was printed. -/
theorem captured (h : Performed t script c x c') {buffer : Nat} (hc : c.Captures t buffer)
    (hr : x.result ≠ none) : c'.captured buffer = c.captured buffer ++ script.written := by
  induction h with
  | returns v c => exact (List.append_nil _).symm
  | raises e c => exact (List.append_nil _).symm
  | stopped texts c => exact absurd rfl hr
  | endless texts c => exact absurd rfl hr
  | prints _ ih =>
    rw [ih (hc.write _) hr, Console.captured_write hc, List.append_assoc]
    rfl
  | loads _ ih => exact ih hc hr

end Performed

end Script

namespace RunStage

variable {τ π ω κ ν ε : Type} [BEq τ]

/-- Code does what a script says, on any thread that has the given policies. -/
def Acts (stage : RunStage τ π ω κ ν ε) (u : SnippetUnit) (code : κ) (policies : List π)
    (script : Script ν ε) : Prop :=
  ∀ t s, s.guards.of t = policies →
    script.Performed t s.console (stage.run t u code s).1 (stage.run t u code s).2.console ∧
      (stage.run t u code s).2.guards = s.guards

/-- What the run stage comes to for a script. -/
def verdict (stage : RunStage τ π ω κ ν ε) (script : Script ν ε) (resultType : Option String) :
    Option (Except ε (ν × List Char)) :=
  match script.result with
  | none => none
  | some (.error e) => some (.error e)
  | some (.ok v) =>
    match resultType.bind (stage.mismatch v) with
    | some f => some (.error (stage.ofFault f))
    | none => some (.ok (v, script.written))

/-- What the run stage leaves for other threads, however the code ended. -/
structure Left (t : τ) (s s' : Surroundings τ π ω) : Prop where
  console : s'.console.Sound
  guards : ∀ t', t' ≠ t → s'.guards.of t' = s.guards.of t'

/-- The surroundings behind code that was left: its capture is closed, and its scope of the gate is left. -/
def outside (stage : RunStage τ π ω κ ν ε) (t : τ) (s after : Surroundings τ π ω) : Surroundings τ π ω :=
  { after with
    guards := after.guards.leave t stage.gate
    console := after.console.closeCapture t (s.console.openCapture t).1 }

theorem Left.trans {t : τ} {s s' s'' : Surroundings τ π ω} (h : Left t s s') (h' : Left t s' s'') :
    Left t s s'' :=
  ⟨h'.console, fun t' ht => (h'.guards t' ht).trans (h.guards t' ht)⟩

variable {stage : RunStage τ π ω κ ν ε} {t : τ} {u : SnippetUnit} {s : Surroundings τ π ω} {code : κ}
  {resultType : Option String}

/-- Code that never comes back leaves its surroundings as they are; otherwise they are tidied up. -/
theorem execute_around :
    (stage.execute t u (.ok code) resultType s).2 = (stage.run t u code (stage.inside t s)).2 ∨
      (stage.execute t u (.ok code) resultType s).2 =
        stage.outside t s (stage.run t u code (stage.inside t s)).2 := by
  simp only [execute, inside, outside]
  split
  · split <;> exact .inr rfl
  · exact .inr rfl
  · exact .inr rfl
  · exact .inl rfl

theorem inside_sound (hc : s.console.Sound) : (stage.inside t s).console.Sound := hc.openCapture t

variable [LawfulBEq τ]

theorem inside_captures (hc : s.console.Sound) :
    (stage.inside t s).console.Captures t (s.console.openCapture t).1.buffer ∧
      (stage.inside t s).console.captured (s.console.openCapture t).1.buffer = [] :=
  Console.openCapture_captures t hc

theorem inside_guards {policies : List π} (hg : s.guards.of t = policies) :
    (stage.inside t s).guards.of t = stage.gate.enter policies := by
  rw [← hg]
  exact Guards.of_enter_self ..

theorem inside_left (hc : s.console.Sound) : Left t s (stage.inside t s) :=
  ⟨inside_sound hc, fun _ h => Guards.of_enter_other _ _ h⟩

theorem Left.outside {after : Surroundings τ π ω} (h : Left t s after) : Left t s (stage.outside t s after) :=
  ⟨h.console.closeCapture t _, fun t' ht => (Guards.of_leave_other _ _ ht).trans (h.guards t' ht)⟩

/-- Code that is missing leaves the other threads alone. -/
theorem missing_left (u : SnippetUnit) (f : Fault) (resultType : Option String) (hc : s.console.Sound) :
    Left t s (stage.execute t u (.error f) resultType s).2 :=
  (inside_left hc).outside

variable {script : Script ν ε} {policies : List π}

/-- So does code that acts as a script. -/
theorem Acts.left (h : stage.Acts u code (stage.gate.enter policies) script) (hc : s.console.Sound)
    (hg : s.guards.of t = policies) : Left t s (stage.execute t u (.ok code) resultType s).2 := by
  obtain ⟨hp, hk⟩ := h t (stage.inside t s) (inside_guards hg)
  have ha : Left t s (stage.run t u code (stage.inside t s)).2 := by
    refine ⟨hp.sound (inside_sound hc), fun t' ht => ?_⟩
    rw [hk]
    exact (inside_left hc).guards t' ht
  rcases @execute_around _ _ _ _ _ _ _ stage t u s code resultType with he | he
  · rw [he]
    exact ha
  · rw [he]
    exact ha.outside

/-- The run stage comes to what the script says, whatever else happened before. -/
theorem Acts.verdict (h : stage.Acts u code (stage.gate.enter policies) script) (hc : s.console.Sound)
    (hg : s.guards.of t = policies) :
    (stage.execute t u (.ok code) resultType s).1.result = stage.verdict script resultType := by
  obtain ⟨hp, -⟩ := h t (stage.inside t s) (inside_guards hg)
  obtain ⟨hcap, hnil⟩ := @inside_captures _ _ _ _ _ _ _ stage t s _ hc
  have hr := hp.result_eq
  unfold RunStage.verdict
  cases he : stage.ending t u code s with
  | returned v =>
    simp only [ending] at he
    have hw : stage.written t u code s = script.written := by
      have := hp.captured hcap (by rw [he]; simp [Ending.result])
      rwa [hnil, List.nil_append] at this
    rw [he] at hr
    rw [← hr, execute_returned he, hw]
    simp only [Ending.result]
    cases resultType.bind (stage.mismatch v) <;> rfl
  | failed e =>
    simp only [ending] at he
    rw [he] at hr
    rw [← hr, execute_failed he]
    rfl
  | stopped =>
    simp only [ending] at he
    rw [he] at hr
    rw [← hr, execute_stopped he]
    rfl
  | endless =>
    simp only [ending] at he
    rw [he] at hr
    rw [← hr, execute_endless he]
    rfl

end RunStage

/-- What the caller of a worker makes of how its work ended. -/
def WorkEnd.seen : WorkEnd → Outcome
  | .outcome o => o
  | .raised f => if f.isCancellation || Future.looksExpired f then .timeout else .internalFailure f
  | .stopped | .endless => .timeout

/-- The outcome of a unit whose code was run. -/
def Outcome.ofResult (u : SnippetUnit) (diagnostics : Report) :
    Option (Except Thrown (Produced × List Char)) → Outcome
  | some (.ok (v, output)) => .success diagnostics v (String.ofList output)
  | some (.error e) => .runtimeFailure diagnostics (some (.ofThrown e u))
  | none => .timeout

theorem WorkEnd.seen_ofEnding (u : SnippetUnit) (diagnostics : Report)
    (x : Ending (Produced × List Char) Thrown) :
    (WorkEnd.ofEnding u diagnostics x).seen = .ofResult u diagnostics x.result := by
  cases x <;> rfl

namespace Pipeline

variable {σ τ π ω κ : Type} [BEq τ]

/-- The toolchain answers as it is asked, whatever its state and the world are. It may be stopped in a
call from which it would not come back. -/
def Steady (p : Pipeline σ τ π ω κ) (answer : CompileRequest → List π → Option (Compilation Fault κ)) : Prop :=
  ∀ u ps s, match answer (p.compile.request u) ps with
    | some c => (p.compile.toolchain.run (p.compile.request u) ps s).1 = c ∧
        p.compile.toolchain.hangs (p.compile.request u) ps s = false
    | none => p.compile.toolchain.hangs (p.compile.request u) ps s = true ∨
        ∃ f, (p.compile.toolchain.run (p.compile.request u) ps s).1.result = .raised f ∧
          f.isCancellation = true

/-- If there is code to run for a unit, it does what its script says. -/
def Harmless (p : Pipeline σ τ π ω κ) (answer : Option (Compilation Fault κ)) (u : SnippetUnit)
    (script : κ → Script Produced Thrown) : Prop :=
  ∀ c code, answer = some c → c.result = .produced code →
    (Report.ofMessages c.messages u.source).mentions .error = false →
    p.run.Acts u code (p.run.gate.enter []) (script code)

/-- The outcome for a unit, from the answer of the toolchain and the scripts of codes. -/
def verdict (p : Pipeline σ τ π ω κ) (id : String) (answer : Option (Compilation Fault κ)) (u : SnippetUnit)
    (script : κ → Script Produced Thrown) (resultType : Option String) : Outcome :=
  match answer with
  | none => .timeout
  | some c =>
    let diagnostics := Report.ofMessages c.messages u.source
    match c.result with
    | .raised f => (WorkEnd.raised f).seen
    | .refused =>
      if diagnostics.mentions .error then .compileFailure diagnostics
      else .ofResult u diagnostics (some (.error (p.run.ofFault (missing id u))))
    | .produced code =>
      if diagnostics.mentions .error then .compileFailure diagnostics
      else .ofResult u diagnostics (p.run.verdict (script code) resultType)

variable {p : Pipeline σ τ π ω κ} {t : τ} {u : SnippetUnit} {s : PipelineState σ τ π ω κ}
  {answer : CompileRequest → List π → Option (Compilation Fault κ)} {script : κ → Script Produced Thrown}
  (id : String) (resultType : Option String)

theorem called_none (ht : p.Steady answer) (hg : s.around.guards.of t = [])
    (ha : answer (p.compile.request u) (p.compile.gate.enter []) = none) :
    p.called t u s = none ∨ ∃ f, p.called t u s = some (.raised f) ∧ f.isCancellation = true := by
  have h := ht u (p.compile.gate.enter []) (s.tools, s.around.world)
  rw [ha] at h
  simp only [called, compilation, CompileStage.hangs, CompileStage.call, PipelineState.toCompile, hg]
  split
  · exact .inl rfl
  · rename_i hn
    obtain ⟨f, hf, hcan⟩ := h.resolve_left hn
    exact .inr ⟨f, by rw [hf], hcan⟩

theorem called_some (ht : p.Steady answer) (hg : s.around.guards.of t = []) {c : Compilation Fault κ}
    (ha : answer (p.compile.request u) (p.compile.gate.enter []) = some c) :
    p.called t u s = some c.result ∧ p.report t u s = .ofMessages c.messages u.source := by
  have h := ht u (p.compile.gate.enter []) (s.tools, s.around.world)
  rw [ha] at h
  simp only [called, report, compilation, CompileStage.hangs, CompileStage.call, PipelineState.toCompile, hg, h.1,
    h.2, Bool.false_eq_true, if_false, and_self]

/-- Compiling leaves the standard output and the guards as they are. -/
theorem compiled_left (t : τ) (u : SnippetUnit) (hc : s.around.console.Sound) :
    RunStage.Left t s.around (p.compiled t u s).around := ⟨hc, fun _ _ => rfl⟩

variable [LawfulBEq τ]

theorem hung_left (t : τ) (u : SnippetUnit) (hc : s.around.console.Sound) :
    RunStage.Left t s.around (p.hung t u s).around := ⟨hc, fun _ h => Guards.of_set_other _ _ h⟩

/-- The work on a harmless unit comes to the verdict and leaves other threads alone. -/
theorem work_verdict (ht : p.Steady answer) (hc : s.around.console.Sound) (hg : s.around.guards.of t = [])
    (hh : p.Harmless (answer (p.compile.request u) (p.compile.gate.enter [])) u script) :
    (p.work id t u resultType s).1.seen =
        p.verdict id (answer (p.compile.request u) (p.compile.gate.enter [])) u script resultType ∧
      RunStage.Left t s.around (p.work id t u resultType s).2.around := by
  have hcl : RunStage.Left t s.around (p.compiled t u s).around := compiled_left t u hc
  have hgc : (p.compiled t u s).around.guards.of t = [] := hg
  cases ha : answer (p.compile.request u) (p.compile.gate.enter []) with
  | none =>
    rcases called_none ht hg ha with h | ⟨f, h, hf⟩
    · rw [work_hung id resultType h]
      exact ⟨rfl, hung_left t u hc⟩
    · rw [work_raised id resultType h]
      exact ⟨by simp [WorkEnd.seen, verdict, hf], hcl⟩
  | some c =>
    obtain ⟨h, hr⟩ := called_some ht hg ha
    cases hres : c.result with
    | raised f =>
      rw [hres] at h
      rw [work_raised id resultType h]
      exact ⟨by simp only [verdict, hres], hcl⟩
    | refused =>
      rw [hres] at h
      simp only [verdict, hres, ← hr]
      cases he : (p.report t u s).mentions .error with
      | true =>
        rw [work_errors id resultType (.inl h) he]
        exact ⟨rfl, hcl⟩
      | false =>
        rw [work_refused id resultType h he]
        exact ⟨rfl, hcl.trans (RunStage.missing_left u (missing id u) resultType hcl.console)⟩
    | produced code =>
      rw [hres] at h
      simp only [verdict, hres, ← hr]
      cases he : (p.report t u s).mentions .error with
      | true =>
        rw [work_errors id resultType (.inr ⟨code, h⟩) he]
        exact ⟨rfl, hcl⟩
      | false =>
        have hacts := hh c code ha hres (by rw [← hr]; exact he)
        rw [work_produced id resultType h he]
        refine ⟨?_, hcl.trans (hacts.left hcl.console hgc)⟩
        simp only [WorkEnd.seen_ofEnding, hacts.verdict hcl.console hgc, Bool.false_eq_true, if_false]

end Pipeline

end Evalbox
