import Evalbox.Compile.Stage
import Evalbox.Proofs.Compile.Target
import Evalbox.Proofs.Diagnostics.Grouping
import Evalbox.Proofs.Policy.Scopes

/-!
# Compilations and whole runs of a compile stage

A compilation starts from an empty target and an empty collector, whatever was there before. Its answer,
the stored code and the reported messages are those of the one toolchain call, and a compilation that
raises stores nothing.

A stage that started empty works off any sequence of compilations and resets, and its toolchain may raise, refuse
or produce code at every call. Counter, stored units, known lines and collected messages are each changed at
another point of a compilation; behind every step they agree again, also behind one that raised.
-/

namespace Evalbox

/-! ## One compilation -/

namespace CompileStage

variable {σ π ε κ : Type} (stage : CompileStage σ π ε κ) (u : SnippetUnit) (s : CompileState σ π κ)

/-- What the toolchain does for a unit, with the state that it goes on with. -/
def call : Compilation ε κ × σ :=
  stage.toolchain.run (stage.request u) (stage.gate.enter s.policies) s.tools

/-- The units that a compilation with this end leaves in the target. -/
def stored (u : SnippetUnit) : CompileEnd ε κ → List (String × SnippetUnit × κ)
  | .produced code => [(u.name, u, code)]
  | _ => []

variable {stage u s}

theorem compile_raised {e : ε} (h : (stage.call u s).1.result = .raised e) :
    (stage.compile u s).1 = .error e := by
  simp only [call] at h
  simp only [compile, ask, CompileState.reset, h]

/-- Unless the toolchain raises, the answer is the report of its messages. -/
theorem compile_ended (h : ∀ e, (stage.call u s).1.result ≠ .raised e) :
    (stage.compile u s).1 = .ok (Report.ofMessages (stage.call u s).1.messages u.source) := by
  simp only [call] at h ⊢
  simp only [compile, ask, CompileState.reset, Collector.reset, Collector.messages_foldl_report, List.nil_append]
  split
  · rename_i e he; exact absurd he (h e)
  · rfl
  · rfl

variable (stage u s)

theorem compile_messages : (stage.compile u s).2.collector.messages = (stage.call u s).1.messages := by
  simp only [compile, ask, CompileState.reset, Collector.reset, call]
  split <;> simp [Collector.messages_foldl_report]

theorem ask_collector : (stage.ask u s).2.collector = (stage.compile u s).2.collector := by
  simp only [compile]
  split <;> rfl

theorem compile_tools : (stage.compile u s).2.tools = (stage.call u s).2 := by
  simp only [compile, ask, CompileState.reset, call]
  split <;> rfl

/-- The target holds the unit that was just compiled, and no other. -/
theorem compile_artifacts :
    (stage.compile u s).2.target.artifacts = stored u (stage.call u s).1.result := by
  simp only [compile, ask, CompileState.reset, CompileTarget.clearWith, CompileTarget.clear, call, stored]
  split <;> rename_i h <;> simp [h, CompileTarget.storeWith, CompileTarget.store]

variable {stage u s}

theorem codeFor_produced (id : String) {code : κ} (h : (stage.call u s).1.result = .produced code) :
    (stage.compile u s).2.target.codeFor id u.name = .ok code := by
  have ha := compile_artifacts stage u s
  rw [h] at ha
  simp only [CompileTarget.codeFor, ha, stored, List.lookup_cons_self]

theorem codeFor_refused (id : String) (h : (stage.call u s).1.result = .refused) :
    (stage.compile u s).2.target.codeFor id u.name =
      .error (.lookup ("No compiled unit named " ++ Text.quote u.name ++ " in target " ++ id)) := by
  have ha := compile_artifacts stage u s
  rw [h] at ha
  simp only [CompileTarget.codeFor, ha, stored, List.lookup_nil]

end CompileStage

/-! ## Runs -/

/-- Whether a toolchain came back from a call without raising. -/
def CompileEnd.cameBack {ε κ : Type} : CompileEnd ε κ → Bool
  | .raised _ => false
  | _ => true

namespace CompileState

variable {σ π κ : Type}

/-- Nothing was compiled, and no lines are known of units. -/
structure Fresh (s : CompileState σ π κ) : Prop where
  target : s.target = .empty
  collector : s.collector.messages = []
  lines : ∀ name, s.cache.find? (unitFilename name) = none

/-- Stored units have the filenames of their names, and lines are known of them and of no other units. -/
structure LinesStored (s : CompileState σ π κ) : Prop where
  filename : ∀ a ∈ s.target.artifacts, a.2.1.filename = unitFilename a.1
  lines : ∀ name, s.cache.find? (unitFilename name) = (s.target.artifacts.lookup name).map (·.1.cached)

variable {s : CompileState σ π κ}

theorem Fresh.linesStored (h : s.Fresh) : s.LinesStored where
  filename a ha := by
    rw [h.target] at ha
    cases ha
  lines name := by
    rw [h.lines, h.target]
    rfl

/-- Resetting forgets the lines of all units. -/
theorem LinesStored.find?_reset (h : s.LinesStored) (name : String) :
    s.reset.cache.find? (unitFilename name) = none := by
  change (s.target.clearWith s.cache).2.find? (unitFilename name) = none
  rw [CompileTarget.find?_clearWith]
  split
  · rfl
  · rename_i hn
    rw [h.lines, Option.map_eq_none_iff, List.lookup_eq_none_iff]
    intro a ha
    rw [bne_iff_ne]
    rintro rfl
    exact hn (List.mem_map.mpr ⟨a, ha, h.filename a ha⟩)

theorem LinesStored.reset (h : s.LinesStored) : s.reset.LinesStored where
  filename a ha := by cases ha
  lines name := by
    rw [h.find?_reset]
    rfl

end CompileState

namespace CompileStage

variable {σ π ε κ : Type} (stage : CompileStage σ π ε κ) (u : SnippetUnit) (s : CompileState σ π κ)

/-- A compilation leaves the policies of its thread as they were, whichever way it ends. -/
theorem compile_policies : (stage.compile u s).2.policies = s.policies := by
  simp only [compile, ask, CompileState.reset]
  split <;> exact stage.gate.leave_enter s.policies

theorem compile_compiled : (stage.compile u s).2.target.compiled =
    s.target.compiled + if (stage.call u s).1.result.cameBack then 1 else 0 := by
  simp only [compile, ask, CompileState.reset, CompileTarget.clearWith, CompileTarget.clear, call]
  split <;> rename_i h <;> simp [h, CompileEnd.cameBack, CompileTarget.storeWith, CompileTarget.store]

variable {stage u s}

theorem compile_cache_produced {code : κ} (h : (stage.call u s).1.result = .produced code) :
    (stage.compile u s).2.cache = s.reset.cache.put u.filename u.cached := by
  simp only [call] at h
  simp only [compile, ask, CompileState.reset, h, CompileTarget.storeWith]

theorem compile_cache_unstored (h : ∀ code, (stage.call u s).1.result ≠ .produced code) :
    (stage.compile u s).2.cache = s.reset.cache := by
  simp only [call] at h
  simp only [compile, ask, CompileState.reset]
  split
  · rfl
  · rfl
  · rename_i code hc
    exact absurd hc (h code)

theorem stored_eq_nil {r : CompileEnd ε κ} (h : ∀ code, r ≠ .produced code) : stored u r = [] := by
  cases r with
  | produced code => exact absurd rfl (h code)
  | raised e => rfl
  | refused => rfl

theorem linesStored_unstored (h : s.LinesStored) (hr : ∀ code, (stage.call u s).1.result ≠ .produced code) :
    (stage.compile u s).2.LinesStored := by
  have ha : (stage.compile u s).2.target.artifacts = [] := by rw [compile_artifacts, stored_eq_nil hr]
  constructor
  · intro a hm
    rw [ha] at hm
    cases hm
  · intro name
    rw [ha, compile_cache_unstored hr, h.find?_reset]
    rfl

theorem linesStored_compile (h : s.LinesStored) (hu : u.filename = unitFilename u.name) :
    (stage.compile u s).2.LinesStored := by
  cases hr : (stage.call u s).1.result with
  | raised e => exact linesStored_unstored h (by simp [hr])
  | refused => exact linesStored_unstored h (by simp [hr])
  | produced code =>
    have ha : (stage.compile u s).2.target.artifacts = [(u.name, u, code)] := by
      rw [compile_artifacts, hr, stored]
    constructor
    · intro a hm
      rw [ha] at hm
      obtain rfl := List.mem_singleton.mp hm
      exact hu
    · intro name
      rw [ha, compile_cache_produced hr, LineCache.find?_put, h.find?_reset, hu]
      by_cases hn : name = u.name
      · subst hn
        simp
      · rw [if_neg fun hf => hn (unitFilename_injective hf)]
        simp [List.lookup_cons, beq_false_of_ne hn]

/-- What a stage comes to from a state by compilations and resets, in any order, with what its toolchain did at
the calls. -/
inductive Run (stage : CompileStage σ π ε κ) (s₀ : CompileState σ π κ) :
    List (Compilation ε κ) → CompileState σ π κ → Prop
  | start : Run stage s₀ [] s₀
  | compile {calls : List (Compilation ε κ)} {s : CompileState σ π κ} {u : SnippetUnit} :
    Run stage s₀ calls s → u.filename = unitFilename u.name →
      Run stage s₀ (calls ++ [(stage.call u s).1]) (stage.compile u s).2
  | reset {calls : List (Compilation ε κ)} {s : CompileState σ π κ} :
    Run stage s₀ calls s → Run stage s₀ calls s.reset

theorem Run.linesStored {s₀ : CompileState σ π κ} {calls : List (Compilation ε κ)} (h : stage.Run s₀ calls s)
    (h₀ : s₀.LinesStored) : s.LinesStored := by
  induction h with
  | start => exact h₀
  | compile _ hu ih => exact linesStored_compile ih hu
  | reset _ ih => exact ih.reset

theorem Run.compiled {s₀ : CompileState σ π κ} {calls : List (Compilation ε κ)} (h : stage.Run s₀ calls s) :
    s.target.compiled = s₀.target.compiled + calls.countP (·.result.cameBack) := by
  induction h with
  | start => rfl
  | @compile calls s u _ _ ih =>
    rw [compile_compiled, ih, List.countP_append, List.countP_singleton, Nat.add_assoc]
  | reset _ ih => exact ih

/-- What holds of a stage behind every step of a run, and what its next step does. -/
structure Orderly (stage : CompileStage σ π ε κ) (calls : List (Compilation ε κ)) (s : CompileState σ π κ) :
    Prop where
  /-- The target counts the calls from which the toolchain came back. -/
  counted : s.target.compiled = calls.countP (·.result.cameBack)
  /-- Lines are known of the stored units, and of no others. -/
  lines : ∀ name, s.cache.find? (unitFilename name) = (s.target.artifacts.lookup name).map (·.1.cached)
  /-- If code is produced, it is what the target holds, and the answer is the report of this call's messages. -/
  produced : ∀ u code, (stage.call u s).1.result = .produced code →
    (stage.compile u s).1 = .ok (Report.ofMessages (stage.call u s).1.messages u.source) ∧
      (stage.compile u s).2.target.names = [u.name] ∧
      ∀ id, (stage.compile u s).2.target.codeFor id u.name = .ok code
  /-- If the toolchain refuses, the target holds nothing. -/
  refused : ∀ u, (stage.call u s).1.result = .refused →
    (stage.compile u s).1 = .ok (Report.ofMessages (stage.call u s).1.messages u.source) ∧
      (stage.compile u s).2.target.names = []
  /-- What the toolchain raises is raised on; what it reported before stays collected. -/
  raised : ∀ u e, (stage.call u s).1.result = .raised e →
    (stage.compile u s).1 = .error e ∧ (stage.compile u s).2.target.names = [] ∧
      (stage.compile u s).2.collector.messages = (stage.call u s).1.messages ∧
      (stage.compile u s).2.policies = s.policies
  /-- A reset leaves nothing. -/
  reset : s.reset.target.names = [] ∧ s.reset.collector.messages = []

/-- Behind every step of a run, whatever the toolchain does. -/
theorem run_orderly {s₀ : CompileState σ π κ} {calls : List (Compilation ε κ)} (hf : s₀.Fresh)
    (h : stage.Run s₀ calls s) : stage.Orderly calls s := by
  constructor
  case counted => rw [h.compiled, hf.target, CompileTarget.empty, Nat.zero_add]
  case lines => exact (h.linesStored hf.linesStored).lines
  case produced =>
    intro u code hr
    refine ⟨compile_ended fun e => by simp [hr], ?_, fun id => codeFor_produced id hr⟩
    rw [CompileTarget.names, compile_artifacts, hr]
    rfl
  case refused =>
    intro u hr
    refine ⟨compile_ended fun e => by simp [hr], ?_⟩
    rw [CompileTarget.names, compile_artifacts, hr]
    rfl
  case raised =>
    intro u e hr
    refine ⟨compile_raised hr, ?_, compile_messages stage u s, compile_policies stage u s⟩
    rw [CompileTarget.names, compile_artifacts, hr]
    rfl
  case reset => exact ⟨rfl, rfl⟩

/-- A stage behind a gate whose toolchain does at its calls what a list says. -/
def ofList : CompileStage (List (Compilation Fault Nat)) Policy Fault Nat where
  toolchain := ⟨fun _ _ next => (next.headD ⟨[], .refused⟩, next.tail), fun _ _ _ => false⟩
  gate := ⟨true, .default⟩
  classpath := ""
  options := default

/-- A unit of which code was made, and one at which the toolchain raised behind its first message. -/
theorem raised_run_orderly : ∃ calls s,
    ofList.Run ⟨.empty, {}, .empty, [], [⟨[], .produced 7⟩, ⟨[.plain .error "odd"], .raised (.value "stop")⟩]⟩ calls s ∧
      s.target.compiled = 1 ∧ s.target.names = [] ∧ s.collector.messages = [.plain .error "odd"] ∧
      ofList.Orderly calls s := by
  let unit (name : String) : SnippetUnit := ⟨name, unitFilename name, ['1'], 0⟩
  let s₀ : CompileState (List (Compilation Fault Nat)) Policy Nat :=
    ⟨.empty, {}, .empty, [], [⟨[], .produced 7⟩, ⟨[.plain .error "odd"], .raised (.value "stop")⟩]⟩
  have hf : s₀.Fresh := ⟨rfl, rfl, fun _ => rfl⟩
  have h₁ : ofList.Run s₀ _ _ := .compile (u := unit "A") .start rfl
  have h₂ : ofList.Run s₀ _ _ := .compile (u := unit "B") h₁ rfl
  exact ⟨_, _, h₂, rfl, rfl, rfl, run_orderly hf h₂⟩

end CompileStage

end Evalbox
