import Evalbox.Proofs.Engine.Script

/-!
# Calls of one evaluator do not influence each other

Target, collector, cached lines, toolchain, standard output and guards all survive a call. What a call relies on
of them is `Ready`: every call leaves it for the next one, also a call whose worker never comes back, which
leaves its capture open and the gate entered on its own thread. The outcome of a call on a ready evaluator
is the verdict on its unit, which no earlier call can change.
-/

namespace Evalbox

/-- A call of an evaluator. -/
structure Call where
  prelude : List Char
  code : List Char
  resultType : Option String
  deriving DecidableEq, Repr

namespace Evaluator

section Settle

variable {σ τ π ω κ : Type}

theorem settle_outcome (e : Evaluator σ τ π ω κ) (w : WorkEnd) : (e.settle w).1 = w.seen := by
  cases w with
  | outcome o => rfl
  | raised f =>
    simp only [settle, Future.settle, WorkEnd.seen]
    cases f.isCancellation with
    | true => rfl
    | false =>
      simp only [Bool.false_eq_true, if_false, Future.await, Bool.false_or]
      cases Future.looksExpired f <;> rfl
  | stopped => rfl
  | endless => rfl

/-- Two evaluators that work in the same way and in the same surroundings, and number alike. -/
structure Alike (e e' : Evaluator σ τ π ω κ) : Prop where
  pipeline : e'.pipeline = e.pipeline
  limit : e'.limit = e.limit
  worker : e'.worker = e.worker
  around : e'.state.around = e.state.around
  nextUnit : e'.nextUnit = e.nextUnit

theorem settle_alike (e : Evaluator σ τ π ω κ) (w : WorkEnd) : e.Alike (e.settle w).2 := by
  unfold settle
  simp only
  split <;> exact ⟨rfl, rfl, rfl, rfl, rfl⟩

theorem rotate_alike (e : Evaluator σ τ π ω κ) : e.Alike e.rotate.2 := ⟨rfl, rfl, rfl, rfl, rfl⟩

end Settle

variable {σ τ π ω κ : Type} [BEq τ]

/-- The outcome of a call, and the evaluator behind it. -/
def perform (e : Evaluator σ τ π ω κ) (c : Call) : Outcome × Evaluator σ τ π ω κ :=
  let r := e.evaluate c.prelude c.code c.resultType
  (r.1.outcome, r.2)

/-- The evaluator behind a history of calls. -/
def after (e : Evaluator σ τ π ω κ) (calls : List Call) : Evaluator σ τ π ω κ :=
  calls.foldl (fun e c => (e.perform c).2) e

/-- What a call relies on: the standard output is sound, and no policy guards the threads of the workers to
come, each of which has its own. -/
structure Ready (e : Evaluator σ τ π ω κ) : Prop where
  console : e.state.around.console.Sound
  unguarded : ∀ n, e.nextUnit ≤ n → e.state.around.guards.of (e.worker n) = []
  workers : ∀ m n, e.worker m = e.worker n → m = n

/-- The evaluators that are made for a configuration are ready. -/
theorem ofConfig_ready {σ : Type} (toolchain : Toolchain (σ × Outside) Policy Fault Program) (tools : σ)
    (files : FileTree) (c : EngineConfig) : (ofConfig toolchain tools files c).Ready where
  console := Console.initial_sound _
  unguarded _ _ := rfl
  workers _ _ h := ThreadId.worker.inj h

/-- The unit of a call with a number does nothing but follow its script. -/
def HarmlessCall (p : Pipeline σ τ π ω κ) (answer : CompileRequest → List π → Option (Compilation Fault κ))
    (script : SnippetUnit → κ → Script Produced Thrown) (n : Nat) (c : Call) : Prop :=
  ∀ u, wrap c.prelude c.code (unitName n) = .ok u →
    p.Harmless (answer (p.compile.request u) (p.compile.gate.enter [])) u (script u)

/-- So do the units of all calls, which are numbered from here on. -/
def HarmlessCalls (p : Pipeline σ τ π ω κ) (answer : CompileRequest → List π → Option (Compilation Fault κ))
    (script : SnippetUnit → κ → Script Produced Thrown) : Nat → List Call → Prop
  | _, [] => True
  | n, c :: calls => HarmlessCall p answer script n c ∧ HarmlessCalls p answer script (n + 1) calls

/-- The outcome of a call, from the number of its unit. -/
def verdict (p : Pipeline σ τ π ω κ) (answer : CompileRequest → List π → Option (Compilation Fault κ))
    (script : SnippetUnit → κ → Script Produced Thrown) (n : Nat) (c : Call) : Outcome :=
  match wrap c.prelude c.code (unitName n) with
  | .error f => .internalFailure (.decoding f.message)
  | .ok u => p.verdict targetId (answer (p.compile.request u) (p.compile.gate.enter [])) u (script u) c.resultType

theorem Alike.ready {e e' : Evaluator σ τ π ω κ} (h : e.Alike e') (hr : e.Ready) : e'.Ready where
  console := by rw [h.around]; exact hr.console
  unguarded n hn := by
    rw [h.around, h.worker]
    exact hr.unguarded n (h.nextUnit ▸ hn)
  workers := by rw [h.worker]; exact hr.workers

/-- What a call does to an evaluator that matters for the calls behind it. -/
structure Steps (e e' : Evaluator σ τ π ω κ) : Prop where
  pipeline : e'.pipeline = e.pipeline
  limit : e'.limit = e.limit
  nextUnit : e'.nextUnit = e.nextUnit + 1
  ready : e'.Ready

variable [LawfulBEq τ] {e e' : Evaluator σ τ π ω κ}
  {answer : CompileRequest → List π → Option (Compilation Fault κ)}
  {script : SnippetUnit → κ → Script Produced Thrown} {c : Call}

/-- With the target in place, a harmless call comes to its verdict. -/
theorem evaluateHere_verdict (hr : e.Ready) (hs : e.pipeline.Steady answer)
    (hc : HarmlessCall e.pipeline answer script e.nextUnit c) :
    (e.evaluateHere c.prelude c.code c.resultType).1 = verdict e.pipeline answer script e.nextUnit c ∧
      e.Steps (e.evaluateHere c.prelude c.code c.resultType).2 := by
  unfold evaluateHere verdict
  cases hw : wrap c.prelude c.code (unitName e.nextUnit) with
  | error f =>
    exact ⟨rfl, rfl, rfl, rfl, hr.console, fun n hn => hr.unguarded n (Nat.le_of_succ_le hn), hr.workers⟩
  | ok u =>
    obtain ⟨hv, hl⟩ := Pipeline.work_verdict targetId c.resultType hs hr.console
      (hr.unguarded e.nextUnit (Nat.le_refl _)) (hc u hw)
    have ha := settle_alike { e with
      state := (e.pipeline.work targetId (e.worker e.nextUnit) u c.resultType e.state).2
      nextUnit := e.nextUnit + 1 } (e.pipeline.work targetId (e.worker e.nextUnit) u c.resultType e.state).1
    refine ⟨(settle_outcome ..).trans hv, ha.pipeline, ha.limit, ha.nextUnit, ha.ready ⟨hl.console, ?_, hr.workers⟩⟩
    -- the thread of this call is not one of those to come
    intro n hn
    have ht : e.worker n ≠ e.worker e.nextUnit := fun he => by
      have hne : n = e.nextUnit := hr.workers n e.nextUnit he
      exact Nat.not_succ_le_self n (hne ▸ hn)
    exact (hl.guards _ ht).trans (hr.unguarded n (Nat.le_of_succ_le hn))

/-- A harmless call on a ready evaluator comes to its verdict, and leaves the evaluator ready. -/
theorem perform_verdict {limit : Int} (hr : e.Ready) (hn : e.limit = .int limit) (hs : e.pipeline.Steady answer)
    (hc : HarmlessCall e.pipeline answer script e.nextUnit c) :
    (e.perform c).1 = verdict e.pipeline answer script e.nextUnit c ∧ e.Steps (e.perform c).2 := by
  obtain ⟨full, hm⟩ : ∃ full, e.mustRotate = .ok full := by
    unfold mustRotate
    simp only
    split
    · exact ⟨true, rfl⟩
    · rw [hn]
      exact ⟨_, rfl⟩
  simp only [perform, evaluate, hm]
  cases full with
  | false => exact evaluateHere_verdict hr hs hc
  | true =>
    obtain ⟨hv, hst⟩ := @evaluateHere_verdict _ _ _ _ _ _ _ e.rotate.2 _ _ c (e.rotate_alike.ready hr) hs hc
    exact ⟨hv, hst.pipeline, hst.limit, hst.nextUnit, hst.ready⟩

/-- Harmless calls leave an evaluator ready. -/
theorem after_ready {limit : Int} (calls : List Call) (hr : e.Ready) (hn : e.limit = .int limit)
    (hs : e.pipeline.Steady answer) (hc : HarmlessCalls e.pipeline answer script e.nextUnit calls) :
    (e.after calls).pipeline = e.pipeline ∧ (e.after calls).limit = e.limit ∧
      (e.after calls).nextUnit = e.nextUnit + calls.length ∧ (e.after calls).Ready := by
  induction calls generalizing e with
  | nil => exact ⟨rfl, rfl, rfl, hr⟩
  | cons c calls ih =>
    obtain ⟨hc, hcs⟩ := hc
    have hst := (perform_verdict hr hn hs hc).2
    obtain ⟨hp, hl, hu, hr'⟩ := @ih (e.perform c).2 hst.ready (hst.limit.trans hn) (hst.pipeline ▸ hs)
      (by rw [hst.pipeline, hst.nextUnit]; exact hcs)
    refine ⟨hp.trans hst.pipeline, hl.trans hst.limit, ?_, hr'⟩
    rw [List.length_cons]
    exact hu.trans (by rw [hst.nextUnit]; omega)

end Evaluator

namespace Script

/-- Perform a script. A loop never comes back. -/
def perform {ν ε : Type} (t : Nat) : Script ν ε → Console Nat → Ending ν ε × Console Nat
  | .returns v, c => (.returned v, c)
  | .raises e, c => (.failed e, c)
  | .loops, c => (.endless, c)
  | .prints text next, c => next.perform t (c.write t text)
  | .loads _ next, c => next.perform t c

theorem perform_performed {ν ε : Type} (t : Nat) (script : Script ν ε) (c : Console Nat) :
    script.Performed t c (script.perform t c).1 (script.perform t c).2 := by
  induction script generalizing c with
  | returns v => exact .returns v c
  | raises e => exact .raises e c
  | loops => exact .endless [] c
  | prints text next ih => exact .prints (ih _)
  | loads module next ih => exact .loads (ih _)

end Script

/-- An evaluator whose toolchain compiles to scripts, or hangs. -/
def Evaluator.scripted (answer : CompileRequest → Option (Compilation Fault (Script Produced Thrown)))
    (n : Nat) : Evaluator Unit Nat Unit Unit (Script Produced Thrown) where
  pipeline := .ofRun ⟨fun r _ s => ((answer r).getD ⟨[], .refused⟩, s), fun r _ _ => (answer r).isNone⟩ ⟨true, ()⟩
    "" default fun t _ script s =>
      ((script.perform t s.console).1, { s with console := (script.perform t s.console).2 })
  limit := .int 2
  worker := id
  state := ⟨.empty, {}, .empty, (), ⟨.initial .buffer, .none, ()⟩⟩
  nextUnit := n

namespace Evaluator

variable (answer : CompileRequest → Option (Compilation Fault (Script Produced Thrown))) (n : Nat)

theorem scripted_ready : (scripted answer n).Ready where
  console := Console.initial_sound _
  unguarded _ _ := rfl
  workers _ _ h := h

theorem scripted_steady : (scripted answer n).pipeline.Steady fun r _ => answer r := by
  intro u ps s
  simp only [scripted, Pipeline.ofRun]
  cases h : answer _ with
  | none => exact .inl rfl
  | some c => exact ⟨rfl, rfl⟩

theorem scripted_harmless (k : Nat) (c : Call) :
    HarmlessCall (scripted answer n).pipeline (fun r _ => answer r) (fun _ script => script) k c :=
  fun _ _ _ script _ _ _ t s _ => ⟨script.perform_performed t s.console, rfl⟩

theorem scripted_harmlessCalls (k : Nat) (calls : List Call) :
    HarmlessCalls (scripted answer n).pipeline (fun r _ => answer r) (fun _ script => script) k calls := by
  induction calls generalizing k with
  | nil => trivial
  | cons c calls ih => exact ⟨scripted_harmless answer n k c, ih (k + 1)⟩

/-- Snippets that hang the toolchain, are refused, print and loop, or print and return. -/
def signs (r : CompileRequest) : Option (Compilation Fault (Script Produced Thrown)) :=
  if r.source.contains '~' then none
  else if r.source.contains '?' then some ⟨[.plain .error "refused"], .refused⟩
  else if r.source.contains '*' then some ⟨[], .produced (.prints ['*'] .loops)⟩
  else some ⟨[], .produced (.prints ['o', 'k'] (.returns default))⟩

/-- Calls of which one never comes back, one is refused, and one loops. -/
def restless : List Call := [⟨[], ['~'], none⟩, ⟨[], ['?'], none⟩, ⟨[], ['*'], none⟩]

end Evaluator

end Evalbox
