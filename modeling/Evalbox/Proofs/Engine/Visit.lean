import Evalbox.Proofs.Compile.Progress
import Evalbox.Proofs.Engine.Isolation

/-!
# What a call does to its target

A call puts a target in place and works with it: its worker brings the target to a point of a compilation, and the
caller taints the target if it gives up the wait. Whatever the toolchain does, and also if the wait is given up
somewhere else, the call `Lands` in this way.
-/

namespace Evalbox

/-- The wait for the worker was given up. -/
def Outcome.isTimeout : Outcome → Bool
  | timeout => true
  | _ => false

theorem Outcome.isTimeout_iff {o : Outcome} : o.isTimeout = true ↔ o = .timeout := by
  cases o <;> simp [isTimeout]

/-- A call, as its target sees it: the number of this target, the outcome, and how far the worker has come with
the unit by now. There is no worker if the snippet could not be wrapped. -/
structure Visit (κ : Type) where
  target : Nat
  outcome : Outcome
  work : Option (SnippetUnit × Progress κ)

namespace Visit

variable {κ : Type} (v : Visit κ)

/-- What does not change about a call any more. -/
def seen : Nat × Outcome := (v.target, v.outcome)

/-- The call has reached the compile stage. -/
def begun : Bool := v.work.any (·.2.begun)

/-- The toolchain has come back without raising. -/
def cameBack : Bool := v.work.any (·.2.cameBack)

/-- The toolchain may still come back. -/
def pending : Bool := v.work.any (·.2.pending)

/-- What the worker has put into its target. -/
def holding : List (String × SnippetUnit × κ) := (v.work.map fun w => w.2.holding w.1).getD []

/-- The call went to a target, and its toolchain has come back. -/
def countsOn (k : Nat) : Bool := v.target = k && v.cameBack

/-- The call went to a target, and its toolchain has come back or may still do so. -/
def mayCountOn (k : Nat) : Bool := v.target = k && (v.cameBack || v.pending)

/-- The call went to a target, and reached the compile stage. -/
def begunOn (k : Nat) : Bool := v.target = k && v.begun

variable {v} {u : SnippetUnit} {p : Progress κ} (k : Nat)

theorem countsOn_work (h : v.work = some (u, p)) : v.countsOn k = (decide (v.target = k) && p.cameBack) := by
  simp [countsOn, cameBack, h]

theorem mayCountOn_work (h : v.work = some (u, p)) :
    v.mayCountOn k = (decide (v.target = k) && (p.cameBack || p.pending)) := by
  simp [mayCountOn, cameBack, pending, h]

theorem begunOn_work (h : v.work = some (u, p)) : v.begunOn k = (decide (v.target = k) && p.begun) := by
  simp [begunOn, begun, h]

end Visit

/-- The target behind a call with this work. -/
def CompileTarget.worked {κ : Type} (t : CompileTarget κ) (work : Option (SnippetUnit × Progress κ)) :
    CompileTarget κ :=
  (work.map fun w => t.visited w.1 w.2).getD t

namespace CompileTarget

variable {κ : Type} (t : CompileTarget κ) (work : Option (SnippetUnit × Progress κ))

theorem worked_compiled :
    (t.worked work).compiled = t.compiled + if work.any (·.2.cameBack) then 1 else 0 := by
  cases work with
  | none => rfl
  | some w => exact t.visited_compiled w.1 w.2

theorem worked_artifacts (k : Nat) (o : Outcome) :
    (t.worked work).artifacts =
      if (Visit.mk k o work).begun then (Visit.mk k o work).holding else t.artifacts := by
  cases work with
  | none => rfl
  | some w => exact t.visited_artifacts w.1 w.2

end CompileTarget

/-- Work is not answered by giving up the wait for it. -/
theorem Pipeline.work_ne_timeout {σ τ π ω κ : Type} [BEq τ] (p : Pipeline σ τ π ω κ) (id : String) (t : τ)
    (u : SnippetUnit) (resultType : Option String) (s : PipelineState σ τ π ω κ) :
    (p.work id t u resultType s).1 ≠ .outcome .timeout := by
  intro h
  obtain ⟨-, ⟨e, ho⟩ | ⟨v, output, ho, -⟩⟩ := work_ran id resultType h (by simp)
  · cases ho
  · cases ho

namespace Evaluator

section Target

variable {σ τ π ω κ : Type} {M : Nat}

/-- The caller taints the target exactly if it gives up the wait. -/
theorem settle_target (e : Evaluator σ τ π ω κ) {w : WorkEnd} (hw : w ≠ .outcome .timeout) :
    (e.settle w).2.state.target =
      { e.state.target with tainted := (e.settle w).1.isTimeout || e.state.target.tainted } := by
  cases w with
  | outcome o =>
    cases o with
    | timeout => exact absurd rfl hw
    | _ => rfl
  | raised f =>
    simp only [settle, Future.settle]
    cases f.isCancellation with
    | true => rfl
    | false =>
      simp only [Bool.false_eq_true, if_false, Future.await]
      cases Future.looksExpired f <;> rfl
  | stopped => rfl
  | endless => rfl

/-- The target is replaced after a call that was given up, and where its count has reached the limit. -/
theorem mustRotate_of_reached {e : Evaluator σ τ π ω κ}
    (h : ∀ count, e.limit.reachedBy count = .ok (decide (M ≤ count))) :
    e.mustRotate = .ok (e.state.target.tainted || decide (M ≤ e.state.target.compiled)) := by
  simp only [mustRotate, h]
  cases e.state.target.tainted <;> rfl

theorem mustRotate_eq {e : Evaluator σ τ π ω κ} (hl : e.limit = .int M) :
    e.mustRotate = .ok (e.state.target.tainted || decide (M ≤ e.state.target.compiled)) :=
  mustRotate_of_reached fun count => by simp [hl, Datum.reachedBy]

/-- The evaluator with the target that its next call works with. -/
def inPlace (e : Evaluator σ τ π ω κ) : Evaluator σ τ π ω κ :=
  match e.mustRotate with
  | .ok true => e.rotate.2
  | _ => e

theorem inPlace_alike (e : Evaluator σ τ π ω κ) : e.Alike e.inPlace := by
  unfold inPlace
  split
  · exact e.rotate_alike
  · exact ⟨rfl, rfl, rfl, rfl, rfl⟩

/-- The evaluator behind a call with the target in place that was given up when its worker had come to a point. -/
def giveUp (e : Evaluator σ τ π ω κ) (u : SnippetUnit) (p : Progress κ) : Evaluator σ τ π ω κ :=
  { e with state := { e.state with target := e.state.target.visited u p }, nextUnit := e.nextUnit + 1 }.taint

/-- What a call with the target in place does to the evaluator, as far as targets are concerned. -/
structure Lands (e e' : Evaluator σ τ π ω κ) (outcome : Outcome) (work : Option (SnippetUnit × Progress κ)) :
    Prop where
  limit : e'.limit = e.limit
  target : e'.state.target =
    { e.state.target.worked work with tainted := outcome.isTimeout || e.state.target.tainted }
  /-- Nobody waits for a toolchain that may still come back. -/
  given_up : ∀ u p, work = some (u, p) → p.pending = true → outcome.isTimeout = true

theorem giveUp_lands (e : Evaluator σ τ π ω κ) (u : SnippetUnit) (p : Progress κ) :
    e.Lands (e.giveUp u p) .timeout (some (u, p)) := ⟨rfl, rfl, fun _ _ _ _ => rfl⟩

end Target

variable {σ τ π ω κ : Type} [BEq τ] {e : Evaluator σ τ π ω κ} {c : Call} {M : Nat}

/-- The unit of a call with the target in place, and how far its worker comes. -/
def workOf (e : Evaluator σ τ π ω κ) (c : Call) : Option (SnippetUnit × Progress κ) :=
  match wrap c.prelude c.code (unitName e.nextUnit) with
  | .error _ => none
  | .ok u => some (u, .ofCalled (e.pipeline.called (e.worker e.nextUnit) u e.state))

theorem evaluateHere_lands (e : Evaluator σ τ π ω κ) (c : Call) :
    e.Lands (e.evaluateHere c.prelude c.code c.resultType).2 (e.evaluateHere c.prelude c.code c.resultType).1
      (e.workOf c) := by
  unfold evaluateHere workOf
  cases wrap c.prelude c.code (unitName e.nextUnit) with
  | error f => exact ⟨rfl, rfl, fun u p h => by cases h⟩
  | ok u =>
    have hne := e.pipeline.work_ne_timeout targetId (e.worker e.nextUnit) u c.resultType e.state
    have ht := e.pipeline.work_target targetId (e.worker e.nextUnit) u c.resultType e.state
    constructor
    case limit => exact (settle_alike _ _).limit
    case target =>
      simp only [settle_target _ hne, ht]
      simp [CompileTarget.worked]
    case given_up =>
      rintro _ _ ⟨⟩ hp
      -- only a toolchain that does not come back leaves a worker that may still get on
      cases h : e.pipeline.called (e.worker e.nextUnit) u e.state with
      | none =>
        simp only [Pipeline.work_hung targetId c.resultType h]
        rfl
      | some r =>
        rw [h] at hp
        cases r <;> cases hp

/-- A call is refused by its limit, which is no number then, or it works with the target that is put in place. -/
theorem perform_cases (e : Evaluator σ τ π ω κ) (c : Call) :
    (∃ f, e.mustRotate = .error f ∧ e.perform c = (.internalFailure f, e)) ∨
      (∃ full, e.mustRotate = .ok full) ∧ e.perform c = e.inPlace.evaluateHere c.prelude c.code c.resultType := by
  unfold perform evaluate inPlace
  cases e.mustRotate with
  | error f => exact .inl ⟨f, rfl, rfl⟩
  | ok full => cases full <;> exact .inr ⟨⟨_, rfl⟩, rfl⟩

/-- A call is not refused where counts can be compared with the limit. -/
theorem perform_of_reached (h : ∀ count, e.limit.reachedBy count = .ok (decide (M ≤ count))) :
    e.perform c = e.inPlace.evaluateHere c.prelude c.code c.resultType := by
  rcases e.perform_cases c with ⟨f, hf, -⟩ | ⟨-, he⟩
  · cases (mustRotate_of_reached h).symm.trans hf
  · exact he

/-- Numbers can be compared. -/
theorem evaluate_eq (hl : e.limit = .int M) :
    e.perform c = e.inPlace.evaluateHere c.prelude c.code c.resultType :=
  perform_of_reached (M := M) fun count => by simp [hl, Datum.reachedBy]

theorem evaluate_replaced (hl : e.limit = .int M) :
    (e.evaluate c.prelude c.code c.resultType).1.replaced.isSome = true ↔
      e.state.target.tainted = true ∨ M ≤ e.state.target.compiled := by
  rw [← decide_eq_true_iff (p := M ≤ e.state.target.compiled), ← Bool.or_eq_true]
  simp only [evaluate, mustRotate_eq hl]
  cases e.state.target.tainted || decide (M ≤ e.state.target.compiled) <;> simp

end Evaluator

end Evalbox
