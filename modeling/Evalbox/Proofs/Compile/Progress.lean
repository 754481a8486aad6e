import Evalbox.Proofs.Engine.Classification

/-!
# How far a compilation has come

A worker that was given up may stand anywhere in the compilation of its unit, and may get on from there at any
time. `Progress` names the points behind which its target has changed, and `CompileTarget.arrive` says how. A
compilation that comes to its end passes the points of its `Progress.path`.
-/

namespace Evalbox

/-- How far a worker has come with the compilation of its unit. -/
inductive Progress (κ : Type) where
  /-- it has not begun -/
  | waiting
  /-- it has emptied the target, and the toolchain is at work -/
  | asking
  /-- the toolchain has raised -/
  | raised
  /-- the toolchain has come back otherwise, which the target has counted -/
  | counted
  /-- the code that was produced is stored -/
  | stored (code : κ)

namespace Progress

variable {κ : Type}

/-- A worker gets from one point to the next. -/
inductive Next : Progress κ → Progress κ → Prop
  | begins : Next .waiting .asking
  | raises : Next .asking .raised
  | returns : Next .asking .counted
  | stores (code : κ) : Next .counted (.stored code)

/-- The compilation has begun. -/
def begun : Progress κ → Bool
  | .waiting => false
  | _ => true

/-- The toolchain has come back without raising. -/
def cameBack : Progress κ → Bool
  | .counted | .stored _ => true
  | _ => false

/-- The toolchain may still come back. -/
def pending : Progress κ → Bool
  | .waiting | .asking => true
  | _ => false

/-- What a worker at this point has put into its target. -/
def holding (u : SnippetUnit) : Progress κ → List (String × SnippetUnit × κ)
  | .stored code => [(u.name, u, code)]
  | _ => []

/-- The points up to a point. -/
def path : Progress κ → List (Progress κ)
  | .waiting => []
  | .asking => [.asking]
  | .raised => [.asking, .raised]
  | .counted => [.asking, .counted]
  | .stored code => [.asking, .counted, .stored code]

/-- How far a worker comes whose toolchain ends in this way; none if it never comes back. -/
def ofCalled {ε : Type} : Option (CompileEnd ε κ) → Progress κ
  | none => .asking
  | some (.raised _) => .raised
  | some .refused => .counted
  | some (.produced code) => .stored code

variable {p q : Progress κ}

theorem Next.path_eq (h : Next p q) : q.path = p.path ++ [q] := by
  cases h <;> rfl

theorem Next.begun (h : Next p q) : q.begun = true := by
  cases h <;> rfl

/-- Whoever has come back, or may still come back, might have done so before. -/
theorem Next.possible (h : Next p q) (hq : q.cameBack = true ∨ q.pending = true) :
    p.cameBack = true ∨ p.pending = true := by
  cases h with
  | begins => exact .inr rfl
  | raises => exact .inr rfl
  | returns => exact .inr rfl
  | stores code => exact .inl rfl

end Progress

namespace CompileTarget

variable {κ : Type}

/-- What happens to the target of a worker that arrives at a point. -/
def arrive (u : SnippetUnit) (t : CompileTarget κ) : Progress κ → CompileTarget κ
  | .waiting | .raised => t
  | .asking => t.clear
  | .counted => { t with compiled := t.compiled + 1 }
  | .stored code => t.store u code

/-- The target behind a worker that has come to a point. -/
def visited (t : CompileTarget κ) (u : SnippetUnit) (p : Progress κ) : CompileTarget κ := p.path.foldl (arrive u) t

variable (t : CompileTarget κ) (u : SnippetUnit) (p : Progress κ)

/-- Getting to a point and on to the next one is getting to that one. -/
theorem visited_next {q : Progress κ} (h : p.Next q) : t.visited u q = (t.visited u p).arrive u q := by
  rw [visited, h.path_eq, List.foldl_append]
  rfl

@[simp] theorem visited_compiled : (t.visited u p).compiled = t.compiled + if p.cameBack then 1 else 0 := by
  cases p <;> rfl

@[simp] theorem visited_artifacts :
    (t.visited u p).artifacts = if p.begun then p.holding u else t.artifacts := by
  cases p <;> rfl

@[simp] theorem visited_tainted : (t.visited u p).tainted = t.tainted := by
  cases p <;> rfl

variable {p}

@[simp] theorem arrive_tainted : (t.arrive u p).tainted = t.tainted := by
  cases p <;> rfl

/-- The target counts that a toolchain has come back. -/
theorem arrive_compiled {q : Progress κ} (h : p.Next q) :
    (t.arrive u q).compiled + (if p.cameBack then 1 else 0) = t.compiled + if q.cameBack then 1 else 0 := by
  cases h <;> rfl

/-- A target that holds nothing but what its worker put there, or less, goes on so. -/
theorem arrive_artifacts {q : Progress κ} (h : p.Next q) (hp : p.begun = true → t.artifacts = [] ∨ t.artifacts = p.holding u) :
    (t.arrive u q).artifacts = [] ∨ (t.arrive u q).artifacts = q.holding u := by
  cases h with
  | begins => exact .inl rfl
  | raises => exact hp rfl
  | returns => exact hp rfl
  | stores code =>
    have ht : t.artifacts = [] := (hp rfl).elim id id
    right
    simp [arrive, store, ht, Progress.holding]

end CompileTarget

namespace CompileStage

variable {σ π ε κ : Type} (stage : CompileStage σ π ε κ) (u : SnippetUnit) (s : CompileState σ π κ)

/-- A compilation whose toolchain never comes back leaves its target at that point. -/
theorem ask_target : (stage.ask u s).2.target = s.target.visited u .asking := rfl

/-- A compilation brings its target to the point that belongs to the end of its toolchain. -/
theorem compile_target :
    (stage.compile u s).2.target = s.target.visited u (.ofCalled (some (stage.call u s).1.result)) := by
  simp only [compile, ask, CompileState.reset, CompileTarget.clearWith, call]
  split <;> rename_i h <;> rw [h] <;> rfl

end CompileStage

/-- The work on a unit brings the target to the point that belongs to the end of the toolchain. -/
theorem Pipeline.work_target {σ τ π ω κ : Type} [BEq τ] (p : Pipeline σ τ π ω κ) (id : String) (t : τ)
    (u : SnippetUnit) (resultType : Option String) (s : PipelineState σ τ π ω κ) :
    (p.work id t u resultType s).2.target = s.target.visited u (.ofCalled (p.called t u s)) := by
  cases h : p.called t u s with
  | none =>
    rw [work_hung id resultType h]
    exact p.compile.ask_target u (s.toCompile t)
  | some r =>
    obtain ⟨hb, rfl⟩ := called_eq_some.mp h
    have hc : (p.compiled t u s).target = s.target.visited u (.ofCalled (some (p.compilation t u s).result)) :=
      p.compile.compile_target u (s.toCompile t)
    rw [work_back id resultType hb, ← hc]
    split
    · rfl
    · split <;> rfl

end Evalbox
