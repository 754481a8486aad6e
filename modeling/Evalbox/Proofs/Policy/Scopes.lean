import Evalbox.Policy.Audit
import Evalbox.Policy.Import
import Evalbox.Proofs.Lookup
import Mathlib.Logic.Function.Basic

/-!
# Scopes of many threads

Threads open scopes of gates and leave them innermost first, behind bodies that returned or raised; the steps of
different threads come in any order. In every state that can be reached, the policies that guard a thread are
those of its open scopes of enabled gates. So the innermost of these decides, and nothing is left of a scope that
was left: the guards of a thread are changed by this thread alone (`Guards.of_set_other`), and leaving gives back what
was there before (`Gate.leave_enter`).
-/

namespace Evalbox

namespace Gate

variable {π : Type}

theorem leave_enter (g : Gate π) (ps : List π) : g.leave (g.enter ps) = ps := by
  cases h : g.enabled <;> simp [leave, enter, h]

/-- The policies of the enabled ones among gates. -/
def policies (gates : List (Gate π)) : List π := (gates.filter (·.enabled)).map (·.policy)

theorem enter_policies (g : Gate π) (gates : List (Gate π)) : g.enter (policies gates) = policies (g :: gates) := by
  cases h : g.enabled <;> simp [enter, policies, h]

theorem leave_policies (g : Gate π) (gates : List (Gate π)) : g.leave (policies (g :: gates)) = policies gates := by
  rw [← enter_policies, leave_enter]

theorem head?_policies (gates : List (Gate π)) :
    (policies gates).head? = (gates.find? (·.enabled)).map (·.policy) := by
  rw [policies, List.head?_map, List.head?_filter]

end Gate

namespace Guards

variable {τ π : Type} [BEq τ] [LawfulBEq τ] (g : Guards τ π) (gate : Gate π) {t t' : τ} (ps : List π)

theorem of_set_self (t : τ) : (g.set t ps).of t = ps := by
  simp [of, set]

theorem of_set_other (h : t' ≠ t) : (g.set t ps).of t' = g.of t' := by
  simp only [of, set, List.lookup_cons, beq_false_of_ne h, lookup_filter_bne_of_ne h]

theorem of_enter_self (t : τ) : (g.enter t gate).of t = gate.enter (g.of t) := of_set_self ..

theorem of_enter_other (h : t' ≠ t) : (g.enter t gate).of t' = g.of t' := of_set_other _ _ h

theorem of_leave_self (t : τ) : (g.leave t gate).of t = gate.leave (g.of t) := of_set_self ..

theorem of_leave_other (h : t' ≠ t) : (g.leave t gate).of t' = g.of t' := of_set_other _ _ h

end Guards

/-- The guards of all threads, and the gates of which each thread has a scope open, innermost first. -/
structure Scoping (τ π : Type) where
  guards : Guards τ π
  opened : τ → List (Gate π)

/-- What a thread does about scopes. A scope that is left answers how the block or the call ends of which it was
the scope. -/
inductive ScopeEvent (π ε α : Type) where
  | entered (gate : Gate π)
  | left (body answer : Except ε α)

namespace Scoping

variable {τ π ε α : Type} [DecidableEq τ]

/-- No thread is in a scope. -/
def start : Scoping τ π := ⟨.none, fun _ => []⟩

/-- A step of a thread. The body of a scope may end in any way while the scope is the innermost one. -/
inductive Step : Scoping τ π → τ → ScopeEvent π ε α → Scoping τ π → Prop
  | enter (s : Scoping τ π) (t : τ) (gate : Gate π) :
    Step s t (.entered gate) ⟨s.guards.enter t gate, Function.update s.opened t (gate :: s.opened t)⟩
  | leave {s : Scoping τ π} {t : τ} {gate : Gate π} {rest : List (Gate π)} (h : s.opened t = gate :: rest)
      (body : Except ε α) :
    Step s t (.left body (s.guards.exit t gate body).1)
      ⟨(s.guards.exit t gate body).2, Function.update s.opened t rest⟩

/-- What comes of steps of threads, in any order. -/
inductive Reachable (ε α : Type) : Scoping τ π → Prop
  | start : Reachable ε α start
  | step {s s' : Scoping τ π} {t : τ} {e : ScopeEvent π ε α} :
    Reachable ε α s → Step s t e s' → Reachable ε α s'

/-- Every thread is guarded by the policies of its open scopes. -/
def Matched (s : Scoping τ π) : Prop := ∀ t, s.guards.of t = Gate.policies (s.opened t)

/-- What a step does to the guards: its own thread alone is guarded in another way. -/
theorem Step.guards_of_other {s s' : Scoping τ π} {t t' : τ} {e : ScopeEvent π ε α} (h : Step s t e s')
    (hne : t' ≠ t) : s'.guards.of t' = s.guards.of t' := by
  cases h with
  | enter gate => exact s.guards.of_enter_other gate hne
  | leave => exact s.guards.of_leave_other _ hne

theorem Step.opened_other {s s' : Scoping τ π} {t t' : τ} {e : ScopeEvent π ε α} (h : Step s t e s')
    (hne : t' ≠ t) : s'.opened t' = s.opened t' := by
  cases h with
  | enter gate => exact Function.update_of_ne hne ..
  | leave => exact Function.update_of_ne hne ..

theorem Matched.step {s s' : Scoping τ π} {t : τ} {e : ScopeEvent π ε α} (hm : s.Matched) (h : Step s t e s') :
    s'.Matched := by
  intro t'
  by_cases ht : t' = t
  · subst t'
    cases h with
    | enter gate =>
      change (s.guards.enter t gate).of t = Gate.policies (Function.update s.opened t (gate :: s.opened t) t)
      rw [Function.update_self, Guards.of_enter_self, hm t, Gate.enter_policies]
    | @leave gate rest ho body =>
      change (s.guards.leave t gate).of t = Gate.policies (Function.update s.opened t rest t)
      rw [Function.update_self, Guards.of_leave_self, hm t, ho, Gate.leave_policies]
  · rw [h.guards_of_other ht, h.opened_other ht, hm t']

theorem Reachable.matched {s : Scoping τ π} (h : Reachable ε α s) : s.Matched := by
  induction h with
  | start => exact fun _ => rfl
  | step _ hs ih => exact ih.step hs

/-- What holds of scopes at every moment. -/
structure Disciplined (ε α : Type) (s : Scoping τ Policy) : Prop where
  /-- The innermost open scope of an enabled gate decides which policy is active. -/
  innermost : ∀ t, s.guards.active t = ((s.opened t).find? (·.enabled)).map (·.policy)
  /-- A step of a thread leaves the active policies of the other threads as they are. -/
  apart : ∀ t t' (e : ScopeEvent Policy ε α) s', Step s t e s' → t' ≠ t → s'.guards.active t' = s.guards.active t'
  /-- What a body raised leaves the scope, and what it returned is returned. -/
  passed : ∀ t (body answer : Except ε α) s', Step s t (.left body answer) s' → answer = body
  /-- A body that is run in a scope ends as it does by itself, and its thread is guarded as before. -/
  ran : ∀ t gate (body : Guards τ Policy → Except ε α × Guards τ Policy), (∀ g, (body g).2.of t = g.of t) →
    (s.guards.run t gate body).1 = (body (s.guards.enter t gate)).1 ∧
      (s.guards.run t gate body).2.of t = s.guards.of t
  /-- Where no scope is open every operation passes. -/
  lifted : ∀ t, s.opened t = [] → s.guards.active t = none ∧
    ∀ operation, Policy.auditFault (s.guards.active t) operation = none

/-- Whatever threads do about scopes, in any order. -/
theorem reachable_disciplined {s : Scoping τ Policy} (h : Reachable ε α s) : s.Disciplined ε α := by
  have hactive : ∀ t, s.guards.active t = ((s.opened t).find? (·.enabled)).map (·.policy) := fun t => by
    rw [Guards.active, h.matched t, Gate.head?_policies]
  constructor
  case innermost => exact hactive
  case apart =>
    intro t t' e s' hs hne
    rw [Guards.active, hs.guards_of_other hne, Guards.active]
  case passed =>
    intro t body answer s' hs
    cases hs with
    | leave => rfl
  case ran =>
    intro t gate body hb
    refine ⟨rfl, ?_⟩
    change ((body (s.guards.enter t gate)).2.leave t gate).of t = s.guards.of t
    rw [Guards.of_leave_self, hb, Guards.of_enter_self, Gate.leave_enter]
  case lifted =>
    intro t ho
    have hn : s.guards.active t = none := by rw [hactive t, ho]; rfl
    exact ⟨hn, fun operation => by rw [hn]; rfl⟩

/-- Of two threads the first one is in a guarded scope and has just left an unguarded one by an exception; the
second one opened and left a scope meanwhile. -/
theorem crossing_disciplined : ∃ s : Scoping Nat Policy, Reachable String Nat s ∧
    s.guards.active 0 = some Policy.default ∧ s.guards.active 1 = none ∧ s.Disciplined String Nat := by
  let guarded : Gate Policy := ⟨true, .default⟩
  let unguarded : Gate Policy := ⟨false, .ofMissingFile⟩
  let other : Gate Policy := ⟨true, .ofMissingFile⟩
  have h₁ : Reachable String Nat _ := .step .start (.enter _ 0 guarded)
  have h₂ := h₁.step (.enter _ 1 other)
  have h₃ := h₂.step (.enter _ 0 unguarded)
  have h₄ := h₃.step (.leave (t := 0) (show _ = unguarded :: [guarded] from rfl) (.error "stopped"))
  have h₅ := h₄.step (.leave (t := 1) (show _ = other :: [] from rfl) (.ok 1))
  exact ⟨_, h₅, rfl, rfl, reachable_disciplined h₅⟩

end Scoping

end Evalbox
