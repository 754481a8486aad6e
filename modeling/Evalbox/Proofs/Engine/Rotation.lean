import Evalbox.Proofs.Engine.Visit
import Mathlib.Logic.Function.Basic

/-!
# Rotation of targets over whole runs

The target counts compilations while a worker compiles, the evaluator notes behind the wait that the worker was
given up, and the next call decides. A `Session` is an evaluator together with the targets that it replaced and with
the calls that it has taken. Workers that were given up go on in it whenever they like, on the targets that they
were given.
-/

namespace Evalbox

/-- An evaluator with the number of its target, the targets that it has replaced, and its calls, the latest
first. -/
structure Session (σ τ π ω κ : Type) where
  evaluator : Evaluator σ τ π ω κ
  number : Nat
  retired : Nat → CompileTarget κ
  visits : List (Visit κ)

namespace Session

variable {σ τ π ω κ : Type}

/-- A new session. -/
def new (e : Evaluator σ τ π ω κ) : Session σ τ π ω κ := ⟨e, 0, fun _ => .empty, []⟩

/-- The target with a number. -/
def target (s : Session σ τ π ω κ) (k : Nat) : CompileTarget κ :=
  if k = s.number then s.evaluator.state.target else s.retired k

def setTarget (s : Session σ τ π ω κ) (k : Nat) (t : CompileTarget κ) : Session σ τ π ω κ :=
  if k = s.number then
    { s with evaluator := { s.evaluator with state := { s.evaluator.state with target := t } } }
  else { s with retired := Function.update s.retired k t }

/-- The previous call on the current target. -/
def previous (s : Session σ τ π ω κ) : Option (Visit κ) := s.visits.find? (·.target = s.number)

/-- The session in which the target for the next call is in place. -/
def prepared (s : Session σ τ π ω κ) : Session σ τ π ω κ :=
  match s.evaluator.mustRotate with
  | .ok true =>
    ⟨s.evaluator.rotate.2, s.number + 1, Function.update s.retired s.number s.evaluator.rotate.1, s.visits⟩
  | _ => s

/-- Note a call on the target in place. -/
def visit (s : Session σ τ π ω κ) (e : Evaluator σ τ π ω κ) (o : Outcome)
    (work : Option (SnippetUnit × Progress κ)) : Session σ τ π ω κ :=
  { s with evaluator := e, visits := ⟨s.number, o, work⟩ :: s.visits }

/-- The worker of a call gets to a point, on its own target. -/
def getOn (s : Session σ τ π ω κ) (newer : List (Visit κ)) (v : Visit κ) (older : List (Visit κ)) (u : SnippetUnit)
    (p : Progress κ) : Session σ τ π ω κ :=
  { s.setTarget v.target ((s.target v.target).arrive u p) with
    visits := newer ++ { v with work := some (u, p) } :: older }

/-- Everything but the targets is changed, by workers that were given up. -/
def stirred (s : Session σ τ π ω κ) (left : PipelineState σ τ π ω κ) : Session σ τ π ω κ :=
  { s with evaluator :=
      { s.evaluator with state := { left with target := s.evaluator.state.target } } }

/-- What every step keeps. `room` also counts the workers that may still come back: no other call goes to the
target of such a worker, so that its compilation has room on the target already. -/
structure Kept (M : Nat) (s : Session σ τ π ω κ) : Prop where
  limit : s.evaluator.limit = .int M
  recent : ∀ v ∈ s.visits, v.target ≤ s.number
  /-- Later calls go to the same target or a later one; behind a timeout it is a later one. -/
  ordered : s.visits.Pairwise fun w v =>
    v.target ≤ w.target ∧ (v.outcome.isTimeout = true → v.target < w.target)
  tainted : s.evaluator.state.target.tainted = true ↔
    ∃ v ∈ s.visits, v.target = s.number ∧ v.outcome.isTimeout = true
  given_up : ∀ v ∈ s.visits, v.pending = true → v.outcome.isTimeout = true
  counted : ∀ k, (s.target k).compiled = s.visits.countP (·.countsOn k)
  room : ∀ k, s.visits.countP (·.mayCountOn k) ≤ M
  holds : ∀ k, (s.target k).artifacts = [] ∨
    ∃ v, s.visits.find? (·.begunOn k) = some v ∧ (s.target k).artifacts = v.holding

variable {s : Session σ τ π ω κ} {M : Nat}

theorem target_visit (e : Evaluator σ τ π ω κ) (o : Outcome) (work : Option (SnippetUnit × Progress κ))
    (k : Nat) : (s.visit e o work).target k = if k = s.number then e.state.target else s.target k := by
  by_cases hk : k = s.number <;> simp [target, visit, hk]

theorem target_setTarget (k j : Nat) (t : CompileTarget κ) :
    (s.setTarget k t).target j = if j = k then t else s.target j := by
  unfold setTarget
  by_cases hk : k = s.number
  · subst hk
    by_cases hj : j = s.number <;> simp [target, hj]
  · by_cases hj : j = k
    · subst hj
      simp [target, hk]
    · simp [target, hk, hj]

theorem target_self : s.target s.number = s.evaluator.state.target := if_pos rfl

theorem target_getOn (newer : List (Visit κ)) (v : Visit κ) (older : List (Visit κ)) (u : SnippetUnit)
    (p : Progress κ) (k : Nat) : (s.getOn newer v older u p).target k =
      if k = v.target then (s.target v.target).arrive u p else s.target k :=
  target_setTarget v.target k ((s.target v.target).arrive u p)

theorem getOn_number (newer : List (Visit κ)) (v : Visit κ) (older : List (Visit κ)) (u : SnippetUnit)
    (p : Progress κ) : (s.getOn newer v older u p).number = s.number := by
  unfold getOn setTarget
  split <;> rfl

theorem getOn_limit (newer : List (Visit κ)) (v : Visit κ) (older : List (Visit κ)) (u : SnippetUnit)
    (p : Progress κ) : (s.getOn newer v older u p).evaluator.limit = s.evaluator.limit := by
  unfold getOn setTarget
  split <;> rfl

theorem prepared_eq (hl : s.evaluator.limit = .int M) : s.prepared =
    if s.evaluator.state.target.tainted = true ∨ M ≤ s.evaluator.state.target.compiled then
      ⟨s.evaluator.rotate.2, s.number + 1, Function.update s.retired s.number s.evaluator.rotate.1, s.visits⟩
    else s := by
  simp only [prepared, Evaluator.mustRotate_eq hl]
  by_cases h : s.evaluator.state.target.tainted = true ∨ M ≤ s.evaluator.state.target.compiled
  · rw [if_pos h, (by simpa using h : (s.evaluator.state.target.tainted ||
      decide (M ≤ s.evaluator.state.target.compiled)) = true)]
  · rw [if_neg h, (by simpa using h : (s.evaluator.state.target.tainted ||
      decide (M ≤ s.evaluator.state.target.compiled)) = false)]

theorem prepared_evaluator : s.prepared.evaluator = s.evaluator.inPlace := by
  unfold prepared Evaluator.inPlace
  cases s.evaluator.mustRotate with
  | error f => rfl
  | ok full => cases full <;> rfl

namespace Kept

theorem start {e : Evaluator σ τ π ω κ} (hl : e.limit = .int M) (ht : e.state.target = .empty) :
    (new e).Kept M := by
  have hk (k : Nat) : (new e).target k = .empty := by
    simp only [target, new, ht, ite_self]
  constructor
  case limit => exact hl
  case recent => exact fun v hv => by cases hv
  case ordered => exact .nil
  case tainted => simp [new, ht, CompileTarget.empty]
  case given_up => exact fun v hv => by cases hv
  case counted => exact fun k => by rw [hk]; rfl
  case room => exact fun k => Nat.zero_le M
  case holds => exact fun k => .inl (by rw [hk]; rfl)

/-- With an untainted target in place, no call on it was given up. -/
theorem in_time (h : s.Kept M) (ht : s.evaluator.state.target.tainted = false) {v : Visit κ} (hv : v ∈ s.visits)
    (hn : v.target = s.number) : v.outcome.isTimeout = false := by
  rw [← Bool.not_eq_true]
  intro ho
  rw [h.tainted.mpr ⟨v, hv, hn, ho⟩] at ht
  cases ht

/-- Then whatever may count on it has counted already. -/
theorem room_eq (h : s.Kept M) (ht : s.evaluator.state.target.tainted = false) :
    s.visits.countP (·.mayCountOn s.number) = s.evaluator.state.target.compiled := by
  have hc := h.counted s.number
  rw [target_self] at hc
  rw [hc]
  apply List.countP_congr
  intro v hv
  simp only [Visit.mayCountOn, Visit.countsOn, Bool.and_eq_true, Bool.or_eq_true, decide_eq_true_eq]
  constructor
  · rintro ⟨hn, hb | hp⟩
    · exact ⟨hn, hb⟩
    · have ho := h.given_up v hv hp
      rw [h.in_time ht hv hn] at ho
      cases ho
  · rintro ⟨hn, hb⟩
    exact ⟨hn, .inl hb⟩

/-- A new target is put in place, and the old one is retired. -/
theorem replaced (h : s.Kept M) :
    Kept M ⟨s.evaluator.rotate.2, s.number + 1, Function.update s.retired s.number s.evaluator.rotate.1,
      s.visits⟩ := by
  have hnew (k : Nat) : target ⟨s.evaluator.rotate.2, s.number + 1,
      Function.update s.retired s.number s.evaluator.rotate.1, s.visits⟩ k =
        if k = s.number + 1 then .empty else if k = s.number then (s.target k).clear else s.target k := by
    by_cases hk : k = s.number + 1
    · simp only [target, hk, if_true]
      rfl
    · by_cases hj : k = s.number
      · subst hj
        simp only [target, hk, if_false, if_true, Function.update_self]
        rfl
      · simp only [target, hk, hj, if_false, Function.update_of_ne, ne_eq, not_false_iff]
  have hlater (v : Visit κ) (hv : v ∈ s.visits) : v.target ≠ s.number + 1 := fun he => by
    have := h.recent v hv
    omega
  constructor
  case limit => exact h.limit
  case recent => exact fun v hv => Nat.le_succ_of_le (h.recent v hv)
  case ordered => exact h.ordered
  case given_up => exact h.given_up
  case room => exact h.room
  case tainted =>
    constructor
    · intro ht
      cases ht
    · rintro ⟨v, hv, hn, -⟩
      exact absurd hn (hlater v hv)
  case counted =>
    intro k
    rw [hnew]
    by_cases hk : k = s.number + 1
    · rw [if_pos hk]
      symm
      rw [CompileTarget.empty, List.countP_eq_zero]
      intro v hv
      simp [Visit.countsOn, hk, hlater v hv]
    · rw [if_neg hk]
      split
      · exact h.counted k
      · exact h.counted k
  case holds =>
    intro k
    rw [hnew]
    split
    · exact .inl rfl
    · split
      · exact .inl rfl
      · exact h.holds k

/-- The target that is put in place for the next call is untainted and has room for another compilation. -/
theorem prepared (h : s.Kept M) (hM : 1 ≤ M) :
    s.prepared.Kept M ∧ s.prepared.evaluator.state.target.tainted = false ∧
      s.prepared.evaluator.state.target.compiled < M := by
  rw [prepared_eq h.limit]
  split
  · exact ⟨h.replaced, rfl, hM⟩
  · rename_i hn
    obtain ⟨ht, hc⟩ := not_or.mp hn
    exact ⟨h, Bool.not_eq_true _ ▸ ht, Nat.lt_of_not_le hc⟩

/-- A call on an untainted target that has room. -/
theorem visit (h : s.Kept M) (ht : s.evaluator.state.target.tainted = false)
    (hc : s.evaluator.state.target.compiled < M) {e : Evaluator σ τ π ω κ} {o : Outcome}
    {work : Option (SnippetUnit × Progress κ)} (hl : s.evaluator.Lands e o work) : (s.visit e o work).Kept M := by
  constructor
  case limit => exact hl.limit.trans h.limit
  case recent => exact List.forall_mem_cons.mpr ⟨Nat.le_refl _, h.recent⟩
  case ordered =>
    refine List.pairwise_cons.mpr ⟨fun v hv => ⟨h.recent v hv, fun ho => ?_⟩, h.ordered⟩
    -- the previous calls on this target came back in time
    refine Nat.lt_of_le_of_ne (h.recent v hv) fun hn => ?_
    rw [h.in_time ht hv hn] at ho
    cases ho
  case tainted =>
    change e.state.target.tainted = true ↔ _
    rw [hl.target]
    simp only [ht, Bool.or_false]
    constructor
    · exact fun ho => ⟨_, List.mem_cons_self, rfl, ho⟩
    · rintro ⟨v, hv, hn, ho⟩
      rcases List.mem_cons.mp hv with rfl | hv
      · exact ho
      · rw [h.in_time ht hv hn] at ho
        cases ho
  case given_up =>
    refine List.forall_mem_cons.mpr ⟨fun hp => ?_, h.given_up⟩
    cases work with
    | none => cases hp
    | some w => exact hl.given_up w.1 w.2 rfl hp
  case counted =>
    intro k
    rw [target_visit, Session.visit, List.countP_cons, ← h.counted k]
    by_cases hk : k = s.number
    · subst hk
      simp only [if_true, hl.target, CompileTarget.worked_compiled, target_self, Visit.countsOn, Visit.cameBack,
        decide_true, Bool.true_and]
    · simp only [hk, if_false, Visit.countsOn, Ne.symm hk, decide_false, Bool.false_and, Bool.false_eq_true,
        Nat.add_zero]
  case room =>
    intro k
    rw [Session.visit, List.countP_cons]
    by_cases hk : k = s.number
    · subst hk
      rw [h.room_eq ht]
      split <;> omega
    · simp only [Visit.mayCountOn, Ne.symm hk, decide_false, Bool.false_and, Bool.false_eq_true, if_false]
      exact h.room k
  case holds =>
    intro k
    rw [target_visit, Session.visit, List.find?_cons]
    by_cases hk : k = s.number
    · subst hk
      simp only [if_true, hl.target, CompileTarget.worked_artifacts _ _ s.number o, Visit.begunOn, decide_true,
        Bool.true_and]
      cases hb : (Visit.mk s.number o work).begun with
      | true => exact .inr ⟨_, rfl, rfl⟩
      | false =>
        have hh := h.holds s.number
        rw [target_self] at hh
        exact hh
    · simp only [hk, if_false, Visit.begunOn, Ne.symm hk, decide_false, Bool.false_and]
      exact h.holds k

/-- A worker that was given up gets on: its target is not that of any later call. -/
theorem getOn (h : s.Kept M) {newer older : List (Visit κ)} {v : Visit κ} {u : SnippetUnit} {p q : Progress κ}
    (hs : s.visits = newer ++ v :: older) (ho : v.outcome.isTimeout = true) (hw : v.work = some (u, p))
    (hn : p.Next q) : (s.getOn newer v older u q).Kept M := by
  have hlater (w : Visit κ) (hwn : w ∈ newer) : v.target < w.target := by
    obtain ⟨-, -, hacross⟩ := List.pairwise_append.mp (hs ▸ h.ordered)
    exact (hacross w hwn v List.mem_cons_self).2 ho
  have hseen : (s.getOn newer v older u q).visits.map Visit.seen = s.visits.map Visit.seen := by
    rw [hs]
    simp [Session.getOn, Visit.seen]
  have hcount (f : Visit κ → Bool) : (s.getOn newer v older u q).visits.countP f +
      (if f v then 1 else 0) = s.visits.countP f + if f { v with work := some (u, q) } then 1 else 0 := by
    rw [hs, Session.getOn, List.countP_append, List.countP_append, List.countP_cons, List.countP_cons]
    omega
  constructor
  case limit => exact (getOn_limit ..).trans h.limit
  case recent =>
    rw [getOn_number]
    have hr := List.forall_mem_map (f := Visit.seen) (P := fun x => x.1 ≤ s.number) (l := s.visits)
    rw [← hseen, List.forall_mem_map] at hr
    exact hr.mpr h.recent
  case ordered =>
    have hr := List.pairwise_map (f := Visit.seen) (l := s.visits)
      (R := fun y x => x.1 ≤ y.1 ∧ (x.2.isTimeout = true → x.1 < y.1))
    rw [← hseen, List.pairwise_map] at hr
    exact hr.mpr h.ordered
  case tainted =>
    have ht : (s.getOn newer v older u q).evaluator.state.target.tainted =
        s.evaluator.state.target.tainted := by
      rw [← target_self, getOn_number, target_getOn, ← target_self]
      split
      · rename_i hk
        rw [CompileTarget.arrive_tainted, hk]
      · rfl
    have hr (l : List (Visit κ)) : (∃ v ∈ l, v.target = s.number ∧ v.outcome.isTimeout = true) ↔
        ∃ x ∈ l.map Visit.seen, x.1 = s.number ∧ x.2.isTimeout = true := by
      simp only [List.mem_map, exists_exists_and_eq_and]
      rfl
    rw [ht, getOn_number, hr, hseen, ← hr]
    exact h.tainted
  case given_up =>
    intro w hwm hp
    rw [Session.getOn, List.mem_append, List.mem_cons] at hwm
    rcases hwm with hwm | rfl | hwm
    · exact h.given_up w (by simp [hs, hwm]) hp
    · exact ho
    · exact h.given_up w (by simp [hs, hwm]) hp
  case counted =>
    intro k
    have hk := hcount (·.countsOn k)
    rw [← h.counted k, Visit.countsOn_work k hw, Visit.countsOn_work k rfl] at hk
    rw [target_getOn]
    by_cases hv : k = v.target
    · subst hv
      have ha := (s.target v.target).arrive_compiled u hn
      simp only [if_true, decide_true, Bool.true_and] at hk ⊢
      omega
    · simpa [hv, Ne.symm hv] using hk.symm
  case room =>
    intro k
    have hk := hcount (·.mayCountOn k)
    have hm := h.room k
    rw [Visit.mayCountOn_work k hw, Visit.mayCountOn_work k rfl] at hk
    have hq : (q.cameBack || q.pending) = true → (p.cameBack || p.pending) = true := by
      simp only [Bool.or_eq_true]
      exact hn.possible
    cases hqb : (q.cameBack || q.pending) with
    | false =>
      simp only [hqb, Bool.and_false, Bool.false_eq_true, if_false] at hk
      omega
    | true =>
      rw [hqb, hq hqb] at hk
      dsimp only at hk
      omega
  case holds =>
    intro k
    have hh := h.holds k
    rw [hs, List.find?_append, List.find?_cons, Visit.begunOn_work k hw] at hh
    rw [target_getOn, Session.getOn, List.find?_append, List.find?_cons, Visit.begunOn_work k rfl, hn.begun]
    by_cases hv : k = v.target
    · subst hv
      have hnone : newer.find? (·.begunOn v.target) = none := by
        rw [List.find?_eq_none]
        intro w hwn
        simp [Visit.begunOn, Nat.ne_of_gt (hlater w hwn)]
      rw [hnone] at hh ⊢
      simp only [if_true, decide_true, Bool.true_and, Option.none_or] at hh ⊢
      have hp (hb : p.begun = true) :
          (s.target v.target).artifacts = [] ∨ (s.target v.target).artifacts = p.holding u := by
        rw [hb] at hh
        refine hh.imp_right ?_
        rintro ⟨_, ⟨⟩, ha⟩
        simpa [Visit.holding, hw] using ha
      refine ((s.target v.target).arrive_artifacts u hn hp).imp_right fun ha => ⟨_, rfl, ?_⟩
      exact ha
    · simpa [hv, Ne.symm hv] using hh

/-- The current target is tainted exactly if the previous call on it was a timeout. -/
theorem tainted_iff (h : s.Kept M) : s.evaluator.state.target.tainted = true ↔
    ∃ v, s.previous = some v ∧ v.outcome = .timeout := by
  rw [h.tainted]
  constructor
  · rintro ⟨v, hv, hn, ho⟩
    obtain ⟨w, hw⟩ : ∃ w, s.previous = some w := by
      rw [← Option.isSome_iff_exists, previous, List.find?_isSome]
      exact ⟨v, hv, decide_eq_true hn⟩
    refine ⟨w, hw, Outcome.isTimeout_iff.mp ?_⟩
    obtain ⟨hwn, newer, older, hs, hnewer⟩ := List.find?_eq_some_iff_append.mp hw
    -- no call behind the timeout can be on the same target
    rw [hs, List.mem_append, List.mem_cons] at hv
    rcases hv with hv | rfl | hv
    · exact absurd hn (by simpa using hnewer v hv)
    · exact ho
    · obtain ⟨-, hp, -⟩ := List.pairwise_append.mp (hs ▸ h.ordered)
      have hlt := ((List.pairwise_cons.mp hp).1 v hv).2 ho
      have hwn : w.target = s.number := of_decide_eq_true hwn
      omega
  · rintro ⟨v, hv, ho⟩
    have hn := List.find?_some (p := fun v : Visit κ => decide (v.target = s.number)) hv
    exact ⟨v, List.mem_of_find?_eq_some hv, of_decide_eq_true hn, Outcome.isTimeout_iff.mpr ho⟩

/-- The latest call that has begun on the current target is the latest that has begun on any. -/
theorem find?_begun (h : s.Kept M) {v : Visit κ} (hv : s.visits.find? (·.begunOn s.number) = some v) :
    s.visits.find? Visit.begun = some v := by
  obtain ⟨hb, newer, older, hs, hnewer⟩ := List.find?_eq_some_iff_append.mp hv
  obtain ⟨hn, hb⟩ : v.target = s.number ∧ v.begun = true := by simpa [Visit.begunOn] using hb
  refine List.find?_eq_some_iff_append.mpr ⟨hb, newer, older, hs, fun w hw => ?_⟩
  obtain ⟨-, -, hacross⟩ := List.pairwise_append.mp (hs ▸ h.ordered)
  have hge := (hacross w hw v List.mem_cons_self).1
  have hle := h.recent w (by simp [hs, hw])
  simpa [Visit.begunOn, show w.target = s.number by omega] using hnewer w hw

end Kept

variable [BEq τ]

/-- The session behind a call. -/
def call (s : Session σ τ π ω κ) (c : Call) : Session σ τ π ω κ :=
  s.prepared.visit (s.evaluator.perform c).2 (s.evaluator.perform c).1 (s.prepared.evaluator.workOf c)

/-- What can happen next. -/
inductive Step (s : Session σ τ π ω κ) : Session σ τ π ω κ → Prop
  | call (c : Call) : Step s (s.call c)
  /-- the wait for a worker is given up wherever the worker is -/
  | expires {u : SnippetUnit} (p : Progress κ) (c : Call) :
    wrap c.prelude c.code (unitName s.prepared.evaluator.nextUnit) = .ok u →
      Step s (s.prepared.visit (s.prepared.evaluator.giveUp u p) .timeout (some (u, p)))
  /-- a worker that was given up gets on, on its own target -/
  | late {newer older : List (Visit κ)} {v : Visit κ} {u : SnippetUnit} {p q : Progress κ} :
    s.visits = newer ++ v :: older → v.outcome.isTimeout = true → v.work = some (u, p) → p.Next q →
      Step s (s.getOn newer v older u q)
  | stirs (left : PipelineState σ τ π ω κ) : Step s (s.stirred left)

/-- What an evaluator comes to from its first call on. -/
inductive Run (e : Evaluator σ τ π ω κ) : Session σ τ π ω κ → Prop
  | start : Run e (new e)
  | step {s s' : Session σ τ π ω κ} : Run e s → Step s s' → Run e s'

theorem Kept.step {s' : Session σ τ π ω κ} (h : s.Kept M) (hM : 1 ≤ M) (hs : Step s s') : s'.Kept M := by
  obtain ⟨hp, ht, hc⟩ := h.prepared hM
  cases hs with
  | call c =>
    have hl := s.prepared.evaluator.evaluateHere_lands c
    rw [call, Evaluator.evaluate_eq h.limit, ← prepared_evaluator]
    exact hp.visit ht hc hl
  | @expires u p c _ => exact hp.visit ht hc (s.prepared.evaluator.giveUp_lands u p)
  | late hs ho hw hn => exact h.getOn hs ho hw hn
  | stirs left => exact ⟨h.limit, h.recent, h.ordered, h.tainted, h.given_up, h.counted, h.room, h.holds⟩

theorem Run.kept {e : Evaluator σ τ π ω κ} (hM : 1 ≤ M) (hl : e.limit = .int M) (ht : e.state.target = .empty)
    (h : Run e s) : s.Kept M := by
  induction h with
  | start => exact .start hl ht
  | step _ hs ih => exact ih.step hM hs

/-- What holds behind every step of a run with at most `M` compilations on a target. -/
structure Rotates (M : Nat) (s : Session σ τ π ω κ) : Prop where
  /-- The next call replaces the target exactly if the previous call on it was a timeout, or if it has taken `M`
  compilations; the number of the target tells. -/
  replaced : ∀ c : Call, (s.evaluator.evaluate c.prelude c.code c.resultType).1.replaced.isSome = true ↔
    (∃ v, s.previous = some v ∧ v.outcome = .timeout) ∨ M ≤ s.evaluator.state.target.compiled
  numbered : ∀ c : Call, (s.call c).number =
    s.number + if (s.evaluator.evaluate c.prelude c.code c.resultType).1.replaced.isSome then 1 else 0
  /-- No target counts more than `M` compilations, also not by workers that were given up. -/
  bounded : ∀ k, (s.target k).compiled ≤ M
  /-- A target counts the calls on it whose toolchain came back and did not raise. -/
  counted : ∀ k, (s.target k).compiled = s.visits.countP (·.countsOn k)
  /-- No call behind a timeout uses its target. -/
  left : s.visits.Pairwise fun w v => v.outcome = .timeout → w.target ≠ v.target
  /-- The current target holds nothing, or the one unit of the latest call that has reached the compile stage. -/
  latest : s.evaluator.state.target.artifacts = [] ∨
    ∃ v u code, s.visits.find? Visit.begun = some v ∧ v.work = some (u, .stored code) ∧
      s.evaluator.state.target.artifacts = [(u.name, u, code)]

/-- Whatever the calls come to, and wherever and whenever workers are given up and get on. -/
theorem run_rotates {e : Evaluator σ τ π ω κ} (hM : 1 ≤ M) (hl : e.limit = .int M)
    (ht : e.state.target = .empty) (h : Run e s) : s.Rotates M := by
  have hk : s.Kept M := h.kept hM hl ht
  constructor
  case replaced =>
    intro c
    rw [Evaluator.evaluate_replaced hk.limit, hk.tainted_iff]
  case numbered =>
    intro c
    simp only [Evaluator.evaluate_replaced hk.limit, call, Session.visit, prepared_eq hk.limit]
    split <;> rfl
  case bounded =>
    intro k
    rw [hk.counted]
    refine Nat.le_trans (List.countP_mono_left fun v _ hv => ?_) (hk.room k)
    simp only [Visit.countsOn, Visit.mayCountOn, Bool.and_eq_true, Bool.or_eq_true] at hv ⊢
    exact ⟨hv.1, .inl hv.2⟩
  case counted => exact hk.counted
  case left =>
    refine hk.ordered.imp fun hwv ho => ?_
    exact Nat.ne_of_gt (hwv.2 (Outcome.isTimeout_iff.mpr ho))
  case latest =>
    have hh := hk.holds s.number
    rw [target_self] at hh
    obtain hh | ⟨v, hv, hh⟩ := hh
    · exact .inl hh
    · rw [hh, Visit.holding]
      cases hw : v.work with
      | none => exact .inl rfl
      | some w =>
        obtain ⟨u, p⟩ := w
        cases p with
        | stored code => exact .inr ⟨v, u, code, hk.find?_begun hv, hw, rfl⟩
        | _ => exact .inl rfl

/-- The second of two compilations hangs. Its worker comes back behind the timeout, and has itself counted on the
target that it was given; the next call goes to a new one. -/
theorem overdue_rotates : ∃ s : Session Unit Nat Unit Unit (Script Produced Thrown),
    Run (.scripted Evaluator.signs 1) s ∧ (s.target 0).compiled = 2 ∧ s.number = 1 ∧
      s.evaluator.state.target.names = ["_SnippetUnit_3"] ∧ s.Rotates 2 := by
  let e := Evaluator.scripted Evaluator.signs 1
  let hangs : Call := ⟨[], ['~'], none⟩
  let s₁ := (new e).call ⟨[], ['1'], none⟩
  let v : Visit (Script Produced Thrown) :=
    ⟨s₁.prepared.number, (s₁.evaluator.perform hangs).1, s₁.prepared.evaluator.workOf hangs⟩
  have h₂ : Run e (s₁.call hangs) := .step (.step .start (.call _)) (.call hangs)
  have ho : v.outcome.isTimeout = true := by decide +kernel
  have hp : v.work.map (fun w => (w.2.begun, w.2.pending)) = some (true, true) := by decide +kernel
  let u : SnippetUnit := (v.work.map (·.1)).getD default
  have hw : v.work = some (u, .asking) := by
    obtain ⟨⟨u', p⟩, hw, hp⟩ := Option.map_eq_some_iff.mp hp
    cases p with
    | asking => simp only [u, hw, Option.map_some, Option.getD_some]
    | _ => cases hp
  have h₃ : Run e ((s₁.call hangs).getOn [] v s₁.prepared.visits u .counted) :=
    h₂.step (@Step.late _ _ _ _ _ _ (s₁.call hangs) [] s₁.prepared.visits v u .asking .counted rfl ho hw .returns)
  have h₄ := h₃.step (.call ⟨[], ['1'], none⟩)
  have hl : e.limit = .int (2 : Nat) := rfl
  have ht : e.state.target = .empty := rfl
  have hr := run_rotates (by decide) hl ht h₄
  refine ⟨_, h₄, ?_, ?_, ?_, hr⟩
  · decide +kernel
  · decide +kernel
  · decide +kernel

end Session

end Evalbox
