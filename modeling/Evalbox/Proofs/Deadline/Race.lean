import Evalbox.Proofs.Engine.Visit

/-!
# Workers and deadlines

A caller waits for the future of a worker, until a deadline. The worker may settle before the deadline expires,
behind it, or never. What the caller gets is `withDeadline` of the one that came first (`Reachable.answer_eq`),
so that it gets nothing exactly if the deadline came first or the work raised a fault that looks like the end of
a wait. The calls of an evaluator inherit this.
-/

namespace Evalbox

/-- What came of work can be told from the end of a wait, and from being stopped. -/
def Telling {α : Type} (work : Except Fault α) : Prop :=
  ∀ f, work = .error f → f.isCancellation = false ∧ Future.looksExpired f = false

section WithDeadline

variable {α : Type} {f : Fault}

theorem withDeadline_expired (work : Option (Except Fault α)) : withDeadline .expired work = .ok none := by
  cases work <;> rfl

theorem withDeadline_returned (a : α) : withDeadline .settled (some (.ok a)) = .ok (some a) := rfl

theorem withDeadline_raised (hc : f.isCancellation = false) :
    withDeadline .settled (some (.error f : Except Fault α)) =
      if Future.looksExpired f then .ok none else .error f := by
  simp only [withDeadline, Future.settle, hc, Bool.false_eq_true, if_false, Future.await]

/-- Work that is telling and in time is answered as it ended. -/
theorem withDeadline_telling {work : Except Fault α} (h : Telling work) :
    withDeadline .settled (some work) = work.map some := by
  cases work with
  | ok a => rfl
  | error f =>
    obtain ⟨hc, he⟩ := h f rfl
    rw [withDeadline_raised hc, he]
    rfl

end WithDeadline

/-- A wait for a worker: its future, whether the deadline came before the worker, and what the caller got, if it
does not wait any more. -/
structure Wait (α : Type) where
  future : Future α
  overdue : Bool
  answer : Option (Except Fault (Option α))

namespace Wait

variable {α : Type}

/-- The worker has not begun, and the caller waits. -/
def start : Wait α := ⟨.pending, false, none⟩

/-- Which of the two came first, once the caller has an answer. -/
def first (w : Wait α) : First := if w.overdue then .expired else .settled

/-- A step of the worker or of the caller. The worker goes on whether or not anybody still waits for it; `work` is
none if it never comes to its end. -/
inductive Step (work : Option (Except Fault α)) : Wait α → Wait α → Prop
  | begin {w : Wait α} (hf : w.future = .pending) : Step work w { w with future := .running }
  | settle {w : Wait α} {r : Except Fault α} (hf : w.future = .running) (hw : work = some r) :
    Step work w { w with future := .settle r }
  | wake {w : Wait α} {r : Except Fault α} (hf : w.future = .finished r) (ha : w.answer = none) :
    Step work w { w with answer := some w.future.await }
  | expire {w : Wait α} (hf : ∀ r, w.future ≠ .finished r) (ha : w.answer = none) :
    Step work w { w with overdue := true, answer := some w.future.await }

/-- What comes of steps of the two, in any order. -/
inductive Reachable (work : Option (Except Fault α)) : Wait α → Prop
  | start : Reachable work start
  | step {w w' : Wait α} : Reachable work w → Step work w w' → Reachable work w'

/-- What every step keeps. -/
structure Kept (work : Option (Except Fault α)) (w : Wait α) : Prop where
  settled : ∀ r, w.future = .finished r → work = some r ∧ Future.settle r = .finished r
  waiting : w.answer = none → w.overdue = false
  answered : ∀ a, w.answer = some a → a = withDeadline w.first work
  in_time : w.answer.isSome = true → w.overdue = false → ∃ r, work = some r ∧ Future.settle r = .finished r

variable {work : Option (Except Fault α)} {w w' : Wait α} {a : Except Fault (Option α)}

theorem settle_finished {r s : Except Fault α} (h : Future.settle r = .finished s) : s = r := by
  cases r with
  | ok a => cases h; rfl
  | error f =>
    cases hc : f.isCancellation with
    | true => simp [Future.settle, hc] at h
    | false =>
      simp only [Future.settle, hc, Bool.false_eq_true, if_false, Future.finished.injEq] at h
      exact h.symm

theorem await_unfinished {f : Future α} (h : ∀ r, f ≠ .finished r) : f.await = .ok none := by
  cases f with
  | finished r => exact absurd rfl (h r)
  | _ => rfl

theorem Kept.step (hk : Kept work w) (h : Step work w w') : Kept work w' := by
  cases h with
  | begin hf => exact ⟨fun r hr => (nomatch hr), hk.waiting, hk.answered, hk.in_time⟩
  | settle hf hw =>
    refine ⟨fun s hs => ?_, hk.waiting, hk.answered, hk.in_time⟩
    obtain rfl := settle_finished hs
    exact ⟨hw, hs⟩
  | @wake r hf ha =>
    obtain ⟨hw, hs⟩ := hk.settled r hf
    refine ⟨hk.settled, fun h => (nomatch h), fun a h => ?_, fun _ _ => ⟨r, hw, hs⟩⟩
    have hd : w.overdue = false := hk.waiting ha
    obtain rfl := Option.some.inj h
    rw [first, hd, hw, hf]
    exact (congrArg Future.await hs).symm
  | expire hf ha =>
    refine ⟨hk.settled, fun h => (nomatch h), fun a h => ?_, fun _ h => (nomatch h)⟩
    obtain rfl := Option.some.inj h
    rw [await_unfinished hf]
    exact (withDeadline_expired work).symm

theorem Reachable.kept (h : Reachable work w) : Kept work w := by
  induction h with
  | start => exact ⟨fun r hr => (nomatch hr), fun _ => rfl, fun a ha => (nomatch ha), fun h => (nomatch h)⟩
  | step _ hs ih => exact ih.step hs

/-- Whatever the order of the steps, only the first of the two counts. -/
theorem Reachable.answer_eq (h : Reachable work w) (ha : w.answer = some a) : a = withDeadline w.first work :=
  h.kept.answered a ha

/-- What a caller gets, if the work does not end by being stopped. -/
structure Exact (work : Option (Except Fault α)) (w : Wait α) (a : Except Fault (Option α)) : Prop where
  /-- Nothing says that the deadline came first, or that the work raised what looks so. -/
  nothing : a = .ok none ↔ w.overdue = true ∨ ∃ f, work = some (.error f) ∧ Future.looksExpired f = true
  /-- A worker that comes first is answered as its work ended, unless that looks like the end of the wait. -/
  passed : w.overdue = false → ∃ r, work = some r ∧ (Telling r → a = r.map some)

theorem Reachable.exact (h : Reachable work w) (hc : ∀ f, work = some (.error f) → f.isCancellation = false)
    (ha : w.answer = some a) : Exact work w a := by
  have he : a = withDeadline w.first work := h.answer_eq ha
  cases ho : w.overdue with
  | true =>
    rw [first, ho, if_pos rfl, withDeadline_expired] at he
    exact ⟨⟨fun _ => .inl ho, fun _ => he⟩, fun hn => (nomatch ho.symm.trans hn)⟩
  | false =>
    obtain ⟨r, hw, -⟩ := h.kept.in_time (by rw [ha]; rfl) ho
    rw [first, ho, if_neg Bool.false_ne_true, hw] at he
    refine ⟨?_, fun _ => ⟨r, hw, fun ht => he.trans (withDeadline_telling ht)⟩⟩
    cases r with
    | ok v => simp [he, hw, ho, withDeadline_returned]
    | error f =>
      rw [withDeadline_raised (hc f hw)] at he
      cases hl : Future.looksExpired f <;> simp [he, hw, ho, hl]

end Wait

namespace Evaluator

variable {σ τ π ω κ : Type} [BEq τ]

/-- How the work on the unit of a call ends, with the target that is put in place for it. -/
def workEnd (e : Evaluator σ τ π ω κ) (c : Call) (u : SnippetUnit) : WorkEnd :=
  (e.inPlace.pipeline.work targetId (e.inPlace.worker e.inPlace.nextUnit) u c.resultType e.inPlace.state).1

variable {e : Evaluator σ τ π ω κ} {c : Call} {u : SnippetUnit} {f : Fault}

/-- The call puts a target in place and makes a unit, for which there is a worker then. -/
def Begins (e : Evaluator σ τ π ω κ) (c : Call) (u : SnippetUnit) : Prop :=
  (∃ full, e.mustRotate = .ok full) ∧ wrap c.prelude c.code (unitName e.nextUnit) = .ok u

theorem perform_begun (h : e.Begins c u) : (e.perform c).1 = (e.workEnd c u).seen := by
  obtain ⟨⟨full, hf⟩, hw⟩ := h
  rcases e.perform_cases c with ⟨g, hg, -⟩ | ⟨-, he⟩
  · cases hf.symm.trans hg
  · rw [← e.inPlace_alike.nextUnit] at hw
    rw [he]
    simp only [evaluateHere, hw]
    exact settle_outcome ..

/-- A call without a worker does not wait. -/
theorem perform_unbegun (h : ∀ u, ¬e.Begins c u) : ∃ g, (e.perform c).1 = .internalFailure g := by
  rcases e.perform_cases c with ⟨g, -, he⟩ | ⟨hf, he⟩
  · exact ⟨g, congrArg Prod.fst he⟩
  · cases hw : wrap c.prelude c.code (unitName e.nextUnit) with
    | ok u => exact absurd ⟨hf, hw⟩ (h u)
    | error g =>
      rw [← e.inPlace_alike.nextUnit] at hw
      rw [he]
      simp only [evaluateHere, hw]
      exact ⟨_, rfl⟩

/-- Which ends of work are reported as an expired deadline. -/
theorem seen_eq_timeout {w : WorkEnd} (hw : w ≠ .outcome .timeout) : w.seen = .timeout ↔
    w = .stopped ∨ w = .endless ∨ ∃ f, w = .raised f ∧ (f.isCancellation || Future.looksExpired f) = true := by
  cases w with
  | outcome o =>
    have ho : o ≠ .timeout := fun h => hw (congrArg WorkEnd.outcome h)
    simp [WorkEnd.seen, ho]
  | raised f =>
    simp only [WorkEnd.seen]
    split
    case isTrue h => exact ⟨fun _ => .inr (.inr ⟨f, rfl, h⟩), fun _ => rfl⟩
    case isFalse h =>
      refine ⟨fun ht => (by cases ht), ?_⟩
      rintro (hs | hs | ⟨g, hg, ht⟩)
      · cases hs
      · cases hs
      · obtain rfl := WorkEnd.raised.inj hg
        exact absurd ht h
  | stopped => simp [WorkEnd.seen]
  | endless => simp [WorkEnd.seen]

/-- What a call makes of the deadline and of a fault of its toolchain. -/
structure Reports (e : Evaluator σ τ π ω κ) (c : Call) : Prop where
  /-- A timeout says that the worker did not come to its end in time, or that it was stopped, or that the toolchain
  raised what cannot be told from that. -/
  timeout : (e.perform c).1 = .timeout ↔ ∃ u, e.Begins c u ∧ (e.workEnd c u = .stopped ∨ e.workEnd c u = .endless ∨
    ∃ f, e.workEnd c u = .raised f ∧ (f.isCancellation || Future.looksExpired f) = true)
  /-- Any other fault of the toolchain is an internal failure. -/
  raised : ∀ u f, e.Begins c u →
    e.inPlace.pipeline.called (e.inPlace.worker e.inPlace.nextUnit) u e.inPlace.state = some (.raised f) →
    f.isCancellation = false →
    (e.perform c).1 = if Future.looksExpired f then .timeout else .internalFailure f

theorem perform_reports (e : Evaluator σ τ π ω κ) (c : Call) : e.Reports c where
  timeout := by
    by_cases h : ∃ u, e.Begins c u
    · obtain ⟨u, hu⟩ := h
      have hne : e.workEnd c u ≠ .outcome .timeout := Pipeline.work_ne_timeout _ _ _ _ _ _
      rw [perform_begun hu, seen_eq_timeout hne]
      refine ⟨fun hw => ⟨u, hu, hw⟩, fun ⟨u', hu', hw⟩ => ?_⟩
      obtain rfl : u = u' := Except.ok.inj (hu.2.symm.trans hu'.2)
      exact hw
    · obtain ⟨g, hg⟩ := perform_unbegun (not_exists.mp h)
      rw [hg]
      exact ⟨fun ht => (nomatch ht), fun ⟨u, hu, _⟩ => absurd ⟨u, hu⟩ h⟩
  raised u f hu hr hc := by
    rw [perform_begun hu, workEnd, Pipeline.work_raised targetId c.resultType hr]
    simp only [WorkEnd.seen, hc, Bool.false_or]

end Evaluator

section Exact

variable {α σ τ π ω κ : Type} [BEq τ]

/-- A wait for a worker comes to what its work and the order of the two say, in every order, and so does a call. -/
theorem deadline_exact {work : Option (Except Fault α)}
    (hc : ∀ f, work = some (.error f) → f.isCancellation = false) {w : Wait α} (h : Wait.Reachable work w)
    {a : Except Fault (Option α)} (ha : w.answer = some a) (e : Evaluator σ τ π ω κ) (c : Call) :
    Wait.Exact work w a ∧ e.Reports c :=
  ⟨h.exact hc ha, e.perform_reports c⟩

end Exact

namespace Wait

/-- The worker begins and settles while the caller waits, and only then the deadline would expire. -/
theorem in_time_reachable {α : Type} {r : Except Fault α} (hs : Future.settle r = .finished r) :
    Reachable (some r) ⟨.finished r, false, some (Future.finished r).await⟩ := by
  have h₁ : Reachable (some r) ⟨.running, false, none⟩ := .step .start (.begin rfl)
  have h₂ : Reachable (some r) ⟨.finished r, false, none⟩ := hs ▸ h₁.step (.settle rfl rfl)
  exact h₂.step (.wake rfl rfl)

/-- Work that raises a plain fault in time. -/
theorem value_exact : ∃ w : Wait Nat, w.answer = some (.error (.value "bad input")) ∧
    Exact (some (.error (.value "bad input"))) w (.error (.value "bad input")) ∧
      (Evaluator.scripted Evaluator.signs 1).Reports ⟨[], ['?'], none⟩ := by
  have hc : ∀ f, some (Except.error (.value "bad input") : Except Fault Nat) = some (.error f) →
      f.isCancellation = false := by
    rintro f ⟨⟩
    decide
  have hr : Reachable (some (.error (.value "bad input") : Except Fault Nat)) _ := in_time_reachable rfl
  exact ⟨_, rfl, deadline_exact hc hr rfl (Evaluator.scripted Evaluator.signs 1) ⟨[], ['?'], none⟩⟩

/-- Work that raises a fault of the kind of an expired wait, long before its deadline: the caller gets nothing,
and the call of an evaluator whose toolchain does so answers a timeout. -/
theorem overrun_invented : (∃ w : Wait Nat, Reachable (some (.error .timeout)) w ∧ w.overdue = false ∧
      w.answer = some (.ok none)) ∧
    ((Evaluator.scripted (fun _ => some ⟨[], .raised .timeout⟩) 1).perform ⟨[], ['1'], none⟩).1.kindName =
      "timeout" :=
  ⟨⟨_, in_time_reachable rfl, rfl, rfl⟩, by decide +kernel⟩

end Wait

end Evalbox
