import Evalbox.Engine.Snippets
import Evalbox.Proofs.Capture.Frame
import Evalbox.Proofs.Engine.Script

/-!
# A run leaves no trace on its thread

A unit acts on its surroundings by what it asks of the world. `World.questions` lists that, each question with the world
in which it is answered, and of the standard output and the guards a run changes only what is written in the course of
it (`Leaves`). So the run stage can undo what it did around the run, whatever the unit did (`execute_frame`).
-/

namespace Evalbox

namespace World

/-- What a machine asks while it is driven. -/
def questions (deadline : Nat) : Nat → Machine → World → List (World × Request)
  | 0, _, _ => []
  | steps + 1, m, w =>
    match m.step with
    | .on next => questions deadline steps next w
    | .over _ _ => []
    | .asks h q go =>
      (w, q) :: match w.answer q with
        | none => []
        | some (r, w) => if w.world.clock > deadline then [] else questions deadline steps (go h r) w

/-- What is asked while work is carried out on a thread. A machine that is stopped may ask on. -/
def questionsOf (w : World) (t : ThreadId) (work : M Signal) (budget : Budget) : List (World × Request) :=
  let w := w.modify fun o => { o with threads := t :: o.threads }
  questions budget.deadline budget.steps (.begin w.world.heap work) w ++
    match w.drive budget.deadline budget.steps (.begin w.world.heap work) with
    | (.expired m, w) => questions (budget.deadline + 2000000) graceSteps (m.interrupt Fault.cancelled.kind) w
    | _ => []

/-- What a unit asks while it is loaded, made and called. -/
def unitQuestions (gate : Gate Policy) (micros : Nat) (t : ThreadId) (u : SnippetUnit) (p : Program) (w : World) :
    List (World × Request) :=
  let (builtins, w) := w.withBuiltins gate
  w.questionsOf t (M.body (.unit u.name p.filename p.body builtins p.lazyHints p.optimize))
    ⟨stepLimit, w.world.clock + micros⟩

/-- What was written, and by which threads. -/
def writes (asked : List (World × Request)) : List (ThreadId × List Char) :=
  asked.filterMap fun (w, q) => match q with
    | .write text => some (w.thread, text)
    | _ => none

theorem writes_append (a b : List (World × Request)) : writes (a ++ b) = writes a ++ writes b := List.filterMap_append

/-! ## What asking changes -/

/-- A world in which questions were answered, where `w` was in front of them: they were all asked under the same guards,
and nothing but what was written has come to the standard output. -/
structure Leaves (asked : List (World × Request)) (w w' : World) : Prop where
  console : w'.console = w.console.sends (writes asked)
  guards : w'.guards = w.guards
  under : ∀ a ∈ asked, a.1.guards = w.guards

namespace Leaves

variable {asked more : List (World × Request)} {w w' w'' : World}

/-- Nothing is asked for a change of the rest of the world. -/
theorem of_modify (w : World) (f : Outside → Outside) : Leaves [] w (w.modify f) := ⟨rfl, rfl, fun _ h => nomatch h⟩

theorem refl (w : World) : Leaves [] w w := ⟨rfl, rfl, fun _ h => nomatch h⟩

theorem trans (h : Leaves asked w w') (h' : Leaves more w' w'') : Leaves (asked ++ more) w w'' where
  console := by rw [h'.console, h.console, writes_append, Console.sends_append]
  guards := h'.guards.trans h.guards
  under := by
    intro a ha
    rcases List.mem_append.mp ha with ha | ha
    · exact h.under a ha
    · exact (h'.under a ha).trans h.guards

theorem modify (h : Leaves asked w w') (f : Outside → Outside) : Leaves asked w (w'.modify f) :=
  ⟨h.console, h.guards, h.under⟩

theorem settle (h : Leaves asked w w') (heap : Heap) : Leaves asked w (w'.settle heap) := h.modify _

end Leaves

theorem takeLock_modify {w w' : World} {r : Reply} (h : w.takeLock = some (r, w')) :
    ∃ f, w' = w.modify f := by
  unfold takeLock at h
  split at h
  · cases h
    exact ⟨_, rfl⟩
  · split at h
    · cases h
      exact ⟨_, rfl⟩
    · exact nomatch h

theorem writeFile_modify (w : World) (path : String) (bytes : List UInt8) :
    ∃ f, (w.writeFile path bytes).2 = w.modify f := by
  unfold writeFile
  dsimp only
  split
  · exact ⟨id, rfl⟩
  · split
    · split <;> exact ⟨id, rfl⟩
    · exact ⟨fun o => { o with files := w.world.files.put path (.file bytes) }, rfl⟩

/-- Only a write touches more than the rest of the world. -/
theorem answer_cases {w w' : World} {q : Request} {r : Reply} (h : w.answer q = some (r, w')) :
    (∃ text, q = .write text ∧ w' = { w with console := w.console.write w.thread text }) ∨
      (∀ text, q ≠ .write text) ∧ ∃ f, w' = w.modify f := by
  cases q with
  | write text =>
    cases h
    exact .inl ⟨text, rfl, rfl⟩
  | lock => exact .inr ⟨(fun _ h => nomatch h), takeLock_modify h⟩
  | writeFile path bytes =>
    obtain ⟨f, hf⟩ := w.writeFile_modify path bytes
    have hw : (w.writeFile path bytes).2 = w' := congrArg Prod.snd (Option.some.inj h)
    exact .inr ⟨(fun _ h => nomatch h), f, hw.symm.trans hf⟩
  | audit e =>
    refine .inr ⟨(fun _ h => nomatch h), id, ?_⟩
    simp only [answer] at h
    split at h <;> (cases h; rfl)
  | readFile path =>
    refine .inr ⟨(fun _ h => nomatch h), id, ?_⟩
    simp only [answer] at h
    split at h <;> (cases h; rfl)
  | listFiles path =>
    refine .inr ⟨(fun _ h => nomatch h), id, ?_⟩
    simp only [answer] at h
    split at h
    · cases h
      rfl
    · split at h <;> (cases h; rfl)
  | isTerminal | encoding | source path | currentDirectory =>
    cases h
    exact .inr ⟨(fun _ h => nomatch h), id, rfl⟩
  | sleep _ | enterThread | leaveThread | find _ _ | unlock =>
    cases h
    exact .inr ⟨(fun _ h => nomatch h), _, rfl⟩

theorem writes_other {w : World} {q : Request} (h : ∀ text, q ≠ .write text) : writes [(w, q)] = [] := by
  cases q with
  | write text => exact absurd rfl (h text)
  | _ => rfl

theorem answer_leaves {w w' : World} {q : Request} {r : Reply} (h : w.answer q = some (r, w')) :
    Leaves [(w, q)] w w' := by
  have hunder : ∀ a ∈ [(w, q)], a.1.guards = w.guards := fun a ha => by rw [List.mem_singleton.mp ha]
  rcases answer_cases h with ⟨text, rfl, rfl⟩ | ⟨hq, f, rfl⟩
  · exact ⟨rfl, rfl, hunder⟩
  · refine ⟨?_, rfl, hunder⟩
    rw [writes_other hq]
    rfl

/-- A question without an answer is no write. -/
theorem unanswered_leaves {w : World} {q : Request} (h : w.answer q = none) : Leaves [(w, q)] w w := by
  have hq : ∀ text, q ≠ .write text := by
    rintro text rfl
    exact nomatch h
  refine ⟨?_, rfl, fun a ha => by rw [List.mem_singleton.mp ha]⟩
  rw [writes_other hq]
  rfl

/-! ## What runs change -/

/-- One step after the other. -/
theorem drive_leaves (deadline steps : Nat) (m : Machine) (w : World) :
    Leaves (questions deadline steps m w) w (w.drive deadline steps m).2 := by
  induction steps generalizing m w with
  | zero => exact .refl w
  | succ steps ih =>
    cases hm : m.step with
    | on next =>
      simp only [questions, drive, hm]
      exact ih next w
    | «over» h r =>
      simp only [questions, drive, hm]
      exact .refl w
    | asks h q go =>
      simp only [questions, drive, hm]
      cases ha : w.answer q with
      | none => exact unanswered_leaves ha
      | some answered =>
        obtain ⟨r, w'⟩ := answered
        by_cases hlate : w'.world.clock > deadline
        · simp only [if_pos hlate]
          exact answer_leaves ha
        · simp only [if_neg hlate]
          exact (answer_leaves ha).trans (ih (go h r) w')

theorem ending_leaves (w : World) (h : Heap) (r : Except Raised Signal) : Leaves [] w (w.ending h r).2 := by
  have hs : Leaves [] w (w.settle h) := .of_modify ..
  unfold ending
  dsimp only
  split
  · exact hs
  · exact hs
  · exact hs
  · split <;> exact hs

theorem perform_leaves (w : World) (t : ThreadId) (work : M Signal) (budget : Budget) :
    Leaves (w.questionsOf t work budget) w (w.perform t work budget).2 := by
  unfold questionsOf perform
  dsimp only
  have hin : Leaves [] w (w.modify fun o => { o with threads := t :: o.threads }) := .of_modify ..
  generalize w.modify (fun o => { o with threads := t :: o.threads }) = w₁ at hin
  have hrun := drive_leaves budget.deadline budget.steps (.begin w₁.world.heap work) w₁
  cases hd : w₁.drive budget.deadline budget.steps (.begin w₁.world.heap work) with
  | mk halt w₂ =>
    rw [hd] at hrun
    have hrun := hin.trans hrun
    rw [List.nil_append] at hrun
    refine Leaves.modify ?_ _
    cases halt with
    | through h r =>
      rw [List.append_nil]
      have hend := hrun.trans (ending_leaves w₂ h r)
      rwa [List.append_nil] at hend
    | blocked h =>
      rw [List.append_nil]
      exact hrun.settle h
    | expired m =>
      dsimp only
      have hgrace := drive_leaves (budget.deadline + 2000000) graceSteps (m.interrupt Fault.cancelled.kind) w₂
      cases hd' : w₂.drive (budget.deadline + 2000000) graceSteps (m.interrupt Fault.cancelled.kind) with
      | mk halt w₃ =>
        rw [hd'] at hgrace
        cases halt <;> exact (hrun.trans hgrace).settle _

theorem textOf_leaves (w : World) (task : Task) : ∃ asked, Leaves asked w (w.textOf task).2 := by
  have hrun := drive_leaves w.world.clock textBudget (.start w.world.heap task) w
  unfold textOf
  split
  · next h s w' hd =>
    rw [hd] at hrun
    exact ⟨_, hrun.settle h⟩
  · next w' _ hd =>
    rw [hd] at hrun
    exact ⟨_, hrun⟩

/-- The texts of exceptions are found one after the other. -/
theorem thrown_leaves (w : World) (r : Ref) : ∃ asked, Leaves asked w (w.thrown r).2 := by
  unfold thrown
  dsimp only
  generalize w.world.heap.linked (4 * w.world.heap.objs.size + 4) [] [r] = refs
  generalize hstart : (([], w) : List (Nat × Fault) × World) = acc
  have hacc : ∃ asked, Leaves asked w acc.2 := hstart ▸ ⟨[], .refl w⟩
  clear hstart
  induction refs generalizing acc with
  | nil => exact hacc
  | cons e refs ih =>
    obtain ⟨asked, hacc⟩ := hacc
    obtain ⟨more, htext⟩ := acc.2.textOf_leaves (.text (.ref e))
    exact ih _ ⟨_, hacc.trans htext⟩

/-- Behind a unit that returned, nothing else is asked. -/
theorem runUnit_leaves (gate : Gate Policy) (micros : Nat) (t : ThreadId) (u : SnippetUnit) (p : Program) (w : World) :
    ∃ more, Leaves (unitQuestions gate micros t u p w ++ more) w (runUnit gate micros t u p w).2 ∧
      ∀ v, (runUnit gate micros t u p w).1 = .returned v → more = [] := by
  unfold unitQuestions runUnit
  have hbuiltins : Leaves [] w (w.withBuiltins gate).2 := ⟨rfl, rfl, fun _ h => nomatch h⟩
  generalize w.withBuiltins gate = made at hbuiltins ⊢
  obtain ⟨builtins, w₁⟩ := made
  dsimp only at hbuiltins ⊢
  have hrun := perform_leaves w₁ t (M.body (.unit u.name p.filename p.body builtins p.lazyHints p.optimize))
    ⟨stepLimit, w₁.world.clock + micros⟩
  unfold runTask
  cases hp : w₁.perform t (M.body (.unit u.name p.filename p.body builtins p.lazyHints p.optimize))
      ⟨stepLimit, w₁.world.clock + micros⟩ with
  | mk ending w₂ =>
    rw [hp] at hrun
    have hrun := hbuiltins.trans hrun
    rw [List.nil_append] at hrun
    have hnone := hrun.trans (.refl w₂)
    cases ending with
    | returned v => exact ⟨[], hnone, fun _ _ => rfl⟩
    | failed r =>
      obtain ⟨more, htexts⟩ := w₂.thrown_leaves r
      exact ⟨more, hrun.trans htexts, fun v h => nomatch h⟩
    | stopped => exact ⟨[], hnone, fun _ _ => rfl⟩
    | endless => exact ⟨[], hnone, fun _ _ => rfl⟩

end World

namespace RunStage

section Unwinding

variable {τ π ω κ ν ε : Type} [BEq τ] {stage : RunStage τ π ω κ ν ε} {t : τ} {u : SnippetUnit} {code : κ}
  {resultType : Option String} {s : Surroundings τ π ω}

/-- Unless the code never comes back, capture and scope are closed behind it. -/
theorem execute_outside (h : (stage.execute t u (.ok code) resultType s).1 ≠ .endless) :
    (stage.execute t u (.ok code) resultType s).2 = stage.outside t s (stage.run t u code (stage.inside t s)).2 := by
  unfold execute outside inside at *
  dsimp only at h ⊢
  split
  · split <;> rfl
  · rfl
  · rfl
  · next he =>
    rw [he] at h
    exact absurd rfl h

/-- Where the stage returns, the code returned, and the text is what the capture held then. -/
theorem execute_eq_returned {v : ν} {text : List Char}
    (h : (stage.execute t u (.ok code) resultType s).1 = .returned (v, text)) :
    stage.ending t u code s = .returned v ∧ text = stage.written t u code s := by
  cases he : stage.ending t u code s with
  | returned v' =>
    rw [execute_returned he] at h
    split at h
    · exact nomatch h
    · cases h
      exact ⟨rfl, rfl⟩
  | failed e => exact nomatch (execute_failed he).symm.trans h
  | stopped => exact nomatch (execute_stopped he).symm.trans h
  | endless => exact nomatch (execute_endless he).symm.trans h

end Unwinding

/-- What is asked in the course of a run; nothing if there is no code for it. -/
def questions (gate : Gate Policy) (micros : Nat) (t : ThreadId) (u : SnippetUnit) (code : Except Fault Program)
    (s : World) : List (World × Request) :=
  match code with
  | .ok p => World.unitQuestions gate micros t u p ((snippetStage gate micros).inside t s)
  | .error _ => []

/-- A run on a thread that asked `asked`, and that ended with `x`, where `s` was in front of it. -/
structure Framed (gate : Gate Policy) (t : ThreadId) (asked : List (World × Request)) (s : World)
    (x : Ending (Produced × List Char) Thrown × World) : Prop where
  /-- While the unit runs, the policy of an enabled gate is active on the thread. -/
  guarded : ∀ a ∈ asked, a.1.guards.active t = if gate.enabled then some gate.policy else s.guards.active t
  /-- However it ends, the guards and the standard output are as they were. `more` is asked for the texts of an
  exception. -/
  back : x.1 ≠ .endless → x.2.guards.of t = s.guards.of t ∧ x.2.console.Tidy ∧
    ∃ more, Console.Untraced t (World.writes (asked ++ more)) s.console x.2.console
  /-- The text that is returned is what the thread wrote, -/
  text : ∀ v text, x.1 = .returned (v, text) → text = writtenBy t (World.writes asked)
  /-- and what is around holds only what others wrote. -/
  apart : ∀ v text, x.1 = .returned (v, text) → Console.Untraced t (World.writes asked) s.console x.2.console

theorem active_enter (g : Guards ThreadId Policy) (t : ThreadId) (gate : Gate Policy) :
    (g.enter t gate).active t = if gate.enabled then some gate.policy else g.active t := by
  rw [Guards.active, Guards.of_enter_self]
  cases h : gate.enabled <;> simp [Gate.enter, Guards.active, h]

/-- The scope of a run that is left, where `w` is the world behind its code. -/
theorem outside_framed (gate : Gate Policy) (micros : Nat) {t : ThreadId} {s w : World}
    {asked : List (World × Request)} (hc : s.console.Tidy) (h : World.Leaves asked ((snippetStage gate micros).inside t s) w) :
    w.console.captured (s.console.openCapture t).1.buffer = writtenBy t (World.writes asked) ∧
      ((snippetStage gate micros).outside t s w).guards.of t = s.guards.of t ∧
      ((snippetStage gate micros).outside t s w).console.Tidy ∧
      Console.Untraced t (World.writes asked) s.console ((snippetStage gate micros).outside t s w).console := by
  obtain ⟨htext, huntraced, htidy⟩ := Console.capture_untraced hc t (World.writes asked)
  have hw : w.console = (s.console.openCapture t).2.sends (World.writes asked) := h.console
  have hg : w.guards = s.guards.enter t gate := h.guards
  have hback : ((snippetStage gate micros).outside t s w).guards.of t = s.guards.of t := by
    change (w.guards.leave t gate).of t = s.guards.of t
    rw [hg, Guards.of_leave_self, Guards.of_enter_self, Gate.leave_enter]
  refine ⟨hw ▸ htext, hback, ?_, ?_⟩
  · change (w.console.closeCapture t _).Tidy
    rw [hw]
    exact htidy
  · change Console.Untraced t _ s.console (w.console.closeCapture t _)
    rw [hw]
    exact huntraced

/-- Whatever a unit does, and wherever it ends, its run leaves no trace on its thread. -/
theorem execute_framed (gate : Gate Policy) (micros : Nat) (t : ThreadId) (u : SnippetUnit)
    (code : Except Fault Program) (resultType : Option String) {s : World} (hc : s.console.Tidy) :
    Framed gate t (questions gate micros t u code s) s ((snippetStage gate micros).execute t u code resultType s) := by
  cases code with
  | error f =>
    obtain ⟨-, hguards, htidy, huntraced⟩ := outside_framed gate micros hc
      (.refl ((snippetStage gate micros).inside t s))
    have hfailed : ∀ y, ((snippetStage gate micros).execute t u (.error f) resultType s).1 ≠ .returned y := by
      intro y h
      exact nomatch (execute_missing (snippetStage gate micros) t u f resultType s).symm.trans h
    refine ⟨?_, ?_, ?_, ?_⟩
    · intro a ha
      exact nomatch ha
    · intro _
      exact ⟨hguards, htidy, [], huntraced⟩
    · intro v text h
      exact absurd h (hfailed _)
    · intro v text h
      exact absurd h (hfailed _)
  | ok p =>
    obtain ⟨more, hleaves, hmore⟩ := World.runUnit_leaves gate micros t u p ((snippetStage gate micros).inside t s)
    obtain ⟨htext, hguards, htidy, huntraced⟩ := outside_framed gate micros hc hleaves
    have hreturned : ∀ v text, ((snippetStage gate micros).execute t u (.ok p) resultType s).1 = .returned (v, text) →
        more = [] ∧ text = (snippetStage gate micros).written t u p s := by
      intro v text h
      obtain ⟨hv, hw⟩ := execute_eq_returned h
      exact ⟨hmore v hv, hw⟩
    refine ⟨?_, ?_, ?_, ?_⟩
    · intro a ha
      have hu := hleaves.under a (List.mem_append_left more ha)
      rw [hu]
      exact active_enter s.guards t gate
    · intro hne
      rw [execute_outside hne]
      exact ⟨hguards, htidy, more, huntraced⟩
    · intro v text h
      obtain ⟨rfl, hw⟩ := hreturned v text h
      rw [List.append_nil] at htext
      exact hw.trans htext
    · intro v text h
      obtain ⟨rfl, -⟩ := hreturned v text h
      rw [List.append_nil] at huntraced
      have hne : ((snippetStage gate micros).execute t u (.ok p) resultType s).1 ≠ .endless := by
        rw [h]
        exact fun h => nomatch h
      rw [execute_outside hne]
      exact huntraced

/-- A thread in a capture, and in the scope of another gate. -/
def nestedWorld : World :=
  { World.initial ⟨"/", []⟩ [] .buffer with
    console := ((Console.initial .buffer).openCapture .main).2
    guards := Guards.none.enter .main ⟨true, Policy.ofMissingFile⟩ }

/-- A unit that answers a number. -/
def answering : Program := Artifact.program ⟨[], [⟨.answer (.int 1), none⟩], .normal⟩ "U" "<U>"

theorem nested_framed :
    nestedWorld.console.Tidy ∧ nestedWorld.console.active = 1 ∧
    (((snippetStage ⟨true, .default⟩ 1000000).execute .main ⟨"U", "<U>", [], 0⟩ (.ok answering) (some "int")
      nestedWorld).1.result.any fun r => r.toOption.isSome) = true ∧
    Framed ⟨true, .default⟩ .main (questions ⟨true, .default⟩ 1000000 .main ⟨"U", "<U>", [], 0⟩ (.ok answering) nestedWorld)
      nestedWorld ((snippetStage ⟨true, .default⟩ 1000000).execute .main ⟨"U", "<U>", [], 0⟩ (.ok answering) (some "int")
        nestedWorld) := by
  have hinstalled : Capturing.Run (.initial .buffer : Console ThreadId) _ _ := .step (t := .main) .start (.install rfl)
  have hopened := hinstalled.step (t := .main) (.route rfl)
  have htidy : nestedWorld.console.Tidy := hopened.tidy (Console.initial_sound .buffer) (fun i => nofun) rfl
  have hframed := execute_framed ⟨true, .default⟩ 1000000 .main ⟨"U", "<U>", [], 0⟩ (.ok answering) (some "int") htidy
  exact ⟨htidy, rfl, by decide +kernel, hframed⟩

end RunStage

end Evalbox
