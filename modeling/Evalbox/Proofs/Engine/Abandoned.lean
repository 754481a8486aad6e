import Evalbox.Proofs.Compile.Target
import Evalbox.Proofs.Engine.LibraryUnits
import Evalbox.Proofs.Engine.Visit
import Mathlib.Data.List.Induction

/-!
# Workers that were given up, and the importer

A call that was given up leaves its worker where it stands. If this is inside an import from the classpath, the worker
has the lock of the importer for ever: replacing the target does not replace the importer. Then no later unit imports
anything from the classpath any more. In all other cases the lock is free for the next call, and in no case a unit
gets a module whose body is still to be run to its end.
-/

namespace Evalbox

namespace Evaluator

section Calls

variable {σ τ π ω κ : Type} {e : Evaluator σ τ π ω κ} {c : Call} {u : SnippetUnit}

/-- A call makes a unit, and puts a target in place for it. -/
def Makes (e : Evaluator σ τ π ω κ) (c : Call) (u : SnippetUnit) : Prop :=
  (∃ full, e.mustRotate = .ok full) ∧ wrap c.prelude c.code (unitName e.nextUnit) = .ok u

/-- Calls whose limit is a number, and whose snippet can be wrapped, make a unit. -/
theorem makes_getD (hr : e.mustRotate.toOption.isSome = true)
    (hw : (wrap c.prelude c.code (unitName e.nextUnit)).toOption.isSome = true) :
    e.Makes c ((wrap c.prelude c.code (unitName e.nextUnit)).toOption.getD default) := by
  refine ⟨?_, wrap_getD hw⟩
  cases h : e.mustRotate with
  | ok full => exact ⟨full, rfl⟩
  | error f =>
    rw [h] at hr
    cases hr

variable [BEq τ]

/-- The unit of a call comes to the running of its code, in these surroundings. -/
def Starts (e : Evaluator σ τ π ω κ) (c : Call) (code : κ) (s : Surroundings τ π ω) : Prop :=
  ∃ u, e.Makes c u ∧ e.pipeline.Runs (e.worker e.nextUnit) u e.inPlace.state code ∧
    s = e.pipeline.run.inside (e.worker e.nextUnit) (e.pipeline.compiled (e.worker e.nextUnit) u e.inPlace.state).around

/-- What a call comes to, and leaves, from the work on its unit. -/
theorem Makes.perform_eq (h : e.Makes c u) :
    let r := e.pipeline.work targetId (e.worker e.nextUnit) u c.resultType e.inPlace.state
    (e.perform c).1 = r.1.seen ∧ (e.perform c).2.state.around = r.2.around := by
  obtain ⟨⟨full, hf⟩, hw⟩ := h
  have ha := e.inPlace_alike
  rcases e.perform_cases c with ⟨f, hn, -⟩ | ⟨-, he⟩
  · cases hf.symm.trans hn
  · simp only [he, evaluateHere, ha.pipeline, ha.worker, ha.nextUnit, hw, settle_outcome, (settle_alike _ _).around,
      and_self]

/-- A call that makes no unit leaves the surroundings as they are. -/
theorem perform_around (hn : ∀ u, ¬ e.Makes c u) : (e.perform c).2.state.around = e.state.around := by
  have ha := e.inPlace_alike
  rcases e.perform_cases c with ⟨f, -, he⟩ | ⟨hf, he⟩
  · rw [he]
  · rw [he, ← ha.around, evaluateHere]
    cases hw : wrap c.prelude c.code (unitName e.inPlace.nextUnit) with
    | error f => rfl
    | ok u =>
      rw [ha.nextUnit] at hw
      exact absurd ⟨hf, hw⟩ (hn u)

/-- Calls work in one way, and count their units. -/
theorem perform_next (e : Evaluator σ τ π ω κ) (c : Call) :
    (e.perform c).2.pipeline = e.pipeline ∧ (e.perform c).2.worker = e.worker ∧
      e.nextUnit ≤ (e.perform c).2.nextUnit ∧
        ((e.perform c).1 = .timeout → e.nextUnit < (e.perform c).2.nextUnit) := by
  have ha := e.inPlace_alike
  rcases e.perform_cases c with ⟨f, -, he⟩ | ⟨-, he⟩
  · rw [he]
    exact ⟨rfl, rfl, Nat.le_refl _, nofun⟩
  · rw [he, evaluateHere]
    cases wrap c.prelude c.code (unitName e.inPlace.nextUnit) with
    | error f => exact ⟨ha.pipeline, ha.worker, ha.nextUnit ▸ Nat.le_succ _, nofun⟩
    | ok u =>
      simp only [(settle_alike _ _).pipeline, (settle_alike _ _).worker, (settle_alike _ _).nextUnit, ha.pipeline,
        ha.worker, ha.nextUnit, true_and]
      exact ⟨Nat.le_succ _, fun _ => Nat.lt_succ_self _⟩

theorem after_concat (e : Evaluator σ τ π ω κ) (calls : List Call) (c : Call) :
    e.after (calls ++ [c]) = ((e.after calls).perform c).2 := by
  simp only [after, List.foldl_append, List.foldl_cons, List.foldl_nil]

theorem after_append (e : Evaluator σ τ π ω κ) (calls calls' : List Call) :
    e.after (calls ++ calls') = (e.after calls).after calls' := List.foldl_append

theorem after_next (e : Evaluator σ τ π ω κ) (calls : List Call) : (e.after calls).pipeline = e.pipeline ∧
    (e.after calls).worker = e.worker ∧ e.nextUnit ≤ (e.after calls).nextUnit := by
  induction calls generalizing e with
  | nil => exact ⟨rfl, rfl, Nat.le_refl _⟩
  | cons c calls ih =>
    obtain ⟨hp, hw, hn⟩ := ih (e.perform c).2
    obtain ⟨hpc, hwc, hnc, -⟩ := e.perform_next c
    exact ⟨hp.trans hpc, hw.trans hwc, Nat.le_trans hnc hn⟩

end Calls

section Importer

variable {σ : Type}

/-- Who has the lock of the importer, and how often it was taken. -/
def lock (e : Evaluator σ ThreadId Policy Shared ModuleBody) : Option (ThreadId × Nat) :=
  e.state.around.world.1.lock

/-- The modules of the importer. -/
def shelf (e : Evaluator σ ThreadId Policy Shared ModuleBody) : Shelf := e.state.around.world.2

end Importer

end Evaluator

namespace Library

variable {σ : Type}

section Runs

variable (lib : Library) (worker : ThreadId → Stamina)

/-- An evaluator that runs units with this library and these workers. -/
structure Serves (e : Evaluator σ ThreadId Policy Shared ModuleBody) : Prop where
  pipeline : ∃ (toolchain : Toolchain (σ × Outside) Policy Fault ModuleBody) (gate : Gate Policy)
    (classpath : String) (options : CompilerOptions),
    e.pipeline = .ofRun toolchain.aside gate classpath options (lib.runUnit worker)
  worker : e.worker = .worker

/-- The depth that the imports of the next unit may have. -/
def room (e : Evaluator σ ThreadId Policy Shared ModuleBody) : Nat := (worker (.worker e.nextUnit)).depth

/-- The unit of a call comes to an import; this is the desk that the import finds. -/
def Comes (e : Evaluator σ ThreadId Policy Shared ModuleBody) (c : Call) (r : ImportRequest) (d : Desk) : Prop :=
  ∃ code s, e.Starts c code s ∧ Arrives lib (room worker e) code
    ((worker (.worker e.nextUnit)).desk (.worker e.nextUnit) s) r d

/-- Among these calls there is one that was given up, whose worker has this number and stopped inside an import. -/
def StoppedInside (e : Evaluator σ ThreadId Policy Shared ModuleBody) (calls : List Call) (k : Nat) : Prop :=
  ∃ earlier c later r d d', calls = earlier ++ c :: later ∧ ((e.after earlier).perform c).1 = .timeout ∧
    (e.after earlier).nextUnit = k ∧ lib.Comes worker (e.after earlier) c r d ∧
    lib.importAt (room worker (e.after earlier)) r d = (.stuck, d')

end Runs

variable {lib : Library} {worker : ThreadId → Stamina} {e : Evaluator σ ThreadId Policy Shared ModuleBody} {c : Call}
  {code : ModuleBody} {s : SharedSurroundings} {calls : List Call}

theorem engine_serves (toolchain : Toolchain (σ × Outside) Policy Fault ModuleBody) (tools : σ) (files : FileTree)
    (config : EngineConfig) : lib.Serves worker (lib.engine worker toolchain tools files config) where
  pipeline := ⟨_, _, _, _, rfl⟩
  worker := rfl

namespace Serves

theorem after (h : lib.Serves worker e) (calls : List Call) : lib.Serves worker (e.after calls) where
  pipeline := by
    rw [(e.after_next calls).1]
    exact h.pipeline
  worker := (e.after_next calls).2.1.trans h.worker

/-- A toolchain leaves the importer alone. -/
theorem call_importer (h : lib.Serves worker e) (t : ThreadId) (u : SnippetUnit)
    (s : PipelineState σ ThreadId Policy Shared ModuleBody) :
    (e.pipeline.compile.call u (s.toCompile t)).2.2.1.lock = s.around.world.1.lock ∧
      (e.pipeline.compile.call u (s.toCompile t)).2.2.2 = s.around.world.2 := by
  obtain ⟨toolchain, gate, classpath, options, hp⟩ := h.pipeline
  rw [hp]
  exact ⟨rfl, rfl⟩

/-- A unit finds the importer as the call before left it. -/
theorem starts_importer (h : lib.Serves worker e) (hst : e.Starts c code s) :
    s.world.1.lock = e.lock ∧ s.world.2 = e.shelf := by
  obtain ⟨u, -, -, rfl⟩ := hst
  have hc := h.call_importer (e.worker e.nextUnit) u e.inPlace.state
  rw [← Pipeline.compiled_world, e.inPlace_alike.around] at hc
  exact hc

/-- A call leaves the importer as its unit does. -/
theorem starts_perform (h : lib.Serves worker e) (hst : e.Starts c code s) : ∃ u,
    (e.perform c).2.state.around.world = (lib.runUnit worker (.worker e.nextUnit) u code s).2.world ∧
      ((lib.runUnit worker (.worker e.nextUnit) u code s).1 = .endless → (e.perform c).1 = .timeout) := by
  obtain ⟨u, hm, hr, rfl⟩ := hst
  obtain ⟨hw, hend⟩ := hr.work_world Evaluator.targetId c.resultType
  obtain ⟨toolchain, gate, classpath, options, hp⟩ := h.pipeline
  have hrun : e.pipeline.run.run = lib.runUnit worker := by rw [hp]; rfl
  have ht : e.worker e.nextUnit = .worker e.nextUnit := by rw [h.worker]
  rw [hrun] at hw hend
  rw [← ht]
  refine ⟨u, ?_, fun he => ?_⟩
  · rw [hm.perform_eq.2, hw]
  · rw [hm.perform_eq.1, hend he]
    rfl

/-- A call whose unit does not come to run leaves the importer as it is. -/
theorem idle_perform (h : lib.Serves worker e) (hn : ∀ code s, ¬ e.Starts c code s) :
    (e.perform c).2.lock = e.lock ∧ (e.perform c).2.shelf = e.shelf := by
  by_cases hm : ∃ u, e.Makes c u
  · obtain ⟨u, hm⟩ := hm
    have hw := e.pipeline.work_world (s := e.inPlace.state) (t := e.worker e.nextUnit) (u := u) Evaluator.targetId
      c.resultType fun code hr => hn code _ ⟨u, hm, hr, rfl⟩
    have hc := h.call_importer (e.worker e.nextUnit) u e.inPlace.state
    rw [← hw, ← hm.perform_eq.2, e.inPlace_alike.around] at hc
    exact hc
  · have ha := Evaluator.perform_around fun u hu => hm ⟨u, hu⟩
    simp only [Evaluator.lock, Evaluator.shelf, ha, and_self]

end Serves

namespace StoppedInside

variable {k : Nat}

theorem concat (h : lib.StoppedInside worker e calls k) (c : Call) : lib.StoppedInside worker e (calls ++ [c]) k := by
  obtain ⟨earlier, c', later, r, d, d', rfl, hrest⟩ := h
  exact ⟨earlier, c', later ++ [c], r, d, d', by simp, hrest⟩

/-- Units are never numbered as the unit of a call that was given up. -/
theorem lt (h : lib.StoppedInside worker e calls k) : k < (e.after calls).nextUnit := by
  obtain ⟨earlier, c, later, -, -, -, rfl, ht, rfl, -⟩ := h
  have hc : (e.after earlier).nextUnit < ((e.after earlier).perform c).2.nextUnit :=
    ((e.after earlier).perform_next c).2.2.2 ht
  rw [Evaluator.after_append]
  exact Nat.lt_of_lt_of_le hc (((e.after earlier).perform c).2.after_next later).2.2

end StoppedInside

/-- What calls leave of the importer: its lock is free, and what it has loaded was run to its end; or a worker that
stopped inside an import has the lock. -/
def Left (lib : Library) (worker : ThreadId → Stamina) (e : Evaluator σ ThreadId Policy Shared ModuleBody)
    (calls : List Call) : Prop :=
  ((e.after calls).lock = none ∧ lib.Stretch .empty (e.after calls).shelf) ∨
    ∃ k depth, (e.after calls).lock = some (.worker k, depth + 1) ∧ lib.StoppedInside worker e calls k

/-- The next call leaves it so. -/
theorem Left.concat (h : lib.Left worker e calls) (hs : lib.Serves worker e) (c : Call) :
    lib.Left worker e (calls ++ [c]) := by
  have hsa := hs.after calls
  unfold Left
  rw [Evaluator.after_concat]
  by_cases hst : ∃ code s, (e.after calls).Starts c code s
  · obtain ⟨code, s, hst⟩ := hst
    obtain ⟨hl, hm⟩ := hsa.starts_importer hst
    obtain ⟨u, hw, hend⟩ := hsa.starts_perform hst
    have hlock : ((e.after calls).perform c).2.lock =
        (lib.runUnit worker (.worker (e.after calls).nextUnit) u code s).2.world.1.lock := congrArg (·.1.lock) hw
    have hshelf : ((e.after calls).perform c).2.shelf =
        (lib.runUnit worker (.worker (e.after calls).nextUnit) u code s).2.world.2 := congrArg (·.2) hw
    rw [hlock, hshelf]
    rcases h with ⟨hn, hs₀⟩ | ⟨k, depth, hk, hin⟩
    · rcases runUnit_free (hl.trans hn) with ⟨hl', hs'⟩ | ⟨he, ⟨depth, hd⟩, r, d, d', ha, hi⟩
      · exact .inl ⟨hl', hs₀.trans (hm ▸ hs')⟩
      · exact .inr ⟨_, depth, hd, calls, c, [], r, d, d', rfl, hend he, rfl, ⟨code, s, hst, ha⟩, hi⟩
    · have hne : ThreadId.worker k ≠ .worker (e.after calls).nextUnit := fun he =>
        absurd (ThreadId.worker.inj he) (Nat.ne_of_lt hin.lt)
      exact .inr ⟨k, depth, runUnit_held (hl.trans hk) hne, hin.concat c⟩
  · obtain ⟨hl, hm⟩ := hsa.idle_perform (c := c) fun code s hc => hst ⟨code, s, hc⟩
    rw [hl, hm]
    exact h.imp_right fun ⟨k, depth, hk, hin⟩ => ⟨k, depth, hk, hin.concat c⟩

/-- So does every run of calls on a new evaluator. -/
theorem engine_left (toolchain : Toolchain (σ × Outside) Policy Fault ModuleBody) (tools : σ) (files : FileTree)
    (config : EngineConfig) (calls : List Call) :
    lib.Left worker (lib.engine worker toolchain tools files config) calls := by
  induction calls using List.reverseRecOn with
  | nil => exact .inl ⟨rfl, .refl _⟩
  | append_singleton calls c ih => exact ih.concat (engine_serves ..) c

/-- What becomes of the imports of the next unit, behind calls of which some were given up. -/
structure ImportsBehind (lib : Library) (worker : ThreadId → Stamina)
    (e : Evaluator σ ThreadId Policy Shared ModuleBody) (calls : List Call) : Prop where
  /-- The lock is free unless a worker that was given up stopped inside an import. -/
  lock_left : (e.after calls).lock = none ∨
    ∃ k depth, (e.after calls).lock = some (.worker k, depth + 1) ∧ lib.StoppedInside worker e calls k
  /-- A unit gets modules of the host, and modules whose body was run once and to its end. -/
  complete : ∀ c r d m d', lib.Comes worker (e.after calls) c r d →
    lib.importAt (room worker (e.after calls)) r d = (.ended (.ok m), d') →
      lib.host r = .ok m ∨ ∃ name, runsIn m d'.shelf.record = [⟨.began, name, m⟩, ⟨.completed, name, m⟩]
  /-- With a free lock, an import ends as it does for a single thread, unless its worker stops. -/
  unblocked : (e.after calls).lock = none → ∀ c r d, lib.Comes worker (e.after calls) c r d →
    (∃ d', lib.importAt (room worker (e.after calls)) r d = (.stuck, d')) ∨
      ∃ res d', lib.importAt (room worker (e.after calls)) r d = (.ended res, d') ∧ lib.Ends r d.shelf res d'.shelf
  /-- With a lock that is held, an import from the classpath never ends, and the call is given up. -/
  blocked : (e.after calls).lock ≠ none → ∀ c r d name, lib.Comes worker (e.after calls) c r d →
    absoluteName r.name r.package r.level.toNat = .ok name → lib.Owns d.shelf name →
      (∀ res d', lib.importAt (room worker (e.after calls)) r d ≠ (.ended res, d')) ∧
        ((e.after calls).perform c).1 = .timeout

/-- A unit that comes to an import behind a free lock finds it free there. -/
theorem Comes.free {r : ImportRequest} {d : Desk} (h : lib.Comes worker e c r d) (hs : lib.Serves worker e)
    (hl : e.lock = none) : d.world.world.lock = none ∧ lib.Stretch e.shelf d.shelf := by
  obtain ⟨code, s, hst, next, hp⟩ := h
  obtain ⟨hls, hm⟩ := hs.starts_importer hst
  obtain ⟨hw, hst⟩ := hp.free (hls.trans hl)
  rw [hw]
  exact ⟨hls.trans hl, hm ▸ hst⟩

/-- A unit that comes to an import behind a lock that is held finds it held there. -/
theorem Comes.held {r : ImportRequest} {d : Desk} {owner : ThreadId} {depth : Nat} (h : lib.Comes worker e c r d)
    (hs : lib.Serves worker e) (hl : e.lock = some (owner, depth)) (ho : owner ≠ .worker e.nextUnit) :
    d.world.world.lock = some (owner, depth) ∧ owner ≠ d.world.thread := by
  obtain ⟨code, s, hst, next, hp⟩ := h
  have hls := (hs.starts_importer hst).1.trans hl
  rw [hp.held hls ho]
  exact ⟨hls, ho⟩

theorem engine_importsBehind (lib : Library) (worker : ThreadId → Stamina)
    (toolchain : Toolchain (σ × Outside) Policy Fault ModuleBody) (tools : σ) (files : FileTree)
    (config : EngineConfig) (calls : List Call) :
    lib.ImportsBehind worker (lib.engine worker toolchain tools files config) calls := by
  have hs := (@engine_serves _ lib worker toolchain tools files config).after calls
  have hleft := @engine_left _ lib worker toolchain tools files config calls
  generalize lib.engine worker toolchain tools files config = e at hs hleft
  have hheld {owner : ThreadId} {depth : Nat} (hl : (e.after calls).lock = some (owner, depth)) :
      owner ≠ .worker (e.after calls).nextUnit := by
    rcases hleft with ⟨hn, -⟩ | ⟨k, depth', hk, hin⟩
    · cases hl.symm.trans hn
    · cases hl.symm.trans hk
      exact fun he => absurd (ThreadId.worker.inj he) (Nat.ne_of_lt hin.lt)
  constructor
  case lock_left => exact hleft.imp_left (·.1)
  case complete =>
    intro c r d m d' hc hi
    rcases hleft with ⟨hn, hst⟩ | ⟨k, depth, hk, -⟩
    · obtain ⟨hl, hst'⟩ := hc.free hs hn
      rcases importAt_free hl with ⟨_, hstuck, -⟩ | ⟨res, s, steps, he, hq⟩
      · cases hi.symm.trans hstuck
      · cases hi.symm.trans he
        have hall : lib.Stretch .empty s := (hst.trans hst').trans (request_stretching _ r d.shelf _ s trivial hq).1
        exact (request_obtains hq).imp_right fun ⟨name, hf⟩ => ⟨name, hall.ran_once hf⟩
    · obtain ⟨hl, ho⟩ := hc.held hs hk (hheld hk)
      obtain ⟨x, steps, he, hx⟩ := importAt_held hl ho
      cases hi.symm.trans he
      exact .inl ((hx _ rfl).2 m rfl)
  case unblocked =>
    intro hn c r d hc
    rcases importAt_free (hc.free hs hn).1 with ⟨d', hstuck, -⟩ | ⟨res, s, steps, he, hq⟩
    · exact .inl ⟨d', hstuck⟩
    · exact .inr ⟨res, _, he, _, hq⟩
  case blocked =>
    intro hn c r d name hc hname howns
    obtain ⟨owner, depth, hk⟩ : ∃ owner depth, (e.after calls).lock = some (owner, depth) := by
      obtain ⟨⟨owner, depth⟩, hk⟩ := Option.ne_none_iff_exists'.mp hn
      exact ⟨owner, depth, hk⟩
    obtain ⟨hl, ho⟩ := hc.held hs hk (hheld hk)
    have hnever : ∀ res d', lib.importAt (room worker (e.after calls)) r d ≠ (.ended res, d') := by
      intro res d' hi
      obtain ⟨x, steps, he, hx⟩ := importAt_held hl ho
      cases hi.symm.trans he
      exact (hx _ rfl).1 name hname howns
    obtain ⟨code, s, hst, ha⟩ := hc
    obtain ⟨u, -, hend⟩ := hs.starts_perform hst
    exact ⟨hnever, hend (runUnit_endless.mpr (ha.not_ended hnever))⟩

/-- A module that imports another one. -/
def nested : Library where
  entries := ["/cp"]
  find name path :=
    if path = ["/cp"] ∧ (name = "stuck" ∨ name = "helpers") then some ⟨name, some ("/cp/" ++ name ++ ".py"), none⟩
    else none
  body spec _ := if spec.name = "stuck" then .imports ⟨"helpers", "", [], 0⟩ fun _ => .done else .done
  born _ := ["__name__"]
  host r := .ok (.host r.name)

/-- A unit that imports one of the two modules. -/
def nestedUnit (source : List Char) : ModuleBody :=
  .imports ⟨if source.contains '~' then "stuck" else "helpers", "", [], 0⟩ fun
    | .ok _ => .done
    | .error e => .fail e

/-- Snippets are units that import, or they hang the toolchain. -/
def nestedToolchain : Toolchain (Unit × Outside) Policy Fault ModuleBody where
  run r _ s := (⟨[], .produced (nestedUnit r.source)⟩, s)
  hangs r _ _ := r.source.contains '*'

/-- The first worker stops inside the body of the module, if it comes there. -/
def nestedWorker (t : ThreadId) : Stamina := if t = .worker 1 then ⟨9, 4⟩ else ⟨100, 4⟩

def nestedEngine : Evaluator Unit ThreadId Policy Shared ModuleBody :=
  nested.engine nestedWorker nestedToolchain () (.empty "/") ⟨["/cp"], [], .bool false, .int 1, Policy.default, .int 500⟩

/-- A unit comes to its import at once. -/
theorem nested_comes {e : Evaluator Unit ThreadId Policy Shared ModuleBody} {c : Call} {u : SnippetUnit}
    (hp : e.pipeline = nestedEngine.pipeline) (hm : e.Makes c u) (hu : u.source.contains '*' = false) :
    nested.Comes nestedWorker e c ⟨if u.source.contains '~' then "stuck" else "helpers", "", [], 0⟩
      ((nestedWorker (.worker e.nextUnit)).desk (.worker e.nextUnit) (e.pipeline.run.inside (e.worker e.nextUnit)
        (e.pipeline.compiled (e.worker e.nextUnit) u e.inPlace.state).around)) := by
  have hr : e.pipeline.Runs (e.worker e.nextUnit) u e.inPlace.state (nestedUnit u.source) := by
    rw [hp]
    exact ⟨Pipeline.called_eq_some.mpr ⟨hu, rfl⟩, rfl⟩
  exact ⟨_, _, ⟨u, hm, hr, rfl⟩, _, .refl _ _⟩

/-- A worker that stopped in the toolchain does no harm to the next call. One that stopped inside the body of a module
has the lock, and the next unit waits for it when it imports another module: both calls are given up. -/
theorem nested_blocked :
    (nestedEngine.perform ⟨[], ['*'], none⟩).1.kindName = "timeout" ∧
    ((nestedEngine.after [⟨[], ['*'], none⟩]).perform ⟨[], ['1'], none⟩).1.kindName = "success" ∧
    (nestedEngine.perform ⟨[], ['~'], none⟩).1.kindName = "timeout" ∧
    (nestedEngine.after [⟨[], ['~'], none⟩]).shelf.record = [⟨.began, "stuck", .own 0⟩] ∧
    (nestedEngine.after [⟨[], ['~'], none⟩]).lock = some (.worker 1, 1) ∧
    (∃ r d, nested.Comes nestedWorker (nestedEngine.after [⟨[], ['~'], none⟩]) ⟨[], ['1'], none⟩ r d ∧
      (nested.importAt (room nestedWorker (nestedEngine.after [⟨[], ['~'], none⟩])) r d).1.isWaiting = true) ∧
    ((nestedEngine.after [⟨[], ['~'], none⟩]).perform ⟨[], ['1'], none⟩).1.kindName = "timeout" := by
  refine ⟨?_, ?_, ?_, ?_, ?_, ?_, ?_⟩
  case refine_6 =>
    have hp := (nestedEngine.after_next [⟨[], ['~'], none⟩]).1
    have hrot : (nestedEngine.after [⟨[], ['~'], none⟩]).mustRotate.toOption.isSome = true := by decide +kernel
    have hm := Evaluator.makes_getD (c := ⟨[], ['1'], none⟩) hrot (by decide +kernel)
    exact ⟨_, _, nested_comes hp hm (by decide +kernel), by decide +kernel⟩
  all_goals decide +kernel

end Library

end Evalbox
