import Evalbox.Proofs.Modules.Parents
import Evalbox.Proofs.Modules.Stint

/-!
# Workers that stop during an import

A worker that has the lock of the importer does what the importer does without any lock, as far as it comes; where
it stops, it still has the lock. A worker that finds the lock with another thread waits for ever, if the classpath
has what it imports. Both are shown for every function of the importer in turn.
-/

namespace Evalbox

namespace Loading

variable {α β : Type}

/-- Go on behind work that came to its end. -/
def andThen (p : Loading α) (f : Except ImportFailure α → Loading β) : Loading β := fun s =>
  match p s with
  | some (res, s) => f res s
  | none => none

theorem bind_eq (p : Loading α) (f : α → Loading β) : p >>= f = p.andThen fun
    | .ok a => f a
    | .error e => .fail e := by
  funext s
  change Loading.bind p f s = _
  unfold Loading.bind andThen
  cases p s with
  | none => rfl
  | some x =>
    obtain ⟨res, s⟩ := x
    cases res <;> rfl

theorem onFailure_eq (work cleanup : Loading Unit) : work.onFailure cleanup = work.andThen fun
    | .error e => cleanup.andThen fun _ => .fail e
    | .ok () => pure () := by
  funext s
  simp only [onFailure, andThen]
  cases work s with
  | none => rfl
  | some x =>
    obtain ⟨res, s'⟩ := x
    cases res with
    | ok _ => rfl
    | error e =>
      simp only [andThen]
      cases cleanup s' <;> rfl

end Loading

/-- A step on the shelf is made, or the worker stops before it. -/
theorem Stint.onShelf_cases {α : Type} (q : Loading α) (d : Desk) : Stint.onShelf q d = (.stuck, d) ∨
    ∃ res s steps, Stint.onShelf q d = (.ended res, ⟨d.world, s, steps⟩) ∧ q d.shelf = some (res, s) := by
  cases hs : d.steps with
  | zero => exact .inl (by simp [Stint.onShelf, hs])
  | succ steps =>
    cases hq : q d.shelf with
    | none => exact .inl (by simp [Stint.onShelf, hs, hq])
    | some x => exact .inr ⟨x.1, x.2, steps, by simp [Stint.onShelf, hs, hq], rfl⟩

theorem Stint.onShelf_ended {α : Type} {q : Loading α} {d d' : Desk} {res : Except ImportFailure α}
    (h : Stint.onShelf q d = (.ended res, d')) : d'.world = d.world ∧ q d.shelf = some (res, d'.shelf) := by
  rcases onShelf_cases q d with hs | ⟨res', s, steps, he, hq⟩
  · cases h.symm.trans hs
  · cases h.symm.trans he
    exact ⟨rfl, hq⟩

/-- A worker that has the lock does what is done without a lock, unless it stops before; then it has the lock
still. -/
def Follows {α : Type} (p : Stint α) (q : Loading α) : Prop :=
  ∀ d : Desk, d.Holds →
    (∃ d', p d = (.stuck, d') ∧ d'.Holds ∧ d'.world.thread = d.world.thread) ∨
      ∃ res s steps, p d = (.ended res, ⟨d.world, s, steps⟩) ∧ q d.shelf = some (res, s)

namespace Follows

variable {α β : Type} {p : Stint α} {q : Loading α}

theorem give (res : Except ImportFailure α) : Follows (.give res) fun s => some (res, s) :=
  fun d _ => .inr ⟨res, d.shelf, d.steps, rfl, rfl⟩

theorem stop (q : Loading α) : Follows .stop q := fun d hd => .inl ⟨d, rfl, hd, rfl⟩

theorem onShelf (q : Loading α) : Follows (.onShelf q) q := by
  intro d hd
  rcases Stint.onShelf_cases q d with hs | hend
  · exact .inl ⟨d, hs, hd, rfl⟩
  · exact .inr hend

theorem andThen {f : Except ImportFailure α → Stint β} {g : Except ImportFailure α → Loading β} (hp : Follows p q)
    (hf : ∀ res, Follows (f res) (g res)) : Follows (p.andThen f) (q.andThen g) := by
  intro d hd
  rcases hp d hd with ⟨d', hs, hd'⟩ | ⟨res, s, steps, he, hq⟩
  · exact .inl ⟨d', by rw [Stint.andThen, hs], hd'⟩
  · have hpe : p.andThen f d = f res ⟨d.world, s, steps⟩ := by rw [Stint.andThen, he]
    have hqe : q.andThen g d.shelf = g res s := by rw [Loading.andThen, hq]
    rw [hpe, hqe]
    exact hf res ⟨d.world, s, steps⟩ hd

theorem bind {f : α → Stint β} {g : α → Loading β} (hp : Follows p q) (hf : ∀ a, Follows (f a) (g a)) :
    Follows (p >>= f) (q >>= g) := by
  rw [Loading.bind_eq]
  refine hp.andThen fun res => ?_
  cases res with
  | ok a => exact hf a
  | error e => exact .give (.error e)

/-- Work with the lock that the worker takes and gives back. -/
theorem alone_of (hp : Follows p q) {d : Desk} (depth : Nat)
    (htake : Stint.lock d = (.ended (.ok ()), d.locked depth))
    (hback : (d.locked depth).world.releaseLock = d.world) :
    (∃ d', Stint.alone p d = (.stuck, d') ∧ d'.Holds ∧ d'.world.thread = d.world.thread) ∨
      ∃ res s steps, Stint.alone p d = (.ended res, ⟨d.world, s, steps⟩) ∧ q d.shelf = some (res, s) := by
  rcases hp (d.locked depth) (d.locked_holds depth) with ⟨d', hs, hd'⟩ | ⟨res, s, steps, he, hq⟩
  · refine .inl ⟨d', ?_, hd'⟩
    rw [Stint.alone, Stint.andThen, htake]
    simp only [Stint.andThen, hs]
  · refine .inr ⟨res, s, steps, ?_, hq⟩
    rw [Stint.alone, Stint.andThen, htake]
    simp only [Stint.andThen, he, Stint.unlock, Stint.give, hback]

/-- The lock is taken once more for nested work, and given back once. -/
theorem alone (hp : Follows p q) : Follows (.alone p) q := by
  rintro d ⟨depth, hl⟩
  have htake : Stint.lock d = (.ended (.ok ()), d.locked (depth + 1)) := by
    rw [Stint.lock, World.takeLock, hl]
    simp [Desk.locked]
  have hback : (d.locked (depth + 1)).world.releaseLock = d.world := by
    simp only [Desk.locked, World.releaseLock, World.modify]
    rw [← hl]
  exact hp.alone_of (depth + 1) htake hback

end Follows

namespace Library

variable {lib : Library} {enter : ImportRequest → Stint ModuleRef} {enter' : ImportRequest → Loading ModuleRef}
  {again : String → Stint ModuleRef} {again' : String → Loading ModuleRef}

theorem performing_follows (he : ∀ r, Follows (enter r) (enter' r)) (b : ModuleBody) :
    Follows (performing enter b) (perform enter' b) := by
  induction b with
  | done => exact .give (.ok ())
  | fail e => exact .give (.error e)
  | imports r next ih =>
    have hq : perform enter' (.imports r next) = (enter' r).andThen fun res => perform enter' (next res) := by
      funext s
      simp only [perform, Loading.andThen]
      cases enter' r s <;> rfl
    rw [hq]
    exact (he r).andThen ih
  | looks m name next ih => exact (Follows.onShelf _).bind ih
  | binds m name next ih => exact (Follows.onShelf _).bind fun _ => ih

/-- A body is run in parts, each of which goes on behind the one before. -/
theorem execute_eq (enter' : ImportRequest → Loading ModuleRef) (spec : ModuleSpec) (m : ModuleRef) :
    lib.execute enter' spec m = (Loading.change fun s => s.note ⟨.began, spec.name, m⟩) >>= fun _ =>
      (perform enter' (lib.body spec m)).andThen fun
        | .ok () => .change fun s => s.note ⟨.completed, spec.name, m⟩
        | .error e => (Loading.change fun s => s.note ⟨.broke, spec.name, m⟩) >>= fun _ => .fail e := by
  funext s
  simp only [Loading.bind_eq, Loading.andThen, Loading.change, execute]
  cases perform enter' (lib.body spec m) (s.note ⟨.began, spec.name, m⟩) with
  | none => rfl
  | some x =>
    obtain ⟨res, s'⟩ := x
    cases res <;> rfl

theorem executing_follows (he : ∀ r, Follows (enter r) (enter' r)) (spec : ModuleSpec) (m : ModuleRef) :
    Follows (lib.executing enter spec m) (lib.execute enter' spec m) := by
  rw [execute_eq]
  refine (Follows.onShelf _).bind fun _ => (performing_follows he _).andThen fun res => ?_
  cases res with
  | ok _ => exact .onShelf _
  | error e => exact (Follows.onShelf _).bind fun _ => .give (.error e)

theorem run_follows (he : ∀ r, Follows (enter r) (enter' r)) (name : String) (spec : ModuleSpec) :
    Follows ((lib.serving enter).run name spec) ((lib.importing enter').run name spec) := by
  refine (Follows.onShelf _).bind fun m => (Follows.onShelf _).bind fun _ => .bind ?_ fun _ => .give (.ok m)
  change Follows (Stint.onFailure _ _) (Loading.onFailure _ _)
  rw [Loading.onFailure_eq]
  refine (executing_follows he spec m).andThen fun res => ?_
  cases res with
  | ok _ => exact .give (.ok ())
  | error e => exact (Follows.onShelf _).andThen fun _ => .give (.error e)

theorem loadFound_follows (he : ∀ r, Follows (enter r) (enter' r)) (name : String) (parent : Option ModuleRef)
    (found : Option ModuleSpec) : Follows ((lib.serving enter).loadFound name parent found)
      ((lib.importing enter').loadFound name parent found) := by
  cases found with
  | none => exact .onShelf _
  | some spec =>
    unfold Importing.loadFound
    simp only
    split
    · exact .onShelf _
    · refine (run_follows he name spec).bind fun m => ?_
      cases parent with
      | none => exact (Follows.give (.ok ())).bind fun _ => .give (.ok m)
      | some p => exact (Follows.onShelf _).bind fun _ => .give (.ok m)

theorem loadBelow_follows (he : ∀ r, Follows (enter r) (enter' r)) (name : String) (parent : Option ModuleRef) :
    Follows ((lib.serving enter).loadBelow name parent) ((lib.importing enter').loadBelow name parent) := by
  cases parent with
  | none =>
    rw [Importing.loadBelow_none, Importing.loadBelow_none]
    exact (Follows.onShelf _).bind fun path => (Follows.onShelf _).bind (loadFound_follows he name none)
  | some p =>
    rw [Importing.loadBelow_some, Importing.loadBelow_some]
    exact (Follows.onShelf _).bind fun found => (Follows.give (.ok _)).bind fun path =>
      (Follows.onShelf _).bind (loadFound_follows he name (some p))

theorem load_follows (he : ∀ r, Follows (enter r) (enter' r)) (ha : ∀ name, Follows (again name) (again' name))
    (name : String) : Follows ((lib.serving enter).load again name) ((lib.importing enter').load again' name) := by
  unfold Importing.load
  refine (Follows.onShelf _).bind fun found => ?_
  cases found with
  | some m => exact .give (.ok m)
  | none =>
    simp only
    split
    · exact loadBelow_follows he name none
    · refine (ha _).bind fun parent => (Follows.onShelf _).bind fun found => ?_
      cases found with
      | some m => exact .give (.ok m)
      | none => exact loadBelow_follows he name (some parent)

theorem loadNames_follows (ha : ∀ name, Follows (again name) (again' name)) (name : String) (m : ModuleRef)
    (names : List String) : Follows ((lib.serving enter).loadNames again name m names)
      ((lib.importing enter').loadNames again' name m names) := by
  induction names with
  | nil => exact .give (.ok ())
  | cons n rest ih =>
    have hone : ∀ known, Follows
        ((lib.serving enter).loadOne again name m n ((lib.serving enter).loadNames again name m rest) known)
        ((lib.importing enter').loadOne again' name m n
          ((lib.importing enter').loadNames again' name m rest) known) := by
      intro known
      cases known with
      | true => exact ih
      | false =>
        refine (Follows.onShelf _).bind fun package => ?_
        cases package with
        | true => exact (ha _).bind fun _ => ih
        | false => exact ih
    rw [Importing.loadNames_cons, Importing.loadNames_cons]
    split
    · exact (Follows.give (.ok true)).bind hone
    · exact (Follows.onShelf _).bind hone

theorem importOwned_follows (ha : ∀ name, Follows (again name) (again' name)) (r : ImportRequest) (name : String) :
    Follows ((lib.serving enter).importOwned again r name) ((lib.importing enter').importOwned again' r name) := by
  unfold Importing.importOwned
  refine (ha name).bind fun m => ?_
  split
  · exact (loadNames_follows ha name m r.names).bind fun _ => .give (.ok m)
  · split
    · exact .give (.ok m)
    · refine (Follows.onShelf _).bind fun root => ?_
      cases root with
      | some root => exact .give (.ok root)
      | none => exact .onShelf _

theorem owns_follows (name : String) :
    Follows ((lib.serving enter).owns name) ((lib.importing enter').owns name) := by
  unfold Importing.owns
  refine (Follows.onShelf _).bind fun root => ?_
  cases root with
  | some root => exact .give (.ok true)
  | none =>
    refine (Follows.onShelf _).bind fun entries => ?_
    split
    · exact .give (.ok false)
    · exact (Follows.onShelf _).bind fun found => .give (.ok found.isSome)

theorem importModule_follows (ha : ∀ name, Follows (again name) (again' name)) (r : ImportRequest) :
    Follows ((lib.serving enter).importModule again r) ((lib.importing enter').importModule again' r) := by
  unfold Importing.importModule
  split
  · exact .onShelf _
  · rename_i name _
    refine (owns_follows name).bind fun owned => ?_
    cases owned with
    | false => exact .onShelf _
    | true => exact (importOwned_follows ha r name).alone

theorem loadAt_follows (n : Nat) (name : String) : Follows (lib.loadAt n name) (lib.load n name) := by
  induction n generalizing name with
  | zero => exact .stop _
  | succ n ih => exact load_follows (importModule_follows ih) ih name

end Library

/-- Work that only looks at the shelf, whoever has the lock. -/
def Reads {α : Type} (p : Stint α) (q : Loading α) : Prop :=
  ∀ d : Desk, (∃ steps, p d = (.stuck, { d with steps })) ∨
    ∃ res steps, p d = (.ended res, { d with steps }) ∧ q d.shelf = some (res, d.shelf)

namespace Reads

variable {α β : Type} {p : Stint α} {q : Loading α}

theorem give (res : Except ImportFailure α) : Reads (.give res) fun s => some (res, s) :=
  fun d => .inr ⟨res, d.steps, rfl, rfl⟩

theorem onShelf {q : Loading α} (h : ∀ s, ∃ res, q s = some (res, s)) : Reads (.onShelf q) q := by
  rintro ⟨world, shelf, steps⟩
  obtain ⟨res, hq⟩ := h shelf
  cases steps with
  | zero => exact .inl ⟨0, rfl⟩
  | succ steps => exact .inr ⟨res, steps, by simp [Stint.onShelf, hq], hq⟩

theorem bind {f : α → Stint β} {g : α → Loading β} (hp : Reads p q) (hf : ∀ a, Reads (f a) (g a)) :
    Reads (p >>= f) (q >>= g) := by
  intro d
  rw [Loading.bind_eq]
  change (∃ steps, Stint.andThen p _ d = _) ∨ ∃ res steps, Stint.andThen p _ d = _ ∧ _
  rcases hp d with ⟨steps, hs⟩ | ⟨res, steps, he, hq⟩
  · exact .inl ⟨steps, by rw [Stint.andThen, hs]⟩
  · rw [Stint.andThen, he, Loading.andThen, hq]
    cases res with
    | error e => exact .inr ⟨.error e, steps, rfl, rfl⟩
    | ok a => exact hf a { d with steps }

end Reads

namespace Library

variable {lib : Library} {n : Nat} {r : ImportRequest} {d : Desk}

theorem owns_reads (name : String) :
    Reads ((lib.serving fun _ => .stop).owns name) ((lib.importing fun _ => .exhausted).owns name) := by
  unfold Importing.owns
  refine .bind (.onShelf fun s => ⟨_, rfl⟩) fun root => ?_
  cases root with
  | some root => exact .give (.ok true)
  | none =>
    refine .bind (.onShelf fun s => ⟨_, rfl⟩) fun entries => ?_
    split
    · exact .give (.ok false)
    · exact .bind (.onShelf fun s => ⟨_, rfl⟩) fun found => .give (.ok found.isSome)

/-- An import whose name is refused. -/
theorem importAt_refused {e : ImportRefusal} (ha : absoluteName r.name r.package r.level.toNat = .error e) :
    lib.importAt n r = .onShelf (.fail (.refused e)) ∧ lib.request n r = .fail (.refused e) := by
  simp only [importAt, request, Importing.importModule, ha]
  exact ⟨rfl, rfl⟩

/-- An import asks who has its absolute name, and takes the lock for what the classpath has. -/
theorem importAt_bind {name : String} (ha : absoluteName r.name r.package r.level.toNat = .ok name) :
    lib.importAt n r = ((lib.serving fun _ => .stop).owns name >>= fun owned =>
      if owned then .alone ((lib.serving fun _ => .stop).importOwned (lib.loadAt n) r name)
      else .onShelf fun s => some (lib.host r, s)) := by
  simp only [importAt, Importing.importModule, ha]
  rfl

theorem request_bind {name : String} (ha : absoluteName r.name r.package r.level.toNat = .ok name) :
    lib.request n r = ((lib.importing fun _ => .exhausted).owns name >>= fun owned =>
      if owned then (lib.importing fun _ => .exhausted).importOwned (lib.load n) r name
      else fun s => some (lib.host r, s)) := by
  simp only [request, Importing.importModule, ha]
  rfl

/-- Until an import takes the lock, it only looks at the shelf. It comes to its end without the lock only if the
classpath does not have the name. -/
theorem importAt_cases (lib : Library) (n : Nat) (r : ImportRequest) (d : Desk) :
    (∃ steps, lib.importAt n r d = (.stuck, { d with steps })) ∨
    (∃ res steps, lib.importAt n r d = (.ended res, { d with steps }) ∧
      lib.request n r d.shelf = some (res, d.shelf) ∧
      (∀ name, absoluteName r.name r.package r.level.toNat = .ok name → ¬ lib.Owns d.shelf name) ∧
      ∀ m, res = .ok m → lib.host r = .ok m) ∨
    ∃ name steps, lib.importAt n r d =
        Stint.alone ((lib.serving fun _ => .stop).importOwned (lib.loadAt n) r name) { d with steps } ∧
      lib.request n r d.shelf =
        (lib.importing fun _ => .exhausted).importOwned (lib.load n) r name d.shelf := by
  cases ha : absoluteName r.name r.package r.level.toNat with
  | error e =>
    obtain ⟨hi, hr⟩ := @importAt_refused lib n r e ha
    rw [hi, hr]
    have hreads : Reads (.onShelf (.fail (.refused e))) (.fail (.refused e) : Loading ModuleRef) :=
      .onShelf fun s => ⟨_, rfl⟩
    rcases hreads d with ⟨steps, hs⟩ | ⟨res, steps, he, hq⟩
    · exact .inl ⟨steps, hs⟩
    · cases hq
      exact .inr (.inl ⟨_, steps, he, rfl, nofun, nofun⟩)
  | ok name =>
    rw [importAt_bind ha, request_bind ha, Loading.bind_eq]
    simp only [Bind.bind, Stint.andThen, Loading.andThen]
    rcases @owns_reads lib name d with ⟨steps, hs⟩ | ⟨owned, steps, he, hq⟩
    · rw [hs]
      exact .inl ⟨steps, rfl⟩
    · have howns (hne : owned ≠ .ok true) (name' : String)
          (hn : (.ok name : Except ImportRefusal String) = .ok name') : ¬ lib.Owns d.shelf name' := by
        cases hn
        intro ho
        rw [ho.owns_eq] at hq
        cases hq
        exact hne rfl
      rw [he, hq]
      cases owned with
      | error e => exact .inr (.inl ⟨.error e, steps, rfl, rfl, howns (by simp), fun _ hm => by cases hm⟩)
      | ok owned =>
        cases owned with
        | true => exact .inr (.inr ⟨name, steps, rfl, rfl⟩)
        | false =>
          have hreads : Reads (.onShelf fun s => some (lib.host r, s)) fun s => some (lib.host r, s) :=
            .onShelf fun s => ⟨_, rfl⟩
          rcases hreads { d with steps } with ⟨steps', hs⟩ | ⟨res, steps', he', hq'⟩
          · exact .inl ⟨steps', hs⟩
          · cases hq'
            exact .inr (.inl ⟨_, steps', he', rfl, howns (by simp), fun _ hm => hm⟩)

/-- While nobody has the lock, a worker imports as it is done without a lock, or stops; it has the lock then, or has
done nothing yet. -/
theorem importAt_free (hl : d.world.world.lock = none) :
    (∃ d', lib.importAt n r d = (.stuck, d') ∧ d'.world.thread = d.world.thread ∧
      (d'.Holds ∨ d'.world = d.world ∧ d'.shelf = d.shelf)) ∨
    ∃ res s steps, lib.importAt n r d = (.ended res, ⟨d.world, s, steps⟩) ∧
      lib.request n r d.shelf = some (res, s) := by
  rcases lib.importAt_cases n r d with ⟨steps, hs⟩ | ⟨res, steps, he, hq, -⟩ | ⟨name, steps, he, hq⟩
  · exact .inl ⟨_, hs, rfl, .inr ⟨rfl, rfl⟩⟩
  · exact .inr ⟨res, d.shelf, steps, he, hq⟩
  · have hf : Follows ((lib.serving fun _ => .stop).importOwned (lib.loadAt n) r name)
        ((lib.importing fun _ => .exhausted).importOwned (lib.load n) r name) :=
      importOwned_follows (loadAt_follows n) r name
    have htake : Stint.lock { d with steps } = (.ended (.ok ()), ({ d with steps } : Desk).locked 0) := by
      rw [Stint.lock, World.takeLock, hl]
      rfl
    have hback : (({ d with steps } : Desk).locked 0).world.releaseLock = d.world := by
      simp only [Desk.locked, World.releaseLock, World.modify]
      rw [← hl]
    rw [he, hq]
    rcases hf.alone_of 0 htake hback with ⟨d', hs, hd', ht⟩ | hend
    · exact .inl ⟨d', hs, ht, .inl hd'⟩
    · exact .inr hend

/-- While another thread has the lock, a worker imports nothing from the classpath: it waits for ever, if it does
not stop before. -/
theorem importAt_held {owner : ThreadId} {depth : Nat} (hl : d.world.world.lock = some (owner, depth))
    (ho : owner ≠ d.world.thread) :
    ∃ x steps, lib.importAt n r d = (x, { d with steps }) ∧ ∀ res, x = .ended res →
      (∀ name, absoluteName r.name r.package r.level.toNat = .ok name → ¬ lib.Owns d.shelf name) ∧
        ∀ m, res = .ok m → lib.host r = .ok m := by
  rcases lib.importAt_cases n r d with ⟨steps, hs⟩ | ⟨res, steps, he, -, hn, hm⟩ | ⟨name, steps, he, -⟩
  · exact ⟨.stuck, steps, hs, fun _ h => by cases h⟩
  · refine ⟨.ended res, steps, he, fun _ h => ?_⟩
    cases h
    exact ⟨hn, hm⟩
  · refine ⟨.waits, steps, ?_, fun _ h => by cases h⟩
    rw [he, Stint.alone, Stint.andThen, Stint.lock, World.takeLock, hl]
    simp only [ho, if_false]

end Library

end Evalbox
