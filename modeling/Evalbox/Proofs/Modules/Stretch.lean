import Evalbox.Proofs.Lookup
import Evalbox.Proofs.Modules.Library

/-!
# Stretches of loading

All that an import does to a shelf comes of two things: names are bound in modules, and the body of a module is run
that was not cached, on a shelf that has it. `Stretch` says so of any stretch of loading, also of one inside a body
that is still running. What holds of stretches is shown by induction on them, and no longer asks how loads nest.
-/

namespace Evalbox

namespace Shelf

/-- The shelf on which the body of a new module begins to run. -/
def opened (s : Shelf) (lib : Library) (spec : ModuleSpec) : Shelf :=
  ⟨s.made ++ [⟨spec, lib.born spec⟩], bindName spec.name (.own s.made.length) s.cached,
    s.record ++ [⟨.began, spec.name, .own s.made.length⟩]⟩

/-- The shelf behind a body that failed. -/
def broken (s : Shelf) (name : String) (m : ModuleRef) : Shelf :=
  { s.note ⟨.broke, name, m⟩ with cached := s.cached.filter (·.1 ≠ name) }

/-- The module that a module lies in, if it lies in one, is cached. -/
def Housed (s : Shelf) (name : String) : Prop :=
  Dotted.parent name ≠ "" → ∃ m, s.find? (Dotted.parent name) = some m

variable {lib : Library} {spec : ModuleSpec} {s : Shelf}

theorem find?_bind (m : ModuleRef) (n name : String) : (s.bind m n).find? name = s.find? name := by
  cases m <;> rfl

theorem find?_opened (name : String) : (s.opened lib spec).find? name =
    if name = spec.name then some (.own s.made.length) else s.find? name :=
  lookup_bindName ..

/-- Where a module is opened, everything else stays cached. -/
theorem find?_opened_of_some {name : String} {m : ModuleRef} (hs : s.find? spec.name = none)
    (hm : s.find? name = some m) : name ≠ spec.name ∧ (s.opened lib spec).find? name = some m := by
  have hne : name ≠ spec.name := fun he => absurd ((he ▸ hs).symm.trans hm) (by simp)
  exact ⟨hne, by rw [find?_opened, if_neg hne, hm]⟩

theorem find?_broken (m : ModuleRef) (n name : String) :
    (s.broken n m).find? name = if name = n then none else s.find? name :=
  lookup_filter_ne ..

theorem made_opened : (s.opened lib spec).made.length = s.made.length + 1 := by simp [opened]

end Shelf

namespace Library

/-- What a stretch of loading makes of a shelf. -/
inductive Stretch (lib : Library) : Shelf → Shelf → Prop
  | refl (s : Shelf) : Stretch lib s s
  | trans {s s' s'' : Shelf} : Stretch lib s s' → Stretch lib s' s'' → Stretch lib s s''
  | bind (s : Shelf) (m : ModuleRef) (name : String) : Stretch lib s (s.bind m name)
  /-- A body ran and came to its end. -/
  | completed {s s' : Shelf} {spec : ModuleSpec} :
    s.find? spec.name = none → s.Housed spec.name → Stretch lib (s.opened lib spec) s' →
      Stretch lib s (s'.note ⟨.completed, spec.name, .own s.made.length⟩)
  /-- A body failed, and was forgotten. -/
  | broken {s s' : Shelf} {spec : ModuleSpec} :
    s.find? spec.name = none → s.Housed spec.name → Stretch lib (s.opened lib spec) s' →
      Stretch lib s (s'.broken spec.name (.own s.made.length))

variable {lib : Library}

/-- What is cached stays cached. -/
theorem Stretch.find?_eq {s s' : Shelf} (h : lib.Stretch s s') {name : String} {m : ModuleRef}
    (hm : s.find? name = some m) : s'.find? name = some m := by
  induction h with
  | refl s => exact hm
  | trans _ _ ih ih' => exact ih' (ih hm)
  | bind s k n => rwa [Shelf.find?_bind]
  | completed hs _ _ ih => exact ih (Shelf.find?_opened_of_some hs hm).2
  | broken hs _ _ ih =>
    obtain ⟨hne, ho⟩ := Shelf.find?_opened_of_some hs hm
    rw [Shelf.find?_broken, if_neg hne]
    exact ih ho

end Library

namespace Loading

variable {α β : Type} {lib : Library} {P P' : Shelf → Prop} {Q : α → Shelf → Prop} {R : β → Shelf → Prop}

/-- Work in two parts fails in the first one, or ends as the second one does. -/
theorem bind_cases {p : Loading α} {f : α → Loading β} {s s' : Shelf} {res : Except ImportFailure β}
    (h : (p >>= f) s = some (res, s')) :
    (∃ a s₁, p s = some (.ok a, s₁) ∧ f a s₁ = some (res, s')) ∨
      ∃ e, p s = some (.error e, s') ∧ res = .error e := by
  change Loading.bind p f s = some (res, s') at h
  unfold Loading.bind at h
  split at h
  · rename_i a s₁ h₁
    exact .inl ⟨a, s₁, h₁, h⟩
  · rename_i e s₁ h₁
    cases h
    exact .inr ⟨e, h₁, rfl⟩
  · cases h

/-- On every shelf with a property, all that the work does is a stretch of loading, and if it gives an answer then
one that fits the shelf that it leaves. -/
def Stretching (lib : Library) (P : Shelf → Prop) (p : Loading α) (Q : α → Shelf → Prop) : Prop :=
  ∀ s res s', P s → p s = some (res, s') → lib.Stretch s s' ∧ ∀ a, res = .ok a → Q a s'

theorem Stretching.pure {a : α} (h : ∀ s, P s → Q a s) : Stretching lib P (Pure.pure a : Loading α) Q := by
  intro s res s' hs hp
  cases hp
  refine ⟨.refl s, fun a' ha => ?_⟩
  cases ha
  exact h s hs

theorem Stretching.fail (e : ImportFailure) : Stretching lib P (Loading.fail e : Loading α) Q := by
  intro s res s' _ hp
  cases hp
  exact ⟨.refl s, fun a ha => by cases ha⟩

theorem Stretching.weaken {p : Loading α} (h : Stretching lib P' p Q) (hP : ∀ s, P s → P' s) :
    Stretching lib P p Q :=
  fun s res s' hs hp => h s res s' (hP s hs) hp

/-- Where no answer is asked for. -/
theorem Stretching.forget {p : Loading α} (h : Stretching lib P p Q) : Stretching lib P p fun _ _ => True :=
  fun s res s' hs hp => ⟨(h s res s' hs hp).1, fun _ _ => trivial⟩

theorem Stretching.bind {p : Loading α} {f : α → Loading β} (hp : Stretching lib P p Q)
    (hf : ∀ a, Stretching lib (Q a) (f a) R) : Stretching lib P (p >>= f) R := by
  intro s res s' hs h
  rcases bind_cases h with ⟨a, s₁, h₁, h⟩ | ⟨e, h₁, rfl⟩
  · obtain ⟨e₁, hq⟩ := hp s _ s₁ hs h₁
    obtain ⟨e₂, hr⟩ := hf a s₁ res s' (hq a rfl) h
    exact ⟨e₁.trans e₂, hr⟩
  · exact ⟨(hp s _ s' hs h₁).1, fun b hb => by cases hb⟩

theorem Stretching.pure_bind {a : α} {f : α → Loading β} (h : Stretching lib P (f a) R) :
    Stretching lib P (Pure.pure a >>= f) R := h

/-- What is read is known of the shelf that the rest works on. -/
theorem Stretching.read_bind {f : Shelf → α} {g : α → Loading β}
    (h : ∀ a, Stretching lib (fun s => P s ∧ f s = a) (g a) R) : Stretching lib P (Loading.read f >>= g) R :=
  fun s res s' hs hg => h (f s) s res s' ⟨hs, rfl⟩ hg

/-- What is read does not matter. -/
theorem Stretching.read_any {f : Shelf → α} {g : α → Loading β} (h : ∀ a, Stretching lib P (g a) R) :
    Stretching lib P (Loading.read f >>= g) R :=
  .read_bind fun a => (h a).weaken fun _ hs => hs.1

theorem Stretching.bindName {Q : Shelf → Prop} (m : ModuleRef) (name : String)
    (h : ∀ s, P s → Q (s.bind m name)) :
    Stretching lib P (Loading.change fun s => s.bind m name) fun _ => Q := by
  intro s res s' hs hp
  cases hp
  exact ⟨.bind s m name, fun _ _ => h s hs⟩

end Loading

namespace Library

open Loading

variable {lib : Library} {enter : ImportRequest → Loading ModuleRef}

/-- Nothing is asked of a shelf. -/
def Any (_ : Shelf) : Prop := True

/-- The work of a body is a stretch if the imports are that it calls for. -/
theorem perform_stretching (he : ∀ r, Stretching lib Any (enter r) fun _ => Any) (b : ModuleBody) :
    Stretching lib Any (perform enter b) fun _ => Any := by
  induction b with
  | done => exact .pure fun _ h => h
  | fail e => exact .fail e
  | imports r next ih =>
    intro s res s' _ h
    unfold perform at h
    split at h
    · rename_i res₁ s₁ h₁
      obtain ⟨e₁, -⟩ := he r s res₁ s₁ trivial h₁
      obtain ⟨e₂, hq⟩ := ih res₁ s₁ res s' trivial h
      exact ⟨e₁.trans e₂, hq⟩
    · cases h
  | looks m name next ih => exact fun s res s' _ h => ih (s.has m name) s res s' trivial h
  | binds m name next ih =>
    intro s res s' _ h
    obtain ⟨e, hq⟩ := ih (s.bind m name) res s' trivial h
    exact ⟨(Stretch.bind s m name).trans e, hq⟩

/-- What running a new module comes to: its body runs on the opened shelf, and a failure forgets it. -/
theorem run_eq (spec : ModuleSpec) (s : Shelf) :
    (lib.importing enter).run spec.name spec s =
      match perform enter (lib.body spec (.own s.made.length)) (s.opened lib spec) with
      | some (.ok (), s') =>
        some (.ok (.own s.made.length), s'.note ⟨.completed, spec.name, .own s.made.length⟩)
      | some (.error e, s') => some (.error e, s'.broken spec.name (.own s.made.length))
      | none => none := by
  simp only [Importing.run, importing, Bind.bind, Loading.bind, Loading.change, Loading.onFailure, execute,
    Shelf.note, Shelf.opened]
  cases hp : perform enter (lib.body spec (.own s.made.length)) ⟨s.made ++ [⟨spec, lib.born spec⟩],
      Evalbox.bindName spec.name (.own s.made.length) s.cached,
      s.record ++ [⟨.began, spec.name, .own s.made.length⟩]⟩ with
  | none => rfl
  | some r =>
    obtain ⟨res, s'⟩ := r
    cases res <;> rfl

/-- A module that is not cached is run once; it is cached behind that if its body came to its end. -/
theorem run_stretching (he : ∀ r, Stretching lib Any (enter r) fun _ => Any) (spec : ModuleSpec) :
    Stretching lib (fun s => s.find? spec.name = none ∧ s.Housed spec.name)
      ((lib.importing enter).run spec.name spec) fun m s => s.find? spec.name = some m := by
  rintro s res s' ⟨hs, hh⟩ h
  rw [run_eq] at h
  cases hp : perform enter (lib.body spec (.own s.made.length)) (s.opened lib spec) with
  | none => simp [hp] at h
  | some r =>
    obtain ⟨res₁, s₁⟩ := r
    obtain ⟨hn, -⟩ := perform_stretching he (lib.body spec (.own s.made.length)) _ res₁ s₁ trivial hp
    cases res₁ with
    | ok u =>
      simp only [hp, Option.some.injEq, Prod.mk.injEq] at h
      obtain ⟨rfl, rfl⟩ := h
      refine ⟨hn.completed hs hh, fun m hm => ?_⟩
      cases hm
      exact hn.find?_eq (by rw [Shelf.find?_opened, if_pos rfl])
    | error e =>
      simp only [hp, Option.some.injEq, Prod.mk.injEq] at h
      obtain ⟨rfl, rfl⟩ := h
      exact ⟨hn.broken hs hh, fun m hm => by cases hm⟩

/-- Whatever a search for the module found. -/
theorem loadFound_stretching (he : ∀ r, Stretching lib Any (enter r) fun _ => Any) (name : String)
    (parent : Option ModuleRef) (path : List String) :
    Stretching lib (fun s => s.find? name = none ∧ s.Housed name)
      ((lib.importing enter).find name path >>= (lib.importing enter).loadFound name parent)
      fun m s => s.find? name = some m := by
  refine .pure_bind ?_
  cases hf : lib.find name path with
  | none => exact .fail _
  | some spec =>
    simp only [Option.map_some, Importing.loadFound]
    split
    · exact .fail _
    · refine .bind (run_stretching he { spec with name }) fun m => ?_
      cases parent with
      | none => exact .pure fun _ h => h
      | some p =>
        refine .bind (.bindName p _ fun s hs => ?_) fun _ => .pure fun _ h => h
        rw [Shelf.find?_bind]
        exact hs

theorem loadBelow_stretching (he : ∀ r, Stretching lib Any (enter r) fun _ => Any) (name : String)
    (parent : Option ModuleRef) :
    Stretching lib (fun s => s.find? name = none ∧ s.Housed name) ((lib.importing enter).loadBelow name parent)
      fun m s => s.find? name = some m := by
  cases parent with
  | none =>
    rw [Importing.loadBelow_none]
    exact .pure_bind (loadFound_stretching he name none lib.entries)
  | some p =>
    rw [Importing.loadBelow_some]
    exact fun s res s' hs h => loadFound_stretching he name (some p) _ s res s' hs h

/-- A module is run only when the cache, asked last, has the module that it lies in and does not have it. -/
theorem load_stretching (he : ∀ r, Stretching lib Any (enter r) fun _ => Any) {again : String → Loading ModuleRef}
    (ha : ∀ name, Stretching lib Any (again name) fun m s => s.find? name = some m) (name : String) :
    Stretching lib Any ((lib.importing enter).load again name) fun m s => s.find? name = some m := by
  unfold Importing.load
  refine .read_bind fun found => ?_
  cases found with
  | some m => exact .pure fun s hs => hs.2
  | none =>
    simp only
    split
    · rename_i hp
      exact (loadBelow_stretching he name none).weaken fun s hs => ⟨hs.2, fun hne => absurd hp hne⟩
    · refine .bind ((ha _).weaken fun _ _ => trivial) fun parent => .read_bind fun found => ?_
      cases found with
      | some m => exact .pure fun s hs => hs.2
      | none => exact (loadBelow_stretching he name (some parent)).weaken fun s hs => ⟨hs.2, fun _ => ⟨_, hs.1⟩⟩

theorem loadNames_stretching {again : String → Loading ModuleRef}
    (ha : ∀ name, Stretching lib Any (again name) fun _ => Any) (name : String) (m : ModuleRef)
    (names : List String) :
    Stretching lib Any ((lib.importing enter).loadNames again name m names) fun _ => Any := by
  induction names with
  | nil => exact .pure fun _ h => h
  | cons n rest ih =>
    have hone : ∀ known, Stretching lib Any ((lib.importing enter).loadOne again name m n
        ((lib.importing enter).loadNames again name m rest) known) fun _ => Any := by
      intro known
      cases known with
      | true => exact ih
      | false =>
        refine .read_any fun package => ?_
        cases package with
        | true => exact .bind (ha _) fun _ => ih
        | false => exact ih
    rw [Importing.loadNames_cons]
    split
    · exact .pure_bind (hone true)
    · exact .read_any hone

theorem importOwned_stretching {again : String → Loading ModuleRef}
    (ha : ∀ name, Stretching lib Any (again name) fun _ => Any) (r : ImportRequest) (name : String) :
    Stretching lib Any ((lib.importing enter).importOwned again r name) fun _ => Any := by
  unfold Importing.importOwned
  refine .bind (ha name) fun m => ?_
  split
  · exact .bind (loadNames_stretching ha name m r.names) fun _ => .pure fun _ h => h
  · split
    · exact .pure fun _ h => h
    · refine .read_any fun root => ?_
      cases root with
      | some root => exact .pure fun _ h => h
      | none => exact .fail _

/-- A host import leaves the shelf alone. -/
theorem host_stretching (r : ImportRequest) (name : String) :
    Stretching lib Any ((lib.importing enter).host r name) fun _ => Any := by
  intro s res s' _ h
  cases h
  exact ⟨.refl s, fun _ _ => trivial⟩

theorem owns_stretching (name : String) : Stretching lib Any ((lib.importing enter).owns name) fun _ => Any := by
  unfold Importing.owns
  refine .read_any fun root => ?_
  cases root with
  | some root => exact .pure fun _ h => h
  | none =>
    refine .pure_bind ?_
    split
    · exact .pure fun _ h => h
    · exact .pure_bind (.pure fun _ h => h)

theorem importModule_stretching {again : String → Loading ModuleRef}
    (ha : ∀ name, Stretching lib Any (again name) fun _ => Any) (r : ImportRequest) :
    Stretching lib Any ((lib.importing enter).importModule again r) fun _ => Any := by
  unfold Importing.importModule
  split
  · exact .fail _
  · rename_i name _
    refine .bind (owns_stretching name) fun owned => ?_
    cases owned with
    | true => exact importOwned_stretching ha r name
    | false => exact @host_stretching lib enter r r.hostName

/-- However often loading is unfolded: its bodies import with one unfolding less. A module that was loaded is
cached. -/
theorem loads_stretching (n : Nat) (name : String) :
    Stretching lib Any (lib.load n name) fun m s => s.find? name = some m := by
  induction n generalizing name with
  | zero =>
    intro s res s' _ h
    cases h
  | succ n ih => exact load_stretching (importModule_stretching fun name => (ih name).forget) ih name

theorem request_stretching (n : Nat) (r : ImportRequest) : Stretching lib Any (lib.request n r) fun _ => Any :=
  importModule_stretching (fun name => (loads_stretching n name).forget) r

/-- Imports that ended one after the other are a stretch. -/
theorem Later.stretch {s s' : Shelf} (h : lib.Later s s') : lib.Stretch s s' := by
  induction h with
  | refl => exact .refl s
  | @call s₁ s₂ r res _ hr ih =>
    obtain ⟨n, hn⟩ := hr
    exact ih.trans (request_stretching n r s₁ res s₂ trivial hn).1

end Library

end Evalbox
