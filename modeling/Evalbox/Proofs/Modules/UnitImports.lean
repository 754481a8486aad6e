import Evalbox.Proofs.Modules.Workers

/-!
# What a unit gets from its imports

The body of a unit does what bodies of modules do, but nobody has taken the lock for it. If the lock is free when it
begins, the unit waits nowhere, and whatever it imports from the classpath is cached behind the import. If another
thread has the lock, the unit gets nothing from the classpath, and never comes to its end behind an attempt.
-/

namespace Evalbox

namespace Library

open Loading

variable {lib : Library} {n : Nat}

/-- Modules of the classpath that an import answers with are cached. -/
theorem importOwned_cached {enter : ImportRequest → Loading ModuleRef} {again : String → Loading ModuleRef}
    (ha : ∀ name, Stretching lib Any (again name) fun m s => s.find? name = some m) (r : ImportRequest)
    (name : String) : Stretching lib Any ((lib.importing enter).importOwned again r name)
      fun m s => ∃ name, s.find? name = some m := by
  unfold Importing.importOwned
  refine .bind (ha name) fun m => ?_
  split
  · refine .bind (Q := fun _ s => s.find? name = some m) ?_ fun _ => .pure fun _ hs => ⟨name, hs⟩
    intro s res s' hs h
    obtain ⟨hst, -⟩ := loadNames_stretching (fun name => (ha name).forget) name m r.names s res s' trivial h
    exact ⟨hst, fun _ _ => hst.find?_eq hs⟩
  · split
    · exact .pure fun _ hs => ⟨name, hs⟩
    · refine .read_bind fun root => ?_
      cases root with
      | some root => exact .pure fun _ hs => ⟨_, hs.2⟩
      | none => exact .fail _

/-- An import answers with what the host gave, or with a module that is cached. -/
theorem request_obtains {r : ImportRequest} {s s' : Shelf} {m : ModuleRef}
    (h : lib.request n r s = some (.ok m, s')) : lib.host r = .ok m ∨ ∃ name, s'.find? name = some m := by
  have hst : Stretching lib Any (lib.request n r) fun m s => lib.host r = .ok m ∨ ∃ name, s.find? name = some m := by
    unfold request Importing.importModule
    split
    · exact .fail _
    · rename_i name _
      refine .bind (owns_stretching name) fun owned => ?_
      cases owned with
      | true =>
        intro s res s' hs h
        obtain ⟨hst, hm⟩ := importOwned_cached (loads_stretching n) r name s res s' hs h
        exact ⟨hst, fun m he => .inr (hm m he)⟩
      | false =>
        intro s res s' _ h
        cases h
        exact ⟨.refl s, fun m hm => .inl hm⟩
  exact (hst s _ s' trivial h).2 m rfl

/-- What is cached on a shelf that was filled from an empty one was run once, and to its end. -/
theorem Stretch.ran_once {s : Shelf} (h : lib.Stretch .empty s) {name : String} {m : ModuleRef}
    (hm : s.find? name = some m) : runsIn m s.record = [⟨.began, name, m⟩, ⟨.completed, name, m⟩] := by
  obtain ⟨new, hn⟩ := h.extends
  obtain rfl : s.record = new := by simpa [Shelf.empty] using hn.record_eq
  exact (hn.loaded name m rfl hm).1

/-- A unit passes from one point, and one desk, to another. -/
inductive Passes (lib : Library) (n : Nat) : ModuleBody → Desk → ModuleBody → Desk → Prop
  | refl (b : ModuleBody) (d : Desk) : Passes lib n b d b d
  | imported {r : ImportRequest} {next : Except ImportFailure ModuleRef → ModuleBody} {d d' d'' : Desk}
      {res : Except ImportFailure ModuleRef} {b : ModuleBody} :
    lib.importAt n r d = (.ended res, d') → Passes lib n (next res) d' b d'' →
      Passes lib n (.imports r next) d b d''
  | looked {m : ModuleRef} {name : String} {next : Bool → ModuleBody} {d d' d'' : Desk} {found : Bool}
      {b : ModuleBody} :
    Stint.onShelf (.read fun s => s.has m name) d = (.ended (.ok found), d') →
      Passes lib n (next found) d' b d'' → Passes lib n (.looks m name next) d b d''
  | bound {m : ModuleRef} {name : String} {next : ModuleBody} {d d' d'' : Desk} {b : ModuleBody} :
    Stint.onShelf (.change fun s => s.bind m name) d = (.ended (.ok ()), d') → Passes lib n next d' b d'' →
      Passes lib n (.binds m name next) d b d''

/-- A unit comes to an import; this is the desk that the import finds. -/
def Arrives (lib : Library) (n : Nat) (b : ModuleBody) (d : Desk) (r : ImportRequest) (d' : Desk) : Prop :=
  ∃ next, Passes lib n b d (.imports r next) d'

/-- Where a unit halts: at its end, where its worker stops, or in an import. -/
inductive Halts (lib : Library) (n : Nat) (b : ModuleBody) (d : Desk) : Reach Unit → Desk → Prop
  | ended {b' : ModuleBody} {d' : Desk} (res : Except ImportFailure Unit) :
    Passes lib n b d b' d' → Halts lib n b d (.ended res) d'
  | stuck {b' : ModuleBody} {d' : Desk} : Passes lib n b d b' d' → Halts lib n b d .stuck d'
  | stuckInside {r : ImportRequest} {d' d'' : Desk} :
    Arrives lib n b d r d' → lib.importAt n r d' = (.stuck, d'') → Halts lib n b d .stuck d''
  | waits {r : ImportRequest} {d' d'' : Desk} :
    Arrives lib n b d r d' → lib.importAt n r d' = (.waits, d'') → Halts lib n b d .waits d''

variable {b b' : ModuleBody} {d d' : Desk} {r : ImportRequest} {x : Reach Unit}

/-- What a unit does behind a point to which it passes. -/
theorem Halts.behind {d'' : Desk} (hh : Halts lib n b' d' x d'')
    (hp : ∀ {b'' d''}, Passes lib n b' d' b'' d'' → Passes lib n b d b'' d'') : Halts lib n b d x d'' := by
  cases hh with
  | ended res h => exact .ended res (hp h)
  | stuck h => exact .stuck (hp h)
  | stuckInside h hi =>
    obtain ⟨next, h⟩ := h
    exact .stuckInside ⟨next, hp h⟩ hi
  | waits h hi =>
    obtain ⟨next, h⟩ := h
    exact .waits ⟨next, hp h⟩ hi

theorem performing_halts (b : ModuleBody) (d : Desk) :
    Halts lib n b d (performing (lib.importAt n) b d).1 (performing (lib.importAt n) b d).2 := by
  induction b generalizing d with
  | done => exact .ended (.ok ()) (.refl _ d)
  | fail e => exact .ended (.error e) (.refl _ d)
  | imports r next ih =>
    simp only [performing, Stint.andThen]
    rcases hi : lib.importAt n r d with ⟨x, d'⟩
    cases x with
    | ended res => exact (ih res d').behind (.imported hi)
    | stuck => exact .stuckInside ⟨next, .refl _ d⟩ hi
    | waits => exact .waits ⟨next, .refl _ d⟩ hi
  | looks m name next ih =>
    simp only [performing, Bind.bind, Stint.andThen]
    rcases Stint.onShelf_cases (.read fun s => s.has m name) d with hs | ⟨res, s, steps, he, hq⟩
    · rw [hs]
      exact .stuck (.refl _ d)
    · cases hq
      rw [he]
      exact (ih _ _).behind (.looked he)
  | binds m name next ih =>
    simp only [performing, Bind.bind, Stint.andThen]
    rcases Stint.onShelf_cases (.change fun s => s.bind m name) d with hs | ⟨res, s, steps, he, hq⟩
    · rw [hs]
      exact .stuck (.refl _ d)
    · cases hq
      rw [he]
      exact (ih _).behind (.bound he)

/-- A unit that comes to an import does not come to its end if the import does not. -/
theorem Arrives.not_ended (h : Arrives lib n b d r d') (hr : ∀ res d'', lib.importAt n r d' ≠ (.ended res, d''))
    (res : Except ImportFailure Unit) (d'' : Desk) : performing (lib.importAt n) b d ≠ (.ended res, d'') := by
  obtain ⟨next, hp⟩ := h
  generalize hb : ModuleBody.imports r next = b' at hp
  induction hp with
  | refl b d =>
    subst hb
    intro he
    simp only [performing, Stint.andThen] at he
    split at he
    · rename_i res' d₁ h₁
      exact hr res' d₁ h₁
    · cases he
    · cases he
  | imported h₁ _ ih =>
    simp only [performing, Stint.andThen, h₁]
    exact ih hr hb
  | looked h₁ _ ih =>
    simp only [performing, Bind.bind, Stint.andThen, h₁]
    exact ih hr hb
  | bound h₁ _ ih =>
    simp only [performing, Bind.bind, Stint.andThen, h₁]
    exact ih hr hb

/-- While nobody has the lock, all that a unit imports is imported as without a lock. -/
theorem Passes.free (h : Passes lib n b d b' d') (hl : d.world.world.lock = none) :
    d'.world = d.world ∧ lib.Stretch d.shelf d'.shelf := by
  induction h with
  | refl b d => exact ⟨rfl, .refl _⟩
  | @imported r _ d d₁ _ res _ h₁ _ ih =>
    rcases @importAt_free lib n r d hl with ⟨_, hs, -⟩ | ⟨res', s, steps, he, hq⟩
    · cases h₁.symm.trans hs
    · cases h₁.symm.trans he
      obtain ⟨hw, hst⟩ := ih hl
      exact ⟨hw, (request_stretching n r d.shelf res s trivial hq).1.trans hst⟩
  | looked h₁ _ ih =>
    obtain ⟨hw, hq⟩ := Stint.onShelf_ended h₁
    obtain ⟨hw', hst⟩ := ih (hw ▸ hl)
    rw [← (Prod.mk.inj (Option.some.inj hq)).2] at hst
    exact ⟨hw'.trans hw, hst⟩
  | @bound m name _ d _ _ _ h₁ _ ih =>
    obtain ⟨hw, hq⟩ := Stint.onShelf_ended h₁
    obtain ⟨hw', hst⟩ := ih (hw ▸ hl)
    rw [← (Prod.mk.inj (Option.some.inj hq)).2] at hst
    exact ⟨hw'.trans hw, (Stretch.bind d.shelf m name).trans hst⟩

/-- If another thread has the lock, a unit passes by no import that changes the world. -/
theorem Passes.held {owner : ThreadId} {depth : Nat} (h : Passes lib n b d b' d')
    (hl : d.world.world.lock = some (owner, depth)) (ho : owner ≠ d.world.thread) : d'.world = d.world := by
  induction h with
  | refl b d => rfl
  | @imported r _ d d₁ _ res _ h₁ _ ih =>
    obtain ⟨x, steps, hx, -⟩ := @importAt_held lib n r d owner depth hl ho
    cases h₁.symm.trans hx
    exact ih hl ho
  | looked h₁ _ ih =>
    have hw := (Stint.onShelf_ended h₁).1
    exact (ih (hw ▸ hl) (hw ▸ ho)).trans hw
  | bound h₁ _ ih =>
    have hw := (Stint.onShelf_ended h₁).1
    exact (ih (hw ▸ hl) (hw ▸ ho)).trans hw

/-- A unit that finds the lock free halts without it, unless its worker stops inside an import. It waits nowhere. -/
theorem Halts.free (h : Halts lib n b d x d') (hl : d.world.world.lock = none) :
    (d'.world = d.world ∧ lib.Stretch d.shelf d'.shelf) ∨
      x = .stuck ∧ d'.Holds ∧ d'.world.thread = d.world.thread ∧
        ∃ r d₁, Arrives lib n b d r d₁ ∧ lib.importAt n r d₁ = (.stuck, d') := by
  have hpass {r : ImportRequest} {d₁ : Desk} (ha : Arrives lib n b d r d₁) :
      d₁.world = d.world ∧ lib.Stretch d.shelf d₁.shelf := by
    obtain ⟨next, hp⟩ := ha
    exact hp.free hl
  cases h with
  | ended res hp => exact .inl (hp.free hl)
  | stuck hp => exact .inl (hp.free hl)
  | @stuckInside r d₁ _ ha hi =>
    obtain ⟨hw, hst⟩ := hpass ha
    rcases @importAt_free lib n r d₁ (hw ▸ hl) with ⟨_, hs, ht, hd⟩ | ⟨_, _, _, he, -⟩
    · cases hi.symm.trans hs
      rcases hd with hh | ⟨hsame, hshelf⟩
      · exact .inr ⟨rfl, hh, ht.trans (by rw [hw]), r, d₁, ha, hi⟩
      · exact .inl ⟨hsame.trans hw, hshelf ▸ hst⟩
    · cases hi.symm.trans he
  | @waits r d₁ _ ha hi =>
    obtain ⟨hw, -⟩ := hpass ha
    rcases @importAt_free lib n r d₁ (hw ▸ hl) with ⟨_, hs, -⟩ | ⟨_, _, _, he, -⟩
    · cases hi.symm.trans hs
    · cases hi.symm.trans he

/-- A unit that finds the lock with another thread leaves the world as it is. -/
theorem Halts.held {owner : ThreadId} {depth : Nat} (h : Halts lib n b d x d')
    (hl : d.world.world.lock = some (owner, depth)) (ho : owner ≠ d.world.thread) : d'.world = d.world := by
  have hinside {r : ImportRequest} {d₁ d₂ : Desk} {y : Reach ModuleRef} (ha : Arrives lib n b d r d₁)
      (hi : lib.importAt n r d₁ = (y, d₂)) : d₂.world = d.world := by
    obtain ⟨next, hp⟩ := ha
    have hw : d₁.world = d.world := hp.held hl ho
    obtain ⟨_, steps, hx, -⟩ := @importAt_held lib n r d₁ owner depth (hw ▸ hl) (hw ▸ ho)
    cases hi.symm.trans hx
    exact hw
  cases h with
  | ended res hp => exact hp.held hl ho
  | stuck hp => exact hp.held hl ho
  | stuckInside ha hi => exact hinside ha hi
  | waits ha hi => exact hinside ha hi

end Library

end Evalbox
