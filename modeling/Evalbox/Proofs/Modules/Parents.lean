import Evalbox.Proofs.Modules.Cache
import Evalbox.Proofs.Modules.Termination

/-!
# Modules and the packages they lie in

A module is loaded behind the package that it lies in. A package whose body fails is forgotten alone: what was loaded
inside it stays cached, and nothing else is ever cached without its parent. An import that asks for a root module
finds it, or fails as a load on its path does, unless a module on this path was left behind in that way.
-/

namespace Evalbox

namespace Shelf

/-- The body that was run last under a name failed. -/
def Broke (s : Shelf) (name : String) : Prop :=
  ∃ e, (runsOf name s.record).getLast? = some e ∧ e.stage = .broke

/-- What is cached lies in modules that are cached, or of which a body was run. -/
def Sheltered (s : Shelf) : Prop :=
  ∀ name m, s.find? name = some m → s.Housed name ∨ ∃ e ∈ s.record, e.name = Dotted.parent name

variable {s s' : Shelf}

/-- A step that caches a module beside its parent only, and notes what it forgets. -/
theorem Sheltered.step (h : s.Sheltered) (hr : ∀ e ∈ s.record, e ∈ s'.record)
    (hnew : ∀ name m, s'.find? name = some m → s.find? name = some m ∨ s'.Housed name)
    (hold : ∀ name m, s.find? name = some m →
      (∃ m', s'.find? name = some m') ∨ ∃ e ∈ s'.record, e.name = name) : s'.Sheltered := by
  intro name m hm
  rcases hnew name m hm with hm | hh
  · rcases h name m hm with hh | ⟨e, he, hn⟩
    · by_cases hp : Dotted.parent name = ""
      · exact .inl fun hne => absurd hp hne
      · obtain ⟨p, hp⟩ := hh hp
        exact (hold _ p hp).imp (fun hc _ => hc) id
    · exact .inr ⟨e, hr e he, hn⟩
  · exact .inl hh

end Shelf

namespace Library

open Loading

variable {lib : Library} {s s' : Shelf}

/-- A module is opened where its parent is cached. -/
theorem opened_sheltered {spec : ModuleSpec} (hs : s.Sheltered) (hn : s.find? spec.name = none)
    (hh : s.Housed spec.name) : (s.opened lib spec).Sheltered := by
  refine hs.step ?_ ?_ ?_
  · exact fun e he => List.mem_append_left _ he
  · intro name m hm
    rw [Shelf.find?_opened] at hm
    split at hm
    · rename_i hne
      subst name
      refine .inr fun hp => ?_
      obtain ⟨p, hp⟩ := hh hp
      exact ⟨p, (Shelf.find?_opened_of_some hn hp).2⟩
    · exact .inl hm
  · exact fun name m hm => .inl ⟨m, (Shelf.find?_opened_of_some hn hm).2⟩

theorem Stretch.sheltered (h : lib.Stretch s s') (hs : s.Sheltered) : s'.Sheltered := by
  induction h with
  | refl s => exact hs
  | trans _ _ ih ih' => exact ih' (ih hs)
  | bind s m name =>
    refine hs.step ?_ ?_ ?_
    · cases m <;> exact fun e he => he
    · exact fun n k hk => .inl (by rwa [Shelf.find?_bind] at hk)
    · exact fun n k hk => .inl ⟨k, by rwa [Shelf.find?_bind]⟩
  | @completed s s' spec hn hh _ ih =>
    have ho : (s.opened lib spec).Sheltered := opened_sheltered hs hn hh
    refine (ih ho).step ?_ ?_ ?_
    · exact fun e he => List.mem_append_left _ he
    · exact fun n k hk => .inl hk
    · exact fun n k hk => .inl ⟨k, hk⟩
  | @broken s s' spec hn hh _ ih =>
    have ho : (s.opened lib spec).Sheltered := opened_sheltered hs hn hh
    refine (ih ho).step ?_ ?_ ?_
    · exact fun e he => List.mem_append_left _ he
    · intro n k hk
      rw [Shelf.find?_broken] at hk
      split at hk
      · cases hk
      · exact .inl hk
    · intro n k hk
      by_cases hne : n = spec.name
      · exact .inr ⟨_, List.mem_append_right _ (List.mem_singleton_self _), hne.symm⟩
      · exact .inl ⟨k, by rw [Shelf.find?_broken, if_neg hne]; exact hk⟩

/-- What was recorded since the shelf was empty. -/
theorem Later.extends_empty (h : lib.Later .empty s) : Shelf.empty.Extends s.record s := by
  obtain ⟨new, hs⟩ := h.extends
  obtain rfl : s.record = new := by simpa [Shelf.empty] using hs.record_eq
  exact hs

/-- What was run and is not cached broke. -/
theorem Later.broke_of_ran (h : lib.Later .empty s) {name : String} (hn : s.find? name = none)
    (hr : ∃ e ∈ s.record, e.name = name) : s.Broke name := by
  cases hl : (runsOf name s.record).getLast? with
  | none =>
    obtain ⟨e, he, hen⟩ := hr
    have hm : e ∈ runsOf name s.record := List.mem_filter.mpr ⟨he, by simpa using hen⟩
    rw [List.getLast?_eq_none_iff.mp hl] at hm
    cases hm
  | some e => exact ⟨e, hl, h.extends_empty.failed name e hn hl⟩

theorem Later.find?_of_broke (h : lib.Later .empty s) {name : String} (hb : s.Broke name) :
    s.find? name = none := by
  obtain ⟨e, hl, he⟩ := hb
  refine Option.eq_none_iff_forall_ne_some.mpr fun m hm => ?_
  have hlast := (h.extends_empty.loaded name m rfl hm).2
  rw [hl] at hlast
  cases hlast
  cases he

/-- The parent of a cached module is not cached just when it broke. -/
theorem Later.parent_find? (h : lib.Later .empty s) {name : String} {m : ModuleRef} (hm : s.find? name = some m)
    (hp : Dotted.parent name ≠ "") : s.find? (Dotted.parent name) = none ↔ s.Broke (Dotted.parent name) := by
  refine ⟨fun hn => ?_, h.find?_of_broke⟩
  have hs : s.Sheltered := h.stretch.sheltered fun name m hm => by cases hm
  rcases hs name m hm with hh | hr
  · obtain ⟨p, hp⟩ := hh hp
    exact absurd (hn.symm.trans hp) (by simp)
  · exact h.broke_of_ran hn hr

/-- A module on the path of which no package broke that still has modules is cached with its root. -/
theorem Later.root_find? (h : lib.Later .empty s) {name : String} (hr : Dotted.root name ≠ "")
    (hb : ∀ q, Dotted.OnPath q name → s.find? q ≠ none → Dotted.parent q ≠ "" → ¬ s.Broke (Dotted.parent q))
    (hm : s.find? name ≠ none) : s.find? (Dotted.root name) ≠ none := by
  induction name using Dotted.parent_induction with
  | h name ih =>
    by_cases hp : Dotted.parent name = ""
    · rwa [Dotted.root_eq_self hp hr]
    · obtain ⟨m, hc⟩ := Option.ne_none_iff_exists'.mp hm
      have hparent : s.find? (Dotted.parent name) ≠ none := fun hn =>
        hb name .self hm hp ((h.parent_find? hc hp).mp hn)
      rw [← Dotted.root_parent hp] at hr ⊢
      exact ih hp hr (fun q hq => hb q (.inside hp hq)) hparent

/-- How a load comes to an end: the module is cached, or nothing is around it, or what is around it cannot be
loaded, or it is loaded behind that. -/
theorem load_cases {n : Nat} {name : String} {res : Except ImportFailure ModuleRef}
    (h : lib.load (n + 1) name s = some (res, s')) :
    (∃ m, s.find? name = some m ∧ res = .ok m ∧ s' = s) ∨
      (s.find? name = none ∧ Dotted.parent name = "" ∧
        (lib.importing (lib.request n)).loadBelow name none s = some (res, s')) ∨
      (Dotted.parent name ≠ "" ∧ ∃ e, res = .error e ∧
        lib.load n (Dotted.parent name) s = some (.error e, s')) ∨
      (Dotted.parent name ≠ "" ∧ ∃ p s₁, lib.load n (Dotted.parent name) s = some (.ok p, s₁) ∧
        ((∃ m, s₁.find? name = some m ∧ res = .ok m ∧ s' = s₁) ∨
          (s₁.find? name = none ∧
            (lib.importing (lib.request n)).loadBelow name (some p) s₁ = some (res, s')))) := by
  change (lib.importing (lib.request n)).load (lib.load n) name s = _ at h
  rw [Importing.load, cached_bind] at h
  cases hf : s.find? name with
  | some m =>
    rw [hf] at h
    cases h
    exact .inl ⟨m, rfl, rfl, rfl⟩
  | none =>
    rw [hf] at h
    simp only at h
    split at h
    · rename_i hp
      exact .inr (.inl ⟨rfl, hp, h⟩)
    · rename_i hp
      rcases bind_cases h with ⟨p, s₁, hl, h⟩ | ⟨e, hl, rfl⟩
      · refine .inr (.inr (.inr ⟨hp, p, s₁, hl, ?_⟩))
        rw [cached_bind] at h
        cases hf₁ : s₁.find? name with
        | some m =>
          rw [hf₁] at h
          cases h
          exact .inl ⟨m, rfl, rfl, rfl⟩
        | none =>
          rw [hf₁] at h
          exact .inr ⟨rfl, h⟩
      · exact .inr (.inr (.inl ⟨hp, e, rfl, hl⟩))

/-- If no module on its path is cached without the root, a module that was loaded is cached with its root. -/
theorem load_root {n : Nat} {name : String} {m : ModuleRef} (hr : Dotted.root name ≠ "")
    (hc : ∀ q, Dotted.OnPath q name → s.find? q ≠ none → s.find? (Dotted.root name) ≠ none)
    (h : lib.load n name s = some (.ok m, s')) : s'.find? (Dotted.root name) ≠ none := by
  induction n generalizing name m s' with
  | zero => cases h
  | succ n ih =>
    rcases load_cases h with ⟨m', hm, -, rfl⟩ | ⟨-, hp, -⟩ | ⟨-, e, he, -⟩ | ⟨hp, p, s₁, hl, hrest⟩
    · exact hc name .self (by simp [hm])
    · have hm := (loads_stretching (n + 1) name s _ s' trivial h).2 m rfl
      rw [Dotted.root_eq_self hp hr, hm]
      exact Option.some_ne_none m
    · cases he
    · have hroot : s₁.find? (Dotted.root name) ≠ none := by
        rw [← Dotted.root_parent hp] at hr hc ⊢
        exact ih hr (fun q hq => hc q (.inside hp hq)) hl
      have hst : lib.Stretch s₁ s' := by
        rcases hrest with ⟨_, _, _, rfl⟩ | ⟨hn, hb⟩
        · exact .refl _
        · have hpc := (loads_stretching n (Dotted.parent name) s _ s₁ trivial hl).2 p rfl
          exact (loadBelow_stretching (request_stretching n) name (some p) s₁ _ s' ⟨hn, fun _ => ⟨p, hpc⟩⟩ hb).1
      obtain ⟨k, hk⟩ := Option.ne_none_iff_exists'.mp hroot
      rw [hst.find?_eq hk]
      exact Option.some_ne_none k

/-- Loading a module raises an error: there is no code for it, or its body ended with the error. The module was
forgotten, and nothing happened since. -/
def Raises (lib : Library) (name : String) (e : ImportFailure) (s : Shelf) : Prop :=
  e = .refused (.missing name) ∨ ∃ n spec m s₁ s₂, spec.name = name ∧
    perform (lib.request n) (lib.body spec m) s₁ = some (.error e, s₂) ∧ s = s₂.broken name m

theorem loadBelow_raises {n : Nat} {name : String} {parent : Option ModuleRef} {e : ImportFailure}
    (h : (lib.importing (lib.request n)).loadBelow name parent s = some (.error e, s')) : lib.Raises name e s' := by
  obtain ⟨path, h⟩ : ∃ path, (lib.importing (lib.request n)).loadFound name parent
      ((lib.find name path).map fun spec => { spec with name }) s = some (.error e, s') := by
    cases parent with
    | none => exact ⟨lib.entries, h⟩
    | some p => exact ⟨_, h⟩
  cases hf : lib.find name path with
  | none =>
    rw [hf] at h
    cases h
    exact .inl rfl
  | some spec =>
    rw [hf] at h
    simp only [Option.map_some, Importing.loadFound] at h
    split at h
    · cases h
      exact .inl rfl
    · rcases bind_cases h with ⟨m, s₁, -, h⟩ | ⟨e', hrun, he⟩
      · -- behind the body nothing fails
        cases parent <;> cases h
      · cases he
        have hrun := (run_eq { spec with name } s).symm.trans hrun
        split at hrun
        · cases hrun
        · rename_i s₁ hb
          cases hrun
          exact .inr ⟨n, _, _, _, _, rfl, hb, rfl⟩
        · cases hrun

/-- A load that fails does so at a module on its path. -/
theorem load_raises {n : Nat} {name : String} {e : ImportFailure} (h : lib.load n name s = some (.error e, s')) :
    ∃ q, Dotted.OnPath q name ∧ lib.Raises q e s' := by
  induction n generalizing name with
  | zero => cases h
  | succ n ih =>
    rcases load_cases h with ⟨_, _, he, _⟩ | ⟨-, -, hb⟩ | ⟨hp, e', he, hl⟩ | ⟨hp, p, s₁, -, hrest⟩
    · cases he
    · exact ⟨name, .self, loadBelow_raises hb⟩
    · cases he
      obtain ⟨q, hq, hr⟩ := ih hl
      exact ⟨q, .inside hp hq, hr⟩
    · rcases hrest with ⟨_, _, he, _⟩ | ⟨-, hb⟩
      · cases he
      · exact ⟨name, .self, loadBelow_raises hb⟩

theorem Owns.owns_eq {name : String} (h : lib.Owns s name) (enter : ImportRequest → Loading ModuleRef) :
    (lib.importing enter).owns name s = some (.ok true, s) := by
  rw [Importing.owns, cached_bind]
  cases hf : s.find? (Dotted.root name) with
  | some m => rfl
  | none =>
    obtain ⟨he, hs⟩ := h.resolve_left fun hn => hn hf
    change (if lib.entries.isEmpty then (pure false : Loading Bool) else _) s = _
    rw [if_neg (by simpa using he)]
    change some (Except.ok (((lib.find _ _).map _).isSome), s) = _
    obtain ⟨spec, hs⟩ := Option.ne_none_iff_exists'.mp hs
    rw [hs]
    rfl

/-- An import that asks for a root module of the classpath loads the name, and then looks for the root. -/
theorem request_eq {r : ImportRequest} (hn : r.names = []) (hl : r.level ≤ 0) (ho : lib.Owns s r.name) (n : Nat) :
    lib.request n r s = match lib.load n r.name s with
      | some (.ok _, s') => some (match s'.find? (Dotted.root r.name) with
        | some m => .ok m
        | none => .error (.refused (.lostRoot (Dotted.root r.name))), s')
      | some (.error e, s') => some (.error e, s')
      | none => none := by
  have ha : absoluteName r.name r.package r.level.toNat = .ok r.name := by
    rw [Int.toNat_of_nonpos hl]
    rfl
  have hlevel : ¬ r.level > 0 := by omega
  simp only [request, Importing.importModule, ha]
  change Loading.bind _ _ s = _
  simp only [Loading.bind, ho.owns_eq, if_true]
  change (lib.importing fun _ => .exhausted).importOwned (lib.load n) r r.name s = _
  rw [Importing.importOwned]
  change Loading.bind _ _ s = _
  unfold Loading.bind
  cases hload : lib.load n r.name s with
  | none => rfl
  | some x =>
    obtain ⟨res, s₁⟩ := x
    cases res with
    | error e => rfl
    | ok m =>
      simp only [hn, List.isEmpty_nil, Bool.not_true, Bool.false_eq_true, if_false, hlevel]
      rw [cached_bind]
      cases s₁.find? (Dotted.root r.name) <;> rfl

/-- What holds of packages and the modules in them when no load is in progress. -/
structure ParentsKept (lib : Library) (s : Shelf) : Prop where
  /-- The parent of a cached module is cached, unless its body failed when it was run last. -/
  parents : ∀ name m, s.find? name = some m → Dotted.parent name ≠ "" →
    (s.find? (Dotted.parent name) = none ↔ s.Broke (Dotted.parent name))
  /-- An import that asks for a root module ends with it, or with the error of a load on its path, if nothing on this
  path was left behind by a package that broke. -/
  imports : ∀ r, r.names = [] → r.level ≤ 0 → Dotted.root r.name ≠ "" → lib.Owns s r.name →
    (∀ q, Dotted.OnPath q r.name → s.find? q ≠ none → Dotted.parent q ≠ "" → ¬ s.Broke (Dotted.parent q)) →
    ∃ res s', lib.Ends r s res s' ∧ ((∃ m, res = .ok m ∧ s'.find? (Dotted.root r.name) = some m) ∨
      ∃ e q, res = .error e ∧ Dotted.OnPath q r.name ∧ lib.Raises q e s')
  /-- A module that was left behind without its root cannot be imported so any more. -/
  lost : ∀ r, r.names = [] → r.level ≤ 0 → lib.Owns s r.name → s.find? r.name ≠ none →
    s.find? (Dotted.root r.name) = none →
    lib.Ends r s (.error (.refused (.lostRoot (Dotted.root r.name)))) s

/-- Between calls of an importer that started empty, for every finite classpath. -/
theorem parents_kept (hf : lib.Finite) (h : lib.Later .empty s) : lib.ParentsKept s := by
  constructor
  case parents => exact fun name m hm hp => h.parent_find? hm hp
  case imports =>
    intro r hn hl hr ho hb
    obtain ⟨names, hnames⟩ := hf.within
    obtain ⟨res, s', hends⟩ := request_terminates hnames h r
    refine ⟨res, s', hends, ?_⟩
    obtain ⟨n, hreq⟩ := hends
    rw [request_eq hn hl ho] at hreq
    cases hload : lib.load n r.name s with
    | none => rw [hload] at hreq; cases hreq
    | some x =>
      obtain ⟨loaded, s₁⟩ := x
      rw [hload] at hreq
      cases loaded with
      | error e =>
        cases hreq
        obtain ⟨q, hq, hraises⟩ := load_raises hload
        exact .inr ⟨e, q, rfl, hq, hraises⟩
      | ok m =>
        have hc : ∀ q, Dotted.OnPath q r.name → s.find? q ≠ none → s.find? (Dotted.root r.name) ≠ none := by
          intro q hq hm
          rw [← hq.root_eq] at hr ⊢
          exact h.root_find? hr (fun p hp => hb p (hp.trans hq)) hm
        obtain ⟨root, hroot⟩ := Option.ne_none_iff_exists'.mp (load_root hr hc hload)
        simp only [hroot] at hreq
        cases hreq
        exact .inl ⟨root, rfl, hroot⟩
  case lost =>
    intro r hn hl ho hm hr
    obtain ⟨m, hm⟩ := Option.ne_none_iff_exists'.mp hm
    have hload : lib.load 1 r.name s = some (.ok m, s) := by
      change (lib.importing (lib.request 0)).load (lib.load 0) r.name s = _
      rw [Importing.load, cached_bind, hm]
      rfl
    refine ⟨1, ?_⟩
    rw [request_eq hn hl ho, hload]
    simp only [hr]

/-- A package whose body imports a module inside it, and fails. -/
def abandoned : Library where
  entries := ["/cp"]
  find name path :=
    if path = ["/cp"] ∧ name = "p" then some ⟨"p", some "/cp/p/__init__.py", some ["/cp/p"]⟩
    else if path = ["/cp/p"] ∧ name = "p.c" then some ⟨"p.c", some "/cp/p/c.py", none⟩
    else none
  body spec _ :=
    if spec.name = "p" then .imports ⟨"p.c", "", [], 0⟩ fun _ => .fail (.fault (.value "x"))
    else .done
  born _ := ["__name__"]
  host r := .ok (.host r.name)

/-- What an import of the package leaves. -/
def abandonedShelf : Shelf where
  made := [⟨⟨"p", some "/cp/p/__init__.py", some ["/cp/p"]⟩, ["c", "__name__"]⟩,
    ⟨⟨"p.c", some "/cp/p/c.py", none⟩, ["__name__"]⟩]
  cached := [("p.c", .own 1)]
  record := [⟨.began, "p", .own 0⟩, ⟨.began, "p.c", .own 1⟩, ⟨.completed, "p.c", .own 1⟩, ⟨.broke, "p", .own 0⟩]

theorem abandoned_finite : abandoned.Finite := by
  refine ⟨["p", "p.c"], fun name path h => ?_⟩
  simp only [abandoned] at h
  split at h
  · rename_i hp
    simp [hp.2]
  · split at h
    · rename_i hc
      simp [hc.2]
    · exact absurd rfl h

theorem abandoned_later : abandoned.Later .empty abandonedShelf := by
  have h : abandoned.request 4 ⟨"p", "", [], 0⟩ .empty = some (.error (.fault (.value "x")), abandonedShelf) := by
    decide +kernel
  exact .call (.refl _) ⟨4, h⟩

theorem abandoned_parents_kept : abandoned.Finite ∧ abandoned.Later .empty abandonedShelf ∧
    abandoned.ParentsKept abandonedShelf :=
  ⟨abandoned_finite, abandoned_later, parents_kept abandoned_finite abandoned_later⟩

/-- The module is cached and the package is not; an import of the module is refused for that. -/
theorem abandoned_loses_root : abandoned.Finite ∧ abandoned.Later .empty abandonedShelf ∧
    abandonedShelf.find? "p.c" = some (.own 1) ∧ abandonedShelf.find? "p" = none ∧
    abandoned.Ends ⟨"p.c", "", [], 0⟩ abandonedShelf (.error (.refused (.lostRoot "p"))) abandonedShelf := by
  refine ⟨abandoned_finite, abandoned_later, by decide, by decide, 1, ?_⟩
  decide +kernel

end Library

end Evalbox
