import Evalbox.Proofs.Modules.Stretch
import Evalbox.Proofs.Text.Dotted

/-!
# What a classpath offers

A top-level module is searched in the entries of the classpath, and a module inside another one in the places of that
one. `Offers` are the names under which these searches find code. An importer that started empty caches and runs
nothing else; `Stocked` is what its shelf keeps to, at any time.
-/

namespace Evalbox

/-- Where the modules inside a module are searched. -/
def Shelf.places (s : Shelf) (m : ModuleRef) : List String := ((s.made? m).bind fun o => o.spec.locations).getD []

theorem Shelf.places_bind (s : Shelf) (k : ModuleRef) (name : String) (m : ModuleRef) :
    (s.bind k name).places m = s.places m := by
  cases k with
  | host => rfl
  | own i =>
    cases m with
    | host => rfl
    | own j =>
      simp only [places, made?, bind, List.getElem?_modify]
      cases s.made[j]? with
      | none => rfl
      | some o =>
        by_cases hij : i = j <;> simp [hij]

namespace Library

section Definitions

variable (lib : Library)

/-- The classpath has the root of a name, or had it when the root was loaded. -/
def Owns (s : Shelf) (name : String) : Prop :=
  s.find? (Dotted.root name) ≠ none ∨ lib.entries ≠ [] ∧ lib.find (Dotted.root name) lib.entries ≠ none

/-- Where a name that the classpath owns is searched. -/
inductive Searched : String → List String → Prop
  | top {name : String} : Dotted.parent name = "" → lib.Owns .empty name → Searched name lib.entries
  | inside {name : String} {path : List String} {spec : ModuleSpec} :
      Dotted.parent name ≠ "" → Searched (Dotted.parent name) path →
        lib.find (Dotted.parent name) path = some spec → spec.source.isSome →
          Searched name (spec.locations.getD [])

/-- There is code for a name where it is searched. -/
def Offers (name : String) : Prop :=
  ∃ path spec, lib.Searched name path ∧ lib.find name path = some spec ∧ spec.source.isSome

/-- What is on a shelf is of the classpath. -/
structure Stocked (s : Shelf) : Prop where
  owned : ∀ name, lib.Owns s name → lib.Owns .empty name
  made : ∀ name m, s.find? name = some m → ∃ i, m = .own i ∧ i < s.made.length
  places : ∀ name m, Dotted.parent name ≠ "" → s.find? (Dotted.parent name) = some m → lib.Searched name (s.places m)
  ran : ∀ e ∈ s.record, lib.Offers e.name

end Definitions

variable {lib : Library} {s s' : Shelf}

theorem Owns.root {name name' : String} (h : lib.Owns s name) (hr : Dotted.root name' = Dotted.root name) :
    lib.Owns s name' := by
  rwa [Owns, hr]

theorem Searched.owns {name : String} {path : List String} (h : lib.Searched name path) : lib.Owns .empty name := by
  induction h with
  | top _ ho => exact ho
  | inside hp _ _ _ ih => exact ih.root (Dotted.root_parent hp).symm

theorem stocked_empty : lib.Stocked .empty where
  owned _ h := h
  made _ _ h := nomatch h
  places _ _ _ h := nomatch h
  ran _ h := nomatch h

/-- A step that makes no modules, caches nothing, and notes what is of the classpath. -/
theorem Stocked.step (h : lib.Stocked s) (hmade : s'.made.length = s.made.length)
    (hplaces : ∀ m, s'.places m = s.places m) (hfind : ∀ name m, s'.find? name = some m → s.find? name = some m)
    (hran : ∀ e ∈ s'.record, e ∈ s.record ∨ lib.Offers e.name) : lib.Stocked s' where
  owned name ho := by
    refine h.owned name (ho.imp_left fun hn => ?_)
    obtain ⟨m, hm⟩ := Option.ne_none_iff_exists'.mp hn
    simp [hfind _ m hm]
  made name m hm := hmade ▸ h.made name m (hfind name m hm)
  places name m hp hm := hplaces m ▸ h.places name m hp (hfind _ m hm)
  ran e he := (hran e he).elim (h.ran e) id

theorem Stocked.bind (h : lib.Stocked s) (m : ModuleRef) (name : String) : lib.Stocked (s.bind m name) := by
  refine h.step ?_ (s.places_bind m name) (fun n k hk => by rwa [Shelf.find?_bind] at hk) ?_
  · cases m <;> simp [Shelf.bind]
  · cases m <;> exact fun e he => .inl he

theorem Stocked.note (h : lib.Stocked s) {name : String} (hn : lib.Offers name) (stage : BodyStage) (m : ModuleRef) :
    lib.Stocked (s.note ⟨stage, name, m⟩) := by
  refine h.step rfl (fun _ => rfl) (fun _ _ hk => hk) fun e he => ?_
  rcases List.mem_append.mp he with he | he
  · exact .inl he
  · obtain rfl := List.mem_singleton.mp he
    exact .inr hn

theorem Stocked.broken (h : lib.Stocked s) {name : String} (hn : lib.Offers name) (m : ModuleRef) :
    lib.Stocked (s.broken name m) := by
  refine (h.note hn .broke m).step rfl (fun _ => rfl) (fun n k hk => ?_) fun _ he => .inl he
  rw [Shelf.find?_broken] at hk
  split at hk
  · cases hk
  · exact hk

/-- A module is opened that a search found. -/
theorem Stocked.opened (h : lib.Stocked s) {spec : ModuleSpec} {path : List String}
    (hsearched : lib.Searched spec.name path) {found : ModuleSpec} (hfound : lib.find spec.name path = some found)
    (hsource : found.source.isSome) (hlocations : spec.locations = found.locations) :
    lib.Stocked (s.opened lib spec) where
  owned name ho := by
    rcases ho with hn | hn
    · rw [Shelf.find?_opened] at hn
      split at hn
      · rename_i hroot
        exact hsearched.owns.root (by rw [← hroot, Dotted.root_of_no_dot (Dotted.no_dot_root name)])
      · exact h.owned name (.inl hn)
    · exact h.owned name (.inr hn)
  made name m hm := by
    rw [Shelf.find?_opened] at hm
    rw [Shelf.made_opened]
    split at hm
    · cases hm
      exact ⟨_, rfl, Nat.lt_succ_self _⟩
    · obtain ⟨i, hi, hlt⟩ := h.made name m hm
      exact ⟨i, hi, Nat.lt_succ_of_lt hlt⟩
  places name m hp hm := by
    rw [Shelf.find?_opened] at hm
    split at hm
    · rename_i hparent
      cases hm
      have hnew : (s.opened lib spec).places (.own s.made.length) = found.locations.getD [] := by
        simp [Shelf.places, Shelf.made?, Shelf.opened, hlocations]
      rw [hnew]
      exact .inside hp (hparent ▸ hsearched) (hparent ▸ hfound) hsource
    · obtain ⟨i, rfl, hlt⟩ := h.made _ m hm
      have hold : (s.opened lib spec).places (.own i) = s.places (.own i) := by
        simp [Shelf.places, Shelf.made?, Shelf.opened, List.getElem?_append_left hlt]
      rw [hold]
      exact h.places name _ hp hm
  ran e he := by
    rcases List.mem_append.mp he with he | he
    · exact h.ran e he
    · obtain rfl := List.mem_singleton.mp he
      exact ⟨path, found, hsearched, hfound, hsource⟩

/-- Asking the cache leaves the shelf as it is. -/
theorem cached_bind {α : Type} (enter : ImportRequest → Loading ModuleRef) (name : String)
    (f : Option ModuleRef → Loading α) (s : Shelf) :
    ((lib.importing enter).cached name >>= f) s = f (s.find? name) s := rfl

/-- So does asking whether the classpath owns a name. -/
theorem owns_cases (enter : ImportRequest → Loading ModuleRef) (name : String) (s : Shelf) :
    ∃ owned, (lib.importing enter).owns name s = some (.ok owned, s) ∧ (owned = true → lib.Owns s name) := by
  rw [Importing.owns, cached_bind]
  cases hs : s.find? (Dotted.root name) with
  | some m => exact ⟨true, rfl, fun _ => .inl (by simp [hs])⟩
  | none =>
    change ∃ owned, (if lib.entries.isEmpty then (pure false : Loading Bool) else _) s = _ ∧ _
    split
    · exact ⟨false, rfl, nofun⟩
    · rename_i hentries
      refine ⟨_, rfl, fun h => .inr ⟨by simpa using hentries, fun hn => ?_⟩⟩
      simp [hn] at h

end Library

end Evalbox
