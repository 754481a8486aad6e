import Evalbox.Proofs.Modules.Offers
import Evalbox.Proofs.Modules.Unfolding

/-!
# Imports from a finite classpath end

A module is cached before its body runs, and stays cached while it runs. Loads inside loads therefore find
fewer and fewer names that are still to be loaded, and a load of the module that a module lies in has a shorter
name. Over a classpath that offers finitely many names every import ends, whatever bodies import and catch.
-/

namespace Evalbox

/-- A search finds something for finitely many names only. -/
def Library.Finite (lib : Library) : Prop :=
  ∃ names : List String, ∀ name path, lib.find name path ≠ none → name ∈ names

/-- The names that a classpath offers are among these. -/
def Library.Within (lib : Library) (names : List String) : Prop := ∀ name, lib.Offers name → name ∈ names

theorem Library.Finite.within {lib : Library} (h : lib.Finite) : ∃ names, lib.Within names := by
  obtain ⟨names, hn⟩ := h
  exact ⟨names, fun name ⟨path, _, _, hf, _⟩ => hn name path (by simp [hf])⟩

/-- At most `u` names that the classpath offers are not cached. -/
structure Library.Room (lib : Library) (u : Nat) (s : Shelf) : Prop where
  stocked : lib.Stocked s
  few : ∃ names : List String, names.length ≤ u ∧ ∀ name, lib.Offers name → s.find? name = none → name ∈ names

namespace Loading

variable {α β : Type} {P P' Q : Shelf → Prop}

/-- Unfolded often enough, the work ends in the same way from then on. -/
def Settling (P Q : Shelf → Prop) (p : Nat → Loading α) : Prop :=
  ∀ s, P s → ∃ n res s', Q s' ∧ ∀ m, n ≤ m → p m s = some (res, s')

theorem Settling.pure (h : ∀ s, P s → Q s) (a : α) : Settling P Q fun _ => (Pure.pure a : Loading α) :=
  fun s hs => ⟨0, .ok a, s, h s hs, fun _ _ => rfl⟩

theorem Settling.fail (h : ∀ s, P s → Q s) (e : ImportFailure) :
    Settling P Q fun _ => (Loading.fail e : Loading α) :=
  fun s hs => ⟨0, .error e, s, h s hs, fun _ _ => rfl⟩

theorem Settling.weaken {p : Nat → Loading α} (h : Settling P' Q p) (hP : ∀ s, P s → P' s) :
    Settling P Q p :=
  fun s hs => h s (hP s hs)

/-- The second work may build on what the first one answers with. -/
theorem Settling.bind_known {p : Nat → Loading α} {f : Nat → α → Loading β} {R : α → Shelf → Prop}
    (hp : Settling P Q p) (hR : ∀ n s s' a, P s → p n s = some (.ok a, s') → R a s')
    (hf : ∀ a, Settling (fun s => Q s ∧ R a s) Q fun n => f n a) : Settling P Q fun n => p n >>= f n := by
  intro s hs
  obtain ⟨n, res, s₁, hq, h⟩ := hp s hs
  cases res with
  | error e =>
    refine ⟨n, .error e, s₁, hq, fun m hm => ?_⟩
    change Loading.bind (p m) (f m) s = _
    simp only [Loading.bind, h m hm]
  | ok a =>
    obtain ⟨n', res, s₂, hq', h'⟩ := hf a s₁ ⟨hq, hR n s s₁ a hs (h n (Nat.le_refl n))⟩
    refine ⟨max n n', res, s₂, hq', fun m hm => ?_⟩
    change Loading.bind (p m) (f m) s = _
    simp only [Loading.bind, h m (by omega), h' m (by omega)]

theorem Settling.bind {p : Nat → Loading α} {f : Nat → α → Loading β} (hp : Settling P Q p)
    (hf : ∀ a, Settling Q Q fun n => f n a) : Settling P Q fun n => p n >>= f n :=
  hp.bind_known (R := fun _ _ => True) (fun _ _ _ _ _ _ => trivial) fun a => (hf a).weaken fun _ h => h.1

theorem Settling.read_bind {f : Shelf → α} {g : Nat → α → Loading β}
    (h : ∀ a, Settling (fun s => P s ∧ f s = a) Q fun n => g n a) :
    Settling P Q fun n => Loading.read f >>= g n :=
  fun s hs => h (f s) s ⟨hs, rfl⟩

end Loading

namespace Library

open Loading

variable {lib : Library} {u : Nat}

/-- There is not more to load where everything is cached that was. -/
theorem Room.of_cached {s s' : Shelf} (h : lib.Room u s) (hs : lib.Stocked s')
    (hk : ∀ name m, s.find? name = some m → s'.find? name = some m) : lib.Room u s' := by
  obtain ⟨names, hl, hn⟩ := h.few
  refine ⟨hs, names, hl, fun name ho hs' => hn name ho ?_⟩
  cases hs : s.find? name with
  | none => rfl
  | some m => exact absurd ((hk name m hs).symm.trans hs') (by simp)

/-- There is less to load while a module is loaded that is offered. -/
theorem Room.opened {s : Shelf} {spec : ModuleSpec} (h : lib.Room u s) (ho : lib.Offers spec.name)
    (hs : s.find? spec.name = none) (hstocked : lib.Stocked (s.opened lib spec)) :
    ∃ v, v < u ∧ lib.Room v (s.opened lib spec) := by
  obtain ⟨names, hl, hn⟩ := h.few
  have hmem : spec.name ∈ names := hn spec.name ho hs
  have hlt : (names.filter (· ≠ spec.name)).length < names.length :=
    List.length_filter_lt_length_iff_exists.mpr ⟨spec.name, hmem, by simp⟩
  refine ⟨_, Nat.lt_of_lt_of_le hlt hl, hstocked, _, Nat.le_refl _, fun name ho' hs' => ?_⟩
  rw [Shelf.find?_opened] at hs'
  split at hs'
  · cases hs'
  · rename_i hne
    exact List.mem_filter.mpr ⟨hn name ho' hs', by simpa using hne⟩

theorem Room.bind {s : Shelf} (h : lib.Room u s) (m : ModuleRef) (name : String) : lib.Room u (s.bind m name) :=
  h.of_cached (h.stocked.bind m name) fun n m' hn => by rwa [Shelf.find?_bind]

theorem bindName_settles (m : ModuleRef) (name : String) :
    Settling (lib.Room u) (lib.Room u) fun _ => Loading.change fun s => s.bind m name :=
  fun s hs => ⟨0, .ok (), s.bind m name, hs.bind m name, fun _ _ => rfl⟩

/-- A body ends if the imports do that it calls for. -/
theorem perform_settles {enter : Nat → ImportRequest → Loading ModuleRef}
    (he : ∀ r, Settling (lib.Room u) (lib.Room u) fun n => enter n r) (b : ModuleBody) :
    Settling (lib.Room u) (lib.Room u) fun n => perform (enter n) b := by
  induction b with
  | done => exact .pure (fun _ h => h) ()
  | fail e => exact .fail (fun _ h => h) e
  | imports r next ih =>
    intro s hs
    obtain ⟨n, res, s₁, h₁, hn⟩ := he r s hs
    obtain ⟨n', res', s₂, h₂, hn'⟩ := ih res s₁ h₁
    refine ⟨max n n', res', s₂, h₂, fun m hm => ?_⟩
    have hfirst := hn m (by omega)
    have hrest := hn' m (by omega)
    simp only at hfirst hrest
    simp only [perform, hfirst, hrest]
  | looks m name next ih => exact fun s hs => ih (s.has m name) s hs
  | binds m name next ih => exact fun s hs => ih (s.bind m name) (hs.bind m name)

section Load

variable (hreq : ∀ v < u, ∀ r, Settling (lib.Room v) (lib.Room v) fun n => lib.request n r)
include hreq

/-- Running a module that was found ends if the imports end for which there is less to load. -/
theorem run_settles {name : String} {path : List String} {found : ModuleSpec} (hsearched : lib.Searched name path)
    (hfound : lib.find name path = some found) (hsource : found.source.isSome) :
    Settling (fun s => lib.Room u s ∧ s.find? name = none) (lib.Room u)
      fun n => (lib.importing (lib.request n)).run name { found with name } := by
  rintro s ⟨hr, hs⟩
  have hoffers : lib.Offers name := ⟨path, found, hsearched, hfound, hsource⟩
  obtain ⟨spec, hspec⟩ : ∃ spec : ModuleSpec, spec = { found with name } := ⟨_, rfl⟩
  obtain rfl : spec.name = name := by rw [hspec]
  have hlocations : spec.locations = found.locations := by rw [hspec]
  obtain ⟨v, hv, ho⟩ := hr.opened hoffers hs (hr.stocked.opened hsearched hfound hsource hlocations)
  obtain ⟨n, res, s₁, hr₁, hn⟩ := perform_settles (hreq v hv) (lib.body spec (.own s.made.length)) _ ho
  have hbody : ∀ m, n ≤ m → perform (lib.request m) (lib.body spec (.own s.made.length)) (s.opened lib spec) =
      some (res, s₁) := hn
  obtain ⟨hst, -⟩ := perform_stretching (request_stretching n) _ _ res s₁ trivial (hbody n (Nat.le_refl n))
  rw [← hspec]
  cases res with
  | ok _ =>
    refine ⟨n, .ok (.own s.made.length), s₁.note ⟨.completed, spec.name, .own s.made.length⟩, ?_, fun m hm => ?_⟩
    · refine hr.of_cached (hr₁.stocked.note hoffers _ _) fun name m hm => ?_
      exact hst.find?_eq (Shelf.find?_opened_of_some hs hm).2
    · simp only [run_eq, hbody m hm]
  | error e =>
    refine ⟨n, .error e, s₁.broken spec.name (.own s.made.length), ?_, fun m hm => ?_⟩
    · refine hr.of_cached (hr₁.stocked.broken hoffers _) fun name m hm => ?_
      obtain ⟨hne, ho⟩ := Shelf.find?_opened_of_some hs hm
      rw [Shelf.find?_broken, if_neg hne]
      exact hst.find?_eq ho
    · simp only [run_eq, hbody m hm]

theorem loadFound_settles {name : String} {path : List String} (hsearched : lib.Searched name path)
    (parent : Option ModuleRef) :
    Settling (fun s => lib.Room u s ∧ s.find? name = none) (lib.Room u) fun n =>
      (lib.importing (lib.request n)).find name path >>=
        (lib.importing (lib.request n)).loadFound name parent := by
  change Settling _ _ fun n => (lib.importing (lib.request n)).loadFound name parent
    ((lib.find name path).map fun spec => { spec with name })
  cases hf : lib.find name path with
  | none => exact .fail (fun _ h => h.1) _
  | some found =>
    simp only [Option.map_some, Importing.loadFound]
    split
    · exact .fail (fun _ h => h.1) _
    · rename_i hsource
      have hsource : found.source.isSome := by simpa [Option.isSome_iff_ne_none] using hsource
      refine .bind (run_settles hreq hsearched hf hsource) fun m => ?_
      cases parent with
      | none => exact .pure (fun _ h => h) m
      | some p => exact .bind (bindName_settles p _) fun _ => .pure (fun _ h => h) m

theorem loadBelow_settles {name : String} (hp : Dotted.parent name ≠ "") (parent : ModuleRef) :
    Settling (fun s => (lib.Room u s ∧ s.find? (Dotted.parent name) = some parent) ∧ s.find? name = none) (lib.Room u)
      fun n => (lib.importing (lib.request n)).loadBelow name (some parent) := by
  rintro s ⟨⟨hr, hparent⟩, hs⟩
  have hsearched : lib.Searched name (s.places parent) := hr.stocked.places name parent hp hparent
  exact loadFound_settles hreq hsearched (some parent) s ⟨hr, hs⟩

/-- Loading ends: the names of the modules that a module lies in get shorter. -/
theorem load_settles {name : String} (ho : lib.Owns .empty name) :
    Settling (lib.Room u) (lib.Room u) fun n => lib.load n name := by
  induction name using Dotted.parent_induction with
  | h name ih =>
    have hload : Settling (lib.Room u) (lib.Room u)
        fun n => (lib.importing (lib.request n)).load (lib.load n) name := by
      unfold Importing.load
      refine .read_bind fun found => ?_
      cases found with
      | some m => exact .pure (fun _ h => h.1) m
      | none =>
        simp only
        split
        · rename_i hp
          exact loadFound_settles hreq (.top hp ho) none
        · rename_i hp
          have hparent := ih hp (ho.root (Dotted.root_parent hp))
          have hcached : ∀ n s s' m, lib.Room u s ∧ s.find? name = none →
              lib.load n (Dotted.parent name) s = some (.ok m, s') → s'.find? (Dotted.parent name) = some m :=
            fun n s s' m _ h => (loads_stretching n (Dotted.parent name) s _ s' trivial h).2 m rfl
          refine (hparent.weaken fun _ h => h.1).bind_known hcached fun parent => .read_bind fun found => ?_
          cases found with
          | some m => exact .pure (fun _ h => h.1.1) m
          | none => exact loadBelow_settles hreq hp parent
    intro s hs
    obtain ⟨n, res, s', hs', hn⟩ := hload s hs
    refine ⟨n + 1, res, s', hs', fun m hm => ?_⟩
    obtain ⟨m, rfl⟩ : ∃ k, m = k + 1 := ⟨m - 1, by omega⟩
    exact hn m (by omega)

end Load

/-! Imports end if loading does. -/

section Import

variable {again : Nat → String → Loading ModuleRef}
  (ha : ∀ name, lib.Owns .empty name → Settling (lib.Room u) (lib.Room u) fun n => again n name)
include ha

theorem loadNames_settles {name : String} (ho : lib.Owns .empty name) (m : ModuleRef) (names : List String) :
    Settling (lib.Room u) (lib.Room u) fun n =>
      (lib.importing fun _ => .exhausted).loadNames (again n) name m names := by
  induction names with
  | nil => exact .pure (fun _ h => h) ()
  | cons k rest ih =>
    have hinside : lib.Owns .empty (name ++ "." ++ k) := ho.root (Dotted.root_append_dot name k)
    have hone : ∀ known, Settling (lib.Room u) (lib.Room u) fun n =>
        (lib.importing fun _ => .exhausted).loadOne (again n) name m k
          ((lib.importing fun _ => .exhausted).loadNames (again n) name m rest) known := by
      intro known
      cases known with
      | true => exact ih
      | false =>
        refine .read_bind fun package => ?_
        cases package with
        | true => exact .bind ((ha _ hinside).weaken fun _ h => h.1) fun _ => ih
        | false => exact ih.weaken fun _ h => h.1
    simp only [Importing.loadNames_cons]
    split
    · exact hone true
    · exact .read_bind fun known => (hone known).weaken fun _ h => h.1

theorem importOwned_settles (r : ImportRequest) {name : String} (ho : lib.Owns .empty name) :
    Settling (lib.Room u) (lib.Room u) fun n =>
      (lib.importing fun _ => .exhausted).importOwned (again n) r name := by
  unfold Importing.importOwned
  refine .bind (ha name ho) fun m => ?_
  split
  · exact .bind (loadNames_settles ha ho m r.names) fun _ => .pure (fun _ h => h) m
  · split
    · exact .pure (fun _ h => h) m
    · refine .read_bind fun root => ?_
      cases root with
      | some root => exact .pure (fun _ h => h.1) root
      | none => exact .fail (fun _ h => h.1) _

theorem importModule_settles (r : ImportRequest) :
    Settling (lib.Room u) (lib.Room u) fun n =>
      (lib.importing fun _ => .exhausted).importModule (again n) r := by
  unfold Importing.importModule
  split
  · exact .fail (fun _ h => h) _
  · rename_i name _
    intro s hs
    have hcases : ∃ owned, (lib.importing fun _ => .exhausted).owns name s = some (.ok owned, s) ∧
        (owned = true → lib.Owns s name) := owns_cases _ name s
    obtain ⟨owned, howns, ho⟩ := hcases
    change ∃ n res s', lib.Room u s' ∧ ∀ m, n ≤ m → Loading.bind _ _ s = some (res, s')
    simp only [Loading.bind, howns]
    cases owned with
    | true => exact importOwned_settles ha r (hs.stocked.owned name (ho rfl)) s hs
    | false => exact ⟨0, lib.host r, s, hs, fun _ _ => rfl⟩

end Import

theorem requests_settle (u : Nat) (r : ImportRequest) :
    Settling (lib.Room u) (lib.Room u) fun n => lib.request n r := by
  induction u using Nat.strongRecOn generalizing r with
  | _ u ih => exact importModule_settles (fun _ ho => load_settles ih ho) r

section Within

variable {names : List String} (hn : lib.Within names)
include hn

/-- Over a classpath that offers finitely many names an import ends, and leaves a shelf like the one that it found. -/
theorem request_ends {s : Shelf} (hs : lib.Stocked s) (r : ImportRequest) :
    ∃ res s', lib.Ends r s res s' ∧ lib.Stocked s' := by
  have hroom : lib.Room names.length s := ⟨hs, names, Nat.le_refl _, fun name ho _ => hn name ho⟩
  obtain ⟨n, res, s', hr, h⟩ := requests_settle names.length r s hroom
  exact ⟨res, s', ⟨n, h n (Nat.le_refl n)⟩, hr.stocked⟩

theorem Later.stocked {s : Shelf} (h : lib.Later .empty s) : lib.Stocked s := by
  induction h with
  | refl => exact stocked_empty
  | call _ hr ih =>
    obtain ⟨_, _, hr', hs'⟩ := request_ends hn ih _
    obtain ⟨rfl, rfl⟩ := hr.unique hr'
    exact hs'

/-- Every import of an importer that started empty ends. -/
theorem request_terminates {s : Shelf} (h : lib.Later .empty s) (r : ImportRequest) : ∃ res s', lib.Ends r s res s' := by
  obtain ⟨res, s', hr, -⟩ := request_ends hn (h.stocked hn) r
  exact ⟨res, s', hr⟩

/-- So it comes to exactly one result, and leaves exactly one shelf. -/
theorem request_existsUnique {s : Shelf} (h : lib.Later .empty s) (r : ImportRequest) :
    ∃ x : Except ImportFailure ModuleRef × Shelf, ∀ res s', lib.Ends r s res s' ↔ (res, s') = x := by
  obtain ⟨res, s', h⟩ := request_terminates hn h r
  refine ⟨(res, s'), fun res₁ s₁ => ⟨fun h₁ => ?_, fun he => ?_⟩⟩
  · obtain ⟨rfl, rfl⟩ := h₁.unique h
    rfl
  · obtain ⟨rfl, rfl⟩ := Prod.mk.inj he
    exact h

end Within

end Library

end Evalbox
