import Evalbox.Proofs.Modules.Parents

/-!
# What a classpath offers, and what can be loaded from it

An entry of a classpath may offer a name without any code for it: a plain directory does. A search takes the first
code that an entry has for the name, and plain directories only if no entry has code.

The importer owns a name that some entry offers, and loads it if some entry has code for it. So owning and loading
disagree just where nothing but plain directories offers the name (`files_ownership`): an import of it is refused, and
the host is not asked, though it may have the module (`shadowed_refused`).
-/

namespace Evalbox

namespace FileTree

variable (t : FileTree) (listing : String → Option (List String)) (name : String)

/-- The code that an entry has for a name. -/
def codeAt (entry : String) : Option ModuleSpec := (t.findAt listing entry name).filter (·.source.isSome)

/-- The directories without code that an entry offers. -/
def bareAt (entry : String) : List String :=
  ((t.findAt listing entry name).filter (·.source.isNone)).elim [] fun spec => spec.locations.getD []

/-- What a search finds that only found directories without code. -/
def gathered : List String → Option ModuleSpec
  | [] => none
  | bare => some ⟨name, none, some bare⟩

variable {t listing name}

/-- What an entry offers has the name that was looked for, and is a directory if it has no code. -/
theorem findAt_spec {entry : String} {spec : ModuleSpec} (h : t.findAt listing entry name = some spec) :
    spec.name = name ∧ (spec.source = none → ∃ base, spec.locations = some [base]) := by
  unfold findAt at h
  dsimp only at h
  generalize (if entry = "" then t.cwd else entry) = entry at h
  split at h
  · split at h
    · cases h
      exact ⟨rfl, fun hn => by cases hn⟩
    · split at h
      · cases h
        exact ⟨rfl, fun hn => by cases hn⟩
      · split at h
        · cases h
          exact ⟨rfl, fun _ => ⟨_, rfl⟩⟩
        · cases h
  · split at h
    · cases h
    · split at h
      · cases h
        exact ⟨rfl, fun hn => by cases hn⟩
      · split at h
        · cases h
          exact ⟨rfl, fun hn => by cases hn⟩
        · split at h
          · cases h
            exact ⟨rfl, fun _ => ⟨_, rfl⟩⟩
          · cases h

/-- An entry offers nothing, or code, or a directory. -/
theorem findAt_cases (entry : String) :
    (t.findAt listing entry name = none ∧ t.codeAt listing name entry = none ∧ t.bareAt listing name entry = []) ∨
      (∃ spec, t.findAt listing entry name = some spec ∧ spec.source.isSome ∧
        t.codeAt listing name entry = some spec ∧ t.bareAt listing name entry = []) ∨
      ∃ base, t.findAt listing entry name = some ⟨name, none, some [base]⟩ ∧
        t.codeAt listing name entry = none ∧ t.bareAt listing name entry = [base] := by
  unfold codeAt bareAt
  cases h : t.findAt listing entry name with
  | none => exact .inl ⟨rfl, rfl, rfl⟩
  | some spec =>
    obtain ⟨name', source, locations⟩ := spec
    obtain ⟨rfl, hl⟩ := findAt_spec h
    cases source with
    | some source => exact .inr (.inl ⟨_, rfl, rfl, rfl, rfl⟩)
    | none =>
      obtain ⟨base, hl⟩ := hl rfl
      obtain rfl : locations = some [base] := hl
      exact .inr (.inr ⟨base, rfl, rfl, rfl⟩)

theorem search_eq (path bare : List String) : findModule.search t listing name bare path =
    (path.findSome? (t.codeAt listing name)).or (gathered name (bare ++ path.flatMap (t.bareAt listing name))) := by
  induction path generalizing bare with
  | nil =>
    rw [List.flatMap_nil, List.append_nil, List.findSome?_nil, Option.none_or]
    cases bare <;> rfl
  | cons entry rest ih =>
    rw [findModule.search, List.findSome?_cons, List.flatMap_cons]
    rcases @findAt_cases t listing name entry with
      ⟨hf, hc, hb⟩ | ⟨spec, hf, hs, hc, hb⟩ | ⟨base, hf, hc, hb⟩
    · rw [hf, hc, hb]
      exact ih bare
    · rw [hf, hc]
      simp only [hs, if_true, Option.some_or]
    · rw [hf, hc, hb, ← List.append_assoc]
      exact ih (bare ++ [base])

/-- The first code decides; without any, all directories are gathered. -/
theorem findModule_eq (path : List String) : t.findModule listing name path =
    (path.findSome? (t.codeAt listing name)).or (gathered name (path.flatMap (t.bareAt listing name))) := by
  rw [findModule, search_eq, List.nil_append]

theorem findModule_of_code {path : List String} {spec : ModuleSpec}
    (h : path.findSome? (t.codeAt listing name) = some spec) : t.findModule listing name path = some spec := by
  rw [findModule_eq, h, Option.some_or]

theorem codeAt_source {path : List String} {spec : ModuleSpec}
    (h : path.findSome? (t.codeAt listing name) = some spec) : spec.name = name ∧ spec.source.isSome := by
  obtain ⟨entry, -, he⟩ := List.exists_of_findSome?_eq_some h
  obtain ⟨hf, hs⟩ := Option.filter_eq_some_iff.mp he
  exact ⟨(findAt_spec hf).1, hs⟩

/-- Without code nothing can be loaded of what is found. -/
theorem findModule_of_bare {path : List String} (h : path.findSome? (t.codeAt listing name) = none)
    {spec : ModuleSpec} (hf : t.findModule listing name path = some spec) : spec.source = none := by
  rw [findModule_eq, h, Option.none_or] at hf
  unfold gathered at hf
  split at hf
  · cases hf
  · cases hf
    rfl

theorem findAt_isSome (entry : String) : (t.findAt listing entry name).isSome ↔
    (t.codeAt listing name entry).isSome ∨ t.bareAt listing name entry ≠ [] := by
  rcases @findAt_cases t listing name entry with
    ⟨hf, hc, hb⟩ | ⟨spec, hf, -, hc, hb⟩ | ⟨base, hf, hc, hb⟩ <;> simp [hf, hc, hb]

/-- Something is found just if an entry offers the name, be it without code. -/
theorem findModule_isSome (path : List String) : (t.findModule listing name path).isSome ↔
    ∃ entry ∈ path, (t.findAt listing entry name).isSome := by
  have hg : ∀ bare, (gathered name bare).isSome ↔ bare ≠ [] := fun bare => by cases bare <;> simp [gathered]
  rw [findModule_eq, Option.isSome_or, Bool.or_eq_true, List.findSome?_isSome_iff, hg, Ne, List.flatMap_eq_nil_iff]
  simp only [findAt_isSome, not_forall, exists_prop, and_or_left, exists_or]

end FileTree

namespace Library

open Loading

variable (lib : Library) (t : FileTree) (listing : String → Option (List String)) {name : String} {s : Shelf}

/-- A library whose modules are searched in a tree of files, where the names in directories are known from a
listing. -/
def onFiles : Library := { lib with find := t.findModule listing }

variable {lib t listing}

/-- Ownership of a name that is not cached is a matter of what a search finds. -/
theorem owns_eq (hn : s.find? (Dotted.root name) = none) (enter : ImportRequest → Loading ModuleRef) :
    (lib.importing enter).owns name s =
      some (.ok (!lib.entries.isEmpty && (lib.find (Dotted.root name) lib.entries).isSome), s) := by
  rw [Importing.owns, cached_bind, hn]
  change (if lib.entries.isEmpty then (pure false : Loading Bool) else _) s = _
  cases lib.entries.isEmpty with
  | true => rfl
  | false =>
    change some (Except.ok (((lib.find _ _).map _).isSome), s) = _
    rw [Option.isSome_map]
    rfl

/-- A module that lies in nothing is loaded from what a search of the classpath finds. -/
theorem load_top (hn : s.find? name = none) (hp : Dotted.parent name = "") (n : Nat) : lib.load (n + 1) name s =
    (lib.importing (lib.request n)).loadFound name none
      ((lib.find name lib.entries).map fun spec => { spec with name }) s := by
  change (lib.importing (lib.request n)).load (lib.load n) name s = _
  rw [Importing.load, cached_bind, hn]
  simp only [hp, if_true]
  rw [Importing.loadBelow_none]
  rfl

/-- Where nothing was found, or nothing with code, the load is refused. -/
theorem load_refused (hn : s.find? name = none) (hp : Dotted.parent name = "")
    (hf : ∀ spec, lib.find name lib.entries = some spec → spec.source = none) (n : Nat) :
    lib.load (n + 1) name s = some (.error (.refused (.missing name)), s) := by
  rw [load_top hn hp]
  cases h : lib.find name lib.entries with
  | none => rfl
  | some spec =>
    simp only [Option.map_some, Importing.loadFound, hf spec h, Option.isNone_none, if_true]
    rfl

/-- Where code was found, it is run. -/
theorem load_run (hn : s.find? name = none) (hp : Dotted.parent name = "") {spec : ModuleSpec}
    (hf : lib.find name lib.entries = some spec) (hname : spec.name = name) (hs : spec.source.isSome) (n : Nat) :
    lib.load (n + 1) name s = (lib.importing (lib.request n)).run name spec s := by
  subst hname
  have hnone : spec.source.isNone = false := by rw [← Option.not_isSome, hs]; rfl
  rw [load_top hn hp, hf]
  simp only [Option.map_some, Importing.loadFound, hnone, Bool.false_eq_true, if_false]
  change Loading.bind _ _ s = _
  unfold Loading.bind
  cases (lib.importing (lib.request n)).run spec.name spec s with
  | none => rfl
  | some x =>
    obtain ⟨res, s₁⟩ := x
    cases res <;> rfl

/-- The body of a module began to run, and this stays on record whatever became of it. -/
theorem run_began {enter : ImportRequest → Loading ModuleRef} (he : ∀ r, Stretching lib Any (enter r) fun _ => Any)
    {spec : ModuleSpec} {res : Except ImportFailure ModuleRef} {s' : Shelf}
    (h : (lib.importing enter).run spec.name spec s = some (res, s')) :
    s.record ++ [⟨.began, spec.name, .own s.made.length⟩] <+: s'.record := by
  rw [run_eq] at h
  cases hp : perform enter (lib.body spec (.own s.made.length)) (s.opened lib spec) with
  | none =>
    rw [hp] at h
    cases h
  | some x =>
    obtain ⟨res₁, s₁⟩ := x
    obtain ⟨new, hx⟩ := (perform_stretching he _ _ res₁ s₁ trivial hp).1.extends
    have hrecord : s₁.record = s.record ++ [⟨.began, spec.name, .own s.made.length⟩] ++ new := hx.record_eq
    rw [hp] at h
    have hlast : ∃ e, s'.record = s₁.record ++ [e] := by
      cases res₁ with
      | ok u =>
        cases h
        exact ⟨_, rfl⟩
      | error e =>
        cases h
        exact ⟨_, rfl⟩
    obtain ⟨e, hlast⟩ := hlast
    exact ⟨new ++ [e], by rw [hlast, hrecord, List.append_assoc _ new]⟩

/-- What an importer that works on files does about a name that is not cached. -/
structure Ownership (lib : Library) (t : FileTree) (listing : String → Option (List String)) (name : String)
    (s : Shelf) : Prop where
  /-- It owns the name just if an entry offers it. -/
  owned : ∀ enter, ∃ b, (lib.importing enter).owns name s = some (.ok b, s) ∧
    (b = true ↔ ∃ entry ∈ lib.entries, (t.findAt listing entry name).isSome)
  /-- It runs the first code that an entry has for the name. -/
  loaded : ∀ spec, lib.entries.findSome? (t.codeAt listing name) = some spec → ∀ n,
    lib.load (n + 1) name s = (lib.importing (lib.request n)).run name spec s
  /-- However that ends, the body has begun. -/
  began : ∀ spec, lib.entries.findSome? (t.codeAt listing name) = some spec → ∀ n res s',
    lib.load (n + 1) name s = some (res, s') → s.record ++ [⟨.began, name, .own s.made.length⟩] <+: s'.record
  /-- It refuses to load a name for which no entry has code. -/
  missed : lib.entries.findSome? (t.codeAt listing name) = none → ∀ n,
    lib.load (n + 1) name s = some (.error (.refused (.missing name)), s)
  /-- The host is asked for a name that no entry offers. -/
  passed : (∀ entry ∈ lib.entries, t.findAt listing entry name = none) → ∀ r,
    absoluteName r.name r.package r.level.toNat = .ok name → ∀ n, lib.request n r s = some (lib.host r, s)
  /-- A directory without code is enough to keep the host from being asked. -/
  shadowed : (∃ entry ∈ lib.entries, (t.findAt listing entry name).isSome) →
    lib.entries.findSome? (t.codeAt listing name) = none → ∀ r,
      absoluteName r.name r.package r.level.toNat = .ok name → ∀ n,
        lib.request (n + 1) r s = some (.error (.refused (.missing name)), s)

/-- An import of a name that is not owned is an import from the host. -/
theorem request_host {r : ImportRequest} (ha : absoluteName r.name r.package r.level.toNat = .ok name) {n : Nat}
    (ho : (lib.importing fun _ => .exhausted).owns name s = some (.ok false, s)) :
    lib.request n r s = some (lib.host r, s) := by
  simp only [request, Importing.importModule, ha]
  change Loading.bind _ _ s = _
  simp only [Loading.bind, ho, Bool.false_eq_true, if_false]
  rfl

/-- An import of a name that is owned fails where loading the name fails. -/
theorem request_error {r : ImportRequest} (ha : absoluteName r.name r.package r.level.toNat = .ok name) {n : Nat}
    (ho : (lib.importing fun _ => .exhausted).owns name s = some (.ok true, s)) {e : ImportFailure} {s' : Shelf}
    (hl : lib.load n name s = some (.error e, s')) : lib.request n r s = some (.error e, s') := by
  simp only [request, Importing.importModule, ha]
  change Loading.bind _ _ s = _
  simp only [Loading.bind, ho, if_true]
  change (lib.importing fun _ => .exhausted).importOwned (lib.load n) r name s = _
  rw [Importing.importOwned]
  change Loading.bind _ _ s = _
  simp only [Loading.bind, hl]

/-- For every tree of files, whatever is known of its directories, and for every classpath. -/
theorem files_ownership (lib : Library) (t : FileTree) (listing : String → Option (List String))
    (hdot : '.' ∉ name.toList) (hn : s.find? name = none) : (lib.onFiles t listing).Ownership t listing name s := by
  have hp : Dotted.parent name = "" := Dotted.parent_of_no_dot hdot
  have hroot : Dotted.root name = name := Dotted.root_of_no_dot hdot
  have howns : ∀ enter, ((lib.onFiles t listing).importing enter).owns name s =
      some (.ok (t.findModule listing name lib.entries).isSome, s) := by
    intro enter
    rw [owns_eq (by rw [hroot]; exact hn), hroot]
    change some (Except.ok (!lib.entries.isEmpty && (t.findModule listing name lib.entries).isSome), s) = _
    cases lib.entries <;> rfl
  have hoffered := @FileTree.findModule_isSome t listing name lib.entries
  have hmissed : lib.entries.findSome? (t.codeAt listing name) = none → ∀ n,
      (lib.onFiles t listing).load (n + 1) name s = some (.error (.refused (.missing name)), s) :=
    fun hc => load_refused hn hp fun spec hf => FileTree.findModule_of_bare hc hf
  constructor
  case owned => exact fun enter => ⟨_, howns enter, hoffered⟩
  case loaded =>
    intro spec hc
    obtain ⟨hname, hs⟩ := FileTree.codeAt_source hc
    exact load_run hn hp (FileTree.findModule_of_code hc) hname hs
  case began =>
    intro spec hc n res s' h
    obtain ⟨rfl, hs⟩ := FileTree.codeAt_source hc
    rw [load_run hn hp (FileTree.findModule_of_code hc) rfl hs] at h
    exact run_began (request_stretching n) h
  case missed => exact hmissed
  case passed =>
    intro hnone r ha n
    refine request_host ha ((howns _).trans ?_)
    have hf : (t.findModule listing name lib.entries).isSome = false := by
      rw [← Bool.not_eq_true, hoffered]
      rintro ⟨entry, he, hs⟩
      rw [hnone entry he] at hs
      cases hs
    rw [hf]
  case shadowed =>
    intro hsome hc r ha n
    refine request_error ha ((howns _).trans ?_) (hmissed hc n)
    rw [hoffered.mpr hsome]

/-- A directory without code, and elsewhere a module of the same name. -/
def shadowing : FileTree := ⟨"/", [(["cp", "json", "note.txt"], .file []), (["lib", "json.py"], .file [])]⟩

/-- A classpath in these files whose modules do nothing, and a host that has every module. -/
def idle (entries : List String) : Library where
  entries
  find := shadowing.findModule shadowing.listing
  body _ _ := .done
  born _ := []
  host r := .ok (.host r.name)

/-- The directory does not hide the code that a later entry has. -/
theorem later_code_ownership :
    '.' ∉ "json".toList ∧ Shelf.empty.find? "json" = none ∧
      (shadowing.findAt shadowing.listing "/cp" "json").isSome ∧
      ["/cp", "/lib"].findSome? (shadowing.codeAt shadowing.listing "json") =
        some ⟨"json", some "/lib/json.py", none⟩ ∧
      (idle ["/cp", "/lib"]).Ownership shadowing shadowing.listing "json" .empty :=
  ⟨by decide, rfl, by decide +kernel, by decide +kernel,
    files_ownership (idle ["/cp", "/lib"]) shadowing shadowing.listing (by decide) rfl⟩

/-- By itself it makes the name owned, which cannot be loaded, and hides the module of the host. -/
theorem shadowed_refused :
    ((idle ["/cp"]).importing fun _ => .exhausted).owns "json" .empty = some (.ok true, .empty) ∧
      (idle ["/cp"]).load 1 "json" .empty = some (.error (.refused (.missing "json")), .empty) ∧
      (idle ["/cp"]).host ⟨"json", "", [], 0⟩ = .ok (.host "json") ∧
      (idle ["/cp"]).Ends ⟨"json", "", [], 0⟩ .empty (.error (.refused (.missing "json"))) .empty :=
  ⟨by decide +kernel, by decide +kernel, rfl, 1, by decide +kernel⟩

end Library

end Evalbox
