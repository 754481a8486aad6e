import Evalbox.Proofs.Modules.Stretch

/-!
# The cache of loaded modules

Whatever the bodies of modules import, raise and catch, a call of the importer extends what was loaded before
it: what was cached stays cached and is not run again, what is cached anew was run once and to its end, and a
name whose last run failed is not cached. `Extends` says this of any stretch of loading, also of one inside a
body that is still running; what is in progress then counts as cached.
-/

namespace Evalbox

/-- What happened to the bodies that were run under a name. -/
def runsOf (name : String) (es : List BodyEvent) : List BodyEvent := es.filter (·.name = name)

/-- What happened to the body of a module. -/
def runsIn (m : ModuleRef) (es : List BodyEvent) : List BodyEvent := es.filter (·.module = m)

theorem runsOf_append (name : String) (a b : List BodyEvent) :
    runsOf name (a ++ b) = runsOf name a ++ runsOf name b := List.filter_append ..

theorem runsIn_append (m : ModuleRef) (a b : List BodyEvent) :
    runsIn m (a ++ b) = runsIn m a ++ runsIn m b := List.filter_append ..

theorem mem_of_runsIn_eq {m : ModuleRef} {es : List BodyEvent} {e e' : BodyEvent}
    (h : runsIn m es = [e, e']) : e ∈ es :=
  (List.mem_filter.mp (h ▸ List.mem_cons_self : e ∈ runsIn m es)).1

theorem runsOf_eq_nil {name : String} {es : List BodyEvent} (h : ∀ e ∈ es, e.name ≠ name) :
    runsOf name es = [] := by
  simpa [runsOf] using h

theorem runsIn_eq_nil {m : ModuleRef} {es : List BodyEvent} (h : ∀ e ∈ es, e.module ≠ m) :
    runsIn m es = [] := by
  simpa [runsIn] using h

/-- A module that was made after one shelf and before another. -/
def ModuleRef.Between (s s' : Shelf) (m : ModuleRef) : Prop :=
  ∃ i, m = .own i ∧ s.made.length ≤ i ∧ i < s'.made.length

/-- A shelf extends another by some events. -/
structure Shelf.Extends (s : Shelf) (new : List BodyEvent) (s' : Shelf) : Prop where
  record_eq : s'.record = s.record ++ new
  made_le : s.made.length ≤ s'.made.length
  /-- Bodies ran only in modules that were made for it. -/
  ran : ∀ e ∈ new, e.module.Between s s'
  /-- What was cached is cached, and was not run. -/
  kept : ∀ name m, s.find? name = some m → s'.find? name = some m ∧ ∀ e ∈ new, e.name ≠ name
  /-- What is cached anew ran once and to its end, and nothing ran under its name since. -/
  loaded : ∀ name m, s.find? name = none → s'.find? name = some m →
    runsIn m new = [⟨.began, name, m⟩, ⟨.completed, name, m⟩] ∧
      (runsOf name new).getLast? = some ⟨.completed, name, m⟩
  /-- What is not cached ran last, if it ran at all, without coming to its end. -/
  failed : ∀ name e, s'.find? name = none → (runsOf name new).getLast? = some e → e.stage = .broke

namespace Shelf.Extends

variable {s s' s'' : Shelf} {a b : List BodyEvent}

/-- Nothing is loaded by work that leaves the cache and the record alone. -/
theorem of_same (hr : s'.record = s.record) (hm : s'.made.length = s.made.length)
    (hc : s'.cached = s.cached) : s.Extends [] s' where
  record_eq := by simpa using hr
  made_le := by omega
  ran := by simp
  kept name m h := by simpa [find?, hc] using h
  loaded name m h h' := by
    simp only [find?, hc] at h h'
    exact absurd (h.symm.trans h') (by simp)
  failed := by simp [runsOf]

theorem refl (s : Shelf) : s.Extends [] s := of_same rfl rfl rfl

/-- Nothing is loaded by binding a name in a module. -/
theorem bind (s : Shelf) (m : ModuleRef) (name : String) : s.Extends [] (s.bind m name) := by
  cases m with
  | own i => exact of_same rfl (List.length_modify ..) rfl
  | host module => exact of_same rfl rfl rfl

/-- A module that ran in the first part does not run in the second. -/
theorem disjoint (h : s.Extends a s') (h' : s'.Extends b s'') {e e' : BodyEvent} (he : e ∈ a) (he' : e' ∈ b) :
    e.module ≠ e'.module := by
  intro hem
  obtain ⟨i, hi, -, hu⟩ := h.ran e he
  obtain ⟨j, hj, hl, -⟩ := h'.ran e' he'
  have hij : i = j := ModuleRef.own.inj (hi.symm.trans (hem.trans hj))
  omega

theorem trans (h : s.Extends a s') (h' : s'.Extends b s'') : s.Extends (a ++ b) s'' where
  record_eq := by rw [h'.record_eq, h.record_eq, List.append_assoc]
  made_le := Nat.le_trans h.made_le h'.made_le
  ran e he := by
    rcases List.mem_append.mp he with he | he
    · obtain ⟨i, hi, hl, hu⟩ := h.ran e he
      exact ⟨i, hi, hl, Nat.lt_of_lt_of_le hu h'.made_le⟩
    · obtain ⟨i, hi, hl, hu⟩ := h'.ran e he
      exact ⟨i, hi, Nat.le_trans h.made_le hl, hu⟩
  kept name m hs := by
    obtain ⟨hs', ha⟩ := h.kept name m hs
    obtain ⟨hs'', hb⟩ := h'.kept name m hs'
    refine ⟨hs'', fun e he => ?_⟩
    rcases List.mem_append.mp he with he | he
    · exact ha e he
    · exact hb e he
  loaded name m hs hs'' := by
    rw [runsIn_append, runsOf_append]
    cases hs' : s'.find? name with
    | some m' =>
      -- loaded in the first part: the second one neither rebinds the name nor runs its module
      obtain ⟨hk, hb⟩ := h'.kept name m' hs'
      obtain rfl : m' = m := Option.some.inj (hk.symm.trans hs'')
      obtain ⟨hin, hlast⟩ := h.loaded name m' hs hs'
      have hbm : ∀ e ∈ b, e.module ≠ m' := fun e he => (h.disjoint h' (mem_of_runsIn_eq hin) he).symm
      rw [runsIn_eq_nil hbm, runsOf_eq_nil hb, hin, List.append_nil, List.append_nil]
      exact ⟨rfl, hlast⟩
    | none =>
      obtain ⟨hin, hlast⟩ := h'.loaded name m hs' hs''
      have ham : ∀ e ∈ a, e.module ≠ m := fun e he => h.disjoint h' he (mem_of_runsIn_eq hin)
      rw [runsIn_eq_nil ham, List.nil_append, hin, List.getLast?_append, hlast]
      exact ⟨rfl, rfl⟩
  failed name e hs'' he := by
    have hs' : s'.find? name = none := by
      cases hf : s'.find? name with
      | none => rfl
      | some m => exact absurd ((h'.kept name m hf).1.symm.trans hs'') (by simp)
    rw [runsOf_append, List.getLast?_append] at he
    cases hb : (runsOf name b).getLast? with
    | none => exact h.failed name e hs' (by simpa [hb] using he)
    | some e' =>
      obtain rfl : e' = e := by simpa [hb] using he
      exact h'.failed name e' hs'' hb

end Shelf.Extends

namespace Shelf

variable {lib : Library} {spec : ModuleSpec} {s s' : Shelf} {new : List BodyEvent}

namespace Extends

/-- While the body of a new module runs, its name stays cached, and neither the name nor the module is run
again. -/
theorem opened_kept (h : (s.opened lib spec).Extends new s') :
    s'.find? spec.name = some (.own s.made.length) ∧ (∀ e ∈ new, e.name ≠ spec.name) ∧
      ∀ e ∈ new, e.module ≠ .own s.made.length := by
  obtain ⟨hf, hn⟩ := h.kept spec.name (.own s.made.length) (by simp [find?_opened])
  refine ⟨hf, hn, fun e he hm => ?_⟩
  obtain ⟨i, hi, hl, -⟩ := h.ran e he
  have hei : s.made.length = i := ModuleRef.own.inj (hm.symm.trans hi)
  rw [made_opened] at hl
  omega

/-- The events of a body lie in modules that were made since its own module was. -/
theorem opened_ran (h : (s.opened lib spec).Extends new s') (stage : BodyStage) :
    ∀ e ∈ (⟨.began, spec.name, .own s.made.length⟩ : BodyEvent) ::
      (new ++ [⟨stage, spec.name, .own s.made.length⟩]), e.module.Between s s' := by
  have hm := h.made_le
  rw [made_opened] at hm
  have h0 : (ModuleRef.own s.made.length).Between s s' := ⟨_, rfl, Nat.le_refl _, by omega⟩
  intro e he
  rcases List.mem_cons.mp he with rfl | he
  · exact h0
  rcases List.mem_append.mp he with he | he
  · obtain ⟨i, hi, hl, hu⟩ := h.ran e he
    rw [made_opened] at hl
    exact ⟨i, hi, by omega, hu⟩
  · obtain rfl := List.mem_singleton.mp he
    exact h0

/-- Under another name, a body leaves what its imports leave. -/
theorem opened_kept_other (h : (s.opened lib spec).Extends new s') (hs : s.find? spec.name = none)
    (stage : BodyStage) {name : String} {m : ModuleRef} (hm : s.find? name = some m) :
    name ≠ spec.name ∧ s'.find? name = some m ∧
      ∀ e ∈ (⟨.began, spec.name, .own s.made.length⟩ : BodyEvent) ::
        (new ++ [⟨stage, spec.name, .own s.made.length⟩]), e.name ≠ name := by
  obtain ⟨hne, ho⟩ : name ≠ spec.name ∧ (s.opened lib spec).find? name = some m := find?_opened_of_some hs hm
  obtain ⟨hf, hn⟩ := h.kept name m ho
  refine ⟨hne, hf, fun e he => ?_⟩
  rcases List.mem_cons.mp he with rfl | he
  · exact hne.symm
  rcases List.mem_append.mp he with he | he
  · exact hn e he
  · obtain rfl := List.mem_singleton.mp he
    exact hne.symm

theorem runsOf_other (stage : BodyStage) {name : String} (hne : name ≠ spec.name) :
    runsOf name ((⟨.began, spec.name, .own s.made.length⟩ : BodyEvent) ::
      (new ++ [⟨stage, spec.name, .own s.made.length⟩])) = runsOf name new := by
  simp [runsOf, hne.symm]

theorem runsOf_self (stage : BodyStage) :
    (runsOf spec.name ((⟨.began, spec.name, .own s.made.length⟩ : BodyEvent) ::
      (new ++ [⟨stage, spec.name, .own s.made.length⟩]))).getLast? =
        some ⟨stage, spec.name, .own s.made.length⟩ := by
  rw [← List.cons_append, runsOf_append, List.getLast?_append]
  simp [runsOf]

theorem opened_loaded_other (h : (s.opened lib spec).Extends new s') (stage : BodyStage) {name : String}
    {m : ModuleRef} (hne : name ≠ spec.name) (hs : s.find? name = none) (hm : s'.find? name = some m) :
    runsIn m ((⟨.began, spec.name, .own s.made.length⟩ : BodyEvent) ::
        (new ++ [⟨stage, spec.name, .own s.made.length⟩])) = [⟨.began, name, m⟩, ⟨.completed, name, m⟩] ∧
      (runsOf name ((⟨.began, spec.name, .own s.made.length⟩ : BodyEvent) ::
        (new ++ [⟨stage, spec.name, .own s.made.length⟩]))).getLast? = some ⟨.completed, name, m⟩ := by
  obtain ⟨hin, hlast⟩ := h.loaded name m (by rw [find?_opened, if_neg hne, hs]) hm
  have hmo : ModuleRef.own s.made.length ≠ m := (h.opened_kept.2.2 _ (mem_of_runsIn_eq hin)).symm
  rw [runsOf_other stage hne]
  refine ⟨?_, hlast⟩
  simpa [runsIn, hmo] using hin

/-- A body that came to its end. -/
theorem completed (hs : s.find? spec.name = none) (h : (s.opened lib spec).Extends new s') :
    s.Extends (⟨.began, spec.name, .own s.made.length⟩ ::
        (new ++ [⟨.completed, spec.name, .own s.made.length⟩]))
      (s'.note ⟨.completed, spec.name, .own s.made.length⟩) where
  record_eq := by simp [note, h.record_eq, opened]
  made_le := by
    have hm := h.made_le
    rw [made_opened] at hm
    exact Nat.le_of_succ_le hm
  ran := h.opened_ran .completed
  kept name m hm := (h.opened_kept_other hs .completed hm).2
  loaded name m hn hm := by
    by_cases hne : name = spec.name
    · subst hne
      obtain ⟨hf, -, hnm⟩ := h.opened_kept
      obtain rfl : ModuleRef.own s.made.length = m := Option.some.inj (hf.symm.trans hm)
      refine ⟨?_, runsOf_self .completed⟩
      have h0 := runsIn_eq_nil hnm
      simpa [runsIn] using h0
    · exact h.opened_loaded_other .completed hne hn hm
  failed name e hn he := by
    have hne : name ≠ spec.name := fun hc =>
      absurd ((hc ▸ h.opened_kept.1 : s'.find? name = _).symm.trans hn) (by simp)
    rw [runsOf_other .completed hne] at he
    exact h.failed name e hn he

/-- A body that failed, and was forgotten. -/
theorem broken (hs : s.find? spec.name = none) (h : (s.opened lib spec).Extends new s') :
    s.Extends (⟨.began, spec.name, .own s.made.length⟩ ::
        (new ++ [⟨.broke, spec.name, .own s.made.length⟩]))
      (s'.broken spec.name (.own s.made.length)) where
  record_eq := by simp [Shelf.broken, note, h.record_eq, opened]
  made_le := by
    have hm := h.made_le
    rw [made_opened] at hm
    exact Nat.le_of_succ_le hm
  ran := h.opened_ran .broke
  kept name m hm := by
    obtain ⟨hne, hf, hn⟩ := h.opened_kept_other hs .broke hm
    exact ⟨by rw [find?_broken, if_neg hne, hf], hn⟩
  loaded name m hn hm := by
    rw [find?_broken] at hm
    split at hm
    · cases hm
    · rename_i hne
      exact h.opened_loaded_other .broke hne hn hm
  failed name e hn he := by
    by_cases hne : name = spec.name
    · subst hne
      rw [runsOf_self .broke] at he
      cases he
      rfl
    · rw [find?_broken, if_neg hne] at hn
      rw [runsOf_other .broke hne] at he
      exact h.failed name e hn he

end Extends

end Shelf

namespace Library

variable {lib : Library}

theorem Stretch.extends {s s' : Shelf} (h : lib.Stretch s s') : ∃ new, s.Extends new s' := by
  induction h with
  | refl s => exact ⟨[], .refl s⟩
  | trans _ _ ih ih' =>
    obtain ⟨a, ha⟩ := ih
    obtain ⟨b, hb⟩ := ih'
    exact ⟨a ++ b, ha.trans hb⟩
  | bind s m name => exact ⟨[], .bind s m name⟩
  | completed hs _ _ ih =>
    obtain ⟨new, hn⟩ := ih
    exact ⟨_, hn.completed hs⟩
  | broken hs _ _ ih =>
    obtain ⟨new, hn⟩ := ih
    exact ⟨_, hn.broken hs⟩

theorem Later.extends {s s' : Shelf} (h : lib.Later s s') : ∃ new, s.Extends new s' := h.stretch.extends

/-- What the cache holds when no load is in progress. -/
structure CacheCorrect (lib : Library) (s : Shelf) : Prop where
  /-- The body of what is cached ran once, and to its end. -/
  ran_once : ∀ name m, s.find? name = some m →
    runsIn m s.record = [⟨.began, name, m⟩, ⟨.completed, name, m⟩]
  /-- What is cached stays cached, and nothing is run under its name again. -/
  stays : ∀ name m s', s.find? name = some m → lib.Later s s' →
    s'.find? name = some m ∧ ∃ new, s'.record = s.record ++ new ∧ ∀ e ∈ new, e.name ≠ name ∧ e.module ≠ m
  /-- A name whose last run failed is not cached. -/
  failed : ∀ name e, (runsOf name s.record).getLast? = some e → e.stage = .broke → s.find? name = none

/-- Between calls of an importer that started empty, its cache is correct. -/
theorem cache_correct {s : Shelf} (h : lib.Later .empty s) : lib.CacheCorrect s := by
  obtain ⟨old, hs⟩ := h.extends
  have hold : s.record = old := by simpa [Shelf.empty] using hs.record_eq
  have hloaded : ∀ name m, s.find? name = some m → _ := fun name m hm => hs.loaded name m rfl hm
  constructor
  case ran_once =>
    intro name m hm
    rw [hold]
    exact (hloaded name m hm).1
  case stays =>
    intro name m s' hm hl
    obtain ⟨new, hn⟩ := hl.extends
    obtain ⟨hm', hne⟩ := hn.kept name m hm
    refine ⟨hm', new, hn.record_eq, fun e he => ⟨hne e he, fun hem => ?_⟩⟩
    obtain ⟨i, hi, -, hu⟩ := hs.ran _ (mem_of_runsIn_eq (hloaded name m hm).1)
    obtain ⟨j, hj, hlow, -⟩ := hn.ran e he
    have hij : i = j := ModuleRef.own.inj (hi.symm.trans (hem.symm.trans hj))
    omega
  case failed =>
    intro name e he hb
    rw [hold] at he
    cases hm : s.find? name with
    | none => rfl
    | some m =>
      have hlast := (hloaded name m hm).2
      rw [he] at hlast
      cases hlast
      cases hb

/-- A package whose body imports a module inside it, whose body imports the package again, and another
module, which fails; neither body answers to that. -/
def circular : Library where
  entries := ["/cp"]
  find name path :=
    if path = ["/cp"] ∧ name = "pkg" then some ⟨"pkg", some "/cp/pkg/__init__.py", some ["/cp/pkg"]⟩
    else if path = ["/cp"] ∧ name = "bad" then some ⟨"bad", some "/cp/bad.py", none⟩
    else if path = ["/cp/pkg"] ∧ name = "pkg.part" then some ⟨"pkg.part", some "/cp/pkg/part.py", none⟩
    else none
  body spec _ :=
    if spec.name = "pkg" then .imports ⟨"part", "pkg", ["x"], 1⟩ fun _ => .done
    else if spec.name = "pkg.part" then
      .imports ⟨"pkg", "", [], 0⟩ fun _ => .imports ⟨"bad", "", [], 0⟩ fun _ => .done
    else .fail (.fault (.value "bad"))
  born _ := ["__name__"]
  host r := .ok (.host r.name)

/-- What an import of the package leaves. -/
def circularShelf : Shelf where
  made := [⟨⟨"pkg", some "/cp/pkg/__init__.py", some ["/cp/pkg"]⟩, ["part", "__name__"]⟩,
    ⟨⟨"pkg.part", some "/cp/pkg/part.py", none⟩, ["__name__"]⟩,
    ⟨⟨"bad", some "/cp/bad.py", none⟩, ["__name__"]⟩]
  cached := [("pkg", .own 0), ("pkg.part", .own 1)]
  record := [⟨.began, "pkg", .own 0⟩, ⟨.began, "pkg.part", .own 1⟩, ⟨.began, "bad", .own 2⟩,
    ⟨.broke, "bad", .own 2⟩, ⟨.completed, "pkg.part", .own 1⟩, ⟨.completed, "pkg", .own 0⟩]

theorem circular_ends : ∃ res, circular.Ends ⟨"pkg", "", [], 0⟩ .empty res circularShelf := by
  have h : (circular.request 4 ⟨"pkg", "", [], 0⟩ .empty).map (·.2) = some circularShelf := by decide +kernel
  obtain ⟨⟨res, s⟩, hr, hs⟩ := Option.map_eq_some_iff.mp h
  obtain rfl : s = circularShelf := hs
  exact ⟨res, 4, hr⟩

theorem circular_cache_correct : circular.Later .empty circularShelf ∧ circular.CacheCorrect circularShelf := by
  obtain ⟨res, hr⟩ := circular_ends
  have h : circular.Later .empty circularShelf := .call (.refl _) hr
  exact ⟨h, cache_correct h⟩

end Library

end Evalbox
