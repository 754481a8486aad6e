import Evalbox.Proofs.Modules.Cache
import Evalbox.Proofs.Modules.Termination
import Mathlib.Data.List.Basic
import Mathlib.Data.List.Perm.Subperm

/-!
# How deep imports nest

At every moment of loading some bodies are underway, one inside the other. A module is cached while its body runs, so
that an import of it, from however deep inside, does not run it again: no name is underway twice, and no more names are
than the classpath offers (`imports_nest`). A stretch of loading leaves no body underway.
-/

namespace Evalbox

/-- The bodies that began and have not ended. -/
def underway (es : List BodyEvent) : List BodyEvent :=
  es.filter fun e => e.stage = .began ∧ ∀ e' ∈ es, e'.module = e.module → e'.stage = .began

theorem mem_underway {e : BodyEvent} {es : List BodyEvent} : e ∈ underway es ↔
    e ∈ es ∧ e.stage = .began ∧ ∀ e' ∈ es, e'.module = e.module → e'.stage = .began := by
  simp [underway]

/-- Events in different modules do not end each other. -/
theorem underway_append {a b : List BodyEvent} (h : ∀ e ∈ a, ∀ e' ∈ b, e.module ≠ e'.module) :
    underway (a ++ b) = underway a ++ underway b := by
  rw [underway, List.filter_append]
  congr 1
  · refine List.filter_congr fun e he => decide_eq_decide.mpr (and_congr_right' ?_)
    refine ⟨fun hall e' he' => hall e' (List.mem_append_left b he'), fun hall e' he' hm => ?_⟩
    rcases List.mem_append.mp he' with he' | he'
    · exact hall e' he' hm
    · exact absurd hm.symm (h e he e' he')
  · refine List.filter_congr fun e he => decide_eq_decide.mpr (and_congr_right' ?_)
    refine ⟨fun hall e' he' => hall e' (List.mem_append_right a he'), fun hall e' he' hm => ?_⟩
    rcases List.mem_append.mp he' with he' | he'
    · exact absurd hm (h e' he' e he)
    · exact hall e' he' hm

section Body

variable (name : String) {m : ModuleRef} {new : List BodyEvent}

/-- A body that has begun is underway around what it imports. -/
theorem underway_begun (hother : ∀ e ∈ new, e.module ≠ m) :
    underway (⟨.began, name, m⟩ :: new) = ⟨.began, name, m⟩ :: underway new := by
  have hone : underway [⟨.began, name, m⟩] = [⟨.began, name, m⟩] := by simp [underway]
  have happend := underway_append (a := [⟨.began, name, m⟩]) (b := new) fun e he e' he' => by
    obtain rfl := List.mem_singleton.mp he
    exact (hother e' he').symm
  rw [← List.singleton_append, happend, hone]
  rfl

/-- Behind its end nothing is. -/
theorem underway_enclosed (hnew : underway new = []) {stage : BodyStage} (hstage : stage ≠ .began) :
    underway (⟨.began, name, m⟩ :: (new ++ [⟨stage, name, m⟩])) = [] := by
  refine List.eq_nil_iff_forall_not_mem.mpr fun e he => ?_
  obtain ⟨hmem, hbegan, hall⟩ := mem_underway.mp he
  rcases List.mem_cons.mp hmem with rfl | hmem
  · exact hstage (hall ⟨stage, name, m⟩ (by simp) rfl)
  · rcases List.mem_append.mp hmem with hmem | hmem
    · have hinner : e ∈ underway new := mem_underway.mpr ⟨hmem, hbegan, fun e' he' => hall e' (by simp [he'])⟩
      rw [hnew] at hinner
      cases hinner
    · obtain rfl := List.mem_singleton.mp hmem
      exact hstage hbegan

end Body

/-- The events of a stretch from a shelf nest: at every moment each name is underway once at most, and only if it was
not cached; in the end none is. -/
structure Shelf.Nested (s : Shelf) (new : List BodyEvent) : Prop where
  once : ∀ es, es <+: new → ((underway es).map (·.name)).Nodup
  fresh : ∀ es, es <+: new → ∀ e ∈ underway es, s.find? e.name = none
  ended : underway new = []

namespace Shelf.Nested

variable {s s' s'' : Shelf} {a b new : List BodyEvent}

theorem nil (s : Shelf) : s.Nested [] where
  once es hes := by
    obtain rfl := List.prefix_nil.mp hes
    exact List.nodup_nil
  fresh es hes := by
    obtain rfl := List.prefix_nil.mp hes
    exact fun e he => nomatch he
  ended := rfl

/-- Nothing is underway between two stretches. -/
theorem trans (ha : s.Extends a s') (hna : s.Nested a) (hb : s'.Extends b s'') (hnb : s'.Nested b) :
    s.Nested (a ++ b) := by
  have hcut : ∀ es, es <+: a ++ b → es <+: a ∨ ∃ c, c <+: b ∧ underway es = underway c := by
    intro es hes
    rcases List.prefix_or_prefix_of_prefix hes (List.prefix_append a b) with hes | ⟨c, rfl⟩
    · exact .inl hes
    · have hc : c <+: b := (List.prefix_append_right_inj a).mp hes
      refine .inr ⟨c, hc, ?_⟩
      rw [underway_append fun e he e' he' => ha.disjoint hb he (hc.subset he'), hna.ended, List.nil_append]
  refine ⟨fun es hes => ?_, fun es hes e he => ?_, ?_⟩
  · rcases hcut es hes with hes | ⟨c, hc, heq⟩
    · exact hna.once es hes
    · exact heq ▸ hnb.once c hc
  · rcases hcut es hes with hes | ⟨c, hc, heq⟩
    · exact hna.fresh es hes e he
    · refine Option.eq_none_iff_forall_ne_some.mpr fun m hm => ?_
      have hkept := (ha.kept e.name m hm).1
      rw [hnb.fresh c hc e (heq ▸ he)] at hkept
      cases hkept
  · rw [underway_append fun e he e' he' => ha.disjoint hb he he', hna.ended, hnb.ended, List.append_nil]

/-- A body is underway around all that it imports, and then it ends. -/
theorem body {lib : Library} {spec : ModuleSpec} (hs : s.find? spec.name = none)
    (h : (s.opened lib spec).Extends new s') (hn : (s.opened lib spec).Nested new) {stage : BodyStage}
    (hstage : stage ≠ .began) :
    s.Nested (⟨.began, spec.name, .own s.made.length⟩ :: (new ++ [⟨stage, spec.name, .own s.made.length⟩])) := by
  have hother : ∀ e ∈ new, e.module ≠ .own s.made.length := h.opened_kept.2.2
  have hended := underway_enclosed spec.name (m := .own s.made.length) hn.ended hstage
  have hcut : ∀ es, es <+: ⟨.began, spec.name, .own s.made.length⟩ :: (new ++ [⟨stage, spec.name, .own s.made.length⟩]) →
      underway es = [] ∨ ∃ c, c <+: new ∧ underway es = ⟨.began, spec.name, .own s.made.length⟩ :: underway c := by
    intro es hes
    cases es with
    | nil => exact .inl rfl
    | cons e c =>
      obtain ⟨rfl, hc⟩ := List.cons_prefix_cons.mp hes
      rcases List.prefix_concat_iff.mp hc with rfl | hc
      · exact .inl hended
      · exact .inr ⟨c, hc, underway_begun spec.name fun e he => hother e (hc.subset he)⟩
  have hfresh : ∀ c, c <+: new → ∀ e ∈ underway c, e.name ≠ spec.name ∧ s.find? e.name = none := by
    intro c hc e he
    have hnone := hn.fresh c hc e he
    rw [find?_opened] at hnone
    split at hnone
    · cases hnone
    · rename_i hne
      exact ⟨hne, hnone⟩
  refine ⟨fun es hes => ?_, fun es hes e he => ?_, hended⟩
  · rcases hcut es hes with heq | ⟨c, hc, heq⟩
    · rw [heq]
      exact List.nodup_nil
    · rw [heq, List.map_cons, List.nodup_cons]
      refine ⟨fun hmem => ?_, hn.once c hc⟩
      obtain ⟨e, he, hname⟩ := List.mem_map.mp hmem
      exact (hfresh c hc e he).1 hname
  · rcases hcut es hes with heq | ⟨c, hc, heq⟩
    · rw [heq] at he
      cases he
    · rw [heq] at he
      rcases List.mem_cons.mp he with rfl | he
      · exact hs
      · exact (hfresh c hc e he).2

end Shelf.Nested

namespace Library

variable {lib : Library}

theorem Stretch.nested {s s' : Shelf} (h : lib.Stretch s s') : ∃ new, s.Extends new s' ∧ s.Nested new := by
  induction h with
  | refl s => exact ⟨[], .refl s, .nil s⟩
  | trans _ _ ih ih' =>
    obtain ⟨a, ha, hna⟩ := ih
    obtain ⟨b, hb, hnb⟩ := ih'
    exact ⟨a ++ b, ha.trans hb, .trans ha hna hb hnb⟩
  | bind s m name => exact ⟨[], .bind s m name, .nil s⟩
  | completed hs _ _ ih =>
    obtain ⟨new, h, hn⟩ := ih
    exact ⟨_, h.completed hs, .body hs h hn nofun⟩
  | broken hs _ _ ih =>
    obtain ⟨new, h, hn⟩ := ih
    exact ⟨_, h.broken hs, .body hs h hn nofun⟩

/-- Every import of an importer that started empty ends, with a module or a failure, and at every moment until then no
name was underway twice, nor more names than the classpath offers. -/
theorem imports_nest {names : List String} (hn : lib.Within names) {s : Shelf} (h : lib.Later .empty s)
    (r : ImportRequest) : ∃ res s', lib.Ends r s res s' ∧ s.record <+: s'.record ∧ underway s'.record = [] ∧
      ∀ es, es <+: s'.record → ((underway es).map (·.name)).Nodup ∧ (∀ e ∈ underway es, e.name ∈ names) ∧
        (underway es).length ≤ names.length := by
  obtain ⟨res, s', hr, hs'⟩ := request_ends hn (h.stocked hn) r
  obtain ⟨more, hmore⟩ := (Later.call (.refl s) hr).extends
  obtain ⟨new, hnew, hnested⟩ := (h.call hr).stretch.nested
  obtain rfl : s'.record = new := by simpa [Shelf.empty] using hnew.record_eq
  refine ⟨res, s', hr, ⟨more, hmore.record_eq.symm⟩, hnested.ended, fun es hes => ?_⟩
  have honce := hnested.once es hes
  have hnames : ∀ e ∈ underway es, e.name ∈ names := fun e he =>
    hn e.name (hs'.ran e (hes.subset (mem_underway.mp he).1))
  refine ⟨honce, hnames, ?_⟩
  have hsub : (underway es).map (·.name) ⊆ names := List.forall_mem_map.mpr hnames
  simpa using (List.subperm_of_subset honce hsub).length_le

/-- The module that failed before is imported again, and the package and the module inside it, which import each other,
were underway together. -/
theorem circular_imports_nest : circular.Within ["pkg", "pkg.part", "bad"] ∧ circular.Later .empty circularShelf ∧
    ∃ res s', circular.Ends ⟨"bad", "", [], 0⟩ circularShelf res s' ∧
      (underway (s'.record.take 2)).map (·.name) = ["pkg", "pkg.part"] ∧
        ∀ es, es <+: s'.record → (underway es).length ≤ 3 := by
  have hn : circular.Within ["pkg", "pkg.part", "bad"] := by
    rintro name ⟨path, spec, -, hf, -⟩
    simp only [circular] at hf
    split at hf
    · rename_i h
      simp [h.2]
    · split at hf
      · rename_i h
        simp [h.2]
      · split at hf
        · rename_i h
          simp [h.2]
        · cases hf
  obtain ⟨_, hr⟩ := circular_ends
  have h : circular.Later .empty circularShelf := .call (.refl _) hr
  obtain ⟨res, s', hends, ⟨more, hmore⟩, -, hall⟩ := imports_nest hn h ⟨"bad", "", [], 0⟩
  refine ⟨hn, h, res, s', hends, ?_, fun es hes => (hall es hes).2.2⟩
  rw [← hmore]
  rfl

end Library

end Evalbox
