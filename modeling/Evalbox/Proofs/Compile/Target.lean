import Evalbox.Compile.Target
import Evalbox.Proofs.Lookup
import Evalbox.Proofs.Text.Rows

/-!
# Stored units and their lines

Every operation on the lines of sources, through the one view `LineCache.find?`: what is put is found, what is
erased is not, and clearing a target erases the lines of its own units only. The filenames of units with different
names differ, and so do the names that units are given.
-/

namespace Evalbox

theorem unitFilename_injective : Function.Injective unitFilename := by
  intro m n h
  have hl := congrArg String.toList h
  simp only [unitFilename, String.toList_append] at hl
  exact String.toList_injective (List.append_cancel_left (List.append_cancel_right hl))

theorem unitName_injective : Function.Injective unitName := by
  intro m n h
  have hl := congrArg String.toList h
  simp only [unitName, String.toList_append, toString, Nat.toList_repr] at hl
  -- reading the digits gives the number back
  have hd := congrArg (Nat.ofDigitChars 10 · 0) (List.append_cancel_left hl)
  simpa using hd

/-- The unit that a snippet is wrapped to, if it can be wrapped. -/
theorem wrap_getD {prelude code : List Char} {name : String}
    (h : (wrap prelude code name).toOption.isSome = true) :
    wrap prelude code name = .ok ((wrap prelude code name).toOption.getD default) := by
  cases hw : wrap prelude code name with
  | ok u => rfl
  | error f =>
    rw [hw] at h
    cases h

/-- A unit has the name that is asked for, and the filename that belongs to the name. -/
theorem wrap_named {prelude code : List Char} {name : String} {u : SnippetUnit}
    (h : wrap prelude code name = .ok u) : u.name = name ∧ u.filename = unitFilename u.name := by
  unfold wrap at h
  split at h
  · cases h
  · cases h
    exact ⟨rfl, rfl⟩

/-- The lines that are cached for a unit make up its source. -/
theorem SnippetUnit.flatten_cached (u : SnippetUnit) : u.cached.lines.flatten = u.source :=
  Text.flatten_cutLines Text.isDisplayBreak [] u.source

namespace LineCache

variable (c : LineCache) (file name : String)

theorem find?_put (s : CachedSource) :
    (c.put file s).find? name = if name = file then some s else c.find? name := by
  by_cases h : name = file
  · subst name
    simp [put, find?]
  · rw [if_neg h, put, find?, List.lookup_cons, beq_false_of_ne h, lookup_filter_ne, if_neg h, find?]

theorem find?_erase : (c.erase file).find? name = if name = file then none else c.find? name :=
  lookup_filter_ne ..

/-- All that is known under a filename. -/
def entriesOf (c : LineCache) (file : String) : List (String × CachedSource) := c.entries.filter (·.1 = file)

theorem entriesOf_erase : (c.erase file).entriesOf name = if name = file then [] else c.entriesOf name := by
  simp only [erase, entriesOf, List.filter_filter]
  by_cases h : name = file
  · rw [if_pos h, List.filter_eq_nil_iff]
    intro e _
    simp [h]
  · rw [if_neg h]
    apply List.filter_congr
    intro e _
    by_cases he : e.1 = name <;> simp [he, h]

theorem entriesOf_put (s : CachedSource) :
    (c.put file s).entriesOf name = if name = file then [(file, s)] else c.entriesOf name := by
  have he := c.entriesOf_erase file name
  simp only [erase, entriesOf] at he
  rw [put, entriesOf, List.filter_cons, he]
  by_cases h : name = file
  · simp [h]
  · simp [h, Ne.symm h, entriesOf]

end LineCache

namespace CompileTarget

variable {κ : Type}

/-- What is stored after a unit was stored: the unit, and everything with another name. -/
theorem mem_store {t : CompileTarget κ} {u : SnippetUnit} {code : κ} {a : String × SnippetUnit × κ} :
    a ∈ (t.store u code).artifacts ↔ a = (u.name, u, code) ∨ a ∈ t.artifacts ∧ a.1 ≠ u.name := by
  unfold store
  split
  · rename_i hany
    obtain ⟨b, hb, hn⟩ := List.any_eq_true.mp hany
    simp only [decide_eq_true_eq] at hn
    rw [List.mem_map]
    constructor
    · rintro ⟨x, hx, rfl⟩
      by_cases hxn : x.1 = u.name
      · exact .inl (if_pos hxn)
      · rw [if_neg hxn]
        exact .inr ⟨hx, hxn⟩
    · rintro (rfl | ⟨ha, hne⟩)
      · exact ⟨b, hb, if_pos hn⟩
      · exact ⟨a, ha, if_neg hne⟩
  · rename_i hany
    have hne (x : String × SnippetUnit × κ) (hx : x ∈ t.artifacts) : x.1 ≠ u.name := fun hn =>
      hany (List.any_eq_true.mpr ⟨x, hx, decide_eq_true hn⟩)
    rw [List.mem_append, List.mem_singleton, or_comm]
    exact or_congr_right ⟨fun ha => ⟨ha, hne a ha⟩, fun ha => ha.1⟩

theorem lookup_eq_none {t : CompileTarget κ} {name : String} :
    t.artifacts.lookup name = none ↔ ¬ t.artifacts.any (·.1 = name) = true := by
  rw [List.lookup_eq_none_iff, Bool.not_eq_true, List.any_eq_false]
  refine forall₂_congr fun a _ => ?_
  rw [bne_iff_ne, decide_eq_true_eq]
  exact ne_comm

theorem lookup_store (t : CompileTarget κ) (u : SnippetUnit) (code : κ) (name : String) :
    (t.store u code).artifacts.lookup name =
      if name = u.name then some (u, code) else t.artifacts.lookup name := by
  unfold store
  split
  · rename_i hany
    obtain ⟨a, ha⟩ := Option.ne_none_iff_exists'.mp (mt lookup_eq_none.mp (not_not_intro hany))
    rw [lookup_map_if, ha]
    rfl
  · rename_i hany
    have hnone : t.artifacts.lookup u.name = none := lookup_eq_none.mpr hany
    rw [List.lookup_append]
    by_cases hn : name = u.name
    · simp [hn, hnone]
    · simp [hn, List.lookup_cons, beq_false_of_ne hn]

theorem names_store (t : CompileTarget κ) (u : SnippetUnit) (code : κ) :
    (t.store u code).names = if u.name ∈ t.names then t.names else t.names ++ [u.name] := by
  have hmem : t.artifacts.any (·.1 = u.name) = true ↔ u.name ∈ t.names := by simp [names]
  unfold store
  simp only [hmem]
  split
  · rw [names, names, List.map_map]
    apply List.map_congr_left
    intro a _
    by_cases hn : a.1 = u.name <;> simp [hn]
  · simp [names]

/-- Clearing a target erases the lines of its units, and no others. -/
theorem find?_clearWith (t : CompileTarget κ) (c : LineCache) (file : String) :
    (t.clearWith c).2.find? file =
      if file ∈ t.artifacts.map (·.2.1.filename) then none else c.find? file := by
  simp only [clearWith]
  induction t.artifacts generalizing c with
  | nil => simp
  | cons a rest ih =>
    rw [List.foldl_cons, ih, LineCache.find?_erase, List.map_cons]
    by_cases h : file = a.2.1.filename
    · simp only [h, if_true, ite_self, List.mem_cons_self]
    · simp only [h, if_false, List.mem_cons, false_or]

theorem entriesOf_clearWith (t : CompileTarget κ) (c : LineCache) (file : String) :
    (t.clearWith c).2.entriesOf file =
      if file ∈ t.artifacts.map (·.2.1.filename) then [] else c.entriesOf file := by
  simp only [clearWith]
  induction t.artifacts generalizing c with
  | nil => simp
  | cons a rest ih =>
    rw [List.foldl_cons, ih, LineCache.entriesOf_erase, List.map_cons]
    by_cases h : file = a.2.1.filename
    · simp only [h, if_true, ite_self, List.mem_cons_self]
    · simp only [h, if_false, List.mem_cons, false_or]

end CompileTarget

end Evalbox
