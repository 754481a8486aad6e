import Evalbox.Files.Path
import Evalbox.Proofs.Text.Splitting
import Mathlib.Data.List.Basic
import Mathlib.Data.List.TakeWhile

/-!
# Paths in normal form

The parts that `collapse` keeps are names, behind ways up where there is no root; collapsing them again keeps them all.
So a path that was normalized is left as it is, also if it is taken as a path behind a directory again
(`normalize_normalize`, `absolute_absolute`).
-/

namespace Evalbox.Path

/-! ## Parts -/

/-- Put a part to those that were kept so far, last first. -/
def enter (rooted : Bool) (kept : List String) (p : String) : List String :=
  if p = "" || p = "." then kept
  else if p = ".." then
    match kept with
    | q :: rest => if q = ".." then p :: kept else rest
    | [] => if rooted then [] else [p]
  else p :: kept

theorem collapse_eq (rooted : Bool) (ps : List String) :
    collapse rooted ps = (ps.foldl (enter rooted) []).reverse := rfl

/-- Parts that nothing takes away, last first: names, behind ways up if there is no root. -/
inductive Kept (rooted : Bool) : List String → Prop
  | none : Kept rooted []
  | up {kept : List String} : rooted = false → (∀ q ∈ kept, q = "..") → Kept rooted kept → Kept rooted (".." :: kept)
  | name {p : String} {kept : List String} : p ≠ "" → p ≠ "." → p ≠ ".." → Kept rooted kept → Kept rooted (p :: kept)

section Parts

variable {rooted : Bool} {kept ps : List String}

theorem Kept.enter (h : Kept rooted kept) (p : String) : Kept rooted (enter rooted kept p) := by
  unfold Path.enter
  split
  · exact h
  · rename_i hblank
    obtain ⟨hempty, hdot⟩ : p ≠ "" ∧ p ≠ "." := by simpa using hblank
    split
    · rename_i hup
      subst hup
      cases h with
      | none =>
        cases rooted with
        | true => exact .none
        | false => exact .up rfl (fun _ h => nomatch h) .none
      | up hr hall hk => exact .up hr (List.forall_mem_cons.mpr ⟨rfl, hall⟩) (.up hr hall hk)
      | name _ _ hup hk => simpa [hup] using hk
    · rename_i hup
      exact .name hempty hdot hup h

theorem Kept.foldl (h : Kept rooted kept) (ps : List String) : Kept rooted (ps.foldl (Path.enter rooted) kept) := by
  induction ps generalizing kept with
  | nil => exact h
  | cons p ps ih => exact ih (h.enter p)

/-- Put together again, part by part, they are all kept. -/
theorem Kept.reenter (h : Kept rooted kept) : kept.reverse.foldl (Path.enter rooted) [] = kept := by
  rw [List.foldl_reverse]
  induction h with
  | none => rfl
  | @up kept hr hall _ ih =>
    rw [List.foldr_cons, ih, hr]
    cases kept with
    | nil => rfl
    | cons q rest =>
      obtain rfl := hall q List.mem_cons_self
      rfl
  | name hempty hdot hup _ ih =>
    rw [List.foldr_cons, ih]
    simp [Path.enter, hempty, hdot, hup]

theorem collapse_collapse (rooted : Bool) (ps : List String) :
    collapse rooted (collapse rooted ps) = collapse rooted ps := by
  have hkept : Kept rooted (ps.foldl (enter rooted) []) := Kept.none.foldl ps
  rw [collapse_eq rooted ps, collapse_eq, hkept.reenter]

theorem mem_enter {p q : String} (h : q ∈ enter rooted kept p) : q ∈ kept ∨ q = p := by
  unfold enter at h
  split at h
  · exact .inl h
  · split at h
    · split at h
      · split at h
        · exact (List.mem_cons.mp h).symm
        · exact .inl (List.mem_cons_of_mem _ h)
      · split at h
        · cases h
        · exact .inr (List.mem_singleton.mp h)
    · exact (List.mem_cons.mp h).symm

theorem mem_collapse {q : String} (h : q ∈ collapse rooted ps) : q ∈ ps := by
  have hfold : ∀ ps kept : List String, q ∈ ps.foldl (enter rooted) kept → q ∈ kept ∨ q ∈ ps := by
    intro ps
    induction ps with
    | nil => exact fun kept h => .inl h
    | cons p ps ih =>
      intro kept h
      rcases ih _ h with h | h
      · rcases mem_enter h with h | rfl
        · exact .inl h
        · exact .inr List.mem_cons_self
      · exact .inr (List.mem_cons_of_mem p h)
  exact (hfold ps [] (List.mem_reverse.mp h)).resolve_left List.not_mem_nil

theorem Kept.ne_empty (h : Kept rooted kept) {q : String} (hq : q ∈ kept) : q ≠ "" := by
  induction h with
  | none => cases hq
  | up _ _ _ ih =>
    rcases List.mem_cons.mp hq with rfl | hq
    · decide
    · exact ih hq
  | name hempty _ _ _ ih =>
    rcases List.mem_cons.mp hq with rfl | hq
    · exact hempty
    · exact ih hq

theorem ne_empty_of_mem_collapse {q : String} (h : q ∈ collapse rooted ps) : q ≠ "" :=
  (Kept.none.foldl ps).ne_empty (List.mem_reverse.mp h)

end Parts

/-! ## Text -/

theorem parts_eq_splitOn (cs : List Char) : parts cs = cs.splitOn '/' := by
  induction cs with
  | nil => rfl
  | cons c cs ih =>
    rw [parts, List.splitOn_cons_eq_if_modifyHead, ih]
    by_cases hc : c = '/'
    · simp [hc]
    · cases hs : cs.splitOn '/' with
      | nil => exact (List.splitOn_ne_nil _ _ hs).elim
      | cons p ps => simp [hc]

theorem slash_not_mem {path p : String} (h : p ∈ split path) : '/' ∉ p.toList := by
  obtain ⟨cs, hcs, rfl⟩ := List.mem_map.mp h
  rw [parts_eq_splitOn] at hcs
  rw [String.toList_ofList]
  exact not_mem_of_mem_splitOn hcs

theorem split_slash (path : String) : split ("/" ++ path) = "" :: split path := by
  have hslash : ("/" ++ path).toList = '/' :: path.toList := by simp
  rw [split, hslash, parts, if_pos rfl]
  rfl

/-- Parts with slashes between them are cut there again. -/
theorem split_intercalate {names : List String} (hne : names ≠ []) (h : ∀ p ∈ names, '/' ∉ p.toList) :
    split ("/".intercalate names) = names := by
  have hsep : "/".toList = ['/'] := rfl
  have hcut : (['/'].intercalate (names.map String.toList)).splitOn '/' = names.map String.toList :=
    List.splitOn_intercalate '/' (by simpa using h) (by simpa using hne)
  rw [split, parts_eq_splitOn, String.toList_intercalate, hsep, hcut, List.map_map]
  exact (List.map_congr_left fun p _ => String.ofList_toList).trans (List.map_id _)

theorem collapse_split_intercalate (rooted : Bool) {names : List String} (h : ∀ p ∈ names, '/' ∉ p.toList) :
    collapse rooted (split ("/".intercalate names)) = collapse rooted names := by
  by_cases hne : names = []
  · subst hne
    rfl
  · rw [split_intercalate hne h]

/-- What can lead a path: one slash or two, or none. -/
def IsLead (lead : String) : Prop := lead = "" ∨ lead = "/" ∨ lead = "//"

theorem isLead_leadingSlashes (path : String) : IsLead (leadingSlashes path) := by
  unfold leadingSlashes
  split
  · exact .inr (.inr rfl)
  · split
    · exact .inr (.inl rfl)
    · exact .inr (.inr rfl)
  · exact .inr (.inl rfl)
  · exact .inl rfl

section Lead

variable {lead rest : String} (hlead : IsLead lead)
include hlead

theorem leadingSlashes_append (h : rest.toList.head? ≠ some '/') : leadingSlashes (lead ++ rest) = lead := by
  rw [leadingSlashes, String.toList_append]
  cases hr : rest.toList with
  | nil => rcases hlead with rfl | rfl | rfl <;> rfl
  | cons c cs =>
    have hc : c ≠ '/' := fun he => h (by rw [hr, he]; rfl)
    rcases hlead with rfl | rfl | rfl <;> simp [hc]

/-- Slashes in front are no parts. -/
theorem collapse_split_append (rooted : Bool) : collapse rooted (split (lead ++ rest)) = collapse rooted (split rest) := by
  have hskip : ∀ ps, collapse rooted ("" :: ps) = collapse rooted ps := fun ps => rfl
  have hone : ∀ path, collapse rooted (split ("/" ++ path)) = collapse rooted (split path) := fun path => by
    rw [split_slash, hskip]
  rcases hlead with rfl | rfl | rfl
  · rw [String.empty_append]
  · exact hone rest
  · have htwo : "//" ++ rest = "/" ++ ("/" ++ rest) := by rw [← String.append_assoc]; rfl
    rw [htwo, hone, hone]

end Lead

theorem head?_intercalate {names : List String} (h : ∀ p ∈ names, p ≠ "" ∧ '/' ∉ p.toList) :
    ("/".intercalate names).toList.head? ≠ some '/' := by
  rw [String.toList_intercalate]
  cases names with
  | nil => exact nofun
  | cons p rest =>
    obtain ⟨hne, hp⟩ := h p List.mem_cons_self
    cases hl : p.toList with
    | nil => exact absurd (String.toList_eq_nil_iff.mp hl) hne
    | cons c cs =>
      rw [hl] at hp
      intro he
      refine hp (List.mem_cons.mpr (.inl ?_))
      cases rest <;> simpa [hl, List.intercalate_cons_of_ne_nil] using he.symm

/-! ## Normal form -/

/-- A path written from what leads it and its parts. -/
def written (lead : String) (names : List String) : String :=
  if lead ++ "/".intercalate names = "" then "." else lead ++ "/".intercalate names

theorem normalize_eq (path : String) : normalize path =
    written (leadingSlashes path) (collapse (leadingSlashes path ≠ "") (split path)) := rfl

/-- What was written is read again. -/
theorem normalize_written {lead : String} {names : List String} (hlead : IsLead lead)
    (h : ∀ p ∈ names, p ≠ "" ∧ '/' ∉ p.toList) :
    normalize (written lead names) = written lead (collapse (lead ≠ "") names) := by
  by_cases htext : lead ++ "/".intercalate names = ""
  · obtain ⟨rfl, hnames⟩ := String.append_eq_empty_iff.mp htext
    have hnil : names = [] := by
      by_contra hne
      have hsplit := split_intercalate hne fun p hp => (h p hp).2
      rw [hnames] at hsplit
      exact (h "" (hsplit ▸ List.mem_singleton_self "")).1 rfl
    subst hnil
    decide
  · have hwritten : written lead names = lead ++ "/".intercalate names := if_neg htext
    rw [hwritten, normalize_eq, leadingSlashes_append hlead (head?_intercalate h), collapse_split_append hlead,
      collapse_split_intercalate _ fun p hp => (h p hp).2]

theorem normalize_normalize (path : String) : normalize (normalize path) = normalize path := by
  have hnames : ∀ p ∈ collapse (leadingSlashes path ≠ "") (split path), p ≠ "" ∧ '/' ∉ p.toList := fun p hp =>
    ⟨ne_empty_of_mem_collapse hp, slash_not_mem (mem_collapse hp)⟩
  rw [normalize_eq path, normalize_written (isLead_leadingSlashes path) hnames, collapse_collapse]

/-! ## Absolute paths -/

theorem isAbsolute_iff {path : String} : isAbsolute path = true ↔ path.toList.head? = some '/' := by
  have hslash : "/".toList = ['/'] := rfl
  rw [isAbsolute, String.startsWith_string_iff, hslash]
  cases path.toList with
  | nil => simp
  | cons c cs => simp [List.cons_prefix_cons, eq_comm]

theorem leadingSlashes_ne_empty {path : String} (h : isAbsolute path = true) : leadingSlashes path ≠ "" := by
  rw [isAbsolute_iff] at h
  unfold leadingSlashes
  split
  · decide
  · split <;> decide
  · decide
  · rename_i hslash
    cases hl : path.toList with
    | nil => simp [hl] at h
    | cons c cs =>
      obtain rfl : c = '/' := by simpa [hl] using h
      exact absurd hl (hslash cs)

theorem isAbsolute_normalize {path : String} (h : isAbsolute path = true) : isAbsolute (normalize path) = true := by
  have hne := leadingSlashes_ne_empty h
  have hwritten : ∀ lead names, IsLead lead → lead ≠ "" → isAbsolute (written lead names) = true := by
    intro lead names hlead hne
    rw [written, if_neg fun he => hne (String.append_eq_empty_iff.mp he).1, isAbsolute_iff]
    rcases hlead.resolve_left hne with rfl | rfl <;> simp
  rw [normalize_eq]
  exact hwritten _ _ (isLead_leadingSlashes path) hne

theorem isAbsolute_join {cwd : String} (h : isAbsolute cwd = true) (path : String) : isAbsolute (join cwd path) = true := by
  have happend : ∀ rest : String, isAbsolute (cwd ++ rest) = true := by
    intro rest
    rw [isAbsolute_iff] at h ⊢
    cases hl : cwd.toList with
    | nil => simp [hl] at h
    | cons c cs => simpa [hl] using h
  unfold join
  split
  · assumption
  · split
    · exact happend path
    · rw [String.append_assoc]
      exact happend _

theorem isAbsolute_beforeNull {path : String} (h : isAbsolute path = true) : isAbsolute (beforeNull path) = true := by
  rw [isAbsolute_iff] at h ⊢
  rw [beforeNull, String.toList_ofList]
  cases hl : path.toList with
  | nil => simp [hl] at h
  | cons c cs =>
    obtain rfl : c = '/' := by simpa [hl] using h
    rfl

/-- A path has the characters of its parts, but for slashes. -/
theorem mem_split {c : Char} (hc : c ≠ '/') (path : String) : (∃ p ∈ split path, c ∈ p.toList) ↔ c ∈ path.toList := by
  have hpieces : (∃ p ∈ split path, c ∈ p.toList) ↔ ∃ piece ∈ path.toList.splitOn '/', c ∈ piece := by
    simp [split, parts_eq_splitOn]
  rw [hpieces, ← mem_intercalate_of_ne hc, List.intercalate_splitOn]

/-- What a path is written from has all its characters, but for slashes and dots. -/
theorem mem_written {lead : String} {names : List String} {c : Char} (hlead : IsLead lead) (hslash : c ≠ '/')
    (hdot : c ≠ '.') (h : c ∈ (written lead names).toList) : ∃ p ∈ names, c ∈ p.toList := by
  have hsep : "/".toList = ['/'] := rfl
  rw [written] at h
  split at h
  · exact absurd (List.mem_singleton.mp h) hdot
  · rw [String.toList_append, List.mem_append] at h
    rcases h with h | h
    · rcases hlead with rfl | rfl | rfl
      · cases h
      all_goals exact absurd (by simpa using h) hslash
    · rw [String.toList_intercalate, hsep, mem_intercalate_of_ne hslash] at h
      simpa using h

theorem mem_normalize {path : String} {c : Char} (hslash : c ≠ '/') (hdot : c ≠ '.')
    (h : c ∈ (normalize path).toList) : c ∈ path.toList := by
  rw [normalize_eq] at h
  obtain ⟨p, hp, hcp⟩ := mem_written (isLead_leadingSlashes path) hslash hdot h
  exact (mem_split hslash path).mp ⟨p, mem_collapse hp, hcp⟩

theorem beforeNull_of_not_mem {path : String} (h : '\x00' ∉ path.toList) : beforeNull path = path := by
  have hall : path.toList.takeWhile (· ≠ '\x00') = path.toList :=
    List.takeWhile_eq_self_iff.mpr fun c hc => by simpa using fun he : c = '\x00' => h (he ▸ hc)
  rw [beforeNull, hall, String.ofList_toList]

theorem null_not_mem_absolute (cwd path : String) : '\x00' ∉ (absolute cwd path).toList := by
  intro h
  have hmem := mem_normalize (by decide) (by decide) h
  rw [beforeNull, String.toList_ofList] at hmem
  simpa using List.mem_takeWhile_imp hmem

/-- An absolute path stays as it is behind any directory. -/
theorem absolute_absolute {cwd : String} (h : isAbsolute cwd = true) (path : String) :
    absolute cwd (absolute cwd path) = absolute cwd path := by
  have habsolute : isAbsolute (absolute cwd path) = true :=
    isAbsolute_normalize (isAbsolute_beforeNull (isAbsolute_join h path))
  have hjoin : join cwd (absolute cwd path) = absolute cwd path := if_pos habsolute
  rw [absolute, hjoin, beforeNull_of_not_mem (null_not_mem_absolute cwd path)]
  exact normalize_normalize _

end Evalbox.Path
