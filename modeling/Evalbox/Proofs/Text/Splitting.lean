import Mathlib.Data.String.Basic

/-!
# Cutting text at a character

Where texts are joined with a character between them and the whole is cut at that character again, each text comes back
in the pieces that the character cuts it into. So the texts themselves come back if the character is in none of them,
and only then.
-/

namespace Evalbox

section

open String

/-- Cutting goes on from the piece `m` that is open, in front of which `l` was cut off. -/
theorem splitOnAux_singleton (c : Char) (l m r : List Char) (done : List String) :
    splitOnAux (ofList (l ++ m ++ r)) (String.singleton c) ⟨utf8Len l⟩ ⟨utf8Len l + utf8Len m⟩ 0 done =
      done.reverse ++ (List.splitOnPPrepend (· == c) r m.reverse).map ofList := by
  rw [splitOnAux.eq_def]
  simp only [List.append_assoc, atEnd_iff, rawEndPos_ofList, utf8Len_append, Pos.Raw.mk_le_mk,
    Nat.add_le_add_iff_left, (by omega : utf8Len m + utf8Len r ≤ utf8Len m ↔ utf8Len r = 0), utf8Len_eq_zero]
  split
  · subst r
    simpa using extract_of_valid l m []
  · obtain ⟨d, r, rfl⟩ := r.exists_cons_of_ne_nil ‹_›
    have hget : Pos.Raw.get (ofList (l ++ (m ++ d :: r))) ⟨utf8Len l + utf8Len m⟩ = d := by
      simpa using get_of_valid (l ++ m) (d :: r)
    have hnext : Pos.Raw.next (ofList (l ++ (m ++ d :: r))) ⟨utf8Len l + utf8Len m⟩ =
        ⟨utf8Len l + utf8Len m + d.utf8Size⟩ := by
      simpa using next_of_valid (l ++ m) d r
    have hsep : Pos.Raw.get (String.singleton c) 0 = c := by simpa using get_of_valid [] [c]
    have hsepNext : Pos.Raw.next (String.singleton c) 0 = ⟨c.utf8Size⟩ := by simpa using next_of_valid [] c []
    have hsepEnd : (String.singleton c).rawEndPos = ⟨c.utf8Size⟩ := by simpa using @rawEndPos_ofList [c]
    have hpiece : Pos.Raw.extract (ofList (l ++ (m ++ d :: r))) ⟨utf8Len l⟩ ⟨utf8Len l + utf8Len m⟩ = ofList m := by
      simpa using extract_of_valid l m (d :: r)
    rw [hget, hnext, hsep, hsepNext, hsepEnd]
    simp only [Pos.Raw.mk_le_mk, Nat.le_refl, if_true]
    by_cases hd : d = c
    · subst d
      have hback : (⟨utf8Len l + utf8Len m + c.utf8Size⟩ : Pos.Raw).unoffsetBy ⟨c.utf8Size⟩ =
          ⟨utf8Len l + utf8Len m⟩ := by
        simp [Pos.Raw.ext_iff]
      rw [if_pos (beq_self_eq_true c), hback, hpiece]
      have ih := splitOnAux_singleton c (l ++ m ++ [c]) [] r (ofList m :: done)
      simpa [List.splitOnPPrepend_cons_eq_if, Nat.add_assoc] using ih
    · have hstay : (⟨utf8Len l + utf8Len m⟩ : Pos.Raw).unoffsetBy 0 = ⟨utf8Len l + utf8Len m⟩ := by simp
      rw [if_neg (by simpa using hd), hstay, hnext]
      have ih := splitOnAux_singleton c l (m ++ [d]) r done
      simpa [List.splitOnPPrepend_cons_eq_if, Nat.add_assoc, hd] using ih

theorem splitOn_singleton (s : String) (c : Char) :
    s.splitOn (String.singleton c) = (s.toList.splitOn c).map ofList := by
  have hne : (String.singleton c == "") = false := beq_false_of_ne fun h => by simpa using congrArg String.toList h
  have haux := splitOnAux_singleton c [] [] s.toList []
  simp only [splitOn, hne, Bool.false_eq_true, if_false]
  simpa [List.splitOn_eq_splitOnP] using haux

end

variable {α : Type} [DecidableEq α]

/-- What was joined is cut where its parts were joined, and where these hold the separator themselves. -/
theorem splitOn_intercalate_flatMap (a : α) {parts : List (List α)} (h : parts ≠ []) :
    ([a].intercalate parts).splitOn a = parts.flatMap (List.splitOn a) := by
  induction parts with
  | nil => exact absurd rfl h
  | cons p rest ih =>
    cases rest with
    | nil => simp
    | cons q rest =>
      rw [List.intercalate_cons_of_ne_nil (List.cons_ne_nil q rest), List.append_assoc, List.singleton_append,
        List.splitOn_append_cons_self, ih (List.cons_ne_nil q rest)]
      rfl

theorem not_mem_of_mem_splitOn {a : α} {l piece : List α} (h : piece ∈ l.splitOn a) : a ∉ piece := by
  induction l generalizing piece with
  | nil =>
    obtain rfl : piece = [] := by simpa using h
    exact List.not_mem_nil
  | cons x l ih =>
    rw [List.splitOn_cons_eq_if_modifyHead] at h
    split at h
    · rcases List.mem_cons.mp h with rfl | h
      · exact List.not_mem_nil
      · exact ih h
    · rename_i hx
      cases hl : l.splitOn a with
      | nil => simp [hl] at h
      | cons first more =>
        rw [hl, List.modifyHead_cons, List.mem_cons] at h
        rcases h with rfl | h
        · have hfirst : a ∉ first := ih (hl ▸ List.mem_cons_self)
          exact fun hm => (List.mem_cons.mp hm).elim (fun he => hx (by simp [he])) hfirst
        · exact ih (hl ▸ List.mem_cons_of_mem first h)

omit [DecidableEq α] in
/-- Joining brings in the separator alone. -/
theorem mem_intercalate_of_ne {a x : α} (h : x ≠ a) (parts : List (List α)) :
    x ∈ [a].intercalate parts ↔ ∃ p ∈ parts, x ∈ p := by
  induction parts with
  | nil => simp
  | cons p rest ih =>
    cases rest with
    | nil => simp
    | cons q rest =>
      rw [List.intercalate_cons_of_ne_nil (List.cons_ne_nil q rest), List.append_assoc, List.mem_append,
        List.mem_append, ih, List.exists_mem_cons_iff]
      simp [h]

end Evalbox
