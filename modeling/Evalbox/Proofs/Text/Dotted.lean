import Evalbox.Text.Dotted
import Mathlib.Data.List.TakeWhile

/-!
# The modules that a module lies in

A name with dots is its parent, a dot, and its last part. Parents are shorter, and have the root of the name; so
every chain of parents ends at the root. What is put behind a name and a dot has the root of the name.
-/

namespace Evalbox.Dotted

variable {name : String}

/-- A name has no dots and no parent, or its last dot lies between its parent and its last part. -/
theorem parts (name : String) : ('.' ∉ name.toList ∧ parent name = "") ∨
    name.toList = (parent name).toList ++ '.' :: (last name).toList := by
  have hsplit : name.toList.reverse.takeWhile (· ≠ '.') ++ name.toList.reverse.dropWhile (· ≠ '.') =
      name.toList.reverse := List.takeWhile_append_dropWhile
  have hhead := List.head?_dropWhile_not (· ≠ '.') name.toList.reverse
  cases hd : name.toList.reverse.dropWhile (· ≠ '.') with
  | nil =>
    refine .inl ⟨fun hm => ?_, by rw [parent, hd]; rfl⟩
    have hall := List.dropWhile_eq_nil_iff.mp hd '.' (List.mem_reverse.mpr hm)
    simp at hall
  | cons c rest =>
    rw [hd] at hsplit hhead
    obtain rfl : c = '.' := by simpa using hhead
    refine .inr ?_
    have hrev := congrArg List.reverse hsplit
    rw [List.reverse_reverse, List.reverse_append, List.reverse_cons, List.append_assoc] at hrev
    rw [parent, last, hd, String.toList_ofList, String.toList_ofList]
    exact hrev.symm

theorem toList_eq (h : parent name ≠ "") : name.toList = (parent name).toList ++ '.' :: (last name).toList :=
  (parts name).resolve_left fun hn => h hn.2

/-- The parent of a name is shorter than the name. -/
theorem length_parent_lt (h : parent name ≠ "") : (parent name).toList.length < name.toList.length := by
  have hl := congrArg List.length (toList_eq h)
  rw [List.length_append, List.length_cons] at hl
  omega

/-- What holds of a name if it holds of its parent, holds of all names. -/
theorem parent_induction {P : String → Prop} (h : ∀ name, (parent name ≠ "" → P (parent name)) → P name)
    (name : String) : P name := by
  induction hl : name.toList.length using Nat.strongRecOn generalizing name with
  | _ n ih =>
    subst hl
    exact h name fun hp => ih _ (length_parent_lt hp) (parent name) rfl

theorem takeWhile_append_dot (front rest : List Char) :
    (front ++ '.' :: rest).takeWhile (· ≠ '.') = front.takeWhile (· ≠ '.') := by
  rw [List.takeWhile_append]
  split
  · rename_i hl
    rw [(List.takeWhile_prefix _).eq_of_length hl]
    simp
  · rfl

theorem root_append_dot (base rest : String) : root (base ++ "." ++ rest) = root base := by
  have hl : (base ++ "." ++ rest).toList = base.toList ++ '.' :: rest.toList := by simp
  rw [root, root, hl, takeWhile_append_dot]

theorem root_parent (h : parent name ≠ "") : root (parent name) = root name := by
  rw [root, root, toList_eq h, takeWhile_append_dot]

/-- Going up leads to names with the same root. -/
theorem root_ascend {levels : Nat} {base : String} (h : ascend name levels = some base) : root base = root name := by
  induction levels generalizing base with
  | zero =>
    cases h
    rfl
  | succ levels ih =>
    rw [ascend] at h
    obtain ⟨n, hn, hb⟩ := Option.bind_eq_some_iff.mp h
    split at hb
    · rename_i hdot
      cases hb
      have hmem : '.' ∈ n.toList := by simpa using hdot
      have hparts : n.toList = (parent n).toList ++ '.' :: (last n).toList :=
        (parts n).resolve_left fun hno => hno.1 hmem
      rw [← ih hn, root, root, hparts, takeWhile_append_dot]
    · cases hb

/-- A name without dots lies in nothing. -/
theorem parent_of_no_dot (h : '.' ∉ name.toList) : parent name = "" := by
  rcases parts name with ⟨-, hp⟩ | hs
  · exact hp
  · exact absurd (hs ▸ by simp) h

/-- It is its own root. -/
theorem root_of_no_dot (h : '.' ∉ name.toList) : root name = name := by
  have hall : name.toList.takeWhile (· ≠ '.') = name.toList :=
    List.takeWhile_eq_self_iff.mpr fun c hc => by simpa using fun he : c = '.' => h (he ▸ hc)
  rw [root, hall, String.ofList_toList]

/-- A name is another one, or goes on with a dot behind it. -/
def Leads (front name : String) : Prop := name = front ∨ ∃ rest, name = front ++ "." ++ rest

/-- What leads a name and has no dots is its root. -/
theorem leads_iff_root {front : String} (h : '.' ∉ front.toList) : Leads front name ↔ root name = front := by
  constructor
  · rintro (rfl | ⟨rest, rfl⟩)
    · exact root_of_no_dot h
    · rw [root_append_dot, root_of_no_dot h]
  · rintro rfl
    by_cases hm : '.' ∈ name.toList
    · obtain ⟨front, rest, hsplit, hfront⟩ := List.eq_append_cons_of_mem hm
      have hname : name = String.ofList front ++ "." ++ String.ofList rest :=
        String.toList_injective (by simp [hsplit])
      have hroot : root name = String.ofList front := by
        rw [hname, root_append_dot, root_of_no_dot (by simpa using hfront)]
      exact .inr ⟨String.ofList rest, hroot.symm ▸ hname⟩
    · exact .inl (root_of_no_dot hm).symm

theorem no_dot_root (name : String) : '.' ∉ (root name).toList := by
  rw [root, String.toList_ofList]
  intro h
  simpa using List.mem_takeWhile_imp h

/-- A name that lies in nothing is its own root, if it has one. -/
theorem root_eq_self (hp : parent name = "") (hr : root name ≠ "") : root name = name := by
  rcases parts name with ⟨hn, -⟩ | hs
  · exact root_of_no_dot hn
  · rw [hp] at hs
    exact absurd (by rw [root, hs]; rfl) hr

/-- The names of the modules that are loaded for a name: itself, and those in which it lies. -/
inductive OnPath (q : String) : String → Prop
  | self : OnPath q q
  | inside {name : String} : parent name ≠ "" → OnPath q (parent name) → OnPath q name

theorem OnPath.trans {p q : String} (h : OnPath p q) (h' : OnPath q name) : OnPath p name := by
  induction h' with
  | self => exact h
  | inside hp _ ih => exact .inside hp ih

theorem OnPath.root_eq {q : String} (h : OnPath q name) : root q = root name := by
  induction h with
  | self => rfl
  | inside hp _ ih => rw [ih, root_parent hp]

end Evalbox.Dotted
