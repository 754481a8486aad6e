import Evalbox.Policy.Import

/-!
# Looking up what is bound to a key

Tables are lists of bindings of which the first one counts. What is dropped under a key is no longer found, and
all else is found as before; what is bound is found in the place of what was bound before it.
-/

namespace Evalbox

/-- What is kept by its key is found as before. -/
theorem lookup_filter_key {κ β : Type} [BEq κ] [LawfulBEq κ] (keep : κ → Bool) (key : κ) (l : List (κ × β)) :
    (l.filter fun p => keep p.1).lookup key = if keep key then l.lookup key else none := by
  induction l with
  | nil => simp
  | cons p rest ih =>
    obtain ⟨j, v⟩ := p
    by_cases h : key = j
    · subst j
      cases hk : keep key <;> simp [hk, ih]
    · cases hj : keep j <;> simp [hj, List.lookup_cons, beq_false_of_ne h, ih]

theorem lookup_filter_bne {κ β : Type} [BEq κ] [LawfulBEq κ] (k key : κ) (l : List (κ × β)) :
    (l.filter (!·.1 == k)).lookup key = if key == k then none else l.lookup key := by
  rw [lookup_filter_key (fun j => !j == k)]
  cases key == k <;> rfl

theorem lookup_filter_bne_of_ne {κ β : Type} [BEq κ] [LawfulBEq κ] {k key : κ} (h : key ≠ k)
    (l : List (κ × β)) : (l.filter (!·.1 == k)).lookup key = l.lookup key := by
  rw [lookup_filter_bne, beq_false_of_ne h, if_neg Bool.false_ne_true]

theorem lookup_filter_ne {κ β : Type} [BEq κ] [LawfulBEq κ] [DecidableEq κ] (k key : κ) (l : List (κ × β)) :
    (l.filter (·.1 ≠ k)).lookup key = if key = k then none else l.lookup key := by
  rw [lookup_filter_key (fun j => decide (j ≠ k))]
  by_cases h : key = k <;> simp [h]

/-- Bindings of a key are replaced where they stand. -/
theorem lookup_map_if {κ β : Type} [BEq κ] [LawfulBEq κ] [DecidableEq κ] (k key : κ) (v : β) (l : List (κ × β)) :
    (l.map fun p => if p.1 = k then (k, v) else p).lookup key =
      if key = k then (l.lookup k).map fun _ => v else l.lookup key := by
  induction l with
  | nil => simp
  | cons p rest ih =>
    obtain ⟨j, w⟩ := p
    by_cases hj : j = k
    · subst j
      by_cases hk : key = k
      · simp [hk]
      · simp [List.lookup_cons, beq_false_of_ne hk, hk, ih]
    · by_cases hk : key = j
      · subst key
        simp [hj]
      · simp [List.lookup_cons, hj, beq_false_of_ne hk, beq_false_of_ne (Ne.symm hj), ih]

theorem lookup_bindName {β : Type} (n name : String) (v : β) (l : List (String × β)) :
    (bindName n v l).lookup name = if name = n then some v else l.lookup name := by
  induction l with
  | nil =>
    by_cases h : name = n
    · simp [bindName, h]
    · simp [bindName, List.lookup_cons, beq_false_of_ne h, h]
  | cons p rest ih =>
    obtain ⟨k, w⟩ := p
    unfold bindName
    by_cases hk : k = n
    · subst k
      by_cases h : name = n
      · simp [h]
      · simp [List.lookup_cons, beq_false_of_ne h, h]
    · by_cases h : name = k
      · subst k
        simp [hk]
      · simp [List.lookup_cons, hk, beq_false_of_ne h, ih]

end Evalbox
