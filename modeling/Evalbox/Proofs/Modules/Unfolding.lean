import Evalbox.Proofs.Modules.Library

/-!
# Unfolding loads more often

An import that ended when loading was unfolded a number of times ends in the same way when it is unfolded more
often. What an import ends with is therefore a function of the shelf that it finds.
-/

namespace Evalbox

namespace Loading

variable {α β : Type} {p p' : Loading α} {f f' : α → Loading β}

/-- Wherever the first work ends, the second one ends in the same way. -/
def Below (p p' : Loading α) : Prop := ∀ s r, p s = some r → p' s = some r

theorem Below.refl (p : Loading α) : Below p p := fun _ _ h => h

theorem Below.bind (hp : Below p p') (hf : ∀ a, Below (f a) (f' a)) : Below (p >>= f) (p' >>= f') := by
  intro s r h
  change Loading.bind p f s = some r at h
  change Loading.bind p' f' s = some r
  unfold Loading.bind at h ⊢
  cases hs : p s with
  | none => simp [hs] at h
  | some x =>
    obtain ⟨res, s₁⟩ := x
    rw [hp s _ hs]
    rw [hs] at h
    cases res with
    | ok a => exact hf a s₁ r h
    | error e => exact h

theorem Below.bind_right (hf : ∀ a, Below (f a) (f' a)) : Below (p >>= f) (p >>= f') :=
  .bind (.refl p) hf

theorem Below.bind_left (hp : Below p p') : Below (p >>= f) (p' >>= f) := .bind hp fun a => .refl (f a)

end Loading

namespace Library

open Loading

variable {lib : Library} {enter enter' : ImportRequest → Loading ModuleRef}
  {again again' : String → Loading ModuleRef}

theorem perform_below (he : ∀ r, Below (enter r) (enter' r)) (b : ModuleBody) :
    Below (perform enter b) (perform enter' b) := by
  induction b with
  | done => exact .refl _
  | fail e => exact .refl _
  | imports r next ih =>
    intro s x h
    unfold perform at h ⊢
    cases hs : enter r s with
    | none => simp [hs] at h
    | some y =>
      obtain ⟨res, s₁⟩ := y
      rw [he r s _ hs]
      rw [hs] at h
      exact ih res s₁ x h
  | looks m name next ih => exact fun s x h => ih (s.has m name) s x h
  | binds m name next ih => exact fun s x h => ih (s.bind m name) x h

theorem execute_below (he : ∀ r, Below (enter r) (enter' r)) (spec : ModuleSpec) (m : ModuleRef) :
    Below (lib.execute enter spec m) (lib.execute enter' spec m) := by
  intro s x h
  unfold execute at h ⊢
  cases hs : perform enter (lib.body spec m) (s.note ⟨.began, spec.name, m⟩) with
  | none => simp [hs] at h
  | some y =>
    rw [perform_below he _ _ _ hs]
    rw [hs] at h
    exact h

theorem run_below (he : ∀ r, Below (enter r) (enter' r)) (name : String) (spec : ModuleSpec) :
    Below ((lib.importing enter).run name spec) ((lib.importing enter').run name spec) := by
  refine .bind_right fun m => .bind_right fun _ => .bind_left fun s x h => ?_
  change Loading.onFailure (lib.execute enter spec m) _ s = some x at h
  change Loading.onFailure (lib.execute enter' spec m) _ s = some x
  unfold Loading.onFailure at h ⊢
  cases hs : lib.execute enter spec m s with
  | none => simp [hs] at h
  | some y =>
    rw [execute_below he spec m s y hs]
    rw [hs] at h
    exact h

theorem loadFound_below (he : ∀ r, Below (enter r) (enter' r)) (name : String) (parent : Option ModuleRef)
    (found : Option ModuleSpec) : Below ((lib.importing enter).loadFound name parent found)
      ((lib.importing enter').loadFound name parent found) := by
  cases found with
  | none => exact .refl _
  | some spec =>
    unfold Importing.loadFound
    simp only
    split
    · exact .refl _
    · exact .bind_left (run_below he name spec)

theorem loadBelow_below (he : ∀ r, Below (enter r) (enter' r)) (name : String) (parent : Option ModuleRef) :
    Below ((lib.importing enter).loadBelow name parent) ((lib.importing enter').loadBelow name parent) := by
  cases parent with
  | none =>
    rw [Importing.loadBelow_none, Importing.loadBelow_none]
    exact .bind_right fun path => .bind_right (loadFound_below he name none)
  | some p =>
    rw [Importing.loadBelow_some, Importing.loadBelow_some]
    exact .bind_right fun path => .bind_right fun _ => .bind_right (loadFound_below he name (some p))

theorem load_below (he : ∀ r, Below (enter r) (enter' r)) (ha : ∀ name, Below (again name) (again' name))
    (name : String) : Below ((lib.importing enter).load again name) ((lib.importing enter').load again' name) := by
  unfold Importing.load
  refine .bind_right fun found => ?_
  cases found with
  | some m => exact .refl _
  | none =>
    simp only
    split
    · exact loadBelow_below he name none
    · refine .bind (ha _) fun parent => .bind_right fun found => ?_
      cases found with
      | some m => exact .refl _
      | none => exact loadBelow_below he name (some parent)

theorem loadNames_below (ha : ∀ name, Below (again name) (again' name)) (name : String) (m : ModuleRef)
    (names : List String) :
    Below ((lib.importing enter).loadNames again name m names)
      ((lib.importing enter).loadNames again' name m names) := by
  induction names with
  | nil => exact .refl _
  | cons n rest ih =>
    have hone : ∀ known, Below
        ((lib.importing enter).loadOne again name m n ((lib.importing enter).loadNames again name m rest) known)
        ((lib.importing enter).loadOne again' name m n
          ((lib.importing enter).loadNames again' name m rest) known) := by
      intro known
      cases known with
      | true => exact ih
      | false =>
        refine .bind_right fun package => ?_
        cases package with
        | true => exact .bind (ha _) fun _ => ih
        | false => exact ih
    rw [Importing.loadNames_cons, Importing.loadNames_cons]
    split
    · exact hone true
    · exact .bind_right hone

theorem importModule_below (ha : ∀ name, Below (again name) (again' name)) (r : ImportRequest) :
    Below ((lib.importing enter).importModule again r) ((lib.importing enter).importModule again' r) := by
  unfold Importing.importModule
  split
  · exact .refl _
  · rename_i name _
    refine .bind_right fun owned => ?_
    cases owned with
    | false => exact .refl _
    | true =>
      refine .bind (ha name) fun m => ?_
      split
      · exact .bind_left (loadNames_below ha name m r.names)
      · exact .refl _

/-- One more unfolding changes nothing about a load that ended. -/
theorem loads_below (n : Nat) (name : String) : Below (lib.load n name) (lib.load (n + 1) name) := by
  induction n generalizing name with
  | zero =>
    intro s x h
    cases h
  | succ n ih => exact load_below (importModule_below ih) ih name

theorem request_stable {n m : Nat} (h : n ≤ m) (r : ImportRequest) :
    Below (lib.request n r) (lib.request m r) := by
  induction h with
  | refl => exact .refl _
  | step _ ih => exact fun s x hs => importModule_below (loads_below _) r s x (ih s x hs)

/-- An import ends in one way at most. -/
theorem Ends.unique {r : ImportRequest} {s s₁ s₂ : Shelf} {res₁ res₂ : Except ImportFailure ModuleRef}
    (h₁ : lib.Ends r s res₁ s₁) (h₂ : lib.Ends r s res₂ s₂) : res₁ = res₂ ∧ s₁ = s₂ := by
  obtain ⟨n, hn⟩ := h₁
  obtain ⟨m, hm⟩ := h₂
  have hmax : lib.request (max n m) r s = some (res₁, s₁) := request_stable (Nat.le_max_left n m) r s _ hn
  rw [request_stable (Nat.le_max_right n m) r s _ hm] at hmax
  obtain ⟨rfl, rfl⟩ : res₂ = res₁ ∧ s₂ = s₁ := by simpa using hmax
  exact ⟨rfl, rfl⟩

end Library

end Evalbox
