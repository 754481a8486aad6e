/-!
# What a computation returns and raises

A computation that may fail is followed step by step: `Returns` says something of all its answers, and `Raises` of all
its faults. Each has a rule for every way to build one.
-/

namespace Evalbox

/-- Every answer of a computation is of this kind. -/
def Returns {ε α : Type} (x : Except ε α) (P : α → Prop) : Prop := ∀ a, x = .ok a → P a

/-- Every fault of a computation is of this kind. -/
def Raises {ε α : Type} (x : Except ε α) (P : ε → Prop) : Prop := ∀ f, x = .error f → P f

variable {ε α β : Type}

theorem bind_of_ok {x : Except ε α} {f : α → Except ε β} {a : α} {r : Except ε β} (hx : x = .ok a) (hf : f a = r) :
    x >>= f = r := by
  rw [hx]
  exact hf

theorem ok_of_toOption {x : Except ε α} {a : α} (h : x.toOption = some a) : x = .ok a := by
  cases x with
  | error e => exact nomatch h
  | ok b => rw [Option.some.inj h]

namespace Returns

variable {x : Except ε α} {P : α → Prop}

theorem ok {a : α} (h : P a) : Returns (.ok a : Except ε α) P := fun _ ha => Except.ok.inj ha ▸ h

theorem error (e : ε) : Returns (.error e : Except ε α) P := fun _ h => nomatch h

/-- Where nothing is asked of the answers. -/
theorem any (x : Except ε α) : Returns x fun _ => True := fun _ _ => trivial

theorem bind {Q : β → Prop} {f : α → Except ε β} (hx : Returns x P) (hf : ∀ a, P a → Returns (f a) Q) :
    Returns (x >>= f) Q := by
  cases x with
  | error e => exact .error e
  | ok a => exact hf a (hx a rfl)

end Returns

namespace Raises

variable {x : Except ε α} {P : ε → Prop}

theorem ok (a : α) : Raises (.ok a : Except ε α) P := fun _ h => nomatch h

theorem error {f : ε} (h : P f) : Raises (.error f : Except ε α) P := fun _ hf => Except.error.inj hf ▸ h

theorem bind {f : α → Except ε β} (hx : Raises x P) (hf : ∀ a, x = .ok a → Raises (f a) P) : Raises (x >>= f) P := by
  cases x with
  | error e => exact fun _ h => hx _ (congrArg Except.error (Except.error.inj h))
  | ok a => exact hf a rfl

theorem mapM {g : α → Except ε β} {l : List α} (h : ∀ a ∈ l, Raises (g a) P) : Raises (l.mapM g) P := by
  induction l with
  | nil => exact .ok _
  | cons a l ih =>
    rw [List.mapM_cons]
    refine .bind (h a List.mem_cons_self) fun b _ => .bind (ih fun x hx => ?_) fun _ _ => .ok _
    exact h x (List.mem_cons_of_mem a hx)

theorem imp {Q : ε → Prop} (h : Raises x P) (hi : ∀ f, P f → Q f) : Raises x Q := fun f hf => hi f (h f hf)

end Raises

end Evalbox
