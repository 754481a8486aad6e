import Evalbox.Capture.Console

/-!
# What is written to a capture

A capture that was just opened on a sound console takes every write of its thread, in order, until it is
closed. Opening, writing and closing keep a console sound, and so does a capture that is never closed.
-/

namespace Evalbox

theorem getElem?_modify_self {α : Type} {l : List α} {i : Nat} {a : α} (f : α → α) (h : l[i]? = some a) :
    (l.modify i f)[i]? = some (f a) := by
  simp [h]

namespace Router

variable {τ : Type} [BEq τ] [LawfulBEq τ]

theorem bufferOf_set (r : Router τ) (t : τ) (buffer : Option Nat) :
    Router.bufferOf { r with routes := (t, buffer) :: r.routes.filter (!·.1 == t) } t = buffer := by
  simp [Router.bufferOf]

end Router

namespace Console

section Sound

variable {τ : Type}

/-- The streams that a console can name: a router has to be one of its own. -/
def Names (c : Console τ) : Stream → Prop
  | .router i => i < c.routers.length
  | _ => True

/-- The standard output is there, and so is what every router stands in for. -/
structure Sound (c : Console τ) : Prop where
  stdout : c.Names c.stdout
  fallbacks : ∀ r ∈ c.routers, c.Names r.fallback

theorem Names.mono {c c' : Console τ} (h : c.routers.length ≤ c'.routers.length) {s : Stream}
    (hs : c.Names s) : c'.Names s := by
  cases s with
  | router i => exact Nat.lt_of_lt_of_le hs h
  | host => trivial
  | other i => trivial

theorem initial_sound (kind : HostKind) : (initial kind : Console τ).Sound where
  stdout := trivial
  fallbacks := by simp [initial]

/-- Soundness is a matter of the standard output and of the routers. -/
theorem Sound.of_same {c c' : Console τ} (h : c.Sound) (hs : c'.stdout = c.stdout) (hr : c'.routers = c.routers) :
    c'.Sound where
  stdout := hs ▸ h.stdout.mono (Nat.le_of_eq (congrArg List.length hr.symm))
  fallbacks r hm := (h.fallbacks r (hr ▸ hm)).mono (Nat.le_of_eq (congrArg List.length hr.symm))

theorem appendTo_stdout (c : Console τ) (text : List Char) (s : Stream) :
    (c.appendTo text s).stdout = c.stdout := by
  unfold appendTo
  split
  · split <;> rfl
  · rfl
  · rfl

theorem appendTo_routers (c : Console τ) (text : List Char) (s : Stream) :
    (c.appendTo text s).routers = c.routers := by
  unfold appendTo
  split
  · split <;> rfl
  · rfl
  · rfl

theorem install_routers_le {c : Console τ} : c.routers.length ≤ c.install.2.routers.length := by
  unfold install
  split
  · exact Nat.le_refl _
  · simp

/-- After an installation the standard output is the router that was answered, and it is there. -/
theorem install_router {c : Console τ} (h : c.Sound) :
    c.install.2.stdout = .router c.install.1 ∧ c.install.1 < c.install.2.routers.length := by
  have hn := h.stdout
  unfold install
  split
  · rename_i i hi
    rw [hi] at hn
    exact ⟨hi, hn⟩
  · exact ⟨rfl, by simp⟩

theorem install_buffers {c : Console τ} : c.install.2.buffers = c.buffers := by
  unfold install
  split <;> rfl

theorem Sound.install {c : Console τ} (h : c.Sound) : c.install.2.Sound where
  stdout := by
    obtain ⟨hs, hl⟩ := install_router h
    rw [hs]
    exact hl
  fallbacks r hr := by
    refine Names.mono (c := c) install_routers_le ?_
    unfold Console.install at hr
    split at hr
    · exact h.fallbacks r hr
    · rcases List.mem_append.mp hr with hr | hr
      · exact h.fallbacks r hr
      · obtain rfl := List.mem_singleton.mp hr
        exact h.stdout

theorem Sound.release {c : Console τ} (h : c.Sound) (i : Nat) : (c.release i).Sound := by
  unfold Console.release
  simp only
  split
  · split
    · rename_i r hr
      exact ⟨h.fallbacks r (List.mem_of_getElem? hr), h.fallbacks⟩
    · exact h.of_same rfl rfl
  · exact h.of_same rfl rfl

theorem release_buffers (c : Console τ) (i : Nat) : (c.release i).buffers = c.buffers := by
  unfold release
  simp only
  split
  · split <;> rfl
  · rfl

end Sound

variable {τ : Type} [BEq τ]

/-- What a thread writes goes to a buffer. -/
def Captures (c : Console τ) (t : τ) (buffer : Nat) : Prop :=
  (∃ s, c.target t c.stdout = (some buffer, s)) ∧ buffer < c.buffers.length

theorem write_stdout (c : Console τ) (t : τ) (text : List Char) : (c.write t text).stdout = c.stdout := by
  unfold write
  split
  · rfl
  · exact appendTo_stdout ..

theorem write_routers (c : Console τ) (t : τ) (text : List Char) :
    (c.write t text).routers = c.routers := by
  unfold write
  split
  · rfl
  · exact appendTo_routers ..

theorem Sound.write {c : Console τ} (h : c.Sound) (t : τ) (text : List Char) : (c.write t text).Sound :=
  h.of_same (write_stdout ..) (write_routers ..)

/-- A write of a thread whose output is captured is appended to its buffer, and goes nowhere else. -/
theorem Captures.write_eq {c : Console τ} {t : τ} {buffer : Nat} (h : c.Captures t buffer)
    (text : List Char) : c.write t text = { c with buffers := appendAt c.buffers buffer text } := by
  obtain ⟨⟨s, hs⟩, -⟩ := h
  simp only [Console.write, hs]

theorem Captures.write {c : Console τ} {t : τ} {buffer : Nat} (h : c.Captures t buffer) (text : List Char) :
    (c.write t text).Captures t buffer := by
  rw [h.write_eq text]
  exact ⟨h.1, by simpa [appendAt] using h.2⟩

theorem captured_write {c : Console τ} {t : τ} {buffer : Nat} (h : c.Captures t buffer)
    (text : List Char) : (c.write t text).captured buffer = c.captured buffer ++ text := by
  rw [h.write_eq text]
  simp [captured, appendAt, List.getElem?_eq_getElem h.2]

/-- Writing one text after the other. -/
def writes (c : Console τ) (t : τ) (texts : List (List Char)) : Console τ :=
  texts.foldl (fun c text => c.write t text) c

theorem Sound.writes {c : Console τ} (h : c.Sound) (t : τ) (texts : List (List Char)) :
    (c.writes t texts).Sound := by
  induction texts generalizing c with
  | nil => exact h
  | cons text rest ih => exact ih (h.write t text)

section Route

variable (c : Console τ) (i : Nat) (t : τ) (buffer : Option Nat)

theorem route_length : (c.route i t buffer).2.routers.length = c.routers.length := by
  simp [route]

variable {c}

theorem Sound.route (h : c.Sound) : (c.route i t buffer).2.Sound where
  stdout := h.stdout.mono (Nat.le_of_eq (route_length c i t buffer).symm)
  fallbacks r hr := by
    refine Names.mono (c := c) (Nat.le_of_eq (route_length c i t buffer).symm) ?_
    obtain ⟨j, hj⟩ := List.mem_iff_getElem?.mp hr
    simp only [Console.route, List.getElem?_modify] at hj
    obtain ⟨r₀, hr₀, rfl⟩ := Option.map_eq_some_iff.mp hj
    have hf := h.fallbacks r₀ (List.mem_of_getElem? hr₀)
    split
    · exact hf
    · exact hf

/-- A thread for which a buffer was set on the router that is the standard output writes to it. -/
theorem target_route [LawfulBEq τ] (hi : i < c.routers.length) :
    ∃ s, (c.route i t buffer).2.target t (.router i) = (buffer, s) := by
  obtain ⟨r, hr⟩ : ∃ r, c.routers[i]? = some r := ⟨_, List.getElem?_eq_getElem hi⟩
  refine ⟨r.fallback, ?_⟩
  simp only [target, Console.route, getElem?_modify_self _ hr, Router.bufferOf_set]

end Route

section Capture

variable {c : Console τ} (t : τ)

theorem openCapture_buffer : (c.openCapture t).1.buffer = c.buffers.length := rfl

theorem Sound.openCapture (h : c.Sound) : (c.openCapture t).2.Sound :=
  have h₁ : Sound { c with buffers := c.buffers ++ [[]] } := h.of_same rfl rfl
  h₁.install.route ..

theorem Sound.closeCapture (h : c.Sound) (k : Capture) : (c.closeCapture t k).Sound :=
  (h.route ..).release _

/-- A capture is open at once, whatever captures were open before, and empty. -/
theorem openCapture_captures [LawfulBEq τ] (h : c.Sound) :
    (c.openCapture t).2.Captures t (c.openCapture t).1.buffer ∧
      (c.openCapture t).2.captured (c.openCapture t).1.buffer = [] := by
  let c₁ : Console τ := { c with buffers := c.buffers ++ [[]] }
  have h₁ : c₁.Sound := h.of_same rfl rfl
  obtain ⟨hs, hi⟩ := install_router h₁
  have hb : (c.openCapture t).2.buffers = c.buffers ++ [[]] := @install_buffers _ c₁
  have hs' : (c.openCapture t).2.stdout = .router c₁.install.1 := hs
  refine ⟨⟨?_, ?_⟩, ?_⟩
  · rw [hs']
    exact target_route _ t _ hi
  · rw [hb, openCapture_buffer]
    simp
  · simp [captured, hb, openCapture_buffer]

end Capture

end Console

end Evalbox
