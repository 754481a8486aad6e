import Evalbox.Proofs.Capture.Console
import Evalbox.Proofs.Lookup
import Mathlib.Logic.Function.Basic

/-!
# One router for all threads

While the standard output is a router, what becomes of a write is decided by the buffer that is set for its
thread, and by the stream that the router stands in for if there is none. `Routes` says this of all threads at
once, and there is one lemma for each operation of a console: which buffers it sets, and whether the router stays.
The parts of a console that only writes change are its buffers and its `ground`, the streams that are no routers.
-/

namespace Evalbox

namespace Router

variable {τ : Type} [DecidableEq τ]

/-- Setting the buffer of a thread sets it for this thread alone. -/
theorem bufferOf_update (r : Router τ) (t : τ) (buffer : Option Nat) :
    Router.bufferOf { r with routes := (t, buffer) :: r.routes.filter (!·.1 == t) } =
      Function.update r.bufferOf t buffer := by
  funext t'
  by_cases h : t' = t
  · subst t'
    rw [bufferOf_set, Function.update_self]
  · rw [Function.update_of_ne h]
    simp only [Router.bufferOf, List.lookup_cons, beq_false_of_ne h, lookup_filter_bne_of_ne h]

end Router

namespace Console

variable {τ : Type}

/-- The streams that are no routers, with what was written to them. -/
def ground (c : Console τ) : HostKind × List Char × List (List Char) := (c.kind, c.host, c.others)

theorem appendTo_ground {c c' : Console τ} (h : c.ground = c'.ground) (text : List Char) (s : Stream) :
    (c.appendTo text s).ground = (c'.appendTo text s).ground := by
  obtain ⟨hk, h⟩ := Prod.mk.inj h
  obtain ⟨hh, ho⟩ := Prod.mk.inj h
  unfold appendTo
  split
  · rw [hk]
    split <;> simp [ground, hk, hh, ho]
  · simp [ground, hk, hh, ho]
  · simp [ground, hk, hh, ho]

theorem appendTo_nil_ground (c : Console τ) (s : Stream) : (c.appendTo [] s).ground = c.ground := by
  unfold appendTo
  split
  · split <;> simp [ground]
  · simp only [ground, appendAt, List.append_nil]
    exact congrArg (fun others => (c.kind, c.host, others)) (List.modify_id ..)
  · rfl

theorem appendTo_appendTo_ground (c : Console τ) (a b : List Char) (s : Stream) :
    ((c.appendTo a s).appendTo b s).ground = (c.appendTo (a ++ b) s).ground := by
  cases s with
  | host => cases hk : c.kind <;> simp [appendTo, ground, hk]
  | other i => simp [appendTo, ground, appendAt, List.modify_modify_eq, Function.comp_def]
  | router i => rfl

/-- Nothing but the ground is changed by a write to it. -/
theorem appendTo_eq (c : Console τ) (text : List Char) (s : Stream) :
    ∃ host others, c.appendTo text s = { c with host := host, others := others } := by
  unfold appendTo
  split
  · split
    · exact ⟨_, c.others, rfl⟩
    · exact ⟨c.host, c.others, rfl⟩
  · exact ⟨c.host, _, rfl⟩
  · exact ⟨c.host, c.others, rfl⟩

theorem appendTo_buffers (c : Console τ) (text : List Char) (s : Stream) :
    (c.appendTo text s).buffers = c.buffers := by
  obtain ⟨host, others, h⟩ := c.appendTo_eq text s
  rw [h]

theorem captured_appendTo (c : Console τ) (text : List Char) (s : Stream) (b : Nat) :
    (c.appendTo text s).captured b = c.captured b := by
  rw [captured, captured, appendTo_buffers]

theorem captured_appendAt (c : Console τ) {b : Nat} (h : b < c.buffers.length) (text : List Char) (b' : Nat) :
    captured { c with buffers := appendAt c.buffers b text } b' =
      c.captured b' ++ if b = b' then text else [] := by
  by_cases hb : b = b'
  · subst b'
    simp [captured, appendAt, List.getElem?_eq_getElem h]
  · simp [captured, appendAt, hb]

theorem install_active (c : Console τ) : c.install.2.active = c.active + 1 := by
  unfold install
  split <;> rfl

theorem install_ground (c : Console τ) : c.install.2.ground = c.ground := by
  unfold install
  split <;> rfl

theorem release_active (c : Console τ) (i : Nat) : (c.release i).active = c.active - 1 := by
  unfold release
  simp only
  split
  · split <;> rfl
  · rfl

theorem release_ground (c : Console τ) (i : Nat) : (c.release i).ground = c.ground := by
  unfold release
  simp only
  split
  · split <;> rfl
  · rfl

section Routes

variable [DecidableEq τ]

theorem write_active (c : Console τ) (t : τ) (text : List Char) : (c.write t text).active = c.active := by
  unfold write
  split
  · rfl
  · rename_i s _
    obtain ⟨host, others, h⟩ := c.appendTo_eq text s
    rw [h]

theorem write_buffers_length (c : Console τ) (t : τ) (text : List Char) :
    (c.write t text).buffers.length = c.buffers.length := by
  unfold write
  split
  · exact List.length_modify ..
  · rw [appendTo_buffers]

/-- The standard output is the `i`-th router, which stands in for a stream and sends the writes of each thread to
the buffer that `f` names. -/
def Routes (c : Console τ) (i : Nat) (fallback : Stream) (f : τ → Option Nat) : Prop :=
  c.stdout = .router i ∧ ∃ r, c.routers[i]? = some r ∧ r.fallback = fallback ∧ r.bufferOf = f

variable {c : Console τ} {i : Nat} {fallback : Stream} {f : τ → Option Nat}

theorem Routes.of_same {c' : Console τ} (h : c.Routes i fallback f) (hs : c'.stdout = c.stdout)
    (hr : c'.routers = c.routers) : c'.Routes i fallback f := by
  rw [Routes, hs, hr]
  exact h

/-- An installation where the standard output is no router: the new one captures nothing. -/
theorem install_routes (h : ∀ i, c.stdout ≠ .router i) :
    c.install.2.Routes c.install.1 c.stdout fun _ => none := by
  unfold install
  split
  · rename_i i hi
    exact absurd hi (h i)
  · exact ⟨rfl, ⟨c.stdout, []⟩, by simp, rfl, rfl⟩

/-- Otherwise the router is used that is there. -/
theorem Routes.install (h : c.Routes i fallback f) :
    c.install.1 = i ∧ c.install.2.Routes i fallback f := by
  simp only [Console.install, h.1]
  exact ⟨trivial, rfl, h.2⟩

theorem Routes.route (h : c.Routes i fallback f) (t : τ) (buffer : Option Nat) :
    (c.route i t buffer).1 = f t ∧ (c.route i t buffer).2.Routes i fallback (Function.update f t buffer) := by
  obtain ⟨hs, r, hr, hf, rfl⟩ := h
  refine ⟨?_, hs, _, getElem?_modify_self _ hr, hf, r.bufferOf_update t buffer⟩
  rw [Console.route, hr]
  rfl

theorem Routes.target (h : c.Routes i fallback f) (t : τ) : c.target t c.stdout = (f t, fallback) := by
  obtain ⟨hs, r, hr, rfl, rfl⟩ := h
  simp only [Console.target, hs, hr]

/-- What a thread writes for which no buffer is set goes where the router stands in. -/
theorem Routes.write_uncaptured (h : c.Routes i fallback f) {t : τ} (ht : f t = none) (text : List Char) :
    c.write t text = c.appendTo text fallback := by
  rw [Console.write, h.target t, ht]

theorem Routes.write_captured (h : c.Routes i fallback f) {t : τ} {buffer : Nat} (ht : f t = some buffer)
    (text : List Char) : c.write t text = { c with buffers := appendAt c.buffers buffer text } := by
  rw [Console.write, h.target t, ht]

theorem Routes.write (h : c.Routes i fallback f) (t : τ) (text : List Char) :
    (c.write t text).Routes i fallback f :=
  h.of_same (write_stdout ..) (write_routers ..)

/-- The last capture that is counted off puts back what the router stands in for. -/
theorem Routes.release_last (h : c.Routes i fallback f) (hc : c.active = 1) :
    (c.release i).stdout = fallback := by
  obtain ⟨hs, r, hr, rfl, -⟩ := h
  simp [release, hc, hs, hr]

/-- Any other one leaves the router in place. -/
theorem Routes.release (h : c.Routes i fallback f) (hc : c.active ≠ 1) (hpos : 0 < c.active) :
    (c.release i).Routes i fallback f := by
  have hn : ¬ c.active - 1 = 0 := by omega
  simp only [Console.release, hn, decide_false, Bool.false_and, Bool.false_eq_true, if_false]
  exact h.of_same rfl rfl

/-- A write to a stream that is no router goes to this stream. -/
theorem write_eq_appendTo (h : ∀ i, c.stdout ≠ .router i) (t : τ) (text : List Char) :
    c.write t text = c.appendTo text c.stdout := by
  have ht : c.target t c.stdout = (none, c.stdout) := by
    unfold Console.target
    split
    · rename_i i hi
      exact absurd hi (h i)
    · rfl
  rw [write, ht]

end Routes

end Console

end Evalbox
