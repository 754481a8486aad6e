import Evalbox.Proofs.Capture.Threads

/-!
# Replacing the standard output while it is captured

The host may assign a stream of its own to the standard output at any time, also while captures are open. The next
capture is then opened on a new router, and one count serves the captures on all routers. The capture that is counted
off last puts back what its own router stands in for, and only where this router is the standard output.

When no capture is open the stream that the host assigned last is back, except where a capture was begun since and
the capture that ended last had been begun before (`run_returned`). A router is left behind then (`nested_overtaken`),
but it stands in for that stream and hands everything on to it.
-/

namespace Evalbox

namespace Console

section Views

variable {τ : Type}

/-- The buffer that is set for a thread on a router. -/
def bufferOn [DecidableEq τ] (c : Console τ) (i : Nat) (t : τ) : Option Nat := (c.routers[i]?).bind (·.bufferOf t)

/-- The stream that a router stands in for. -/
def fallbackOf (c : Console τ) (i : Nat) : Option Stream := (c.routers[i]?).map (·.fallback)

theorem fallbackOf_lt {c : Console τ} {i : Nat} {f : Stream} (h : c.fallbackOf i = some f) :
    i < c.routers.length := by
  obtain ⟨r, hr, -⟩ := Option.map_eq_some_iff.mp h
  exact (List.getElem?_eq_some_iff.mp hr).1

/-- A capture is begun on the router that is there, or on a new one, behind all others. -/
theorem begin_cases (c : Console τ) :
    (∃ i, c.stdout = .router i ∧
      c.begin = (i, { c with buffers := c.buffers ++ [[]], active := c.active + 1 })) ∨
    ((∀ i, c.stdout ≠ .router i) ∧ c.begin = (c.routers.length,
      { c with
        buffers := c.buffers ++ [[]], active := c.active + 1
        stdout := .router c.routers.length, routers := c.routers ++ [⟨c.stdout, []⟩] })) := by
  cases hs : c.stdout with
  | router i => exact .inl ⟨i, rfl, by simp only [begin, install, hs]⟩
  | host => exact .inr ⟨fun i hi => (by cases hi), by simp only [begin, install, hs]⟩
  | other i => exact .inr ⟨fun i hi => (by cases hi), by simp only [begin, install, hs]⟩

/-- A new router has no buffers set. -/
theorem bufferOn_begin [DecidableEq τ] (c : Console τ) : c.begin.2.bufferOn = c.bufferOn := by
  funext i t
  rcases c.begin_cases with ⟨_, -, hb⟩ | ⟨-, hb⟩
  · rw [hb]
    rfl
  · rw [hb, bufferOn, bufferOn, List.getElem?_append]
    split
    · rfl
    · rename_i hi
      rw [List.getElem?_eq_none (Nat.le_of_not_lt hi)]
      cases i - c.routers.length <;> rfl

/-- Setting a buffer answers the one that was set before, and changes it for one thread on one router. -/
theorem bufferOn_route [DecidableEq τ] (c : Console τ) {i : Nat} (hi : i < c.routers.length) (t : τ)
    (buffer : Option Nat) (j : Nat) :
    (c.route i t buffer).2.bufferOn j =
      if j = i then Function.update (c.bufferOn i) t buffer else c.bufferOn j := by
  by_cases hj : j = i
  · subst j
    have hr : c.routers[i]? = some c.routers[i] := List.getElem?_eq_getElem hi
    have hold : c.bufferOn i = c.routers[i].bufferOf := by
      funext t'
      rw [bufferOn, hr, Option.bind_some]
    rw [if_pos rfl, hold, ← Router.bufferOf_update]
    funext t'
    simp only [bufferOn, route, getElem?_modify_self _ hr, Option.bind_some]
  · rw [if_neg hj]
    funext t'
    simp only [bufferOn, route, List.getElem?_modify, Ne.symm hj, if_false, Option.map_eq_map, Option.map_id']

theorem fallbackOf_route [BEq τ] (c : Console τ) (i : Nat) (t : τ) (buffer : Option Nat) (j : Nat) :
    (c.route i t buffer).2.fallbackOf j = c.fallbackOf j := by
  simp only [fallbackOf, route, List.getElem?_modify]
  cases c.routers[j]? with
  | none => rfl
  | some r => by_cases hj : i = j <;> simp [hj]

theorem release_routers (c : Console τ) (i : Nat) : (c.release i).routers = c.routers := by
  unfold release
  simp only
  split
  · split <;> rfl
  · rfl

theorem bufferOn_release [DecidableEq τ] (c : Console τ) (i : Nat) : (c.release i).bufferOn = c.bufferOn := by
  funext j t
  rw [bufferOn, bufferOn, release_routers]

theorem fallbackOf_release (c : Console τ) (i : Nat) : (c.release i).fallbackOf = c.fallbackOf := by
  funext j
  rw [fallbackOf, fallbackOf, release_routers]

/-- Unless the last capture is counted off, and this where its router is, the standard output stays. -/
theorem release_stdout (c : Console τ) (i : Nat) : (c.release i).stdout =
    if c.active - 1 = 0 ∧ c.stdout = .router i then (c.fallbackOf i).getD c.stdout else c.stdout := by
  unfold release fallbackOf
  by_cases h : c.active - 1 = 0 ∧ c.stdout = .router i
  · rw [if_pos h]
    simp only [h.1, h.2, decide_true, Bool.and_self, if_true]
    cases c.routers[i]? <;> rfl
  · rw [if_neg h]
    have hb : (decide (c.active - 1 = 0) && decide (c.stdout = .router i)) = false := by
      simpa using h
    simp only [hb, Bool.false_eq_true, if_false]

/-- What is written to a router goes to the buffer of the thread, or to what the router stands in for. -/
theorem write_router [DecidableEq τ] {c : Console τ} {i : Nat} {f : Stream} (hs : c.stdout = .router i)
    (hf : c.fallbackOf i = some f) {t : τ} (ht : c.bufferOn i t = none) (text : List Char) :
    c.write t text = c.appendTo text f := by
  obtain ⟨r, hr, rfl⟩ := Option.map_eq_some_iff.mp hf
  rw [bufferOn, hr, Option.bind_some] at ht
  have htarget : c.target t c.stdout = (none, r.fallback) := by
    simp only [target, hs, hr, ht]
  rw [write, htarget]

end Views

/-- The host assigns a stream of its own to the standard output: a new one, its first one, or one that it made
before. -/
inductive Assigns {τ : Type} (c : Console τ) : Stream → Console τ → Prop
  | replace : Assigns c (.other c.others.length) c.replace
  | restore : Assigns c .host c.restore
  | again {i : Nat} (hi : i < c.others.length) : Assigns c (.other i) { c with stdout := .other i }

/-- Nothing that has to do with captures is changed but the standard output. -/
theorem Assigns.frame {τ : Type} {c c' : Console τ} {f : Stream} (h : c.Assigns f c') :
    c'.stdout = f ∧ (∀ i, f ≠ .router i) ∧ c'.routers = c.routers ∧ c'.buffers = c.buffers ∧ c'.active = c.active := by
  cases h with
  | replace => exact ⟨rfl, fun i hi => (by cases hi), rfl, rfl, rfl⟩
  | restore => exact ⟨rfl, fun i hi => (by cases hi), rfl, rfl, rfl⟩
  | again hi => exact ⟨rfl, fun i hi => (by cases hi), rfl, rfl, rfl⟩

end Console

/-- The buffer of the innermost of these captures that was opened on a router. -/
def innermostAmong (i : Nat) (ks : List Capture) : Option Nat := (ks.find? (·.router = i)).map (·.buffer)

theorem innermostAmong_cons (i : Nat) (k : Capture) (ks : List Capture) :
    innermostAmong i (k :: ks) = if i = k.router then some k.buffer else innermostAmong i ks := by
  by_cases h : i = k.router
  · simp [innermostAmong, h]
  · simp [innermostAmong, h, Ne.symm h]

/-- Every capture remembers the buffer of the one around it on the same router. -/
def NestedOn : List Capture → Prop
  | [] => True
  | k :: rest => k.previous = innermostAmong k.router rest ∧ NestedOn rest

/-- What the host did to the standard output, and what was captured since: the stream that it assigned last, how
many captures had been begun before that, and the capture that ended last. Captures are known by their buffers, which
are numbered as they are begun. -/
structure Replacement where
  stream : Stream
  begun : Nat
  ended : Option Nat

namespace Replacement

/-- A thread that has these captures takes a step. -/
def note (r : Replacement) (k : CaptureStack) : CaptureStep → Replacement
  | .release => { r with ended := k.buffers.head? }
  | _ => r

/-- Of `begun` captures in all, some were begun after the assignment, and the one that ended last was begun
before it. -/
def Overtaken (r : Replacement) (begun : Nat) : Prop := r.begun < begun ∧ ∃ b, r.ended = some b ∧ b < r.begun

end Replacement

namespace Capturing

variable {τ : Type} [DecidableEq τ]

/-- The buffer of the innermost capture that each thread opened on a router. -/
def innermostOn (s : Capturing τ) (i : Nat) : τ → Option Nat := fun t => innermostAmong i (s.threads t).opened

theorem innermostOn_set (s : Capturing τ) (t : τ) (c : Console τ) (k : CaptureStack) (i : Nat) :
    (s.set t c k).innermostOn i = Function.update (s.innermostOn i) t (innermostAmong i k.opened) :=
  Function.comp_update (fun k : CaptureStack => innermostAmong i k.opened) s.threads t k

theorem innermostOn_set_of_eq {s : Capturing τ} {t : τ} {k : CaptureStack} (c : Console τ)
    (h : k.opened = (s.threads t).opened) (i : Nat) : (s.set t c k).innermostOn i = s.innermostOn i := by
  rw [innermostOn_set, h]
  exact Function.update_eq_self t (s.innermostOn i)

/-- What is said of everything that is held has to be shown for one thread only. -/
theorem forall_held_set {s : Capturing τ} {t : τ} {c : Console τ} {k : CaptureStack} {p : Nat × Nat → Prop}
    (h : ∀ t, ∀ h ∈ (s.threads t).held, p h) (hk : ∀ h ∈ k.held, p h) :
    ∀ t', ∀ h ∈ ((s.set t c k).threads t').held, p h :=
  forall_set (p := fun k => ∀ h ∈ k.held, p h) c h hk

/-- What comes of steps of threads and of assignments of the host, in any order. -/
inductive HostRun (c₀ : Console τ) : Replacement → Capturing τ → Prop
  | start : HostRun c₀ ⟨c₀.stdout, c₀.buffers.length, none⟩ (start c₀)
  | step {r : Replacement} {s s' : Capturing τ} {t : τ} {e : CaptureStep} :
    HostRun c₀ r s → Step s t e s' → HostRun c₀ (r.note (s.threads t) e) s'
  | assign {r : Replacement} {s : Capturing τ} {f : Stream} {c : Console τ} : HostRun c₀ r s → s.console.Assigns f c →
    HostRun c₀ { r with stream := f, begun := s.console.buffers.length } { s with console := c }

/-- What steps and assignments keep, where the first console is `c₀`. -/
structure Tended (c₀ : Console τ) (r : Replacement) (s : Capturing τ) : Prop where
  buffers_le : c₀.buffers.length ≤ s.console.buffers.length
  routers_le : c₀.routers.length ≤ s.console.routers.length
  begun_le : r.begun ≤ s.console.buffers.length
  own : ∀ i, r.stream ≠ .router i
  holding : Holding s.console.active c₀.buffers.length s.console.buffers.length s.buffers
  /-- Captures are opened on routers that were made for them. -/
  known : ∀ t, ∀ h ∈ (s.threads t).held, c₀.routers.length ≤ h.2 ∧ h.2 < s.console.routers.length
  /-- The standard output is what the host assigned, or a router that stands in for it. -/
  stands : s.console.stdout = r.stream ∨
    ∃ i, c₀.routers.length ≤ i ∧ s.console.stdout = .router i ∧ s.console.fallbackOf i = some r.stream
  /-- The captures that were begun after the assignment are those on the router that is the standard output. -/
  placed : ∀ t, ∀ h ∈ (s.threads t).held, r.begun ≤ h.1 ↔ s.console.stdout = .router h.2
  busy : s.console.active ≠ 0 → (s.console.stdout = r.stream ↔ r.begun = s.console.buffers.length)
  idle : s.console.active = 0 → (s.console.stdout = r.stream ↔ ¬ r.Overtaken s.console.buffers.length)
  nested : ∀ t, NestedOn (s.threads t).opened
  /-- Every router has the buffer of the innermost capture that a thread opened on it. -/
  routed : ∀ i, c₀.routers.length ≤ i → s.console.bufferOn i = s.innermostOn i

variable {c₀ : Console τ} {r : Replacement} {s s' : Capturing τ}

theorem start_tended (h₀ : ∀ i, c₀.stdout ≠ .router i) (ha : c₀.active = 0) :
    Tended c₀ ⟨c₀.stdout, c₀.buffers.length, none⟩ (start c₀) where
  buffers_le := Nat.le_refl _
  routers_le := Nat.le_refl _
  begun_le := Nat.le_refl _
  own := h₀
  holding := ha ▸ Holding.none
  known _ _ hm := by cases hm
  stands := .inl rfl
  placed _ _ hm := by cases hm
  busy hne := absurd ha hne
  idle _ := ⟨fun _ ho => absurd ho.1 (Nat.lt_irrefl _), fun _ => rfl⟩
  nested _ := trivial
  routed i hi := by
    funext t
    change (c₀.routers[i]?).bind _ = _
    rw [List.getElem?_eq_none hi]
    rfl

namespace Tended

theorem active_pos (hk : s.Tended c₀ r) {t : τ} {h : Nat × Nat} (hm : h ∈ (s.threads t).held) :
    0 < s.console.active :=
  hk.holding.active_pos (t := t) (List.mem_map_of_mem hm)

/-- Where the standard output is no router, it is what the host assigned. -/
theorem stdout_eq (hk : s.Tended c₀ r) (h : ∀ i, s.console.stdout ≠ .router i) : s.console.stdout = r.stream := by
  rcases hk.stands with hs | ⟨i, -, hs, -⟩
  · exact hs
  · exact absurd hs (h i)

/-- Where it is a router, this was made for captures and stands in for what the host assigned. -/
theorem fallback_eq (hk : s.Tended c₀ r) {i : Nat} (h : s.console.stdout = .router i) :
    c₀.routers.length ≤ i ∧ s.console.fallbackOf i = some r.stream := by
  rcases hk.stands with hs | ⟨j, hj, hs, hf⟩
  · exact absurd (hs.symm.trans h) (hk.own i)
  · obtain rfl := Stream.router.inj (hs.symm.trans h)
    exact ⟨hj, hf⟩

/-- A capture is begun on a router that stands in for what the host assigned, and on which are just the captures that
were begun since. -/
theorem begin (hk : s.Tended c₀ r) :
    s.console.begin.2.stdout = .router s.console.begin.1 ∧
      s.console.begin.2.fallbackOf s.console.begin.1 = some r.stream ∧
      c₀.routers.length ≤ s.console.begin.1 ∧
      s.console.routers.length ≤ s.console.begin.2.routers.length ∧
      ∀ t, ∀ h ∈ (s.threads t).held, r.begun ≤ h.1 ↔ s.console.begin.1 = h.2 := by
  rcases s.console.begin_cases with ⟨i, hs, hb⟩ | ⟨hs, hb⟩
  · obtain ⟨hi, hf⟩ := hk.fallback_eq hs
    rw [hb]
    refine ⟨hs, hf, hi, Nat.le_refl _, fun t h hm => ?_⟩
    rw [hk.placed t h hm, hs]
    exact Stream.router.injEq .. ▸ Iff.rfl
  · rw [hb]
    refine ⟨rfl, ?_, hk.routers_le, ?_, fun t h hm => iff_of_false ?_ ?_⟩
    · rw [← hk.stdout_eq hs]
      simp [Console.fallbackOf]
    · simp
    · exact fun hle => hs h.2 ((hk.placed t h hm).mp hle)
    · exact fun he => absurd (hk.known t h hm).2 (Nat.not_lt.mpr (Nat.le_of_eq he))

theorem install (hk : s.Tended c₀ r) {t : τ} {opened : List Capture} (h : s.threads t = ⟨opened, .settled⟩) :
    (s.set t s.console.begin.2 ⟨opened, .opening s.console.buffers.length s.console.begin.1⟩).Tended c₀ r := by
  obtain ⟨hs, hf, hi, hle, hp⟩ := hk.begin
  obtain ⟨hb, ha⟩ := s.console.begin_counts
  constructor
  case buffers_le =>
    rw [set_console, hb]
    exact Nat.le_succ_of_le hk.buffers_le
  case routers_le => exact Nat.le_trans hk.routers_le hle
  case begun_le =>
    rw [set_console, hb]
    exact Nat.le_succ_of_le hk.begun_le
  case own => exact hk.own
  case holding =>
    rw [set_console, ha, hb, buffers_set]
    have hpush := hk.holding.push hk.buffers_le t
    rw [buffers, h] at hpush
    exact hpush
  case known =>
    refine forall_held_set (fun t h hm => ?_) ?_
    · exact ⟨(hk.known t h hm).1, Nat.lt_of_lt_of_le (hk.known t h hm).2 hle⟩
    · refine List.forall_mem_cons.mpr ⟨⟨hi, Console.fallbackOf_lt hf⟩, fun h' hm => ?_⟩
      have hm : h' ∈ (s.threads t).held := h ▸ hm
      exact ⟨(hk.known t h' hm).1, Nat.lt_of_lt_of_le (hk.known t h' hm).2 hle⟩
  case stands => exact .inr ⟨_, hi, hs, hf⟩
  case placed =>
    rw [set_console, hs]
    simp only [Stream.router.injEq]
    refine forall_held_set hp ?_
    exact List.forall_mem_cons.mpr ⟨iff_of_true hk.begun_le rfl, fun h' hm => hp t h' (h ▸ hm)⟩
  case busy =>
    rw [set_console, hs, hb]
    refine fun _ => iff_of_false (fun he => hk.own _ he.symm) fun he => ?_
    exact absurd hk.begun_le (by omega)
  case idle =>
    rw [set_console, ha]
    exact fun hz => absurd hz (Nat.succ_ne_zero _)
  case nested =>
    refine forall_set (p := fun k => NestedOn k.opened) _ hk.nested ?_
    have hn := hk.nested t
    rwa [h] at hn
  case routed =>
    intro i hi
    rw [set_console, Console.bufferOn_begin, hk.routed i hi, innermostOn_set_of_eq _ (by rw [h])]

/-- A thread sets a buffer on a router, and the innermost capture that it has there changes likewise. -/
theorem routed_set (hk : s.Tended c₀ r) {t : τ} {k : CaptureStack} {i : Nat} {buffer : Option Nat}
    (hi : i < s.console.routers.length)
    (ho : ∀ j, innermostAmong j k.opened = if j = i then buffer else s.innermostOn j t) {j : Nat}
    (hj : c₀.routers.length ≤ j) :
    (s.console.route i t buffer).2.bufferOn j = (s.set t (s.console.route i t buffer).2 k).innermostOn j := by
  rw [Console.bufferOn_route _ hi, innermostOn_set, ho]
  by_cases hji : j = i
  · subst j
    rw [if_pos rfl, if_pos rfl, hk.routed i hj]
  · rw [if_neg hji, if_neg hji, hk.routed j hj]
    exact (Function.update_eq_self t (s.innermostOn j)).symm

/-- Setting a buffer changes neither what is held nor the streams. -/
theorem route_set (hk : s.Tended c₀ r) {t : τ} {k : CaptureStack} {i : Nat} {buffer : Option Nat}
    (hh : k.held = (s.threads t).held) (hi : i < s.console.routers.length) (hn : NestedOn k.opened)
    (ho : ∀ j, innermostAmong j k.opened = if j = i then buffer else s.innermostOn j t) :
    (s.set t (s.console.route i t buffer).2 k).Tended c₀ r := by
  have hl : (s.console.route i t buffer).2.routers.length = s.console.routers.length := Console.route_length ..
  constructor
  case buffers_le => exact hk.buffers_le
  case routers_le =>
    rw [set_console, hl]
    exact hk.routers_le
  case begun_le => exact hk.begun_le
  case own => exact hk.own
  case holding =>
    rw [buffers_set_of_eq _ (congrArg (List.map Prod.fst) hh)]
    exact hk.holding
  case known =>
    rw [set_console, hl]
    exact forall_held_set hk.known (hh ▸ hk.known t)
  case stands =>
    refine hk.stands.imp id fun hs => ?_
    obtain ⟨i', hi', hs, hf⟩ := hs
    exact ⟨i', hi', hs, (Console.fallbackOf_route ..).trans hf⟩
  case placed => exact forall_held_set hk.placed (hh ▸ hk.placed t)
  case busy => exact hk.busy
  case idle => exact hk.idle
  case nested => exact forall_set (p := fun k => NestedOn k.opened) _ hk.nested hn
  case routed => exact fun j hj => hk.routed_set hi ho hj

theorem route (hk : s.Tended c₀ r) {t : τ} {opened : List Capture} {b i : Nat}
    (h : s.threads t = ⟨opened, .opening b i⟩) :
    (s.set t (s.console.route i t (some b)).2
      ⟨⟨b, i, (s.console.route i t (some b)).1⟩ :: opened, .settled⟩).Tended c₀ r := by
  have hm : (b, i) ∈ (s.threads t).held := by
    rw [h]
    exact List.mem_cons_self
  obtain ⟨hi, hlt⟩ := hk.known t _ hm
  refine hk.route_set (by rw [h]; rfl) hlt ⟨?_, ?_⟩ fun j => ?_
  · have hb : s.console.bufferOn i t = s.innermostOn i t := congrFun (hk.routed i hi) t
    rw [innermostOn, h] at hb
    exact hb
  · have hn := hk.nested t
    rwa [h] at hn
  · rw [innermostAmong_cons, innermostOn, h]

theorem unroute (hk : s.Tended c₀ r) {t : τ} {k : Capture} {rest : List Capture}
    (h : s.threads t = ⟨k :: rest, .settled⟩) :
    (s.set t (s.console.route k.router t k.previous).2 ⟨rest, .closing k⟩).Tended c₀ r := by
  have hm : (k.buffer, k.router) ∈ (s.threads t).held := by
    rw [h]
    exact List.mem_cons_self
  have hn := hk.nested t
  rw [h] at hn
  refine hk.route_set (by rw [h]; rfl) (hk.known t _ hm).2 hn.2 fun j => ?_
  rw [innermostOn, h, innermostAmong_cons]
  by_cases hj : j = k.router
  · subst j
    rw [if_pos rfl, hn.1]
  · rw [if_neg hj, if_neg hj]

/-- Counting off a capture that was begun after the assignment puts back what was assigned if it is the last one,
and leaves the standard output otherwise; counting off an earlier one leaves it. -/
theorem release_stdout (hk : s.Tended c₀ r) {t : τ} {h : Nat × Nat} (hm : h ∈ (s.threads t).held) :
    (s.console.release h.2).stdout =
      if s.console.active - 1 = 0 ∧ r.begun ≤ h.1 then r.stream else s.console.stdout := by
  rw [Console.release_stdout]
  simp only [← hk.placed t h hm]
  by_cases hc : s.console.active - 1 = 0 ∧ r.begun ≤ h.1
  · rw [if_pos hc, if_pos hc, (hk.fallback_eq ((hk.placed t h hm).mp hc.2)).2]
    rfl
  · rw [if_neg hc, if_neg hc]

theorem release (hk : s.Tended c₀ r) {t : τ} {opened : List Capture} {k : Capture}
    (h : s.threads t = ⟨opened, .closing k⟩) :
    (s.set t (s.console.release k.router) ⟨opened, .settled⟩).Tended c₀ (r.note (s.threads t) .release) := by
  have hm : (k.buffer, k.router) ∈ (s.threads t).held := by
    rw [h]
    exact List.mem_cons_self
  have hpos := hk.active_pos hm
  have hout := hk.release_stdout hm
  have hpop := hk.holding.pop (b := k.buffer) (congrArg CaptureStack.buffers h)
  have hrest : ∀ h' ∈ (⟨opened, .settled⟩ : CaptureStack).held, h' ∈ (s.threads t).held := fun h' hm => by
    rw [h]
    exact List.mem_cons_of_mem _ hm
  constructor
  case buffers_le =>
    rw [set_console, Console.release_buffers]
    exact hk.buffers_le
  case routers_le =>
    rw [set_console, Console.release_routers]
    exact hk.routers_le
  case begun_le =>
    rw [set_console, Console.release_buffers]
    exact hk.begun_le
  case own => exact hk.own
  case holding =>
    rw [set_console, Console.release_active, Console.release_buffers, buffers_set]
    exact hpop
  case known =>
    rw [set_console, Console.release_routers]
    exact forall_held_set hk.known fun h' hm => hk.known t h' (hrest h' hm)
  case stands =>
    rw [set_console, hout, Console.fallbackOf_release]
    split
    · exact .inl rfl
    · exact hk.stands
  case placed =>
    by_cases hz : s.console.active - 1 = 0
    · -- nothing is held any more
      intro t' h' hm'
      have hnil : (s.set t (s.console.release k.router) ⟨opened, .settled⟩).buffers t' = [] := by
        rw [buffers_set]
        exact Holding.eq_nil (hz ▸ hpop) t'
      rw [List.map_eq_nil_iff.mp hnil] at hm'
      cases hm'
    · rw [set_console, hout, if_neg (fun hc => hz hc.1)]
      exact forall_held_set hk.placed fun h' hm => hk.placed t h' (hrest h' hm)
  case busy =>
    rw [set_console, hout, Console.release_active, Console.release_buffers]
    intro hne
    rw [if_neg (fun hc => hne hc.1)]
    exact hk.busy (Nat.ne_of_gt hpos)
  case idle =>
    rw [set_console, hout, Console.release_active, Console.release_buffers]
    intro hz
    have hbusy := hk.busy (Nat.ne_of_gt hpos)
    have hle := hk.begun_le
    have ho : (r.note (s.threads t) .release).Overtaken s.console.buffers.length ↔
        r.begun < s.console.buffers.length ∧ k.buffer < r.begun := by
      rw [h]
      simp [Replacement.Overtaken, Replacement.note, CaptureStack.buffers, CaptureStack.held]
    rw [ho]
    by_cases hb : r.begun ≤ k.buffer
    · rw [if_pos ⟨hz, hb⟩]
      exact iff_of_true rfl fun ho => absurd hb (Nat.not_le.mpr ho.2)
    · -- an earlier capture leaves what there was before it ended
      rw [if_neg fun hc => hb hc.2]
      exact hbusy.trans (by omega)
  case nested =>
    refine forall_set (p := fun k => NestedOn k.opened) _ hk.nested ?_
    have hn := hk.nested t
    rwa [h] at hn
  case routed =>
    intro i hi
    rw [set_console, Console.bufferOn_release, hk.routed i hi, innermostOn_set_of_eq _ (by rw [h])]

theorem write (hk : s.Tended c₀ r) (t : τ) (text : List Char) :
    Tended c₀ r { s with console := s.console.write t text } := by
  have hb : (s.console.write t text).buffers.length = s.console.buffers.length := Console.write_buffers_length ..
  have ha : (s.console.write t text).active = s.console.active := Console.write_active ..
  have hr : (s.console.write t text).routers = s.console.routers := Console.write_routers ..
  have hs : (s.console.write t text).stdout = s.console.stdout := Console.write_stdout ..
  constructor
  case buffers_le => exact hb ▸ hk.buffers_le
  case routers_le => exact hr ▸ hk.routers_le
  case begun_le => exact hb ▸ hk.begun_le
  case own => exact hk.own
  case holding =>
    simp only [ha, hb]
    exact hk.holding
  case known =>
    simp only [hr]
    exact hk.known
  case stands =>
    simp only [hs, Console.fallbackOf, hr]
    exact hk.stands
  case placed =>
    simp only [hs]
    exact hk.placed
  case busy =>
    simp only [hs, ha, hb]
    exact hk.busy
  case idle =>
    simp only [hs, ha, hb]
    exact hk.idle
  case nested => exact hk.nested
  case routed =>
    intro i hi
    funext t'
    rw [Console.bufferOn, hr]
    exact congrFun (hk.routed i hi) t'

/-- Every step of every thread. -/
theorem step (hk : s.Tended c₀ r) {t : τ} {e : CaptureStep} (h : Step s t e s') :
    s'.Tended c₀ (r.note (s.threads t) e) := by
  cases h with
  | install h => exact hk.install h
  | route h => exact hk.route h
  | write text => exact hk.write t text
  | unroute h => exact hk.unroute h
  | release h => exact hk.release h

/-- The captures that are open now belong to the streams before. -/
theorem assign (hk : s.Tended c₀ r) {f : Stream} {c : Console τ} (h : s.console.Assigns f c) :
    Tended c₀ { r with stream := f, begun := s.console.buffers.length } { s with console := c } := by
  obtain ⟨hs, hf, hr, hb, ha⟩ := h.frame
  constructor
  case buffers_le => exact hb ▸ hk.buffers_le
  case routers_le => exact hr ▸ hk.routers_le
  case begun_le => exact Nat.le_of_eq (congrArg List.length hb.symm)
  case own => exact hf
  case holding =>
    simp only [ha, hb]
    exact hk.holding
  case known =>
    simp only [hr]
    exact hk.known
  case stands => exact .inl hs
  case placed =>
    intro t h hm
    have hmade := hk.holding.made t h.1 (List.mem_map_of_mem hm)
    exact iff_of_false (Nat.not_le.mpr hmade.2) fun he => hf _ (hs.symm.trans he)
  case busy => exact fun _ => iff_of_true hs (congrArg List.length hb.symm)
  case idle =>
    refine fun _ => iff_of_true hs fun ho => ?_
    exact absurd ho.1 (Nat.not_lt.mpr (Nat.le_of_eq (congrArg List.length hb)))
  case nested => exact hk.nested
  case routed =>
    intro i hi
    funext t
    rw [Console.bufferOn, hr]
    exact congrFun (hk.routed i hi) t

end Tended

theorem HostRun.tended (h : HostRun c₀ r s) (h₀ : ∀ i, c₀.stdout ≠ .router i) (ha : c₀.active = 0) :
    s.Tended c₀ r := by
  induction h with
  | start => exact start_tended h₀ ha
  | step _ hs ih => exact ih.step hs
  | assign _ hc ih => exact ih.assign hc

/-- What is left of captures when none is open. -/
structure Returned (r : Replacement) (s : Capturing τ) : Prop where
  /-- What the host assigned last is back, unless an earlier capture ended after the others. -/
  returned : s.console.stdout = r.stream ↔ ¬ r.Overtaken s.console.buffers.length
  /-- Otherwise a router that stands in for it is left. -/
  left : s.console.stdout ≠ r.stream → ∃ i, s.console.stdout = .router i ∧ s.console.fallbackOf i = some r.stream
  /-- Either way every write arrives at what the host assigned last. -/
  arrives : ∀ t text, s.console.write t text = s.console.appendTo text r.stream

end Capturing

end Evalbox
