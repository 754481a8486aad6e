import Evalbox.Proofs.Capture.Routing
import Mathlib.Data.List.Count

/-!
# Captures of many threads

Threads open captures, write, and close their captures innermost first. The steps of opening and closing are apart,
and those of different threads come in any order. While some capture is counted, the standard output is one router,
on which all counted captures were opened and on which the buffer of every thread is that of its innermost open
capture; when none is counted the first standard output is back.
-/

namespace Evalbox

/-- What a thread is about to finish: an opening whose capture is counted and not set, or a closing whose capture
is still counted. -/
inductive CapturePhase where
  | settled
  | opening (buffer router : Nat)
  | closing (capture : Capture)

/-- The captures of a thread: the open ones, innermost first, and the one that is about to be opened or closed. -/
structure CaptureStack where
  opened : List Capture
  phase : CapturePhase

namespace CaptureStack

/-- The buffer of the innermost open capture. -/
def innermost (k : CaptureStack) : Option Nat := k.opened.head?.map (·.buffer)

/-- Buffer and router of the capture that is about to be opened or closed, and of the open ones: all that are
counted. -/
def held : CaptureStack → List (Nat × Nat)
  | ⟨opened, .settled⟩ => opened.map fun k => (k.buffer, k.router)
  | ⟨opened, .opening buffer router⟩ => (buffer, router) :: opened.map fun k => (k.buffer, k.router)
  | ⟨opened, .closing k⟩ => (k :: opened).map fun k => (k.buffer, k.router)

def buffers (k : CaptureStack) : List Nat := k.held.map (·.1)

theorem held_of_opened {s : CaptureStack} {k : Capture} (h : k ∈ s.opened) : (k.buffer, k.router) ∈ s.held := by
  obtain ⟨opened, phase⟩ := s
  have hm : (k.buffer, k.router) ∈ opened.map fun k => (k.buffer, k.router) := List.mem_map.mpr ⟨k, h, rfl⟩
  cases phase with
  | settled => exact hm
  | opening b i => exact List.mem_cons_of_mem _ hm
  | closing k' => exact List.mem_cons_of_mem _ hm

theorem innermost_mem {s : CaptureStack} {b : Nat} (h : s.innermost = some b) : b ∈ s.buffers := by
  obtain ⟨k, hk, rfl⟩ := Option.map_eq_some_iff.mp h
  exact List.mem_map.mpr ⟨_, held_of_opened (List.mem_of_head? hk), rfl⟩

/-- The counted captures were opened on one router. -/
def On (k : CaptureStack) (router : Nat) : Prop := ∀ h ∈ k.held, h.2 = router

end CaptureStack

/-- Every capture remembers the buffer of the one around it. -/
def Nested : List Capture → Prop
  | [] => True
  | k :: rest => k.previous = rest.head?.map (·.buffer) ∧ Nested rest

/-- The buffers of the captures that threads hold, where `active` captures are counted, and the buffers from `old`
to `next` were made for captures. -/
structure Holding {τ : Type} [DecidableEq τ] (active old next : Nat) (held : τ → List Nat) : Prop where
  counted : ∃ holders : List τ, holders.length = active ∧ ∀ t, holders.count t = (held t).length
  made : ∀ t, ∀ b ∈ held t, old ≤ b ∧ b < next
  nodup : ∀ t, (held t).Nodup
  apart : ∀ t t' b, b ∈ held t → b ∈ held t' → t = t'

namespace Holding

variable {τ : Type} [DecidableEq τ] {active old next : Nat} {held : τ → List Nat}

theorem none : Holding 0 old old fun _ : τ => [] where
  counted := ⟨[], rfl, fun _ => rfl⟩
  made _ _ hb := by cases hb
  nodup _ := List.nodup_nil
  apart _ _ _ hb := by cases hb

theorem eq_nil (h : Holding 0 old next held) (t : τ) : held t = [] := by
  obtain ⟨holders, hl, hc⟩ := h.counted
  rw [List.length_eq_zero_iff] at hl
  have ht := hc t
  rw [hl, List.count_nil] at ht
  exact List.length_eq_zero_iff.mp ht.symm

theorem active_pos (h : Holding active old next held) {t : τ} {b : Nat} (hb : b ∈ held t) : 0 < active := by
  refine Nat.pos_of_ne_zero fun ha => ?_
  subst active
  rw [h.eq_nil t] at hb
  cases hb

theorem active_eq_zero (h : Holding active old next held) (hn : ∀ t, held t = []) : active = 0 := by
  obtain ⟨holders, rfl, hc⟩ := h.counted
  refine List.length_eq_zero_iff.mpr (List.eq_nil_iff_forall_not_mem.mpr fun t ht => ?_)
  have hp := List.count_pos_iff.mpr ht
  rw [hc, hn] at hp
  cases hp

/-- A thread takes a new buffer. -/
theorem push (h : Holding active old next held) (hn : old ≤ next) (t : τ) :
    Holding (active + 1) old (next + 1) (Function.update held t (next :: held t)) := by
  have hnew : ∀ t', next ∉ held t' := fun t' hm => Nat.lt_irrefl _ (h.made t' next hm).2
  -- what a thread holds now is the new buffer, or was held by it before
  have hmem : ∀ t' b, b ∈ Function.update held t (next :: held t) t' → (t' = t ∧ b = next) ∨ b ∈ held t' := by
    intro t' b hb
    by_cases ht : t' = t
    · subst t'
      rw [Function.update_self] at hb
      exact (List.mem_cons.mp hb).imp (fun hb => ⟨rfl, hb⟩) id
    · rw [Function.update_of_ne ht] at hb
      exact .inr hb
  constructor
  case counted =>
    obtain ⟨holders, hl, hc⟩ := h.counted
    refine ⟨t :: holders, by rw [List.length_cons, hl], fun t' => ?_⟩
    by_cases ht : t' = t
    · subst t'
      rw [List.count_cons_self, hc, Function.update_self, List.length_cons]
    · rw [List.count_cons_of_ne (Ne.symm ht), hc, Function.update_of_ne ht]
  case made =>
    intro t' b hb
    rcases hmem t' b hb with ⟨-, rfl⟩ | hb
    · exact ⟨hn, Nat.lt_succ_self _⟩
    · exact ⟨(h.made t' b hb).1, Nat.lt_succ_of_lt (h.made t' b hb).2⟩
  case nodup =>
    refine (Function.forall_update_iff held fun _ bs => bs.Nodup).mpr ⟨?_, fun t' _ => h.nodup t'⟩
    exact List.nodup_cons.mpr ⟨hnew t, h.nodup t⟩
  case apart =>
    intro t₁ t₂ b h₁ h₂
    rcases hmem t₁ b h₁ with ⟨h₁, hb⟩ | h₁ <;> rcases hmem t₂ b h₂ with ⟨h₂, hb'⟩ | h₂
    · exact h₁.trans h₂.symm
    · exact absurd (hb ▸ h₂) (hnew t₂)
    · exact absurd (hb' ▸ h₁) (hnew t₁)
    · exact h.apart t₁ t₂ b h₁ h₂

/-- A thread gives up the buffer that it took last. -/
theorem pop (h : Holding active old next held) {t : τ} {b : Nat} {rest : List Nat} (ht : held t = b :: rest) :
    Holding (active - 1) old next (Function.update held t rest) := by
  have hmem : ∀ t' b, b ∈ Function.update held t rest t' → b ∈ held t' := by
    intro t' b' hb
    by_cases hne : t' = t
    · subst t'
      rw [Function.update_self] at hb
      exact ht ▸ List.mem_cons_of_mem _ hb
    · rwa [Function.update_of_ne hne] at hb
  constructor
  case counted =>
    obtain ⟨holders, hl, hc⟩ := h.counted
    have hin : t ∈ holders := by
      rw [← List.count_pos_iff, hc, ht]
      exact Nat.succ_pos _
    refine ⟨holders.erase t, by rw [List.length_erase_of_mem hin, hl], fun t' => ?_⟩
    by_cases hne : t' = t
    · subst t'
      rw [List.count_erase_self, hc, ht, Function.update_self, List.length_cons, Nat.add_sub_cancel]
    · rw [List.count_erase_of_ne hne, hc, Function.update_of_ne hne]
  case made => exact fun t' b' hb => h.made t' b' (hmem t' b' hb)
  case nodup =>
    refine (Function.forall_update_iff held fun _ bs => bs.Nodup).mpr ⟨?_, fun t' _ => h.nodup t'⟩
    exact (List.nodup_cons.mp (ht ▸ h.nodup t)).2
  case apart => exact fun t₁ t₂ b' h₁ h₂ => h.apart t₁ t₂ b' (hmem t₁ b' h₁) (hmem t₂ b' h₂)

end Holding

/-- A console, and the captures of all threads. -/
structure Capturing (τ : Type) where
  console : Console τ
  threads : τ → CaptureStack

/-- What a thread does: a step of opening a capture, of closing one, or a write. -/
inductive CaptureStep where
  | install
  | route
  | write (text : List Char)
  | unroute
  | release

/-- What a step sends, beside the buffer of the capture to which it belongs. -/
def CaptureStep.sent (receiver : Option Nat) : CaptureStep → List (Option Nat × List Char)
  | .write text => [(receiver, text)]
  | _ => []

/-- The first step of opening a capture: a new buffer, a router as the standard output, and the count. -/
def Console.begin {τ : Type} (c : Console τ) : Nat × Console τ :=
  { c with buffers := c.buffers ++ [[]] }.install

/-- Beginning a capture adds one buffer and counts one. -/
theorem Console.begin_counts {τ : Type} (c : Console τ) :
    c.begin.2.buffers.length = c.buffers.length + 1 ∧ c.begin.2.active = c.active + 1 := by
  constructor
  · rw [begin, install_buffers, List.length_append, List.length_singleton]
  · exact install_active _

/-- A new buffer is empty. -/
theorem Console.captured_begin {τ : Type} (c : Console τ) (b : Nat) : c.begin.2.captured b = c.captured b := by
  rw [captured, begin, install_buffers, captured, List.getElem?_append]
  split
  · rfl
  · rename_i hb
    rw [List.getElem?_eq_none (Nat.le_of_not_lt hb)]
    cases hn : b - c.buffers.length <;> rfl

namespace Capturing

variable {τ : Type} [DecidableEq τ]

/-- No thread has a capture. -/
def start (c : Console τ) : Capturing τ := ⟨c, fun _ => ⟨[], .settled⟩⟩

/-- The buffer of the innermost open capture of each thread. -/
def innermost (s : Capturing τ) : τ → Option Nat := fun t => (s.threads t).innermost

/-- The buffers of the captures of each thread that are counted. -/
def buffers (s : Capturing τ) : τ → List Nat := fun t => (s.threads t).buffers

/-- Another console, and other captures of one thread. -/
def set (s : Capturing τ) (t : τ) (c : Console τ) (k : CaptureStack) : Capturing τ :=
  ⟨c, Function.update s.threads t k⟩

/-- A step of a thread. It may write at any time, also while it opens or closes a capture. -/
inductive Step : Capturing τ → τ → CaptureStep → Capturing τ → Prop
  | install {s : Capturing τ} {t : τ} {opened : List Capture} (h : s.threads t = ⟨opened, .settled⟩) :
    Step s t .install (s.set t s.console.begin.2 ⟨opened, .opening s.console.buffers.length s.console.begin.1⟩)
  | route {s : Capturing τ} {t : τ} {opened : List Capture} {b i : Nat}
      (h : s.threads t = ⟨opened, .opening b i⟩) :
    Step s t .route (s.set t (s.console.route i t (some b)).2
      ⟨⟨b, i, (s.console.route i t (some b)).1⟩ :: opened, .settled⟩)
  | write (s : Capturing τ) (t : τ) (text : List Char) :
    Step s t (.write text) { s with console := s.console.write t text }
  | unroute {s : Capturing τ} {t : τ} {k : Capture} {rest : List Capture}
      (h : s.threads t = ⟨k :: rest, .settled⟩) :
    Step s t .unroute (s.set t (s.console.route k.router t k.previous).2 ⟨rest, .closing k⟩)
  | release {s : Capturing τ} {t : τ} {opened : List Capture} {k : Capture}
      (h : s.threads t = ⟨opened, .closing k⟩) :
    Step s t .release (s.set t (s.console.release k.router) ⟨opened, .settled⟩)

/-- What comes of steps of threads, in any order, with what they sent. -/
inductive Run (c₀ : Console τ) : List (Option Nat × List Char) → Capturing τ → Prop
  | start : Run c₀ [] (start c₀)
  | step {log : List (Option Nat × List Char)} {s s' : Capturing τ} {t : τ} {e : CaptureStep} :
    Run c₀ log s → Step s t e s' → Run c₀ (log ++ e.sent (s.innermost t)) s'

section Set

variable (s : Capturing τ) (t : τ) (c : Console τ) (k : CaptureStack)

theorem set_console : (s.set t c k).console = c := rfl

theorem set_threads_self : (s.set t c k).threads t = k := Function.update_self ..

theorem innermost_set : (s.set t c k).innermost = Function.update s.innermost t k.innermost :=
  Function.comp_update CaptureStack.innermost s.threads t k

theorem buffers_set : (s.set t c k).buffers = Function.update s.buffers t k.buffers :=
  Function.comp_update CaptureStack.buffers s.threads t k

variable {s t k}

/-- What is said of the captures of each thread has to be shown for one thread only. -/
theorem forall_set {p : CaptureStack → Prop} (h : ∀ t, p (s.threads t)) (hk : p k) (t' : τ) :
    p ((s.set t c k).threads t') :=
  (Function.forall_update_iff s.threads fun _ => p).mpr ⟨hk, fun t' _ => h t'⟩ t'

theorem innermost_set_of_eq (h : k.innermost = (s.threads t).innermost) :
    (s.set t c k).innermost = s.innermost := by
  rw [innermost_set, h]
  exact Function.update_eq_self t s.innermost

theorem buffers_set_of_eq (h : k.buffers = (s.threads t).buffers) : (s.set t c k).buffers = s.buffers := by
  rw [buffers_set, h]
  exact Function.update_eq_self t s.buffers

end Set

/-- The steps of opening a capture, if no other step comes between them, are its opening. -/
theorem opening_eq {s s₁ s₂ : Capturing τ} {t : τ} {opened : List Capture}
    (hs : s.threads t = ⟨opened, .settled⟩) (h₁ : Step s t .install s₁) (h₂ : Step s₁ t .route s₂) :
    s₂.console = (s.console.openCapture t).2 ∧
      s₂.threads t = ⟨(s.console.openCapture t).1 :: opened, .settled⟩ := by
  cases h₁ with
  | install h =>
    obtain ⟨rfl, -⟩ := CaptureStack.mk.inj (hs.symm.trans h)
    cases h₂ with
    | route h =>
      obtain ⟨rfl, hp⟩ := CaptureStack.mk.inj ((set_threads_self ..).symm.trans h)
      obtain ⟨rfl, rfl⟩ := CapturePhase.opening.inj hp
      exact ⟨rfl, set_threads_self ..⟩

/-- The steps of closing a capture, if no other step comes between them, are its closing. -/
theorem closing_eq {s s₁ s₂ : Capturing τ} {t : τ} {k : Capture} {rest : List Capture}
    (hs : s.threads t = ⟨k :: rest, .settled⟩) (h₁ : Step s t .unroute s₁) (h₂ : Step s₁ t .release s₂) :
    s₂.console = s.console.closeCapture t k ∧ s₂.threads t = ⟨rest, .settled⟩ := by
  cases h₁ with
  | unroute h =>
    obtain ⟨ho, -⟩ := CaptureStack.mk.inj (hs.symm.trans h)
    obtain ⟨rfl, rfl⟩ := List.cons.inj ho
    cases h₂ with
    | release h =>
      obtain ⟨rfl, hp⟩ := CaptureStack.mk.inj ((set_threads_self ..).symm.trans h)
      obtain rfl := CapturePhase.closing.inj hp
      exact ⟨rfl, set_threads_self ..⟩

/-- What every step keeps, where the first console is `c₀`. -/
structure Kept (c₀ : Console τ) (s : Capturing τ) : Prop where
  length_le : c₀.buffers.length ≤ s.console.buffers.length
  holding : Holding s.console.active c₀.buffers.length s.console.buffers.length s.buffers
  nested : ∀ t, Nested (s.threads t).opened
  idle : s.console.active = 0 → s.console.stdout = c₀.stdout
  routed : s.console.active ≠ 0 → ∃ i, s.console.Routes i c₀.stdout s.innermost ∧
    ∀ t, (s.threads t).On i

variable {c₀ : Console τ} {s s' : Capturing τ}

theorem start_kept (h : c₀.active = 0) : (start c₀).Kept c₀ where
  length_le := Nat.le_refl _
  holding := h ▸ Holding.none
  nested _ := trivial
  idle _ := rfl
  routed ha := absurd h ha

/-- The counter is not zero where a thread holds a capture. -/
theorem Kept.active_pos (hk : s.Kept c₀) {t : τ} {h : Nat × Nat} (hm : h ∈ (s.threads t).held) :
    0 < s.console.active :=
  hk.holding.active_pos (t := t) (List.mem_map_of_mem hm)

theorem Kept.held_idle (hk : s.Kept c₀) (ha : s.console.active = 0) (t : τ) : (s.threads t).held = [] :=
  List.map_eq_nil_iff.mp (Holding.eq_nil (ha ▸ hk.holding) t)

/-- Where no capture is counted, none is open. -/
theorem Kept.innermost_idle (hk : s.Kept c₀) (ha : s.console.active = 0) : s.innermost = fun _ => none := by
  funext t
  refine Option.eq_none_iff_forall_ne_some.mpr fun b hb => ?_
  have hm := CaptureStack.innermost_mem hb
  rw [CaptureStack.buffers, hk.held_idle ha t] at hm
  cases hm

/-- The captures are opened on the router that is the standard output. -/
theorem Kept.routes (hk : s.Kept c₀) {t : τ} {h : Nat × Nat} (hm : h ∈ (s.threads t).held) :
    s.console.Routes h.2 c₀.stdout s.innermost ∧ ∀ t, (s.threads t).On h.2 := by
  obtain ⟨i, hi, hs⟩ := hk.routed (Nat.ne_of_gt (hk.active_pos hm))
  obtain rfl := hs t h hm
  exact ⟨hi, hs⟩

/-- Whether a router has to be made or is there, an installation answers the router of all captures. -/
theorem Kept.begin (hk : s.Kept c₀) (h₀ : ∀ i, c₀.stdout ≠ .router i) :
    s.console.begin.2.Routes s.console.begin.1 c₀.stdout s.innermost ∧
      ∀ t, (s.threads t).On s.console.begin.1 := by
  by_cases ha : s.console.active = 0
  · constructor
    · rw [hk.innermost_idle ha, ← hk.idle ha]
      exact Console.install_routes (hk.idle ha ▸ h₀)
    · intro t h hm
      rw [hk.held_idle ha t] at hm
      cases hm
  · obtain ⟨i, hi, hs⟩ := hk.routed ha
    have hi' : Console.Routes { s.console with buffers := s.console.buffers ++ [[]] } i c₀.stdout s.innermost :=
      hi.of_same rfl rfl
    obtain ⟨hb, hr⟩ := hi'.install
    rw [Console.begin, hb]
    exact ⟨hr, hs⟩

theorem Kept.install (hk : s.Kept c₀) (h₀ : ∀ i, c₀.stdout ≠ .router i) {t : τ} {opened : List Capture}
    (h : s.threads t = ⟨opened, .settled⟩) :
    (s.set t s.console.begin.2 ⟨opened, .opening s.console.buffers.length s.console.begin.1⟩).Kept c₀ := by
  obtain ⟨hb, ha⟩ := s.console.begin_counts
  constructor
  case length_le =>
    rw [set_console, hb]
    exact Nat.le_add_right_of_le hk.length_le
  case holding =>
    rw [set_console, ha, hb, buffers_set]
    have hp := hk.holding.push hk.length_le t
    rw [buffers, h] at hp
    exact hp
  case nested =>
    refine forall_set (p := fun k => Nested k.opened) _ hk.nested ?_
    have hn := hk.nested t
    rwa [h] at hn
  case idle =>
    rw [set_console, ha]
    exact fun hz => absurd hz (Nat.succ_ne_zero _)
  case routed =>
    obtain ⟨hr, hs⟩ := hk.begin h₀
    refine fun _ => ⟨s.console.begin.1, ?_, forall_set (p := (·.On s.console.begin.1)) _ hs ?_⟩
    · rw [set_console, innermost_set_of_eq _ (by rw [h]; rfl)]
      exact hr
    · have hp := hs t
      rw [h] at hp
      exact List.forall_mem_cons.mpr ⟨rfl, hp⟩

theorem Kept.route (hk : s.Kept c₀) {t : τ} {opened : List Capture} {b i : Nat}
    (h : s.threads t = ⟨opened, .opening b i⟩) :
    (s.set t (s.console.route i t (some b)).2
      ⟨⟨b, i, (s.console.route i t (some b)).1⟩ :: opened, .settled⟩).Kept c₀ := by
  have hm : (b, i) ∈ (s.threads t).held := by
    rw [h]
    exact List.mem_cons_self
  obtain ⟨hr, hs⟩ := hk.routes hm
  obtain ⟨hb, hr⟩ := hr.route t (some b)
  constructor
  case length_le => exact hk.length_le
  case holding =>
    rw [buffers_set_of_eq _ (by rw [h]; rfl)]
    exact hk.holding
  case nested =>
    refine forall_set (p := fun k => Nested k.opened) _ hk.nested ⟨?_, ?_⟩
    · rw [hb, innermost, h]
      rfl
    · have hn := hk.nested t
      rwa [h] at hn
  case idle => exact hk.idle
  case routed =>
    refine fun _ => ⟨i, ?_, forall_set (p := (·.On i)) _ hs ?_⟩
    · rw [set_console, innermost_set]
      exact hr
    · have hp := hs t
      rw [h] at hp
      exact hp

theorem Kept.write (hk : s.Kept c₀) (t : τ) (text : List Char) :
    Kept c₀ { s with console := s.console.write t text } := by
  have hb := s.console.write_buffers_length t text
  constructor
  case length_le => exact hb ▸ hk.length_le
  case holding =>
    change Holding (s.console.write t text).active _ (s.console.write t text).buffers.length _
    rw [hb, Console.write_active]
    exact hk.holding
  case nested => exact hk.nested
  case idle =>
    change (s.console.write t text).active = 0 → (s.console.write t text).stdout = _
    rw [Console.write_active, Console.write_stdout]
    exact hk.idle
  case routed =>
    change (s.console.write t text).active ≠ 0 → _
    rw [Console.write_active]
    intro ha
    obtain ⟨i, hr, hs⟩ := hk.routed ha
    exact ⟨i, hr.write t text, hs⟩

theorem Kept.unroute (hk : s.Kept c₀) {t : τ} {k : Capture} {rest : List Capture}
    (h : s.threads t = ⟨k :: rest, .settled⟩) :
    (s.set t (s.console.route k.router t k.previous).2 ⟨rest, .closing k⟩).Kept c₀ := by
  have hm : (k.buffer, k.router) ∈ (s.threads t).held := by
    rw [h]
    exact List.mem_cons_self
  obtain ⟨hr, hs⟩ := hk.routes hm
  have hn := hk.nested t
  rw [h] at hn
  constructor
  case length_le => exact hk.length_le
  case holding =>
    rw [buffers_set_of_eq _ (by rw [h]; rfl)]
    exact hk.holding
  case nested => exact forall_set (p := fun k => Nested k.opened) _ hk.nested hn.2
  case idle => exact hk.idle
  case routed =>
    refine fun _ => ⟨k.router, ?_, forall_set (p := (·.On k.router)) _ hs ?_⟩
    · rw [set_console, innermost_set, hn.1]
      exact (hr.route t _).2
    · have hp := hs t
      rw [h] at hp
      exact hp

theorem Kept.release (hk : s.Kept c₀) {t : τ} {opened : List Capture} {k : Capture}
    (h : s.threads t = ⟨opened, .closing k⟩) :
    (s.set t (s.console.release k.router) ⟨opened, .settled⟩).Kept c₀ := by
  have hm : (k.buffer, k.router) ∈ (s.threads t).held := by
    rw [h]
    exact List.mem_cons_self
  have hpos := hk.active_pos hm
  obtain ⟨hr, hs⟩ := hk.routes hm
  constructor
  case length_le =>
    rw [set_console, Console.release_buffers]
    exact hk.length_le
  case holding =>
    rw [set_console, Console.release_active, Console.release_buffers, buffers_set]
    exact hk.holding.pop (b := k.buffer) (congrArg CaptureStack.buffers h)
  case nested =>
    refine forall_set (p := fun k => Nested k.opened) _ hk.nested ?_
    have hn := hk.nested t
    rwa [h] at hn
  case idle =>
    rw [set_console, Console.release_active]
    exact fun hz => hr.release_last (by omega)
  case routed =>
    rw [set_console, Console.release_active, innermost_set_of_eq _ (by rw [h]; rfl)]
    refine fun hne => ⟨k.router, hr.release (by omega) hpos, forall_set (p := (·.On k.router)) _ hs ?_⟩
    have hp := hs t
    rw [h] at hp
    exact (List.forall_mem_cons.mp hp).2

/-- Every step of every thread. -/
theorem Kept.step (hk : s.Kept c₀) (h₀ : ∀ i, c₀.stdout ≠ .router i) {t : τ} {e : CaptureStep} (h : Step s t e s') :
    s'.Kept c₀ := by
  cases h with
  | install h => exact hk.install h₀ h
  | route h => exact hk.route h
  | write text => exact hk.write t text
  | unroute h => exact hk.unroute h
  | release h => exact hk.release h

theorem Run.kept {log : List (Option Nat × List Char)} (h : Run c₀ log s) (h₀ : ∀ i, c₀.stdout ≠ .router i)
    (ha : c₀.active = 0) : s.Kept c₀ := by
  induction h with
  | start => exact start_kept ha
  | step _ hs ih => exact ih.step h₀ hs

end Capturing

end Evalbox
