import Evalbox.Proofs.Capture.Delivery

/-!
# A capture leaves no trace

Whatever threads write while a capture of one of them is open, behind it the console is as if the other threads alone
had written: the standard output and the routes of all threads are back, and the buffers and streams around hold
nothing that the thread of the capture wrote (`capture_untraced`). Inside, the capture holds just that.
-/

namespace Evalbox

/-- What a thread wrote, in order. -/
def writtenBy {τ : Type} [DecidableEq τ] (t : τ) (log : List (τ × List Char)) : List Char :=
  (log.filter (·.1 = t)).flatMap (·.2)

namespace Console

variable {τ : Type} [DecidableEq τ]

/-- Threads write one after the other. -/
def sends (c : Console τ) (log : List (τ × List Char)) : Console τ := log.foldl (fun c e => c.write e.1 e.2) c

theorem sends_append (c : Console τ) (a b : List (τ × List Char)) : c.sends (a ++ b) = (c.sends a).sends b :=
  List.foldl_append ..

/-- Nobody but captures has set the standard output. -/
structure Tidy (c : Console τ) : Prop where
  sound : c.Sound
  /-- It is a router just while captures are open. -/
  captured : (∃ i, c.stdout = .router i) ↔ c.active ≠ 0
  /-- Nothing is routed to a buffer that is not there. -/
  placed : ∀ t b s, c.target t c.stdout = (some b, s) → b < c.buffers.length

/-! ## What a write changes -/

section Writes

variable {c : Console τ} {t : τ}

theorem target_write (c : Console τ) (t t' : τ) (text : List Char) :
    (c.write t text).target t' (c.write t text).stdout = c.target t' c.stdout := by
  rw [write_stdout]
  unfold target
  rw [write_routers]

theorem write_of_buffer {b : Nat} {s : Stream} (h : c.target t c.stdout = (some b, s)) (text : List Char) :
    c.write t text = { c with buffers := appendAt c.buffers b text } := by
  rw [write, h]

theorem write_of_fallback {s : Stream} (h : c.target t c.stdout = (none, s)) (text : List Char) :
    c.write t text = c.appendTo text s := by
  rw [write, h]

theorem sends_active (c : Console τ) (log : List (τ × List Char)) : (c.sends log).active = c.active := by
  induction log generalizing c with
  | nil => rfl
  | cons e log ih => exact (ih _).trans (write_active ..)

theorem Sound.sends (h : c.Sound) (log : List (τ × List Char)) : (c.sends log).Sound := by
  induction log generalizing c with
  | nil => exact h
  | cons e log ih => exact ih (h.write e.1 e.2)

theorem Routes.sends {i : Nat} {fallback : Stream} {f : τ → Option Nat} (h : c.Routes i fallback f)
    (log : List (τ × List Char)) : (c.sends log).Routes i fallback f := by
  induction log generalizing c with
  | nil => exact h
  | cons e log ih => exact ih (h.write e.1 e.2)

end Writes

/-! ## Opening and closing -/

section Capture

variable {c : Console τ} (t : τ)

theorem openCapture_buffers (c : Console τ) : (c.openCapture t).2.buffers = c.buffers ++ [[]] :=
  @install_buffers _ { c with buffers := c.buffers ++ [[]] }

theorem openCapture_active (c : Console τ) : (c.openCapture t).2.active = c.active + 1 :=
  install_active { c with buffers := c.buffers ++ [[]] }

theorem openCapture_ground (c : Console τ) : (c.openCapture t).2.ground = c.ground :=
  install_ground { c with buffers := c.buffers ++ [[]] }

theorem closeCapture_buffers (c : Console τ) (k : Capture) : (c.closeCapture t k).buffers = c.buffers :=
  release_buffers (c.route k.router t k.previous).2 k.router

theorem closeCapture_active (c : Console τ) (k : Capture) : (c.closeCapture t k).active = c.active - 1 :=
  release_active (c.route k.router t k.previous).2 k.router

theorem closeCapture_ground (c : Console τ) (k : Capture) : (c.closeCapture t k).ground = c.ground :=
  release_ground (c.route k.router t k.previous).2 k.router

theorem Tidy.routes (h : c.Tidy) (ha : c.active ≠ 0) : ∃ i fallback f, c.Routes i fallback f := by
  obtain ⟨i, hi⟩ := h.captured.mpr ha
  have hlt : i < c.routers.length := by
    have hn := h.sound.stdout
    rwa [hi] at hn
  exact ⟨i, _, _, hi, c.routers[i], List.getElem?_eq_getElem hlt, rfl, rfl⟩

theorem Tidy.not_router (h : c.Tidy) (ha : c.active = 0) (i : Nat) : c.stdout ≠ .router i :=
  fun hi => h.captured.mp ⟨i, hi⟩ ha

/-- How an open capture routes, where `f` and `fallback` say where writes go without it: the router is the one that is
the standard output, or a new one that stands in for it. -/
theorem openCapture_routes (h : c.Tidy) : ∃ i fallback f,
    (∀ t', c.target t' c.stdout = (f t', fallback)) ∧
    (c.openCapture t).1 = ⟨c.buffers.length, i, f t⟩ ∧
    (c.openCapture t).2.Routes i fallback (Function.update f t (some c.buffers.length)) ∧
    (if c.active = 0 then fallback = c.stdout else c.Routes i fallback f) := by
  let c₁ : Console τ := { c with buffers := c.buffers ++ [[]] }
  by_cases ha : c.active = 0
  · have hn := h.not_router ha
    have htarget : ∀ t', c.target t' c.stdout = (none, c.stdout) := by
      intro t'
      unfold target
      split
      · next i hi => exact absurd hi (hn i)
      · rfl
    have hinstall : c₁.install.2.Routes c₁.install.1 c.stdout fun _ => none := install_routes (c := c₁) hn
    obtain ⟨hprevious, hroutes⟩ := hinstall.route t (some c.buffers.length)
    refine ⟨c₁.install.1, c.stdout, fun _ => none, htarget, ?_, hroutes, by rw [if_pos ha]⟩
    rw [← hprevious]
    rfl
  · obtain ⟨i, fallback, f, hr⟩ := h.routes ha
    have hr₁ : c₁.Routes i fallback f := hr.of_same rfl rfl
    obtain ⟨hi, hinstall⟩ := hr₁.install
    obtain ⟨hprevious, hroutes⟩ := hinstall.route t (some c.buffers.length)
    refine ⟨i, fallback, f, hr.target, ?_, ?_, by rwa [if_neg ha]⟩
    · rw [← hprevious, ← hi]
      rfl
    · rw [← hi] at hroutes ⊢
      exact hroutes

/-- Closing the capture undoes that. -/
theorem closeCapture_routes {d : Console τ} {i b : Nat} {fallback : Stream} {f : τ → Option Nat}
    (hd : d.Routes i fallback (Function.update f t (some b))) (hpos : d.active ≠ 0) :
    if d.active = 1 then (d.closeCapture t ⟨b, i, f t⟩).stdout = fallback
    else (d.closeCapture t ⟨b, i, f t⟩).Routes i fallback f := by
  have hback : (d.route i t (f t)).2.Routes i fallback f := by
    have h := (hd.route t (f t)).2
    rwa [Function.update_idem, Function.update_eq_self] at h
  split
  · next ha => exact hback.release_last ha
  · next ha => exact hback.release ha (Nat.pos_of_ne_zero hpos)

end Capture

/-! ## Two consoles side by side -/

/-- A console with a capture of a thread, to the buffer `b`, beside one without it. The capture holds `text`, and the
consoles agree in whatever lies around. -/
structure Beside (t : τ) (b : Nat) (f : τ → Option Nat) (fallback : Stream) (text : List Char) (d e : Console τ) :
    Prop where
  routed : ∀ t', d.target t' d.stdout = (Function.update f t (some b) t', fallback)
  plain : ∀ t', e.target t' e.stdout = (f t', fallback)
  placed : ∀ t' b', f t' = some b' → b' < b
  last : d.buffers.length = b + 1
  before : e.buffers.length = b
  around : ∀ b' < b, d.captured b' = e.captured b'
  ground : d.ground = e.ground
  text : d.captured b = text

namespace Beside

variable {t : τ} {b : Nat} {f : τ → Option Nat} {fallback : Stream} {text : List Char} {d e : Console τ}

/-- What the thread itself writes arrives in its capture, and nowhere else. -/
theorem write_self (h : Beside t b f fallback text d e) (more : List Char) :
    Beside t b f fallback (text ++ more) (d.write t more) e := by
  have hlt : b < d.buffers.length := by rw [h.last]; omega
  have htarget : d.target t d.stdout = (some b, fallback) := by rw [h.routed, Function.update_self]
  have hw := write_of_buffer htarget more
  refine ⟨fun t' => (target_write ..).trans (h.routed t'), h.plain, h.placed,
    (write_buffers_length ..).trans h.last, h.before, ?_, ?_, ?_⟩
  · intro b' hb'
    rw [hw, captured_appendAt d hlt, if_neg (by omega), List.append_nil]
    exact h.around b' hb'
  · rw [hw]
    exact h.ground
  · rw [hw, captured_appendAt d hlt, if_pos rfl, h.text]

/-- What another thread writes arrives where it would without the capture. -/
theorem write_other (h : Beside t b f fallback text d e) {t' : τ} (hne : t' ≠ t) (more : List Char) :
    Beside t b f fallback text (d.write t' more) (e.write t' more) := by
  have hd := h.routed t'
  have he := h.plain t'
  rw [Function.update_of_ne hne] at hd
  have harrived : (∀ b' < b, (d.write t' more).captured b' = (e.write t' more).captured b') ∧
      (d.write t' more).ground = (e.write t' more).ground ∧ (d.write t' more).captured b = text := by
    cases hf : f t' with
    | none =>
      rw [hf] at hd he
      rw [write_of_fallback hd, write_of_fallback he]
      refine ⟨fun b' hb' => ?_, appendTo_ground h.ground more fallback, ?_⟩
      · rw [captured_appendTo, captured_appendTo, h.around b' hb']
      · rw [captured_appendTo, h.text]
    | some b₁ =>
      rw [hf] at hd he
      have hb₁ : b₁ < b := h.placed t' b₁ hf
      have hlast : b₁ < d.buffers.length := by rw [h.last]; omega
      have hbefore : b₁ < e.buffers.length := by rw [h.before]; omega
      rw [write_of_buffer hd, write_of_buffer he]
      refine ⟨fun b' hb' => ?_, h.ground, ?_⟩
      · rw [captured_appendAt d hlast, captured_appendAt e hbefore, h.around b' hb']
      · rw [captured_appendAt d hlast, if_neg (by omega), List.append_nil, h.text]
  obtain ⟨haround, hground, htext⟩ := harrived
  exact ⟨fun t' => (target_write ..).trans (h.routed t'), fun t' => (target_write ..).trans (h.plain t'), h.placed,
    (write_buffers_length ..).trans h.last, (write_buffers_length ..).trans h.before, haround, hground, htext⟩

theorem sends (h : Beside t b f fallback text d e) (log : List (τ × List Char)) :
    Beside t b f fallback (text ++ writtenBy t log) (d.sends log) (e.sends (log.filter (·.1 ≠ t))) := by
  induction log generalizing text d e with
  | nil =>
    rw [writtenBy, List.filter_nil, List.flatMap_nil, List.append_nil]
    exact h
  | cons entry log ih =>
    obtain ⟨t', more⟩ := entry
    by_cases ht : t' = t
    · subst ht
      have hn := ih (h.write_self more)
      rw [List.append_assoc] at hn
      simpa [writtenBy, Console.sends] using hn
    · have hn := ih (h.write_other ht more)
      simpa [writtenBy, Console.sends, ht] using hn

end Beside

/-! ## The frame of a capture -/

/-- A console behind a capture of a thread, where `c` was in front of it and `log` was written meanwhile. -/
structure Untraced (t : τ) (log : List (τ × List Char)) (c c' : Console τ) : Prop where
  stdout : c'.stdout = c.stdout
  active : c'.active = c.active
  target : ∀ t', c'.target t' c'.stdout = c.target t' c.stdout
  /-- The buffers from before hold what the other threads wrote. -/
  captured : ∀ b < c.buffers.length, c'.captured b = (c.sends (log.filter (·.1 ≠ t))).captured b
  /-- So do the streams that are no routers. -/
  ground : c'.ground = (c.sends (log.filter (·.1 ≠ t))).ground

theorem capture_untraced {c : Console τ} (h : c.Tidy) (t : τ) (log : List (τ × List Char)) :
    ((c.openCapture t).2.sends log).captured (c.openCapture t).1.buffer = writtenBy t log ∧
    Untraced t log c (((c.openCapture t).2.sends log).closeCapture t (c.openCapture t).1) ∧
    (((c.openCapture t).2.sends log).closeCapture t (c.openCapture t).1).Tidy := by
  obtain ⟨i, fallback, f, htarget, hk, hroutes, hstdout⟩ := openCapture_routes t h
  have hbuffers := c.openCapture_buffers t
  have hbeside : Beside t c.buffers.length f fallback [] (c.openCapture t).2 c := by
    refine ⟨hroutes.target, htarget, ?_, by simp [hbuffers], rfl, ?_, c.openCapture_ground t, by simp [captured, hbuffers]⟩
    · intro t' b' hf
      exact h.placed t' b' fallback (by rw [htarget, hf])
    · intro b' hb'
      simp [captured, hbuffers, List.getElem?_append_left hb']
  have hsent := hbeside.sends log
  generalize hd : (c.openCapture t).2.sends log = d at hsent
  have hinside : d.Routes i fallback (Function.update f t (some c.buffers.length)) := hd ▸ hroutes.sends log
  have hactive : d.active = c.active + 1 := by rw [← hd, sends_active, openCapture_active]
  have hsound : d.Sound := hd ▸ (h.sound.openCapture t).sends log
  have hclosed := closeCapture_routes t hinside (by omega)
  rw [← hk] at hclosed
  -- the last capture gives the stream back, any other one leaves the router
  have hback : (d.closeCapture t (c.openCapture t).1).stdout = c.stdout ∧
      ∀ t', (d.closeCapture t (c.openCapture t).1).target t' c.stdout = (f t', fallback) := by
    by_cases ha : c.active = 0
    · rw [if_pos ha] at hstdout
      rw [if_pos (by omega)] at hclosed
      refine ⟨hclosed.trans hstdout, fun t' => ?_⟩
      rw [← htarget t']
      unfold target
      split
      · next j hj => exact absurd hj (h.not_router ha j)
      · rfl
    · rw [if_neg ha] at hstdout
      rw [if_neg (by omega)] at hclosed
      have hs : (d.closeCapture t (c.openCapture t).1).stdout = c.stdout := hclosed.1.trans hstdout.1.symm
      exact ⟨hs, fun t' => hs ▸ hclosed.target t'⟩
  obtain ⟨hs, ht⟩ := hback
  have ha : (d.closeCapture t (c.openCapture t).1).active = c.active := by rw [closeCapture_active]; omega
  have htargets : ∀ t', (d.closeCapture t (c.openCapture t).1).target t'
      (d.closeCapture t (c.openCapture t).1).stdout = c.target t' c.stdout := by
    intro t'
    rw [hs, ht, htarget]
  refine ⟨?_, ⟨hs, ha, htargets, ?_, ?_⟩, ⟨hsound.closeCapture t _, ?_, ?_⟩⟩
  · rw [hk]
    exact hsent.text
  · intro b hb
    rw [captured, closeCapture_buffers]
    exact hsent.around b hb
  · rw [closeCapture_ground]
    exact hsent.ground
  · rw [hs, ha]
    exact h.captured
  · intro t' b s htarget'
    rw [htargets] at htarget'
    have hlt := h.placed t' b s htarget'
    have hlen := hsent.last
    rw [closeCapture_buffers]
    omega

end Console

/-! ## Consoles of many threads -/

namespace Capturing

variable {τ : Type} [DecidableEq τ] {c₀ : Console τ} {s s' : Capturing τ}

theorem Step.sound {t : τ} {e : CaptureStep} (h : Step s t e s') (hs : s.console.Sound) : s'.console.Sound := by
  cases h with
  | install h =>
    have hb : Console.Sound { s.console with buffers := s.console.buffers ++ [[]] } := hs.of_same rfl rfl
    exact hb.install
  | route h => exact hs.route ..
  | write text => exact hs.write ..
  | unroute h => exact hs.route ..
  | release h => exact hs.release _

theorem Run.sound {log : List (Option Nat × List Char)} (h : Run c₀ log s) (h₀ : c₀.Sound) : s.console.Sound := by
  induction h with
  | start => exact h₀
  | step _ hs ih => exact hs.sound ih

/-- Captures of any threads in any order, open or about to be opened or closed, leave a console tidy. -/
theorem Run.tidy {log : List (Option Nat × List Char)} (h : Run c₀ log s) (hs : c₀.Sound)
    (h₀ : ∀ i, c₀.stdout ≠ .router i) (ha : c₀.active = 0) : s.console.Tidy := by
  have hk := h.kept h₀ ha
  refine ⟨h.sound hs, ⟨?_, ?_⟩, ?_⟩
  · rintro ⟨i, hi⟩ hz
    exact h₀ i ((hk.idle hz).symm.trans hi)
  · intro hne
    obtain ⟨i, hr, -⟩ := hk.routed hne
    exact ⟨i, hr.1⟩
  · intro t b fallback ht
    by_cases hz : s.console.active = 0
    · rw [hk.idle hz] at ht
      unfold Console.target at ht
      split at ht
      · next i hi => exact absurd hi (h₀ i)
      · exact nomatch (Prod.mk.inj ht).1
    · obtain ⟨i, hr, -⟩ := hk.routed hz
      rw [hr.target] at ht
      exact hk.innermost_lt (Prod.mk.inj ht).1

end Capturing

end Evalbox
