import Evalbox.Proofs.Capture.Threads

/-!
# Where the writes of many threads arrive

Whatever the order of their steps, the text of a thread that has captures open arrives in the buffer of the innermost
one and nowhere else, and the text of any other thread arrives at the stream that was the standard output before
there were captures.
-/

namespace Evalbox

/-- What was sent to a receiver, in order. -/
def sentTo (receiver : Option Nat) (log : List (Option Nat × List Char)) : List Char :=
  (log.filter (·.1 = receiver)).flatMap (·.2)

theorem sentTo_append (receiver : Option Nat) (a b : List (Option Nat × List Char)) :
    sentTo receiver (a ++ b) = sentTo receiver a ++ sentTo receiver b := by
  simp [sentTo]

theorem sentTo_singleton (receiver receiver' : Option Nat) (text : List Char) :
    sentTo receiver [(receiver', text)] = if receiver' = receiver then text else [] := by
  by_cases h : receiver' = receiver <;> simp [sentTo, h]

/-- Everything that was sent has arrived, in order: in the buffer of the capture to which it belongs, or at the
first standard output. -/
structure Arrived {τ : Type} (c₀ : Console τ) (log : List (Option Nat × List Char)) (c : Console τ) : Prop where
  captured : ∀ b, c.captured b = c₀.captured b ++ sentTo (some b) log
  ground : c.ground = (c₀.appendTo (sentTo none log) c₀.stdout).ground

namespace Arrived

variable {τ : Type} {c₀ c c' : Console τ} {log : List (Option Nat × List Char)}

theorem start : Arrived c₀ [] c₀ where
  captured _ := (List.append_nil _).symm
  ground := (c₀.appendTo_nil_ground c₀.stdout).symm

/-- Steps that are no writes leave what arrived. -/
theorem of_same (h : Arrived c₀ log c) (hc : ∀ b, c'.captured b = c.captured b) (hg : c'.ground = c.ground) :
    Arrived c₀ (log ++ []) c' where
  captured b := by rw [hc, h.captured, List.append_nil]
  ground := by rw [hg, h.ground, List.append_nil]

theorem inside (h : Arrived c₀ log c) {b : Nat} (hb : b < c.buffers.length) (text : List Char) :
    Arrived c₀ (log ++ [(some b, text)]) { c with buffers := appendAt c.buffers b text } where
  captured b' := by
    rw [c.captured_appendAt hb, h.captured, sentTo_append, sentTo_singleton, List.append_assoc]
    simp only [Option.some.injEq]
  ground := by
    rw [sentTo_append, sentTo_singleton, if_neg (Option.some_ne_none b), List.append_nil]
    exact h.ground

theorem outside (h : Arrived c₀ log c) (text : List Char) :
    Arrived c₀ (log ++ [(none, text)]) (c.appendTo text c₀.stdout) where
  captured b := by
    rw [Console.captured_appendTo, h.captured, sentTo_append, sentTo_singleton,
      if_neg (Option.some_ne_none b).symm, List.append_nil]
  ground := by
    rw [Console.appendTo_ground h.ground, Console.appendTo_appendTo_ground, sentTo_append, sentTo_singleton,
      if_pos rfl]

end Arrived

namespace Capturing

variable {τ : Type} [DecidableEq τ] {c₀ : Console τ} {s s' : Capturing τ}

/-- What a thread writes while it has a capture open goes to the buffer of the innermost one. -/
theorem Kept.write_inside (hk : s.Kept c₀) {t : τ} {b : Nat} (hb : s.innermost t = some b) (text : List Char) :
    s.console.write t text = { s.console with buffers := appendAt s.console.buffers b text } := by
  have ha : s.console.active ≠ 0 := fun ha => by
    rw [hk.innermost_idle ha] at hb
    cases hb
  obtain ⟨i, hr, -⟩ := hk.routed ha
  exact hr.write_captured hb text

/-- What it writes while it has none goes where it would go without any captures. -/
theorem Kept.write_outside (hk : s.Kept c₀) (h₀ : ∀ i, c₀.stdout ≠ .router i) {t : τ} (ht : s.innermost t = none)
    (text : List Char) : s.console.write t text = s.console.appendTo text c₀.stdout := by
  by_cases ha : s.console.active = 0
  · rw [← hk.idle ha]
    exact Console.write_eq_appendTo (hk.idle ha ▸ h₀) t text
  · obtain ⟨i, hr, -⟩ := hk.routed ha
    exact hr.write_uncaptured ht text

theorem Kept.innermost_lt (hk : s.Kept c₀) {t : τ} {b : Nat} (hb : s.innermost t = some b) :
    b < s.console.buffers.length :=
  (hk.holding.made t b (CaptureStack.innermost_mem hb)).2

theorem Kept.arrived {log : List (Option Nat × List Char)} (hk : s.Kept c₀) (h₀ : ∀ i, c₀.stdout ≠ .router i)
    (ha : Arrived c₀ log s.console) {t : τ} {e : CaptureStep} (h : Step s t e s') :
    Arrived c₀ (log ++ e.sent (s.innermost t)) s'.console := by
  cases h with
  | install h => exact ha.of_same s.console.captured_begin (Console.install_ground _)
  | route h => exact ha.of_same (fun _ => rfl) rfl
  | write text =>
    change Arrived c₀ (log ++ [(s.innermost t, text)]) (s.console.write t text)
    cases hb : s.innermost t with
    | none =>
      rw [hk.write_outside h₀ hb]
      exact ha.outside text
    | some b =>
      rw [hk.write_inside hb]
      exact ha.inside (hk.innermost_lt hb) text
  | unroute h => exact ha.of_same (fun _ => rfl) rfl
  | release h =>
    refine ha.of_same (fun b => ?_) (Console.release_ground ..)
    rw [set_console, Console.captured, Console.release_buffers]
    rfl

theorem Run.arrived {log : List (Option Nat × List Char)} (h : Run c₀ log s) (h₀ : ∀ i, c₀.stdout ≠ .router i)
    (ha : c₀.active = 0) : Arrived c₀ log s.console := by
  induction h with
  | start => exact .start
  | step hr hs ih => exact (hr.kept h₀ ha).arrived h₀ ih hs

/-- What holds of captures at every moment, where `c₀` is the first console and `log` is what was sent. -/
structure Delivered (c₀ : Console τ) (log : List (Option Nat × List Char)) (s : Capturing τ) : Prop where
  /-- A thread that has a capture open writes to the buffer of the innermost one, and nowhere else. -/
  inside : ∀ t k rest, (s.threads t).opened = k :: rest → ∀ text,
    s.console.write t text = { s.console with buffers := appendAt s.console.buffers k.buffer text }
  /-- A thread that has none open writes to the first standard output. -/
  outside : ∀ t, (s.threads t).opened = [] → ∀ text, s.console.write t text = s.console.appendTo text c₀.stdout
  /-- Everything that was sent has arrived where it belongs, in order. -/
  arrived : Arrived c₀ log s.console
  /-- Every capture has a buffer of its own, which was empty. -/
  own : ∀ t, (s.buffers t).Nodup ∧ ∀ b ∈ s.buffers t, c₀.captured b = [] ∧ ∀ t', b ∈ s.buffers t' → t' = t
  /-- The standard output is the one router of all captures that are counted. -/
  shared : ∀ t, ∀ h ∈ (s.threads t).held, s.console.stdout = .router h.2
  /-- The count is zero just when no thread has a capture, or is about to open or to close one. -/
  counted : s.console.active = 0 ↔ ∀ t, (s.threads t).held = []
  /-- Where no capture is counted the first standard output is back. -/
  restored : s.console.active = 0 → s.console.stdout = c₀.stdout

/-- Whatever threads capture and write, in any order. -/
theorem run_delivered {log : List (Option Nat × List Char)} (h₀ : ∀ i, c₀.stdout ≠ .router i) (ha : c₀.active = 0)
    (h : Run c₀ log s) : s.Delivered c₀ log := by
  have hk := h.kept h₀ ha
  constructor
  case inside =>
    intro t k rest ho text
    exact hk.write_inside (by rw [innermost, CaptureStack.innermost, ho]; rfl) text
  case outside =>
    intro t ho text
    exact hk.write_outside h₀ (by rw [innermost, CaptureStack.innermost, ho]; rfl) text
  case arrived => exact h.arrived h₀ ha
  case own =>
    refine fun t => ⟨hk.holding.nodup t, fun b hb => ⟨?_, fun t' hb' => hk.holding.apart t' t b hb' hb⟩⟩
    rw [Console.captured, List.getElem?_eq_none (hk.holding.made t b hb).1]
    rfl
  case shared => exact fun t h hm => (hk.routes hm).1.1
  case counted =>
    refine ⟨hk.held_idle, fun hn => hk.holding.active_eq_zero fun t => ?_⟩
    exact List.map_eq_nil_iff.mpr (hn t)
  case restored => exact hk.idle

/-- Two threads install before either sets its buffer, and the second one writes in between; the first one opens a
capture inside its first one, which is open when the second thread closes its own. -/
theorem crossing_delivered : ∃ (log : List (Option Nat × List Char)) (s : Capturing Nat),
    Run (.initial .buffer) log s ∧ s.console.buffers = [['a'], ['b'], ['c']] ∧ s.console.host = ['x'] ∧
      s.console.active = 2 ∧ s.Delivered (.initial .buffer) log := by
  have h₁ : Run (.initial .buffer : Console Nat) _ _ := .step (t := 0) .start (.install rfl)
  have h₂ := h₁.step (t := 1) (.install rfl)
  have h₃ := h₂.step (t := 0) (.route rfl)
  have h₄ := h₃.step (.write _ 1 ['x'])
  have h₅ := h₄.step (t := 1) (.route rfl)
  have h₆ := h₅.step (.write _ 0 ['a'])
  have h₇ := h₆.step (.write _ 1 ['b'])
  have h₈ := h₇.step (t := 0) (.install rfl)
  have h₉ := h₈.step (t := 0) (.route rfl)
  have h₁₀ := h₉.step (t := 1) (.unroute rfl)
  have h₁₁ := h₁₀.step (t := 1) (.release rfl)
  have h₁₂ := h₁₁.step (.write _ 0 ['c'])
  exact ⟨_, _, h₁₂, rfl, rfl, rfl, run_delivered (fun i => nofun) rfl h₁₂⟩

end Capturing

end Evalbox
