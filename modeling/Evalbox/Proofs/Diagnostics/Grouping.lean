import Evalbox.Diagnostics.Basic
import Mathlib.Data.List.Basic
import Mathlib.Data.List.Induction

/-!
# Grouped diagnostics

A report holds, for each severity, the messages of that severity in report order. So a severity occurs as
a key exactly if a message of it was reported, which is also how a collector looks for errors. The keys stand in the
order in which the severities were first reported, and no message is lost or counted twice (`Report.Partitions`).
-/

namespace Evalbox

namespace Report

/-- The severities that a report has groups for, in order. -/
def keys (r : Report) : List Severity := r.map (·.1)

/-- The lengths of the groups of a report, added up. -/
def size : Report → Nat
  | [] => 0
  | g :: rest => g.2.length + size rest

@[simp] theorem keys_cons (g : Severity × List Diagnostic) (r : Report) : keys (g :: r) = g.1 :: keys r := rfl

@[simp] theorem size_cons (g : Severity × List Diagnostic) (r : Report) : size (g :: r) = g.2.length + size r := rfl

theorem mem_keys {r : Report} {s : Severity} : s ∈ r.keys ↔ r.mentions s = true := by
  simp [keys, mentions]

theorem mentions_add (r : Report) (s t : Severity) (d : Diagnostic) :
    (r.add s d).mentions t = (r.mentions t || decide (s = t)) := by
  induction r with
  | nil => simp [add, mentions]
  | cons g rest ih =>
    obtain ⟨k, ds⟩ := g
    unfold add
    by_cases hk : k = s
    · subst k
      by_cases ht : s = t <;> simp [mentions, ht]
    · rw [if_neg hk]
      simp only [mentions, List.any_cons] at ih ⊢
      rw [ih, Bool.or_assoc]

theorem ofSeverity_add (r : Report) (s t : Severity) (d : Diagnostic) :
    (r.add s d).ofSeverity t = r.ofSeverity t ++ if s = t then [d] else [] := by
  induction r with
  | nil =>
    by_cases h : s = t
    · simp [add, ofSeverity, h]
    · have h' : (t == s) = false := by simpa using Ne.symm h
      simp [add, ofSeverity, List.lookup_cons, h, h']
  | cons g rest ih =>
    obtain ⟨k, ds⟩ := g
    unfold add
    by_cases hk : k = s
    · subst k
      by_cases ht : s = t
      · simp [ofSeverity, ht]
      · have h' : (t == s) = false := by simpa using Ne.symm ht
        simp [ofSeverity, List.lookup_cons, ht, h']
    · rw [if_neg hk]
      by_cases ht : t = k
      · subst k
        have hs : ¬ s = t := fun he => hk he.symm
        simp [ofSeverity, hs]
      · have h' : (t == k) = false := by simpa using ht
        simpa only [ofSeverity, List.lookup_cons, h'] using ih

/-- A new key comes last. -/
theorem keys_add (r : Report) (s : Severity) (d : Diagnostic) :
    (r.add s d).keys = if s ∈ r.keys then r.keys else r.keys ++ [s] := by
  induction r with
  | nil => rfl
  | cons g rest ih =>
    obtain ⟨k, ds⟩ := g
    unfold add
    by_cases hk : k = s
    · simp [hk]
    · simp only [if_neg hk, keys_cons, ih, List.mem_cons, Ne.symm hk, false_or]
      split <;> rfl

theorem size_add (r : Report) (s : Severity) (d : Diagnostic) : (r.add s d).size = r.size + 1 := by
  induction r with
  | nil => rfl
  | cons g rest ih =>
    obtain ⟨k, ds⟩ := g
    unfold add
    split
    · simp only [size_cons, List.length_append, List.length_singleton]
      omega
    · rw [size_cons, size_cons, ih, Nat.add_assoc]

/-- Where keys are not repeated, a group is what is found under its key. -/
theorem ofSeverity_of_mem {r : Report} {s : Severity} {ds : List Diagnostic} (hn : r.keys.Nodup)
    (h : (s, ds) ∈ r) : r.ofSeverity s = ds := by
  induction r with
  | nil => cases h
  | cons g rest ih =>
    obtain ⟨k, es⟩ := g
    obtain ⟨hk, hrest⟩ := List.nodup_cons.mp hn
    rcases List.mem_cons.mp h with he | h
    · cases he
      simp [ofSeverity]
    · have hs : s ≠ k := fun he => hk (he ▸ List.mem_map.mpr ⟨_, h, rfl⟩)
      have hfind := ih hrest h
      simpa only [ofSeverity, List.lookup_cons, beq_false_of_ne hs] using hfind

/-- A severity is a key of a report exactly if a message of it was reported. -/
theorem mentions_ofMessages (ms : List Message) (source : List Char) (t : Severity) :
    (ofMessages ms source).mentions t = ms.any (·.severity = t) := by
  have h : ∀ r : Report, (ms.foldl (fun r m => r.add m.severity (m.diagnose source)) r).mentions t =
      (r.mentions t || ms.any (·.severity = t)) := by
    induction ms with
    | nil => simp
    | cons m ms ih =>
      intro r
      rw [List.foldl_cons, ih, mentions_add, List.any_cons, Bool.or_assoc]
  simpa [ofMessages, mentions] using h []

/-- The group of a severity holds its messages in report order. -/
theorem ofSeverity_ofMessages (ms : List Message) (source : List Char) (t : Severity) :
    (ofMessages ms source).ofSeverity t = (ms.filter (·.severity = t)).map (·.diagnose source) := by
  have h : ∀ r : Report, (ms.foldl (fun r m => r.add m.severity (m.diagnose source)) r).ofSeverity t =
      r.ofSeverity t ++ (ms.filter (·.severity = t)).map (·.diagnose source) := by
    induction ms with
    | nil => simp
    | cons m ms ih =>
      intro r
      rw [List.foldl_cons, ih, ofSeverity_add, List.append_assoc]
      by_cases hm : m.severity = t <;> simp [hm]
  simpa [ofMessages, ofSeverity] using h []

theorem errors_ne_nil {ms : List Message} {source : List Char}
    (h : (ofMessages ms source).mentions .error = true) : (ofMessages ms source).errors ≠ [] := by
  rw [mentions_ofMessages, List.any_eq_true] at h
  obtain ⟨m, hm, hs⟩ := h
  rw [errors, ofSeverity_ofMessages]
  have hf : m ∈ ms.filter (·.severity = .error) := List.mem_filter.mpr ⟨hm, hs⟩
  exact fun hn => List.ne_nil_of_mem hf (List.map_eq_nil_iff.mp hn)

/-! ## The partition -/

/-- A report holds each of some messages, with its place in the source, in the group of its severity. -/
structure Partitions (r : Report) (ms : List Message) (source : List Char) : Prop where
  key_iff : ∀ s, s ∈ r.keys ↔ ∃ m ∈ ms, m.severity = s
  /-- Keys stand in the order of the first message of each severity, and so none stands twice. -/
  ordered : r.keys.Pairwise fun s t => (ms.map Message.severity).idxOf s < (ms.map Message.severity).idxOf t
  group : ∀ s ds, (s, ds) ∈ r →
    ds = (ms.filter (·.severity = s)).map fun m => ⟨m.text, m.position? source⟩
  size_eq : r.size = ms.length

theorem ofMessages_concat (ms : List Message) (m : Message) (source : List Char) :
    ofMessages (ms ++ [m]) source = (ofMessages ms source).add m.severity (m.diagnose source) := by
  simp [ofMessages]

theorem size_ofMessages (ms : List Message) (source : List Char) : (ofMessages ms source).size = ms.length := by
  induction ms using List.reverseRecOn with
  | nil => rfl
  | append_singleton ms m ih => rw [ofMessages_concat, size_add, ih, List.length_append, List.length_singleton]

theorem mem_keys_ofMessages {ms : List Message} {source : List Char} {s : Severity} :
    s ∈ (ofMessages ms source).keys ↔ s ∈ ms.map Message.severity := by
  rw [mem_keys, mentions_ofMessages]
  simp

/-- One more message does not change where a severity was first seen, and a severity that is new is seen behind all
others. -/
theorem keys_ordered (ms : List Message) (source : List Char) : (ofMessages ms source).keys.Pairwise
    fun s t => (ms.map Message.severity).idxOf s < (ms.map Message.severity).idxOf t := by
  induction ms using List.reverseRecOn with
  | nil => exact .nil
  | append_singleton ms m ih =>
    have hold : (ofMessages ms source).keys.Pairwise fun s t =>
        ((ms ++ [m]).map Message.severity).idxOf s < ((ms ++ [m]).map Message.severity).idxOf t := by
      refine ih.imp_of_mem fun hs ht hlt => ?_
      rw [List.map_append, List.idxOf_append_of_mem (mem_keys_ofMessages.mp hs),
        List.idxOf_append_of_mem (mem_keys_ofMessages.mp ht)]
      exact hlt
    rw [ofMessages_concat, keys_add]
    split
    · exact hold
    · next hnew =>
      refine List.pairwise_append.mpr ⟨hold, List.pairwise_singleton .., fun s hs t ht => ?_⟩
      obtain rfl := List.mem_singleton.mp ht
      rw [List.map_append, List.idxOf_append_of_mem (mem_keys_ofMessages.mp hs),
        List.idxOf_append_of_notMem fun h => hnew (mem_keys_ofMessages.mpr h)]
      exact Nat.lt_add_right _ (List.idxOf_lt_length_of_mem (mem_keys_ofMessages.mp hs))

theorem ofMessages_partitions (ms : List Message) (source : List Char) :
    (ofMessages ms source).Partitions ms source where
  key_iff s := by rw [mem_keys_ofMessages, List.mem_map]
  ordered := keys_ordered ms source
  group s ds h := by
    have hnodup : (ofMessages ms source).keys.Nodup := (keys_ordered ms source).imp fun hlt he => by
      rw [he] at hlt
      exact Nat.lt_irrefl _ hlt
    rw [← ofSeverity_of_mem hnodup h, ofSeverity_ofMessages]
    rfl
  size_eq := size_ofMessages ms source

end Report

namespace Collector

theorem messages_foldl_report (ms : List Message) (c : Collector) :
    (ms.foldl report c).messages = c.messages ++ ms := by
  induction ms generalizing c with
  | nil => simp
  | cons m ms ih => rw [List.foldl_cons, ih]; simp [report]

/-- A collector has errors exactly if the report of its messages mentions them. -/
theorem hasErrors_eq_mentions (c : Collector) (source : List Char) :
    c.hasErrors = (Report.ofMessages c.messages source).mentions .error := by
  rw [Report.mentions_ofMessages, hasErrors]

/-- What is done with a collector. -/
inductive Step where
  | report (m : Message)
  | reset
  deriving DecidableEq, Repr

def step (c : Collector) : Step → Collector
  | .report m => c.report m
  | .reset => c.reset

/-- A collector after some steps, new at first. -/
def run (steps : List Step) : Collector := steps.foldl step {}

/-- These messages were reported since the last reset, or since the beginning if there was none. -/
def Since (steps : List Step) (ms : List Message) : Prop :=
  ∃ before, steps = before ++ ms.map .report ∧ (before = [] ∨ before.getLast? = some .reset)

theorem exists_since (steps : List Step) : ∃ ms, Since steps ms := by
  induction steps using List.reverseRecOn with
  | nil => exact ⟨[], [], rfl, .inl rfl⟩
  | append_singleton steps s ih =>
    cases s with
    | report m =>
      obtain ⟨ms, before, rfl, hb⟩ := ih
      exact ⟨ms ++ [m], before, by simp, hb⟩
    | reset => exact ⟨[], steps ++ [.reset], by simp, .inr (by simp)⟩

theorem Since.messages_eq {steps : List Step} {ms : List Message} (h : Since steps ms) : (run steps).messages = ms := by
  obtain ⟨before, rfl, hb⟩ := h
  have hreports : ∀ c : Collector, (ms.map Step.report).foldl step c = ms.foldl report c := fun c => by
    rw [List.foldl_map]
    rfl
  have hbefore : (run before).messages = [] := by
    rcases hb with rfl | hb
    · rfl
    · obtain ⟨earlier, rfl⟩ := List.getLast?_eq_some_iff.mp hb
      rw [run, List.foldl_append]
      rfl
  rw [run, List.foldl_append, hreports, messages_foldl_report, ← run, hbefore, List.nil_append]

theorem since_iff {steps : List Step} {ms : List Message} : Since steps ms ↔ ms = (run steps).messages := by
  constructor
  · exact fun h => h.messages_eq.symm
  · rintro rfl
    obtain ⟨ms, h⟩ := exists_since steps
    rwa [h.messages_eq]

/-- Messages are partitioned by severity, in order, and after all that was done with a collector it has errors exactly
if the report of what was reported since the last reset has a group for them. -/
theorem grouping_exact :
    (∀ (ms : List Message) (source : List Char), (Report.ofMessages ms source).Partitions ms source) ∧
    (∀ (steps : List Step), (∀ ms, Since steps ms ↔ ms = (run steps).messages) ∧
      ∀ source : List Char, (run steps).hasErrors = true ↔
        .error ∈ (Report.ofMessages (run steps).messages source).keys) := by
  refine ⟨Report.ofMessages_partitions, fun steps => ⟨fun _ => since_iff, fun source => ?_⟩⟩
  rw [hasErrors_eq_mentions _ source, Report.mem_keys]

end Collector

end Evalbox
