import Evalbox.Proofs.Compile.Target
import Mathlib.Data.List.Induction
import Mathlib.Logic.Function.Basic

/-!
# Targets that share the lines of sources

Any number of engines store units into their targets and clear them, while the lines of all units are known in one
place. Units are numbered for all engines together, so that none has the filename of another, and each goes into one
target only. Hence targets and lines agree behind every event.
-/

namespace Evalbox

/-- Names that come one after the other are kept once each, at their first place. -/
theorem eraseDups_concat (l : List String) (name : String) :
    (l ++ [name]).eraseDups = if name ∈ l.eraseDups then l.eraseDups else l.eraseDups ++ [name] := by
  simp only [List.eraseDups_append, List.mem_eraseDups]
  by_cases h : name ∈ l <;> simp [List.removeAll, List.eraseDups_cons, h]

theorem nodup_eraseDups (l : List String) : l.eraseDups.Nodup := by
  induction l using List.reverseRecOn with
  | nil => exact .nil
  | append_singleton l name ih =>
    rw [eraseDups_concat]
    split
    · exact ih
    · rename_i hn
      exact List.nodup_append.mpr ⟨ih, List.pairwise_singleton _ name, by grind⟩

/-- What happens to the targets, which `ι` names. -/
inductive TargetEvent (ι κ : Type) where
  | wrapped (u : SnippetUnit)
  | stored (i : ι) (u : SnippetUnit) (code : κ)
  | asked (i : ι) (name : String)
  | cleared (i : ι)

/-- The targets, the known lines, and the number of the next unit. -/
structure Engines (ι κ : Type) where
  targets : ι → CompileTarget κ
  cache : LineCache
  nextUnit : Nat

namespace Engines

variable {ι κ : Type} {cache : LineCache} {events : List (TargetEvent ι κ)} {s : Engines ι κ}

/-- What is known of units and of where they were stored. -/
structure Numbered (events : List (TargetEvent ι κ)) (next : Nat) : Prop where
  named : ∀ u, .wrapped u ∈ events → u.filename = unitFilename u.name ∧ ∃ n < next, u.name = unitName n
  unique : ∀ u v, .wrapped u ∈ events → .wrapped v ∈ events → u.name = v.name → u = v
  wrapped : ∀ i u code, .stored i u code ∈ events → .wrapped u ∈ events
  home : ∀ i j u code code', .stored i u code ∈ events → .stored j u code' ∈ events → i = j

theorem Numbered.mono {events' : List (TargetEvent ι κ)} {next : Nat} (h : Numbered events next)
    (hw : ∀ u, .wrapped u ∈ events' → .wrapped u ∈ events) (hs : ∀ i u code, .stored i u code ∈ events' →
      .stored i u code ∈ events) (hk : ∀ u, .wrapped u ∈ events → .wrapped u ∈ events') : Numbered events' next where
  named u hu := h.named u (hw u hu)
  unique u v hu hv := h.unique u v (hw u hu) (hw v hv)
  wrapped i u code hm := hk u (h.wrapped i u code (hs i u code hm))
  home i j u code code' hi hj := h.home i j u code code' (hs i u code hi) (hs j u code' hj)

/-- Units with one filename are one unit, and stored into one target. -/
theorem Numbered.same {next : Nat} (h : Numbered events next) {i j : ι} {u v : SnippetUnit} {code code' : κ}
    (hu : .stored i u code ∈ events) (hv : .stored j v code' ∈ events) (he : u.filename = v.filename) :
    i = j ∧ u = v := by
  have hwu := h.wrapped i u code hu
  have hwv := h.wrapped j v code' hv
  rw [(h.named u hwu).1, (h.named v hwv).1] at he
  obtain rfl := h.unique u v hwu hwv (unitFilename_injective he)
  exact ⟨h.home i j u code code' hu hv, rfl⟩

variable [DecidableEq ι]

/-- What was stored into a target since it was last cleared, the earliest first. -/
def storedIn (i : ι) (events : List (TargetEvent ι κ)) : List (SnippetUnit × κ) :=
  events.foldl (fun l event => match event with
    | .stored j u code => if j = i then l ++ [(u, code)] else l
    | .cleared j => if j = i then [] else l
    | _ => l) []

def store (s : Engines ι κ) (i : ι) (u : SnippetUnit) (code : κ) : Engines ι κ :=
  let (target, cache) := (s.targets i).storeWith s.cache u code
  { s with targets := Function.update s.targets i target, cache }

def clear (s : Engines ι κ) (i : ι) : Engines ι κ :=
  let (target, cache) := (s.targets i).clearWith s.cache
  { s with targets := Function.update s.targets i target, cache }

theorem targets_store (s : Engines ι κ) (i : ι) (u : SnippetUnit) (code : κ) (j : ι) :
    (s.store i u code).targets j = if j = i then (s.targets i).store u code else s.targets j := by
  simp only [Engines.store, CompileTarget.storeWith, Function.update_apply]

theorem targets_clear (s : Engines ι κ) (i j : ι) :
    (s.clear i).targets j = if j = i then (s.targets i).clear else s.targets j := by
  simp only [Engines.clear, CompileTarget.clearWith, Function.update_apply]

/-- What is stored after a unit was stored into one of the targets. -/
theorem mem_store {i j : ι} {u : SnippetUnit} {code : κ} {a : String × SnippetUnit × κ} :
    a ∈ ((s.store i u code).targets j).artifacts ↔
      j = i ∧ a = (u.name, u, code) ∨ a ∈ (s.targets j).artifacts ∧ (j = i → a.1 ≠ u.name) := by
  rw [targets_store]
  by_cases hj : j = i
  · subst hj
    simp [CompileTarget.mem_store]
  · simp [hj]

/-- What is stored after one of the targets was cleared. -/
theorem mem_clear {i j : ι} {a : String × SnippetUnit × κ} :
    a ∈ ((s.clear i).targets j).artifacts ↔ j ≠ i ∧ a ∈ (s.targets j).artifacts := by
  rw [targets_clear]
  by_cases hj : j = i <;> simp [hj, CompileTarget.clear]

/-- What empty targets come to by any events. A unit is wrapped before it is stored, with a number that was not
given away before, and it is stored into one target only, though perhaps several times. -/
inductive Run (cache : LineCache) : List (TargetEvent ι κ) → Engines ι κ → Prop
  | start (n : Nat) : Run cache [] ⟨fun _ => .empty, cache, n⟩
  | wrap {events : List (TargetEvent ι κ)} {s : Engines ι κ} {prelude code : List Char} {n : Nat} {u : SnippetUnit} :
    Run cache events s → s.nextUnit ≤ n → wrap prelude code (unitName n) = .ok u →
      Run cache (events ++ [.wrapped u]) { s with nextUnit := n + 1 }
  | store {events : List (TargetEvent ι κ)} {s : Engines ι κ} {i : ι} {u : SnippetUnit} (code : κ) :
    Run cache events s → .wrapped u ∈ events → (∀ j code', .stored j u code' ∈ events → j = i) →
      Run cache (events ++ [.stored i u code]) (s.store i u code)
  | ask {events : List (TargetEvent ι κ)} {s : Engines ι κ} (i : ι) (name : String) :
    Run cache events s → Run cache (events ++ [.asked i name]) s
  | clear {events : List (TargetEvent ι κ)} {s : Engines ι κ} (i : ι) :
    Run cache events s → Run cache (events ++ [.cleared i]) (s.clear i)

theorem Run.numbered (h : Run cache events s) : Numbered events s.nextUnit := by
  induction h with
  | start n => exact ⟨nofun, nofun, nofun, nofun⟩
  | @wrap events s prelude code n u _ hn hw ih =>
    obtain ⟨hname, hfile⟩ := wrap_named hw
    have hnew (v : SnippetUnit) (hv : .wrapped v ∈ events) : v.name ≠ u.name := by
      obtain ⟨-, m, hm, hvn⟩ := ih.named v hv
      rw [hvn, hname]
      exact fun he => absurd (unitName_injective he) (by omega)
    have hmem (v : SnippetUnit) : .wrapped v ∈ events ++ [.wrapped u] ↔ .wrapped v ∈ events ∨ v = u := by simp
    have hst (i : ι) (v : SnippetUnit) (c : κ) :
        .stored i v c ∈ events ++ [.wrapped u] ↔ .stored i v c ∈ events := by simp
    constructor
    case named =>
      intro v hv
      rcases (hmem v).mp hv with hv | rfl
      · obtain ⟨hf, m, hm, hvn⟩ := ih.named v hv
        exact ⟨hf, m, Nat.lt_succ_of_le (by omega), hvn⟩
      · exact ⟨hfile, n, n.lt_succ_self, hname⟩
    case unique =>
      intro v w hv hw he
      rcases (hmem v).mp hv with hv' | rfl <;> rcases (hmem w).mp hw with hw' | rfl
      · exact ih.unique v w hv' hw' he
      · exact absurd he (hnew v hv')
      · exact absurd he.symm (hnew w hw')
      · rfl
    case wrapped => exact fun i v c hv => (hmem v).mpr (.inl (ih.wrapped i v c ((hst i v c).mp hv)))
    case home => exact fun i j v c c' hi hj => ih.home i j v c c' ((hst i v c).mp hi) ((hst j v c').mp hj)
  | @store events s i u code _ hu hi ih =>
    have hmem (v : SnippetUnit) : .wrapped v ∈ events ++ [.stored i u code] ↔ .wrapped v ∈ events := by simp
    have hst (j : ι) (v : SnippetUnit) (c : κ) : .stored j v c ∈ events ++ [.stored i u code] ↔
        .stored j v c ∈ events ∨ (j = i ∧ v = u ∧ c = code) := by simp
    constructor
    case named => exact fun v hv => ih.named v ((hmem v).mp hv)
    case unique => exact fun v w hv hw => ih.unique v w ((hmem v).mp hv) ((hmem w).mp hw)
    case wrapped =>
      intro j v c hv
      rcases (hst j v c).mp hv with hv | ⟨-, rfl, -⟩
      · exact (hmem v).mpr (ih.wrapped j v c hv)
      · exact (hmem v).mpr hu
    case home =>
      intro j k v c c' hj hk
      rcases (hst j v c).mp hj with hj' | ⟨rfl, hv, -⟩ <;> rcases (hst k v c').mp hk with hk' | ⟨rfl, hv', -⟩
      · exact ih.home j k v c c' hj' hk'
      · exact hi j c (hv' ▸ hj')
      · exact (hi k c' (hv ▸ hk')).symm
      · rfl
  | ask i name _ ih => exact ih.mono (by simp) (by simp) (by simp)
  | clear i _ ih => exact ih.mono (by simp) (by simp) (by simp)

/-- Targets, lines and events agree. -/
structure Agrees (cache : LineCache) (events : List (TargetEvent ι κ)) (s : Engines ι κ) : Prop where
  names : ∀ i, (s.targets i).names = ((storedIn i events).map (·.1.name)).eraseDups
  lookup : ∀ i name, (s.targets i).artifacts.lookup name =
    (storedIn i events).reverse.find? (·.1.name = name)
  stored : ∀ i, ∀ a ∈ (s.targets i).artifacts, a.1 = a.2.1.name ∧ .stored i a.2.1 a.2.2 ∈ events
  lines : ∀ i, ∀ a ∈ (s.targets i).artifacts,
    s.cache.entriesOf a.2.1.filename = [(a.2.1.filename, a.2.1.cached)]
  only : ∀ name, s.cache.entriesOf (unitFilename name) ≠ [] →
    ∃ i, ∃ a ∈ (s.targets i).artifacts, a.2.1.filename = unitFilename name
  others : ∀ file, (∀ name, file ≠ unitFilename name) → s.cache.entriesOf file = cache.entriesOf file

theorem storedIn_append (i : ι) (event : TargetEvent ι κ) : storedIn i (events ++ [event]) =
    match event with
    | .stored j u code => if j = i then storedIn i events ++ [(u, code)] else storedIn i events
    | .cleared j => if j = i then [] else storedIn i events
    | _ => storedIn i events := by
  rw [storedIn, List.foldl_append]
  rfl

namespace Agrees

theorem start {n : Nat} (h : ∀ name, cache.entriesOf (unitFilename name) = []) :
    Agrees cache [] (⟨fun _ => .empty, cache, n⟩ : Engines ι κ) where
  names i := rfl
  lookup i name := rfl
  stored i a ha := by cases ha
  lines i a ha := by cases ha
  only name hne := absurd (h name) hne
  others file hf := rfl

/-- An event that changes neither targets nor lines. -/
theorem still (h : Agrees cache events s) {event : TargetEvent ι κ} {n : Nat}
    (he : ∀ i, storedIn i (events ++ [event]) = storedIn i events) :
    Agrees cache (events ++ [event]) { s with nextUnit := n } where
  names i := by rw [he]; exact h.names i
  lookup i name := by rw [he]; exact h.lookup i name
  stored i a ha := ⟨(h.stored i a ha).1, List.mem_append_left _ (h.stored i a ha).2⟩
  lines := h.lines
  only := h.only
  others := h.others

theorem store (h : Agrees cache events s) {i : ι} {u : SnippetUnit} {code : κ}
    (hn : Numbered (events ++ [.stored i u code]) s.nextUnit) :
    Agrees cache (events ++ [.stored i u code]) (s.store i u code) := by
  have hc (file : String) : (s.store i u code).cache.entriesOf file =
      if file = u.filename then [(u.filename, u.cached)] else s.cache.entriesOf file :=
    s.cache.entriesOf_put u.filename file u.cached
  have hstored : .stored i u code ∈ events ++ [.stored i u code] := by simp
  have hu := hn.wrapped i u code hstored
  have hst (j : ι) (a : String × SnippetUnit × κ) (ha : a ∈ ((s.store i u code).targets j).artifacts) :
      a.1 = a.2.1.name ∧ .stored j a.2.1 a.2.2 ∈ events ++ [.stored i u code] := by
    rcases mem_store.mp ha with ⟨rfl, rfl⟩ | ⟨ha, -⟩
    · exact ⟨rfl, hstored⟩
    · exact ⟨(h.stored j a ha).1, List.mem_append_left _ (h.stored j a ha).2⟩
  constructor
  case names =>
    intro j
    rw [targets_store, storedIn_append]
    by_cases hj : j = i
    · subst hj
      simp only [if_true, CompileTarget.names_store, h.names, List.map_append, List.map_cons, List.map_nil,
        eraseDups_concat]
    · simp only [hj, Ne.symm hj, if_false, h.names]
  case lookup =>
    intro j name
    rw [targets_store, storedIn_append]
    by_cases hj : j = i
    · subst hj
      simp only [if_true, CompileTarget.lookup_store, h.lookup, List.reverse_append, List.reverse_cons,
        List.reverse_nil, List.nil_append, List.singleton_append, List.find?_cons]
      by_cases hname : name = u.name
      · simp [hname]
      · simp [hname, Ne.symm hname]
    · simp only [hj, Ne.symm hj, if_false, h.lookup]
  case stored => exact hst
  case lines =>
    intro j a ha
    rw [hc]
    by_cases hf : a.2.1.filename = u.filename
    · obtain ⟨-, hau⟩ := hn.same (hst j a ha).2 hstored hf
      rw [if_pos hf, hau]
    · rw [if_neg hf]
      rcases mem_store.mp ha with ⟨-, rfl⟩ | ⟨ha, -⟩
      · exact absurd rfl hf
      · exact h.lines j a ha
  case only =>
    intro name hne
    rw [hc] at hne
    by_cases hf : unitFilename name = u.filename
    · exact ⟨i, (u.name, u, code), mem_store.mpr (.inl ⟨rfl, rfl⟩), hf.symm⟩
    · rw [if_neg hf] at hne
      obtain ⟨j, a, ha, haf⟩ := h.only name hne
      refine ⟨j, a, mem_store.mpr (.inr ⟨ha, fun _ hau => hf ?_⟩), haf⟩
      obtain ⟨han, has⟩ := h.stored j a ha
      have hwa := hn.wrapped j a.2.1 a.2.2 (List.mem_append_left _ has)
      rw [← haf, hn.unique a.2.1 u hwa hu (han ▸ hau)]
  case others =>
    intro file hf
    rw [hc, if_neg, h.others file hf]
    rw [(hn.named u hu).1]
    exact hf u.name

theorem clear (h : Agrees cache events s) (hn : Numbered events s.nextUnit) (i : ι) :
    Agrees cache (events ++ [.cleared i]) (s.clear i) := by
  have hc (file : String) : (s.clear i).cache.entriesOf file =
      if file ∈ (s.targets i).artifacts.map (·.2.1.filename) then [] else s.cache.entriesOf file :=
    (s.targets i).entriesOf_clearWith s.cache file
  constructor
  case names =>
    intro j
    rw [targets_clear, storedIn_append]
    by_cases hj : j = i
    · simp [hj, CompileTarget.clear, CompileTarget.names]
    · simp only [hj, Ne.symm hj, if_false, h.names]
  case lookup =>
    intro j name
    rw [targets_clear, storedIn_append]
    by_cases hj : j = i
    · simp [hj, CompileTarget.clear]
    · simp only [hj, Ne.symm hj, if_false, h.lookup]
  case stored =>
    intro j a ha
    obtain ⟨-, ha⟩ := mem_clear.mp ha
    exact ⟨(h.stored j a ha).1, List.mem_append_left _ (h.stored j a ha).2⟩
  case lines =>
    intro j a ha
    obtain ⟨hj, ha⟩ := mem_clear.mp ha
    rw [hc, if_neg, h.lines j a ha]
    -- a filename of the cleared target belongs to no unit of another one
    intro hm
    obtain ⟨b, hb, hf⟩ := List.mem_map.mp hm
    exact hj (hn.same (h.stored j a ha).2 (h.stored i b hb).2 hf.symm).1
  case only =>
    intro name hne
    rw [hc] at hne
    split at hne
    · exact absurd rfl hne
    · rename_i hm
      obtain ⟨j, a, ha, haf⟩ := h.only name hne
      refine ⟨j, a, mem_clear.mpr ⟨?_, ha⟩, haf⟩
      rintro rfl
      exact hm (List.mem_map.mpr ⟨a, ha, haf⟩)
  case others =>
    intro file hf
    rw [hc, if_neg, h.others file hf]
    intro hm
    obtain ⟨b, hb, hbf⟩ := List.mem_map.mp hm
    have hwb := hn.wrapped i b.2.1 b.2.2 (h.stored i b hb).2
    exact hf b.2.1.name (hbf ▸ (hn.named b.2.1 hwb).1)

end Agrees

theorem Run.agrees (h₀ : ∀ name, cache.entriesOf (unitFilename name) = []) (h : Run cache events s) :
    Agrees cache events s := by
  induction h with
  | start n => exact .start h₀
  | wrap _ _ _ ih => exact ih.still fun i => storedIn_append i _
  | store code hr hu hi ih => exact ih.store (hr.store code hu hi).numbered
  | ask i name _ ih => exact ih.still fun j => storedIn_append j _
  | clear i hr ih => exact ih.clear hr.numbered i

/-- What holds of the targets and of the known lines behind every event. -/
structure InStep (cache : LineCache) (events : List (TargetEvent ι κ)) (s : Engines ι κ) : Prop where
  /-- The code of a unit is that which was last stored under its name since the target was cleared. -/
  code : ∀ i id name, (s.targets i).codeFor id name =
    match (storedIn i events).reverse.find? (·.1.name = name) with
    | some (_, code) => .ok code
    | none => .error (.lookup ("No compiled unit named " ++ Text.quote name ++ " in target " ++ id))
  /-- The names are those of the units stored since then, each once, in the order of their first store. -/
  names : ∀ i, (s.targets i).names = ((storedIn i events).map (·.1.name)).eraseDups ∧ (s.targets i).names.Nodup
  /-- Of every stored unit there is one entry, and its lines make up the source. -/
  lines : ∀ i, ∀ a ∈ (s.targets i).artifacts, ∃ lines, lines.flatten = a.2.1.source ∧
    s.cache.entriesOf a.2.1.filename = [(a.2.1.filename, ⟨a.2.1.source.length, lines⟩)]
  /-- Under the filenames of units there is nothing else. -/
  only : ∀ name, s.cache.entriesOf (unitFilename name) ≠ [] →
    ∃ i, ∃ a ∈ (s.targets i).artifacts, a.2.1.filename = unitFilename name
  /-- No two stored units share a filename. -/
  distinct : ∀ i j, ∀ a ∈ (s.targets i).artifacts, ∀ b ∈ (s.targets j).artifacts,
    a.2.1.filename = b.2.1.filename → i = j ∧ a.1 = b.1
  /-- Clearing a target removes the entries of its units, and those of no unit of another target. -/
  cleared : ∀ i, (∀ a ∈ (s.targets i).artifacts, (s.clear i).cache.entriesOf a.2.1.filename = []) ∧
    ∀ j, j ≠ i → ∀ a ∈ (s.targets j).artifacts,
      (s.clear i).cache.entriesOf a.2.1.filename = s.cache.entriesOf a.2.1.filename
  /-- All other entries are as they were at the start. -/
  others : ∀ file, (∀ name, file ≠ unitFilename name) → s.cache.entriesOf file = cache.entriesOf file

/-- Behind every event of a run that starts without entries of units. -/
theorem run_inStep (h₀ : ∀ name, cache.entriesOf (unitFilename name) = []) (h : Run cache events s) :
    InStep cache events s := by
  have ha : Agrees cache events s := h.agrees h₀
  have hn : Numbered events s.nextUnit := h.numbered
  have hsame (i j : ι) (a : String × SnippetUnit × κ) (hai : a ∈ (s.targets i).artifacts)
      (b : String × SnippetUnit × κ) (hbj : b ∈ (s.targets j).artifacts)
      (hf : a.2.1.filename = b.2.1.filename) : i = j ∧ a.1 = b.1 := by
    obtain ⟨hij, hab⟩ := hn.same (ha.stored i a hai).2 (ha.stored j b hbj).2 hf
    exact ⟨hij, by rw [(ha.stored i a hai).1, (ha.stored j b hbj).1, hab]⟩
  constructor
  case code =>
    intro i id name
    have hl := ha.lookup i name
    cases hf : (storedIn i events).reverse.find? (·.1.name = name) with
    | none => simp only [CompileTarget.codeFor, hl, hf]
    | some a => simp only [CompileTarget.codeFor, hl, hf]
  case names =>
    intro i
    rw [ha.names]
    exact ⟨rfl, nodup_eraseDups _⟩
  case lines => exact fun i a hai => ⟨_, a.2.1.flatten_cached, ha.lines i a hai⟩
  case only => exact ha.only
  case distinct => exact hsame
  case cleared =>
    intro i
    have hc (file : String) : (s.clear i).cache.entriesOf file =
        if file ∈ (s.targets i).artifacts.map (·.2.1.filename) then [] else s.cache.entriesOf file :=
      (s.targets i).entriesOf_clearWith s.cache file
    constructor
    · intro a hai
      rw [hc, if_pos (List.mem_map.mpr ⟨a, hai, rfl⟩)]
    · intro j hj a haj
      rw [hc, if_neg]
      intro hm
      obtain ⟨b, hb, hf⟩ := List.mem_map.mp hm
      exact hj (hsame j i a haj b hb hf.symm).1
  case others => exact ha.others

/-- One target keeps its unit, stored for the second time, while the other one is cleared. -/
theorem shared_inStep : ∃ (events : List (TargetEvent Bool Nat)) (s : Engines Bool Nat),
    Run .empty events s ∧ (s.targets false).names = ["_SnippetUnit_1"] ∧ (s.targets true).names = [] ∧
      s.cache.entries.map (·.1) = ["<snippet-eval:_SnippetUnit_1>"] ∧ InStep .empty events s := by
  have hu := @wrap_getD [] ['1'] (unitName 1) (by decide +kernel)
  have hv := @wrap_getD [] ['2'] (unitName 2) (by decide +kernel)
  have hne : (wrap [] ['1'] (unitName 1)).toOption.getD default ≠
    (wrap [] ['2'] (unitName 2)).toOption.getD default := by decide +kernel
  have h₀ : Run (.empty : LineCache) [] (⟨fun _ => .empty, .empty, 1⟩ : Engines Bool Nat) := .start 1
  have h₂ := (h₀.wrap (Nat.le_refl 1) hu).wrap (Nat.le_refl 2) hv
  have h₃ := @Run.store Bool Nat _ _ _ _ false _ 7 h₂ (.head _) (by simp)
  have h₄ := @Run.store Bool Nat _ _ _ _ true _ 8 h₃ (.tail _ (.head _)) (by simp [hne.symm])
  have h₅ := @Run.store Bool Nat _ _ _ _ false _ 9 h₄ (.head _) (by simp [hne])
  have h₆ := Run.clear true h₅
  refine ⟨_, _, h₆, ?_, ?_, ?_, run_inStep (fun _ => rfl) h₆⟩
  · decide +kernel
  · decide +kernel
  · decide +kernel

end Engines

end Evalbox
