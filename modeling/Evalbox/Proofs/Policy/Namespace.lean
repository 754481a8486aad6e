import Evalbox.Engine.Snippets
import Evalbox.Proofs.Policy.Imports

/-!
# What a unit is given

A unit behind an enabled gate is given the builtins that the policy offers, each as the host has it. In any case it is
given the import function that asks the policy, whatever the lists of the policy say about the name of that function.
What this function refuses is told by the spelling of the import alone (`Policy.Refuses`). The importer is not reached by
what is refused, and it is reached once by every other call, which comes to it as it was made (`Gate.unit_furnished`).
A unit finds nothing else when it runs (`World.withBuiltins_furnishes`).
-/

namespace Evalbox

namespace Policy

/-- A builtin of the host is offered to units. -/
inductive Offers (p : Policy) (name : String) : Prop
  | unblocked : p.mode = .restrict → name ∉ p.blockedBuiltins → Offers p name
  | listed : p.mode = .allow → name ∈ p.allowedBuiltins → Offers p name
  /-- Names with two leading underscores need not be listed. -/
  | underscored {rest : String} : p.mode = .allow → name = "__" ++ rest → Offers p name

/-- An import is refused by its spelling: it goes to the host's import machinery, or it is absolute and the part of its
name in front of the first dot is not permitted. -/
inductive Refuses (p : Policy) (name : String) (level : Int) : Fault → Prop
  | machinery : Dotted.Leads "importlib" name →
    Refuses p name level (.missingImport "Import 'importlib' is blocked by policy")
  | unlisted {root : String} : ¬Dotted.Leads "importlib" name → level = 0 → p.mode = .allow →
    Dotted.Leads root name → '.' ∉ root.toList → root ∉ p.allowedImports →
    Refuses p name level (.missingImport ("Import '" ++ name ++ "' is not allowed by policy"))
  | blocked {root : String} : ¬Dotted.Leads "importlib" name → level = 0 → p.mode = .restrict →
    Dotted.Leads root name → '.' ∉ root.toList → root ∈ p.blockedImports →
    Refuses p name level (.missingImport ("Import '" ++ name ++ "' is blocked by policy"))

variable {p : Policy} {name : String} {level : Int} {fault : Fault}

theorem permitsBuiltin_iff : p.permitsBuiltin name = true ↔ p.Offers name := by
  unfold permitsBuiltin
  split
  · next hmode =>
    rw [Bool.or_eq_true, isPrefixOf_toList_iff, List.contains_iff_mem]
    constructor
    · rintro (hm | ⟨rest, hrest⟩)
      · exact .listed hmode hm
      · exact .underscored hmode hrest
    · rintro (⟨hr, -⟩ | ⟨-, hm⟩ | ⟨-, hrest⟩)
      · cases hmode.symm.trans hr
      · exact .inl hm
      · exact .inr ⟨_, hrest⟩
  · next hmode =>
    rw [Bool.not_eq_true', ← Bool.not_eq_true, List.contains_iff_mem]
    constructor
    · exact .unblocked hmode
    · rintro (⟨-, hm⟩ | ⟨ha, -⟩ | ⟨ha, -⟩)
      · exact hm
      · cases hmode.symm.trans ha
      · cases hmode.symm.trans ha

theorem permitsRoot_eq_false {root : String} : p.permitsRoot root = false ↔
    p.mode = .allow ∧ root ∉ p.allowedImports ∨ p.mode = .restrict ∧ root ∈ p.blockedImports := by
  unfold permitsRoot
  cases p.mode <;> simp

theorem Refuses.kind_eq (h : p.Refuses name level fault) : fault.kind = "ImportError" := by
  cases h <;> rfl

/-- What stands in front of the first dot of a name decides. -/
theorem permitsRoot_of_leads {root : String} (hlead : Dotted.Leads root name) (hdot : '.' ∉ root.toList) :
    p.permitsRoot (Dotted.root name) = p.permitsRoot root := by
  rw [(Dotted.leads_iff_root hdot).mp hlead]

/-- The check of an import finds the fault for which the policy refuses it. -/
theorem importFault?_eq_some : p.importFault? name level = some fault ↔ p.Refuses name level fault := by
  constructor
  · intro h
    rw [importFault?] at h
    split at h
    · next hm =>
      cases h
      exact .machinery (isMachinery_iff_leads.mp hm)
    · next hm =>
      have hm : ¬Dotted.Leads "importlib" name := fun hl => hm (isMachinery_iff_leads.mpr hl)
      have hdot := Dotted.no_dot_root name
      have hlead := (Dotted.leads_iff_root hdot).mpr rfl
      split at h
      · cases h
      · next hpass =>
        obtain ⟨rfl, hroot⟩ : level = 0 ∧ p.permitsRoot (Dotted.root name) = false := by simpa using hpass
        obtain ⟨hmode, hmem⟩ | ⟨hmode, hmem⟩ := permitsRoot_eq_false.mp hroot
        · rw [hmode] at h
          cases h
          exact .unlisted hm rfl hmode hlead hdot hmem
        · rw [hmode] at h
          cases h
          exact .blocked hm rfl hmode hlead hdot hmem
  · have hmach : ¬Dotted.Leads "importlib" name → isMachinery name = false := fun hm =>
      Bool.eq_false_iff.mpr fun h => hm (isMachinery_iff_leads.mp h)
    rintro (hm | ⟨hm, rfl, hmode, hlead, hdot, hmem⟩ | ⟨hm, rfl, hmode, hlead, hdot, hmem⟩)
    · rw [importFault?, if_pos (isMachinery_iff_leads.mpr hm)]
    · have hroot := permitsRoot_eq_false.mpr (.inl ⟨hmode, hmem⟩)
      simp [importFault?, hmach hm, permitsRoot_of_leads hlead hdot, hroot, hmode]
    · have hroot := permitsRoot_eq_false.mpr (.inr ⟨hmode, hmem⟩)
      simp [importFault?, hmach hm, permitsRoot_of_leads hlead hdot, hroot, hmode]

theorem importFault?_eq_none : p.importFault? name level = none ↔ ∀ fault, ¬p.Refuses name level fault := by
  simp only [Option.eq_none_iff_forall_ne_some, ne_eq, importFault?_eq_some]

end Policy

namespace ImportGuard

variable {σ ω ε α : Type}

/-- An import function over an importer that works on a state. The calls that reach the importer are noted. -/
def noting (g : ImportGuard) (raise : Fault → ε) (importer : ImportCall ω → σ → Except ε α × σ) (c : ImportCall ω)
    (s : σ) (calls : List (ImportCall ω)) : Except ε α × σ × List (ImportCall ω) :=
  g.run (m := fun α => σ → List (ImportCall ω) → Except ε α × σ × List (ImportCall ω))
    (fun fault s calls => (.error (raise fault), s, calls))
    (fun c s calls => ((importer c s).1, (importer c s).2, calls ++ [c])) c s calls

end ImportGuard

namespace Gate

variable {β : Type}

/-- What a unit behind a gate finds under the names of builtins. `importer` makes an import function of a guard. -/
structure Furnishes (gate : Gate Policy) (host : List (String × β)) (importer : ImportGuard → β)
    (ns : List (String × β)) : Prop where
  /-- Without a policy all builtins are there, and the importer itself. -/
  whole : gate.enabled = false → ∀ name,
    ns.lookup name = if name = "__import__" then some (importer .plain) else host.lookup name
  kept : gate.enabled = true → ∀ name, name ≠ "__import__" → ∀ value,
    ns.lookup name = some value ↔ host.lookup name = some value ∧ gate.policy.Offers name
  guarded : gate.enabled = true → ns.lookup "__import__" = some (importer (.checked gate.policy))

theorem unitBuiltins_furnishes (gate : Gate Policy) (host : List (String × β)) (importer : ImportGuard → β) :
    gate.Furnishes host importer (gate.unitBuiltins host importer) where
  whole he name := by
    rw [unitBuiltins, he, if_neg Bool.false_ne_true]
    exact lookup_bindName ..
  kept he name hname value := by
    rw [unitBuiltins, he, if_pos rfl]
    simp only [Evalbox.unitBuiltins, lookup_bindName, if_neg hname]
    rw [lookup_filter_key gate.policy.permitsBuiltin, ← Policy.permitsBuiltin_iff]
    cases gate.policy.permitsBuiltin name <;> simp
  guarded he := lookup_import he host importer

/-- Whatever the lists of the policy name, a unit finds what its gate furnishes it with. The import function of a guarded
unit raises an import error for what is refused and leaves everything else as it is; each other call reaches the importer
once and as it was made, and is answered as the importer answers it. -/
theorem unit_furnished {σ ω ε α : Type} (gate : Gate Policy) (host : List (String × β)) (importer : ImportGuard → β)
    (raise : Fault → ε) (load : ImportCall ω → σ → Except ε α × σ) :
    gate.Furnishes host importer (gate.unitBuiltins host importer) ∧
    ∀ (c : ImportCall ω) (s : σ) (calls : List (ImportCall ω)),
      (∀ fault, gate.policy.Refuses c.name c.level fault → fault.kind = "ImportError" ∧
        (ImportGuard.checked gate.policy).noting raise load c s calls = (.error (raise fault), s, calls)) ∧
      ((∀ fault, ¬gate.policy.Refuses c.name c.level fault) →
        (ImportGuard.checked gate.policy).noting raise load c s calls =
          ((load c s).1, (load c s).2, calls ++ [c])) := by
  refine ⟨unitBuiltins_furnishes gate host importer, fun c s calls => ⟨fun fault h => ⟨h.kind_eq, ?_⟩, fun h => ?_⟩⟩
  · rw [ImportGuard.noting, ImportGuard.run, Policy.guardedImport, Policy.importFault?_eq_some.mpr h]
  · rw [ImportGuard.noting, ImportGuard.run, Policy.guardedImport, Policy.importFault?_eq_none.mpr h]

/-- A policy that blocks the import function by its name. -/
def blocksImporting : Gate Policy := ⟨true, { Policy.default with blockedBuiltins := ["__import__", "open"] }⟩

theorem blocksImporting_furnished :
    let ns := blocksImporting.unitBuiltins [("__import__", none), ("open", none), ("len", none)] some
    let load : ImportCall Unit → Nat → Except Fault String × Nat := fun c n => (.ok c.name, n + 1)
    let call (name : String) := (ImportGuard.checked blocksImporting.policy).noting id load ⟨name, (), [], 0⟩ 0 []
    ns.lookup "__import__" = some (some (.checked blocksImporting.policy)) ∧ ns.lookup "len" = some none ∧
    ns.lookup "open" = none ∧
    call "os.path" = (.error (.missingImport "Import 'os.path' is blocked by policy"), 0, []) ∧
    call "osmosis" = (.ok "osmosis", 1, [⟨"osmosis", (), [], 0⟩]) := by
  intro ns load call
  obtain ⟨hns, hcalls⟩ :=
    unit_furnished blocksImporting [("__import__", none), ("open", none), ("len", none)] some id load
  refine ⟨hns.guarded rfl, ?_, ?_, ?_, ?_⟩
  · exact (hns.kept rfl "len" (by decide) none).mpr ⟨rfl, .unblocked rfl (by decide)⟩
  · refine Option.eq_none_iff_forall_ne_some.mpr fun v hv => ?_
    have hoffers := ((hns.kept rfl "open" (by decide) v).mp hv).2
    exact absurd (Policy.permitsBuiltin_iff.mpr hoffers) (by decide)
  · exact ((hcalls ⟨"os.path", (), [], 0⟩ 0 []).1 _ (Policy.importFault?_eq_some.mp (by decide))).2
  · exact (hcalls ⟨"osmosis", (), [], 0⟩ 0 []).2 (Policy.importFault?_eq_none.mp (by decide))

end Gate

/-- The builtins that are put on the heap for a unit are those that its gate furnishes it with, and the import function
among them is guarded as the gate says. -/
theorem World.withBuiltins_furnishes (w : World) (gate : Gate Policy) : ∃ ns importer,
    (w.withBuiltins gate).2.world.heap.objs[(w.withBuiltins gate).1]? = some (.names ns) ∧
    (w.withBuiltins gate).2.world.heap.objs[importer]? =
      some (.importer (if gate.enabled then .checked gate.policy else .plain)) ∧
    gate.Furnishes (M.hostBuiltins .none) (fun _ => .ref importer) ns := by
  refine ⟨_, w.world.heap.objs.size, ?_, ?_, Gate.unitBuiltins_furnishes ..⟩
  · simp only [withBuiltins, modify, Array.getElem?_push, Array.size_push, if_true]
  · simp only [withBuiltins, modify, Array.getElem?_push, Array.size_push, if_true]
    -- the names come behind the import function
    rw [if_neg (by omega)]

end Evalbox
