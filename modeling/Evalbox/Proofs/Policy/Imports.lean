import Evalbox.Modules.Importer
import Evalbox.Proofs.Lookup
import Evalbox.Proofs.Text.Dotted

/-!
# What a guarded import reaches

The import function of a guarded unit looks at the spelling of a name, and the importer acts on the name that the
spelling means. For an absolute name the two have the same root, so that only permitted modules are reached. A
relative name has the root of the package that the call comes with, which nobody looks at: the import reaches a
permitted module exactly if this package is one.
-/

namespace Evalbox

theorem isPrefixOf_toList_iff {front name : String} :
    front.toList.isPrefixOf name.toList = true ↔ ∃ rest, name = front ++ rest := by
  rw [List.isPrefixOf_iff_prefix]
  constructor
  · rintro ⟨rest, hrest⟩
    exact ⟨String.ofList rest, String.toList_injective (by simp [← hrest])⟩
  · rintro ⟨rest, rfl⟩
    exact ⟨rest.toList, by simp⟩

/-- Names that a name means at any level have the root of the package that it is relative to. -/
theorem root_nameWithin {name package absolute : String} {levels : Nat}
    (h : nameWithin name package levels = some absolute) : Dotted.root absolute = Dotted.root package := by
  obtain ⟨base, hbase, rfl⟩ := Option.map_eq_some_iff.mp h
  split
  · exact Dotted.root_ascend hbase
  · rw [Dotted.root_append_dot, Dotted.root_ascend hbase]

theorem root_absoluteName {name package absolute : String} {level : Nat} (hl : level ≠ 0)
    (h : absoluteName name package level = .ok absolute) : Dotted.root absolute = Dotted.root package := by
  rw [absoluteName, if_neg hl] at h
  split at h
  · cases h
  · simp only at h
    split at h
    · cases h
    · rename_i hn
      cases h
      exact root_nameWithin hn

namespace Policy

theorem isMachinery_iff_leads {name : String} : isMachinery name = true ↔ Dotted.Leads "importlib" name := by
  rw [isMachinery, Bool.or_eq_true, decide_eq_true_eq, isPrefixOf_toList_iff]
  rfl

theorem isMachinery_iff {name : String} : isMachinery name = true ↔ Dotted.root name = "importlib" :=
  isMachinery_iff_leads.trans (Dotted.leads_iff_root (by decide))

/-- A policy permits a module: the root of its name is permitted, and is not the host's import machinery. -/
def PermitsModule (p : Policy) (name : String) : Prop :=
  p.permitsRoot (Dotted.root name) = true ∧ Dotted.root name ≠ "importlib"

variable {p : Policy} {name : String}

/-- An absolute name passes exactly if the policy permits the module. -/
theorem importFault?_absolute : p.importFault? name 0 = none ↔ p.PermitsModule name := by
  have hlib : Dotted.root name ≠ "importlib" ↔ isMachinery name = false := by
    rw [← Bool.not_eq_true, isMachinery_iff]
  rw [importFault?, PermitsModule, hlib]
  cases isMachinery name with
  | true => simp
  | false =>
    cases p.permitsRoot (Dotted.root name) with
    | true => simp
    | false => cases p.mode <;> simp

end Policy

namespace ImportGuard

/-- The absolute name of the module that an import function hands over to the importer, if it hands the call on and
if the importer makes out a name. `origin` is the package that the call comes with. -/
def resolve (g : ImportGuard) (c : ImportCall String) : Except (Fault ⊕ ImportRefusal) String :=
  g.run (fun f => .error (.inl f)) (fun c => (absoluteName c.name c.origin c.level.toNat).mapError .inr) c

variable {p : Policy} {c : ImportCall String} {absolute : String}

theorem resolve_checked (h : (checked p).resolve c = .ok absolute) :
    p.importFault? c.name c.level = none ∧ absoluteName c.name c.origin c.level.toNat = .ok absolute := by
  simp only [resolve, run, Policy.guardedImport] at h
  split at h
  · cases h
  · rename_i hf
    refine ⟨hf, ?_⟩
    cases hn : absoluteName c.name c.origin c.level.toNat with
    | error e => rw [hn] at h; cases h
    | ok name => rw [hn] at h; cases h; rfl

end ImportGuard

/-- The import function of a guarded unit asks the policy of its gate, whatever the policy says about the name of
this function. -/
theorem Gate.lookup_import {β : Type} {gate : Gate Policy} (he : gate.enabled = true) (host : List (String × β))
    (importer : ImportGuard → β) :
    (gate.unitBuiltins host importer).lookup "__import__" = some (importer (.checked gate.policy)) := by
  rw [Gate.unitBuiltins, he, if_pos rfl]
  simp only [Evalbox.unitBuiltins, lookup_bindName, if_true]

/-- In the namespace of a unit behind an enabled gate: a call of the import function that is handed on reaches a
permitted module exactly if its name is absolute, or if the package that it comes with is permitted. -/
theorem Gate.import_permitted {gate : Gate Policy} {host : List (String × ImportGuard)} {g : ImportGuard}
    {c : ImportCall String} {absolute : String} (he : gate.enabled = true)
    (hg : (gate.unitBuiltins host id).lookup "__import__" = some g) (hl : 0 ≤ c.level)
    (hr : g.resolve c = .ok absolute) :
    gate.policy.PermitsModule absolute ↔ c.level = 0 ∨ gate.policy.PermitsModule c.origin := by
  obtain rfl : ImportGuard.checked gate.policy = g := by
    rw [Gate.lookup_import he] at hg
    exact Option.some.inj hg
  obtain ⟨hpass, hname⟩ := ImportGuard.resolve_checked hr
  by_cases h0 : c.level = 0
  · rw [h0] at hpass hname
    obtain rfl : c.name = absolute := Except.ok.inj hname
    exact ⟨fun _ => .inl h0, fun _ => Policy.importFault?_absolute.mp hpass⟩
  · have hroot : Dotted.root absolute = Dotted.root c.origin := root_absoluteName (by omega) hname
    rw [Policy.PermitsModule, Policy.PermitsModule, hroot]
    exact ⟨.inr, fun h => h.resolve_left h0⟩

/-- A relative import inside a package of the classpath, behind the default policy. -/
theorem Gate.sibling_permitted : ∃ g, (Gate.unitBuiltins ⟨true, .default⟩ [] id).lookup "__import__" = some g ∧
    g.resolve ⟨"core", "pkg.deep", [], 2⟩ = .ok "pkg.core" ∧ Policy.default.PermitsModule "pkg.core" := by
  have hg := @Gate.lookup_import _ ⟨true, .default⟩ rfl [] id
  have hr : (ImportGuard.checked .default).resolve ⟨"core", "pkg.deep", [], 2⟩ = .ok "pkg.core" := by rfl
  refine ⟨_, hg, hr, (Gate.import_permitted rfl hg (by decide) hr).mpr (.inr ?_)⟩
  exact ⟨by decide, by decide⟩

/-- A relative import with an empty name reaches the import machinery itself, which every policy is to block. -/
theorem Gate.machinery_reached : ∃ g, (Gate.unitBuiltins ⟨true, .default⟩ [] id).lookup "__import__" = some g ∧
    g.resolve ⟨"", "importlib", [], 1⟩ = .ok "importlib" ∧
    Policy.default.permitsRoot (Dotted.root "importlib") = false ∧ Dotted.root "importlib" = "importlib" :=
  ⟨_, Gate.lookup_import rfl [] id, rfl, by decide, by decide⟩

end Evalbox
