import Evalbox.Cli.Command
import Evalbox.Policy.Audit
import Evalbox.Proofs.Config.Limits
import Evalbox.Proofs.Policy.Imports
import Evalbox.Proofs.Results

/-!
# What a policy file makes of a policy

The table of a policy file sets the fields that it names, and the others are those of the default (`ofTable_iff`). A
path without a file is no table: the policy for it names fewer imports and events than the default, and lets exactly
those through that it leaves out (`policy_file_loaded`).
-/

namespace Evalbox

namespace Policy

/-! ## Tables -/

/-- A list that a table sets, or else leaves as it is in the default. -/
def Says (t : Toml.Table) (key : String) (default a : List String) : Prop :=
  match Datum.entry? t key with
  | some d => d.strings key = .ok a
  | none => a = default

theorem says_iff {t : Toml.Table} {key : String} {default a : List String} :
    (match Datum.entry? t key with
      | some d => d.strings key
      | none => Except.ok default) = .ok a ↔ Says t key default a := by
  unfold Says
  split
  · rfl
  · simp only [Except.ok.injEq, eq_comm]

/-- The same of the mode. -/
def SaysMode (t : Toml.Table) (mode : PolicyMode) : Prop :=
  match Datum.entry? t "mode" with
  | some d => PolicyMode.ofName? d.asText = some mode
  | none => mode = default.mode

theorem saysMode_iff {t : Toml.Table} {mode : PolicyMode} :
    (match Datum.entry? t "mode" with
      | some d => PolicyMode.ofName? d.asText
      | none => some default.mode) = some mode ↔ SaysMode t mode := by
  unfold SaysMode
  split
  · rfl
  · simp only [Option.some.injEq, eq_comm]

/-- The lists of a policy, each with the key that sets it. -/
def lists : List (String × (Policy → List String)) :=
  [("allowed_imports", allowedImports), ("blocked_imports", blockedImports), ("allowed_builtins", allowedBuiltins),
    ("blocked_builtins", blockedBuiltins), ("blocked_events", blockedEvents)]

/-- A policy is what a table says, and the default where the table says nothing. -/
structure Follows (t : Toml.Table) (p : Policy) : Prop where
  lists : ∀ l ∈ lists, Says t l.1 (l.2 default) (l.2 p)
  mode : SaysMode t p.mode

/-- Nothing else comes of a table. -/
theorem ofTable_iff {t : Toml.Table} {path : Option String} {p : Policy} :
    ofTable t path = .ok p ↔ Follows t p ∧ p.path = path := by
  constructor
  · intro h
    unfold ofTable at h
    obtain ⟨allowedImports, hai, h⟩ := ok_of_bind h
    obtain ⟨blockedImports, hbi, h⟩ := ok_of_bind h
    obtain ⟨allowedBuiltins, hab, h⟩ := ok_of_bind h
    obtain ⟨blockedBuiltins, hbb, h⟩ := ok_of_bind h
    obtain ⟨blockedEvents, hbe, h⟩ := ok_of_bind h
    dsimp only at h
    split at h
    · rename_i mode hmode
      cases h
      refine ⟨⟨?_, saysMode_iff.mp hmode⟩, rfl⟩
      simp only [lists, List.forall_mem_cons]
      exact ⟨says_iff.mp hai, says_iff.mp hbi, says_iff.mp hab, says_iff.mp hbb, says_iff.mp hbe, fun _ h => nomatch h⟩
    · cases h
  · rintro ⟨⟨hlists, hmode⟩, rfl⟩
    simp only [lists, List.forall_mem_cons] at hlists
    obtain ⟨hai, hbi, hab, hbb, hbe, -⟩ := hlists
    have hmode := saysMode_iff.mpr hmode
    unfold ofTable
    refine bind_of_ok (says_iff.mpr hai) (bind_of_ok (says_iff.mpr hbi) (bind_of_ok (says_iff.mpr hab)
      (bind_of_ok (says_iff.mpr hbb) (bind_of_ok (says_iff.mpr hbe) ?_))))
    dsimp only
    split
    · rename_i mode hread
      obtain rfl : mode = p.mode := Option.some.inj (hread.symm.trans hmode)
      rfl
    · rename_i hread
      exact nomatch hread.symm.trans hmode

/-- A table that says nothing is the default. -/
theorem follows_nil {p : Policy} : Follows [] p ↔ p = { default with path := p.path } := by
  have hread : ofTable [] p.path = .ok { default with path := p.path } := rfl
  constructor
  · intro h
    exact Except.ok.inj ((ofTable_iff.mpr ⟨h, rfl⟩).symm.trans hread)
  · intro h
    exact (ofTable_iff.mp (hread.trans (congrArg Except.ok h.symm))).1

/-! ## What is left out -/

/-- The imports that the default blocks, and a policy without a file does not. -/
def uncoveredImports : List String := default.blockedImports.filter (!ofMissingFile.blockedImports.contains ·)

/-- The events that the default blocks, and a policy without a file does not. -/
def uncoveredEvents : List String := default.blockedEvents.filter (!ofMissingFile.blockedEvents.contains ·)

example : uncoveredImports = ["multiprocessing", "shutil"] ∧ uncoveredEvents.length = 12 := by decide +kernel

/-- A policy that is like the default but for what it does not cover. -/
structure Uncovers (p : Policy) : Prop where
  imports : ∀ name level, p.importFault? name level =
    if Dotted.root name ∈ uncoveredImports then none else default.importFault? name level
  builtins : ∀ name, p.permitsBuiltin name = default.permitsBuiltin name
  events : ∀ e, p.auditFault? e = if e.name ∈ uncoveredEvents then none else default.auditFault? e

/-- Patterns without a star are names. -/
theorem blocksEvent_of_plain {p : Policy} (event : String)
    (h : ∀ pattern ∈ p.blockedEvents, pattern.toList.drop (pattern.toList.length - 2) ≠ ".*".toList) :
    p.blocksEvent event = p.blockedEvents.contains event := by
  rw [Bool.eq_iff_iff, blocksEvent, List.any_eq_true, List.contains_iff_mem]
  constructor
  · rintro ⟨pattern, hp, hm⟩
    rw [matchesEvent, if_neg (h pattern hp), decide_eq_true_eq] at hm
    exact hm ▸ hp
  · intro hp
    refine ⟨event, hp, ?_⟩
    rw [matchesEvent, if_neg (h event hp), decide_eq_true_eq]

/-- Names are kept but for those that are left out. -/
theorem contains_of_subset {kept names : List String} (h : ∀ x ∈ kept, x ∈ names) (x : String) :
    kept.contains x = (names.contains x && !(names.filter (!kept.contains ·)).contains x) := by
  rw [Bool.eq_iff_iff]
  simp only [List.contains_iff_mem, Bool.and_eq_true, Bool.not_eq_true', ← Bool.not_eq_true, List.mem_filter]
  constructor
  · intro hx
    exact ⟨h x hx, fun hout => hout.2 hx⟩
  · rintro ⟨hx, hin⟩
    exact Classical.byContradiction fun hk => hin ⟨hx, hk⟩

theorem ofMissingFile_blocksEvent (event : String) :
    ofMissingFile.blocksEvent event = (default.blocksEvent event && !uncoveredEvents.contains event) := by
  rw [blocksEvent_of_plain event (by decide +kernel), blocksEvent_of_plain event (by decide +kernel)]
  exact contains_of_subset (by decide +kernel) event

theorem ofMissingFile_permitsRoot (root : String) :
    ofMissingFile.permitsRoot root = (default.permitsRoot root || uncoveredImports.contains root) := by
  have hkept : ofMissingFile.blockedImports.contains root =
      (default.blockedImports.contains root && !uncoveredImports.contains root) :=
    contains_of_subset (by decide +kernel) root
  change (!ofMissingFile.blockedImports.contains root) = _
  rw [hkept, Bool.not_and, Bool.not_not]
  rfl

theorem uncovers_ofMissingFile (path : Option String) : Uncovers { ofMissingFile with path } where
  imports := by
    intro name level
    change ofMissingFile.importFault? name level = _
    unfold importFault?
    rw [ofMissingFile_permitsRoot]
    by_cases hm : isMachinery name = true
    · have hu : Dotted.root name ∉ uncoveredImports := by
        rw [isMachinery_iff.mp hm]
        decide +kernel
      rw [if_pos hm, if_pos hm, if_neg hu]
    · by_cases hu : Dotted.root name ∈ uncoveredImports
      · simp only [hm, hu, List.contains_iff_mem.mpr hu, Bool.or_true, if_true, Bool.false_eq_true, if_false]
      · rw [if_neg hm, if_neg hm, if_neg hu, Bool.eq_false_iff.mpr (mt List.contains_iff_mem.mp hu), Bool.or_false]
        rfl
  builtins := fun _ => rfl
  events := by
    intro e
    change ofMissingFile.auditFault? e = _
    unfold auditFault?
    dsimp only
    rw [ofMissingFile_blocksEvent e.name, ofMissingFile_blocksEvent "open:write"]
    by_cases hu : e.name ∈ uncoveredEvents
    · have hopen : e.name ≠ "open" := by
        intro h
        rw [h] at hu
        exact absurd hu (by decide +kernel)
      simp [hu, hopen]
    · have hwrite : uncoveredEvents.contains "open:write" = false := by decide +kernel
      have hname : uncoveredEvents.contains e.name = false := Bool.eq_false_iff.mpr (mt List.contains_iff_mem.mp hu)
      rw [hwrite, hname, if_neg hu, Bool.not_false, Bool.and_true, Bool.and_true]

/-! ## Files -/

/-- The table of a policy file. -/
def TableAt (files : FileTree) (path : String) (t : Toml.Table) : Prop :=
  ∃ text document, files.readText (Path.tidy path) = .ok text ∧ Toml.read text = .ok document ∧
    tableOf document = .ok t

/-- The policy of a path. If there is a file it is what the table of the file says. If there is none it is not the
default, which nothing was said against. -/
inductive Loaded (files : FileTree) (path : String) (p : Policy) : Prop where
  | present {t : Toml.Table} : files.exists (Path.tidy path) = true → TableAt files path t → p.Follows t →
      Loaded files path p
  | absent : files.exists (Path.tidy path) = false → ¬ p.Follows [] → p.Uncovers → Loaded files path p

theorem ofFile_missing {files : FileTree} {path : String} (h : files.exists (Path.tidy path) = false) :
    ofFile files path = .ok { ofMissingFile with path := some path } := by
  unfold ofFile
  exact if_neg (Bool.eq_false_iff.mp h)

theorem not_follows_ofMissingFile (path : Option String) : ¬ Follows [] { ofMissingFile with path } := fun h => by
  have hevents := congrArg blockedEvents (follows_nil.mp h)
  have hne : ofMissingFile.blockedEvents ≠ default.blockedEvents := by decide +kernel
  exact hne hevents

theorem ofFile_loaded {files : FileTree} {path : String} {p : Policy} (h : ofFile files path = .ok p) :
    Loaded files path p := by
  cases hexists : files.exists (Path.tidy path) with
  | false =>
    cases (ofFile_missing hexists).symm.trans h
    exact .absent hexists (not_follows_ofMissingFile _) (uncovers_ofMissingFile _)
  | true =>
    unfold ofFile at h
    dsimp only at h
    rw [if_pos hexists] at h
    obtain ⟨text, htext, h⟩ := ok_of_bind h
    obtain ⟨document, hdocument, h⟩ := ok_of_bind h
    obtain ⟨t, ht, h⟩ := ok_of_bind h
    exact .present hexists ⟨text, document, htext, hdocument, ht⟩ (ofTable_iff.mp h).1

end Policy

namespace EngineConfig

theorem ofTables_policy {files : FileTree} {base : String} {engine : Toml.Table} {policy : Option Datum}
    {c : EngineConfig} (h : ofTables files base engine policy = .ok c) :
    policyOf files base engine policy = .ok c.policy := by
  unfold ofTables at h
  obtain ⟨p, hp, h⟩ := ok_of_bind h
  dsimp only at h
  split at h
  · obtain ⟨x, -, h⟩ := ok_of_bind h
    obtain ⟨n, -, h⟩ := ok_of_bind h
    obtain ⟨-, _, _, _, -, -, -, rfl⟩ := make_eq h
    exact hp
  · cases h

theorem namedFile_eq {f : Datum} (h : f ≠ .none) {g : Option Datum}
    (hg : (match some f with
      | some .none => none
      | other => other) = g) : g = some f := by
  subst hg
  cases f with
  | none => exact absurd rfl h
  | _ => rfl

/-- The file that an engine table names. There may be no policy table beside it. -/
theorem policyOf_file {files : FileTree} {base : String} {engine : Toml.Table} {policy : Option Datum} {f : Datum}
    {p : Policy} (hf : Datum.entry? engine "policy_file" = some f) (hne : f ≠ .none) :
    policyOf files base engine policy = .ok p ↔
      policy = none ∧ Policy.ofFile files (Path.tidy (Path.join base f.asText)) = .ok p := by
  unfold policyOf
  dsimp only
  rw [hf]
  split
  case h_1 => simp
  case h_2 g hg =>
    cases namedFile_eq hne hg
    simp
  case h_3 hg => cases namedFile_eq hne hg
  case h_4 hg => cases namedFile_eq hne hg
  case h_5 hg => cases namedFile_eq hne hg

end EngineConfig

theorem Cli.Command.override_policy {files : FileTree} {base c : EngineConfig} {r : RunOptions} {path : String}
    (hr : r.policyFile = some path) (h : override files base r = .ok c) : Policy.ofFile files path = .ok c.policy := by
  unfold override at h
  rw [hr] at h
  obtain ⟨p, hp, h⟩ := ok_of_bind h
  obtain ⟨-, _, _, _, -, -, -, rfl⟩ := EngineConfig.make_eq h
  exact hp

/-- For all paths and files, and by every way that leads to a policy file. -/
theorem policy_file_loaded (files : FileTree) :
    (∀ path p, Policy.ofFile files path = .ok p → p.Loaded files path) ∧
      (∀ base engine policy f c, Datum.entry? engine "policy_file" = some f → f ≠ .none →
        EngineConfig.ofTables files base engine policy = .ok c →
        c.policy.Loaded files (Path.tidy (Path.join base f.asText))) ∧
      ∀ base r path c, r.policyFile = some path → Cli.Command.override files base r = .ok c →
        c.policy.Loaded files path := by
  refine ⟨fun _ _ => Policy.ofFile_loaded, fun base engine policy f c hf hne h => ?_, fun base r path c hr h => ?_⟩
  · exact Policy.ofFile_loaded ((EngineConfig.policyOf_file hf hne).mp (EngineConfig.ofTables_policy h)).2
  · exact Policy.ofFile_loaded (Cli.Command.override_policy hr h)

/-- No file, by every way that leads to it. -/
theorem missing_policy_file_loaded :
    let files : FileTree := .empty "/"
    (∃ p, Policy.ofFile files "none.toml" = .ok p ∧ p.Loaded files "none.toml" ∧ p.Uncovers) ∧
      (∃ c, EngineConfig.ofTables files "/" [(.text "policy_file", .text "none.toml")] none = .ok c ∧
        c.policy.Loaded files "/none.toml") ∧
      ∃ base r c, r.policyFile = some "none.toml" ∧ Cli.Command.override files base r = .ok c ∧
        c.policy.Loaded files "none.toml" := by
  intro files
  obtain ⟨hfile, htable, hoption⟩ := policy_file_loaded files
  have hread : ∀ path, files.exists (Path.tidy path) = false → Policy.ofFile files path =
      .ok { Policy.ofMissingFile with path := some path } := fun _ => Policy.ofFile_missing
  have hnone := hread "none.toml" (by decide +kernel)
  refine ⟨⟨_, hnone, hfile _ _ hnone, Policy.uncovers_ofMissingFile _⟩, ?_, ?_⟩
  · have hplace : Path.tidy (Path.join "/" (Datum.text "none.toml").asText) = "/none.toml" := by decide +kernel
    have hpolicy : EngineConfig.policyOf files "/" [(.text "policy_file", .text "none.toml")] none =
        .ok { Policy.ofMissingFile with path := some "/none.toml" } := by
      refine (EngineConfig.policyOf_file rfl Datum.noConfusion).mpr ⟨rfl, ?_⟩
      rw [hplace]
      exact hread _ (by decide +kernel)
    obtain ⟨c, hc⟩ : ∃ c, EngineConfig.ofTables files "/" [(.text "policy_file", .text "none.toml")] none = .ok c := by
      unfold EngineConfig.ofTables
      rw [hpolicy]
      exact ⟨_, rfl⟩
    exact ⟨c, hc, hplace ▸ htable _ _ _ _ c rfl Datum.noConfusion hc⟩
  · obtain ⟨base, hbase⟩ : ∃ base : EngineConfig, base = ⟨[], [], .bool true, .float 5.0, .default, .int 500⟩ :=
      ⟨_, rfl⟩
    obtain ⟨r, hr⟩ : ∃ r : Cli.RunOptions, r = { (default : Cli.RunOptions) with policyFile := some "none.toml" } :=
      ⟨_, rfl⟩
    obtain ⟨c, hc⟩ : ∃ c, Cli.Command.override files base r = .ok c := by
      unfold Cli.Command.override
      rw [hr, hbase]
      dsimp only
      rw [hnone]
      exact ⟨_, rfl⟩
    have hfile : r.policyFile = some "none.toml" := by rw [hr]
    exact ⟨base, r, c, hfile, hc, hoption _ _ _ c hfile hc⟩

/-- A path without a file: an operation and an import get through that the default rejects. -/
theorem missing_policy_file_weaker :
    ∃ p, Policy.ofFile (.empty "/") "none.toml" = .ok p ∧
      (Policy.default.auditFault? ⟨"shutil.rmtree", []⟩).isSome ∧ p.auditFault? ⟨"shutil.rmtree", []⟩ = none ∧
      (Policy.default.importFault? "shutil" 0).isSome ∧ p.importFault? "shutil" 0 = none := by
  have hmissing : (FileTree.empty "/").exists (Path.tidy "none.toml") = false := by decide +kernel
  refine ⟨_, Policy.ofFile_missing hmissing, ?_⟩
  decide +kernel

end Evalbox
