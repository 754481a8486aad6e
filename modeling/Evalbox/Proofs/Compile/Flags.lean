import Evalbox.Engine.Snippets

/-!
# What compiler flags do to messages

What there is to say about a source does not depend on whether warnings are fatal, whether they are suppressed, and
whether imports are checked. The flags only choose what of it is reported, and at which level; and a program is handed
out just if none of the reported messages is an error (`compile_reporting`).
-/

namespace Evalbox

open Lang

/-- A message as it is reported where warnings are fatal. -/
def Message.escalate (fatal : Bool) (m : Message) : Message := if fatal then { m with level := Level.error } else m

theorem Message.escalate_level (m : Message) : (m.escalate true).level = Level.error := rfl

theorem Message.escalate_of_error {m : Message} (h : m.level = Level.error) (fatal : Bool) : m.escalate fatal = m := by
  cases fatal with
  | false => rfl
  | true => rw [escalate, if_pos rfl, ← h]

/-- All messages about a source, each at its own level. -/
structure Remarks where
  refusal : List Message
  warnings : List Message
  unresolved : List Message

namespace Remarks

/-- The messages that flags let through, at the levels that they ask for. -/
def reported (n : Remarks) (fatal suppress check : Bool) : List Message :=
  (n.refusal ++ (if suppress then [] else n.warnings) ++ (if check then n.unresolved else [])).map
    (Message.escalate fatal)

/-- At most one refusal, as an error; warnings at the level of their category; and missing imports, as warnings, where
the source is not refused. -/
structure Graded (n : Remarks) : Prop where
  refusal_le : n.refusal.length ≤ 1
  refusal : ∀ m ∈ n.refusal, m.level = Level.error
  warnings : ∃ ws : List Warning, n.warnings = ws.map fun w =>
    ⟨if w.kind = .deprecation then Level.info else Level.warning, w.kind.name ++ ": " ++ w.text, some w.line,
      none, none, none⟩
  unresolved : ∀ m ∈ n.unresolved, m.level = Level.warning
  exclusive : n.refusal ≠ [] → n.unresolved = []

theorem mem_of_reported {n : Remarks} {fatal suppress check : Bool} {m : Message}
    (h : m ∈ n.reported fatal suppress check) :
    ∃ m', (m' ∈ n.refusal ∨ m' ∈ n.warnings ∨ m' ∈ n.unresolved) ∧ m = m'.escalate fatal := by
  obtain ⟨m', hm, rfl⟩ := List.mem_map.mp h
  refine ⟨m', ?_, rfl⟩
  rcases List.mem_append.mp hm with hm | hi
  · rcases List.mem_append.mp hm with hr | hw
    · exact .inl hr
    · exact .inr (.inl (List.mem_ite_nil_left.mp hw).2)
  · exact .inr (.inr (List.mem_ite_nil_right.mp hi).2)

/-- How many messages are reported does not depend on what is fatal. -/
theorem reported_eq_nil_iff (n : Remarks) (fatal fatal' suppress check : Bool) :
    n.reported fatal suppress check = [] ↔ n.reported fatal' suppress check = [] := by
  rw [reported, reported, List.map_eq_nil_iff, List.map_eq_nil_iff]

/-- Where warnings are fatal nothing can be reported but errors. -/
theorem forall_fatal_iff (n : Remarks) (suppress check : Bool) :
    (∀ m ∈ n.reported true suppress check, m.level ≠ Level.error) ↔ n.reported true suppress check = [] := by
  refine ⟨fun h => List.eq_nil_iff_forall_not_mem.mpr fun m hm => h m hm ?_, fun h m hm => ?_⟩
  · obtain ⟨m', -, rfl⟩ := mem_of_reported hm
    exact m'.escalate_level
  · rw [h] at hm
    cases hm

theorem Graded.level_cases {n : Remarks} (hn : n.Graded) {m : Message}
    (h : m ∈ n.refusal ∨ m ∈ n.warnings ∨ m ∈ n.unresolved) :
    m.level = Level.info ∨ m.level = Level.warning ∨ m.level = Level.error := by
  rcases h with hr | hw | hi
  · exact .inr (.inr (hn.refusal m hr))
  · obtain ⟨ws, hws⟩ := hn.warnings
    obtain ⟨w, -, rfl⟩ := List.mem_map.mp (hws ▸ hw)
    dsimp only
    split
    · exact .inl rfl
    · exact .inr (.inl rfl)
  · exact .inr (.inl (hn.unresolved m hi))

/-- A reported message counts as an error just if it is at this level: no other one is used from there up. -/
theorem Graded.severity_eq_error {n : Remarks} (hn : n.Graded) {fatal suppress check : Bool} {m : Message}
    (h : m ∈ n.reported fatal suppress check) : m.severity = .error ↔ m.level = Level.error := by
  obtain ⟨m', hm', rfl⟩ := mem_of_reported h
  cases fatal with
  | true => exact iff_of_true rfl rfl
  | false =>
    change Severity.ofLevel m'.level = .error ↔ m'.level = Level.error
    rcases hn.level_cases hm' with hl | hl | hl <;> rw [hl] <;> decide

end Remarks

namespace Findings

/-- All messages about what was found. -/
def remarks (f : Findings) : Remarks :=
  ⟨f.refusal.toList.map Refusal.message, f.warnings.map (·.message false), f.unresolved.map (·.message false)⟩

/-- There is a program unless the source is refused, and imports are not looked at if it is. -/
structure Settled (f : Findings) : Prop where
  program : f.program = none ↔ f.refusal ≠ none
  unresolved : f.refusal ≠ none → f.unresolved = []

/-- Flags choose among the messages, and what is fatal escalates them. -/
theorem messages_eq (f : Findings) (o : CompilerOptions) :
    f.messages o = f.remarks.reported o.fatalWarnings o.suppressWarnings o.checkImports := by
  have hrefusal : f.remarks.refusal.map (Message.escalate o.fatalWarnings) = f.refusal.toList.map Refusal.message := by
    rw [remarks, List.map_map]
    refine List.map_congr_left fun r _ => Message.escalate_of_error ?_ _
    cases r <;> rfl
  have hwarning : ∀ w : Warning, (w.message false).escalate o.fatalWarnings = w.message o.fatalWarnings := by
    intro w
    cases o.fatalWarnings <;> rfl
  have himport : ∀ r : ImportedRoot, (r.message false).escalate o.fatalWarnings = r.message o.fatalWarnings := by
    intro r
    cases o.fatalWarnings <;> rfl
  rw [messages, Remarks.reported, List.map_append, List.map_append, hrefusal, apply_ite (List.map _),
    apply_ite (List.map _), remarks, List.map_map, List.map_map]
  simp only [Function.comp_def, hwarning, himport, List.map_nil]

/-- What is found in any source. -/
theorem settled_ofSource (resolves : String → Bool) (source : List Char) (filename : String) (optimize : Int)
    (futureFlags : Nat) : (ofSource resolves source filename optimize futureFlags).Settled := by
  unfold ofSource
  split
  · exact ⟨iff_of_true rfl (Option.some_ne_none _), fun _ => rfl⟩
  · dsimp only
    split
    · exact ⟨iff_of_true rfl (Option.some_ne_none _), fun _ => rfl⟩
    · exact ⟨iff_of_false (Option.some_ne_none _) fun h => h rfl, fun h => absurd rfl h⟩

/-- What can be imported matters only for the imports that are missing. -/
theorem ofSource_resolves (resolves resolves' : String → Bool) (source : List Char) (filename : String)
    (optimize : Int) (futureFlags : Nat) : ∃ missing, ofSource resolves source filename optimize futureFlags =
      { ofSource resolves' source filename optimize futureFlags with unresolved := missing } := by
  unfold ofSource
  split
  · exact ⟨[], rfl⟩
  · dsimp only
    split
    · exact ⟨[], rfl⟩
    · exact ⟨_, rfl⟩

theorem Settled.graded {f : Findings} (hf : f.Settled) : f.remarks.Graded where
  refusal_le := by
    rw [remarks, List.length_map]
    exact Option.length_toList_le
  refusal m hm := by
    obtain ⟨r, -, rfl⟩ := List.mem_map.mp hm
    cases r <;> rfl
  warnings := by
    refine ⟨f.warnings, List.map_congr_left fun w _ => ?_⟩
    rw [Warning.message]
    congr 1
    cases w.kind <;> decide
  unresolved m hm := by
    obtain ⟨r, -, rfl⟩ := List.mem_map.mp hm
    rfl
  exclusive h := by
    rw [remarks, hf.unresolved]
    · rfl
    · intro hn
      rw [remarks, hn] at h
      exact h rfl

/-- What a compilation with these findings answers. -/
def compilation (f : Findings) (o : CompilerOptions) : Compilation Fault Program :=
  ⟨f.messages o,
    if (f.messages o).any (·.severity = .error) then .refused
    else match f.program with
      | some p => .produced p
      | none => .refused⟩

/-- Missing imports do not matter where they are not asked for. -/
theorem compilation_unresolved (f : Findings) (missing : List ImportedRoot) {o : CompilerOptions}
    (h : o.checkImports = false) : { f with unresolved := missing }.compilation o = f.compilation o := by
  have hm : { f with unresolved := missing }.messages o = f.messages o := by
    simp only [messages, h, Bool.false_eq_true, if_false]
  rw [compilation, compilation, hm]

end Findings

/-- A request with other flags for its messages. -/
def CompileRequest.flagged (r : CompileRequest) (fatal suppress check : Bool) : CompileRequest :=
  { r with options := { r.options with fatalWarnings := fatal, suppressWarnings := suppress, checkImports := check } }

/-- What is found about a source, with its imports looked for as they are where imports are checked. -/
def CompileRequest.findings (r : CompileRequest) (policies : List Policy) (o : Outside) : Findings :=
  .ofSource ((compileSnippet (r.flagged false false true) policies o).2.resolves r.classpath) r.source r.filename
    r.options.optimize r.options.futureFlags

theorem CompileRequest.settled_findings (r : CompileRequest) (policies : List Policy) (o : Outside) :
    (r.findings policies o).Settled :=
  Findings.settled_ofSource ..

/-- One set of findings serves all flags. -/
theorem compileSnippet_eq (r : CompileRequest) {policies : List Policy} (o : Outside)
    (h : Policy.auditFault policies.head? ⟨"compile", [.text (String.ofList r.source), .text r.filename]⟩ = none)
    (fatal suppress check : Bool) : (compileSnippet (r.flagged fatal suppress check) policies o).1 =
      (r.findings policies o).compilation (r.flagged fatal suppress check).options := by
  let found (o : Outside) : Findings :=
    .ofSource (o.resolves r.classpath) r.source r.filename r.options.optimize r.options.futureFlags
  let o' := (compileSnippet (r.flagged false false true) policies o).2
  have hfound : (compileSnippet (r.flagged fatal suppress check) policies o).1 =
      (found (if check then o' else o)).compilation (r.flagged fatal suppress check).options := by
    simp only [o', compileSnippet, CompileRequest.flagged, h]
    cases check <;> rfl
  rw [hfound]
  cases check with
  | true => rfl
  | false =>
    -- directories are not looked through, but then what they offer is not asked for either
    obtain ⟨missing, hmissing⟩ := Findings.ofSource_resolves (o.resolves r.classpath) (o'.resolves r.classpath) r.source
      r.filename r.options.optimize r.options.futureFlags
    have hsame : found o = { found o' with unresolved := missing } := hmissing
    rw [if_neg Bool.false_ne_true, hsame]
    exact Findings.compilation_unresolved _ _ rfl

theorem CompilerOptions.ofFlags_werror {flags : List String} {options : CompilerOptions}
    (h : ofFlags flags = .ok options) :
    ofFlags (flags ++ ["-Werror"]) = .ok { options with fatalWarnings := true } := by
  rw [ofFlags, extend] at h ⊢
  rw [List.foldlM_append, h]
  rfl

/-- A compilation hands out a program. -/
def Compilation.Yields {ε κ : Type} (c : Compilation ε κ) : Prop := ∃ p, c.result = .produced p

/-- How the compilations of one source with different flags hang together: `run` tells what one answers where warnings
are fatal, where they are suppressed and where imports are checked, and `n` is all that is said about the source. -/
structure Reporting (run : Bool → Bool → Bool → Compilation Fault Program) (n : Remarks) : Prop where
  graded : n.Graded
  reports : ∀ fatal suppress check, (run fatal suppress check).messages = n.reported fatal suppress check
  yields : ∀ fatal suppress check, (run fatal suppress check).Yields ↔
    ∀ m ∈ (run fatal suppress check).messages, m.level ≠ Level.error
  refuses : ∀ fatal suppress check, ¬(run fatal suppress check).Yields → (run fatal suppress check).result = .refused
  /-- All that hand out a program hand out the same one. -/
  same : ∃ program, ∀ fatal suppress check p, (run fatal suppress check).result = .produced p → p = program
  /-- Where warnings are fatal there is a program just if otherwise nothing is reported. -/
  strict : ∀ fatal suppress check, (run true suppress check).Yields ↔ (run fatal suppress check).messages = []

namespace Findings.Settled

variable {f : Findings} (hf : f.Settled) (o : CompilerOptions)
include hf

theorem any_error_iff :
    (f.messages o).any (·.severity = .error) = true ↔ ∃ m ∈ f.messages o, m.level = Level.error := by
  rw [List.any_eq_true, messages_eq]
  refine exists_congr fun m => and_congr_right fun hm => ?_
  rw [decide_eq_true_iff, hf.graded.severity_eq_error hm]

/-- A source that is refused is so with a message. -/
theorem program_of_quiet (h : ∀ m ∈ f.messages o, m.level ≠ Level.error) : ∃ p, f.program = some p := by
  refine Option.ne_none_iff_exists'.mp fun hp => ?_
  obtain ⟨r, hr⟩ := Option.ne_none_iff_exists'.mp (hf.program.mp hp)
  have hm : r.message ∈ f.messages o := by
    rw [messages, hr, List.append_assoc]
    exact List.mem_append_left _ List.mem_cons_self
  refine h _ hm ?_
  cases r <;> rfl

/-- A program is handed out, or an error is reported. -/
theorem compilation_cases :
    ((∃ p, f.program = some p ∧ (f.compilation o).result = .produced p) ∧ ∀ m ∈ f.messages o, m.level ≠ Level.error) ∨
      ((f.compilation o).result = .refused ∧ ∃ m ∈ f.messages o, m.level = Level.error) := by
  by_cases h : ∃ m ∈ f.messages o, m.level = Level.error
  · refine .inr ⟨?_, h⟩
    rw [compilation, if_pos ((hf.any_error_iff o).mpr h)]
  · have hq : ∀ m ∈ f.messages o, m.level ≠ Level.error := fun m hm he => h ⟨m, hm, he⟩
    obtain ⟨p, hp⟩ := hf.program_of_quiet o hq
    refine .inl ⟨⟨p, hp, ?_⟩, hq⟩
    rw [compilation, if_neg (fun ha => h ((hf.any_error_iff o).mp ha)), hp]

theorem yields_iff : (f.compilation o).Yields ↔ ∀ m ∈ f.messages o, m.level ≠ Level.error := by
  rcases hf.compilation_cases o with ⟨⟨p, -, hp⟩, hq⟩ | ⟨hr, m, hm, he⟩
  · exact iff_of_true ⟨p, hp⟩ hq
  · refine iff_of_false (fun hy => ?_) fun hq => hq m hm he
    obtain ⟨p, hp⟩ := hy
    exact absurd (hr.symm.trans hp) (by simp)

theorem reporting : Reporting (fun fatal suppress check => f.compilation { o with
    fatalWarnings := fatal, suppressWarnings := suppress, checkImports := check }) f.remarks := by
  constructor
  case graded => exact hf.graded
  case reports => exact fun fatal suppress check => f.messages_eq _
  case yields => exact fun fatal suppress check => hf.yields_iff _
  case refuses =>
    intro fatal suppress check hn
    rcases hf.compilation_cases _ with ⟨⟨p, -, hp⟩, -⟩ | ⟨hr, -⟩
    · exact absurd ⟨p, hp⟩ hn
    · exact hr
  case same =>
    refine ⟨f.program.getD default, fun fatal suppress check p hp => ?_⟩
    rcases hf.compilation_cases _ with ⟨⟨p', hp', hr⟩, -⟩ | ⟨hr, -⟩
    · rw [hp', Option.getD_some]
      exact CompileEnd.produced.inj (hp.symm.trans hr)
    · exact absurd (hr.symm.trans hp) (by simp)
  case strict =>
    intro fatal suppress check
    refine (hf.yields_iff _).trans ?_
    change (∀ m ∈ f.messages _, _) ↔ f.messages _ = []
    rw [f.messages_eq, f.messages_eq, Remarks.forall_fatal_iff]
    exact f.remarks.reported_eq_nil_iff ..

end Findings.Settled

/-- For every source, whatever else is asked for; and so a source passes with all warnings made errors just if there is
nothing to report without that. -/
theorem compile_reporting (r : CompileRequest) {policies : List Policy} (o : Outside)
    (h : Policy.auditFault policies.head? ⟨"compile", [.text (String.ofList r.source), .text r.filename]⟩ = none) :
    Reporting (fun fatal suppress check => (compileSnippet (r.flagged fatal suppress check) policies o).1)
        (r.findings policies o).remarks ∧
      ∀ flags, CompilerOptions.ofFlags flags = .ok r.options →
        ∃ options, CompilerOptions.ofFlags (flags ++ ["-Werror"]) = .ok options ∧
          ((compileSnippet { r with options } policies o).1.Yields ↔
            (compileSnippet r policies o).1.messages = []) := by
  have hrun := compileSnippet_eq r o h
  have hreporting := (r.settled_findings policies o).reporting r.options
  constructor
  · simp only [hrun]
    exact hreporting
  · intro flags hflags
    refine ⟨_, CompilerOptions.ofFlags_werror hflags, ?_⟩
    change (compileSnippet (r.flagged true r.options.suppressWarnings r.options.checkImports) policies o).1.Yields ↔
      (compileSnippet (r.flagged r.options.fatalWarnings r.options.suppressWarnings r.options.checkImports)
        policies o).1.messages = []
    rw [hrun, hrun]
    exact hreporting.strict ..

/-- Two warnings of different categories; none is left where they are suppressed, and then they may be fatal. -/
theorem warned_reporting :
    let r : CompileRequest := ⟨"import json\n1 is '\\d'".toList, "<demo>", "", .default⟩
    (compileSnippet r [] default).1.messages.map (·.level) = [Level.info, Level.warning] ∧
      (compileSnippet (r.flagged false true true) [] default).1.messages = [] ∧
    Reporting (fun fatal suppress check => (compileSnippet (r.flagged fatal suppress check) [] default).1)
        (r.findings [] default).remarks ∧
      ∀ flags, CompilerOptions.ofFlags flags = .ok r.options →
        ∃ options, CompilerOptions.ofFlags (flags ++ ["-Werror"]) = .ok options ∧
          ((compileSnippet { r with options } [] default).1.Yields ↔ (compileSnippet r [] default).1.messages = []) :=
  ⟨by decide +kernel, by decide +kernel, compile_reporting _ _ rfl⟩

end Evalbox
