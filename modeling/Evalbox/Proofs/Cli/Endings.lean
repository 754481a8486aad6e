import Evalbox.Proofs.Cli.Words
import Evalbox.Proofs.Config.Faults

/-!
# How a run of the program ends

Before it evaluates anything the program reads its words, the files of the configuration, the snippet and the prelude.
`Reaches` says where that ends, for all words and files: the run is refused with a message and the exit code for it, or
it goes on to the evaluation, or a fault escapes. The last happens in a few cases only, which are named: a number of the
configuration that has no conversion, a source whose bytes are no text, a name that no file can have, and an option
whose value is the separator (`run_reaches`).
-/

namespace Evalbox

namespace EngineConfig

/-- Both limits can be read as numbers. -/
def Convertible (c : EngineConfig) : Prop := (∃ x, c.timeout.toFloat = .ok x) ∧ ∃ n, c.maxUnits.toInt = .ok n

theorem make_convertible (cwd : String) (s : Settings) : Returns (make cwd s) Convertible := by
  intro c hc
  obtain ⟨hs, htimeout, hunits, -⟩ := make_ok hc
  obtain ⟨x, hx, -⟩ := hs.timeout
  obtain ⟨n, hn, -⟩ := hs.maxUnits
  exact ⟨⟨x, htimeout ▸ hx⟩, n, hunits ▸ hn⟩

theorem ofFile_convertible (files : FileTree) (path : String) : Returns (ofFile files path) Convertible := by
  unfold ofFile
  refine .bind (.any _) fun text _ => .bind (.any _) fun document _ => ?_
  split
  · unfold ofTables
    refine .bind (.any _) fun p _ => ?_
    dsimp only
    split
    · exact .bind (.any _) fun x _ => .bind (.any _) fun n _ => make_convertible _ _
    · exact .error _
  · exact .error _

end EngineConfig

namespace Cli

namespace Command

/-- A limit that a command asks for has no conversion: it is in the configuration file, or its option got the separator
as its value. -/
def Misfit (files : FileTree) (c : Command) (f : Fault) : Prop :=
  (∃ path engine, c.configFile = some path ∧ EngineConfig.EngineAt files path engine ∧ EngineConfig.Misfit engine f) ∨
    ∃ r, c.action = .run r ∧ r.timeout = some (.list []) ∧ Datum.toFloat (.list []) = .error f

theorem Misfit.unforeseen {files : FileTree} {c : Command} {f : Fault} (h : c.Misfit files f) : ¬ f.Foreseen := by
  rcases h with ⟨path, engine, -, -, hf⟩ | ⟨r, -, -, hf⟩
  · exact hf.unforeseen
  · cases hf
    exact Fault.type_unforeseen _

theorem override_raises (files : FileTree) {base : EngineConfig} {r : RunOptions} (hbase : base.Convertible)
    (hr : r.Read) : Raises (override files base r) fun f =>
      f.Foreseen ∨ r.timeout = some (.list []) ∧ Datum.toFloat (.list []) = .error f := by
  obtain ⟨⟨x, hx⟩, n, hn⟩ := hbase
  have htimeout : Raises (r.timeout.getD base.timeout).toFloat fun f =>
      f.Foreseen ∨ r.timeout = some (.list []) ∧ Datum.toFloat (.list []) = .error f := by
    cases htimeout : r.timeout with
    | none => exact fun f hf => nomatch hx.symm.trans hf
    | some d =>
      obtain rfl | ⟨y, rfl⟩ := hr.timeout d htimeout
      · exact fun f hf => .inr ⟨rfl, hf⟩
      · exact .ok _
  have hunits : Raises base.maxUnits.toInt fun f =>
      f.Foreseen ∨ r.timeout = some (.list []) ∧ Datum.toFloat (.list []) = .error f :=
    fun f hf => nomatch hn.symm.trans hf
  unfold override
  dsimp only
  cases r.policyFile with
  | none =>
    refine .bind (.ok _) fun policy _ => ?_
    exact EngineConfig.make_raises _ (fun _ => .inl) (.ok _) (.ok _) htimeout hunits
  | some file =>
    refine .bind ((Policy.ofFile_raises files file).imp fun _ => .inl) fun policy _ => ?_
    exact EngineConfig.make_raises _ (fun _ => .inl) (.ok _) (.ok _) htimeout hunits

/-- What an action makes of a configuration. -/
theorem action_raises (files : FileTree) {base : EngineConfig} {c : Command} (hbase : base.Convertible)
    (hc : ReadAction c.action) :
    Raises (match c.action with
      | .policy => Except.ok base
      | .run r => override files base r) fun f => f.Foreseen ∨ c.Misfit files f := by
  cases haction : c.action with
  | policy => exact .ok _
  | run r =>
    exact (override_raises files hbase (hc r haction)).imp fun f hf => hf.imp_right fun hm => .inr ⟨r, haction, hm⟩

theorem config_raises (files : FileTree) {c : Command} (hc : ReadAction c.action) :
    Raises (c.config files) fun f => f.Foreseen ∨ c.Misfit files f := by
  unfold config
  cases hfile : c.configFile with
  | none =>
    refine .bind ?_ fun base hb => action_raises files (EngineConfig.make_convertible _ _ _ hb) hc
    exact EngineConfig.make_raises _ (fun _ => .inl) (.ok _) (.ok _) (.ok _) (.ok _)
  | some path =>
    refine .bind ?_ fun base hb => action_raises files (EngineConfig.ofFile_convertible _ _ _ hb) hc
    refine (EngineConfig.ofFile_raises files path).imp fun f hf => hf.imp_right ?_
    rintro ⟨engine, hat, hm⟩
    exact .inl ⟨path, engine, hfile, hat, hm⟩

end Command

/-! ## Sources -/

/-- A fault that stands for a source that cannot be read. -/
def Unreadable (f : Fault) : Prop := spoilsSnippet f = true

instance : DecidablePred Unreadable := fun f => inferInstanceAs (Decidable (spoilsSnippet f = true))

theorem unreadable_congr {f g : Fault} (h : f.kind = g.kind) : Unreadable f ↔ Unreadable g :=
  Bool.eq_iff_iff.mp (isOneOf_congr h _)

theorem openFault_unreadable (path : String) {e : OpenError} (h : e ≠ .nullCharacter) :
    Unreadable (e.fault path) :=
  (unreadable_congr (g := e.fault "") (by cases e <;> rfl)).mpr (by revert h; cases e <;> decide +kernel)

/-- Why a source of this name cannot be read, beside the faults of the file system: the bytes of the file are no text,
no file can have the name, or the name is the separator. -/
inductive SourceMisfit (files : FileTree) : Datum → Fault → Prop where
  | bytes {s : String} {bytes : List UInt8} {e : Text.DecodeFault} :
      files.openRead (Path.tidy s) = .ok bytes → Text.decode bytes = .error e →
      SourceMisfit files (.text s) (.decoding e.message)
  | name {s : String} : files.openRead (Path.tidy s) = .error .nullCharacter →
      SourceMisfit files (.text s) (.value "embedded null byte")
  | separator : SourceMisfit files (.list []) (.type "expected str, bytes or os.PathLike object, not list")

theorem SourceMisfit.not_unreadable {files : FileTree} {d : Datum} {f : Fault} (h : SourceMisfit files d f) :
    ¬ Unreadable f := by
  cases h with
  | bytes _ _ => exact fun h => absurd ((unreadable_congr (g := .decoding "") rfl).mp h) (by decide +kernel)
  | name _ => decide +kernel
  | separator => decide +kernel

theorem readSource_raises (files : FileTree) (stdin : String) {d : Datum} (hd : IsValue d) :
    Raises (readSource files stdin d) fun f => Unreadable f ∨ SourceMisfit files d f := by
  obtain rfl | ⟨s, rfl⟩ := hd
  · exact .error (.inr .separator)
  · unfold readSource
    dsimp only
    split
    · exact .ok _
    · unfold FileTree.readText
      cases hopen : files.openRead (Path.tidy s) with
      | error e =>
        refine .error ?_
        by_cases he : e = .nullCharacter
        · subst e
          exact .inr (.name hopen)
        · exact .inl (openFault_unreadable _ he)
      | ok bytes =>
        dsimp only
        cases hbytes : Text.decode bytes with
        | ok cs => exact .ok _
        | error e => exact .error (.inr (.bytes hopen hbytes))

/-- One of the two sources cannot be read. -/
def RunOptions.Misfit (files : FileTree) (r : RunOptions) (f : Fault) : Prop :=
  SourceMisfit files (.text r.snippet) f ∨ ∃ p, r.prelude = some p ∧ SourceMisfit files p f

theorem RunOptions.Misfit.not_unreadable {files : FileTree} {r : RunOptions} {f : Fault} (h : r.Misfit files f) :
    ¬ Unreadable f := by
  rcases h with h | ⟨p, -, h⟩
  · exact h.not_unreadable
  · exact h.not_unreadable

theorem readSources_raises (files : FileTree) (stdin : String) {r : RunOptions} (hr : r.Read) :
    Raises (readSources files stdin r) fun f => Unreadable f ∨ r.Misfit files f := by
  unfold readSources
  refine .bind ((readSource_raises files stdin (.inr ⟨r.snippet, rfl⟩)).imp fun f => .imp_right .inl) fun code _ => ?_
  cases hprelude : r.prelude with
  | none => exact .ok _
  | some p =>
    refine .bind ?_ fun prelude _ => .ok _
    exact (readSource_raises files _ (hr.prelude p hprelude)).imp fun f => .imp_right fun h => .inr ⟨p, hprelude, h⟩

/-! ## Runs -/

/-- Where a run stands when all is read: it ends, or has something to evaluate. -/
inductive Standing where
  | escapes (f : Fault)
  | ends (finish : Finish)
  | evaluates (config : EngineConfig) (prelude code : String)

/-- How the run goes on from there. -/
def Standing.ending (evaluate : EngineConfig → String → String → Outcome) : Standing → Except Fault Finish
  | escapes f => .error f
  | ends finish => .ok finish
  | evaluates config prelude code => .ok (.replied (reportOutcome (evaluate config prelude code)))

/-- A run is refused with a message and the exit code for it. -/
def Standing.refuses (message : String) : Standing :=
  .ends (.replied ⟨[.panel none (literal message)], ExitCode.internal⟩)

/-- A run shows a policy. -/
def Standing.shows (p : Policy) : Standing :=
  .ends (.replied ⟨[.panel (some "Security Policy") (policyText p)], ExitCode.ok⟩)

/-- Where a run gets. -/
inductive Reaches (files : FileTree) (stdin : String) (words : List String) : Standing → Prop where
  /-- The words are no command, or ask for help. -/
  | stopped {stop : Stop} : Command.parse words = .error stop → Reaches files stdin words (.ends (.stopped stop))
  | invalid {c : Command} {f : Fault} : Command.parse words = .ok c → c.config files = .error f → f.Foreseen →
      Reaches files stdin words (.refuses ("Invalid configuration: " ++ f.text))
  | misfit {c : Command} {f : Fault} : Command.parse words = .ok c → c.config files = .error f → c.Misfit files f →
      Reaches files stdin words (.escapes f)
  | policy {c : Command} {config : EngineConfig} : Command.parse words = .ok c → c.config files = .ok config →
      c.action = .policy → Reaches files stdin words (.shows config.policy)
  | unreadable {c : Command} {config : EngineConfig} {r : RunOptions} {f : Fault} : Command.parse words = .ok c →
      c.config files = .ok config → c.action = .run r → readSources files stdin r = .error f → Unreadable f →
      Reaches files stdin words (.refuses ("Cannot read snippet: " ++ f.text))
  | source {c : Command} {config : EngineConfig} {r : RunOptions} {f : Fault} : Command.parse words = .ok c →
      c.config files = .ok config → c.action = .run r → readSources files stdin r = .error f → r.Misfit files f →
      Reaches files stdin words (.escapes f)
  | evaluates {c : Command} {config : EngineConfig} {r : RunOptions} {prelude code : String} :
      Command.parse words = .ok c → c.config files = .ok config → c.action = .run r →
      readSources files stdin r = .ok (code, prelude) → Reaches files stdin words (.evaluates config prelude code)

/-- Every run gets somewhere. -/
theorem exists_reaches (files : FileTree) (stdin : String) (words : List String) :
    ∃ p, Reaches files stdin words p := by
  cases hwords : Command.parse words with
  | error stop => exact ⟨_, .stopped hwords⟩
  | ok c =>
    have hread := Command.parse_read words c hwords
    cases hconfig : c.config files with
    | error f =>
      rcases Command.config_raises files hread f hconfig with hf | hf
      · exact ⟨_, .invalid hwords hconfig hf⟩
      · exact ⟨_, .misfit hwords hconfig hf⟩
    | ok config =>
      cases haction : c.action with
      | policy => exact ⟨_, .policy hwords hconfig haction⟩
      | run r =>
        cases hsources : readSources files stdin r with
        | error f =>
          rcases readSources_raises files stdin (hread r haction) f hsources with hf | hf
          · exact ⟨_, .unreadable hwords hconfig haction hsources hf⟩
          · exact ⟨_, .source hwords hconfig haction hsources hf⟩
        | ok sources => exact ⟨_, .evaluates hwords hconfig haction hsources⟩

/-- And it goes on from there, whatever evaluates its snippet. -/
theorem Reaches.ending {files : FileTree} {stdin : String} {words : List String} {p : Standing}
    (h : Reaches files stdin words p) (evaluate : EngineConfig → String → String → Outcome) :
    runWith evaluate files stdin words = p.ending evaluate := by
  cases h with
  | stopped hwords => simp only [runWith, hwords, Standing.ending]
  | invalid hwords hconfig hf =>
    simp only [runWith, hwords, hconfig]
    exact if_pos hf
  | misfit hwords hconfig hf =>
    simp only [runWith, hwords, hconfig]
    exact if_neg hf.unforeseen
  | policy hwords hconfig haction =>
    simp only [runWith, hwords, hconfig, haction]
    rfl
  | unreadable hwords hconfig haction hsources hf =>
    simp only [runWith, hwords, hconfig, haction, carryOut, hsources]
    exact congrArg (Except.map Finish.replied) (if_pos hf)
  | source hwords hconfig haction hsources hf =>
    simp only [runWith, hwords, hconfig, haction, carryOut, hsources]
    exact congrArg (Except.map Finish.replied) (if_neg hf.not_unreadable)
  | evaluates hwords hconfig haction hsources =>
    simp only [runWith, hwords, hconfig, haction, carryOut, hsources]
    rfl

/-- For all files and words. Where a run gets does not depend on what evaluates snippets. -/
theorem run_reaches (files : FileTree) (stdin : String) (words : List String) :
    (∃ p, Reaches files stdin words p) ∧ ∀ p, Reaches files stdin words p →
      (∀ evaluate, runWith evaluate files stdin words = p.ending evaluate) ∧
        run files stdin words = p.ending (evaluateOnce files) :=
  ⟨exists_reaches files stdin words, fun _ hp => ⟨hp.ending, hp.ending (evaluateOnce files)⟩⟩

/-- A plain word behind `run` is a snippet. -/
theorem parse_run {name : String} (h : beginsWith "-" name = false) :
    Command.parse ["run", name] = .ok ⟨none, .run { (default : RunOptions) with snippet := name }⟩ := by
  have hname : name ≠ separator := by
    rintro rfl
    exact absurd h (by decide)
  have hword : ∀ {α : Type} (options : List (OptionSpec α)), classifyWord options name = .ok .plain := by
    intro α options
    simp only [classifyWord, h, Bool.not_false, Bool.true_or, if_true]
  have hrun : RunOptions.parse [name] = .ok ({ (default : RunOptions) with snippet := name }, []) := by
    simp only [RunOptions.parse, classify, hname, if_false, hword]
    rfl
  have haction : Command.parseAction ["run", name] =
      .ok (.run { (default : RunOptions) with snippet := name }, []) := by
    simp only [Command.parseAction, if_true, hrun]
    rfl
  have hwords : classify leadingOptions ["run", name] = .ok [("run", .plain), (name, .plain)] := by
    simp only [classify, hname, if_false, hword]
    rfl
  have htake : Command.take (none, none) (.operand ["run", name]) =
      .ok (none, some (.run { (default : RunOptions) with snippet := name }, [])) := by
    simp only [Command.take, haction]
    rfl
  have hscan : scan leadingOptions Command.take .rest [("run", .plain), (name, .plain)] (none, none) =
      .ok ((none, some (.run { (default : RunOptions) with snippet := name }, [])), []) := by
    simp only [scan, List.map_cons, List.map_nil, htake]
    rfl
  simp only [Command.parse, hwords, bind, Except.bind, hscan]
  rfl

/-- The sources of a run that names no prelude. -/
theorem readSources_plain {files : FileTree} (stdin : String) {name : String} (h : beginsWith "-" name = false) :
    readSources files stdin { (default : RunOptions) with snippet := name } =
      (files.readText (Path.tidy name)).map fun code => (code, "") := by
  have hdash : name ≠ "-" := by
    rintro rfl
    exact absurd h (by decide)
  simp only [readSources, readSource, if_neg hdash]
  rfl

/-- A snippet that cannot be opened. -/
theorem unopened_reaches {files : FileTree} (stdin : String) {name : String} {e : OpenError}
    (hname : beginsWith "-" name = false) (hopen : files.openRead (Path.tidy name) = .error e)
    (he : e ≠ .nullCharacter) : Reaches files stdin ["run", name]
      (.refuses ("Cannot read snippet: " ++ (e.fault (Path.tidy name)).text)) := by
  have htext : files.readText (Path.tidy name) = .error (e.fault (Path.tidy name)) := by
    simp only [FileTree.readText, hopen]
  have hsources := @readSources_plain files stdin name hname
  rw [htext] at hsources
  exact .unreadable (parse_run hname) rfl rfl hsources (openFault_unreadable _ he)

/-- A snippet whose bytes are no text. -/
theorem undecodable_reaches {files : FileTree} (stdin : String) {name : String} {bytes : List UInt8}
    {e : Text.DecodeFault} (hname : beginsWith "-" name = false) (hopen : files.openRead (Path.tidy name) = .ok bytes)
    (hbytes : Text.decode bytes = .error e) : Reaches files stdin ["run", name] (.escapes (.decoding e.message)) := by
  have htext : files.readText (Path.tidy name) = .error (.decoding e.message) := by
    simp only [FileTree.readText, hopen, hbytes]
  have hsources := @readSources_plain files stdin name hname
  rw [htext] at hsources
  exact .source (parse_run hname) rfl rfl hsources (.inl (.bytes hopen hbytes))

/-- A snippet that is not there. -/
theorem missing_snippet_reaches :
    let message := "Cannot read snippet: [Errno 2] No such file or directory: 's.py'"
    Reaches (.empty "/") "" ["run", "s.py"] (.refuses message) ∧
      ∀ evaluate, runWith evaluate (.empty "/") "" ["run", "s.py"] = .ok (.replied ⟨[.panel none message], 2⟩) := by
  intro message
  have hnode : (FileTree.empty "/").node? (Path.tidy "s.py") = none := by decide +kernel
  have hwalk : (FileTree.empty "/").walkError [] (Path.split (Path.join "/" (Path.tidy "s.py"))) = .missing := by
    decide +kernel
  have hnull : (Path.tidy "s.py").toList.contains '\x00' = false := by decide +kernel
  have hopen : (FileTree.empty "/").openRead (Path.tidy "s.py") = .error .missing := by
    simp only [FileTree.openRead, hnull, hnode]
    exact congrArg Except.error hwalk
  have hreaches := unopened_reaches "" (by decide) hopen (by decide)
  have htext : "Cannot read snippet: " ++ (OpenError.missing.fault (Path.tidy "s.py")).text = message := by
    decide +kernel
  rw [htext] at hreaches
  refine ⟨hreaches, fun evaluate => ?_⟩
  have hmessage : literal message = message := by decide +kernel
  rw [((run_reaches _ "" ["run", "s.py"]).2 _ hreaches).1 evaluate, Standing.refuses, hmessage]
  rfl

/-- A byte that begins no character: the fault escapes. -/
theorem undecodable_snippet_escapes :
    let files : FileTree := ⟨"/", [(["s.py"], .file [0xff])]⟩
    (∃ c, Command.parse ["run", "s.py"] = .ok c) ∧ run files "" ["run", "s.py"] =
      .error (.decoding "'utf-8' codec can't decode byte 0xff in position 0: invalid start byte") := by
  intro files
  have hname : beginsWith "-" "s.py" = false := by decide
  have hnode : files.node? (Path.tidy "s.py") = some (.file [0xff]) := by decide +kernel
  have hnull : (Path.tidy "s.py").toList.contains '\x00' = false := by decide +kernel
  have hopen : files.openRead (Path.tidy "s.py") = .ok [0xff] := by
    simp only [FileTree.openRead, hnull, hnode, Bool.false_eq_true, if_false]
  obtain ⟨e, hbytes, hmessage⟩ : ∃ e, Text.decode [0xff] = .error e ∧
      e.message = "'utf-8' codec can't decode byte 0xff in position 0: invalid start byte" :=
    ⟨⟨0xff, 0, 1, "invalid start byte"⟩, rfl, by decide +kernel⟩
  refine ⟨⟨_, parse_run hname⟩, ?_⟩
  rw [← hmessage]
  exact (undecodable_reaches "" hname hopen hbytes).ending _

end Cli

end Evalbox
