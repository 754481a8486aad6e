import Evalbox.Cli.Command
import Evalbox.Proofs.Config.Flags
import Evalbox.Proofs.Files.Normal
import Evalbox.Proofs.Results

/-!
# Options in front of a configuration

What a configuration was made from is lost, but it can be made again from what it holds, and comes out the same: its
paths are in normal form, its flags are known and its limits were checked (`make_settings`). So where the options of
`run` are put in front of a configuration only the options can be at fault, and what they do not speak of is kept
(`overrides_merge`).
-/

namespace Evalbox

/-- Behind flags that are known, it is the flags that follow that are refused. -/
theorem CompilerOptions.refused_behind {xs ys : List String} {a : CompilerOptions} {e : FlagError}
    (hx : ofFlags xs = .ok a) (h : ofFlags (xs ++ ys) = .error e) : ofFlags ys = .error e := by
  cases hy : ofFlags ys with
  | ok b => cases (ofFlags_append hx hy).symm.trans h
  | error e' =>
    obtain ⟨front, flag, rest, rfl, hfront, hbad⟩ := ofFlags_error_iff.mp hy
    have hknown : ∀ flag ∈ xs ++ front, Known flag := List.forall_mem_append.mpr ⟨(ofFlags_ok_iff.mp hx).1, hfront⟩
    have hfirst : ofFlags (xs ++ (front ++ flag :: rest)) = .error e' :=
      ofFlags_error_iff.mpr ⟨xs ++ front, flag, rest, (List.append_assoc xs front _).symm, hknown, hbad⟩
    exact hfirst.symm.trans h

namespace EngineConfig

/-! ## Made again -/

/-- What holds of a configuration that was made. -/
structure Normal (cwd : String) (c : EngineConfig) : Prop where
  classpath : ∀ entry ∈ c.classpath, Path.absolute cwd entry = entry
  flags : ∃ o, c.options = .ok o
  timeout : ∃ x, c.timeout.toFloat = .ok x ∧ (0 < x ∨ x.isNaN = true)
  maxUnits : ∃ n, c.maxUnits.toInt = .ok n ∧ 1 ≤ n

theorem normal_of_make {cwd : String} (hcwd : Path.isAbsolute cwd = true) {s : Settings} {c : EngineConfig}
    (h : make cwd s = .ok c) : Normal cwd c := by
  obtain ⟨hs, paths, flags, options, -, -, hoptions, rfl⟩ := make_eq h
  refine ⟨fun entry hentry => ?_, ⟨options, hoptions⟩, hs.timeout, hs.maxUnits⟩
  obtain ⟨d, -, rfl⟩ := List.mem_map.mp hentry
  exact Path.absolute_absolute hcwd d.asText

/-- Settings whose lists can be read and whose limit on units is good fail for their timeout or their flags. -/
theorem make_error {cwd : String} {s : Settings} {paths flags : List Datum} {f : Fault}
    (hpaths : s.classpath.items = .ok paths) (hflags : s.flags.items = .ok flags)
    (hunits : ∃ n, s.maxUnits.toInt = .ok n ∧ 1 ≤ n) (h : make cwd s = .error f) :
    s.timeout.toFloat = .error f ∨
      (∃ x, s.timeout.toFloat = .ok x ∧ x ≤ 0 ∧ f = .value "timeout_seconds must be positive") ∨
        ∃ e, CompilerOptions.ofFlags (flags.map (·.asText)) = .error e ∧ f = e.fault := by
  obtain ⟨n, hn, hone⟩ := hunits
  cases hx : s.timeout.toFloat with
  | error e =>
    simp only [make, hpaths, hflags, hx, bind, Except.bind] at h
    exact .inl (congrArg Except.error (Except.error.inj h))
  | ok x =>
    simp only [make, hpaths, hflags, hx, hn, bind, Except.bind, if_neg (Int.not_lt.mpr hone)] at h
    split at h
    · rename_i hpos
      cases h
      exact .inr (.inl ⟨x, rfl, hpos, rfl⟩)
    · split at h
      · rename_i e he
        cases h
        exact .inr (.inr ⟨e, he, rfl⟩)
      · cases h

/-- The settings that a configuration holds. -/
def settings (c : EngineConfig) : Settings :=
  ⟨.tuple (c.classpath.map .text), .tuple (c.flags.map .text), c.securityEnabled, c.timeout, c.policy, c.maxUnits⟩

theorem asText_text (s : String) : (Datum.text s).asText = s := rfl

theorem map_asText (texts : List String) : (texts.map Datum.text).map (·.asText) = texts := by
  simp only [List.map_map, Function.comp_def, asText_text, List.map_id']

theorem Normal.map_absolute {cwd : String} {c : EngineConfig} (h : Normal cwd c) :
    (c.classpath.map Datum.text).map (fun d => Path.absolute cwd d.asText) = c.classpath := by
  simp only [List.map_map, Function.comp_def, asText_text]
  rw [List.map_congr_left h.classpath, List.map_id']

theorem Normal.make_settings {cwd : String} {c : EngineConfig} (h : Normal cwd c) : make cwd c.settings = .ok c := by
  obtain ⟨options, hoptions⟩ := h.flags
  have hs : Accepts c.settings :=
    ⟨⟨_, rfl⟩, ⟨_, options, rfl, (map_asText c.flags).symm ▸ hoptions⟩, h.timeout, h.maxUnits⟩
  obtain ⟨c', hc'⟩ := make_of_accepts cwd hs
  obtain ⟨-, paths, flags, _, hpaths, hflags, -, rfl⟩ := make_eq hc'
  cases hpaths
  cases hflags
  rw [hc', h.map_absolute, map_asText]
  rfl

/-- A configuration file is read by making settings, with security on or off. -/
theorem make_of_ofFile {files : FileTree} {path : String} {c : EngineConfig} (h : ofFile files path = .ok c) :
    ∃ s b, make files.cwd s = .ok c ∧ s.securityEnabled = .bool b := by
  unfold ofFile at h
  obtain ⟨text, -, h⟩ := ok_of_bind h
  obtain ⟨document, -, h⟩ := ok_of_bind h
  split at h
  · unfold ofTables at h
    obtain ⟨policy, -, h⟩ := ok_of_bind h
    dsimp only at h
    split at h
    · obtain ⟨x, -, h⟩ := ok_of_bind h
      obtain ⟨n, -, h⟩ := ok_of_bind h
      exact ⟨_, _, h, rfl⟩
    · cases h
  · cases h

end EngineConfig

namespace Cli.Command

/-! ## Options -/

/-- The configuration that options are put in front of. -/
def base (files : FileTree) : Option String → Except Fault EngineConfig
  | some path => EngineConfig.ofFile files path
  | none => EngineConfig.make files.cwd Settings.default

theorem config_run (files : FileTree) (file : Option String) (r : RunOptions) :
    config files ⟨file, .run r⟩ = base files file >>= fun c => override files c r := by
  cases file <;> rfl

theorem make_of_base {files : FileTree} {file : Option String} {c : EngineConfig} (h : base files file = .ok c) :
    ∃ s b, EngineConfig.make files.cwd s = .ok c ∧ s.securityEnabled = .bool b := by
  cases file with
  | some path => exact EngineConfig.make_of_ofFile h
  | none => exact ⟨Settings.default, true, h, rfl⟩

/-- What is wrong with the options of `run`. -/
inductive Faulty (files : FileTree) (r : RunOptions) : Fault → Prop
  /-- There is no policy to be read from the file. -/
  | policy {path : String} {f : Fault} :
      r.policyFile = some path → Policy.ofFile files path = .error f → Faulty files r f
  /-- The timeout is no number. -/
  | timeoutKind {d : Datum} {f : Fault} : r.timeout = some d → d.toFloat = .error f → Faulty files r f
  | timeout {d : Datum} {x : Float} :
      r.timeout = some d → d.toFloat = .ok x → x ≤ 0 → Faulty files r (.value "timeout_seconds must be positive")
  /-- A flag is refused. -/
  | flag {e : FlagError} : CompilerOptions.ofFlags (r.flags.map (·.asText)) = .error e → Faulty files r e.fault

/-- A configuration is another with the options of `run` in front. -/
structure Overrides (files : FileTree) (c : EngineConfig) (r : RunOptions) (c' : EngineConfig) : Prop where
  classpath : c'.classpath = c.classpath ++ r.classpath.map fun d => Path.absolute files.cwd d.asText
  flags : c'.flags = c.flags ++ r.flags.map (·.asText)
  timeout : c'.timeout = r.timeout.getD c.timeout
  policy : match r.policyFile with
    | some path => Policy.ofFile files path = .ok c'.policy
    | none => c'.policy = c.policy
  maxUnits : c'.maxUnits = c.maxUnits
  /-- Security is on exactly if it was and is not turned off. -/
  security : c'.securityEnabled = .bool (c.securityEnabled.truth && !r.noSecurity)

/-- The settings that `override` makes a configuration from, once it has the policy. -/
def overriding (c : EngineConfig) (r : RunOptions) (policy : Policy) : Settings :=
  { classpath := .tuple (c.classpath.map .text ++ r.classpath)
    flags := .tuple (c.flags.map .text ++ r.flags)
    securityEnabled := if c.securityEnabled.truth then .bool (!r.noSecurity) else c.securityEnabled
    timeout := r.timeout.getD c.timeout
    policy
    maxUnits := c.maxUnits }

section Override

variable {files : FileTree} {c : EngineConfig} {r : RunOptions} {policy : Policy}

theorem faulty_of_make_error {f : Fault} (hc : c.Normal files.cwd)
    (h : EngineConfig.make files.cwd (overriding c r policy) = .error f) : Faulty files r f := by
  obtain ⟨options, hoptions⟩ := hc.flags
  obtain ⟨y, hy, hpos⟩ := hc.timeout
  rcases EngineConfig.make_error rfl rfl hc.maxUnits h with hx | ⟨x, hx, hle, rfl⟩ | ⟨e, he, rfl⟩
  · cases ht : r.timeout with
    | some d => exact .timeoutKind ht (by rwa [overriding, ht] at hx)
    | none =>
      rw [overriding, ht] at hx
      cases hy.symm.trans hx
  · cases ht : r.timeout with
    | some d => exact .timeout ht (by rwa [overriding, ht] at hx) hle
    | none =>
      rw [overriding, ht] at hx
      cases hy.symm.trans hx
      exact absurd hle (not_nonpos_iff.mpr hpos)
  · rw [List.map_append, EngineConfig.map_asText] at he
    exact .flag (CompilerOptions.refused_behind hoptions he)

theorem overrides_of_make {c' : EngineConfig} {b : Bool} (hc : c.Normal files.cwd) (hb : c.securityEnabled = .bool b)
    (hpolicy : match r.policyFile with
      | some path => Policy.ofFile files path = .ok policy
      | none => policy = c.policy)
    (h : EngineConfig.make files.cwd (overriding c r policy) = .ok c') :
    Overrides files c r c' ∧ ∀ f, ¬Faulty files r f := by
  obtain ⟨hs, paths, flags, options, hpaths, hflags, hoptions, rfl⟩ := EngineConfig.make_eq h
  cases hpaths
  cases hflags
  rw [List.map_append, EngineConfig.map_asText] at hoptions
  constructor
  · refine ⟨?_, ?_, rfl, hpolicy, rfl, ?_⟩
    · rw [List.map_append, hc.map_absolute]
    · dsimp only
      rw [List.map_append, EngineConfig.map_asText]
    · cases b <;> simp [overriding, hb, Datum.truth]
  · rintro f (⟨hfile, hf⟩ | ⟨ht, hf⟩ | ⟨ht, hx, hle⟩ | hf)
    · rw [hfile] at hpolicy
      cases hpolicy.symm.trans hf
    · obtain ⟨x, hx, -⟩ := hs.timeout
      rw [overriding, ht] at hx
      cases hx.symm.trans hf
    · obtain ⟨y, hy, hpos⟩ := hs.timeout
      rw [overriding, ht] at hy
      cases hy.symm.trans hx
      exact not_nonpos_iff.mpr hpos hle
    · have hall := List.forall_mem_append.mp (CompilerOptions.ofFlags_ok_iff.mp hoptions).1
      cases (CompilerOptions.ofFlags_known hall.2).symm.trans hf

/-- The options are at fault, or the configuration is made. -/
theorem override_cases {b : Bool} (hc : c.Normal files.cwd) (hb : c.securityEnabled = .bool b) :
    (∃ f, override files c r = .error f ∧ Faulty files r f) ∨
      ∃ c', override files c r = .ok c' ∧ Overrides files c r c' ∧ ∀ f, ¬Faulty files r f := by
  have hmade : ∀ policy, (match r.policyFile with
        | some path => Policy.ofFile files path = .ok policy
        | none => policy = c.policy) →
      override files c r = EngineConfig.make files.cwd (overriding c r policy) →
      (∃ f, override files c r = .error f ∧ Faulty files r f) ∨
        ∃ c', override files c r = .ok c' ∧ Overrides files c r c' ∧ ∀ f, ¬Faulty files r f := by
    intro policy hpolicy heq
    rw [heq]
    cases h : EngineConfig.make files.cwd (overriding c r policy) with
    | error f => exact .inl ⟨f, rfl, faulty_of_make_error hc h⟩
    | ok c' => exact .inr ⟨c', rfl, overrides_of_make hc hb hpolicy h⟩
  cases hfile : r.policyFile with
  | none => exact hmade c.policy (by rw [hfile]) (by rw [override, hfile]; rfl)
  | some path =>
    cases hp : Policy.ofFile files path with
    | error f => exact .inl ⟨f, by rw [override, hfile]; dsimp only; rw [hp]; rfl, .policy hfile hp⟩
    | ok policy => exact hmade policy (by rw [hfile]; exact hp) (by rw [override, hfile]; dsimp only; rw [hp]; rfl)

end Override

/-- No option speaks of the configuration. -/
structure Plain (r : RunOptions) : Prop where
  classpath : r.classpath = []
  flags : r.flags = []
  timeout : r.timeout = none
  security : r.noSecurity = false
  policyFile : r.policyFile = none

theorem Plain.not_faulty {files : FileTree} {r : RunOptions} (h : Plain r) (f : Fault) : ¬Faulty files r f := by
  rintro (⟨hfile, -⟩ | ⟨ht, -⟩ | ⟨ht, -, -⟩ | hf)
  · cases h.policyFile.symm.trans hfile
  · cases h.timeout.symm.trans ht
  · cases h.timeout.symm.trans ht
  · rw [h.flags] at hf
    cases hf

theorem Plain.overrides_eq {files : FileTree} {r : RunOptions} (h : Plain r) {c c' : EngineConfig} {b : Bool}
    (hb : c.securityEnabled = .bool b) (hr : Overrides files c r c') : c' = c := by
  obtain ⟨hclasspath, hflags, htimeout, hpolicy, hunits, hsecurity⟩ := hr
  rw [h.classpath, List.map_nil, List.append_nil] at hclasspath
  rw [h.flags, List.map_nil, List.append_nil] at hflags
  rw [h.timeout] at htimeout
  rw [h.policyFile] at hpolicy
  rw [h.security, hb] at hsecurity
  cases c
  cases c'
  cases b <;> simp_all [Datum.truth]

/-- For a configuration from a file or without one, and all options: they are at fault, or they are in front of the
configuration and the rest of it is kept. Making a configuration again changes nothing. -/
theorem overrides_merge {files : FileTree} (hcwd : Path.isAbsolute files.cwd = true) {file : Option String}
    {c : EngineConfig} (hbase : base files file = .ok c) (r : RunOptions) :
    ((∃ f, config files ⟨file, .run r⟩ = .error f ∧ Faulty files r f) ∨
      ∃ c', config files ⟨file, .run r⟩ = .ok c' ∧ Overrides files c r c' ∧ ∀ f, ¬Faulty files r f) ∧
    (Plain r → config files ⟨file, .run r⟩ = .ok c) ∧
    ∀ s made, EngineConfig.make files.cwd s = .ok made → EngineConfig.make files.cwd made.settings = .ok made := by
  obtain ⟨s, b, hs, hsecurity⟩ := make_of_base hbase
  have hc : c.Normal files.cwd := EngineConfig.normal_of_make hcwd hs
  have hb : c.securityEnabled = .bool b := by
    obtain ⟨-, _, _, _, -, -, -, rfl⟩ := EngineConfig.make_eq hs
    exact hsecurity
  have hconfig : config files ⟨file, .run r⟩ = override files c r := by
    rw [config_run, hbase]
    rfl
  have hcases := override_cases (r := r) hc hb
  rw [hconfig]
  refine ⟨hcases, fun hplain => ?_, fun _ _ hmade => (EngineConfig.normal_of_make hcwd hmade).make_settings⟩
  rcases hcases with ⟨f, -, hf⟩ | ⟨c', hc', hr, -⟩
  · exact absurd hf (hplain.not_faulty f)
  · rw [hc', hplain.overrides_eq hb hr]

/-- An empty configuration file, with an entry, a flag and a timeout in front of it, and security turned off. -/
theorem empty_file_overridden :
    let files : FileTree := ⟨"/home", [(["home", "e.toml"], .file [])]⟩
    let r : RunOptions := { snippet := "", prelude := none, timeout := some (.float 2.5), classpath := [.text "../lib/."],
                            flags := [.text "-O"], noSecurity := true, policyFile := none }
    ∃ c c', base files (some "e.toml") = .ok c ∧ config files ⟨some "e.toml", .run r⟩ = .ok c' ∧
      c'.classpath = c.classpath ++ ["/lib"] ∧ c'.timeout = .float 2.5 ∧ c'.securityEnabled = .bool false := by
  intro files r
  have hread : files.readText (Path.tidy "e.toml") = .ok "" := by decide +kernel
  have htoml : Toml.read "" = .ok [] := rfl
  obtain ⟨c, hmade⟩ : ∃ c, EngineConfig.make "/home" Settings.default = .ok c :=
    EngineConfig.make_of_accepts "/home"
      ⟨⟨_, rfl⟩, ⟨[], .default, rfl, rfl⟩, ⟨5.0, rfl, .inl (by decide +kernel)⟩, ⟨500, rfl, by decide⟩⟩
  have hc : base files (some "e.toml") = .ok c := bind_of_ok hread (bind_of_ok htoml hmade)
  obtain ⟨hcases, -⟩ := overrides_merge (by decide +kernel) hc r
  rcases hcases with ⟨f, -, hf⟩ | ⟨c', hc', hr, -⟩
  · rcases hf with ⟨hfile, -⟩ | ⟨ht, hf⟩ | ⟨ht, hx, hle⟩ | hf
    · cases hfile
    · cases ht
      cases hf
    · cases ht
      cases hx
      exact absurd hle (by decide +kernel)
    · cases hf
  · have hplace : Path.absolute "/home" (Datum.text "../lib/.").asText = "/lib" := by decide +kernel
    refine ⟨c, c', hc, hc', ?_, hr.timeout, hr.security.trans ?_⟩
    · rw [hr.classpath, ← hplace]
      rfl
    · rw [Bool.not_true, Bool.and_false]

end Cli.Command

end Evalbox
