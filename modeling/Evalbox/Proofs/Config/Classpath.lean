import Evalbox.Proofs.Config.Limits
import Evalbox.Proofs.Text.Splitting

/-!
# Where modules are searched

The importer of an evaluator searches the entries of its configuration. The check of imports gets them as one text with
colons between them, which it cuts again, so that it searches the pieces between the colons of each entry
(`searched_pieces`). Both search the same places exactly if no entry holds a colon; a directory whose name has one is
imported from although the check has not seen it (`colon_searched_apart`).
-/

namespace Evalbox

theorem classpathEntries_eq (classpath : String) :
    classpathEntries classpath = ((classpath.toList.splitOn ':').map String.ofList).filter (· ≠ "") :=
  congrArg (List.filter _) (splitOn_singleton classpath ':')

/-- Joined entries are searched one after the other, each as if it were a classpath of its own. -/
theorem classpathEntries_intercalate (entries : List String) :
    classpathEntries (":".intercalate entries) = entries.flatMap classpathEntries := by
  cases entries with
  | nil => simp [classpathEntries_eq]
  | cons e rest =>
    have hsep : ":".toList = [':'] := rfl
    rw [classpathEntries_eq, String.toList_intercalate, hsep, splitOn_intercalate_flatMap ':' (by simp)]
    simp only [List.flatMap_map, List.map_flatMap, List.filter_flatMap]
    exact List.flatMap_congr fun entry _ => (classpathEntries_eq entry).symm

/-- An entry with a name and without colons is one place. -/
theorem classpathEntries_plain {entry : String} (h : ':' ∉ entry.toList) (hne : entry ≠ "") :
    classpathEntries entry = [entry] := by
  rw [classpathEntries_eq, List.splitOn_eq_singleton h]
  simp [hne]

theorem colon_not_mem {classpath place : String} (h : place ∈ classpathEntries classpath) : ':' ∉ place.toList := by
  rw [classpathEntries_eq] at h
  obtain ⟨cs, hcs, rfl⟩ := List.mem_map.mp (List.mem_of_mem_filter h)
  rw [String.toList_ofList]
  exact not_mem_of_mem_splitOn hcs

theorem Path.absolute_ne_empty (cwd path : String) : Path.absolute cwd path ≠ "" := by
  unfold Path.absolute Path.normalize
  dsimp only
  split
  · decide
  · assumption

/-- Every list of entries is accepted. -/
theorem EngineConfig.exists_make (cwd : String) (entries : List Datum) :
    ∃ c, make cwd { Settings.default with classpath := .tuple entries } = .ok c ∧
      c.classpath = entries.map fun d => Path.absolute cwd d.asText := by
  obtain ⟨c, hc⟩ := make_of_accepts cwd (s := { Settings.default with classpath := .tuple entries })
    ⟨⟨_, rfl⟩, ⟨[], .default, rfl, rfl⟩, ⟨5.0, rfl, .inl (by decide +kernel)⟩, ⟨500, rfl, by decide⟩⟩
  obtain ⟨-, paths, _, _, hpaths, -, -, rfl⟩ := make_eq hc
  cases hpaths
  exact ⟨_, hc, rfl⟩

namespace Evaluator

variable {σ τ π κ : Type}

/-- Where the check of imports searches. -/
def checkedPlaces {ω : Type} (e : Evaluator σ τ π ω κ) : List String := classpathEntries e.pipeline.compile.classpath

/-- Where the importer searches. -/
def importedPlaces (e : Evaluator σ τ π Outside κ) : List String := e.state.around.world.heap.entries

end Evaluator

/-- For all settings that are accepted. -/
theorem searched_pieces {cwd : String} {s : Settings} {c : EngineConfig} (h : EngineConfig.make cwd s = .ok c)
    {σ : Type} (toolchain : Toolchain (σ × Outside) Policy Fault Program) (tools : σ) (files : FileTree) :
    let e := Evaluator.ofConfig toolchain tools files c
    e.importedPlaces = c.classpath ∧ e.checkedPlaces = c.classpath.flatMap classpathEntries ∧
      (e.checkedPlaces = e.importedPlaces ↔ ∀ entry ∈ c.classpath, ':' ∉ entry.toList) := by
  intro e
  have hchecked : e.checkedPlaces = c.classpath.flatMap classpathEntries := classpathEntries_intercalate c.classpath
  have himported : e.importedPlaces = c.classpath := rfl
  refine ⟨himported, hchecked, ?_⟩
  rw [himported]
  constructor
  · intro heq entry hentry
    rw [← heq] at hentry
    exact colon_not_mem hentry
  · intro hplain
    obtain ⟨-, paths, _, _, -, -, -, hc⟩ := EngineConfig.make_eq h
    have hone : ∀ entry ∈ c.classpath, classpathEntries entry = [entry] := by
      intro entry hentry
      refine classpathEntries_plain (hplain entry hentry) ?_
      rw [hc] at hentry
      obtain ⟨d, -, rfl⟩ := List.mem_map.mp hentry
      exact Path.absolute_ne_empty cwd d.asText
    rw [hchecked, List.flatMap_congr hone]
    exact List.flatMap_singleton' c.classpath

/-- Two entries without colons: the check and the importer search the same places. -/
theorem plain_searched_pieces :
    let s : Settings := { Settings.default with classpath := .tuple [.text "lib", .text "/srv/../opt"] }
    ∃ c, EngineConfig.make "/home" s = .ok c ∧ c.classpath = ["/home/lib", "/opt"] ∧
      let e := Evaluator.ofConfig snippetToolchain () (.empty "/home") c
      e.checkedPlaces = e.importedPlaces := by
  intro s
  obtain ⟨c, hc, hplaces⟩ := EngineConfig.exists_make "/home" [.text "lib", .text "/srv/../opt"]
  have hplaces : c.classpath = ["/home/lib", "/opt"] := by
    rw [hplaces]
    decide +kernel
  refine ⟨c, hc, hplaces, ?_⟩
  obtain ⟨-, -, hsame⟩ := searched_pieces hc snippetToolchain () (.empty "/home")
  rw [hsame, hplaces]
  decide

/-- A directory with a colon in its name: its module is imported, and the check does not find it. -/
theorem colon_searched_apart :
    let s : Settings := { Settings.default with classpath := .tuple [.text "/a:b"] }
    let files : FileTree := ⟨"/", [(["a:b", "m.py"], .file [])]⟩
    ∃ c, EngineConfig.make "/" s = .ok c ∧
      let e := Evaluator.ofConfig snippetToolchain () files c
      e.importedPlaces = ["/a:b"] ∧ e.checkedPlaces = ["/a", "b"] ∧
        (files.findModule files.listing "m" e.importedPlaces).isSome ∧
          moduleOnPath files "m" c.classpathText = false := by
  intro s files
  obtain ⟨c, hc, hplaces⟩ := EngineConfig.exists_make "/" [.text "/a:b"]
  have hplaces : c.classpath = ["/a:b"] := by
    rw [hplaces]
    decide +kernel
  have hpieces : classpathEntries c.classpathText = ["/a", "b"] := by
    unfold EngineConfig.classpathText
    rw [hplaces, classpathEntries_intercalate, List.flatMap_singleton, classpathEntries_eq]
    decide +kernel
  refine ⟨c, hc, hplaces, hpieces, ?_, ?_⟩
  · change (files.findModule files.listing "m" c.classpath).isSome
    rw [hplaces]
    decide +kernel
  · unfold moduleOnPath
    rw [hpieces]
    decide +kernel

end Evalbox
