import Evalbox.Cli.Program
import Evalbox.Proofs.Config.Limits
import Evalbox.Proofs.Results

/-!
# How the making of a configuration fails

The files that a configuration is made from may hold anything, and so may the settings. All that is wrong with them is
a fault of the file system or of a value, but for two numbers, the timeout and the limit on units: each is converted,
and the conversion of something that is no number and no text, or of a number that is too large, fails in a way of
its own (`ofFile_raises`).
-/

namespace Evalbox

open Cli (spoilsConfig)

/-- Its class decides where a fault belongs. -/
theorem Cli.isOneOf_congr {f g : Fault} (h : f.kind = g.kind) (classes : List String) :
    isOneOf f classes = isOneOf g classes := by
  unfold isOneOf
  rw [h]

namespace Fault

/-- A fault that stands for an invalid configuration. -/
def Foreseen (f : Fault) : Prop := spoilsConfig f = true

instance : DecidablePred Foreseen := fun f => inferInstanceAs (Decidable (spoilsConfig f = true))

theorem foreseen_congr {f g : Fault} (h : f.kind = g.kind) : f.Foreseen ↔ g.Foreseen :=
  Bool.eq_iff_iff.mp (Cli.isOneOf_congr h _)

theorem value_foreseen (text : String) : (value text).Foreseen :=
  (foreseen_congr (g := value "") rfl).mpr (by decide +kernel)

theorem decoding_foreseen (text : String) : (decoding text).Foreseen :=
  (foreseen_congr (g := decoding "") rfl).mpr (by decide +kernel)

theorem type_unforeseen (text : String) : ¬ (type text).Foreseen := fun h =>
  absurd ((foreseen_congr (g := type "") rfl).mp h) (by decide +kernel)

theorem overflow_unforeseen (text : String) : ¬ (overflow text).Foreseen := fun h =>
  absurd ((foreseen_congr (g := overflow "") rfl).mp h) (by decide +kernel)

end Fault

/-! ## Files and tables -/

theorem OpenError.fault_foreseen (path : String) (e : OpenError) : (e.fault path).Foreseen :=
  (Fault.foreseen_congr (g := e.fault "") (by cases e <;> rfl)).mpr
    (by cases e <;> decide +kernel)

theorem FileTree.readText_raises (t : FileTree) (path : String) : Raises (t.readText path) Fault.Foreseen := by
  unfold readText
  cases t.openRead path with
  | error e => exact .error (OpenError.fault_foreseen path e)
  | ok bytes =>
    dsimp only
    cases Text.decode bytes with
    | ok cs => exact .ok _
    | error f => exact .error (Fault.decoding_foreseen _)

theorem Toml.Stop.fault_foreseen (s : Stop) (document : List Char) : (s.fault document).Foreseen := by
  unfold fault
  split
  · exact Fault.value_foreseen _
  · exact (Fault.foreseen_congr (g := ⟨"TOMLDecodeError", ""⟩) rfl).mpr (by decide +kernel)

theorem Toml.read_raises (text : String) : Raises (read text) Fault.Foreseen := by
  unfold read
  dsimp only
  split
  · exact .ok _
  · exact .error (Stop.fault_foreseen _ _)

theorem Datum.strings_raises (field : String) (d : Datum) : Raises (d.strings field) Fault.Foreseen := by
  cases d with
  | none => exact .ok _
  | list items =>
    refine .mapM fun item _ => ?_
    cases item with
    | text s => exact .ok s
    | _ => exact .error (Fault.value_foreseen _)
  | _ => exact .error (Fault.value_foreseen _)

namespace Policy

theorem field_raises (t : Toml.Table) (key : String) (default : List String) :
    Raises (match Datum.entry? t key with
      | some d => d.strings key
      | none => Except.ok default) Fault.Foreseen := by
  split
  · exact Datum.strings_raises _ _
  · exact .ok _

theorem ofTable_raises (t : Toml.Table) (path : Option String) : Raises (ofTable t path) Fault.Foreseen := by
  unfold ofTable
  refine .bind (field_raises t _ _) fun _ _ => .bind (field_raises t _ _) fun _ _ => .bind (field_raises t _ _)
    fun _ _ => .bind (field_raises t _ _) fun _ _ => .bind (field_raises t _ _) fun _ _ => ?_
  dsimp only
  split
  · exact .ok _
  · exact .error (Fault.value_foreseen _)

theorem tableOf_raises (document : Toml.Table) : Raises (tableOf document) Fault.Foreseen := by
  unfold tableOf
  split
  · exact .ok _
  · exact .ok _
  · exact .error (Fault.value_foreseen _)

theorem ofFile_raises (files : FileTree) (path : String) : Raises (ofFile files path) Fault.Foreseen := by
  unfold ofFile
  dsimp only
  split
  · exact .bind (files.readText_raises _) fun _ _ => .bind (Toml.read_raises _) fun _ _ =>
      .bind (tableOf_raises _) fun _ _ => ofTable_raises _ _
  · exact .ok _

end Policy

/-! ## Numbers -/

namespace Datum

/-- What a float can be read from, or is refused for its value: a text, or a number in the range of floats. -/
def FitsFloat : Datum → Prop
  | int n => (Number.floatOfInt? n).isSome
  | d => d.IsNumber ∨ d.IsText

/-- What an integer can be read from, or is refused for its value: a text, or a number that is not infinite. -/
def FitsInt : Datum → Prop
  | float x => (Number.truncate? x).isSome ∨ x.isNaN = true
  | d => d.IsNumber ∨ d.IsText

/-- A text that does not hold a number. -/
theorem readFloat_raises (x : Option Float) (text : String) :
    Raises (match x with
      | some x => Except.ok x
      | Option.none => Except.error (Fault.value text)) Fault.Foreseen := by
  cases x with
  | some x => exact .ok x
  | none => exact .error (Fault.value_foreseen _)

/-- A text that does not hold an integer. -/
theorem readInteger_raises (x : Except Number.IntegerFault Int) (text : String) :
    Raises (match x with
      | .ok n => Except.ok n
      | .error .malformed => Except.error (Fault.value text)
      | .error (.tooLong n) => Except.error (.value (Number.tooLongText n))) Fault.Foreseen := by
  split
  · exact .ok _
  · exact .error (Fault.value_foreseen _)
  · exact .error (Fault.value_foreseen _)

theorem toFloat_raises (d : Datum) : Raises d.toFloat fun f => f.Foreseen ↔ d.FitsFloat := by
  cases d with
  | bool b => exact .ok _
  | float x => exact .ok _
  | int n =>
    dsimp only [toFloat, FitsFloat]
    cases hn : Number.floatOfInt? n with
    | some x => exact .ok x
    | none => exact .error (iff_of_false (Fault.overflow_unforeseen _) (by simp))
  | text s =>
    dsimp only [toFloat]
    generalize Number.readFloat? s.toList = x
    exact (readFloat_raises x _).imp fun f hf => iff_of_true hf (.inr trivial)
  | bytes bs =>
    dsimp only [toFloat]
    generalize Number.readFloat? (bytesAsText bs) = x
    exact (readFloat_raises x _).imp fun f hf => iff_of_true hf (.inr trivial)
  | _ => exact .error (iff_of_false (Fault.type_unforeseen _) (fun h => h.elim id id))

theorem toInt_raises (d : Datum) : Raises d.toInt fun f => f.Foreseen ↔ d.FitsInt := by
  cases d with
  | bool b => exact .ok _
  | int n => exact .ok _
  | float x =>
    dsimp only [toInt, FitsInt]
    cases hx : Number.truncate? x with
    | some n => exact .ok n
    | none =>
      cases hnan : x.isNaN with
      | true => exact .error (iff_of_true (Fault.value_foreseen _) (.inr rfl))
      | false => exact .error (iff_of_false (Fault.overflow_unforeseen _) (by simp))
  | text s =>
    dsimp only [toInt]
    generalize Number.readInteger s.toList = x
    exact (readInteger_raises x _).imp fun f hf => iff_of_true hf (.inr trivial)
  | bytes bs =>
    dsimp only [toInt]
    generalize Number.readInteger (bytesAsText bs) = x
    exact (readInteger_raises x _).imp fun f hf => iff_of_true hf (.inr trivial)
  | _ => exact .error (iff_of_false (Fault.type_unforeseen _) (fun h => h.elim id id))

end Datum

/-! ## Configurations -/

theorem FlagError.fault_foreseen (e : FlagError) : e.fault.Foreseen := by
  cases e <;> exact Fault.value_foreseen _

namespace EngineConfig

theorem make_raises {P : Fault → Prop} (cwd : String) {s : Settings} (hforeseen : ∀ f, f.Foreseen → P f)
    (hclasspath : Raises s.classpath.items P) (hflags : Raises s.flags.items P) (htimeout : Raises s.timeout.toFloat P)
    (hunits : Raises s.maxUnits.toInt P) : Raises (make cwd s) P := by
  unfold make
  refine .bind hclasspath fun paths _ => .bind hflags fun flags _ => .bind htimeout fun x _ => ?_
  dsimp only
  split
  · exact .error (hforeseen _ (Fault.value_foreseen _))
  · refine .bind hunits fun n _ => ?_
    split
    · exact .error (hforeseen _ (Fault.value_foreseen _))
    · split
      · exact .error (hforeseen _ (FlagError.fault_foreseen _))
      · exact .ok _

theorem policyOf_raises (files : FileTree) (base : String) (engine : Toml.Table) (policy : Option Datum) :
    Raises (policyOf files base engine policy) Fault.Foreseen := by
  unfold policyOf
  dsimp only
  split
  · exact .error (Fault.value_foreseen _)
  · exact Policy.ofFile_raises _ _
  · exact Policy.ofTable_raises _ _
  · exact .error (Fault.value_foreseen _)
  · exact .ok _

/-- The timeout of an engine table. -/
def timeoutOf (engine : Toml.Table) : Datum := (Datum.entry? engine "timeout_seconds").getD (.float 5.0)

/-- The limit on units of an engine table. -/
def maxUnitsOf (engine : Toml.Table) : Datum := (Datum.entry? engine "max_units_per_target").getD (.int 500)

/-- A number of an engine table is none, or out of range, and its conversion fails. -/
def Misfit (engine : Toml.Table) (f : Fault) : Prop :=
  ¬ (timeoutOf engine).FitsFloat ∧ (timeoutOf engine).toFloat = .error f ∨
    ¬ (maxUnitsOf engine).FitsInt ∧ (maxUnitsOf engine).toInt = .error f

theorem Misfit.unforeseen {engine : Toml.Table} {f : Fault} (h : Misfit engine f) : ¬ f.Foreseen := by
  rcases h with ⟨hfit, hf⟩ | ⟨hfit, hf⟩
  · exact fun h => hfit ((Datum.toFloat_raises _ f hf).mp h)
  · exact fun h => hfit ((Datum.toInt_raises _ f hf).mp h)

theorem ofTables_raises (files : FileTree) (base : String) (engine : Toml.Table) (policy : Option Datum) :
    Raises (ofTables files base engine policy) fun f => f.Foreseen ∨ Misfit engine f := by
  have htimeout : Raises (timeoutOf engine).toFloat fun f => f.Foreseen ∨ Misfit engine f := fun f hf =>
    (Classical.em f.Foreseen).imp_right fun hn => .inl ⟨fun h => hn ((Datum.toFloat_raises _ f hf).mpr h), hf⟩
  have hunits : Raises (maxUnitsOf engine).toInt fun f => f.Foreseen ∨ Misfit engine f := fun f hf =>
    (Classical.em f.Foreseen).imp_right fun hn => .inr ⟨fun h => hn ((Datum.toInt_raises _ f hf).mpr h), hf⟩
  unfold ofTables
  dsimp only
  refine .bind ((policyOf_raises files base engine policy).imp fun _ => .inl) fun p _ => ?_
  split
  · refine .bind htimeout fun x _ => .bind hunits fun n _ => ?_
    exact make_raises _ (fun _ => .inl) (.ok _) (.ok _) (.ok _) (.ok _)
  · exact .error (.inl (Fault.value_foreseen _))

/-- The engine table of a configuration file. -/
def EngineAt (files : FileTree) (path : String) (engine : Toml.Table) : Prop :=
  ∃ text document, files.readText (Path.tidy path) = .ok text ∧ Toml.read text = .ok document ∧
    (Datum.entry? document "engine").getD (.dict []) = .dict engine

theorem ofFile_raises (files : FileTree) (path : String) : Raises (ofFile files path) fun f =>
    f.Foreseen ∨ ∃ engine, EngineAt files path engine ∧ Misfit engine f := by
  unfold ofFile
  refine .bind ((files.readText_raises _).imp fun _ => .inl) fun text htext => ?_
  refine .bind ((Toml.read_raises _).imp fun _ => .inl) fun document hdocument => ?_
  split
  · rename_i engine hengine
    have hat : EngineAt files path engine := ⟨text, document, htext, hdocument, hengine⟩
    exact (ofTables_raises files _ engine _).imp fun f hf => hf.imp_right fun hm => ⟨engine, hat, hm⟩
  · exact .error (.inl (Fault.value_foreseen _))

end EngineConfig

end Evalbox
