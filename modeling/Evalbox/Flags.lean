import Evalbox.Failure
import Evalbox.Text.Quoted

/-!
# Compiler flags

`CompilerOptions.ofFlags` reads a list of flags, from left to right: the last `-O` or `-OO` decides
on optimization, all other flags add up, and the first flag that is not known is an error.
-/

namespace Evalbox

/-- What the compiler is asked to do. `optimize` is -1 where nothing was asked for; `futureFlags` has
a bit for each feature of a later language version. -/
structure CompilerOptions where
  optimize : Int
  fatalWarnings : Bool
  suppressWarnings : Bool
  futureFlags : Nat
  checkImports : Bool
  deriving DecidableEq, Repr

/-- Why a list of flags is refused. -/
inductive FlagError where
  | unsupported (flag : String)
  | unknownFeature (feature : String)
  deriving DecidableEq, Repr

namespace FlagError

def fault : FlagError → Fault
  | unsupported flag => .value ("Unsupported compiler flag: " ++ Text.quote flag)
  | unknownFeature feature =>
    .value ("Unknown __future__ feature in compiler flag: " ++ Text.quote feature)

end FlagError

/-- Features of later language versions, with their bits. -/
def futureFeatures : List (String × Nat) :=
  [("nested_scopes", 16), ("generators", 0), ("division", 131072), ("absolute_import", 262144),
   ("with_statement", 524288), ("print_function", 1048576), ("unicode_literals", 2097152),
   ("barry_as_FLUFL", 4194304), ("generator_stop", 8388608), ("annotations", 16777216)]

/-- The bit of the feature that brings back the old spelling of inequality. -/
def bdflFlag : Nat := 4194304

/-- The bit of the feature that leaves hints unevaluated. -/
def lazyHintsFlag : Nat := 16777216

/-- Whether the bit of a feature is set. -/
def hasFeature (futureFlags flag : Nat) : Bool := futureFlags &&& flag ≠ 0

namespace CompilerOptions

/-- Without any flag. -/
def default : CompilerOptions := ⟨-1, false, false, 0, true⟩

instance : Inhabited CompilerOptions := ⟨default⟩

/-- The feature that a flag asks for. -/
def featureOf? (flag : String) : Option String :=
  let lead := "-future:".toList
  if flag.toList.take lead.length = lead then some (String.ofList (flag.toList.drop lead.length))
  else none

/-- Apply one flag. -/
def apply (o : CompilerOptions) (flag : String) : Except FlagError CompilerOptions :=
  if flag = "-O" then .ok { o with optimize := 1 }
  else if flag = "-OO" then .ok { o with optimize := 2 }
  else if flag = "-Werror" then .ok { o with fatalWarnings := true }
  else if flag = "-nowarn" then .ok { o with suppressWarnings := true }
  else match featureOf? flag with
    | some feature =>
      match futureFeatures.lookup feature with
      | some bit => .ok { o with futureFlags := o.futureFlags ||| bit }
      | none => .error (.unknownFeature feature)
    | none =>
      if flag = "-Xno-import-check" then .ok { o with checkImports := false }
      else .error (.unsupported flag)

/-- Read flags onto options. -/
def extend (o : CompilerOptions) (flags : List String) : Except FlagError CompilerOptions :=
  flags.foldlM apply o

/-- Read a list of flags. -/
def ofFlags (flags : List String) : Except FlagError CompilerOptions := default.extend flags

end CompilerOptions

end Evalbox
