import Evalbox.Lang.Tree
import Evalbox.Text.Dotted

/-!
# Imported modules

The top-level modules that the import statements of a source name. Statements closer to the top come
first, and those at equal depth in the order of the text. Relative imports name no module of their
own.
-/

namespace Evalbox.Lang

/-- The root of an imported name, with the line and the column in bytes of the statement. -/
structure ImportedRoot where
  root : String
  line : Nat
  column : Nat
  deriving DecidableEq, Repr, Inhabited

mutual

/-- The import statements in a statement, each with how deep it stands. -/
def Stmt.imports (depth : Nat) : Stmt → List (Nat × Stmt)
  | .importing s names => [(depth, .importing s names)]
  | .importFrom s m names level => [(depth, .importFrom s m names level)]
  | .ite _ _ b o | .whileLoop _ _ b o | .forLoop _ _ _ _ b o =>
    blockImports (depth + 1) b ++ blockImports (depth + 1) o
  | .tryBlock _ b hs o f _ =>
    blockImports (depth + 1) b ++ handlerImports (depth + 2) hs ++ blockImports (depth + 1) o ++
      blockImports (depth + 1) f
  | .withBlock _ _ _ b | .define _ _ _ _ b _ _ | .defineClass _ _ _ _ b _ => blockImports (depth + 1) b
  | .matchBlock _ _ cases => caseImports (depth + 2) cases
  | _ => []

def blockImports (depth : Nat) : List Stmt → List (Nat × Stmt)
  | [] => []
  | s :: rest => s.imports depth ++ blockImports depth rest

def handlerImports (depth : Nat) : List Handler → List (Nat × Stmt)
  | [] => []
  | .mk _ _ _ b :: rest => blockImports depth b ++ handlerImports depth rest

def caseImports (depth : Nat) : List MatchCase → List (Nat × Stmt)
  | [] => []
  | .mk _ _ b :: rest => blockImports depth b ++ caseImports depth rest

end

/-- Put the entries of one depth after another. -/
def byDepth {α : Type} : Nat → Nat → List (Nat × α) → List α
  | 0, _, _ => []
  | fuel + 1, depth, xs =>
    (xs.filter (·.1 = depth)).map (·.2) ++
      byDepth fuel (depth + 1) xs

/-- All import statements of a source, those nearest to the top first. -/
def importStatements (body : List Stmt) : List Stmt :=
  let found := blockImports 0 body
  byDepth ((found.map (·.1)).foldl max 0 + 1) 0 found

/-- The root of a dotted name that a statement imports. -/
def ImportedRoot.ofName (name : String) (s : Span) : ImportedRoot :=
  ⟨Dotted.root name, s.start.line, s.start.byte⟩

/-- The roots that a statement imports. -/
def Stmt.importedRoots : Stmt → List ImportedRoot
  | .importing s names => names.map fun a => .ofName a.name s
  | .importFrom s (some m) _ 0 => if m = "" then [] else [.ofName m s]
  | _ => []

/-- The imported roots of a source, those nearest to the top first. -/
def importedRoots (body : List Stmt) : List ImportedRoot := (importStatements body).flatMap Stmt.importedRoots

end Evalbox.Lang
