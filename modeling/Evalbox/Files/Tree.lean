import Evalbox.Files.Path

/-!
# A tree of files

The files that an evaluation can see: plain files and archives by their path, and the directories
that hold them. A path is resolved part by part, and `..` leads out of directories only.
-/

namespace Evalbox

/-- What a path can name. -/
inductive FileNode where
  | file (bytes : List UInt8)
  | archive (members : List (String × List UInt8))
  | directory
  deriving DecidableEq, Repr, Inhabited

/-- Files, archives and directories, by the parts of their absolute paths, and the current
directory. -/
structure FileTree where
  cwd : String
  nodes : List (List String × FileNode)
  deriving Repr, Inhabited

namespace FileTree

def empty (cwd : String) : FileTree := ⟨cwd, []⟩

/-- Whether some node lies below these parts. -/
def holds (t : FileTree) (parts : List String) : Bool :=
  t.nodes.any fun (ps, _) => parts.length < ps.length && ps.take parts.length == parts

/-- What stands at resolved parts. -/
def at? (t : FileTree) (parts : List String) : Option FileNode :=
  match t.nodes.lookup parts with
  | some n => some n
  | none =>
    if t.holds parts || parts == Path.collapse true (Path.split t.cwd) || parts.isEmpty then some .directory
    else none

/-- Resolve the parts of a path from a directory on. -/
def walk (t : FileTree) : List String → List String → Option (List String)
  | here, [] => some here
  | here, p :: rest =>
    if p = "" || p = "." then walk t here rest
    else match t.at? here with
      | some .directory =>
        if p = ".." then walk t here.dropLast rest else walk t (here ++ [p]) rest
      | _ => none

/-- The resolved parts of a path, if every directory on the way exists. -/
def resolve (t : FileTree) (path : String) : Option (List String) :=
  t.walk [] (Path.split (Path.join t.cwd path))

/-- What a path names. -/
def node? (t : FileTree) (path : String) : Option FileNode := do
  let n ← t.at? (← t.resolve path)
  if path.endsWith "/" && n ≠ .directory then none else some n

def isFile (t : FileTree) (path : String) : Bool :=
  match t.node? path with
  | some (.file _) | some (.archive _) => true
  | _ => false

def isDirectory (t : FileTree) (path : String) : Bool := t.node? path = some .directory

def «exists» (t : FileTree) (path : String) : Bool := (t.node? path).isSome

/-- Put a node at resolved parts. -/
def set (t : FileTree) (parts : List String) (n : FileNode) : FileTree :=
  if t.nodes.any (·.1 == parts) then
    { t with nodes := t.nodes.map fun (ps, m) => if ps == parts then (ps, n) else (ps, m) }
  else { t with nodes := t.nodes ++ [(parts, n)] }

/-- Put a node at a path, whose directories come into being with it. -/
def put (t : FileTree) (path : String) (n : FileNode) : FileTree :=
  t.set (Path.collapse true (Path.split (Path.join t.cwd path))) n

/-- The names in a directory. -/
def list (t : FileTree) (path : String) : List String :=
  match t.resolve path with
  | none => []
  | some parts =>
    (t.nodes.filterMap fun (ps, _) =>
      if parts.length < ps.length && ps.take parts.length == parts then ps[parts.length]? else none).eraseDups

end FileTree

end Evalbox
