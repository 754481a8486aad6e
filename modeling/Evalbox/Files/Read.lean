import Evalbox.Failure
import Evalbox.Files.Tree
import Evalbox.Text.Quoted
import Evalbox.Text.Utf8

/-!
# Reading files

`FileTree.readText` answers the text of a file with every line end as a line feed, or the fault that
the attempt raises.
-/

namespace Evalbox

/-- Why a path cannot be opened for reading. -/
inductive OpenError where
  | missing
  | notDirectory
  | isDirectory
  | nullCharacter
  deriving DecidableEq, Repr, Inhabited

namespace OpenError

/-- The fault of an error for a path, which is shown as it was given. -/
def fault (path : String) : OpenError → Fault
  | missing => ⟨"FileNotFoundError", "[Errno 2] No such file or directory: " ++ Text.quote path⟩
  | notDirectory => ⟨"NotADirectoryError", "[Errno 20] Not a directory: " ++ Text.quote path⟩
  | isDirectory => ⟨"IsADirectoryError", "[Errno 21] Is a directory: " ++ Text.quote path⟩
  | nullCharacter => .value "embedded null byte"

end OpenError

namespace FileTree

/-- Why the walk along a path ends before its last part. -/
def walkError (t : FileTree) : List String → List String → OpenError
  | _, [] => .missing
  | here, p :: rest =>
    if p = "" || p = "." then walkError t here rest
    else match t.at? here with
      | some .directory =>
        if p = ".." then walkError t here.dropLast rest else walkError t (here ++ [p]) rest
      | some _ => .notDirectory
      | none => .missing

/-- The bytes that opening a path for reading gives access to. An archive has bytes too, which nothing
here looks at. -/
def openRead (t : FileTree) (path : String) : Except OpenError (List UInt8) :=
  if path.toList.contains '\x00' then .error .nullCharacter
  else match t.node? path with
    | some (.file bytes) => .ok bytes
    | some (.archive _) => .ok []
    | some .directory => .error .isDirectory
    | none => .error (t.walkError [] (Path.split (Path.join t.cwd path)))

/-- Every line end as a line feed. -/
def lineFeeds : List Char → List Char
  | '\r' :: '\n' :: rest => '\n' :: lineFeeds rest
  | '\r' :: rest => '\n' :: lineFeeds rest
  | c :: rest => c :: lineFeeds rest
  | [] => []

/-- The text of a file. -/
def readText (t : FileTree) (path : String) : Except Fault String :=
  match t.openRead path with
  | .error e => .error (e.fault path)
  | .ok bytes =>
    match Text.decode bytes with
    | .ok cs => .ok (String.ofList (lineFeeds cs))
    | .error f => .error (.decoding f.message)

end FileTree

end Evalbox
