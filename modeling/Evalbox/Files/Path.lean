/-!
# Paths

Paths as text, with a slash between their parts. `normalize` drops empty and `.` parts and lets `..`
take away the part before it, without looking at any file; `absolute` does so behind the current
directory.
-/

namespace Evalbox.Path

/-- Cut a text at every slash. -/
def parts : List Char → List (List Char)
  | [] => [[]]
  | c :: rest =>
    if c = '/' then [] :: parts rest
    else match parts rest with
      | p :: ps => (c :: p) :: ps
      | [] => [[c]]

/-- The parts of a path between its slashes. -/
def split (path : String) : List String := (parts path.toList).map String.ofList

/-- Two slashes in front, and no third, are kept; any other number counts as one. -/
def leadingSlashes (path : String) : String :=
  match path.toList with
  | ['/', '/'] => "//"
  | '/' :: '/' :: c :: _ => if c = '/' then "/" else "//"
  | '/' :: _ => "/"
  | _ => ""

/-- Let `..` take away the part before it. Above the root there is nothing to take away, and in front
of a relative path it stays. -/
def collapse (rooted : Bool) (ps : List String) : List String :=
  (ps.foldl (fun kept p =>
    if p = "" || p = "." then kept
    else if p = ".." then
      match kept with
      | q :: rest => if q = ".." then p :: kept else rest
      | [] => if rooted then [] else [p]
    else p :: kept) []).reverse

/-- The shortest path that names the same file, if no part is a link. -/
def normalize (path : String) : String :=
  let lead := leadingSlashes path
  let text := lead ++ "/".intercalate (collapse (lead ≠ "") (split path))
  if text = "" then "." else text

def isAbsolute (path : String) : Bool := path.startsWith "/"

/-- A path behind another; an absolute path stays as it is. -/
def join (base path : String) : String :=
  if isAbsolute path then path
  else if base = "" || base.endsWith "/" then base ++ path
  else base ++ "/" ++ path

/-- A path up to its first null character, where the system ends it. -/
def beforeNull (path : String) : String := String.ofList (path.toList.takeWhile (· ≠ '\x00'))

/-- A path behind the current directory, normalized. -/
def absolute (cwd path : String) : String := normalize (beforeNull (join cwd path))

/-- A path with empty and `.` parts dropped, and `..` kept. -/
def tidy (path : String) : String :=
  let text := leadingSlashes path ++
    "/".intercalate ((split path).filter fun p => p ≠ "" && p ≠ ".")
  if text = "" then "." else text

/-- The part of a path behind its last slash. -/
def fileName (path : String) : String := String.ofList ((parts path.toList).getLast?.getD [])

/-- The directory of a tidy path. -/
def parent (path : String) : String :=
  let path := tidy path
  let lead := leadingSlashes path
  match ((split path).filter (· ≠ "")).dropLast with
  | [] => if lead = "" then "." else lead
  | ps => lead ++ "/".intercalate ps

end Evalbox.Path
