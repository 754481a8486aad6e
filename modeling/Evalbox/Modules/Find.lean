import Evalbox.Files.Tree
import Evalbox.Modules.Host
import Evalbox.Text.Dotted

/-!
# Finding modules on a search path

A search path lists directories and archives; the first entry that offers a module decides. In a
directory a package comes before a plain file of the same name. A plain directory, also one that an
archive lists, offers the name without any code; it is taken only if no later entry has code for it.
-/

namespace Evalbox

/-- A module that was found: its source file, and where its own modules are searched, if it can have
any. Without a source there is nothing to load. -/
structure ModuleSpec where
  name : String
  source : Option String
  locations : Option (List String)
  deriving DecidableEq, Repr, Inhabited

namespace FileTree

/-- An archive with the path inside it that an entry of a search path names. -/
def archiveAt? (t : FileTree) (entry : String) : Option (String × List (String × List UInt8) × String) :=
  let rec up : Nat → List String → List String → Option (String × List (String × List UInt8) × String)
    | 0, _, _ => none
    | fuel + 1, ps, inside =>
      let path := "/".intercalate ps
      match t.node? path with
      | some (.archive members) =>
        some (path, members, String.join (inside.map (· ++ "/")))
      | some _ => none
      | none =>
        match ps.getLast? with
        | some p => up fuel ps.dropLast (p :: inside)
        | none => none
  let ps := Path.split entry
  up (ps.length + 1) ps []

/-- What one entry of a search path offers under a name. `listing` are the names that are known of an
entry that is a directory. -/
def findAt (t : FileTree) (listing : String → Option (List String)) (entry name : String) : Option ModuleSpec :=
  let tail := Dotted.last name
  let entry := if entry = "" then t.cwd else entry
  match listing entry with
  | some names =>
    let base := Path.join entry tail
    if names.contains tail && t.isFile (Path.join base "__init__.py") then
      some ⟨name, some (Path.join base "__init__.py"), some [base]⟩
    else if names.contains (tail ++ ".py") && t.isFile (base ++ ".py") then
      some ⟨name, some (base ++ ".py"), none⟩
    else if names.contains tail && t.isDirectory base then some ⟨name, none, some [base]⟩
    else none
  | none =>
    match t.archiveAt? entry with
    | none => none
    | some (archive, members, inside) =>
      let path := inside ++ tail
      let has (p : String) : Bool := members.any (·.1 = p)
      let full (p : String) : String := archive ++ "/" ++ p
      if has (path ++ "/__init__.py") then
        some ⟨name, some (full (path ++ "/__init__.py")), some [full path]⟩
      else if has (path ++ ".py") then some ⟨name, some (full (path ++ ".py")), none⟩
      else if has (path ++ "/") then some ⟨name, none, some [full path]⟩
      else none

/-- The names in a directory. -/
def listing (t : FileTree) (entry : String) : Option (List String) :=
  if t.isDirectory entry then some (t.list entry) else none

/-- Search a path for a module. Directories without code are collected. -/
def findModule (t : FileTree) (listing : String → Option (List String)) (name : String) (path : List String) :
    Option ModuleSpec :=
  let rec search : List String → List String → Option ModuleSpec
    | [], [] => none
    | bare, [] => some ⟨name, none, some bare⟩
    | bare, entry :: rest =>
      match t.findAt listing entry name with
      | none => search bare rest
      | some spec =>
        if spec.source.isSome then some spec
        else search (bare ++ spec.locations.getD []) rest
  search [] path

/-- The bytes of a module's source, in a file or in an archive. -/
def sourceBytes (t : FileTree) (path : String) : Option (List UInt8) :=
  match t.node? path with
  | some (.file bytes) => some bytes
  | _ =>
    match t.archiveAt? (Path.parent path) with
    | some (_, members, inside) => members.lookup (inside ++ ((Path.split path).getLast?).getD "")
    | none => none

end FileTree

/-- Cut a classpath into its entries, which colons separate. -/
def classpathEntries (classpath : String) : List String :=
  (classpath.splitOn ":").filter (· ≠ "")

/-- Whether a top-level module can be imported, from the classpath or from the host. -/
def moduleOnPath (t : FileTree) (root classpath : String) : Bool :=
  Host.offers root || (t.findModule t.listing root (classpathEntries classpath)).isSome

end Evalbox

/-!
## What a search for modules remembers

The finder of modules looks at an entry of a search path once and keeps what it is. The names in a
directory are read again when the directory has changed. A reading that is refused leaves the finder with
no names, until the directory changes.
-/

namespace Evalbox

/-- What is remembered of an entry of a search path. -/
inductive EntryMemory where
  /-- a directory: its names when they were last read, and those that the finder took from it -/
  | directory (seen known : List String)
  | other
  deriving DecidableEq, Repr, Inhabited

/-- What is remembered of all entries. -/
structure SearchMemory where
  entries : List (String × EntryMemory)
  deriving DecidableEq, Repr, Inhabited

namespace SearchMemory

def empty : SearchMemory := ⟨[]⟩

/-- Look at an entry. `blind` says that directories cannot be read. -/
def look (m : SearchMemory) (t : FileTree) (blind : Bool) (entry : String) : SearchMemory :=
  let entry := if entry = "" then t.cwd else entry
  let read : EntryMemory := .directory (t.list entry) (if blind then [] else t.list entry)
  let put (e : EntryMemory) : SearchMemory := ⟨(entry, e) :: m.entries.filter (·.1 ≠ entry)⟩
  match m.entries.lookup entry with
  | some (.directory seen _) => if t.list entry = seen then m else put read
  | some .other => m
  | none => put (if t.isDirectory entry then read else .other)

/-- Look at all entries of a search path. -/
def lookAll (m : SearchMemory) (t : FileTree) (blind : Bool) (path : List String) : SearchMemory :=
  path.foldl (fun m e => m.look t blind e) m

/-- The names that are known of a directory. -/
def listing (m : SearchMemory) (entry : String) : Option (List String) :=
  match m.entries.lookup entry with
  | some (.directory _ known) => some known
  | _ => none

/-- Search a path for a module, up to the first entry that has code for it. -/
def find (m : SearchMemory) (t : FileTree) (blind : Bool) (name : String) (path : List String) :
    Option ModuleSpec × SearchMemory :=
  let m := m.lookAll t blind path
  (t.findModule m.listing name path, m)

end SearchMemory

end Evalbox
