import Evalbox.Cli.Reach

/-!
# The command line

The outer layer of the program: it reads the files within reach of a command, runs the program on them, and
prints what it shows.
-/

namespace Evalbox.Cli

/-- Read a file into a tree, if it is there. -/
def readInto (t : FileTree) (path : String) : IO FileTree := do
  if t.exists path then return t
  try
    let bytes ← IO.FS.readBinFile path
    return t.put path (.file bytes.toList)
  catch _ => return t

/-- Read the files that the imports of texts lead to, and those that these lead to in turn. Each text comes
with the directory that it stands in. -/
partial def readImports (entries : List String) (t : FileTree) (seen : List String) :
    List (String × String) → IO FileTree
  | [] => return t
  | (directory, text) :: rest => do
    let mut t := t
    let mut found := rest
    let paths := ((textFiles entries directory text).filter (!seen.contains ·)).eraseDups
    for path in paths do
      t ← readInto t path
      match t.readText path with
      | .ok source => found := (Path.parent path, source) :: found
      | .error _ => pure ()
    readImports entries t (paths ++ seen) found

/-- Read all files within reach of a command. -/
def readFiles (c : Command) (stdin : String) : IO FileTree := do
  let mut t := FileTree.empty (toString (← IO.currentDir))
  for f in c.namedFiles do t ← readInto t f
  for f in (c.configFile.bind (namedPolicy t)).toList do t ← readInto t f
  match c.config t, c.action with
  | .ok config, .run r =>
    match readSources t stdin r with
    | .ok (code, prelude) =>
      readImports config.classpath t [] [("", code), ("", prelude)]
    | .error _ => return t
  | _, _ => return t

/-- Whether a command reads the standard input. -/
def Command.needsInput (c : Command) : Bool :=
  match c.action with
  | .policy => false
  | .run r => r.snippet == "-" || (r.prelude.map (·.asText)) == some "-"

/-- What is said about the use of the program. -/
def usage : String :=
  "Usage: evalbox [--config FILE] run SNIPPET [--prelude FILE] [--timeout SECONDS] [--classpath ENTRY]\n" ++
  "                                    [--flag=FLAG] [--no-security] [--policy-file FILE]\n" ++
  "       evalbox [--config FILE] policy"

/-- Print blocks. -/
def printBlocks (blocks : List Block) : IO Unit := do
  for b in blocks do
    for l in b.lines do IO.println l

/-- Read what a command can reach, and run the program. -/
def runReal (words : List String) : IO (Except Fault Finish) :=
  match Command.parse words with
  | .error s => return .ok (.stopped s)
  | .ok c => do
    let stdin ← if c.needsInput then (do (← IO.getStdin).readToEnd) else pure ""
    return run (← readFiles c stdin) stdin words

end Evalbox.Cli

open Evalbox.Cli in
/-- Run the program on the words behind its name. -/
def main (words : List String) : IO UInt32 := do
  match ← runReal words with
  | .ok (.replied r) =>
    printBlocks r.blocks
    return r.code.toUInt32
  | .ok (.stopped s) =>
    printBlocks s.blocks
    IO.println usage
    return s.code.toUInt32
  | .error f =>
    IO.eprintln (f.kind ++ ": " ++ f.text)
    return 1
