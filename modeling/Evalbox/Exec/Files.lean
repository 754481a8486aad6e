import Evalbox.Exec.Iterate
import Evalbox.Exec.Signature
import Evalbox.Files.Read

/-!
# Files in a snippet

Opening a file is announced first and then asked of the world. What is written to an open file goes
to the world at once. Positions count bytes.
-/

namespace Evalbox

/-- How a file is opened. -/
structure OpenMode where
  creates : Bool
  reads : Bool
  writes : Bool
  appends : Bool
  updates : Bool
  binary : Bool
  deriving DecidableEq, Repr

namespace OpenMode

/-- Read the letters of a mode. -/
def ofText (mode : String) : Except String OpenMode :=
  let cs := mode.toList
  let has (c : Char) : Bool := cs.contains c
  if cs.any (fun c => !"xrwab+t".toList.contains c) || cs.eraseDups.length < cs.length then
    .error ("invalid mode: " ++ Text.quote mode)
  else if has 't' && has 'b' then .error "can't have text and binary mode at once"
  else if (cs.filter fun c => "xrwa".toList.contains c).length ≠ 1 then
    .error "must have exactly one of create/read/write/append mode"
  else .ok ⟨has 'x', has 'r', has 'w', has 'a', has '+', has 'b'⟩

/-- The mode as it is announced. -/
def rawText (m : OpenMode) : String :=
  (if m.creates then "x" else if m.reads then "r" else if m.writes then "w" else "a") ++
    (if m.updates then "+" else "")

/-- The flags that are announced. -/
def flags (m : OpenMode) : Int :=
  (if m.updates then 2 else if m.reads then 0 else 1) +
    (if m.creates then 0o300 else if m.writes then 0o1100 else if m.appends then 0o2100 else 0) + 0o2000000

end OpenMode

namespace M

/-- Raise the error of the operating system that keeps a path from being opened. -/
def raiseOpen {α : Type} (e : OpenError) (path : String) : M α :=
  match e with
  | .missing => osError "FileNotFoundError" 2 "No such file or directory" (some (.text path))
  | .notDirectory => osError "NotADirectoryError" 20 "Not a directory" (some (.text path))
  | .isDirectory => osError "IsADirectoryError" 21 "Is a directory" (some (.text path))
  | .nullCharacter => valueError "embedded null byte"

/-- What is in a file, or why it cannot be read. -/
def fileBytes (path : String) : M (Except OpenError (List UInt8)) := do
  match ← ask (.readFile path) with
  | .bytes (some bs) => return .ok bs
  | .refused e => return .error e
  | _ => return .error .missing

/-- Replace what is in a file. -/
def writeBytes (path : String) (bs : List UInt8) : M Unit := do
  match ← ask (.writeFile path bs) with
  | .refused e => raiseOpen e path
  | _ => pure ()

/-- Open a file. -/
def openFile (args : List Value) (kwargs : Names) : M Value := do
  let given ← takeArguments "open" ["file", "mode", "buffering", "encoding", "errors", "newline", "closefd",
    "opener"] args kwargs
  match argumentAt given 0 with
  | none => typeError "open() missing required argument 'file' (pos 1)"
  | some (.text path) =>
    let mode ← match argumentAt given 1 with
      | some (.text m) => pure m
      | some v => typeError ("open() argument 'mode' must be str, not " ++ (← typeName v))
      | none => pure "r"
    match OpenMode.ofText mode with
    | .error e => valueError e
    | .ok m =>
      if path.toList.contains '\x00' then valueError "embedded null byte"
      else do
        audit "open" [.text path, .text m.rawText, .int m.flags]
        let found ← fileBytes path
        let handle (position : Nat) : M Value :=
          make (.file ⟨path, m.reads || m.updates, !m.reads || m.updates, m.appends, m.binary, position, false,
            if m.binary then m.rawText ++ "b" else mode⟩)
        match found with
        | .ok bs =>
          if m.creates then osError "FileExistsError" 17 "File exists" (some (.text path))
          else if m.writes then do
            writeBytes path []
            handle 0
          else handle (if m.appends then bs.length else 0)
        | .error .missing =>
          if m.reads then raiseOpen .missing path
          else do
            writeBytes path []
            handle 0
        | .error e =>
          if m.creates && e = .isDirectory then osError "FileExistsError" 17 "File exists" (some (.text path))
          else raiseOpen e path
  | some v =>
    match v with
    | .int n => osError "OSError" 9 "Bad file descriptor" (some (.int n))
    | v => typeError ("expected str, bytes or os.PathLike object, not " ++ (← typeName v))

def unsupported {α : Type} (text : String) : M α := raise "UnsupportedOperation" text

/-- Write to an open file. Answers how many items were written. -/
def writeFile (r : Ref) (f : OpenFile) (v : Value) : M Value := do
  if f.closed then valueError (if f.binary then "write to closed file" else "I/O operation on closed file.")
  else if !f.writable then unsupported (if f.binary then "write" else "not writable")
  else
    let (n, bs) ← (match v, f.binary with
      | .text s, false => return (s.length, Text.encode s.toList)
      | .bytes bs, true => return (bs.length, bs)
      | v, false => do typeError ("write() argument must be str, not " ++ (← typeName v))
      | v, true => do typeError ("a bytes-like object is required, not '" ++ (← typeName v) ++ "'") :
        M (Nat × List UInt8))
    let old ← match ← fileBytes f.path with
      | .ok old => pure old
      | .error _ => pure []
    let start := if f.append then old.length else f.position
    let gap := List.replicate (start - old.length) 0
    writeBytes f.path (old.take start ++ gap ++ bs ++ old.drop (start + bs.length))
    put r (.file { f with position := start + bs.length })
    return .int n

/-- Every line from the position of a file on. The fuel bounds the lines. -/
def restLines (r : Ref) : Nat → M (List Value)
  | 0 => return []
  | fuel + 1 => do
    match ← obj r with
    | .file f =>
      match ← readLine r f with
      | some v => return v :: (← restLines r fuel)
      | none => return []
    | _ => return []

/-- A method of an open file. -/
def fileMethod (r : Ref) (f : OpenFile) (name : String) (args : List Value) : M Value := do
  let needReadable : M Unit := do
    if f.closed then valueError (if f.binary then "read of closed file" else "I/O operation on closed file.")
    else if !f.readable then unsupported (if f.binary then "read" else "not readable")
  match name with
  | "read" => do
    needReadable
    match ← fileBytes f.path with
    | .error _ => if f.binary then return .bytes [] else return .text ""
    | .ok bs =>
      let rest := bs.drop f.position
      let limit : Option Nat := match args with
        | .int n :: _ => if n < 0 then none else some n.toNat
        | _ => none
      let part ← (match limit, f.binary with
        | none, _ => return rest
        | some n, true => return rest.take n
        | some n, false =>
          match Text.decode rest with
          | .ok cs => return Text.encode (cs.take n)
          | .error _ => return rest : M (List UInt8))
      put r (.file { f with position := f.position + part.length })
      fileValue f.binary part
  | "readline" => do
    needReadable
    match ← readLine r f with
    | some v => return v
    | none => if f.binary then return .bytes [] else return .text ""
  | "readlines" => do
    needReadable
    let size ← match ← fileBytes f.path with
      | .ok bs => pure bs.length
      | .error _ => pure 0
    make (.list (← restLines r (size + 1)).toArray)
  | "write" => writeFile r f (args.headD .none)
  | "writelines" => do
    let items ← collectAll (args.headD .none)
    for v in items do
      match ← obj r with
      | .file g => let _ ← writeFile r g v
      | _ => pure ()
    return .none
  | "close" | "__exit__" => do
    put r (.file { f with closed := true })
    return .none
  | "__enter__" => if f.closed then valueError "I/O operation on closed file." else return .ref r
  | "readable" => return .bool f.readable
  | "writable" => return .bool f.writable
  | "seekable" => return .bool true
  | "isatty" => return .bool false
  | "fileno" => return .int 3
  | _ => return .none

end M

end Evalbox
