import Evalbox.Engine.RunStage
import Evalbox.Exec.Machine
import Evalbox.Modules.Find

/-!
# The world of a snippet

What running code can reach: the files, what the search for modules remembers, the heap with the modules
that were loaded, the time, the threads, and the lock of the importer. `World.answer` says what the world
answers to a request, and when it does not answer at all.
-/

namespace Evalbox

/-- The threads of an engine: that of its caller, the workers, and those that snippets start. -/
inductive ThreadId where
  | main
  | worker (n : Nat)
  | child (n : Nat)
  deriving DecidableEq, Repr, Inhabited

/-- The world but for the standard output and the guards. Times are in microseconds. The thread that runs
comes first in `threads`. -/
structure Outside where
  files : FileTree
  memory : SearchMemory
  heap : Heap
  clock : Nat
  threads : List ThreadId
  nextChild : Nat
  /-- the thread that loads modules, and how often it took the lock -/
  lock : Option (ThreadId × Nat)
  deriving Inhabited

abbrev World := Surroundings ThreadId Policy Outside

/-- A heap with nothing but the classes of the language, for a classpath. -/
def Heap.initial (entries : List String) : Heap :=
  ⟨(builtinClasses.map fun (n, b) => builtinClass n b).toArray, [], [], [], [], entries, []⟩

namespace World

/-- The thread that runs. -/
def thread (w : World) : ThreadId := w.world.threads.headD .main

/-- Change the world but for the standard output and the guards. -/
def modify (w : World) (f : Outside → Outside) : World := { w with world := f w.world }

/-- Why an operation is rejected on the thread that runs. -/
def rejects (w : World) (e : AuditEvent) : Option Fault := Policy.auditFault (w.guards.active w.thread) e

/-- Read a module's source, which is announced as the opening of a file. -/
def source (w : World) (path : String) : Reply :=
  match w.rejects ⟨"open", [.text path, .text "r", .int 524288]⟩ with
  | some f => .fault f
  | none => .bytes (w.world.files.sourceBytes path)

/-- Take the lock of the importer. There is no answer while another thread holds it. -/
def takeLock (w : World) : Option (Reply × World) :=
  match w.world.lock with
  | none => some (.done, w.modify fun o => { o with lock := some (w.thread, 1) })
  | some (owner, depth) =>
    if owner = w.thread then some (.done, w.modify fun o => { o with lock := some (owner, depth + 1) })
    else none

/-- Give the lock of the importer back. -/
def releaseLock (w : World) : World :=
  w.modify fun o => { o with lock := match o.lock with
    | some (owner, depth + 2) => some (owner, depth + 1)
    | _ => none }

/-- Replace what is in a file. -/
def writeFile (w : World) (path : String) (bytes : List UInt8) : Reply × World :=
  let t := w.world.files
  if t.isDirectory path then (.refused .isDirectory, w)
  else if !t.isDirectory (Path.parent (Path.join t.cwd path)) then
    match t.openRead path with
    | .error e => (.refused e, w)
    | .ok _ => (.refused .missing, w)
  else (.done, w.modify fun o => { o with files := t.put path (.file bytes) })

/-- What the world answers. -/
def answer (w : World) (q : Request) : Option (Reply × World) :=
  match q with
  | .write text => some (.done, { w with console := w.console.write w.thread text })
  | .audit e => match w.rejects e with
    | some f => some (.fault f, w)
    | none => some (.done, w)
  | .isTerminal => some (.yes (w.console.isTerminal w.thread), w)
  | .encoding => some (.text w.console.encodingName, w)
  | .sleep micros => some (.done, w.modify fun o => { o with clock := o.clock + micros })
  | .enterThread =>
    some (.done, w.modify fun o => { o with threads := .child o.nextChild :: o.threads, nextChild := o.nextChild + 1 })
  | .leaveThread => some (.done, w.modify fun o => { o with threads := o.threads.tail })
  | .find name path =>
    let blind := (w.rejects ⟨"os.listdir", [.text ""]⟩).isSome
    let (spec, memory) := w.world.memory.find w.world.files blind name path
    some (.spec spec, w.modify fun o => { o with memory })
  | .source path => some (w.source path, w)
  | .lock => w.takeLock
  | .unlock => some (.done, w.releaseLock)
  | .readFile path =>
    match w.world.files.openRead path with
    | .ok bs => some (.bytes (some bs), w)
    | .error e => some (.refused e, w)
  | .writeFile path bytes => some (w.writeFile path bytes)
  | .listFiles path =>
    if w.world.files.isDirectory path then some (.names (w.world.files.list path), w)
    else match w.world.files.openRead path with
      | .error e => some (.refused e, w)
      | .ok _ => some (.refused .notDirectory, w)
  | .currentDirectory => some (.text w.world.files.cwd, w)

end World

end Evalbox
