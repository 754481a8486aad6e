/-!
# Standard output

The standard output of the process is one stream that anybody may replace. A router stands in for it
while output is captured: it sends what a thread writes to the buffer that is set for the thread, and
to its fallback stream if none is set.

A capture is opened in two steps, `install` (under a lock, with a counter) and `route`, and closed in
two, `route` and `release`; the steps of different threads may come in any order.
-/

namespace Evalbox

/-- A stream that can be the standard output: the host's own, one by which the host replaced it, or a
router. -/
inductive Stream where
  | host
  | other (index : Nat)
  | router (index : Nat)
  deriving DecidableEq, Repr, Inhabited

/-- A router: its fallback, and the buffers that are set for threads. -/
structure Router (τ : Type) where
  fallback : Stream
  routes : List (τ × Option Nat)
  deriving Repr

/-- How the host's stream behaves. A sink drops what is written, says that it is a terminal, and has
no encoding. -/
inductive HostKind where
  | buffer
  | sink
  deriving DecidableEq, Repr, Inhabited

/-- The standard output, all streams, and the number of captures that are counted as active. -/
structure Console (τ : Type) where
  stdout : Stream
  routers : List (Router τ)
  buffers : List (List Char)
  kind : HostKind
  host : List Char
  others : List (List Char)
  active : Nat
  deriving Repr

/-- An open capture: its buffer, the router it was opened on, and the buffer that was set before. -/
structure Capture where
  buffer : Nat
  router : Nat
  previous : Option Nat
  deriving DecidableEq, Repr, Inhabited

/-- Append to the `i`-th text. -/
def appendAt (texts : List (List Char)) (i : Nat) (text : List Char) : List (List Char) :=
  texts.modify i (· ++ text)

/-- The buffer that is set for a thread. -/
def Router.bufferOf {τ : Type} [BEq τ] (r : Router τ) (t : τ) : Option Nat := (r.routes.lookup t).join

namespace Console

variable {τ : Type} [BEq τ]

/-- Nothing captured, nothing written. -/
def initial (kind : HostKind) : Console τ := ⟨.host, [], [], kind, [], [], 0⟩

/-- Where the writes of a thread end up, starting at a stream. The fallback of a router is no router. -/
def target (c : Console τ) (t : τ) : Stream → Option Nat × Stream
  | .router i =>
    match c.routers[i]? with
    | some r => (r.bufferOf t, r.fallback)
    | none => (none, .host)
  | s => (none, s)

/-- Append to a stream that is no router. -/
def appendTo (c : Console τ) (text : List Char) : Stream → Console τ
  | .host => match c.kind with
    | .buffer => { c with host := c.host ++ text }
    | .sink => c
  | .other i => { c with others := appendAt c.others i text }
  | .router _ => c

/-- Write to the standard output from a thread. -/
def write (c : Console τ) (t : τ) (text : List Char) : Console τ :=
  match c.target t c.stdout with
  | (some b, _) => { c with buffers := appendAt c.buffers b text }
  | (none, s) => c.appendTo text s

/-- Whether the stream that a thread writes to is a terminal. Only a sink says so. -/
def isTerminal (c : Console τ) (t : τ) : Bool :=
  match c.target t c.stdout with
  | (none, .host) => c.kind = .sink
  | _ => false

/-- Set the buffer of a thread; answers the one that was set before. -/
def route (c : Console τ) (router : Nat) (t : τ) (buffer : Option Nat) : Option Nat × Console τ :=
  ((c.routers[router]?).bind (·.bufferOf t),
   { c with routers := c.routers.modify router fun r =>
       { r with routes := (t, buffer) :: r.routes.filter (!·.1 == t) } })

/-- Make sure that the standard output is a router, and count a capture. -/
def install (c : Console τ) : Nat × Console τ :=
  match c.stdout with
  | .router i => (i, { c with active := c.active + 1 })
  | s =>
    let i := c.routers.length
    (i, { c with stdout := .router i, routers := c.routers ++ [⟨s, []⟩], active := c.active + 1 })

/-- Count a capture off. The last one puts back what its router stands in for, unless somebody else
replaced the standard output. -/
def release (c : Console τ) (router : Nat) : Console τ :=
  let c := { c with active := c.active - 1 }
  if c.active = 0 && c.stdout = .router router then
    match c.routers[router]? with
    | some r => { c with stdout := r.fallback }
    | none => c
  else c

/-- Open a capture on a thread. -/
def openCapture (c : Console τ) (t : τ) : Capture × Console τ :=
  let buffer := c.buffers.length
  let (router, c) := { c with buffers := c.buffers ++ [[]] }.install
  let (previous, c) := c.route router t (some buffer)
  (⟨buffer, router, previous⟩, c)

/-- Close a capture on a thread. -/
def closeCapture (c : Console τ) (t : τ) (k : Capture) : Console τ :=
  ((c.route k.router t k.previous).2).release k.router

/-- The host sets the standard output to a new stream of its own. -/
def replace (c : Console τ) : Console τ :=
  { c with stdout := .other c.others.length, others := c.others ++ [[]] }

/-- The host sets the standard output back to its first stream. -/
def restore (c : Console τ) : Console τ := { c with stdout := .host }

/-- The text in a buffer. -/
def captured (c : Console τ) (buffer : Nat) : List Char := (c.buffers[buffer]?).getD []

/-- The encoding that the standard output names. -/
def encodingName (c : Console τ) : String :=
  match c.stdout with
  | .router i =>
    match (c.routers[i]?).map Router.fallback with
    | some Stream.host => if c.kind = .sink then "utf-8" else "ascii"
    | _ => "ascii"
  | _ => "ascii"

end Console

end Evalbox
