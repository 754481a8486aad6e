import Evalbox.Modules.Importer
import Evalbox.Policy.Import

/-!
# Libraries

A library is a classpath whose modules do nothing that an importer can see but import, look at modules, bind
names in them, fail, and catch what their imports raise. `Library.importing` puts the importer to work on a
library; its loading is unfolded a number of times, and an unfolding that is too short gives no answer.

The shelf that the importer works on also keeps a record of which bodies began, came to their end, or failed.
The importer does not read it.
-/

namespace Evalbox

/-- A module: one that was made for the classpath, by number, or one of the host. -/
inductive ModuleRef where
  | own (number : Nat)
  | host (name : String)
  deriving DecidableEq, Repr

/-- What an import raises: a refusal of the importer, or a fault of a body or of the host. -/
inductive ImportFailure where
  | refused (refusal : ImportRefusal)
  | fault (fault : Fault)
  deriving DecidableEq, Repr

/-- What the body of a module does. What it does next may depend on how an import ended, and on what was
bound to a name; a failed import that is not answered by `fail` is caught. -/
inductive ModuleBody where
  | done
  | fail (failure : ImportFailure)
  | imports (r : ImportRequest) (next : Except ImportFailure ModuleRef → ModuleBody)
  | looks (m : ModuleRef) (name : String) (next : Bool → ModuleBody)
  | binds (m : ModuleRef) (name : String) (next : ModuleBody)

/-- How far the body of a module came. -/
inductive BodyStage where
  | began
  | completed
  | broke
  deriving DecidableEq, Repr

/-- Something that happened to the body of a module that was loaded under a name. -/
structure BodyEvent where
  stage : BodyStage
  name : String
  module : ModuleRef
  deriving DecidableEq, Repr

/-- A module that was made, with the names that are bound in it. -/
structure MadeModule where
  spec : ModuleSpec
  bound : List String
  deriving DecidableEq, Repr

/-- The modules that were made, the cache of the importer, and what happened to bodies so far. -/
structure Shelf where
  made : List MadeModule
  cached : List (String × ModuleRef)
  record : List BodyEvent
  deriving DecidableEq, Repr

namespace Shelf

def empty : Shelf := ⟨[], [], []⟩

/-- The module that is cached under a name. -/
def find? (s : Shelf) (name : String) : Option ModuleRef := s.cached.lookup name

/-- Note what happened to a body. -/
def note (s : Shelf) (e : BodyEvent) : Shelf := { s with record := s.record ++ [e] }

/-- Bind a name in a module that was made. -/
def bind (s : Shelf) (m : ModuleRef) (name : String) : Shelf :=
  match m with
  | .own i => { s with made := s.made.modify i fun o => { o with bound := name :: o.bound } }
  | .host _ => s

/-- What is known of a module that was made. -/
def made? (s : Shelf) : ModuleRef → Option MadeModule
  | .own i => s.made[i]?
  | .host _ => none

/-- Whether a name is bound in a module. Packages are born with a search path. -/
def has (s : Shelf) (m : ModuleRef) (name : String) : Bool :=
  match s.made? m with
  | some o => o.bound.contains name || (name = "__path__" && o.spec.locations.isSome)
  | none => false

end Shelf

/-- Work on a shelf, which may fail; none if it was not given enough room to end. -/
def Loading (α : Type) : Type := Shelf → Option (Except ImportFailure α × Shelf)

namespace Loading

variable {α β : Type}

protected def pure (a : α) : Loading α := fun s => some (.ok a, s)

protected def bind (p : Loading α) (f : α → Loading β) : Loading β := fun s =>
  match p s with
  | some (.ok a, s) => f a s
  | some (.error e, s) => some (.error e, s)
  | none => none

instance : Monad Loading where
  pure := Loading.pure
  bind := Loading.bind

def fail (e : ImportFailure) : Loading α := fun s => some (.error e, s)

/-- Look at the shelf. -/
def read (f : Shelf → α) : Loading α := fun s => some (.ok (f s), s)

/-- Change the shelf. -/
def change (f : Shelf → Shelf) : Loading Unit := fun s => some (.ok (), f s)

/-- Work for which there is no room. -/
def exhausted : Loading α := fun _ => none

/-- Do the second work too if the first one fails, and fail then as the first one did. -/
def onFailure (work cleanup : Loading Unit) : Loading Unit := fun s =>
  match work s with
  | some (.error e, s) => (cleanup s).map fun (_, s) => (.error e, s)
  | r => r

end Loading

namespace Importing

variable {m : Type → Type} {μ : Type} [Monad m] (ops : Importing m μ)

/-- Load a module, from what a search for it found. -/
def loadFound (name : String) (parent : Option μ) : Option ModuleSpec → m μ
  | none => ops.refuse (.missing name)
  | some spec =>
    if spec.source.isNone then ops.refuse (.missing name)
    else do
      let module ← ops.run name spec
      match parent with
      | some p => ops.setAttr p (Dotted.last name) module
      | none => pure ()
      return module

/-- Load a name inside a module unless it is known there, and go on. -/
def loadOne (again : String → m μ) (name : String) (module : μ) (n : String) (rest : m Unit) (known : Bool) :
    m Unit := do
  if !known then
    if ← ops.hasAttr module "__path__" then
      let _ ← again (name ++ "." ++ n)
  rest

theorem loadBelow_none (name : String) : ops.loadBelow name none =
    (ops.entries >>= fun path => ops.find name path >>= ops.loadFound name none) := rfl

theorem loadBelow_some (name : String) (p : μ) : ops.loadBelow name (some p) =
    (ops.searchPath p >>= fun found => pure (found.getD []) >>= fun path =>
      ops.find name path >>= ops.loadFound name (some p)) := rfl

theorem loadNames_cons (again : String → m μ) (name : String) (module : μ) (n : String) (rest : List String) :
    ops.loadNames again name module (n :: rest) =
      ((if n = "*" then pure true else ops.hasAttr module n) >>=
        ops.loadOne again name module n (ops.loadNames again name module rest)) := rfl

end Importing

/-- A classpath: its entries, what a search for a name finds, what the body of a module does, the names that
a module is born with, and what an import from the host comes to. Modules that are made of the same source, one
after the other, may do different things. -/
structure Library where
  entries : List String
  find : String → List String → Option ModuleSpec
  body : ModuleSpec → ModuleRef → ModuleBody
  born : ModuleSpec → List String
  host : ImportRequest → Except ImportFailure ModuleRef

namespace Library

variable (lib : Library)

/-- Do what a body does, where `enter` imports. -/
def perform (enter : ImportRequest → Loading ModuleRef) : ModuleBody → Loading Unit
  | .done => pure ()
  | .fail e => .fail e
  | .imports r next => fun s =>
    match enter r s with
    | some (res, s) => perform enter (next res) s
    | none => none
  | .looks m name next => fun s => perform enter (next (s.has m name)) s
  | .binds m name next => fun s => perform enter next (s.bind m name)

/-- Run the body of a module, and keep a record of it. -/
def execute (enter : ImportRequest → Loading ModuleRef) (spec : ModuleSpec) (m : ModuleRef) :
    Loading Unit := fun s =>
  match perform enter (lib.body spec m) (s.note ⟨.began, spec.name, m⟩) with
  | some (.ok (), s) => some (.ok (), s.note ⟨.completed, spec.name, m⟩)
  | some (.error e, s) => some (.error e, s.note ⟨.broke, spec.name, m⟩)
  | none => none

/-- The importer at work on a library. -/
def importing (enter : ImportRequest → Loading ModuleRef) : Importing Loading ModuleRef where
  entries := pure lib.entries
  cached name := .read fun s => s.find? name
  remember name m := .change fun s => { s with cached := bindName name m s.cached }
  forget name := .change fun s => { s with cached := s.cached.filter (·.1 ≠ name) }
  find name path := pure ((lib.find name path).map fun spec => { spec with name })
  create spec := fun s => some (.ok (.own s.made.length), { s with made := s.made ++ [⟨spec, lib.born spec⟩] })
  execute := lib.execute enter
  searchPath m := .read fun s => (s.made? m).bind fun o => o.spec.locations
  hasAttr m name := .read fun s => s.has m name
  setAttr m name _ := .change fun s => s.bind m name
  refuse r := .fail (.refused r)
  onFailure := Loading.onFailure
  alone work := work
  host r _ := fun s => some (lib.host r, s)

/-- The loading of a module, unfolded a number of times. Imports by its body are unfolded once less. -/
def load : Nat → String → Loading ModuleRef
  | 0, _ => .exhausted
  | n + 1, name =>
    (lib.importing ((lib.importing fun _ => .exhausted).importModule (load n))).load (load n) name

/-- An import, with a number of unfoldings for the loading that it causes. -/
def request (n : Nat) (r : ImportRequest) : Loading ModuleRef :=
  (lib.importing fun _ => .exhausted).importModule (lib.load n) r

/-- An import ends with a result and leaves a shelf. -/
def Ends (r : ImportRequest) (s : Shelf) (res : Except ImportFailure ModuleRef) (s' : Shelf) : Prop :=
  ∃ n, lib.request n r s = some (res, s')

/-- A shelf from which another comes by imports that ended, one after the other. -/
inductive Later : Shelf → Shelf → Prop
  | refl (s : Shelf) : Later s s
  | call {s s' s'' : Shelf} {r : ImportRequest} {res : Except ImportFailure ModuleRef} :
    Later s s' → lib.Ends r s' res s'' → Later s s''

end Library

end Evalbox
