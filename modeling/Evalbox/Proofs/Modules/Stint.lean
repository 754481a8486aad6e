import Evalbox.Proofs.Modules.Library
import Evalbox.World.Basic

/-!
# Work that may stop anywhere

The importer at work on a library, for a worker that makes a limited number of steps and then stops for ever, and
with the lock of the importer. Every operation of the importer is a step, and so is whatever the body of a module
does; therefore the worker can stop anywhere.
-/

namespace Evalbox

/-- How far work came: to its end, to where the worker stopped, or to a lock that another thread holds. -/
inductive Reach (α : Type) where
  | ended (res : Except ImportFailure α)
  | stuck
  | waits

/-- The work came to a lock that another thread holds. -/
def Reach.isWaiting {α : Type} : Reach α → Bool
  | .waits => true
  | _ => false

/-- What a worker works on: the world, the shelf, and how many steps it makes before it stops. -/
structure Desk where
  world : World
  shelf : Shelf
  steps : Nat

namespace Desk

/-- The thread that works has the lock. -/
def Holds (d : Desk) : Prop := ∃ depth, d.world.world.lock = some (d.world.thread, depth + 1)

/-- The desk behind taking the lock, which is held then for so many times and once more. -/
def locked (d : Desk) (depth : Nat) : Desk :=
  { d with world := d.world.modify fun o => { o with lock := some (d.world.thread, depth + 1) } }

theorem locked_holds (d : Desk) (depth : Nat) : (d.locked depth).Holds := ⟨depth, rfl⟩

end Desk

/-- Work of a worker. -/
def Stint (α : Type) : Type := Desk → Reach α × Desk

namespace Stint

variable {α β : Type}

def give (res : Except ImportFailure α) : Stint α := fun d => (.ended res, d)

def stop : Stint α := fun d => (.stuck, d)

/-- Go on behind work that came to its end. -/
def andThen (p : Stint α) (f : Except ImportFailure α → Stint β) : Stint β := fun d =>
  match p d with
  | (.ended res, d) => f res d
  | (.stuck, d) => (.stuck, d)
  | (.waits, d) => (.waits, d)

instance : Monad Stint where
  pure a := give (.ok a)
  bind p f := p.andThen fun
    | .ok a => f a
    | .error e => give (.error e)

/-- A step on the shelf. -/
def onShelf (p : Loading α) : Stint α := fun d =>
  match d.steps, p d.shelf with
  | steps + 1, some (res, shelf) => (.ended res, ⟨d.world, shelf, steps⟩)
  | _, _ => (.stuck, d)

/-- Take the lock of the importer. -/
def lock : Stint Unit := fun d =>
  match d.world.takeLock with
  | some (_, world) => (.ended (.ok ()), { d with world })
  | none => (.waits, d)

def unlock : Stint Unit := fun d => (.ended (.ok ()), { d with world := d.world.releaseLock })

/-- Do the second work too if the first one fails, and fail then as the first one did. -/
def onFailure (work cleanup : Stint Unit) : Stint Unit :=
  work.andThen fun
    | .error e => cleanup.andThen fun _ => give (.error e)
    | .ok () => give (.ok ())

/-- Do the work with the lock, and give the lock back whichever way the work ends. -/
def alone (work : Stint α) : Stint α :=
  lock.andThen fun _ => work.andThen fun res => unlock.andThen fun _ => give res

end Stint

namespace Library

variable (lib : Library)

/-- Do what a body does, where `enter` imports. -/
def performing (enter : ImportRequest → Stint ModuleRef) : ModuleBody → Stint Unit
  | .done => .give (.ok ())
  | .fail e => .give (.error e)
  | .imports r next => (enter r).andThen fun res => performing enter (next res)
  | .looks m name next => Stint.onShelf (.read fun s => s.has m name) >>= fun b => performing enter (next b)
  | .binds m name next => Stint.onShelf (.change fun s => s.bind m name) >>= fun _ => performing enter next

/-- Run the body of a module, and keep a record of it. -/
def executing (enter : ImportRequest → Stint ModuleRef) (spec : ModuleSpec) (m : ModuleRef) : Stint Unit :=
  Stint.onShelf (.change fun s => s.note ⟨.began, spec.name, m⟩) >>= fun _ =>
    (performing enter (lib.body spec m)).andThen fun
      | .ok () => Stint.onShelf (.change fun s => s.note ⟨.completed, spec.name, m⟩)
      | .error e => Stint.onShelf (.change fun s => s.note ⟨.broke, spec.name, m⟩) >>= fun _ => .give (.error e)

/-- The importer at work on a library, for a worker. What it does on the shelf is what it does there without a
lock. -/
def serving (enter : ImportRequest → Stint ModuleRef) : Importing Stint ModuleRef :=
  let ops := lib.importing fun _ => .exhausted
  { entries := .onShelf ops.entries
    cached := fun name => .onShelf (ops.cached name)
    remember := fun name m => .onShelf (ops.remember name m)
    forget := fun name => .onShelf (ops.forget name)
    find := fun name path => .onShelf (ops.find name path)
    create := fun spec => .onShelf (ops.create spec)
    execute := lib.executing enter
    searchPath := fun m => .onShelf (ops.searchPath m)
    hasAttr := fun m name => .onShelf (ops.hasAttr m name)
    setAttr := fun m name value => .onShelf (ops.setAttr m name value)
    refuse := fun r => .onShelf (ops.refuse r)
    onFailure := .onFailure
    alone := .alone
    host := fun r name => .onShelf (ops.host r name) }

/-- The loading of a module by a worker, unfolded a number of times. A worker for which that does not suffice
stops. -/
def loadAt : Nat → String → Stint ModuleRef
  | 0, _ => .stop
  | n + 1, name => (lib.serving ((lib.serving fun _ => .stop).importModule (loadAt n))).load (loadAt n) name

/-- An import by a worker. -/
def importAt (n : Nat) (r : ImportRequest) : Stint ModuleRef :=
  (lib.serving fun _ => .stop).importModule (lib.loadAt n) r

end Library

end Evalbox
