import Evalbox.Unit.Wrap

/-!
# Where a failure comes from

A failure is attributed to a line of the snippet. Its exception may have been raised from another one,
or while another one was handled; `classify` follows these links until an exception has a frame inside
the snippet. Each exception is looked at once, so that a circle of links ends too.
-/

namespace Evalbox

/-- What is known about an exception: the frames that it went through, outermost first, the exception
it was raised from, the one that was being handled, and whether that one is to be ignored. -/
structure Raising (ι : Type) where
  frames : List (String × Int)
  cause : Option ι
  context : Option ι
  suppressed : Bool
  deriving DecidableEq, Repr

/-- The exception behind another. -/
def Raising.underlying {ι : Type} (r : Raising ι) : Option ι :=
  match r.cause with
  | some c => some c
  | none => if r.suppressed then none else r.context

/-- Exceptions and what is known about them. -/
structure Raisings (ι : Type) where
  entries : List (ι × Raising ι)
  deriving Repr

/-- An exception that is reported for a failure, with its line if it has one. -/
structure Attribution (ι : Type) where
  exception : ι
  line : Option Int
  deriving DecidableEq, Repr

/-- The snippet line of the innermost frame inside the snippet. -/
def SnippetUnit.lineOf (u : SnippetUnit) (frames : List (String × Int)) : Option Int :=
  frames.reverse.findSome? fun (file, line) => if file = u.filename then u.snippetLine line else none

namespace Raisings

variable {ι : Type} [BEq ι]

/-- What is known about an exception. -/
def find (g : Raisings ι) (e : ι) : Raising ι := (g.entries.lookup e).getD ⟨[], none, none, false⟩

/-- Follow the links from an exception on, up to one that was seen. -/
def chainFrom (g : Raisings ι) : Nat → List ι → Option ι → List ι
  | 0, _, _ => []
  | _, _, none => []
  | fuel + 1, seen, some e =>
    if seen.contains e then []
    else e :: chainFrom g fuel (e :: seen) (g.find e).underlying

/-- An exception and those behind it, each once. Every exception but the last has an entry. -/
def chain (g : Raisings ι) (e : ι) : List ι := g.chainFrom (g.entries.length + 1) [] (some e)

end Raisings

/-- Attribute an exception: to the first one of its chain with a frame in the snippet, or else to the
last one, without a line. -/
def classify {ι : Type} [BEq ι] (g : Raisings ι) (u : SnippetUnit) (e : ι) : Attribution ι :=
  let chain := g.chain e
  match chain.findSome? fun x => (u.lineOf (g.find x).frames).map fun n => (⟨x, some n⟩ : Attribution ι) with
  | some a => a
  | none => ⟨chain.getLast?.getD e, none⟩

end Evalbox
