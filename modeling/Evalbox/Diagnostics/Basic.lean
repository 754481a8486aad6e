import Evalbox.Text.Lines

/-!
# Messages and diagnostics

A compiler reports `Message`s: a level on a numeric scale, a text, and a location in 1-based lines
and columns whose parts may be missing. The rest of the library works with `Diagnostic`s, which
carry a character range instead. `Severity.ofLevel` reads the numeric scale.
-/

namespace Evalbox

/-- The three severities, in ascending order. -/
inductive Severity where
  | info
  | warning
  | error
  deriving DecidableEq, Repr, Inhabited

namespace Severity

def name : Severity → String
  | info => "info"
  | warning => "warning"
  | error => "error"

end Severity

/-- A numeric message level. -/
abbrev Level := Int

namespace Level

def info : Level := 20
def warning : Level := 30
def error : Level := 40

end Level

/-- From 40 up a level is an error, from 30 up a warning, and everything below is information. -/
def Severity.ofLevel (level : Level) : Severity :=
  if level ≥ Level.error then .error
  else if level ≥ Level.warning then .warning
  else .info

/-- What a compiler reports, located as it counts: lines and columns from 1, any part missing. -/
structure Message where
  level : Level
  text : String
  line : Option Int
  column : Option Int
  endLine : Option Int
  endColumn : Option Int
  deriving DecidableEq, Repr, Inhabited

namespace Message

def severity (m : Message) : Severity := Severity.ofLevel m.level

/-- A message without a location. -/
def plain (level : Level) (text : String) : Message := ⟨level, text, none, none, none, none⟩

end Message

/-- A character range: 0-based offsets into the source, and the 1-based line that is reported. -/
structure Position where
  start : Nat
  point : Nat
  stop : Nat
  line : Nat
  deriving DecidableEq, Repr, Inhabited

/-- A message with its place in the source, if it has one. -/
structure Diagnostic where
  text : String
  position : Option Position
  deriving DecidableEq, Repr, Inhabited

end Evalbox

/-!
## From line and column to a character range

`Message.position?` places a message over a source. Every part of a location may be missing or out
of range; each is clamped where it is used, so that the result never leaves the text.
-/

namespace Evalbox

/-- The offset of a 1-based line and column. A line outside the text is moved to the nearest line,
a missing or non-positive column to the first, and the result is cut at `limit`. -/
def offsetOf (starts : List Nat) (limit : Nat) (line : Int) (column : Option Int) : Nat :=
  let row := min (max line 1) starts.length
  let base := starts.getD (row.toNat - 1) 0
  let col := match column with
    | none => 0
    | some c => (c - 1).toNat
  min (base + col) limit

namespace Message

/-- The range of a message over `source`; none without a line number of at least 1. A missing end
collapses the range onto its point. -/
def position? (m : Message) (source : List Char) : Option Position :=
  match m.line with
  | none => none
  | some lineno =>
    if lineno < 1 then none
    else
      let starts := Text.newlineStarts source
      let line : Int := min lineno starts.length
      let point := offsetOf starts source.length line m.column
      let stop := match m.endLine, m.endColumn with
        | some endLine, some endColumn =>
          max (offsetOf starts source.length endLine (some endColumn)) point
        | _, _ => point
      some ⟨point, point, stop, line.toNat⟩

/-- The message as a diagnostic over `source`. -/
def diagnose (source : List Char) (m : Message) : Diagnostic := ⟨m.text, m.position? source⟩

end Message

end Evalbox

/-!
## Diagnostics by severity

A `Report` lists, for each severity that occurs, its diagnostics in report order; severities stand
in the order in which each was first reported. `Report.ofMessages` groups the messages of one
compile, and a `Collector` is the store that a compile reports into.
-/

namespace Evalbox

/-- Diagnostics grouped by severity, in the order in which each severity was first seen. -/
abbrev Report := List (Severity × List Diagnostic)

namespace Report

/-- Append a diagnostic to its group, opening the group at the end if it is new. -/
def add : Report → Severity → Diagnostic → Report
  | [], s, d => [(s, [d])]
  | (t, ds) :: rest, s, d => if t = s then (t, ds ++ [d]) :: rest else (t, ds) :: add rest s d

/-- The diagnostics of one severity, none if it does not occur. -/
def ofSeverity (r : Report) (s : Severity) : List Diagnostic := (r.lookup s).getD []

/-- Whether a severity occurs as a key. -/
def mentions (r : Report) (s : Severity) : Bool := r.any (·.1 = s)

/-- Group messages by severity, keeping report order inside each group. -/
def ofMessages (messages : List Message) (source : List Char) : Report :=
  messages.foldl (fun r m => r.add m.severity (m.diagnose source)) []

/-- The error diagnostics. -/
def errors (r : Report) : List Diagnostic := r.ofSeverity .error

end Report

/-- The messages reported during one compile, in order. -/
structure Collector where
  messages : List Message := []
  deriving Repr, Inhabited

namespace Collector

def report (c : Collector) (m : Message) : Collector := ⟨c.messages ++ [m]⟩

def reset (_ : Collector) : Collector := {}

/-- Whether an error was reported since the last reset. -/
def hasErrors (c : Collector) : Bool := c.messages.any (·.severity = .error)

end Collector

end Evalbox
