import Evalbox.Number.Text
import Evalbox.Text.Quoted

/-!
# Data

The values that configuration files hold and that snippets answer. `Datum.shown` writes a datum so
that its kind can be seen; `Datum.text` is the same but for text, which it leaves as it is.
-/

/-!
## Dates and times

Dates, times of day and moments, as configuration files hold them, with their two texts: plain, and
as a constructor call.
-/

namespace Evalbox

structure Date where
  year : Nat
  month : Nat
  day : Nat
  deriving DecidableEq, Repr, Inhabited

structure Clock where
  hour : Nat
  minute : Nat
  second : Nat
  micro : Nat
  deriving DecidableEq, Repr, Inhabited

/-- A date, a time of day, or both; the offset from universal time is in minutes. -/
inductive Moment where
  | date (date : Date)
  | time (clock : Clock)
  | dateTime (date : Date) (clock : Clock) (offset : Option Int)
  deriving DecidableEq, Repr, Inhabited

namespace Moment

/-- A number in at least `width` decimal digits. -/
def padded (width n : Nat) : String :=
  let ds := toString n
  String.ofList (List.replicate (width - ds.length) '0') ++ ds

def dateText (d : Date) : String :=
  padded 4 d.year ++ "-" ++ padded 2 d.month ++ "-" ++ padded 2 d.day

def clockText (c : Clock) : String :=
  padded 2 c.hour ++ ":" ++ padded 2 c.minute ++ ":" ++ padded 2 c.second ++
    (if c.micro = 0 then "" else "." ++ padded 6 c.micro)

def offsetText (m : Int) : String :=
  (if m < 0 then "-" else "+") ++ padded 2 (m.natAbs / 60) ++ ":" ++ padded 2 (m.natAbs % 60)

/-- The plain text. -/
def text : Moment → String
  | date d => dateText d
  | time c => clockText c
  | dateTime d c o => dateText d ++ " " ++ clockText c ++ (o.map offsetText).getD ""

def dateFields (d : Date) : List String := [toString d.year, toString d.month, toString d.day]

/-- Seconds are left out if they are zero, and so are fractions of them. -/
def clockFields (c : Clock) : List String :=
  [toString c.hour, toString c.minute] ++
  (if c.second = 0 && c.micro = 0 then []
   else if c.micro = 0 then [toString c.second]
   else [toString c.second, toString c.micro])

def zone (m : Int) : String :=
  if m = 0 then "datetime.timezone.utc"
  else
    let days := if m < 0 then "days=-1, " else ""
    "datetime.timezone(datetime.timedelta(" ++ days ++ "seconds=" ++ toString (m * 60 % 86400) ++ "))"

/-- The constructor call. -/
def shown : Moment → String
  | date d => "datetime.date(" ++ ", ".intercalate (dateFields d) ++ ")"
  | time c => "datetime.time(" ++ ", ".intercalate (clockFields c) ++ ")"
  | dateTime d c o =>
    "datetime.datetime(" ++
      ", ".intercalate (dateFields d ++ clockFields c ++ (o.map fun m => "tzinfo=" ++ zone m).toList) ++ ")"

/-- The name of the type. -/
def typeName : Moment → String
  | date _ => "datetime.date"
  | time _ => "datetime.time"
  | dateTime .. => "datetime.datetime"

end Moment

end Evalbox

namespace Evalbox

/-- A value without identity. Values that are no data are known by the name of their type only, and
`deep` stands for what lies too far inside. -/
inductive Datum where
  | none
  | bool (value : Bool)
  | int (value : Int)
  | float (value : Float)
  | text (value : String)
  | bytes (value : List UInt8)
  | moment (value : Moment)
  | list (items : List Datum)
  | tuple (items : List Datum)
  | set (items : List Datum)
  | dict (entries : List (Datum × Datum))
  | classOf (name : String)
  | object (type : String)
  | deep
  deriving Inhabited

namespace Datum

/-- The name of a datum's type. -/
def typeName : Datum → String
  | none => "NoneType"
  | bool _ => "bool"
  | int _ => "int"
  | float _ => "float"
  | text _ => "str"
  | bytes _ => "bytes"
  | moment m => m.typeName
  | list _ => "list"
  | tuple _ => "tuple"
  | set _ => "set"
  | dict _ => "dict"
  | classOf _ => "type"
  | object t => t
  | deep => "object"

mutual

/-- A datum as it is shown inside other data. -/
def shown : Datum → String
  | none => "None"
  | bool b => if b then "True" else "False"
  | int n => Number.intText n
  | float x => Number.floatText x
  | text s => Text.quote s
  | bytes bs => Text.quoteBytes bs
  | moment m => m.shown
  | list xs => "[" ++ ", ".intercalate (shownAll xs) ++ "]"
  | tuple [x] => "(" ++ shown x ++ ",)"
  | tuple xs => "(" ++ ", ".intercalate (shownAll xs) ++ ")"
  | set [] => "set()"
  | set xs => "\x7b" ++ ", ".intercalate (shownAll xs) ++ "\x7d"
  | dict es => "\x7b" ++ ", ".intercalate (shownEntries es) ++ "\x7d"
  | classOf name => "<class '" ++ name ++ "'>"
  | object t => "<" ++ t ++ ">"
  | deep => "..."

def shownAll : List Datum → List String
  | [] => []
  | x :: xs => shown x :: shownAll xs

def shownEntries : List (Datum × Datum) → List String
  | [] => []
  | (k, v) :: es => (shown k ++ ": " ++ shown v) :: shownEntries es

end

/-- A datum as text. -/
def asText : Datum → String
  | text s => s
  | moment m => m.text
  | d => d.shown

/-- Whether a datum counts as true: it is no zero and not empty. -/
def truth : Datum → Bool
  | none => false
  | bool b => b
  | int n => n ≠ 0
  | float x => x != 0
  | text s => s ≠ ""
  | bytes bs => !bs.isEmpty
  | list xs | tuple xs | set xs => !xs.isEmpty
  | dict es => !es.isEmpty
  | _ => true

/-- The entry of a dict under a text key. -/
def entry? (entries : List (Datum × Datum)) (key : String) : Option Datum :=
  (entries.find? fun (k, _) => match k with
    | text s => s = key
    | _ => false).map (·.2)

end Datum

end Evalbox
