import Evalbox.Datum.Basic
import Evalbox.Text.Digit

/-!
# Options of a command line

A command line is a list of words. `classify` says what each word is to a set of options: an option, which
may bring its value along, an unknown option, a plain word, or the separator, behind which all words are
plain. `scan` then goes through the words in order and hands every option with its value, and every operand,
to whoever reads them. Words that nobody takes are left over.

Long options may be cut short as long as no other option begins in the same way, and negative numbers are
plain words.
-/

namespace Evalbox.Cli

/-- An option. One that has a short spelling takes no value. -/
structure OptionSpec (α : Type) where
  key : α
  long : String
  short : Option String
  takesValue : Bool

/-- Why the reading of a command line ends early. -/
inductive Stop where
  /-- help was asked for -/
  | help
  | usage (message : String)
  deriving DecidableEq, Repr

/-- What a word is. -/
inductive Word (α : Type) where
  | option (spec : OptionSpec α) (spelling : String) (value : Option String)
  | unknown
  | plain
  | separator

/-- The word behind which all words are plain. -/
def separator : String := "--"

namespace OptionSpec

variable {α : Type}

/-- The spellings of an option. -/
def spellings (o : OptionSpec α) : List String := o.short.toList ++ [o.long]

/-- An option as it is named in messages. -/
def shown (o : OptionSpec α) : String := "/".intercalate o.spellings

/-- A message about the value of an option. -/
def fault (o : OptionSpec α) (message : String) : Stop := .usage ("argument " ++ o.shown ++ ": " ++ message)

/-- What is said of a value for an option that takes none. -/
def surplus (o : OptionSpec α) (value : String) : Stop := o.fault ("ignored explicit argument " ++ Text.quote value)

end OptionSpec

/-- All spellings of options, in order. -/
def spelled {α : Type} (options : List (OptionSpec α)) : List (OptionSpec α × String) :=
  options.flatMap fun o => o.spellings.map (o, ·)

/-- The option that is spelled like this. -/
def optionNamed {α : Type} (options : List (OptionSpec α)) (spelling : String) : Option (OptionSpec α) :=
  ((spelled options).find? (·.2 = spelling)).map (·.1)

/-- Cut a word at its first equals sign. -/
def splitValue (word : String) : String × Option String :=
  let (name, rest) := word.toList.span (· ≠ '=')
  match rest with
  | [] => (word, none)
  | _ :: value => (String.ofList name, some (String.ofList value))

/-- Whether a text begins with another one. -/
def beginsWith (start word : String) : Bool := start.toList.isPrefixOf word.toList

/-- The options that a word may mean. Behind two dashes it may be cut short and bring a value along; behind
one it is a short option with more letters. -/
def candidates {α : Type} (options : List (OptionSpec α)) (word : String) :
    List (OptionSpec α × String × Option String) :=
  match word.toList with
  | '-' :: '-' :: _ =>
    let (start, value) := splitValue word
    ((spelled options).filter fun s => beginsWith start s.2).map fun (o, s) => (o, s, value)
  | '-' :: c :: more =>
    (spelled options).filterMap fun (o, s) =>
      if s = String.ofList ['-', c] then some (o, s, some (String.ofList more))
      else if beginsWith word s then some (o, s, none)
      else none
  | _ => []

/-- Whether a word is a negative number in digits, perhaps with a point. -/
def isNegativeNumber (word : String) : Bool :=
  let isDigit (c : Char) : Bool := (Text.digitValue? c).isSome
  match word.toList with
  | '-' :: body =>
    let body := if body.getLast? = some '\n' then body.dropLast else body
    let (whole, rest) := body.span isDigit
    match rest with
    | [] => !whole.isEmpty
    | '.' :: digits => !digits.isEmpty && digits.all isDigit
    | _ => false
  | _ => false

/-- What a word in front of the separator is. -/
def classifyWord {α : Type} (options : List (OptionSpec α)) (word : String) : Except Stop (Word α) :=
  if !beginsWith "-" word || word = "-" then .ok .plain
  else match optionNamed options word with
    | some o => .ok (.option o word none)
    | none =>
      let (name, value) := splitValue word
      match value, optionNamed options name with
      | some v, some o => .ok (.option o name (some v))
      | _, _ =>
        match candidates options word with
        | [(o, s, v)] => .ok (.option o s v)
        | [] => .ok (if isNegativeNumber word || word.toList.contains ' ' then .plain else .unknown)
        | found => .error (.usage ("ambiguous option: " ++ word ++ " could match " ++
            ", ".intercalate (found.map fun (_, s, _) => s)))

/-- What every word is. -/
def classify {α : Type} (options : List (OptionSpec α)) : List String → Except Stop (List (String × Word α))
  | [] => .ok []
  | w :: rest =>
    if w = separator then .ok ((w, .separator) :: rest.map fun r => (r, .plain))
    else do
      let word ← classifyWord options w
      return (w, word) :: (← classify options rest)

/-- What a command line gives to its reader. The value of an option that is nothing but the separator counts
as an empty list. -/
inductive Given (α : Type) where
  | option (spec : OptionSpec α) (value : Option Datum)
  | operand (words : List String)

/-- Which operand is expected: none, one word, or all words from one on. -/
inductive Operand where
  | none
  | word
  | rest
  deriving DecidableEq, Repr

/-- A word as the value of an option. -/
def valueOf (word : String) : Datum := if word = separator then .list [] else .text word

/-- Take the letters of short options that stand together. -/
def takeLetters {α σ : Type} (options : List (OptionSpec α)) (take : σ → Given α → Except Stop σ) :
    OptionSpec α → List Char → σ → Except Stop σ
  | o, [], s => take s (.option o none)
  | o, c :: more, s =>
    match optionNamed options (String.ofList ['-', c]) with
    | none => .error (o.surplus (String.ofList (c :: more)))
    | some next => do takeLetters options take next more (← take s (.option o none))

/-- Go through classified words. Answers what the reader made of them, and the words that are left over. -/
def scan {α σ : Type} (options : List (OptionSpec α)) (take : σ → Given α → Except Stop σ) :
    Operand → List (String × Word α) → σ → Except Stop (σ × List String)
  | _, [], s => .ok (s, [])
  | operand, (w, .unknown) :: rest, s => do
    let (s, extra) ← scan options take operand rest s
    return (s, w :: extra)
  | operand, (_, .option o spelling value) :: rest, s =>
    match value, o.takesValue, rest with
    | some v, true, rest => do scan options take operand rest (← take s (.option o (some (valueOf v))))
    | some v, false, rest =>
      if beginsWith "--" spelling || v = "" then .error (o.surplus v)
      else do scan options take operand rest (← takeLetters options take o v.toList s)
    | none, false, rest => do scan options take operand rest (← take s (.option o none))
    | none, true, (v, .plain) :: rest => do scan options take operand rest (← take s (.option o (some (valueOf v))))
    | none, true, _ => .error (o.fault "expected one argument")
  | .rest, (w, kind) :: rest, s =>
    match kind, rest with
    | .separator, [] => .ok (s, [w])
    | _, _ => do return (← take s (.operand (w :: rest.map (·.1))), [])
  | .word, (_, .separator) :: (v, _) :: rest, s => do scan options take .none rest (← take s (.operand [v]))
  | .word, (w, .separator) :: [], s => .ok (s, [w])
  | .word, (w, .plain) :: (_, .separator) :: rest, s => do scan options take .none rest (← take s (.operand [w]))
  | .word, (w, .plain) :: rest, s => do scan options take .none rest (← take s (.operand [w]))
  | .none, (w, _) :: rest, s => do
    let (s, extra) ← scan options take .none rest s
    return (s, w :: extra)

end Evalbox.Cli
