import Evalbox.Exec.Codec
import Evalbox.Exec.Signature
import Evalbox.Exec.Template
import Evalbox.Text.Identifier
import Evalbox.Text.Lines
import Evalbox.Text.Printable
import Evalbox.Text.Search

/-!
# Methods of texts

What the methods of a text answer. That they get the right number of arguments is checked before they are
called.
-/

namespace Evalbox

namespace Text

def isLetter (c : Char) : Bool := isCapital c || isSmall c || (isIdentifierStart c && c ≠ '_')

def isDigitChar (c : Char) : Bool := (digitValue? c).isSome

end Text

namespace M

open Text

def textValue (cs : List Char) : M Value := return .text (String.ofList cs)

def textList (xs : List (List Char)) : M Value :=
  make (.list (xs.map fun cs => Value.text (String.ofList cs)).toArray)

/-- An argument as a text. `what` names it in the error. -/
def needText (what : String) (v : Value) : M (List Char) := do
  match v with
  | .text s => return s.toList
  | _ => typeError (what ++ "must be str, not " ++ (← typeName v))

/-- Join texts. -/
def joinTexts (sep : List Char) (items : List Value) : M Value := do
  let rec check : Nat → List Value → M (List (List Char))
    | _, [] => return []
    | i, v :: rest => do
      match v with
      | .text s => return s.toList :: (← check (i + 1) rest)
      | _ => typeError ("sequence item " ++ toString i ++ ": expected str instance, " ++ (← typeName v) ++ " found")
  textValue (sep.intercalate (← check 0 items))

/-- The items of the argument of a method that joins. -/
def joinable (v : Value) : M (List Value) := do
  match ← attempt (iterOf v) with
  | .ok it =>
    match ← valueOf (.collect it []) with
    | .tuple xs => return xs
    | _ => return []
  | .error e => if ← isKind e "TypeError" then typeError "can only join an iterable" else fail e

/-- The part of a text that optional bounds select, with the place where it begins. There is none if it
would begin behind its end. -/
def within (cs : List Char) (bounds : List Value) : M (Option (Nat × List Char)) := do
  let bound (i : Nat) : M (Option Int) := match bounds[i]? with
    | some v => sliceIndex v
    | none => return none
  let size : Int := cs.length
  let fromFront (n : Int) : Int := if n < 0 then max 0 (n + size) else n
  let start := fromFront ((← bound 0).getD 0)
  let stop := min size (fromFront ((← bound 1).getD size))
  return if start > stop then none else some (start.toNat, (cs.take stop.toNat).drop start.toNat)

/-- A text or several texts that another one may begin or end with. -/
def choices (name : String) (v : Value) : M (List (List Char)) := do
  match v with
  | .text s => return [s.toList]
  | .tuple xs =>
    xs.mapM fun x => match x with
      | .text s => return s.toList
      | _ => do typeError ("tuple for " ++ name ++ " must only contain str, not " ++ (← typeName x))
  | _ => typeError (name ++ " first arg must be str or a tuple of str, not " ++ (← typeName v))

/-- The limit that an argument gives; negative numbers are no limit. -/
def limitOf (v : Option Value) : M (Option Nat) := do
  match v with
  | none => return none
  | some v =>
    let n ← needInt v
    return if n < 0 then none else some n.toNat

/-- The characters to strip: those of an argument, or blanks. -/
def stripSet (name : String) (args : List Value) : M (Char → Bool) := do
  match args with
  | [] | [.none] => return isBlank
  | .text s :: _ => return fun c => s.toList.contains c
  | _ => typeError (name ++ " arg must be None or str")

/-- The character to fill up with. -/
def fillOf (v : Option Value) : M Char := do
  match v with
  | none => return ' '
  | some (.text s) =>
    match s.toList with
    | [c] => return c
    | _ => typeError "The fill character must be exactly one character long"
  | some v => typeError ("The fill character must be a unicode character, not " ++ (← typeName v))

/-- The names of the codec and of the error handler that arguments give. -/
def codecOf (name : String) (args : List Value) (kwargs : Names) : M (String × String) := do
  let given ← takeArguments name ["encoding", "errors"] args kwargs
  let word (i : Nat) (what usual : String) : M String := do
    match argumentAt given i with
    | none => return usual
    | some v => do
      return String.ofList (← needText (name ++ "() argument '" ++ what ++ "' ") v)
  return (← word 0 "encoding" "utf-8", ← word 1 "errors" "strict")

/-- The table by which characters are replaced, from the arguments that describe it. -/
def replacementTable (args : List Value) : M Value := do
  let code (c : Char) : Value := .int c.toNat
  match args with
  | [.ref r] =>
    match ← obj r with
    | .dict es => do
      let entries ← es.mapM fun (k, v) => match k with
        | .text s => match s.toList with
          | [c] => return (code c, v)
          | _ => valueError "string keys in translate table must be of length 1"
        | .int _ => return (k, v)
        | _ => typeError "keys in translate table must be strings or integers"
      make (.dict entries)
    | _ => typeError "if you give only one argument to maketrans it must be a dict"
  | [_] => typeError "if you give only one argument to maketrans it must be a dict"
  | .text s :: y :: more => do
    let t ← needText "maketrans() argument 2 " y
    let dropped ← match more with
      | [] => pure []
      | z :: _ => needText "maketrans() argument 3 " z
    if s.length ≠ t.length then valueError "the first two maketrans arguments must have equal length"
    else
      let entries := (s.toList.zip t).map (fun (a, b) => (code a, code b)) ++ dropped.map fun c => (code c, Value.none)
      make (.dict (entries.foldl (fun es (k, v) => putEntry es k v) []))
  | _ => typeError "first maketrans argument must be a string if there is a second argument"

/-- Replace characters by what a table has for them. -/
def translated (table : Value) : List Char → M (List Char)
  | [] => return []
  | c :: cs => do
    let new ← match ← attempt (getItem table (.int c.toNat)) with
      | .error e => if ← isKind e "LookupError" then pure [c] else fail e
      | .ok .none => pure []
      | .ok (.text s) => pure s.toList
      | .ok v =>
        match v.int? with
        | some n =>
          if 0 ≤ n && n < 0x110000 then pure [Char.ofNat n.toNat]
          else valueError "character mapping must be in range(0x110000)"
        | none => typeError "character mapping must return integer, None or str"
    return new ++ (← translated table cs)

/-- What the methods answer that ask about all characters of a text, or about its letters. -/
def textQuality? (cs : List Char) (name : String) : Option Bool :=
  let all (p : Char → Bool) : Option Bool := some (!cs.isEmpty && cs.all p)
  match name with
  | "isdigit" | "isdecimal" | "isnumeric" => all isDigitChar
  | "isalpha" => all isLetter
  | "isalnum" => all fun c => isLetter c || isDigitChar c
  | "isspace" => all isBlank
  | "isascii" => some (cs.all (·.toNat < 128))
  | "isprintable" => some (cs.all isPrintable)
  | "isupper" => some (cs.any isCapital && !cs.any isSmall)
  | "islower" => some (cs.any isSmall && !cs.any isCapital)
  | "istitle" => some (isTitled false false cs)
  | "isidentifier" => some (isIdentifier cs)
  | _ => none

/-- What the methods answer that change the case of a text. -/
def inCase? (cs : List Char) (name : String) : Option (List Char) :=
  match name with
  | "upper" => some (cs.flatMap upper)
  | "lower" => some (cs.map lower)
  | "casefold" => some (cs.flatMap fun c => if c = 'ß' then ['s', 's'] else if c = 'ς' then ['σ'] else [lower c])
  | "title" => some (titled false cs)
  | "swapcase" => some (cs.flatMap fun c => if isCapital c then [lower c] else upper c)
  | "capitalize" =>
    match cs with
    | [] => some []
    | c :: rest => some (title c ++ rest.map lower)
  | _ => none

/-- A method of a text that is made of others: searching, cutting and padding. -/
def textOperation (cs : List Char) (name : String) (args : List Value) (kwargs : Names) : M Value := do
  let first := args.headD .none
  let searching (last : Bool) : M (Option Nat) := do
    let part ← needText "" first
    match ← within cs (args.drop 1) with
    | none => return none
    | some (start, span) => return ((if last then findLast part span else findFirst part 0 span).map (· + start))
  let found (n : Option Nat) : Value := .int ((n.map Int.ofNat).getD (-1))
  match name with
  | "join" => do joinTexts cs (← joinable first)
  | "strip" => do
    let p ← stripSet name args
    textValue ((cs.dropWhile p).reverse.dropWhile p).reverse
  | "lstrip" => do textValue (cs.dropWhile (← stripSet name args))
  | "rstrip" => do textValue (cs.reverse.dropWhile (← stripSet name args)).reverse
  | "startswith" | "endswith" => do
    let span ← within cs (args.drop 1)
    let parts ← choices name first
    match span with
    | none => return .bool false
    | some (_, span) => return .bool (parts.any fun p => if name = "startswith" then p.isPrefixOf span else p.isSuffixOf span)
  | "replace" => do
    let old ← needText "replace() argument 1 " first
    let new ← needText "replace() argument 2 " ((args[1]?).getD .none)
    textValue (replaced old new (← limitOf args[2]?) cs)
  | "find" => return found (← searching false)
  | "rfind" => return found (← searching true)
  | "index" | "rindex" => do
    match ← searching (name = "rindex") with
    | some n => return .int n
    | none => valueError "substring not found"
  | "count" => do
    let part ← needText "" first
    match ← within cs (args.drop 1) with
    | none => return .int 0
    | some (_, span) => return .int (occurrences part span)
  | "split" | "rsplit" => do
    let given ← takeArguments name ["sep", "maxsplit"] args kwargs
    let limit ← limitOf (argumentAt given 1)
    match argumentAt given 0 with
    | none | some .none => textList (pieces none limit (name = "rsplit") cs)
    | some (.text s) =>
      if s.isEmpty then valueError "empty separator"
      else textList (pieces (some s.toList) limit (name = "rsplit") cs)
    | some v => typeError ("must be str or None, not " ++ (← typeName v))
  | "splitlines" => do
    let given ← takeArguments name ["keepends"] args kwargs
    let keep ← match argumentAt given 0 with
      | some v => do pure (decide ((← needInt v) ≠ 0))
      | none => pure false
    textList ((displayLines cs).map fun l => if keep then l else dropTerminator isDisplayBreak l)
  | "partition" | "rpartition" => do
    let sep ← needText "" first
    let part (cs : List Char) : Value := .text (String.ofList cs)
    if sep.isEmpty then valueError "empty separator"
    else
      let last := name = "rpartition"
      match if last then findLast sep cs else findFirst sep 0 cs with
      | some i => return .tuple [part (cs.take i), part sep, part (cs.drop (i + sep.length))]
      | none => return .tuple (if last then [part [], part [], part cs] else [part cs, part [], part []])
  | "removeprefix" => do
    let p ← needText "removeprefix() argument " first
    textValue (if p.isPrefixOf cs then cs.drop p.length else cs)
  | "removesuffix" => do
    let p ← needText "removesuffix() argument " first
    textValue (if p.isSuffixOf cs then cs.take (cs.length - p.length) else cs)
  | "expandtabs" => do
    let given ← takeArguments name ["tabsize"] args kwargs
    let size ← match argumentAt given 0 with
      | some v => needInt v
      | none => pure 8
    textValue (expandTabs size.toNat 0 cs)
  | "zfill" => do textValue (zeroFilled (← needInt first).toNat cs)
  | "ljust" | "rjust" | "center" => do
    let width := (← needInt first).toNat
    let fill ← fillOf args[1]?
    let pad := List.replicate (width - cs.length) fill
    textValue (match name with
      | "ljust" => cs ++ pad
      | "rjust" => pad ++ cs
      | _ => centered cs width fill)
  | "format" =>
    fillTemplate ⟨some args, fun n => match kwargs.lookup n with
      | some v => return v
      | none => raiseWith "KeyError" [.text n] []⟩ cs
  | "format_map" => fillTemplate ⟨none, fun n => getItem first (.text n)⟩ cs
  | "encode" => do
    let (codec, handler) ← codecOf name args kwargs
    encoded cs codec handler
  | "translate" => do textValue (← translated first cs)
  | _ => return .none

/-- A method of a text. -/
def textMethod (cs : List Char) (name : String) (args : List Value) (kwargs : Names) : M Value := do
  match textQuality? cs name, inCase? cs name with
  | some b, _ => return .bool b
  | none, some new => textValue new
  | none, none => textOperation cs name args kwargs

end M

end Evalbox
