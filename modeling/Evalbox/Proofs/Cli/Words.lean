import Evalbox.Cli.Command
import Evalbox.Proofs.Results

/-!
# What a command line brings along

The values that options get are words of the command line, or the empty list where the separator stands in the place of
a value. What is read from them is what the options make of words: a timeout is a float and a prelude is a name, unless
it is that list (`Command.parse_read`).
-/

namespace Evalbox.Cli

/-- What an option can get as its value. -/
def IsValue (d : Datum) : Prop := d = .list [] ∨ ∃ s, d = .text s

theorem isValue_valueOf (word : String) : IsValue (valueOf word) := by
  unfold valueOf
  split
  · exact .inl rfl
  · exact .inr ⟨word, rfl⟩

section

variable {α σ : Type} {take : σ → Given α → Except Stop σ} {P : σ → Prop} {options : List (OptionSpec α)}

/-- The reader keeps what held of its state. -/
structure Keeps (take : σ → Given α → Except Stop σ) (P : σ → Prop) : Prop where
  option : ∀ s o v, P s → (∀ d, v = some d → IsValue d) → Returns (take s (.option o v)) P
  operand : ∀ s ws, P s → Returns (take s (.operand ws)) P

theorem Keeps.given (h : Keeps take P) {s : σ} (hs : P s) (o : OptionSpec α) (word : String) :
    Returns (take s (.option o (some (valueOf word)))) P :=
  h.option s o _ hs fun _ hd => Option.some.inj hd ▸ isValue_valueOf word

theorem Keeps.bare (h : Keeps take P) {s : σ} (hs : P s) (o : OptionSpec α) : Returns (take s (.option o none)) P :=
  h.option s o _ hs fun _ hd => nomatch hd

theorem takeLetters_keeps (h : Keeps take P) (o : OptionSpec α) (letters : List Char) (s : σ) (hs : P s) :
    Returns (takeLetters options take o letters s) P := by
  induction letters generalizing o s with
  | nil => exact h.bare hs o
  | cons c more ih =>
    unfold takeLetters
    split
    · exact .error _
    · exact .bind (h.bare hs o) fun s hs => ih _ s hs

theorem scan_keeps (h : Keeps take P) (operand : Operand) (words : List (String × Word α)) (s : σ) (hs : P s) :
    Returns (scan options take operand words s) fun r => P r.1 := by
  -- the cases are those of the scan
  fun_induction scan options take operand words s
  case case1 => exact .ok hs
  case case2 ih => exact .bind (ih hs) fun _ hs => .ok hs
  case case3 o _ _ v _ _ ih => exact .bind (h.given hs o v) ih
  case case4 => exact .error _
  case case5 o _ _ v _ _ _ ih => exact .bind (takeLetters_keeps h o _ _ hs) ih
  case case6 o _ _ _ _ ih => exact .bind (h.bare hs o) ih
  case case7 o _ _ v _ _ ih => exact .bind (h.given hs o v) ih
  case case8 => exact .error _
  case case9 => exact .ok hs
  case case10 => exact .bind (h.operand _ _ hs) fun _ hs => .ok hs
  case case11 ih => exact .bind (h.operand _ _ hs) ih
  case case12 => exact .ok hs
  case case13 ih => exact .bind (h.operand _ _ hs) ih
  case case14 ih => exact .bind (h.operand _ _ hs) ih
  case case15 ih => exact .bind (ih hs) fun _ hs => .ok hs

end

/-- What the options of a run hold: a prelude is the value of an option, and a timeout the number that was read from
one. -/
structure RunOptions.Read (r : RunOptions) : Prop where
  prelude : ∀ d, r.prelude = some d → IsValue d
  timeout : ∀ d, r.timeout = some d → d = .list [] ∨ ∃ x, d = .float x

theorem numberOf_reads {α : Type} (o : OptionSpec α) {value : Option Datum} (h : ∀ d, value = some d → IsValue d) :
    Returns (numberOf o value) fun n => ∀ d, n = some d → d = .list [] ∨ ∃ x, d = .float x := by
  cases value with
  | none => exact .ok fun _ hd => nomatch hd
  | some d =>
    obtain rfl | ⟨s, rfl⟩ := h d rfl
    · exact .ok fun _ hd => .inl (Option.some.inj hd).symm
    · unfold numberOf
      dsimp only
      cases Number.readFloat? s.toList with
      | some x => exact .ok fun _ hd => .inr ⟨x, (Option.some.inj hd).symm⟩
      | none => exact .error _

namespace RunOptions

theorem take_keeps : Keeps take fun s => s.2.Read where
  option := by
    intro s o v hs hv
    unfold take
    dsimp only
    cases o.key with
    | help => exact .error _
    | prelude => exact .ok ⟨hv, hs.timeout⟩
    | timeout => exact .bind (numberOf_reads o hv) fun n hn => .ok ⟨hs.prelude, hn⟩
    | classpath => exact .ok ⟨hs.prelude, hs.timeout⟩
    | flag => exact .ok ⟨hs.prelude, hs.timeout⟩
    | noSecurity => exact .ok ⟨hs.prelude, hs.timeout⟩
    | policyFile => exact .ok ⟨hs.prelude, hs.timeout⟩
  operand := fun _ _ hs => .ok hs

theorem parse_read (words : List String) : Returns (parse words) fun r => r.1.Read := by
  have hnothing : (default : RunOptions).Read := ⟨(fun _ h => nomatch h), (fun _ h => nomatch h)⟩
  unfold parse
  refine .bind (.any _) fun words _ => .bind (scan_keeps take_keeps .word words (none, default) hnothing) ?_
  rintro ⟨⟨snippet, r⟩, extra⟩ hr
  cases snippet with
  | none => exact .error _
  | some s => exact .ok { prelude := hr.prelude, timeout := hr.timeout }

end RunOptions

namespace Command

/-- A run that a command asks for has been read from words. -/
def ReadAction (a : Action) : Prop := ∀ r, a = .run r → r.Read

theorem parseAction_read (words : List String) : Returns (parseAction words) fun a => ReadAction a.1 := by
  cases words with
  | nil => exact .error _
  | cons name rest =>
    unfold parseAction
    dsimp only
    split
    · refine .bind (RunOptions.parse_read rest) fun a hr => .ok ?_
      rintro _ ⟨⟩
      exact hr
    · split
      · exact .bind (.any _) fun _ _ => .ok fun _ h => nomatch h
      · exact .error _

theorem take_keeps : Keeps take fun s => ∀ a, s.2 = some a → ReadAction a.1 where
  option := by
    intro s o v hs hv
    unfold take
    dsimp only
    cases o.key with
    | help => exact .error _
    | config => exact .ok hs
  operand := fun s words hs => .bind (parseAction_read words) fun a ha => .ok fun _ h => Option.some.inj h ▸ ha

theorem parse_read (words : List String) : Returns (parse words) fun c => ReadAction c.action := by
  unfold parse
  refine .bind (.any _) fun words _ => .bind (scan_keeps take_keeps .rest words (none, none) fun _ h => nomatch h) ?_
  rintro ⟨⟨file, action⟩, extra⟩ ha
  cases action with
  | none => exact .error _
  | some a =>
    dsimp only
    split
    · exact .ok (ha a rfl)
    · exact .error _

end Command

end Evalbox.Cli
