import Evalbox.Proofs.Unit.Layout
import Mathlib.Data.List.Permutation

/-!
# Snippets without statements

A program without statements has no token but the one that ends it (`TokenStream.lexemes_of_parse_nil`): it is made of
blanks and comments. `wrap` puts a `pass` in place of the blanks. Comments it keeps, and leaves the method without a
block; such a unit is no program (`wrap_empty`).
-/

namespace Evalbox

open Text Lang Scanner

namespace Lang

open Parse

theorem Scanner.Spells.ne_finish {s : Scanner} {ls : List Lexeme} (h : Spells s ls) : ∀ l ∈ ls, l ≠ .finish := by
  induction h with
  | finish => exact fun l hl => nomatch hl
  | pass _ _ ih => exact ih
  | token _ ht _ ih => exact List.forall_mem_cons.mpr ⟨ht, ih⟩

theorem TokenStream.lexemes_of_parse_nil {text : List Char} {bdfl : Bool} (h : (parse text bdfl).1 = .ok []) :
    lexemes text = [.finish] := by
  obtain ⟨t, ht, hl⟩ := first_of_parse_nil h
  obtain ⟨ls, hs, hls, -⟩ := spells_of_finish (Array.mem_of_getElem? ht) hl
  have hfirst : (lexemes text)[0]? = some .finish := by
    rw [lexemes, List.getElem?_map, Array.getElem?_toList, ht, Option.map_some, hl]
  cases ls with
  | nil => exact hls
  | cons l ls =>
    rw [hls] at hfirst
    exact absurd (Option.some.inj hfirst) (hs.ne_finish l List.mem_cons_self)

section Evaluation

/-- Tokens that spell `ls`, where `t` says what else there is to them. -/
def spelling (t : Nat → Token) (ls : List Lexeme) : Array Token :=
  (ls.mapIdx fun i l => { t i with lexeme := l }).toArray

theorem eq_spelling (ts : Array Token) : ∃ t, ts = spelling t (ts.toList.map (·.lexeme)) := by
  refine ⟨fun i => ts[i]?.getD default, Array.ext' (List.ext_getElem? fun i => ?_)⟩
  rw [spelling, List.getElem?_mapIdx, List.getElem?_map, Array.getElem?_toList]
  cases ts[i]? <;> rfl

/-- What a parser answers, if it succeeds. -/
def Parse.Reply.value? {α : Type} : Parse.Reply α → Option α
  | .ok a _ => some a
  | _ => none

theorem value?_eq_some {α : Type} {r : Parse.Reply α} {a : α} : r.value? = some a ↔ ∃ st, r = .ok a st := by
  cases r <;> simp [Parse.Reply.value?]

/-- The statements that are spelled by `ls`, where `t` and `lines` say how they are laid out. -/
def spelled (field : FieldParser) (t : Nat → Token) (lines : Array (List Char)) (bdfl : Bool) (ls : List Lexeme) :
    Option (List Stmt) :=
  (P.file (grammar field (depth ls.length)) ⟨spelling t ls, none, lines, ⟨0, 0, 0⟩, false, false, bdfl⟩
    (.initial ls.length 0 [])).value?

/-- A text whose tokens come to an end is parsed by its lexemes. -/
theorem parse_ok_of_lexemes {text : List Char} {ls : List Lexeme} (bdfl : Bool)
    (hhalt : (TokenStream.ofText text).halt = none) (hls : TokenStream.lexemes text = ls) :
    ∃ field t lines, ∀ body, (parse text bdfl).1 = .ok body ↔
      text.contains '\x00' = false ∧ spelled field t lines bdfl ls = some body := by
  obtain ⟨t, ht⟩ := eq_spelling (TokenStream.ofText text).tokens
  obtain rfl : (TokenStream.ofText text).tokens.toList.map (·.lexeme) = ls := hls
  refine ⟨fieldParser bdfl text.length, t, ((sourceLines (canonical text)).map (dropTerminator isSourceBreak)).toArray,
    fun body => ?_⟩
  rw [spelled, value?_eq_some, ← ht, List.length_map, Array.length_toList, parse_ok, prepare, hhalt]
  rfl

/-- The names of a class and its method, if there is nothing else in a program. -/
def onlyMethod : List Stmt → Option (String × String)
  | [.defineClass _ name _ _ [.define _ _ method _ _ _ _] _] => some (name, method)
  | _ => none

/-- The lexemes of a class and the header of its method. -/
def methodLexemes (name : String) : List Lexeme :=
  [.word .class_, .name name, .symbol .colon, .newline, .indent, .word .def_, .name "__call__", .symbol .lpar,
    .name "self", .symbol .rpar, .symbol .colon, .newline]

variable (field : FieldParser) (t : Nat → Token) (lines : Array (List Char)) (bdfl : Bool) (name : String)

/-- A method is not complete without a block. What the tokens are but lexemes does not matter to the evaluation. -/
theorem spelled_header : spelled field t lines bdfl (methodLexemes name ++ [.dedent, .finish]) = none := by
  set_option maxRecDepth 100000 in cbv

theorem spelled_pass : (spelled field t lines bdfl (methodLexemes name ++
    [.indent, .word .pass_, .newline, .dedent, .dedent, .finish])).bind onlyMethod = some (name, "__call__") := by
  set_option maxRecDepth 100000 in cbv

end Evaluation

end Lang

section Unit

variable {code : List Char} {name : String}

theorem headerLexemes_of_name (hword : Keyword.ofText? name = none) : headerLexemes name = methodLexemes name := by
  rw [headerLexemes, wordLexeme, String.ofList_toList, hword]
  rfl

end Unit

end Evalbox
