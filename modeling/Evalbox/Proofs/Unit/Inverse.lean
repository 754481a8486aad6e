import Evalbox.Proofs.Results
import Evalbox.Proofs.Unit.Numbering
import Evalbox.Proofs.Unit.Padding

/-!
# Units taken apart

A unit is the prelude, its header and a block, and nothing of the returning body is lost in the block: indenting puts
the margin in front of each display line and makes no line of its own (`displayLines_indent`), so that taking eight
characters off each line of the block gives the body back (`wrap_inverse`). Only the line feed that closes the unit
may be left over. It is a line of its own behind a break that is none of the two characters of a line end, and is then
taken off with the margins.
-/

namespace Evalbox

open Text

/-! ## Margins -/

section Margins

variable {margin : List Char}

theorem parted_indent (hm : ∀ c ∈ margin, isDisplayBreak c = false) (hne : margin ≠ []) (e rest : List Char) :
    Parted e (indent margin rest) := by
  intro _ h
  unfold indent at h
  cases hl : displayLines rest with
  | nil => simp [hl] at h
  | cons line lines =>
    obtain ⟨c, margin, rfl⟩ := List.exists_cons_of_ne_nil hne
    have hc : isDisplayBreak c = false := hm c List.mem_cons_self
    rw [hl, List.flatMap_cons, List.cons_append, List.cons_append, List.head?_cons, Option.some.injEq] at h
    exact absurd hc (by rw [h]; decide)

/-- A line that is indented is one line. -/
theorem indent_line (margin : List Char) {x e rest : List Char} (hx : ∀ c ∈ x, isDisplayBreak c = false)
    (he : LineEnd isDisplayBreak e) (hp : Parted e rest) :
    indent margin (x ++ e ++ rest) = (margin ++ x) ++ e ++ indent margin rest := by
  have hlines : displayLines (x ++ e ++ rest) = (x ++ e) :: displayLines rest := cutLines_line_append rfl rfl hx he hp
  rw [indent, hlines, List.flatMap_cons, ← List.append_assoc margin x e]
  rfl

theorem indent_open (margin : List Char) {x : List Char} (hx : ∀ c ∈ x, isDisplayBreak c = false) (hne : x ≠ []) :
    indent margin x = margin ++ x := by
  have hlines : displayLines x = [x] := cutLines_open rfl hx hne
  rw [indent, hlines, List.flatMap_singleton]

/-- The lines of an indented text are the lines of the text, each behind the margin. -/
theorem displayLines_indent (hm : ∀ c ∈ margin, isDisplayBreak c = false) (hne : margin ≠ []) (text : List Char) :
    displayLines (indent margin text) = (displayLines text).map (margin ++ ·) := by
  have hfront {x : List Char} (hx : ∀ c ∈ x, isDisplayBreak c = false) :
      ∀ c ∈ margin ++ x, isDisplayBreak c = false := List.forall_mem_append.mpr ⟨hm, hx⟩
  induction text using lines_induction isDisplayBreak with
  | nil => rfl
  | last x hx hxne =>
    have hlines : displayLines x = [x] := cutLines_open rfl hx hxne
    rw [indent_open margin hx hxne, hlines]
    exact cutLines_open rfl (hfront hx) (List.append_ne_nil_of_right_ne_nil margin hxne)
  | line x e rest hx he hp ih =>
    have hlines : displayLines (x ++ e ++ rest) = (x ++ e) :: displayLines rest := cutLines_line_append rfl rfl hx he hp
    rw [indent_line margin hx he hp, hlines, List.map_cons, ← ih, ← List.append_assoc]
    exact cutLines_line_append rfl rfl (hfront hx) he (parted_indent hm hne e rest)

/-- A line feed goes with the last line of a text, unless that line has its end. -/
theorem indent_feed (margin : List Char) {text : List Char} (hne : text ≠ [])
    (hlast : ∀ c, text.getLast? = some c → isDisplayBreak c = true → c = '\r') :
    indent margin (text ++ ['\n']) = indent margin text ++ ['\n'] := by
  have hfeed : LineEnd isDisplayBreak ['\n'] := .one rfl
  have hparted : ∀ e, Parted e [] := fun e _ h => nomatch h
  induction text using lines_induction isDisplayBreak with
  | nil => exact absurd rfl hne
  | last x hx hxne =>
    have h := indent_line margin hx hfeed (hparted _)
    rw [List.append_nil] at h
    rw [h, indent_open margin hx hxne]
    exact List.append_nil _
  | line x e rest hx he hp ih =>
    cases rest with
    | cons c rest =>
      have hlast' : ∀ d, (c :: rest).getLast? = some d → isDisplayBreak d = true → d = '\r' := by
        intro d hd
        exact hlast d (by simp [List.getLast?_append, hd])
      have hp' : Parted e (c :: rest ++ ['\n']) := fun h => hp h
      rw [List.append_assoc, indent_line margin hx he hp', ih (by simp) hlast', indent_line margin hx he hp,
        ← List.append_assoc _ _ ['\n']]
    | nil =>
      rw [List.append_nil] at hlast ⊢
      cases he with
      | both => exact absurd (hlast '\n' (by simp) rfl) (by decide)
      | @one c hc =>
        -- the line feed makes a pair with the carriage return
        obtain rfl : c = '\r' := hlast c (by simp) hc
        have hpair := indent_line margin hx .both (hparted _)
        have halone := indent_line margin hx (.one hc) (hparted _)
        rw [List.append_nil] at hpair halone
        rw [List.append_assoc, halone]
        refine hpair.trans ?_
        simp [indent, displayLines, cutLines]

end Margins

/-! ## Taking the margins off -/

/-- Take eight characters off each display line. -/
def unindent (text : List Char) : List Char := (displayLines text).flatMap (List.drop 8)

theorem bodyIndent_plain : ∀ c ∈ bodyIndent, isDisplayBreak c = false := by
  intro c hc
  obtain rfl := List.eq_of_mem_replicate hc
  rfl

theorem displayLines_body (text : List Char) :
    displayLines (indent bodyIndent text) = (displayLines text).map (bodyIndent ++ ·) :=
  displayLines_indent bodyIndent_plain (by decide) text

theorem unindent_indent (text : List Char) : unindent (indent bodyIndent text) = text := by
  have hdrop : ∀ line : List Char, (bodyIndent ++ line).drop 8 = line := fun line => rfl
  have hflat : (displayLines text).flatten = text := flatten_cutLines isDisplayBreak [] text
  rw [unindent, displayLines_body, List.flatMap_map]
  simp only [hdrop]
  rw [List.flatMap_id', hflat]

/-- Indenting a text leaves its end as it is. -/
theorem getLast?_indent (margin text : List Char) : (indent margin text).getLast? = text.getLast? := by
  induction text using lines_induction isDisplayBreak with
  | nil => rfl
  | last x hx hne =>
    obtain ⟨y, c, rfl⟩ := List.eq_nil_or_concat x |>.resolve_left hne
    rw [indent_open margin hx hne, List.concat_eq_append, ← List.append_assoc, List.getLast?_concat,
      List.getLast?_concat]
  | line x e rest hx he hp ih =>
    have hend : (margin ++ x ++ e).getLast? = (x ++ e).getLast? := by cases he <;> simp
    rw [indent_line margin hx he hp, List.getLast?_append, ih, hend, ← List.getLast?_append]

/-- The block of a unit. The line feed that closes it goes with its last line or is a line of its own. -/
theorem displayLines_closed {text : List Char} (hne : text ≠ []) :
    (∃ feed, (feed = [] ∨ feed = ['\n']) ∧ closed (indent bodyIndent text) = indent bodyIndent (text ++ feed)) ∨
    displayLines (closed (indent bodyIndent text)) = displayLines (indent bodyIndent text) ++ [['\n']] := by
  have hlast := getLast?_indent bodyIndent text
  obtain ⟨c, hc⟩ := Option.ne_none_iff_exists'.mp (mt List.getLast?_eq_none_iff.mp hne)
  by_cases hfeed : c = '\n'
  · refine .inl ⟨[], .inl rfl, ?_⟩
    rw [closed, hlast, hc, hfeed, if_pos rfl, List.append_nil]
  · have hclosed : closed (indent bodyIndent text) = indent bodyIndent text ++ ['\n'] := by
      rw [closed, hlast, hc, if_neg fun h => hfeed (Option.some.inj h)]
    by_cases hb : isDisplayBreak c = true ∧ c ≠ '\r'
    · right
      have hparted : Parted (indent bodyIndent text) ['\n'] := by
        intro h
        rw [hlast, hc] at h
        exact absurd (Option.some.inj h) hb.2
      rw [hclosed]
      exact cutLines_append rfl (hlast.trans hc) hb.1 hparted []
    · refine .inl ⟨['\n'], .inr rfl, ?_⟩
      rw [hclosed, indent_feed bodyIndent hne]
      intro d hd hbreak
      obtain rfl : c = d := Option.some.inj (hc.symm.trans hd)
      by_contra hr
      exact hb ⟨hbreak, hr⟩

theorem unindent_closed {text : List Char} (hne : text ≠ []) :
    unindent (closed (indent bodyIndent text)) = text ∨
      unindent (closed (indent bodyIndent text)) = text ++ ['\n'] := by
  rcases displayLines_closed hne with ⟨feed, hfeed, h⟩ | h
  · rw [h, unindent_indent]
    rcases hfeed with rfl | rfl
    · exact .inl (List.append_nil text)
    · exact .inr rfl
  · left
    have hfeed : [['\n']].flatMap (List.drop 8) = [] := rfl
    rw [unindent, h, List.flatMap_append, hfeed, List.append_nil]
    exact unindent_indent text

theorem mem_displayLines_closed {text line : List Char} (hne : text ≠ [])
    (hl : line ∈ displayLines (closed (indent bodyIndent text))) : bodyIndent <+: line ∨ line = ['\n'] := by
  have hmargin {text : List Char} (hl : line ∈ displayLines (indent bodyIndent text)) : bodyIndent <+: line := by
    rw [displayLines_body] at hl
    obtain ⟨rest, -, rfl⟩ := List.mem_map.mp hl
    exact List.prefix_append bodyIndent rest
  rcases displayLines_closed hne with ⟨feed, -, h⟩ | h
  · exact .inl (hmargin (h ▸ hl))
  · rw [h, List.mem_append, List.mem_singleton] at hl
    exact hl.imp_left hmargin

/-! ## Units -/

/-- What a snippet becomes inside its unit. -/
def passIfBlank (text : List Char) : List Char := if (trim text).isEmpty then "pass".toList else text

theorem passIfBlank_ne_nil (text : List Char) : passIfBlank text ≠ [] := by
  unfold passIfBlank
  split
  · exact fun h => nomatch h
  · next h =>
    rintro rfl
    exact h rfl

theorem unitHead_eq (prelude : List Char) :
    unitHead prelude = prelude ++ if prelude ≠ [] ∧ prelude.getLast? ≠ some '\n' then ['\n'] else [] := by
  unfold unitHead
  by_cases hne : prelude = []
  · subst hne
    rfl
  · by_cases hl : prelude.getLast? = some '\n' <;> simp [hne, hl]

theorem count_unitHeader {name : String} (hn : '\n' ∉ name.toList) : (unitHeader name).count '\n' = 2 := by
  have hname : name.toList.count '\n' = 0 := List.count_eq_zero.mpr hn
  have hclass : ("class ".toList ++ name.toList ++ [':']).count '\n' = 0 := by
    rw [List.count_append, List.count_append, hname]
    rfl
  rw [unitHeader_eq, List.count_append, List.count_append, hclass]
  rfl

/-- A unit taken apart in front of its block. -/
structure Parts (prelude body : List Char) (name : String) (u : SnippetUnit) (above block : List Char) : Prop where
  source : u.source = above ++ block
  /-- The prelude, a line feed if it needs one, and the two lines of the header. -/
  front : above = prelude ++ (if prelude ≠ [] ∧ prelude.getLast? ≠ some '\n' then ['\n'] else []) ++
    ("class ".toList ++ name.toList ++ ":\n    def __call__(self):\n".toList)
  offset : u.snippetOffset = above.count '\n'
  ended : above.getLast? = some '\n'
  indented : ∀ line ∈ displayLines block, bodyIndent <+: line ∨ line = ['\n']
  inverse : unindent block = body ∨ unindent block = body ++ ['\n']

/-- A unit has the returning body in its block, behind margins that can be taken off. -/
theorem wrap_inverse {prelude code text : List Char} {name : String} (h : returningBody code = .ok text)
    (hn : '\n' ∉ name.toList) :
    ∃ u above block, wrap prelude code name = .ok u ∧ u.name = name ∧
      Parts prelude (passIfBlank text) name u above block := by
  have hbody : unitBody code = .ok (passIfBlank text) := by rw [unitBody, h, passIfBlank]
  have hne := passIfBlank_ne_nil text
  have hblock : indent bodyIndent (passIfBlank text) ≠ [] := by
    intro h
    have hl := getLast?_indent bodyIndent (passIfBlank text)
    rw [h] at hl
    exact hne (List.getLast?_eq_none_iff.mp hl.symm)
  have hsource : closed (unitHead prelude ++ unitHeader name ++ indent bodyIndent (passIfBlank text)) =
      unitHead prelude ++ unitHeader name ++ closed (indent bodyIndent (passIfBlank text)) := closed_append _ hblock
  refine ⟨_, unitHead prelude ++ unitHeader name, closed (indent bodyIndent (passIfBlank text)),
    by rw [wrap, hbody], rfl, ⟨hsource, ?_, ?_, ?_, fun line => mem_displayLines_closed hne, unindent_closed hne⟩⟩
  · exact congrArg (· ++ unitHeader name) (unitHead_eq prelude)
  · rw [List.count_append, count_unitHeader hn]
  · rw [unitHeader_eq, List.getLast?_append, ← List.append_assoc, List.getLast?_concat]
    rfl

/-- A text that ends in a next line, with a row that ends in both characters, behind a prelude that is not closed. -/
theorem wrap_inverse_breaks :
    ∃ u above block, wrap "import os\r".toList "x = 1\r\nx #\x85".toList "_SnippetUnit_1" = .ok u ∧
      u.name = "_SnippetUnit_1" ∧
      Parts "import os\r".toList (passIfBlank "x = 1\r\nreturn x #\x85".toList) "_SnippetUnit_1" u above block := by
  have hbody : (returningBody "x = 1\r\nx #\x85".toList).toOption = some "x = 1\r\nreturn x #\x85".toList := by
    decide +kernel
  have hname : '\n' ∉ "_SnippetUnit_1".toList := by decide
  exact wrap_inverse (ok_of_toOption hbody) hname

end Evalbox
