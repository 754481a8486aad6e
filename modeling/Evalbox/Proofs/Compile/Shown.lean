import Evalbox.Proofs.Compile.Engines
import Evalbox.Proofs.Unit.Inverse
import Evalbox.Proofs.Unit.Layout
import Evalbox.Proofs.Unit.Returning

/-!
# Shown lines

A traceback names a row of the unit, by the number that the language gives it, and shows the display line that is known
under that number. A display break that ends no row tears the row: it goes on in the next display line, and every row
below it is found one line further down (`displayRows_getElem?`). So the rows are the first display lines exactly if a
tear has nothing but line ends behind it (`rows_prefix_iff`). In a unit that means that neither the prelude is torn nor
the body in front of its last character, since the body is indented behind each of its tears (`legible_wrap_iff`).

Targets that share the known lines keep those of every stored unit, as long as each filename is used in one target and
by one name (`Filed.linesKnown`).
-/

namespace Evalbox

open Text

/-- A display break that ends no row. -/
def isTear (c : Char) : Bool := isDisplayBreak c && !isSourceBreak c

/-- The front of a row, up to its first tear and with it. -/
def upToTear (row : List Char) : List Char := row.take (row.findIdx isTear + 1)

/-- The display lines of a text, each without what ends a row. -/
def displayRows (text : List Char) : List (List Char) := (displayLines text).map (dropTerminator isSourceBreak)

/-- Nothing but line ends stands behind a tear. -/
def Legible (text : List Char) : Prop := text.Pairwise fun c d => isTear c = true → isSourceBreak d = true

section Torn

variable {a b : List Char}

theorem isTear_iff {c : Char} : isTear c = true ↔ isDisplayBreak c = true ∧ isSourceBreak c = false := by
  simp [isTear]

theorem torn_append : Torn (a ++ b) ↔ Torn a ∨ Torn b := by
  simp only [Torn, List.mem_append, or_and_right, exists_or]

theorem not_torn_append (ha : ¬Torn a) (hb : ¬Torn b) : ¬Torn (a ++ b) := fun h => (torn_append.mp h).elim ha hb

/-- The last character of a text may be a tear. -/
theorem torn_dropLast (ha : ¬Torn a) (b : List Char) : Torn (a ++ b).dropLast ↔ Torn b.dropLast := by
  by_cases hb : b = []
  · subst hb
    rw [List.append_nil]
    exact iff_of_false (fun h => ha (h.mono fun c hc => List.dropLast_subset a hc)) fun h => nomatch h
  · rw [List.dropLast_append_of_ne_nil hb, torn_append, or_iff_right ha]

theorem not_torn_of_not_break (h : ∀ c ∈ a, isDisplayBreak c = false) : ¬Torn a := by
  rintro ⟨c, hc, hb, -⟩
  exact nomatch (h c hc).symm.trans hb

theorem not_torn_of_source (h : ∀ c ∈ a, isSourceBreak c = true) : ¬Torn a := by
  rintro ⟨c, hc, -, hs⟩
  exact nomatch hs.symm.trans (h c hc)

theorem legible_append : Legible (a ++ b) ↔ Legible a ∧ Legible b ∧ (Torn a → ∀ d ∈ b, isSourceBreak d = true) := by
  simp only [Legible, List.pairwise_append, Torn, isTear_iff]
  refine and_congr_right fun _ => and_congr_right fun _ => ⟨?_, ?_⟩
  · rintro h ⟨c, hc, htear⟩ d hd
    exact h c hc d hd htear
  · exact fun h c hc d hd htear => h ⟨c, hc, htear⟩ d hd

theorem legible_of_not_torn (h : ¬Torn a) : Legible a :=
  List.pairwise_of_forall_mem_list fun c hc _ _ htear => absurd ⟨c, hc, isTear_iff.mp htear⟩ h

theorem legible_append_of_not_torn (h : ¬Torn a) : Legible (a ++ b) ↔ Legible b := by
  rw [legible_append]
  exact ⟨fun hb => hb.2.1, fun hb => ⟨legible_of_not_torn h, hb, fun ht => absurd ht h⟩⟩

theorem legible_of_source (h : ∀ c ∈ a, isSourceBreak c = true) : Legible a :=
  legible_of_not_torn (not_torn_of_source h)

/-- Behind the first tear of a text. -/
theorem legible_tear (h : ¬Torn a) {c : Char} (hc : isTear c = true) :
    Legible (a ++ [c] ++ b) ↔ ∀ d ∈ b, isSourceBreak d = true := by
  have hfront : Legible (a ++ [c]) := (legible_append_of_not_torn h).mpr (List.pairwise_singleton _ c)
  have htorn : Torn (a ++ [c]) := ⟨c, by simp, isTear_iff.mp hc⟩
  rw [legible_append]
  exact ⟨fun hb => hb.2.2 htorn, fun hb => ⟨hfront, legible_of_source hb, fun _ => hb⟩⟩

end Torn

/-! ## Rows and their display lines -/

section Rows

variable {x e rest : List Char}

theorem unbroken_nil : Unbroken [] := fun _ hc => absurd hc List.not_mem_nil

theorem upToTear_cons (c : Char) (row : List Char) :
    upToTear (c :: row) = if isTear c then [c] else c :: upToTear row := by
  unfold upToTear
  cases hc : isTear c <;> simp [List.findIdx_cons, hc]

/-- A row that stands behind the line so far: the first display line goes up to its tear, and there is another one for
each tear. -/
theorem cutLines_row (hx : Unbroken x) (he : e = [] ∨ RowEnd e) {line : List Char} (hl : Unbroken line)
    (hne : line ≠ [] ∨ x ++ e ≠ []) :
    ∃ first others, cutLines isDisplayBreak line (x ++ e) = first :: others ∧
      dropTerminator isSourceBreak first = line.reverse ++ upToTear x ∧
      (RowEnd e → others.length = x.countP isTear) := by
  have hrev {line : List Char} (hl : Unbroken line) : Unbroken line.reverse := fun c hc => hl c (List.mem_reverse.mp hc)
  induction x generalizing line with
  | nil =>
    rcases he with rfl | he
    · have hline : line ≠ [] := hne.resolve_right fun h => h rfl
      refine ⟨line.reverse, [], by simp [cutLines, hline], ?_, fun h => absurd rfl h.ne_nil⟩
      rw [dropTerminator_open (hrev hl)]
      exact (List.append_nil _).symm
    · refine ⟨line.reverse ++ e, [], ?_, ?_, fun _ => rfl⟩
      · cases he <;> simp [cutLines, isDisplayBreak]
      · rw [dropTerminator_row (hrev hl) he]
        exact (List.append_nil _).symm
  | cons c x ih =>
    have hc : isSourceBreak c = false := hx c List.mem_cons_self
    have hx' : Unbroken x := fun d hd => hx d (List.mem_cons_of_mem c hd)
    have hline : Unbroken (c :: line) := List.forall_mem_cons.mpr ⟨hc, hl⟩
    have htear : isTear c = isDisplayBreak c := by simp [isTear, hc]
    rw [List.cons_append, cutLines_cons fun h => absurd h (hx.ne_return c List.mem_cons_self).2, upToTear_cons, htear,
      List.countP_cons, htear]
    by_cases hb : isDisplayBreak c = true
    · -- the row goes on in another display line, unless it ends here
      rw [if_pos hb, if_pos hb, if_pos hb]
      refine ⟨_, _, rfl, by rw [dropTerminator_open (hrev hline), List.reverse_cons], fun hend => ?_⟩
      obtain ⟨first, others, hcut, -, hlen⟩ := ih hx' unbroken_nil
        (.inr (List.append_ne_nil_of_right_ne_nil x hend.ne_nil))
      rw [hcut, List.length_cons, hlen hend]
    · obtain ⟨first, others, hcut, hfirst, hlen⟩ := ih hx' hline (.inl (List.cons_ne_nil c line))
      rw [if_neg hb, if_neg hb, if_neg hb]
      exact ⟨first, others, hcut, by rw [hfirst, List.reverse_cons, List.append_assoc]; rfl, hlen⟩

theorem displayRows_cons (he : RowEnd e) (hp : Parted e rest) :
    displayRows (x ++ e ++ rest) = displayRows (x ++ e) ++ displayRows rest := by
  rw [displayRows, displayLines_cons he hp, List.map_append]
  rfl

/-- A row is found behind the display lines of the rows above it: one for each of them and one for each tear. -/
theorem displayRows_getElem? (text : List Char) {n : Nat} {row : List Char} (h : (rows text)[n]? = some row) :
    (displayRows text)[n + ((rows text).take n).flatten.countP isTear]? = some (upToTear row) := by
  induction text using rows_induction generalizing n with
  | nil => cases h
  | last x hx hne =>
    obtain ⟨first, others, hcut, hfirst, -⟩ := cutLines_row hx (.inl rfl) unbroken_nil (.inr (by simpa using hne))
    rw [List.append_nil] at hcut
    rw [rows_open hx hne] at h ⊢
    obtain ⟨rfl, rfl⟩ : n = 0 ∧ x = row := by
      cases n with
      | zero => exact ⟨rfl, Option.some.inj h⟩
      | succ n => cases h
    simp [displayRows, displayLines, hcut, hfirst]
  | row x e rest hx he hp ih =>
    obtain ⟨first, others, hcut, hfirst, hlen⟩ := cutLines_row hx (.inr he) unbroken_nil
      (.inr (List.append_ne_nil_of_right_ne_nil x he.ne_nil))
    have hrow : displayRows (x ++ e) = upToTear x :: others.map (dropTerminator isSourceBreak) := by
      simp [displayRows, displayLines, hcut, hfirst]
    rw [rows_cons hx he hp] at h ⊢
    rw [displayRows_cons he hp, hrow]
    cases n with
    | zero =>
      obtain rfl := Option.some.inj h
      rfl
    | succ n =>
      have hn : (upToTear x :: others.map (dropTerminator isSourceBreak)).length = x.countP isTear + 1 := by
        rw [List.length_cons, List.length_map, hlen he]
      rw [List.take_succ_cons, List.flatten_cons, List.countP_append, List.getElem?_append_right (by omega), hn,
        ← ih h]
      congr 1
      omega

end Rows

/-! ## Rows that are the first display lines -/

section Prefix

variable {x e rest : List Char}

theorem Text.RowEnd.displayEnd (he : RowEnd e) : LineEnd isDisplayBreak e := by
  cases he with
  | feed => exact .one rfl
  | ret => exact .one rfl
  | both => exact .both

theorem displayRows_line (hx : ∀ c ∈ x, isDisplayBreak c = false) (he : LineEnd isDisplayBreak e) (hp : Parted e rest) :
    displayRows (x ++ e ++ rest) = dropTerminator isSourceBreak (x ++ e) :: displayRows rest := by
  have hlines : displayLines (x ++ e ++ rest) = (x ++ e) :: displayLines rest := cutLines_line_append rfl rfl hx he hp
  rw [displayRows, hlines, List.map_cons]
  rfl

/-- What stands behind the front of a row goes on with it. -/
theorem rows_prefix_front (hx : Unbroken x) (hne : x ≠ []) (rest : List Char) (lines : List (List Char)) :
    rows (x ++ rest) <+: x :: lines ↔ rows rest <+: [] :: lines := by
  cases rest using rows_induction with
  | nil =>
    rw [List.append_nil, rows_open hx hne]
    simp [rows, sourceLines, cutLines]
  | last y hy hyne => simp [rows_open (hx.append hy) (by simp [hne]), rows_open hy hyne, hyne]
  | row y e rest hy he hp _ =>
    rw [← List.append_assoc, ← List.append_assoc, rows_cons (hx.append hy) he hp, rows_cons hy he hp,
      List.cons_prefix_cons, List.cons_prefix_cons, List.append_right_eq_self]

/-- Rows are the display lines behind an empty one only if they are empty themselves. -/
theorem rows_prefix_shifted (text : List Char) :
    rows text <+: [] :: displayRows text ↔ ∀ c ∈ text, isSourceBreak c = true := by
  induction text using rows_induction with
  | nil => simp [rows, sourceLines, cutLines]
  | last x hx hne =>
    obtain ⟨c, hc⟩ := List.exists_mem_of_ne_nil x hne
    rw [rows_open hx hne]
    simp only [List.cons_prefix_cons, hne, false_and, false_iff]
    exact fun h => Bool.false_ne_true ((hx c hc).symm.trans (h c hc))
  | row x e rest hx he hp ih =>
    rw [rows_cons hx he hp, List.cons_prefix_cons]
    cases x with
    | nil =>
      rw [displayRows_line (by simp) he.displayEnd hp, dropTerminator_row unbroken_nil he, ih, List.nil_append,
        List.forall_mem_append]
      exact ⟨fun h => ⟨he.source, h.2⟩, fun h => ⟨rfl, h.2⟩⟩
    | cons c x =>
      refine ⟨fun h => absurd h.1 (List.cons_ne_nil c x), fun h => ?_⟩
      exact absurd ((hx c List.mem_cons_self).symm.trans (h c (by simp))) Bool.false_ne_true

/-- A display line ends its row or tears it. -/
theorem rowEnd_or_tear (he : LineEnd isDisplayBreak e) : RowEnd e ∨ ∃ c, e = [c] ∧ isTear c = true := by
  cases he with
  | both => exact .inl .both
  | @one c hc =>
    cases hs : isSourceBreak c with
    | true => exact .inl (LineEnd.one hs).rowEnd
    | false => exact .inr ⟨c, rfl, isTear_iff.mpr ⟨hc, hs⟩⟩

theorem unbroken_of_not_break (hx : ∀ c ∈ x, isDisplayBreak c = false) : Unbroken x := by
  intro c hc
  cases hs : isSourceBreak c with
  | false => rfl
  | true => exact nomatch (hx c hc).symm.trans (displayBreak_of_source hs)

/-- The rows of a text are its first display lines exactly if nothing but line ends stands behind a tear. -/
theorem rows_prefix_iff (text : List Char) : rows text <+: displayRows text ↔ Legible text := by
  induction text using lines_induction isDisplayBreak with
  | nil => simp [rows, sourceLines, cutLines, Legible]
  | last x hx hne =>
    have hlines : displayLines x = [x] := cutLines_open rfl hx hne
    have hu := unbroken_of_not_break hx
    rw [rows_open hu hne, displayRows, hlines, List.map_singleton, dropTerminator_open hu]
    exact iff_of_true (List.prefix_refl [x]) (legible_of_not_torn (not_torn_of_not_break hx))
  | line x e rest hx he hp ih =>
    have hu := unbroken_of_not_break hx
    have ht : ¬Torn x := not_torn_of_not_break hx
    rw [displayRows_line hx he hp]
    rcases rowEnd_or_tear he with he | ⟨c, rfl, hc⟩
    · have hrow : ¬Torn (x ++ e) := not_torn_append ht (not_torn_of_source he.source)
      rw [rows_cons hu he hp, dropTerminator_row hu he, List.cons_prefix_cons, legible_append_of_not_torn hrow, ih]
      exact and_iff_right rfl
    · have hrow : Unbroken (x ++ [c]) := hu.append fun d hd => List.mem_singleton.mp hd ▸ (isTear_iff.mp hc).2
      rw [dropTerminator_open hrow, rows_prefix_front hrow (by simp), rows_prefix_shifted, legible_tear ht hc]

end Prefix

/-! ## Tears of units -/

section Units

variable {prelude code body : List Char} {name : String} {u : SnippetUnit}

theorem head?_indent_of_ne_nil {text : List Char} (hne : text ≠ []) :
    (indent bodyIndent text).head? = some ' ' := by
  refine (head?_indent text).resolve_left fun h => hne (List.getLast?_eq_none_iff.mp ?_)
  rw [← getLast?_indent bodyIndent, h]
  rfl

/-- The margin of the next line stands behind each tear of an indented text, unless the text ends there. -/
theorem legible_indent (text : List Char) : Legible (indent bodyIndent text) ↔ ¬Torn text.dropLast := by
  have hmargin : ¬Torn bodyIndent := not_torn_of_not_break bodyIndent_plain
  induction text using lines_induction isDisplayBreak with
  | nil => exact iff_of_true List.Pairwise.nil fun h => nomatch h
  | last x hx hne =>
    have ht : ¬Torn x := not_torn_of_not_break hx
    rw [indent_open bodyIndent hx hne]
    exact iff_of_true (legible_of_not_torn (not_torn_append hmargin ht))
      fun h => ht (h.mono fun c hc => List.dropLast_subset x hc)
  | line x e rest hx he hp ih =>
    have ht : ¬Torn x := not_torn_of_not_break hx
    have hfront : ¬Torn (bodyIndent ++ x) := not_torn_append hmargin ht
    rw [indent_line bodyIndent hx he hp]
    rcases rowEnd_or_tear he with he | ⟨c, rfl, hc⟩
    · have he' : ¬Torn e := not_torn_of_source he.source
      rw [legible_append_of_not_torn (not_torn_append hfront he'), torn_dropLast (not_torn_append ht he')]
      exact ih
    · rw [legible_tear hfront hc]
      by_cases hrest : rest = []
      · subst hrest
        rw [List.append_nil, List.dropLast_concat]
        exact iff_of_true (fun d hd => nomatch hd) ht
      · refine iff_of_false (fun h => ?_) (not_not_intro ?_)
        · have hblank := h ' ' (List.mem_of_mem_head? (head?_indent_of_ne_nil hrest))
          exact absurd hblank (by decide)
        · rw [List.dropLast_append_of_ne_nil hrest]
          exact ⟨c, by simp, isTear_iff.mp hc⟩

theorem torn_unitHead (prelude : List Char) : Torn (unitHead prelude) ↔ Torn prelude := by
  rw [unitHead_eq, torn_append, or_iff_left]
  split <;> decide

theorem torn_unitHeader (name : String) : Torn (unitHeader name) ↔ Torn name.toList := by
  have hclass : ¬Torn "class ".toList := by decide
  have hdef : ¬Torn ":\n    def __call__(self):\n".toList := by decide
  change Torn ("class ".toList ++ name.toList ++ ":\n    def __call__(self):\n".toList) ↔ _
  rw [torn_append, torn_append, or_iff_left hdef, or_iff_right hclass]

theorem legible_closed (text : List Char) : Legible (closed text) ↔ Legible text := by
  have hfeed : ∀ c ∈ ['\n'], isSourceBreak c = true := RowEnd.feed.source
  unfold closed
  split
  · rfl
  · rw [legible_append]
    exact ⟨fun h => h.1, fun h => ⟨h, legible_of_source hfeed, fun _ => hfeed⟩⟩

/-- Something other than a line end stands behind each tear of a unit, unless it is the last character of the body. -/
theorem legible_wrap_iff (h : wrap prelude code name = .ok u) (hbody : unitBody code = .ok body) :
    Legible u.source ↔ ¬Torn prelude ∧ ¬Torn name.toList ∧ ¬Torn body.dropLast := by
  have hblank : ' ' ∈ indent bodyIndent body := List.mem_of_mem_head? (head?_indent_of_ne_nil (unitBody_ne_nil hbody))
  have hsource : u.source = closed (unitHead prelude ++ unitHeader name ++ indent bodyIndent body) := by
    rw [wrap, hbody] at h
    exact (Except.ok.inj h) ▸ rfl
  rw [hsource, legible_closed]
  by_cases ht : Torn (unitHead prelude ++ unitHeader name)
  · refine iff_of_false (fun hl => ?_) fun hn => ?_
    · exact absurd ((legible_append.mp hl).2.2 ht ' ' hblank) (by decide)
    · rcases torn_append.mp ht with ht | ht
      · exact hn.1 ((torn_unitHead prelude).mp ht)
      · exact hn.2.1 ((torn_unitHeader name).mp ht)
  · obtain ⟨hhead, hheader⟩ := not_or.mp (mt torn_append.mpr ht)
    rw [legible_append_of_not_torn ht, legible_indent, ← torn_unitHead prelude, ← torn_unitHeader name]
    exact ⟨fun hb => ⟨hhead, hheader, hb⟩, fun hb => hb.2.2⟩

end Units

/-! ## Lines of stored units -/

/-- Under the number of each row the row is shown, up to what ends it. -/
def LineCache.Shows (c : LineCache) (u : SnippetUnit) : Prop :=
  ∀ (n : Nat) (row : List Char), (rows u.source)[n]? = some row →
    dropTerminator isSourceBreak (c.line u.filename (n + 1 : Nat)) = row

/-- What is shown of a unit. -/
structure Shown (c : LineCache) (u : SnippetUnit) : Prop where
  /-- A row is shown up to its first tear, under its own number and as many further as there are tears above it. -/
  moved : ∀ (n : Nat) (row : List Char), (rows u.source)[n]? = some row →
    dropTerminator isSourceBreak
      (c.line u.filename (n + ((rows u.source).take n).flatten.countP isTear + 1 : Nat)) = upToTear row
  /-- Under their own numbers the rows are shown exactly if nothing but line ends stands behind a tear. -/
  exactly : c.Shows u ↔ Legible u.source
  /-- For a wrapped snippet: exactly if there is no tear but at the end of the body. -/
  wrapped : ∀ prelude code body, wrap prelude code u.name = .ok u → unitBody code = .ok body →
    (c.Shows u ↔ ¬Torn prelude ∧ ¬Torn u.name.toList ∧ ¬Torn body.dropLast)

section Known

variable {c : LineCache} {u : SnippetUnit}

theorem line_eq_displayRows (h : c.find? u.filename = some u.cached) (n : Nat) :
    dropTerminator isSourceBreak (c.line u.filename (n + 1 : Nat)) = ((displayRows u.source)[n]?).getD [] := by
  have hpos : ((n + 1 : Nat) : Int) ≥ 1 := by omega
  simp only [LineCache.line, h, if_pos hpos, Int.toNat_natCast, Nat.add_sub_cancel, SnippetUnit.cached, displayRows,
    List.getElem?_map]
  cases (displayLines u.source)[n]? <;> rfl

/-- There is a display line for each row, so that rows are shown only as display lines. -/
theorem shows_iff_rows (h : c.find? u.filename = some u.cached) :
    c.Shows u ↔ rows u.source <+: displayRows u.source := by
  have hle : (rows u.source).length ≤ (displayRows u.source).length := by
    rw [rows, displayRows, List.length_map, List.length_map]
    exact length_sourceLines_le u.source
  rw [List.prefix_iff_getElem?]
  constructor
  · intro hs n hn
    have hline := hs n _ (List.getElem?_eq_getElem hn)
    have hn' : n < (displayRows u.source).length := by omega
    rw [line_eq_displayRows h, List.getElem?_eq_getElem hn'] at hline
    rw [List.getElem?_eq_getElem hn']
    exact congrArg some hline
  · intro hp n row hrow
    obtain ⟨hn, rfl⟩ := List.getElem?_eq_some_iff.mp hrow
    rw [line_eq_displayRows h, hp n hn, Option.getD_some]

theorem shown_of_find? (h : c.find? u.filename = some u.cached) : Shown c u := by
  have hshows : c.Shows u ↔ Legible u.source := (shows_iff_rows h).trans (rows_prefix_iff u.source)
  constructor
  case moved =>
    intro n row hrow
    rw [line_eq_displayRows h, displayRows_getElem? u.source hrow, Option.getD_some]
  case exactly => exact hshows
  case wrapped => exact fun prelude code body hw hb => hshows.trans (legible_wrap_iff hw hb)

end Known

namespace Engines

variable {ι κ : Type} [DecidableEq ι] {home : String → ι × String} {s : Engines ι κ}

/-- What empty targets come to by storing units and by clearing, where `home` says of every filename which target it is
used in, and by which name. -/
inductive Filed (home : String → ι × String) : Engines ι κ → Prop
  | start (cache : LineCache) (n : Nat) : Filed home ⟨fun _ => .empty, cache, n⟩
  | store {s : Engines ι κ} {i : ι} {u : SnippetUnit} (code : κ) :
    Filed home s → home u.filename = (i, u.name) → Filed home (s.store i u code)
  | clear {s : Engines ι κ} (i : ι) : Filed home s → Filed home (s.clear i)

/-- Stored units are at home, and their lines are known. -/
def LinesKnown (home : String → ι × String) (s : Engines ι κ) : Prop :=
  ∀ i, ∀ a ∈ (s.targets i).artifacts,
    home a.2.1.filename = (i, a.1) ∧ s.cache.find? a.2.1.filename = some a.2.1.cached

/-- The lines of other units are left alone, since their filenames are used elsewhere or by other names. -/
theorem LinesKnown.store (h : LinesKnown home s) {i : ι} {u : SnippetUnit} (code : κ)
    (hu : home u.filename = (i, u.name)) : LinesKnown home (s.store i u code) := by
  have hc (file : String) : (s.store i u code).cache.find? file =
      if file = u.filename then some u.cached else s.cache.find? file := s.cache.find?_put u.filename file u.cached
  intro j a ha
  rcases mem_store.mp ha with ⟨rfl, rfl⟩ | ⟨ha, hne⟩
  · exact ⟨hu, by rw [hc, if_pos rfl]⟩
  · obtain ⟨hhome, hfind⟩ := h j a ha
    refine ⟨hhome, ?_⟩
    rw [hc, if_neg, hfind]
    intro hf
    rw [hf, hu] at hhome
    obtain ⟨hij, hname⟩ := Prod.mk.inj hhome
    exact hne hij.symm hname.symm

theorem LinesKnown.clear (h : LinesKnown home s) (i : ι) : LinesKnown home (s.clear i) := by
  intro j a ha
  obtain ⟨hji, ha⟩ := mem_clear.mp ha
  obtain ⟨hhome, hfind⟩ := h j a ha
  have hc : (s.clear i).cache.find? a.2.1.filename =
      if a.2.1.filename ∈ (s.targets i).artifacts.map (·.2.1.filename) then none
      else s.cache.find? a.2.1.filename := (s.targets i).find?_clearWith s.cache _
  refine ⟨hhome, ?_⟩
  rw [hc, if_neg, hfind]
  intro hm
  obtain ⟨b, hb, hf⟩ := List.mem_map.mp hm
  rw [← hf, (h i b hb).1] at hhome
  exact hji (Prod.mk.inj hhome).1.symm

theorem Filed.linesKnown (h : Filed home s) : LinesKnown home s := by
  induction h with
  | start cache n => exact fun i a ha => absurd ha List.not_mem_nil
  | store code _ hu ih => exact ih.store code hu
  | clear i _ ih => exact ih.clear i

/-- Of every unit that is stored, behind any stores and clearings. -/
theorem filed_shown (h : Filed home s) {i : ι} {a : String × SnippetUnit × κ} (ha : a ∈ (s.targets i).artifacts) :
    Shown s.cache a.2.1 :=
  shown_of_find? (h.linesKnown i a ha).2

/-- The unit of a torn prelude stays stored while another target is cleared. Its fourth row is shown under the number
five. -/
theorem torn_prelude_shown : ∃ (home : String → Bool × String) (s : Engines Bool Nat) (u : SnippetUnit),
    Filed home s ∧ (u.name, u, 7) ∈ (s.targets false).artifacts ∧ Torn "s = 'a\x0cb'".toList ∧
      wrap "s = 'a\x0cb'".toList "1/0".toList (unitName 1) = .ok u ∧
      (rows u.source)[3]? = some "        return 1/0".toList ∧
      s.cache.line u.filename 5 = "        return 1/0\n".toList ∧ Shown s.cache u := by
  let u : SnippetUnit := ⟨unitName 1, unitFilename (unitName 1),
    "s = 'a\x0cb'\nclass _SnippetUnit_1:\n    def __call__(self):\n        return 1/0\n".toList, 3⟩
  let v : SnippetUnit := ⟨unitName 2, unitFilename (unitName 2), ['2'], 0⟩
  let home (file : String) : Bool × String :=
    if file = unitFilename (unitName 1) then (false, unitName 1) else (true, unitName 2)
  let s₀ : Engines Bool Nat := ⟨fun _ => .empty, .empty, 3⟩
  have h₁ : Filed home (s₀.store false u 7) := (Filed.start .empty 3).store 7 (if_pos rfl)
  have h₂ : Filed home (((s₀.store false u 7).store true v 8).clear true) :=
    (h₁.store 8 (if_neg (by decide +kernel))).clear true
  have hstored : (u.name, u, 7) ∈ ((((s₀.store false u 7).store true v 8).clear true).targets false).artifacts :=
    mem_clear.mpr ⟨by decide, mem_store.mpr (.inr ⟨mem_store.mpr (.inl ⟨rfl, rfl⟩), fun h => nomatch h⟩)⟩
  exact ⟨home, _, u, h₂, hstored, by decide, ok_of_toOption (by decide +kernel), by decide +kernel, by decide +kernel,
    filed_shown h₂ hstored⟩

/-- A form feed in the prelude: under the number of the row that fails, the row above it is shown. -/
theorem form_feed_shifts :
    (wrap "s = 'a\x0cb'".toList "1/0".toList (unitName 1)).toOption.map (fun u =>
      let c := ((.empty : CompileTarget Nat).storeWith .empty u 0).2
      ((rows u.source)[3]?, dropTerminator isSourceBreak (c.line u.filename 4))) =
    some (some "        return 1/0".toList, "    def __call__(self):".toList) := by
  decide +kernel

end Engines

end Evalbox
