import Evalbox.Proofs.Text.Rows
import Evalbox.Proofs.Unit.Literals

/-!
# Indented texts as the scanner reads them

The scanner reads a text in its canonical form, in which every row ends in a line feed. The canonical form of an
indented text is that of the text with a margin in front and blanks behind its display breaks (`canonical_indent`).
Only behind the last break of a text there is no margin; and where the text ends in a lone carriage return, the line
feed that closes the unit makes a row of its own.
-/

namespace Evalbox

open Text Lang

/-- A text with the margin of a body behind its display breaks. `tail` stands where the text ends. -/
inductive Padded (tail : List Char) : List Char → List Char → Prop
  | nil : Padded tail [] tail
  | keep {c : Char} {a b : List Char} (hc : isDisplayBreak c = false) (h : Padded tail a b) :
      Padded tail (c :: a) (c :: b)
  | margin {c : Char} {a b : List Char} (hc : isDisplayBreak c = true) (ha : a ≠ []) (h : Padded tail a b) :
      Padded tail (c :: a) (c :: (bodyIndent ++ b))
  | last {c : Char} {a b : List Char} (hc : isDisplayBreak c = true) (ha : a = [] ∨ a = ['\n'])
      (h : Padded tail a b) : Padded tail (c :: a) (c :: b)

/-- How many blanks stand in front of a padded text at the start of a display line. -/
def MarginOf (a : List Char) (k : Nat) : Prop := k = 8 ∧ a ≠ [] ∨ k = 0 ∧ (a = [] ∨ a = ['\n'])

namespace Padded

variable {tail a b : List Char} {c : Char}

/-- Behind a character stand the blanks that were put there, and the rest of the text. -/
theorem uncons (h : Padded tail (c :: a) b) : ∃ k p, b = c :: (List.replicate k ' ' ++ p) ∧ Padded tail a p ∧
    (isDisplayBreak c = false → k = 0) ∧ (isDisplayBreak c = true → MarginOf a k) := by
  cases h with
  | keep hc h => exact ⟨0, _, rfl, h, fun _ => rfl, fun hb => absurd hb (by simp [hc])⟩
  | margin hc ha h => exact ⟨8, _, rfl, h, fun hb => absurd hc (by simp [hb]), fun _ => .inl ⟨rfl, ha⟩⟩
  | last hc ha h => exact ⟨0, _, rfl, h, fun _ => rfl, fun _ => .inr ⟨rfl, ha⟩⟩

theorem eq_tail (h : Padded tail [] b) : b = tail := by
  cases h
  rfl

theorem ne_nil (h : Padded tail a b) (ha : a ≠ []) : b ≠ [] := by
  cases h with
  | nil => exact absurd rfl ha
  | keep | margin | last => exact List.cons_ne_nil _ _

theorem uncons_keep (hc : isDisplayBreak c = false) (h : Padded tail (c :: a) b) :
    ∃ p, b = c :: p ∧ Padded tail a p := by
  obtain ⟨k, p, rfl, hp, hk, -⟩ := h.uncons
  rw [hk hc]
  exact ⟨p, rfl, hp⟩

/-- A front without display breaks stays as it is. -/
theorem front {lit : List Char} (hl : ∀ c ∈ lit, isDisplayBreak c = false) (h : Padded tail (lit ++ a) b) :
    ∃ p, b = lit ++ p ∧ Padded tail a p := by
  induction lit generalizing b with
  | nil => exact ⟨b, rfl, h⟩
  | cons c lit ih =>
    obtain ⟨_, rfl, hrest⟩ := uncons_keep (hl c List.mem_cons_self) h
    obtain ⟨p, rfl, hp⟩ := ih (fun d hd => hl d (List.mem_cons_of_mem c hd)) hrest
    exact ⟨p, rfl, hp⟩

/-- A front that ends in no display break becomes the spread front. -/
theorem split {lit : List Char} (hl : lit.getLast? = some c) (hc : isDisplayBreak c = false)
    (h : Padded tail (lit ++ a) b) : ∃ p, b = spread bodyIndent lit ++ p ∧ Padded tail a p := by
  induction lit generalizing b with
  | nil => cases hl
  | cons d lit ih =>
    obtain ⟨k, q, rfl, hq, hk, hm⟩ := h.uncons
    by_cases hne : lit = []
    · subst hne
      obtain rfl : d = c := Option.some.inj hl
      rw [hk hc]
      exact ⟨q, rfl, hq⟩
    · have hl' : lit.getLast? = some c := by
        rw [← hl, List.getLast?_cons]
        cases h : lit.getLast? with
        | none => exact absurd (List.getLast?_eq_none_iff.mp h) hne
        | some e => rfl
      obtain ⟨p, rfl, hp⟩ := ih hl' hq
      refine ⟨p, ?_, hp⟩
      have hgap : List.replicate k ' ' = gap bodyIndent d := by
        cases hb : isDisplayBreak d with
        | false => rw [hk hb, gap_of_not_break bodyIndent hb]; rfl
        | true =>
          rcases hm hb with ⟨rfl, -⟩ | ⟨-, hs | hs⟩
          · simp only [gap, hb, if_true, bodyIndent]
          · exact absurd (List.append_eq_nil_iff.mp hs).1 hne
          · -- a literal does not end in the line feed of its row
            obtain ⟨hs, -⟩ | ⟨hs, -⟩ := List.append_eq_singleton_iff.mp hs
            · exact absurd hs hne
            · rw [hs] at hl'
              obtain rfl : '\n' = c := Option.some.inj hl'
              exact absurd hc (by decide)
      rw [hgap, spread_cons bodyIndent hne, List.cons_append, List.append_assoc]

theorem length_le (h : Padded tail a b) : a.length ≤ b.length := by
  induction h with
  | nil => exact Nat.zero_le _
  | keep _ _ ih | last _ _ _ ih => exact Nat.succ_le_succ ih
  | margin _ _ _ ih =>
    rw [List.length_cons, List.length_cons, List.length_append]
    omega

/-- The row at hand ends in both texts, and the next begins with a margin. -/
theorem row (hn : '\n' ∈ a) (h : Padded tail a b) : ∃ k p, (b.dropWhile (· ≠ '\n')).tail = List.replicate k ' ' ++ p ∧
    Padded tail (a.dropWhile (· ≠ '\n')).tail p ∧ MarginOf (a.dropWhile (· ≠ '\n')).tail k := by
  induction a generalizing b with
  | nil => cases hn
  | cons c a ih =>
    obtain ⟨k, p, rfl, hp, -, hm⟩ := h.uncons
    by_cases hc : c = '\n'
    · subst hc
      exact ⟨k, p, by simp, by simpa using hp, by simpa using hm rfl⟩
    · have hblanks : (List.replicate k ' ' ++ p).dropWhile (· ≠ '\n') = p.dropWhile (· ≠ '\n') :=
        List.dropWhile_append_of_pos fun d hd => by
          rw [List.eq_of_mem_replicate hd]
          decide
      have hmem : '\n' ∈ a := (List.mem_cons.mp hn).resolve_left fun h => hc h.symm
      obtain ⟨k', p', hrow, hp', hm'⟩ := ih hmem hp
      refine ⟨k', p', ?_, ?_, ?_⟩
      · rw [List.dropWhile_cons_of_pos (by simpa using hc), hblanks, hrow]
      · rwa [List.dropWhile_cons_of_pos (by simpa using hc)]
      · rwa [List.dropWhile_cons_of_pos (by simpa using hc)]

end Padded

section Canonical

theorem canonical_cons {c : Char} (hc : c ≠ '\r') {rest : List Char} (h : c ≠ '\n' ∨ rest ≠ []) :
    canonical (c :: rest) = c :: canonical rest := by
  cases rest with
  | nil => rw [canonical.eq_6] <;> simp_all
  | cons d rest => rw [canonical.eq_6] <;> simp_all

theorem canonical_return {rest : List Char} (hne : rest ≠ []) (h : rest.head? ≠ some '\n') :
    canonical ('\r' :: rest) = '\n' :: canonical rest := by
  cases rest with
  | nil => exact absurd rfl hne
  | cons c rest => rw [canonical.eq_5] <;> simp_all

theorem canonical_append {a b : List Char} (ha : '\r' ∉ a) (hb : b ≠ []) : canonical (a ++ b) = a ++ canonical b := by
  induction a with
  | nil => rfl
  | cons c a ih =>
    have hc : c ≠ '\r' := fun h => ha (h ▸ List.mem_cons_self)
    rw [List.cons_append, canonical_cons hc (.inr (List.append_ne_nil_of_right_ne_nil a hb)),
      ih fun h => ha (List.mem_cons_of_mem c h), List.cons_append]

theorem canonical_ne_nil (text : List Char) : canonical text ≠ [] := by
  fun_cases canonical text <;> exact List.cons_ne_nil _ _

theorem getLast?_canonical (text : List Char) : (canonical text).getLast? = some '\n' := by
  fun_induction canonical text with
  | case1 | case2 | case3 => rfl
  | case4 rest ih | case5 rest _ _ ih | case6 c rest _ _ _ _ ih =>
    rw [List.getLast?_cons, ih]
    rfl

theorem eq_of_canonical {text : List Char} (h : ['\n'] = canonical text) :
    text = [] ∨ text = ['\n'] ∨ text = ['\r'] := by
  fun_induction canonical text with
  | case1 => exact .inl rfl
  | case2 => exact .inr (.inl rfl)
  | case3 => exact .inr (.inr rfl)
  | case4 rest | case5 rest | case6 _ rest => exact absurd (List.cons.inj h).2.symm (canonical_ne_nil rest)

/-- A text that ends in a carriage return, where what becomes of it ends in a backslash and a line feed. -/
theorem suffix_of_canonical {text : List Char} (h : ['\\', '\n'] <:+ canonical text)
    (hr : text.getLast? = some '\r') : ['\\', '\r'] <:+ text := by
  have hbehind {rest : List Char} (h : ['\\', '\n'] <:+ '\n' :: canonical rest) : ['\\', '\n'] <:+ canonical rest :=
    (List.suffix_cons_iff.mp h).resolve_left fun h => absurd (List.cons.inj h).1 (by decide)
  have hlast {c : Char} {rest : List Char} (hne : rest ≠ []) (hr : (c :: rest).getLast? = some '\r') :
      rest.getLast? = some '\r' := by
    rwa [List.getLast?_cons_of_ne_nil hne] at hr
  fun_induction canonical text with
  | case1 => cases hr
  | case2 => exact absurd (Option.some.inj hr) (by decide)
  | case3 => exact absurd h.length_le (by decide)
  | case4 rest ih =>
    have hne : rest ≠ [] := by
      rintro rfl
      exact absurd (Option.some.inj hr) (by decide)
    exact (ih (hbehind h) (hlast hne (hlast (List.cons_ne_nil _ _) hr))).trans (List.suffix_append ['\r', '\n'] rest)
  | case5 rest hnil _ ih => exact (ih (hbehind h) (hlast hnil hr)).trans (List.suffix_cons '\r' rest)
  | case6 c rest _ _ _ hc ih =>
    have hne : rest ≠ [] := by
      rintro rfl
      exact hc (Option.some.inj hr)
    rcases List.suffix_cons_iff.mp h with heq | h
    · obtain ⟨hc', heq⟩ := List.cons.inj heq
      rw [← hc']
      obtain rfl | rfl | rfl := eq_of_canonical heq
      · exact absurd rfl hne
      · exact absurd hr (by simp)
      · exact List.suffix_refl _
    · exact (ih h (hlast hne hr)).trans (List.suffix_cons c rest)

/-- The line feed that closes a unit. -/
def closed (text : List Char) : List Char := if text.getLast? = some '\n' then text else text ++ ['\n']

theorem closed_append (a : List Char) {b : List Char} (hb : b ≠ []) : closed (a ++ b) = a ++ closed b := by
  have hl : (a ++ b).getLast? = b.getLast? := by
    rw [List.getLast?_append]
    cases h : b.getLast? with
    | none => exact absurd (List.getLast?_eq_none_iff.mp h) hb
    | some c => rfl
  unfold closed
  rw [hl]
  split
  · rfl
  · exact List.append_assoc ..

theorem closed_ne_nil (text : List Char) : closed text ≠ [] := by
  unfold closed
  split
  case isTrue h => exact fun hn => nomatch hn ▸ h
  case isFalse => simp

/-- What closing a unit adds to the canonical form of its body. -/
def feedBehind (body : List Char) : List Char := if body.getLast? = some '\r' then ['\n'] else []

theorem feedBehind_cons (c : Char) {rest : List Char} (h : rest ≠ []) : feedBehind (c :: rest) = feedBehind rest := by
  obtain ⟨d, rest, rfl⟩ := List.exists_cons_of_ne_nil h
  rfl

theorem head?_canonical {text : List Char} (h : (canonical text).head? = some ' ') : text.head? = some ' ' := by
  fun_cases canonical text <;> simp_all [canonical]

/-- A display line in front of others, where `d` is what becomes of its end. -/
theorem canonical_line {front e rest : List Char} {d : Char} (hr : '\r' ∉ front)
    (hrest : (canonical (closed rest)).head? = some ' ')
    (hd : ∀ x : List Char, x.head? = some ' ' → canonical (e ++ x) = d :: canonical x) :
    canonical (closed (front ++ e ++ rest)) = front ++ d :: canonical (closed rest) := by
  have hne : rest ≠ [] := by
    rintro rfl
    cases hrest
  have hbehind : e ++ closed rest ≠ [] := List.append_ne_nil_of_right_ne_nil e (closed_ne_nil rest)
  rw [closed_append _ hne, List.append_assoc, canonical_append hr hbehind, hd _ (head?_canonical hrest)]

section LineEnds

variable {front rest J p : List Char} {c : Char}

/-- The last display line ends in a break. -/
theorem canonical_last (hr : '\r' ∉ front) (hb : isDisplayBreak c = true) :
    ∃ p, canonical (closed (front ++ [c])) = front ++ p ∧ Padded (feedBehind [c]) (canonical [c]) p := by
  by_cases hn : c = '\n'
  · subst hn
    have hclosed : closed (front ++ ['\n']) = front ++ ['\n'] := if_pos (by simp)
    refine ⟨['\n'], ?_, .last rfl (.inl rfl) .nil⟩
    rw [hclosed, canonical_append hr (by simp)]
    rfl
  · have hclosed : closed (front ++ [c]) = front ++ [c] ++ ['\n'] := if_neg (by simp [hn])
    rw [hclosed, List.append_assoc, canonical_append hr (by simp)]
    by_cases hcr : c = '\r'
    · subst hcr
      exact ⟨['\n', '\n'], rfl, .last rfl (.inl rfl) .nil⟩
    · have hfeed : feedBehind [c] = [] := if_neg fun h => hcr (Option.some.inj h)
      have hcanonical (rest : List Char) : canonical (c :: rest) = c :: canonical rest :=
        canonical_cons hcr (.inl hn)
      refine ⟨[c, '\n'], congrArg _ (hcanonical ['\n']), ?_⟩
      rw [hfeed, hcanonical]
      exact .last hb (.inr rfl) (.last rfl (.inl rfl) .nil)

/-- A display line in front of others ends in a break that is no carriage return in front of a line feed. -/
theorem canonical_break (hr : '\r' ∉ front) (hb : isDisplayBreak c = true) (hne : rest ≠ [])
    (hfeed : c = '\r' → rest.head? ≠ some '\n') (hJ : canonical (closed J) = bodyIndent ++ p)
    (hpad : Padded (feedBehind rest) (canonical rest) p) : ∃ q, canonical (closed (front ++ [c] ++ J)) = front ++ q ∧
      Padded (feedBehind (c :: rest)) (canonical (c :: rest)) q := by
  have hhead : (canonical (closed J)).head? = some ' ' := by
    rw [hJ]
    rfl
  rw [feedBehind_cons c hne]
  by_cases hcr : c = '\r'
  · subst hcr
    refine ⟨'\n' :: (bodyIndent ++ p), ?_, ?_⟩
    · rw [← hJ]
      refine canonical_line hr hhead fun x hx => ?_
      exact canonical_return (by rintro rfl; cases hx) (by simp [hx])
    · rw [canonical_return hne (hfeed rfl)]
      exact .margin rfl (canonical_ne_nil rest) hpad
  · refine ⟨c :: (bodyIndent ++ p), ?_, ?_⟩
    · rw [← hJ]
      refine canonical_line hr hhead fun x hx => ?_
      exact canonical_cons hcr (.inr (by rintro rfl; cases hx))
    · rw [canonical_cons hcr (.inr hne)]
      exact .margin hb (canonical_ne_nil rest) hpad

end LineEnds

/-- The canonical form of a text that is cut into display lines behind `line`, each with its margin. -/
theorem canonical_rows (line text : List Char) (hl : ∀ c ∈ line, isDisplayBreak c = false)
    (hne : line ≠ [] ∨ text ≠ []) :
    ∃ p, canonical (closed ((cutLines isDisplayBreak line text).flatMap (bodyIndent ++ ·))) =
      bodyIndent ++ line.reverse ++ p ∧ Padded (feedBehind text) (canonical text) p := by
  have hr {line : List Char} (hl : ∀ c ∈ line, isDisplayBreak c = false) : '\r' ∉ bodyIndent ++ line.reverse := by
    intro h
    rcases List.mem_append.mp h with h | h
    · exact absurd (List.eq_of_mem_replicate h) (by decide)
    · exact absurd (hl _ (List.mem_reverse.mp h)) (by decide)
  have hnone : (cutLines isDisplayBreak [] []).flatMap (bodyIndent ++ ·) = [] := rfl
  -- the induction follows how the text is cut
  fun_induction cutLines isDisplayBreak line text with
  | case1 line h => simp_all
  | case2 line h =>
    obtain ⟨c, line, rfl⟩ := List.exists_cons_of_ne_nil (by simpa using h : line ≠ [])
    have hc : c ≠ '\n' := fun h => absurd (hl c List.mem_cons_self) (by rw [h]; decide)
    refine ⟨['\n'], ?_, .last rfl (.inl rfl) .nil⟩
    have hclosed : closed (bodyIndent ++ (c :: line).reverse) = bodyIndent ++ (c :: line).reverse ++ ['\n'] :=
      if_neg (by simp [hc])
    rw [List.flatMap_singleton, hclosed, canonical_append (hr hl) (by simp)]
    rfl
  | case3 line rest _ ih =>
    have hline : bodyIndent ++ ('\n' :: '\r' :: line).reverse = bodyIndent ++ line.reverse ++ ['\r', '\n'] := by simp
    rw [List.flatMap_cons, hline]
    by_cases hrest : rest = []
    · subst hrest
      refine ⟨['\n', '\n'], ?_, .last rfl (.inr rfl) (.last rfl (.inl rfl) .nil)⟩
      have hclosed : closed (bodyIndent ++ line.reverse ++ ['\r', '\n']) =
          bodyIndent ++ line.reverse ++ ['\r', '\n'] := if_pos (by simp)
      rw [hnone, List.append_nil, hclosed, canonical_append (hr hl) (by simp)]
      rfl
    · obtain ⟨p, hp, hpad⟩ := ih (by simp) (.inr hrest)
      rw [List.reverse_nil, List.append_nil] at hp
      refine ⟨'\n' :: (bodyIndent ++ p), ?_, ?_⟩
      · rw [← hp]
        exact canonical_line (hr hl) (by rw [hp]; rfl) fun x _ => rfl
      · rw [feedBehind_cons _ (List.cons_ne_nil _ _), feedBehind_cons _ hrest]
        exact .margin rfl (canonical_ne_nil rest) hpad
  | case4 line rest h => exact absurd rfl h
  | case5 line c rest hp hb ih =>
    have hline : bodyIndent ++ (c :: line).reverse = bodyIndent ++ line.reverse ++ [c] := by simp
    rw [List.flatMap_cons, hline]
    by_cases hrest : rest = []
    · subst hrest
      rw [hnone, List.append_nil]
      exact canonical_last (hr hl) hb
    · obtain ⟨p, hJ, hpad⟩ := ih (by simp) (.inr hrest)
      rw [List.reverse_nil, List.append_nil] at hJ
      refine canonical_break (hr hl) hb hrest (fun hc h => ?_) hJ hpad
      obtain ⟨rest, rfl⟩ := List.head?_eq_some_iff.mp h
      exact hp rest hc rfl
  | case6 line c rest hp hb ih =>
    have hc : isDisplayBreak c = false := by simpa using hb
    have hcr : c ≠ '\r' := fun h => absurd hc (by rw [h]; decide)
    have hcn : c ≠ '\n' := fun h => absurd hc (by rw [h]; decide)
    obtain ⟨p, hp, hpad⟩ := ih (List.forall_mem_cons.mpr ⟨hc, hl⟩) (.inl (by simp))
    have hfeed : feedBehind (c :: rest) = feedBehind rest := by
      by_cases hrest : rest = []
      · subst hrest
        exact if_neg fun h => hcr (Option.some.inj h)
      · exact feedBehind_cons c hrest
    refine ⟨c :: p, ?_, ?_⟩
    · rw [hp]
      simp
    · rw [hfeed, canonical_cons hcr (.inl hcn)]
      exact .keep hc hpad

/-- The canonical form of a closed unit: the header, and the body with its margins. -/
theorem canonical_unit {header body : List Char} (hr : '\r' ∉ header) (hb : body ≠ []) :
    ∃ p, canonical (closed (header ++ indent bodyIndent body)) = header ++ bodyIndent ++ p ∧
      Padded (feedBehind body) (canonical body) p := by
  obtain ⟨p, hp, hpad⟩ := canonical_rows [] body (by simp) (.inr hb)
  rw [List.reverse_nil, List.append_nil] at hp
  have hne : indent bodyIndent body ≠ [] := by
    intro h
    have h8 : canonical (closed []) = bodyIndent ++ p := (congrArg (fun t => canonical (closed t)) h).symm.trans hp
    cases List.cons.inj h8 |>.1
  refine ⟨p, ?_, hpad⟩
  rw [closed_append header hne, canonical_append hr (closed_ne_nil _), List.append_assoc]
  exact congrArg _ hp

end Canonical

end Evalbox
