import Evalbox.Lang.Scan
import Evalbox.Text.Lines

/-!
# Texts that agree up to a stop

No number goes on behind a display break or a semicolon, nor does any other token but a literal. Two texts go abreast if
they agree up to a first such stop, the stop included. Whatever the scanner does in front of it it does in both: numbers
(`Numeral.scan_twin`) and symbols (`Sym.longest?_twin`) have the same extent, and hold no display break.
-/

namespace Evalbox.Lang

open Text

/-- A character that no number goes on behind. -/
def isStop (c : Char) : Bool := isDisplayBreak c || c = ';'

/-- The two texts agree up to their first stop. -/
inductive Abreast : List Char → List Char → Prop
  | here {c : Char} {a b : List Char} (hc : isStop c = true) : Abreast (c :: a) (c :: b)
  | next {c : Char} {a b : List Char} (hc : isStop c = false) (h : Abreast a b) : Abreast (c :: a) (c :: b)

/-- A text without display breaks. -/
def Flat (text : List Char) : Prop := ∀ c ∈ text, isDisplayBreak c = false

instance (text : List Char) : Decidable (Flat text) := List.decidableBAll (fun c => isDisplayBreak c = false) text

/-- A text without stops. -/
def Solid (text : List Char) : Prop := ∀ c ∈ text, isStop c = false

instance (text : List Char) : Decidable (Solid text) := List.decidableBAll (fun c => isStop c = false) text

theorem Solid.cons {c : Char} {text : List Char} (hc : isStop c = false) (h : Solid text) : Solid (c :: text) :=
  List.forall_mem_cons.mpr ⟨hc, h⟩

theorem Solid.flat {text : List Char} (h : Solid text) : Flat text := fun c hc => (Bool.or_eq_false_iff.mp (h c hc)).1

theorem Flat.getLast?_ne {text : List Char} (h : Flat text) : text.getLast? ≠ some '\n' := fun hl =>
  absurd (h _ (List.mem_of_getLast? hl)) (by decide)

/-- The characters that end a display line. -/
def displayBreaks : List Char :=
  ['\n', '\r', '\x0b', '\x0c', '\x1c', '\x1d', '\x1e', '\x85', '\u2028', '\u2029']

theorem mem_displayBreaks {c : Char} (h : isDisplayBreak c = true) : c ∈ displayBreaks := by
  simpa [isDisplayBreak, displayBreaks, or_assoc] using h

theorem forall_displayBreaks {p : Char → Bool} (h : displayBreaks.all (!p ·) = true) :
    ∀ d ∈ displayBreaks, p d = false := by
  simpa using h

/-- A property that no display break has. -/
theorem not_break {c : Char} (p : Char → Bool) (hp : displayBreaks.all (!p ·) = true) (h : p c = true) :
    isDisplayBreak c = false := by
  cases hc : isDisplayBreak c with
  | false => rfl
  | true => rw [forall_displayBreaks hp c (mem_displayBreaks hc)] at h; cases h

theorem not_flat_of_mem {c : Char} {text : List Char} (hc : isDisplayBreak c = true) (h : c ∈ text) : ¬Flat text :=
  fun hf => absurd hc (by simp [hf c h])

theorem not_solid_of_mem {c : Char} {text : List Char} (hc : isStop c = true) (h : c ∈ text) : ¬Solid text :=
  fun hf => absurd hc (by simp [hf c h])

/-- A property that no stop has. -/
theorem not_stop {c : Char} (p : Char → Bool) (hp : (';' :: displayBreaks).all (!p ·) = true) (h : p c = true) :
    isStop c = false := by
  obtain ⟨hsemi, hbreaks⟩ := Bool.and_eq_true_iff.mp hp
  refine Bool.or_eq_false_iff.mpr ⟨not_break p hbreaks h, decide_eq_false ?_⟩
  rintro rfl
  simp [h] at hsemi

theorem not_stop_digit {c : Char} (h : c.isDigit = true) : isStop c = false := not_stop Char.isDigit (by decide) h

namespace Abreast

variable {a b : List Char} {c : Char}

/-- Behind a character that is no stop, the texts still go abreast. -/
theorem tail (h : Abreast (c :: a) (c :: b)) (hc : isStop c = false) : Abreast a b := by
  cases h with
  | here hb => exact absurd hb (by simp [hc])
  | next _ h => exact h

theorem keep (c : Char) (h : Abreast a b) : Abreast (c :: a) (c :: b) := by
  cases hc : isStop c with
  | true => exact .here hc
  | false => exact .next hc h

theorem behind (front : List Char) (hc : isStop c = true) (a b : List Char) :
    Abreast (front ++ c :: a) (front ++ c :: b) := by
  induction front with
  | nil => exact .here hc
  | cons d front ih => exact .keep d ih

theorem exists_cons (h : Abreast a b) : ∃ c a' b', a = c :: a' ∧ b = c :: b' ∧
    (isStop c = false → Abreast a' b') := by
  cases h with
  | here hb => exact ⟨_, _, _, rfl, rfl, fun hc => absurd hb (by simp [hc])⟩
  | next _ h => exact ⟨_, _, _, rfl, rfl, fun _ => h⟩

end Abreast

namespace Numeral

variable {a b : List Char} {n : Nat}

theorem wordAhead_eq (h : Abreast a b) {word : List Char} (hw : Solid word) : wordAhead word a = wordAhead word b := by
  induction word generalizing a b with
  | nil =>
    obtain ⟨c, a, b, rfl, rfl, -⟩ := h.exists_cons
    rfl
  | cons w word ih =>
    obtain ⟨c, a, b, rfl, rfl, hab⟩ := h.exists_cons
    rw [wordAhead, wordAhead]
    by_cases hc : w = c
    · subst hc
      rw [ih (hab (hw w List.mem_cons_self)) fun d hd => hw d (List.mem_cons_of_mem w hd)]
    · simp only [hc, decide_false, Bool.false_and]

theorem keywordAhead_eq (h : Abreast a b) : keywordAhead a = keywordAhead b := by
  obtain ⟨c, a', b', ha, hb, hab⟩ := h.exists_cons
  by_cases hc : c = 'i'
  · subst hc
    obtain ⟨d, a'', b'', rfl, rfl, -⟩ := (hab rfl).exists_cons
    rw [ha, hb]
    rfl
  · have hother (rest : List Char) : keywordAhead (c :: rest) =
        (wordAhead "and".toList (c :: rest) || wordAhead "else".toList (c :: rest) ||
          wordAhead "for".toList (c :: rest) || wordAhead "or".toList (c :: rest)) := by
      rw [keywordAhead.eq_2]
      exact fun _ _ h => hc (List.cons.inj h).1
    rw [ha, hb] at h ⊢
    rw [hother, hother, wordAhead_eq h (by decide), wordAhead_eq h (by decide), wordAhead_eq h (by decide),
      wordAhead_eq h (by decide)]

/-- One measure of both texts. Characters before the first are counted by `n`. -/
structure Twin (n : Nat) (a b : List Char) (x y : Numeral) : Prop where
  same : x = y
  /-- What a literal consists of stands in front of both texts. -/
  front : ∀ m warning, x = found m warning → ∃ lit a' b', a = lit ++ a' ∧ b = lit ++ b' ∧ m = n + lit.length ∧ Solid lit

namespace Twin

variable {x y : Numeral} {c : Char}

theorem found (n : Nat) (a b : List Char) (warning : Option String) :
    Twin n a b (.found n warning) (.found n warning) :=
  ⟨rfl, fun _ _ h => ⟨[], a, b, rfl, rfl, (Numeral.found.inj h).1.symm, by decide⟩⟩

theorem malformed (n : Nat) (a b : List Char) (cursor : Nat) (text : String) :
    Twin n a b (.malformed cursor text) (.malformed cursor text) := ⟨rfl, fun _ _ h => nomatch h⟩

theorem leadingZeros (n : Nat) (a b : List Char) (cursor zerosEnd : Nat) :
    Twin n a b (.leadingZeros cursor zerosEnd) (.leadingZeros cursor zerosEnd) := ⟨rfl, fun _ _ h => nomatch h⟩

theorem append {lit : List Char} (hl : Solid lit) (h : Twin (n + lit.length) a b x y) :
    Twin n (lit ++ a) (lit ++ b) x y := by
  refine ⟨h.same, fun m warning hx => ?_⟩
  obtain ⟨lit', a', b', rfl, rfl, rfl, hl'⟩ := h.front m warning hx
  refine ⟨lit ++ lit', a', b', (List.append_assoc ..).symm, (List.append_assoc ..).symm, ?_, ?_⟩
  · rw [List.length_append, Nat.add_assoc]
  · exact List.forall_mem_append.mpr ⟨hl, hl'⟩

theorem cons (hc : isStop c = false) (h : Twin (n + 1) a b x y) : Twin n (c :: a) (c :: b) x y :=
  append (show Solid [c] from List.forall_mem_singleton.mpr hc) h

end Twin

theorem close_twin (kind : String) (n : Nat) (h : Abreast a b) : Twin n a b (close kind n a) (close kind n b) := by
  have hk := keywordAhead_eq h
  obtain ⟨c, a, b, rfl, rfl, -⟩ := h.exists_cons
  rw [close, close, ← hk]
  split
  · exact .found ..
  · split
    · exact .malformed ..
    · exact .found ..

/-- Digits are the same in both texts. -/
theorem digits_abreast {accepts : Char → Bool} (hacc : ∀ c, accepts c = true → isStop c = false) (g : Group)
    (n : Nat) (h : Abreast a b) : ∃ g' lit a' b', a = lit ++ a' ∧ b = lit ++ b' ∧ Solid lit ∧ Abreast a' b' ∧
      digits accepts g n a = (g', n + lit.length, a') ∧ digits accepts g n b = (g', n + lit.length, b') := by
  induction a generalizing b g n with
  | nil => cases h
  | cons c a ih =>
    obtain ⟨c', a', b, ha, rfl, hab⟩ := h.exists_cons
    obtain ⟨rfl, rfl⟩ := List.cons.inj ha
    have hstep {g' : Group} (hc : isStop c = false) :
        ∃ g'' lit a' b', c :: a = lit ++ a' ∧ c :: b = lit ++ b' ∧ Solid lit ∧ Abreast a' b' ∧
          digits accepts g' (n + 1) a = (g'', n + lit.length, a') ∧
          digits accepts g' (n + 1) b = (g'', n + lit.length, b') := by
      obtain ⟨g'', lit, a', b', rfl, rfl, hl, hab', hda, hdb⟩ := ih g' (n + 1) (hab hc)
      have hlen : n + (c :: lit).length = n + 1 + lit.length := by rw [List.length_cons]; omega
      exact ⟨g'', c :: lit, a', b', rfl, rfl, hl.cons hc, hab', by rw [hda, hlen], by rw [hdb, hlen]⟩
    rw [digits, digits]
    by_cases hc : accepts c = true
    · rw [if_pos hc, if_pos hc]
      exact hstep (hacc c hc)
    · rw [if_neg hc, if_neg hc]
      by_cases hg : c = '_' ∧ g ≠ .gap
      · rw [if_pos hg, if_pos hg]
        exact hstep (by rw [hg.1]; decide)
      · rw [if_neg hg, if_neg hg]
        exact ⟨g, [], c :: a, c :: b, rfl, rfl, by decide, h, rfl, rfl⟩

theorem decimalTail_abreast (n : Nat) (h : Abreast a b) :
    (∃ m, decimalTail n a = .error m ∧ decimalTail n b = .error m) ∨
      ∃ lit a' b', a = lit ++ a' ∧ b = lit ++ b' ∧ Solid lit ∧ Abreast a' b' ∧
        decimalTail n a = .ok (n + lit.length, a') ∧ decimalTail n b = .ok (n + lit.length, b') := by
  have hdigit : ∀ c, Char.isDigit c = true → isStop c = false := fun c => not_stop_digit
  obtain ⟨g, lit, a', b', rfl, rfl, hl, hab, hda, hdb⟩ := digits_abreast hdigit .digit n h
  rw [decimalTail, decimalTail, hda, hdb]
  cases g with
  | gap => exact .inl ⟨_, rfl, rfl⟩
  | start | digit => exact .inr ⟨lit, a', b', rfl, rfl, hl, hab, rfl, rfl⟩

theorem unit_twin (n : Nat) (h : Abreast a b) : Twin n a b (unit n a) (unit n b) := by
  obtain ⟨c, a, b, rfl, rfl, hab⟩ := h.exists_cons
  rw [unit, unit]
  split
  case isTrue hj =>
    have hc : isStop c = false := by rcases hj with rfl | rfl <;> rfl
    exact .cons hc (close_twin _ _ (hab hc))
  case isFalse => exact close_twin _ _ h

/-- The digits of an exponent, and what may follow them. -/
theorem exponentDigits_twin (n : Nat) (h : Abreast a b) : Twin n a b
    (match decimalTail n a with | .ok (m, rest) => unit m rest | .error m => badDecimal m)
    (match decimalTail n b with | .ok (m, rest) => unit m rest | .error m => badDecimal m) := by
  rcases decimalTail_abreast n h with ⟨m, ha, hb⟩ | ⟨lit, a', b', rfl, rfl, hl, hab, ha, hb⟩
  · rw [ha, hb]
    exact .malformed ..
  · rw [ha, hb]
    exact .append hl (unit_twin _ hab)

theorem exponent_twin {c : Char} (n : Nat) (hc : isStop c = false) (h : Abreast a b) :
    Twin n (c :: a) (c :: b) (exponent n (c :: a)) (exponent n (c :: b)) := by
  obtain ⟨s, a, b, rfl, rfl, hab⟩ := h.exists_cons
  simp only [exponent]
  by_cases hs : s = '+' ∨ s = '-'
  · have hbreak : isStop s = false := by rcases hs with rfl | rfl <;> rfl
    have hsigned := hab hbreak
    obtain ⟨d, a', b', rfl, rfl, -⟩ := hsigned.exists_cons
    rw [if_pos hs, if_pos hs]
    dsimp only
    split
    · exact .cons hc (.cons hbreak (exponentDigits_twin (n + 2) hsigned))
    · exact .malformed ..
  · rw [if_neg hs, if_neg hs]
    split
    · exact .cons hc (exponentDigits_twin (n + 1) h)
    · exact close_twin _ _ (.next hc h)

/-- What may follow the fraction of a number. -/
def afterFraction (n : Nat) (text : List Char) : Numeral :=
  match text with
  | c :: _ => if c = 'e' ∨ c = 'E' then exponent n text else unit n text
  | [] => .found n none

theorem afterPoint_cons (n : Nat) (c : Char) (rest : List Char) : afterPoint n (c :: rest) =
    if c.isDigit then
      match decimalTail n (c :: rest) with
      | .ok (m, rest) => afterFraction m rest
      | .error m => badDecimal m
    else afterFraction n (c :: rest) := rfl

theorem afterFraction_twin (n : Nat) (h : Abreast a b) : Twin n a b (afterFraction n a) (afterFraction n b) := by
  obtain ⟨c, a', b', rfl, rfl, hab⟩ := h.exists_cons
  rw [afterFraction, afterFraction]
  split
  case isTrue he =>
    have hc : isStop c = false := by rcases he with rfl | rfl <;> rfl
    exact exponent_twin n hc (hab hc)
  case isFalse => exact unit_twin n h

theorem afterPoint_twin (n : Nat) (h : Abreast a b) : Twin n a b (afterPoint n a) (afterPoint n b) := by
  obtain ⟨c, a', b', ha, hb, -⟩ := h.exists_cons
  rw [ha, hb, afterPoint_cons, afterPoint_cons, ← ha, ← hb]
  split
  · rcases decimalTail_abreast n h with ⟨m, hda, hdb⟩ | ⟨lit, a', b', hla, hlb, hl, hab, hda, hdb⟩
    · rw [hda, hdb]
      exact .malformed ..
    · rw [hda, hdb, hla, hlb]
      exact .append hl (afterFraction_twin _ hab)
  · exact afterFraction_twin n h

theorem afterInteger_twin (n : Nat) (h : Abreast a b) : Twin n a b (afterInteger n a) (afterInteger n b) := by
  obtain ⟨c, a', b', rfl, rfl, hab⟩ := h.exists_cons
  rw [afterInteger, afterInteger]
  split
  case isTrue hp => exact .cons (by rw [hp]; decide) (afterPoint_twin _ (hab (by rw [hp]; decide)))
  case isFalse =>
    split
    case isTrue he =>
      have hc : isStop c = false := by rcases he with rfl | rfl <;> rfl
      exact exponent_twin n hc (hab hc)
    case isFalse => exact unit_twin n h

theorem inBase_twin (kind : String) {accepts : Char → Bool}
    (hacc : ∀ c, accepts c = true → isStop c = false) (h : Abreast a b) :
    Twin 2 a b (inBase kind accepts a) (inBase kind accepts b) := by
  obtain ⟨g, lit, a', b', rfl, rfl, hl, hab, hda, hdb⟩ := digits_abreast hacc .start 2 h
  obtain ⟨c, a', b', rfl, rfl, -⟩ := hab.exists_cons
  rw [inBase, inBase, hda, hdb]
  cases g with
  | digit =>
    dsimp only
    split
    · exact .malformed ..
    · exact .append hl (close_twin _ _ hab)
  | start | gap =>
    dsimp only
    split <;> exact .malformed ..

theorem nonzero_twin (zeros : Nat) (h : Abreast a b) :
    Twin 1 a b (afterZero.nonzero zeros a) (afterZero.nonzero zeros b) := by
  rw [afterZero.nonzero, afterZero.nonzero]
  rcases decimalTail_abreast 1 h with ⟨m, ha, hb⟩ | ⟨lit, a', b', rfl, rfl, hl, hab, ha, hb⟩
  · rw [ha, hb]
    exact .malformed ..
  · have hafter := afterInteger_twin (1 + lit.length) hab
    rw [ha, hb]
    obtain ⟨c, a', b', rfl, rfl, -⟩ := hab.exists_cons
    dsimp only
    split
    · exact .append hl hafter
    · exact .leadingZeros ..

theorem afterZero_twin (h : Abreast a b) : Twin 1 a b (afterZero a) (afterZero b) := by
  have hzero (c : Char) (hc : decide (c = '0') = true) : isStop c = false :=
    not_stop (fun c => decide (c = '0')) (by decide) hc
  obtain ⟨g, lit, a', b', rfl, rfl, hl, hab, hda, hdb⟩ := digits_abreast hzero .digit 1 h
  have hafter := afterInteger_twin (1 + lit.length) hab
  obtain ⟨c, a', b', rfl, rfl, -⟩ := hab.exists_cons
  rw [afterZero, afterZero, hda, hdb]
  cases g with
  | gap =>
    dsimp only
    split
    · exact nonzero_twin _ h
    · exact .malformed ..
  | start | digit =>
    dsimp only
    split
    · exact nonzero_twin _ h
    · exact .append hl hafter

/-- The digits of every base are no stops. -/
theorem not_stop_base {base : Nat} (hb : base = 16 ∨ base = 8 ∨ base = 2) {c : Char}
    (h : (baseDigit? base c).isSome = true) : isStop c = false := by
  rcases hb with rfl | rfl | rfl <;> exact not_stop (fun c => (baseDigit? _ c).isSome) (by decide) h

/-- A number is the same in both texts. -/
theorem scan_twin (h : Abreast a b) : Twin 0 a b (scan a) (scan b) := by
  obtain ⟨c, a, b, rfl, rfl, hab⟩ := h.exists_cons
  have hdecimal : Twin 0 (c :: a) (c :: b)
      (match decimalTail 0 (c :: a) with | .ok (m, rest) => afterInteger m rest | .error m => badDecimal m)
      (match decimalTail 0 (c :: b) with | .ok (m, rest) => afterInteger m rest | .error m => badDecimal m) := by
    rcases decimalTail_abreast 0 h with ⟨m, ha, hb⟩ | ⟨lit, a', b', hla, hlb, hl, hab, ha, hb⟩
    · rw [ha, hb]
      exact .malformed ..
    · rw [ha, hb, hla, hlb]
      exact .append hl (afterInteger_twin _ hab)
  by_cases hp : c = '.'
  · subst hp
    exact .cons rfl (afterPoint_twin 1 (hab rfl))
  by_cases hz : c = '0'
  · subst hz
    have hzero := afterZero_twin (hab rfl)
    obtain ⟨d, a, b, rfl, rfl, hab'⟩ := (hab rfl).exists_cons
    rw [scan, scan]
    split
    case isTrue hx =>
      have hd : isStop d = false := by rcases hx with rfl | rfl <;> rfl
      exact .cons rfl (.cons hd (inBase_twin _ (fun c => not_stop_base (.inl rfl)) (hab' hd)))
    case isFalse =>
      split
      case isTrue ho =>
        have hd : isStop d = false := by rcases ho with rfl | rfl <;> rfl
        exact .cons rfl (.cons hd (inBase_twin _ (fun c => not_stop_base (.inr (.inl rfl))) (hab' hd)))
      case isFalse =>
        split
        case isTrue hb =>
          have hd : isStop d = false := by rcases hb with rfl | rfl <;> rfl
          exact .cons rfl (.cons hd (inBase_twin _ (fun c => not_stop_base (.inr (.inr rfl))) (hab' hd)))
        case isFalse => exact .cons rfl hzero
  · rw [scan.eq_3, scan.eq_3]
    · exact hdecimal
    all_goals simp_all

end Numeral

section Extents

variable {a b : List Char}

theorem Abreast.take (h : Abreast a b) (n : Nat) : a.take n = b.take n ∨ ¬Solid (a.take n) ∧ ¬Solid (b.take n) := by
  induction n generalizing a b with
  | zero => exact .inl rfl
  | succ n ih =>
    cases h with
    | here hc => exact .inr ⟨not_solid_of_mem hc List.mem_cons_self, not_solid_of_mem hc List.mem_cons_self⟩
    | @next c a b hc h =>
      rcases ih h with heq | ⟨ha, hb⟩
      · exact .inl (congrArg (c :: ·) heq)
      · exact .inr ⟨fun hf => ha fun d hd => hf d (List.mem_cons_of_mem c hd),
          fun hf => hb fun d hd => hf d (List.mem_cons_of_mem c hd)⟩

theorem mem_of_lookup {α β : Type} [BEq α] [LawfulBEq α] {table : List (α × β)} {k : α} {v : β}
    (h : table.lookup k = some v) : (k, v) ∈ table := by
  obtain ⟨front, behind, rfl, -⟩ := List.lookup_eq_some_iff.mp h
  exact List.mem_append_right _ List.mem_cons_self

/-- A table of spellings without stops is looked up with the same result. -/
theorem Abreast.lookup {β : Type} {table : List (List Char × β)} (ht : ∀ entry ∈ table, Solid entry.1) (h : Abreast a b)
    (n : Nat) : table.lookup (a.take n) = table.lookup (b.take n) := by
  have hnone {key : List Char} (hkey : ¬Solid key) : table.lookup key = none := by
    cases hl : table.lookup key with
    | none => rfl
    | some v => exact absurd (ht _ (mem_of_lookup hl)) hkey
  rcases h.take n with heq | ⟨ha, hb⟩
  · rw [heq]
  · rw [hnone ha, hnone hb]

/-- What was found in a table of spellings stands in front of both texts. -/
theorem Abreast.front_of_lookup {β : Type} {table : List (List Char × β)} {n : Nat}
    (ht : ∀ entry ∈ table, Solid entry.1 ∧ entry.1.length = n) (h : Abreast a b) {v : β}
    (hl : table.lookup (a.take n) = some v) :
    ∃ lit a' b', a = lit ++ a' ∧ b = lit ++ b' ∧ n = lit.length ∧ Flat lit := by
  obtain ⟨hsolid, hlen⟩ := ht _ (mem_of_lookup hl)
  have heq : a.take n = b.take n := (h.take n).resolve_right fun hn => hn.1 hsolid
  refine ⟨a.take n, a.drop n, b.drop n, (List.take_append_drop n a).symm, ?_, hlen.symm, hsolid.flat⟩
  rw [heq, List.take_append_drop]

/-- A symbol is the same in both texts. -/
theorem Sym.longest?_twin (h : Abreast a b) : Sym.longest? a = Sym.longest? b ∧
    ∀ sym n, Sym.longest? a = some (sym, n) →
      ∃ lit a' b', a = lit ++ a' ∧ b = lit ++ b' ∧ n = lit.length ∧ Flat lit := by
  have hthree : ∀ entry ∈ Sym.three, Solid entry.1 ∧ entry.1.length = 3 := by decide
  have htwo : ∀ entry ∈ Sym.two, Solid entry.1 ∧ entry.1.length = 2 := by decide
  have hone : ∀ entry ∈ Sym.one, Flat entry.1 := by decide
  -- of a symbol of one character nothing is said but that the texts begin with it
  obtain ⟨c, a', b', ha, hb, -⟩ := h.exists_cons
  have hfirst : a.take 1 = [c] ∧ b.take 1 = [c] := ⟨by rw [ha]; rfl, by rw [hb]; rfl⟩
  constructor
  · rw [Sym.longest?, Sym.longest?, h.lookup (fun e he => (hthree e he).1), h.lookup (fun e he => (htwo e he).1),
      hfirst.1, hfirst.2]
  · intro sym n hs
    rw [Sym.longest?] at hs
    split at hs
    case h_1 s hl =>
      cases hs
      exact h.front_of_lookup hthree hl
    case h_2 =>
      split at hs
      case h_1 s hl =>
        cases hs
        exact h.front_of_lookup htwo hl
      case h_2 =>
        obtain ⟨s, hl, hs⟩ := Option.map_eq_some_iff.mp hs
        cases hs
        rw [hfirst.1] at hl
        exact ⟨[c], a', b', ha, hb, rfl, hone _ (mem_of_lookup hl)⟩

/-- A word is the same in both texts, or in both it runs into a display break. -/
theorem Abreast.word (h : Abreast a b) :
    (∃ w a' b', a = w ++ a' ∧ b = w ++ b' ∧ Solid w ∧ Abreast a' b' ∧ a.takeWhile Numeral.continuesWord = w ∧
      b.takeWhile Numeral.continuesWord = w) ∨
    ¬Flat (a.takeWhile Numeral.continuesWord) ∧ ¬Flat (b.takeWhile Numeral.continuesWord) := by
  induction h with
  | @here c a b hc =>
    by_cases hw : Numeral.continuesWord c = true
    · right
      have hbreak : isDisplayBreak c = true := by
        refine (Bool.or_eq_true_iff.mp hc).resolve_right fun hsemi => ?_
        rw [of_decide_eq_true hsemi] at hw
        cases hw
      rw [List.takeWhile_cons_of_pos hw, List.takeWhile_cons_of_pos hw]
      exact ⟨not_flat_of_mem hbreak List.mem_cons_self, not_flat_of_mem hbreak List.mem_cons_self⟩
    · refine .inl ⟨[], c :: a, c :: b, rfl, rfl, by decide, .here hc, ?_, ?_⟩
      · exact List.takeWhile_cons_of_neg hw
      · exact List.takeWhile_cons_of_neg hw
  | @next c a b hc h ih =>
    by_cases hw : Numeral.continuesWord c = true
    · rw [List.takeWhile_cons_of_pos hw, List.takeWhile_cons_of_pos hw]
      rcases ih with ⟨w, a', b', rfl, rfl, hflat, hab, hwa, hwb⟩ | ⟨ha, hb⟩
      · exact .inl ⟨c :: w, a', b', rfl, rfl, hflat.cons hc, hab, congrArg (c :: ·) hwa, congrArg (c :: ·) hwb⟩
      · exact .inr ⟨fun hf => ha fun d hd => hf d (List.mem_cons_of_mem c hd),
          fun hf => hb fun d hd => hf d (List.mem_cons_of_mem c hd)⟩
    · refine .inl ⟨[], c :: a, c :: b, rfl, rfl, by decide, .next hc h, ?_, ?_⟩
      · exact List.takeWhile_cons_of_neg hw
      · exact List.takeWhile_cons_of_neg hw

theorem exists_break {text : List Char} (h : ¬Flat text) : ∃ c ∈ text, c ∈ displayBreaks := by
  have h' : ∃ c ∈ text, isDisplayBreak c ≠ false := by simpa [Flat] using h
  obtain ⟨c, hc, hb⟩ := h'
  exact ⟨c, hc, mem_displayBreaks (by simpa using hb)⟩

/-- A word that holds a display break is no identifier. -/
theorem Scanner.badIdentifier?_of_not_flat {w : List Char} (h : ¬Flat w) : Scanner.badIdentifier? w ≠ none := by
  obtain ⟨d, hd, hb⟩ := exists_break h
  have hstart : ∀ d ∈ displayBreaks, isIdentifierStart d = false :=
    forall_displayBreaks (by decide +kernel)
  have hcontinue : ∀ d ∈ displayBreaks, isIdentifierContinue d = false :=
    forall_displayBreaks (by decide +kernel)
  cases w with
  | nil => cases hd
  | cons c rest =>
    rw [Scanner.badIdentifier?]
    split
    · exact Option.some_ne_none _
    case isFalse hc =>
      have hrest : d ∈ rest := (List.mem_cons.mp hd).resolve_left fun hdc => by
        subst hdc
        simp [hstart d hb] at hc
      cases hf : rest.findIdx? (fun d => !isIdentifierContinue d) with
      | some i => exact Option.some_ne_none _
      | none => exact absurd (List.findIdx?_eq_none_iff.mp hf d hrest) (by simp [hcontinue d hb])

/-- Nor are its characters the letters of a string literal. -/
theorem Scanner.not_stringLetters {w : List Char} (h : ¬Flat w) :
    Scanner.stringLetters.contains (w.map Char.toLower) = false := by
  obtain ⟨d, hd, hb⟩ := exists_break h
  have hlower : ∀ d ∈ displayBreaks, isDisplayBreak d.toLower = true := List.all_eq_true.mp (by decide)
  have hletters : ∀ letters ∈ Scanner.stringLetters, Flat letters := by decide
  cases hc : Scanner.stringLetters.contains (w.map Char.toLower) with
  | false => rfl
  | true =>
    have hflat := hletters _ (List.contains_iff_mem.mp hc)
    exact absurd hflat (not_flat_of_mem (hlower d hb) (List.mem_map_of_mem hd))

end Extents

end Evalbox.Lang
