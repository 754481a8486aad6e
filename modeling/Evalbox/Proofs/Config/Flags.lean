import Evalbox.Proofs.Config.Limits
import Mathlib.Data.List.Basic

/-!
# Lists of flags

A list of flags asks for what its flags ask for one by one: the last level of optimization counts, and all else adds
up (`ofFlags_append`). It is refused for the first flag that is not known (`ofFlags_error_iff`). What is asked for
therefore depends only on which flags there are, and on the order of the levels among them (`ofFlags_congr`).
-/

namespace Evalbox.CompilerOptions

/-! ## Flags one by one -/

/-- The flags that are words of their own. -/
def words : List String := ["-O", "-OO", "-Werror", "-nowarn", "-Xno-import-check"]

/-- A flag that is known: a word, or the lead of features with the name of one behind it. -/
def Known (flag : String) : Prop :=
  flag ∈ words ∨ ∃ name ∈ futureFeatures.map (·.1), flag = "-future:" ++ name

/-- Why a flag is refused. -/
inductive Refused : String → FlagError → Prop
  | feature {name : String} : name ∉ futureFeatures.map (·.1) → Refused ("-future:" ++ name) (.unknownFeature name)
  | word {flag : String} : flag ∉ words → (∀ name, flag ≠ "-future:" ++ name) → Refused flag (.unsupported flag)

theorem featureOf?_eq_some {flag name : String} : featureOf? flag = some name ↔ flag = "-future:" ++ name := by
  unfold featureOf?
  dsimp only
  constructor
  · intro h
    split at h
    · rename_i hlead
      obtain rfl := Option.some.inj h
      have hsplit := List.take_append_drop "-future:".toList.length flag.toList
      have hname : (String.ofList (flag.toList.drop "-future:".toList.length)).toList =
          flag.toList.drop "-future:".toList.length := String.toList_ofList
      rw [hlead] at hsplit
      refine String.toList_injective ?_
      rw [String.toList_append, hname]
      exact hsplit.symm
    · cases h
  · rintro rfl
    simp

theorem featureOf?_eq_none {flag : String} : featureOf? flag = none ↔ ∀ name, flag ≠ "-future:" ++ name := by
  simp only [Option.eq_none_iff_forall_ne_some, ne_eq, featureOf?_eq_some]

@[simp] theorem featureOf?_feature (name : String) : featureOf? ("-future:" ++ name) = some name :=
  featureOf?_eq_some.mpr rfl

theorem feature_ne_of_mem (name : String) {word : String} (h : word ∈ words) : "-future:" ++ name ≠ word := by
  have hall : ∀ w ∈ words, featureOf? w = none := by decide
  exact (featureOf?_eq_none.mp (hall word h) name).symm

theorem lookup_features_eq_none {name : String} :
    futureFeatures.lookup name = none ↔ name ∉ futureFeatures.map (·.1) := by
  rw [List.lookup_eq_none_iff, List.mem_map]
  simp only [bne_iff_ne, not_exists, not_and]
  exact ⟨fun h p hp he => h p hp he.symm, fun h p hp he => h p hp he.symm⟩

theorem known_or_refused (flag : String) : Known flag ∨ ∃ e, Refused flag e := by
  by_cases hw : flag ∈ words
  · exact .inl (.inl hw)
  · cases hf : featureOf? flag with
    | none => exact .inr ⟨_, .word hw (featureOf?_eq_none.mp hf)⟩
    | some name =>
      obtain rfl := featureOf?_eq_some.mp hf
      by_cases hn : name ∈ futureFeatures.map (·.1)
      · exact .inl (.inr ⟨name, hn, rfl⟩)
      · exact .inr ⟨_, .feature hn⟩

/-! ## What flags ask for -/

/-- The level of optimization that a flag asks for. -/
def levelOf? (flag : String) : Option Int :=
  if flag = "-O" then some 1 else if flag = "-OO" then some 2 else none

/-- The bit of the feature that a flag asks for. -/
def bitOf (flag : String) : Nat := ((featureOf? flag).bind (List.lookup · futureFeatures)).getD 0

/-- What a list of known flags asks for. -/
def asked (flags : List String) : CompilerOptions where
  optimize := (flags.filterMap levelOf?).getLast?.getD (-1)
  fatalWarnings := "-Werror" ∈ flags
  suppressWarnings := "-nowarn" ∈ flags
  futureFlags := flags.foldr (fun flag bits => bitOf flag ||| bits) 0
  checkImports := "-Xno-import-check" ∉ flags

/-- Options with others behind them: the level is that of the latter unless they have none, all else adds up. -/
def merge (a b : CompilerOptions) : CompilerOptions where
  optimize := if b.optimize = -1 then a.optimize else b.optimize
  fatalWarnings := a.fatalWarnings || b.fatalWarnings
  suppressWarnings := a.suppressWarnings || b.suppressWarnings
  futureFlags := a.futureFlags ||| b.futureFlags
  checkImports := a.checkImports && b.checkImports

theorem asked_singleton (flag : String) : asked [flag] = ⟨(levelOf? flag).getD (-1), "-Werror" = flag, "-nowarn" = flag,
    bitOf flag, "-Xno-import-check" ≠ flag⟩ := by
  unfold asked
  congr 1
  · cases hl : levelOf? flag <;> simp [hl]
  · simp
  · simp
  · simp
  · simp

theorem merge_asked_nil (o : CompilerOptions) : o.merge (asked []) = o := by
  simp [merge, asked]

theorem default_merge (o : CompilerOptions) : default.merge o = o := by
  obtain ⟨optimize, fatal, suppress, bits, check⟩ := o
  simp only [merge, default, Bool.false_or, Nat.zero_or, Bool.true_and]
  split <;> simp_all

theorem levelOf?_ne {flag : String} : levelOf? flag ≠ some (-1) := by
  unfold levelOf?
  split
  · decide
  · split <;> decide

/-- What two lists ask for, one behind the other. -/
theorem asked_append (xs ys : List String) : asked (xs ++ ys) = (asked xs).merge (asked ys) := by
  have hbits : ∀ zs : List String, ∀ n, zs.foldr (fun flag bits => bitOf flag ||| bits) n =
      zs.foldr (fun flag bits => bitOf flag ||| bits) 0 ||| n := by
    intro zs n
    induction zs with
    | nil => simp
    | cons z zs ih => rw [List.foldr_cons, List.foldr_cons, ih, Nat.or_assoc]
  unfold asked merge
  dsimp only
  congr 1
  · rw [List.filterMap_append, List.getLast?_append]
    cases hl : (ys.filterMap levelOf?).getLast? with
    | none => simp
    | some n =>
      obtain ⟨flag, -, hflag⟩ := List.mem_filterMap.mp (List.mem_of_getLast? hl)
      have hn : n ≠ -1 := fun h => levelOf?_ne (h ▸ hflag)
      simp [hn]
  · simp
  · simp
  · rw [List.foldr_append, hbits]
  · simp

theorem merge_assoc (a b c : CompilerOptions) : (a.merge b).merge c = a.merge (b.merge c) := by
  simp only [merge, Bool.or_assoc, Nat.or_assoc, Bool.and_assoc, mk.injEq, and_true]
  by_cases hc : c.optimize = -1 <;> simp [hc]

section Apply

variable (o : CompilerOptions) {flag : String}

theorem apply_word (h : flag ∈ words) : o.apply flag = .ok (o.merge (asked [flag])) := by
  obtain ⟨optimize, fatal, suppress, bits, check⟩ := o
  have hwords : ∀ word ∈ words, asked [word] = ⟨(levelOf? word).getD (-1), "-Werror" = word, "-nowarn" = word, 0,
      "-Xno-import-check" ≠ word⟩ := by decide
  rw [hwords flag h]
  simp only [words, List.mem_cons, List.not_mem_nil, or_false] at h
  rcases h with rfl | rfl | rfl | rfl | rfl
  all_goals simp [apply, merge, levelOf?, featureOf?]

theorem apply_feature (name : String) : o.apply ("-future:" ++ name) =
    match futureFeatures.lookup name with
    | some bit => .ok { o with futureFlags := o.futureFlags ||| bit }
    | none => .error (.unknownFeature name) := by
  have hne : ∀ word ∈ words, "-future:" ++ name ≠ word := fun _ h => feature_ne_of_mem name h
  rw [apply, if_neg (hne _ (by decide)), if_neg (hne _ (by decide)), if_neg (hne _ (by decide)),
    if_neg (hne _ (by decide))]
  cases hl : futureFeatures.lookup name with
  | some bit => simp only [featureOf?_feature, hl]
  | none => simp only [featureOf?_feature, hl]

/-- A known flag adds what it asks for. -/
theorem apply_known (h : Known flag) : o.apply flag = .ok (o.merge (asked [flag])) := by
  rcases h with h | ⟨name, hname, rfl⟩
  · exact o.apply_word h
  · obtain ⟨bit, hbit⟩ : ∃ bit, futureFeatures.lookup name = some bit :=
      Option.ne_none_iff_exists'.mp fun h => lookup_features_eq_none.mp h hname
    have hne : ∀ word ∈ words, word ≠ "-future:" ++ name := fun _ h => (feature_ne_of_mem name h).symm
    have hlevel : levelOf? ("-future:" ++ name) = none := by
      rw [levelOf?, if_neg (hne _ (by decide)).symm, if_neg (hne _ (by decide)).symm]
    have hbits : bitOf ("-future:" ++ name) = bit := by
      rw [bitOf, featureOf?_feature, Option.bind_some, hbit, Option.getD_some]
    have hW := hne "-Werror" (by decide)
    have hn := hne "-nowarn" (by decide)
    have hX := hne "-Xno-import-check" (by decide)
    rw [apply_feature, hbit, asked_singleton, hlevel, hbits]
    simp [merge, hW, hn, hX]

theorem apply_refused {e : FlagError} (h : Refused flag e) : o.apply flag = .error e := by
  cases h with
  | @feature name hname => rw [apply_feature, lookup_features_eq_none.mpr hname]
  | word hw hf =>
    have hne : ∀ word ∈ words, flag ≠ word := fun word hword he => hw (he ▸ hword)
    rw [apply, if_neg (hne _ (by decide)), if_neg (hne _ (by decide)), if_neg (hne _ (by decide)),
      if_neg (hne _ (by decide)), featureOf?_eq_none.mpr hf]
    exact if_neg (hne _ (by decide))

end Apply

/-! ## Lists -/

theorem extend_cons (o : CompilerOptions) (flag : String) (flags : List String) :
    o.extend (flag :: flags) = o.apply flag >>= fun o => o.extend flags := List.foldlM_cons

theorem extend_known (o : CompilerOptions) {flags : List String} (h : ∀ flag ∈ flags, Known flag) :
    o.extend flags = .ok (o.merge (asked flags)) := by
  induction flags generalizing o with
  | nil =>
    rw [merge_asked_nil]
    rfl
  | cons flag flags ih =>
    obtain ⟨hflag, hflags⟩ := List.forall_mem_cons.mp h
    have hasked : asked (flag :: flags) = (asked [flag]).merge (asked flags) := asked_append [flag] flags
    rw [extend_cons, o.apply_known hflag, hasked, ← merge_assoc]
    exact ih _ hflags

/-- Behind known flags a flag that is refused ends the reading. -/
theorem extend_refused (o : CompilerOptions) {front : List String} {flag : String} {e : FlagError}
    (h : ∀ flag ∈ front, Known flag) (hf : Refused flag e) (rest : List String) :
    o.extend (front ++ flag :: rest) = .error e := by
  have hfront : front.foldlM apply o = .ok (o.merge (asked front)) := o.extend_known h
  rw [extend, List.foldlM_append, hfront]
  change extend _ (flag :: rest) = _
  rw [extend_cons, apply_refused _ hf]
  rfl

/-- A list is known throughout, or there is a first flag that is refused. -/
theorem known_or_first_refused (flags : List String) : (∀ flag ∈ flags, Known flag) ∨
    ∃ front flag rest e, flags = front ++ flag :: rest ∧ (∀ flag ∈ front, Known flag) ∧ Refused flag e := by
  induction flags with
  | nil => exact .inl fun _ h => nomatch h
  | cons flag flags ih =>
    rcases known_or_refused flag with hk | ⟨e, he⟩
    · rcases ih with hall | ⟨front, bad, rest, e, rfl, hfront, hbad⟩
      · exact .inl (List.forall_mem_cons.mpr ⟨hk, hall⟩)
      · exact .inr ⟨flag :: front, bad, rest, e, rfl, List.forall_mem_cons.mpr ⟨hk, hfront⟩, hbad⟩
    · exact .inr ⟨[], flag, flags, e, rfl, (fun _ h => nomatch h), he⟩

theorem ofFlags_known {flags : List String} (h : ∀ flag ∈ flags, Known flag) : ofFlags flags = .ok (asked flags) := by
  rw [ofFlags, extend_known default h, default_merge]

theorem ofFlags_error_iff {flags : List String} {e : FlagError} : ofFlags flags = .error e ↔
    ∃ front flag rest, flags = front ++ flag :: rest ∧ (∀ flag ∈ front, Known flag) ∧ Refused flag e := by
  constructor
  · intro h
    rcases known_or_first_refused flags with hall | ⟨front, flag, rest, e', rfl, hfront, hbad⟩
    · cases (ofFlags_known hall).symm.trans h
    · cases (extend_refused default hfront hbad rest).symm.trans h
      exact ⟨front, flag, rest, rfl, hfront, hbad⟩
  · rintro ⟨front, flag, rest, rfl, hfront, hbad⟩
    exact extend_refused default hfront hbad rest

theorem ofFlags_ok_iff {flags : List String} {o : CompilerOptions} :
    ofFlags flags = .ok o ↔ (∀ flag ∈ flags, Known flag) ∧ o = asked flags := by
  constructor
  · intro h
    rcases known_or_first_refused flags with hall | hbad
    · exact ⟨hall, Except.ok.inj (h.symm.trans (ofFlags_known hall))⟩
    · obtain ⟨front, flag, rest, e, hparts⟩ := hbad
      cases h.symm.trans (ofFlags_error_iff.mpr ⟨front, flag, rest, hparts⟩)
  · rintro ⟨hall, rfl⟩
    exact ofFlags_known hall

theorem ofFlags_append {xs ys : List String} {a b : CompilerOptions} (hx : ofFlags xs = .ok a)
    (hy : ofFlags ys = .ok b) : ofFlags (xs ++ ys) = .ok (a.merge b) := by
  obtain ⟨hxs, rfl⟩ := ofFlags_ok_iff.mp hx
  obtain ⟨hys, rfl⟩ := ofFlags_ok_iff.mp hy
  rw [← asked_append]
  exact ofFlags_known (List.forall_mem_append.mpr ⟨hxs, hys⟩)

/-! ## The same flags in another list -/

/-- A flag that asks for a level of optimization. -/
def IsLevel (flag : String) : Prop := flag = "-O" ∨ flag = "-OO"

instance : DecidablePred IsLevel := fun _ => inferInstanceAs (Decidable (_ ∨ _))

/-- A bit is asked for if a flag asks for it. -/
theorem testBit_futureFlags (flags : List String) (i : Nat) :
    (asked flags).futureFlags.testBit i = true ↔ ∃ flag ∈ flags, (bitOf flag).testBit i = true := by
  unfold asked
  dsimp only
  induction flags with
  | nil => simp
  | cons flag flags ih => simp [Nat.testBit_or, ih]

theorem asked_congr {xs ys : List String} (hmem : ∀ flag, flag ∈ xs ↔ flag ∈ ys)
    (hlevels : xs.filter (IsLevel ·) = ys.filter (IsLevel ·)) : asked xs = asked ys := by
  have hlevel : ∀ flag, levelOf? flag = if decide (IsLevel flag) = true then levelOf? flag else none := by
    intro flag
    split
    · rfl
    · rename_i h
      have h := of_decide_eq_false (Bool.eq_false_iff.mpr h)
      rw [levelOf?, if_neg fun ho => h (.inl ho), if_neg fun ho => h (.inr ho)]
  have hall : ∀ zs : List String, zs.filterMap levelOf? = (zs.filter (IsLevel ·)).filterMap levelOf? := fun zs =>
    (List.filterMap_congr fun flag _ => hlevel flag).trans List.filterMap_filter.symm
  have hbits : (asked xs).futureFlags = (asked ys).futureFlags := by
    refine Nat.eq_of_testBit_eq fun i => Bool.eq_iff_iff.mpr ?_
    rw [testBit_futureFlags, testBit_futureFlags]
    exact exists_congr fun flag => and_congr_left' (hmem flag)
  unfold asked at hbits ⊢
  congr 1
  · rw [hall xs, hall ys, hlevels]
  · exact decide_eq_decide.mpr (hmem _)
  · exact decide_eq_decide.mpr (hmem _)
  · exact decide_eq_decide.mpr (not_congr (hmem _))

/-- Lists of the same flags, with the same levels in the same order, come to the same options, or to none. -/
theorem ofFlags_congr {xs ys : List String} (hmem : ∀ flag, flag ∈ xs ↔ flag ∈ ys)
    (hlevels : xs.filter (IsLevel ·) = ys.filter (IsLevel ·)) : (ofFlags xs).toOption = (ofFlags ys).toOption := by
  refine Option.ext fun o => ?_
  have hok : ∀ zs, (ofFlags zs).toOption = some o ↔ ofFlags zs = .ok o := fun zs => by
    cases ofFlags zs <;> simp [Except.toOption]
  rw [hok, hok, ofFlags_ok_iff, ofFlags_ok_iff, asked_congr hmem hlevels]
  exact and_congr_left' (forall_congr' fun flag => imp_congr_left (hmem flag))

/-- How a list of flags adds up with another behind it. -/
structure AddsUp (xs ys : List String) : Prop where
  /-- Both together are accepted if each of them is. -/
  accepted : (∃ o, ofFlags (xs ++ ys) = .ok o) ↔ (∃ a, ofFlags xs = .ok a) ∧ ∃ b, ofFlags ys = .ok b
  merged : ∀ a b, ofFlags xs = .ok a → ofFlags ys = .ok b → ofFlags (xs ++ ys) = .ok (a.merge b)
  /-- They are refused for the first flag that is not known. -/
  refused : ∀ e, ofFlags (xs ++ ys) = .error e ↔ ∃ front flag rest, xs ++ ys = front ++ flag :: rest ∧
    (∀ known ∈ front, Known known) ∧ Refused flag e
  /-- The order of the flags does not matter but for the levels. -/
  reordered : ∀ zs, zs.Perm (xs ++ ys) → zs.filter (IsLevel ·) = (xs ++ ys).filter (IsLevel ·) →
    (ofFlags zs).toOption = (ofFlags (xs ++ ys)).toOption
  /-- A flag that is no level may be repeated anywhere. -/
  repeated : ∀ flag ∈ xs ++ ys, ¬IsLevel flag → (ofFlags (xs ++ flag :: ys)).toOption = (ofFlags (xs ++ ys)).toOption

/-- For all lists of flags; and a configuration that was accepted has options. -/
theorem flags_add_up (xs ys : List String) : AddsUp xs ys ∧
    ∀ cwd s c, EngineConfig.make cwd s = .ok c → ∃ o, c.options = .ok o := by
  constructor
  · constructor
    case accepted =>
      simp only [ofFlags_ok_iff, exists_and_left, exists_eq, and_true]
      exact List.forall_mem_append
    case merged => exact fun a b => ofFlags_append
    case refused => exact fun e => ofFlags_error_iff
    case reordered => exact fun zs hperm hlevels => ofFlags_congr (fun flag => hperm.mem_iff) hlevels
    case repeated =>
      intro flag hflag hlevel
      refine ofFlags_congr (fun f => ?_) ?_
      · have hsame : flag :: (xs ++ ys) ⊆ xs ++ ys := List.cons_subset.mpr ⟨hflag, fun _ h => h⟩
        rw [List.perm_middle.mem_iff]
        exact ⟨fun h => hsame h, fun h => List.mem_cons_of_mem flag h⟩
      · rw [List.filter_append, List.filter_append, List.filter_cons_of_neg (by simpa using hlevel)]
  · intro cwd s c h
    obtain ⟨-, -, -, options, hoptions⟩ := EngineConfig.make_ok h
    exact ⟨options, hoptions⟩

/-- Levels and features on both sides: the later level counts, and both features do. -/
theorem levels_and_features_add_up : ∃ a b, ofFlags ["-OO", "-future:division"] = .ok a ∧
    ofFlags ["-O", "-future:annotations", "-nowarn"] = .ok b ∧
    ofFlags ["-OO", "-future:division", "-O", "-future:annotations", "-nowarn"] = .ok (a.merge b) ∧
      a.merge b = ⟨1, false, true, 16908288, true⟩ := by
  obtain ⟨h, -⟩ := flags_add_up ["-OO", "-future:division"] ["-O", "-future:annotations", "-nowarn"]
  exact ⟨_, _, rfl, rfl, h.merged _ _ rfl rfl, by decide⟩

end Evalbox.CompilerOptions
