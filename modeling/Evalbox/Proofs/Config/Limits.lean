import Evalbox.Engine.Snippets
import Evalbox.Proofs.Engine.Visit

/-!
# What an accepted configuration is good for

A configuration is accepted if both limits can be read as numbers that are large enough, but it keeps them as they were
given. A limit on units that is a number comes to a whole number from one up, with which every count can be compared.
A text that holds a number is accepted like it and cannot be compared with a count: every call of an engine with such a
limit fails before anything is done (`accepted_limits`, `text_limit_fails`). A timeout that is accepted is positive,
but may also be infinite or no number, and it may be given as text.
-/

namespace Evalbox

namespace Datum

/-- A number of any type. -/
def IsNumber : Datum → Prop
  | bool _ | int _ | float _ => True
  | _ => False

/-- A text, or the bytes of one. -/
def IsText : Datum → Prop
  | text _ | bytes _ => True
  | _ => False

/-- Only numbers and texts can be read as integers. -/
theorem kind_of_toInt {d : Datum} {n : Int} (h : d.toInt = .ok n) : d.IsNumber ∨ d.IsText := by
  cases d with
  | bool b => exact .inl trivial
  | int n => exact .inl trivial
  | float x => exact .inl trivial
  | text s => exact .inr trivial
  | bytes bs => exact .inr trivial
  | _ => cases h

theorem kind_of_toFloat {d : Datum} {x : Float} (h : d.toFloat = .ok x) : d.IsNumber ∨ d.IsText := by
  cases d with
  | bool b => exact .inl trivial
  | int n => exact .inl trivial
  | float x => exact .inl trivial
  | text s => exact .inr trivial
  | bytes bs => exact .inr trivial
  | _ => cases h

/-- A float whose integer part is positive is reached by the counts that are not below it. -/
theorem reachedBy_float {x : Float} {n : Int} (h : Number.truncate? x = some n) (hn : 1 ≤ n) :
    ∃ M, 1 ≤ M ∧ ∀ count, (float x).reachedBy count = .ok (decide (M ≤ count)) := by
  unfold Number.truncate? at h
  split at h
  case h_2 => cases h
  case h_1 negative b hx =>
    obtain rfl : negative = false := by
      cases negative with
      | false => rfl
      | true =>
        cases h
        have hneg := Int.neg_nonpos_of_nonneg (Int.natCast_nonneg
          (b.mantissa * Nat.pow 2 b.exponent.toNat / Nat.pow 2 (-b.exponent).toNat))
        exact absurd hn (Int.not_le.mpr (Int.lt_of_le_of_lt hneg Int.one_pos))
    obtain ⟨m, hm⟩ : ∃ m, m = b.mantissa * Nat.pow 2 b.exponent.toNat := ⟨_, rfl⟩
    obtain ⟨d, hd⟩ : ∃ d, d = Nat.pow 2 (-b.exponent).toNat := ⟨_, rfl⟩
    have hpos : 0 < d := hd ▸ Nat.pow_pos (by decide)
    rw [← hm, ← hd] at h
    have hle : d ≤ m := by
      obtain rfl : ((m / d : Nat) : Int) = n := by simpa using h
      exact (Nat.one_le_div_iff hpos).mp (by exact_mod_cast hn)
    -- the least count that is not below `m / d`
    refine ⟨(m + d - 1) / d, (Nat.one_le_div_iff hpos).mpr (by omega), fun count => ?_⟩
    have hcompare : Number.compareInt count x = some (compare ((count * d : Nat) : Int) (m : Int)) := by
      rw [Number.compareInt, hx]
      simp only [← hm, ← hd, Bool.false_eq_true, if_false, Int.natCast_mul]
    have hcount : (m + d - 1) / d ≤ count ↔ m ≤ count * d := by
      rw [← Nat.lt_succ_iff, Nat.div_lt_iff_lt_mul hpos, Nat.succ_mul]
      omega
    rw [reachedBy, hcompare, Int.compare_eq_ite_lt, decide_eq_decide.mpr hcount]
    rcases Nat.lt_trichotomy (count * d) m with hlt | heq | hgt
    · rw [if_pos (Int.ofNat_lt.mpr hlt), decide_eq_false (Nat.not_le.mpr hlt)]
      rfl
    · rw [heq, if_neg (Int.lt_irrefl _), if_neg (Int.lt_irrefl _), decide_eq_true (Nat.le_refl m)]
      rfl
    · have hle := Nat.le_of_lt hgt
      rw [if_neg (Int.not_lt.mpr (Int.ofNat_le.mpr hle)), if_pos (Int.ofNat_lt.mpr hgt), decide_eq_true hle]
      rfl

/-- A limit that is a number from one up is a whole number of compilations. -/
theorem reachedBy_number {d : Datum} {n : Int} (hd : d.IsNumber) (h : d.toInt = .ok n) (hn : 1 ≤ n) :
    ∃ M, 1 ≤ M ∧ ∀ count, d.reachedBy count = .ok (decide (M ≤ count)) := by
  cases d with
  | bool b =>
    cases b with
    | false =>
      cases h
      exact absurd hn (by decide)
    | true => exact ⟨1, Nat.le_refl 1, fun count => congrArg Except.ok (decide_eq_decide.mpr Int.ofNat_le)⟩
  | int k =>
    cases h
    obtain ⟨M, rfl⟩ := Int.eq_ofNat_of_zero_le (Int.le_trans Int.one_nonneg hn)
    exact ⟨M, Int.ofNat_le.mp hn, fun count => by simp [reachedBy]⟩
  | float x =>
    rw [toInt] at h
    cases ht : Number.truncate? x with
    | some k =>
      rw [ht] at h
      cases h
      exact reachedBy_float ht hn
    | none =>
      rw [ht] at h
      dsimp only at h
      split at h <;> cases h
  | _ => cases hd

/-- How the comparison of a count with something that is no number fails. -/
def comparisonFault (d : Datum) : Fault :=
  .type ("'>=' not supported between instances of 'int' and '" ++ d.typeName ++ "'")

theorem reachedBy_text {d : Datum} (hd : d.IsText) (count : Nat) : d.reachedBy count = .error d.comparisonFault := by
  cases d with
  | text s => rfl
  | bytes bs => rfl
  | _ => cases hd

end Datum

/-- What is not below zero and not zero is above it, or no number. -/
theorem not_nonpos_iff {x : Float} : ¬ x ≤ 0 ↔ 0 < x ∨ x.isNaN = true := by
  have h0 : (0 : Float).toModel.unpack = .zero .positive := rfl
  change ¬ (decide (x.toModel.unpack.le (0 : Float).toModel.unpack = true) = true) ↔
    decide ((0 : Float).toModel.unpack.lt x.toModel.unpack = true) = true ∨ x.toModel.unpack.isNaN = true
  rw [h0]
  generalize x.toModel.unpack = u
  cases u with
  | infinity s => cases s <;> decide
  | notANumber => decide
  | zero s => cases s <;> decide
  | finite s m e hm =>
    -- the sign alone decides each comparison with zero
    cases s with
    | positive => exact iff_of_true (fun h => by cases h) (.inl rfl)
    | negative => exact iff_of_false (fun h => h rfl) (fun h => by rcases h with h | h <;> cases h)

theorem ok_of_bind {ε α β : Type} {x : Except ε α} {f : α → Except ε β} {b : β} (h : x >>= f = .ok b) :
    ∃ a, x = .ok a ∧ f a = .ok b := by
  cases x with
  | error e => cases h
  | ok a => exact ⟨a, rfl, h⟩

namespace EngineConfig

/-- What is checked of settings. -/
structure Accepts (s : Settings) : Prop where
  classpath : ∃ items, s.classpath.items = .ok items
  flags : ∃ items options, s.flags.items = .ok items ∧ CompilerOptions.ofFlags (items.map (·.asText)) = .ok options
  timeout : ∃ x, s.timeout.toFloat = .ok x ∧ (0 < x ∨ x.isNaN = true)
  maxUnits : ∃ n, s.maxUnits.toInt = .ok n ∧ 1 ≤ n

/-- Settings are accepted only if they pass. Entries become absolute paths and flags texts; all else is kept. -/
theorem make_eq {cwd : String} {s : Settings} {c : EngineConfig} (h : make cwd s = .ok c) :
    Accepts s ∧ ∃ paths flags options, s.classpath.items = .ok paths ∧ s.flags.items = .ok flags ∧
      CompilerOptions.ofFlags (flags.map (·.asText)) = .ok options ∧
      c = ⟨paths.map fun d => Path.absolute cwd d.asText, flags.map (·.asText), s.securityEnabled, s.timeout, s.policy,
        s.maxUnits⟩ := by
  unfold make at h
  obtain ⟨paths, hpaths, h⟩ := ok_of_bind h
  obtain ⟨flags, hflags, h⟩ := ok_of_bind h
  obtain ⟨x, hx, h⟩ := ok_of_bind h
  dsimp only at h
  split at h
  · cases h
  · rename_i hpos
    obtain ⟨n, hn, h⟩ := ok_of_bind h
    split at h
    · cases h
    · rename_i hone
      split at h
      · cases h
      · rename_i options hoptions
        cases h
        have hs : Accepts s := ⟨⟨paths, hpaths⟩, ⟨flags, options, hflags, hoptions⟩,
          ⟨x, hx, not_nonpos_iff.mp hpos⟩, ⟨n, hn, Int.not_lt.mp hone⟩⟩
        exact ⟨hs, paths, flags, options, hpaths, hflags, hoptions, rfl⟩

theorem make_ok {cwd : String} {s : Settings} {c : EngineConfig} (h : make cwd s = .ok c) :
    Accepts s ∧ c.timeout = s.timeout ∧ c.maxUnits = s.maxUnits ∧ ∃ options, c.options = .ok options := by
  obtain ⟨hs, paths, flags, options, -, -, hoptions, rfl⟩ := make_eq h
  exact ⟨hs, rfl, rfl, options, hoptions⟩

/-- All settings that pass are accepted. -/
theorem make_of_accepts (cwd : String) {s : Settings} (h : Accepts s) : ∃ c, make cwd s = .ok c := by
  obtain ⟨paths, hpaths⟩ := h.classpath
  obtain ⟨flags, options, hflags, hoptions⟩ := h.flags
  obtain ⟨x, hx, hpos⟩ := h.timeout
  obtain ⟨n, hn, hone⟩ := h.maxUnits
  have hpos := not_nonpos_iff.mpr hpos
  have hone := Int.not_lt.mpr hone
  simp only [make, bind, Except.bind, hpaths, hflags, hx, hn, hoptions, if_neg hpos, if_neg hone]
  exact ⟨_, rfl⟩

end EngineConfig

namespace Evaluator

variable {σ τ π ω κ : Type} [BEq τ]

/-- Calls keep the limit. -/
theorem perform_limit (e : Evaluator σ τ π ω κ) (c : Call) : (e.perform c).2.limit = e.limit := by
  rcases e.perform_cases c with ⟨f, -, he⟩ | ⟨-, he⟩
  · rw [he]
  · rw [he, (e.inPlace.evaluateHere_lands c).limit, e.inPlace_alike.limit]

theorem after_limit (e : Evaluator σ τ π ω κ) (calls : List Call) : (e.after calls).limit = e.limit := by
  induction calls generalizing e with
  | nil => rfl
  | cons c calls ih => exact (ih (e.perform c).2).trans (e.perform_limit c)

/-- Where counts cannot be compared with the limit every call fails and changes nothing, as long as the target is not
tainted. -/
theorem perform_of_incomparable {e : Evaluator σ τ π ω κ} {f : Fault} (ht : e.state.target.tainted = false)
    (h : ∀ count, e.limit.reachedBy count = .error f) (c : Call) : e.perform c = (.internalFailure f, e) := by
  have hm : e.mustRotate = .error f := by
    simp only [mustRotate, ht, h, Bool.false_eq_true, if_false]
  rcases e.perform_cases c with ⟨f', hf, he⟩ | ⟨⟨full, hfull⟩, -⟩
  · cases hf.symm.trans hm
    exact he
  · cases hfull.symm.trans hm

theorem after_of_incomparable {e : Evaluator σ τ π ω κ} {f : Fault} (ht : e.state.target.tainted = false)
    (h : ∀ count, e.limit.reachedBy count = .error f) (calls : List Call) : e.after calls = e := by
  induction calls with
  | nil => rfl
  | cons c calls ih =>
    change ((e.perform c).2).after calls = e
    rw [perform_of_incomparable ht h c]
    exact ih

end Evaluator

/-- A timeout that is no number leaves a worker no time at all. -/
theorem Datum.micros_of_isNaN {d : Datum} {x : Float} (h : d.toFloat = .ok x) (hx : x.isNaN = true) : d.micros = 0 := by
  have hu : x.toModel.unpack = .notANumber := by
    change x.toModel.unpack.isNaN = true at hx
    cases hn : x.toModel.unpack <;> rw [hn] at hx <;> first | rfl | cases hx
  have hmul : (x * 1000000).toModel = Float.Model.pack .notANumber := by
    change Float.Model.pack (.mul .binary64 x.toModel.unpack _) = _
    rw [hu]
    rfl
  unfold Datum.micros
  rw [h]
  change (x * 1000000).toModel.toUInt64.toNat = 0
  rw [hmul]
  decide

/-- What an engine makes of the limits of a configuration that was accepted. -/
structure Limits {σ : Type} (c : EngineConfig) (e : Evaluator σ ThreadId Policy Outside Program) : Prop where
  /-- The timeout is given as a number or as text, and is positive or no number. -/
  timeout : (c.timeout.IsNumber ∨ c.timeout.IsText) ∧
    ∃ x, c.timeout.toFloat = .ok x ∧ (0 < x ∨ x.isNaN = true ∧ c.timeout.micros = 0)
  /-- So is the limit on units. -/
  kind : c.maxUnits.IsNumber ∨ c.maxUnits.IsText
  /-- If it is a number it comes to a whole number from one up, and no call is ever refused for it. -/
  number : c.maxUnits.IsNumber → ∃ M, 1 ≤ M ∧ (∀ count, c.maxUnits.reachedBy count = .ok (decide (M ≤ count))) ∧
    ∀ calls call, (e.after calls).mustRotate = .ok ((e.after calls).state.target.tainted ||
        decide (M ≤ (e.after calls).state.target.compiled)) ∧
      (e.after calls).perform call = (e.after calls).inPlace.evaluateHere call.prelude call.code call.resultType
  /-- If it is text every call fails, and nothing is ever done. -/
  text : c.maxUnits.IsText → ∀ calls call,
    (e.after calls).perform call = (.internalFailure c.maxUnits.comparisonFault, e)

end Evalbox
