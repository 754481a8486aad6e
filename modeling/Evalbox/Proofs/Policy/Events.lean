import Evalbox.Policy.Audit
import Mathlib.Data.Int.Bitwise
import Mathlib.Data.List.Basic

/-!
# Which events a policy rejects

`Policy.Rejects` says which events are rejected without saying in what order one looks: a pattern covers the name, or
the event opens a file for writing where `open:write` is covered. `auditFault?` finds a fault for these events and for no
other (`audit_exact`). Patterns come in only by `∃ pattern ∈ blockedEvents`, and so more of them never reject less.
-/

namespace Evalbox

/-! ## Patterns -/

/-- A pattern covers its own name, and with a star behind its last dot whatever goes on behind that dot. -/
def Covers (pattern event : String) : Prop :=
  pattern = event ∨ ∃ stem : List Char, pattern.toList = stem ++ ".*".toList ∧ stem ++ ['.'] <+: event.toList

theorem matchesEvent_iff {event pattern : String} :
    Policy.matchesEvent event pattern = true ↔ Covers pattern event := by
  unfold Policy.matchesEvent Covers
  dsimp only
  split
  · next hstar =>
    obtain ⟨stem, hp⟩ : ".*".toList <:+ pattern.toList := hstar ▸ List.drop_suffix _ _
    have hp := hp.symm
    have hdot : pattern.toList.dropLast = stem ++ ['.'] := by
      rw [hp, List.dropLast_append_of_ne_nil (by decide)]
      rfl
    rw [hdot, List.isPrefixOf_iff_prefix]
    constructor
    · intro h
      exact .inr ⟨stem, hp, h⟩
    · rintro (rfl | ⟨stem', hp', h⟩)
      · -- the star itself goes on behind the dot
        rw [hp]
        exact ⟨['*'], by simp⟩
      · obtain rfl : stem = stem' := List.append_cancel_right (hp.symm.trans hp')
        exact h
  · next hstar =>
    rw [decide_eq_true_iff]
    constructor
    · intro h
      exact .inl h.symm
    · rintro (h | ⟨stem, hp, -⟩)
      · exact h.symm
      · refine absurd ?_ hstar
        rw [hp, List.length_append]
        exact List.drop_left' rfl

theorem blocksEvent_iff {p : Policy} {event : String} :
    p.blocksEvent event = true ↔ ∃ pattern ∈ p.blockedEvents, Covers pattern event := by
  simp only [Policy.blocksEvent, List.any_eq_true, matchesEvent_iff]

/-! ## Opening for writing -/

/-- The places of the bits that ask for writing: write only, read and write, create, truncate, append. -/
def writePlaces : List Nat := [0, 1, 6, 9, 10]

theorem testBit_writeBits {k : Nat} : writeBits.testBit k = true ↔ k ∈ writePlaces := by
  by_cases hk : k < 11
  · have h : ∀ k < 11, writeBits.testBit k = true ↔ k ∈ writePlaces := by decide
    exact h k hk
  · have hbits : writeBits < 2 ^ k :=
      lt_of_lt_of_le (by decide : writeBits < 2 ^ 11) (Nat.pow_le_pow_right (by omega) (by omega))
    have hplaces : ∀ k ∈ writePlaces, k < 11 := by decide
    constructor
    · intro h
      rw [Nat.testBit_lt_two_pow hbits] at h
      exact nomatch h
    · intro h
      exact absurd (hplaces k h) hk

/-- The last eleven bits of a whole number, whatever its sign. -/
theorem testBit_toNat_emod (n : Int) {k : Nat} (hk : k < 11) : (n % 2048).toNat.testBit k = n.testBit k := by
  cases n with
  | ofNat m =>
    change (m % 2 ^ 11).testBit k = m.testBit k
    simp only [Nat.testBit_mod_two_pow, hk, decide_true, Bool.true_and]
  | negSucc m =>
    -- in two's complement the bits of -(m + 1) are those of m, turned around
    have hm : m % 2048 < 2 ^ 11 := Nat.mod_lt m (by omega)
    have hflip : (Int.negSucc m % 2048).toNat = 2 ^ 11 - (m % 2048 + 1) := by omega
    have hmod : (m % 2 ^ 11).testBit k = m.testBit k := by
      simp only [Nat.testBit_mod_two_pow, hk, decide_true, Bool.true_and]
    rw [hflip, Nat.testBit_two_pow_sub_succ hm]
    simp only [hk, decide_true, Bool.true_and]
    exact congrArg not hmod

theorem hasWriteBit_iff {n : Int} : hasWriteBit n = true ↔ ∃ k ∈ writePlaces, n.testBit k = true := by
  have hplaces : ∀ k ∈ writePlaces, k < 11 := by decide
  unfold hasWriteBit
  rw [decide_eq_true_iff]
  constructor
  · intro h
    obtain ⟨k, hk⟩ := Nat.exists_testBit_of_ne_zero h
    rw [Nat.testBit_and, Bool.and_eq_true, testBit_writeBits] at hk
    obtain ⟨hbit, hplace⟩ := hk
    exact ⟨k, hplace, (testBit_toNat_emod n (hplaces k hplace)).symm.trans hbit⟩
  · rintro ⟨k, hplace, hbit⟩ hzero
    have hand : ((n % 2048).toNat &&& writeBits).testBit k = true := by
      rw [Nat.testBit_and, Bool.and_eq_true, testBit_writeBits]
      exact ⟨(testBit_toNat_emod n (hplaces k hplace)).trans hbit, hplace⟩
    rw [hzero, Nat.zero_testBit] at hand
    exact nomatch hand

/-- The whole number that a datum is. Truth values count as one and zero. -/
def Datum.integer? : Datum → Option Int
  | .int n => some n
  | .bool b => some (if b then 1 else 0)
  | _ => Option.none

/-- The arguments of an open call, a path, a mode and flags, ask for writing. The flags count only where the mode is no
text. -/
inductive AsksToWrite : List Datum → Prop
  | mode {path : Datum} {text : String} {rest : List Datum} {letter : Char} :
    letter ∈ ['w', 'a', 'x', '+'] → letter ∈ text.toList → AsksToWrite (path :: .text text :: rest)
  | flags {path mode flags : Datum} {rest : List Datum} {n : Int} {k : Nat} :
    (∀ text, mode ≠ .text text) → flags.integer? = some n → k ∈ writePlaces → n.testBit k = true →
    AsksToWrite (path :: mode :: flags :: rest)

theorem isWriteMode_flags {mode flags : Datum} (hmode : ∀ text, mode ≠ .text text) :
    isWriteMode mode flags = true ↔ ∃ n, flags.integer? = some n ∧ ∃ k ∈ writePlaces, n.testBit k = true := by
  have hflags : isWriteMode mode flags = match flags with
      | .int n => hasWriteBit n
      | .bool b => b
      | _ => false := by
    unfold isWriteMode
    split
    · next text => exact absurd rfl (hmode text)
    · rfl
  rw [hflags]
  cases flags with
  | int n => simp only [Datum.integer?, hasWriteBit_iff, Option.some.injEq, exists_eq_left']
  | bool b =>
    cases b with
    | false => simp [Datum.integer?, Int.testBit]
    | true =>
      have hbit : ∃ k ∈ writePlaces, Int.testBit 1 k = true := ⟨0, by decide, by decide⟩
      simpa [Datum.integer?] using hbit
  | _ => simp [Datum.integer?]

/-- Without a third argument there are no flags. -/
theorem asksToWrite_iff {path mode : Datum} {rest : List Datum} :
    isWriteMode mode (rest.head?.getD .none) = true ↔ AsksToWrite (path :: mode :: rest) := by
  by_cases hmode : ∃ text, mode = .text text
  · obtain ⟨text, rfl⟩ := hmode
    simp only [isWriteMode, List.any_eq_true, List.contains_iff_mem]
    constructor
    · rintro ⟨letter, htext, hletter⟩
      have hletter : letter ∈ ['w', 'a', 'x', '+'] := hletter
      exact .mode hletter htext
    · rintro (⟨hletter, htext⟩ | ⟨hmode, -, -, -⟩)
      · exact ⟨_, htext, hletter⟩
      · exact absurd rfl (hmode text)
  · have hmode : ∀ text, mode ≠ .text text := fun text h => hmode ⟨text, h⟩
    rw [isWriteMode_flags hmode]
    constructor
    · rintro ⟨n, hn, k, hk, hbit⟩
      cases rest with
      | nil => exact nomatch hn
      | cons flags rest => exact .flags hmode hn hk hbit
    · rintro (⟨-, -⟩ | ⟨-, hn, hk, hbit⟩)
      · exact absurd rfl (hmode _)
      · exact ⟨_, hn, _, hk, hbit⟩

/-! ## The decision -/

namespace Policy

/-- A policy rejects an event. -/
inductive Rejects (p : Policy) (e : AuditEvent) : Prop
  | name {pattern : String} : pattern ∈ p.blockedEvents → Covers pattern e.name → Rejects p e
  | writing {pattern : String} : e.name = "open" → pattern ∈ p.blockedEvents → Covers pattern "open:write" →
    AsksToWrite e.args → Rejects p e

theorem Rejects.of_subset {p q : Policy} {e : AuditEvent} (hpq : p.blockedEvents ⊆ q.blockedEvents)
    (h : p.Rejects e) : q.Rejects e := by
  cases h with
  | name hp hc => exact .name (hpq hp) hc
  | writing he hp hc ha => exact .writing he (hpq hp) hc ha

/-- An operation is blocked by its name. -/
theorem blocked_name {p : Policy} {e : AuditEvent} {fault : Fault} :
    (if p.blocksEvent e.name then some fault else none).isSome = true ↔
      ∃ pattern ∈ p.blockedEvents, Covers pattern e.name := by
  rw [← blocksEvent_iff]
  split <;> simp_all

/-- Where nothing is opened for writing, the name decides. -/
theorem rejects_iff_name {p : Policy} {e : AuditEvent}
    (h : e.name = "open" → p.blocksEvent "open:write" = true → ¬ AsksToWrite e.args) :
    p.Rejects e ↔ ∃ pattern ∈ p.blockedEvents, Covers pattern e.name := by
  constructor
  · rintro (⟨hp, hc⟩ | ⟨hname, hp, hc, hasks⟩)
    · exact ⟨_, hp, hc⟩
    · exact absurd hasks (h hname (blocksEvent_iff.mpr ⟨_, hp, hc⟩))
  · rintro ⟨pattern, hp, hc⟩
    exact .name hp hc

theorem auditFault?_isSome {p : Policy} {e : AuditEvent} : (p.auditFault? e).isSome = true ↔ p.Rejects e := by
  unfold auditFault?
  dsimp only
  split
  · next hopen =>
    obtain ⟨hname, hwrite⟩ : e.name = "open" ∧ p.blocksEvent "open:write" = true := by simpa using hopen
    split
    · next path mode rest hargs =>
      split
      · next hmode =>
        have hasks : AsksToWrite e.args := hargs ▸ asksToWrite_iff.mp hmode
        obtain ⟨pattern, hp, hc⟩ := blocksEvent_iff.mp hwrite
        exact ⟨fun _ => .writing hname hp hc hasks, fun _ => rfl⟩
      · next hmode =>
        rw [blocked_name]
        refine (rejects_iff_name fun _ _ hasks => ?_).symm
        exact hmode (asksToWrite_iff.mpr (hargs ▸ hasks))
    · next hargs =>
      rw [blocked_name]
      refine (rejects_iff_name fun _ _ hasks => ?_).symm
      -- fewer than two arguments ask for nothing
      generalize e.args = args at hargs hasks
      cases hasks with
      | mode => exact hargs _ _ _ rfl
      | flags => exact hargs _ _ _ rfl
  · next hopen =>
    rw [blocked_name]
    refine (rejects_iff_name fun hname hwrite _ => ?_).symm
    exact hopen (by simp [hname, hwrite])

/-- Whatever is wrong with an operation, it is that a policy is violated. -/
theorem kind_of_auditFault? {p : Policy} {e : AuditEvent} {fault : Fault} (h : p.auditFault? e = some fault) :
    ∃ text, fault = .policy text := by
  have hname : ∀ {text}, (if p.blocksEvent e.name then some (Fault.policy text) else none) = some fault →
      ∃ text, fault = .policy text := by
    intro text h
    split at h
    · exact ⟨text, (Option.some.inj h).symm⟩
    · exact nomatch h
  unfold auditFault? at h
  dsimp only at h
  split at h
  · split at h
    · split at h
      · exact ⟨_, (Option.some.inj h).symm⟩
      · exact hname h
    · exact hname h
  · exact hname h

/-- A thread with a policy is refused exactly the events that the policy rejects, always for a violation of the policy,
and one without is refused nothing. Policies with the same patterns reject the same events, and one with more patterns
rejects no fewer. -/
theorem audit_exact :
    (∀ (p : Policy) (e : AuditEvent), (∃ text, auditFault (some p) e = some (.policy text)) ↔ p.Rejects e) ∧
    (∀ (p : Policy) (e : AuditEvent), auditFault (some p) e = none ↔ ¬ p.Rejects e) ∧
    (∀ e : AuditEvent, auditFault none e = none) ∧
    (∀ p q : Policy, (∀ pattern, pattern ∈ p.blockedEvents ↔ pattern ∈ q.blockedEvents) →
      ∀ e, (auditFault (some p) e).isSome = (auditFault (some q) e).isSome) ∧
    (∀ p q : Policy, p.blockedEvents ⊆ q.blockedEvents →
      ∀ e, (auditFault (some p) e).isSome = true → (auditFault (some q) e).isSome = true) := by
  have hsome : ∀ (p : Policy) (e : AuditEvent), (auditFault (some p) e).isSome = true ↔ p.Rejects e :=
    fun p e => auditFault?_isSome
  refine ⟨?_, ?_, ?_, ?_, ?_⟩
  · intro p e
    rw [← hsome, Option.isSome_iff_exists]
    constructor
    · rintro ⟨text, h⟩
      exact ⟨_, h⟩
    · rintro ⟨fault, h⟩
      obtain ⟨text, rfl⟩ := kind_of_auditFault? h
      exact ⟨text, h⟩
  · intro p e
    rw [← hsome, Bool.not_eq_true, Option.isSome_eq_false_iff, Option.isNone_iff_eq_none]
  · intro e
    rfl
  · intro p q hpq e
    rw [Bool.eq_iff_iff, hsome, hsome]
    exact ⟨.of_subset fun _ => (hpq _).mp, .of_subset fun _ => (hpq _).mpr⟩
  · intro p q hpq e h
    rw [hsome] at h ⊢
    exact h.of_subset hpq

/-- The default names whatever is named without a policy file. Opening for writing through bits alone is refused under
both, reading under neither. -/
theorem audit_exact_missing_file :
    ofMissingFile.blockedEvents ⊆ default.blockedEvents ∧
    (∀ e, (auditFault (some ofMissingFile) e).isSome = true → (auditFault (some default) e).isSome = true) ∧
    (∃ text, auditFault (some ofMissingFile) ⟨"open", [.text "notes", .none, .int (-2)]⟩ = some (.policy text)) ∧
    ¬ ofMissingFile.Rejects ⟨"open", [.text "notes", .text "r", .int (-2)]⟩ := by
  have hsub : ofMissingFile.blockedEvents ⊆ default.blockedEvents := by decide
  refine ⟨hsub, audit_exact.2.2.2.2 _ _ hsub, ?_, ?_⟩
  · have hwrite : "open:write" ∈ ofMissingFile.blockedEvents := by decide
    refine (audit_exact.1 _ _).mpr (.writing rfl hwrite (.inl rfl) ?_)
    exact .flags (k := 1) (fun _ h => nomatch h) rfl (by decide) (by decide)
  · exact (audit_exact.2.1 _ _).mp (by decide)

end Policy

end Evalbox
