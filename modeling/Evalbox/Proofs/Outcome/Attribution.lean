import Evalbox.Outcome.Attribution
import Mathlib.Data.List.Chain
import Mathlib.Data.List.Perm.Subperm

/-!
# What a failure is attributed to

The links between exceptions may form any graph, circles included. The chain of an exception is what comes of
following them up to the end or to the first exception that comes again; there is exactly one (`chained_chain`,
`Follows.unique`). A failure is attributed to the first exception of its chain with a frame in the snippet, at the
innermost such frame, and otherwise to the last one (`classify_attributed`).
-/

namespace Evalbox

namespace Raisings

variable {ι : Type} (g : Raisings ι)

section

variable [BEq ι]

/-- One exception lies behind another: that one was raised from it, or from none and while it was handled, which is
not to be ignored. -/
def Behind (x y : ι) : Prop :=
  (g.find x).cause = some y ∨
    (g.find x).cause = none ∧ (g.find x).suppressed = false ∧ (g.find x).context = some y

/-- The exceptions along the links from one on, each once. -/
structure Chained (e : ι) (chain : List ι) : Prop where
  head : chain.head? = some e
  linked : chain.IsChain g.Behind
  nodup : chain.Nodup
  /-- Behind the last one there is nothing, or one that came before. -/
  stops : ∀ x, chain.getLast? = some x → ∀ y, g.Behind x y → y ∈ chain

/-- What remains of a chain: from `next` on, without those that were `seen`. -/
structure Follows (seen : List ι) (next : Option ι) (rest : List ι) : Prop where
  starts : ∀ e, rest.head? = some e ↔ next = some e ∧ e ∉ seen
  linked : rest.IsChain g.Behind
  nodup : rest.Nodup
  fresh : ∀ x ∈ rest, x ∉ seen
  stops : ∀ x, rest.getLast? = some x → ∀ y, g.Behind x y → y ∈ seen ∨ y ∈ rest

theorem behind_iff {x y : ι} : g.Behind x y ↔ (g.find x).underlying = some y := by
  unfold Behind Raising.underlying
  cases (g.find x).cause <;> cases (g.find x).suppressed <;> simp

variable {g} {seen rest : List ι} {next : Option ι} {e : ι}

theorem chained_iff_follows {chain : List ι} : g.Chained e chain ↔ g.Follows [] (some e) chain := by
  constructor
  · intro h
    refine ⟨fun x => ?_, h.linked, h.nodup, fun _ _ => List.not_mem_nil, fun x hx y hy => .inr (h.stops x hx y hy)⟩
    simp [h.head]
  · intro h
    refine ⟨(h.starts e).mpr ⟨rfl, List.not_mem_nil⟩, h.linked, h.nodup, fun x hx y hy => ?_⟩
    exact (h.stops x hx y hy).resolve_left List.not_mem_nil

/-- Nothing remains where nothing comes next, or only what was seen. -/
theorem Follows.nil (h : ∀ e, next = some e → e ∈ seen) : g.Follows seen next [] := by
  refine ⟨fun e => ?_, .nil, List.nodup_nil, fun _ hx => absurd hx List.not_mem_nil, fun x hx => ?_⟩
  · exact ⟨fun he => by simp at he, fun ⟨hn, he⟩ => absurd (h e hn) he⟩
  · simp at hx

theorem Follows.cons (he : e ∉ seen) (h : g.Follows (e :: seen) (g.find e).underlying rest) :
    g.Follows seen (some e) (e :: rest) := by
  refine ⟨fun x => ?_, ?_, List.nodup_cons.mpr ⟨fun hm => ?_, h.nodup⟩, fun x hx => ?_, fun x hx y hy => ?_⟩
  · simp only [List.head?_cons, Option.some.injEq]
    exact ⟨fun hx => ⟨hx, hx ▸ he⟩, And.left⟩
  · refine List.isChain_cons.mpr ⟨fun y hy => ?_, h.linked⟩
    exact (behind_iff g).mpr ((h.starts y).mp hy).1
  · exact h.fresh e hm List.mem_cons_self
  · rcases List.mem_cons.mp hx with rfl | hx
    · exact he
    · exact fun hs => h.fresh x hx (List.mem_cons_of_mem e hs)
  · cases hr : rest.getLast? with
    | none =>
      -- the chain ends here, so that what lies behind was seen
      have hnil := List.getLast?_eq_none_iff.mp hr
      obtain rfl : e = x := by simpa [hnil] using hx
      by_cases hm : y ∈ e :: seen
      · rcases List.mem_cons.mp hm with rfl | hm
        · exact .inr List.mem_cons_self
        · exact .inl hm
      · have hy := (h.starts y).mpr ⟨(behind_iff g).mp hy, hm⟩
        simp [hnil] at hy
    | some z =>
      obtain rfl : z = x := by simpa [List.getLast?_cons, hr] using hx
      rcases h.stops z hr y hy with hs | hs
      · rcases List.mem_cons.mp hs with rfl | hs
        · exact .inr List.mem_cons_self
        · exact .inl hs
      · exact .inr (List.mem_cons_of_mem e hs)

theorem Follows.tail (h : g.Follows seen next (e :: rest)) : g.Follows (e :: seen) (g.find e).underlying rest := by
  have hnodup := List.nodup_cons.mp h.nodup
  have hlinked := List.isChain_cons.mp h.linked
  have hfresh : ∀ x ∈ rest, x ∉ e :: seen := by
    intro x hx hm
    rcases List.mem_cons.mp hm with rfl | hm
    · exact hnodup.1 hx
    · exact h.fresh x (List.mem_cons_of_mem e hx) hm
  refine ⟨fun x => ⟨fun hx => ?_, fun ⟨hn, hx⟩ => ?_⟩, hlinked.2, hnodup.2, hfresh, fun x hx y hy => ?_⟩
  · exact ⟨(behind_iff g).mp (hlinked.1 x hx), hfresh x (List.mem_of_head? hx)⟩
  · cases rest with
    | nil =>
      rcases h.stops e rfl x ((behind_iff g).mpr hn) with hs | hs
      · exact absurd (List.mem_cons_of_mem e hs) hx
      · exact absurd (List.mem_singleton.mp hs ▸ List.mem_cons_self) hx
    | cons y more =>
      have hy := (behind_iff g).mp (hlinked.1 y rfl)
      exact (hn.symm.trans hy) ▸ rfl
  · have hlast : (e :: rest).getLast? = some x := by simp [List.getLast?_cons, hx]
    rcases h.stops x hlast y hy with hs | hs
    · exact .inl (List.mem_cons_of_mem e hs)
    · rcases List.mem_cons.mp hs with rfl | hs
      · exact .inl List.mem_cons_self
      · exact .inr hs

/-- The links of an exception lead to one other at most. -/
theorem Follows.unique {other : List ι} (h : g.Follows seen next rest) (h' : g.Follows seen next other) :
    rest = other := by
  induction rest generalizing seen next other with
  | nil =>
    cases other with
    | nil => rfl
    | cons e more => exact absurd ((h.starts e).mpr ((h'.starts e).mp rfl)) (by simp)
  | cons e rest ih =>
    have he := (h'.starts e).mpr ((h.starts e).mp rfl)
    cases other with
    | nil => simp at he
    | cons x more =>
      obtain rfl : x = e := by simpa using he
      rw [ih h.tail h'.tail]

end

variable [DecidableEq ι] {g : Raisings ι} {e : ι}

/-- An exception that has another one behind it is known. -/
theorem mem_of_underlying {y : ι} (h : (g.find e).underlying = some y) : e ∈ g.entries.map (·.1) := by
  unfold find at h
  cases hl : g.entries.lookup e with
  | none => simp [hl, Raising.underlying] at h
  | some r =>
    obtain ⟨a, b, hab, -⟩ := List.lookup_eq_some_iff.mp hl
    simp [hab]

/-- The links are followed up to their end: there are not more exceptions than steps. -/
theorem chainFrom_follows (fuel : Nat) (seen : List ι) (next : Option ι) (hseen : seen.Nodup)
    (hknown : next.isSome → ∀ x ∈ seen, x ∈ g.entries.map (·.1)) (hfuel : fuel + seen.length = g.entries.length + 1) :
    g.Follows seen next (g.chainFrom fuel seen next) := by
  induction fuel generalizing seen next with
  | zero =>
    cases next with
    | none => exact .nil fun e he => by simp at he
    | some e =>
      -- as many different exceptions were seen as are known, and one more
      have hle := (hseen.subperm fun x hx => hknown rfl x hx).length_le
      rw [List.length_map] at hle
      omega
  | succ fuel ih =>
    cases next with
    | none => exact .nil fun e he => by simp at he
    | some e =>
      rw [chainFrom]
      by_cases hs : e ∈ seen
      · rw [if_pos (by simpa using hs)]
        exact .nil fun x hx => Option.some.inj hx ▸ hs
      · rw [if_neg (by simpa using hs)]
        refine .cons hs (ih (e :: seen) _ (List.nodup_cons.mpr ⟨hs, hseen⟩) (fun hn x hx => ?_) ?_)
        · rcases List.mem_cons.mp hx with rfl | hx
          · obtain ⟨y, hy⟩ := Option.isSome_iff_exists.mp hn
            exact mem_of_underlying hy
          · exact hknown rfl x hx
        · rw [List.length_cons]
          omega

theorem chained_chain (g : Raisings ι) (e : ι) : g.Chained e (g.chain e) :=
  chained_iff_follows.mpr (chainFrom_follows _ [] _ List.nodup_nil (fun _ _ hx => absurd hx List.not_mem_nil) rfl)

end Raisings

namespace SnippetUnit

variable (u : SnippetUnit)

/-- A frame inside the snippet. -/
def Holds (frame : String × Int) : Prop := frame.1 = u.filename ∧ u.snippetOffset < frame.2

/-- The innermost frame inside the snippet is at this line of it. Frames are listed outermost first. -/
def InnermostAt (frames : List (String × Int)) (n : Int) : Prop :=
  ∃ outer line inner, frames = outer ++ (u.filename, line) :: inner ∧ u.snippetOffset < line ∧
    n = line - u.snippetOffset ∧ ∀ f ∈ inner, ¬ u.Holds f

variable {u}

theorem snippetLine_eq_some {line n : Int} :
    u.snippetLine line = some n ↔ u.snippetOffset < line ∧ n = line - u.snippetOffset := by
  unfold snippetLine
  dsimp only
  split
  · simp only [Option.some.injEq]
    omega
  · simp only [reduceCtorEq, false_iff]
    omega

/-- The snippet line of one frame. -/
theorem lineOf_frame {file : String} {line n : Int} :
    (if file = u.filename then u.snippetLine line else none) = some n ↔
      u.Holds (file, line) ∧ n = line - u.snippetOffset := by
  unfold Holds
  split <;> simp_all [snippetLine_eq_some]

theorem lineOf_frame_none {file : String} {line : Int} :
    (if file = u.filename then u.snippetLine line else none) = none ↔ ¬ u.Holds (file, line) := by
  rw [Option.eq_none_iff_forall_ne_some]
  constructor
  · exact fun h hf => h _ (lineOf_frame.mpr ⟨hf, rfl⟩)
  · exact fun hf n h => hf (lineOf_frame.mp h).1

theorem lineOf_eq_some {frames : List (String × Int)} {n : Int} :
    u.lineOf frames = some n ↔ u.InnermostAt frames n := by
  unfold lineOf InnermostAt
  rw [List.findSome?_eq_some_iff]
  constructor
  · rintro ⟨inner, ⟨file, line⟩, outer, hsplit, hline, hinner⟩
    obtain ⟨⟨rfl, hoff⟩, hn⟩ := lineOf_frame.mp hline
    refine ⟨outer.reverse, line, inner.reverse, ?_, hoff, hn, fun f hf => ?_⟩
    · rw [← List.reverse_reverse frames, hsplit]
      simp
    · exact lineOf_frame_none.mp (hinner f (List.mem_reverse.mp hf))
  · rintro ⟨outer, line, inner, rfl, hoff, hn, hinner⟩
    refine ⟨inner.reverse, (u.filename, line), outer.reverse, by simp, lineOf_frame.mpr ⟨⟨rfl, hoff⟩, hn⟩, ?_⟩
    exact fun f hf => lineOf_frame_none.mpr (hinner f (List.mem_reverse.mp hf))

theorem lineOf_eq_none {frames : List (String × Int)} : u.lineOf frames = none ↔ ∀ f ∈ frames, ¬ u.Holds f := by
  unfold lineOf
  rw [List.findSome?_eq_none_iff]
  simp only [List.mem_reverse]
  exact forall₂_congr fun f _ => lineOf_frame_none

end SnippetUnit

variable {ι : Type}

/-- What a chain of exceptions is attributed to. -/
inductive Attributed [BEq ι] (g : Raisings ι) (u : SnippetUnit) (chain : List ι) : Attribution ι → Prop
  /-- The first exception with a frame in the snippet is found, at its innermost such frame. -/
  | found {i : Nat} {e : ι} {n : Int} : chain[i]? = some e → u.InnermostAt (g.find e).frames n → 1 ≤ n →
      (∀ j x, j < i → chain[j]? = some x → ∀ f ∈ (g.find x).frames, ¬ u.Holds f) → Attributed g u chain ⟨e, some n⟩
  /-- No exception of the chain has a frame in the snippet. -/
  | unfound {e : ι} : chain.getLast? = some e → (∀ x ∈ chain, ∀ f ∈ (g.find x).frames, ¬ u.Holds f) →
      Attributed g u chain ⟨e, none⟩

/-- For all exceptions, with any frames and any links: there is exactly one chain, and the failure is attributed to what
is found on it. -/
theorem classify_attributed [DecidableEq ι] (g : Raisings ι) (u : SnippetUnit) (e : ι) :
    ∃ chain, g.Chained e chain ∧ (∀ other, g.Chained e other → other = chain) ∧
      Attributed g u chain (classify g u e) := by
  have hchain := g.chained_chain e
  refine ⟨g.chain e, hchain, fun other h => ?_, ?_⟩
  · exact (Raisings.chained_iff_follows.mp h).unique (Raisings.chained_iff_follows.mp hchain)
  · rw [classify]
    cases ha : (g.chain e).findSome? fun x =>
        (u.lineOf (g.find x).frames).map fun n => (⟨x, some n⟩ : Attribution ι) with
    | some a =>
      obtain ⟨before, x, after, hsplit, hx, hbefore⟩ := List.findSome?_eq_some_iff.mp ha
      obtain ⟨n, hn, rfl⟩ := Option.map_eq_some_iff.mp hx
      dsimp only
      have hinner := SnippetUnit.lineOf_eq_some.mp hn
      have hpos : 1 ≤ n := by
        obtain ⟨outer, line, inner, -, hoff, hn, -⟩ := hinner
        omega
      refine .found (i := before.length) ?_ hinner hpos fun j y hj hy => ?_
      · simp [hsplit]
      · rw [hsplit, List.getElem?_append_left hj] at hy
        exact SnippetUnit.lineOf_eq_none.mp (Option.map_eq_none_iff.mp (hbefore y (List.mem_of_getElem? hy)))
    | none =>
      have hnone : ∀ x ∈ g.chain e, ∀ f ∈ (g.find x).frames, ¬ u.Holds f := fun x hx =>
        SnippetUnit.lineOf_eq_none.mp (Option.map_eq_none_iff.mp (List.findSome?_eq_none_iff.mp ha x hx))
      obtain ⟨z, hz⟩ : ∃ z, (g.chain e).getLast? = some z := by
        cases hl : (g.chain e).getLast? with
        | some z => exact ⟨z, rfl⟩
        | none =>
          have hhead := hchain.head
          rw [List.getLast?_eq_none_iff.mp hl] at hhead
          simp at hhead
      simp only [hz, Option.getD_some]
      exact .unfound hz hnone

/-- Two exceptions that were raised from each other: the second one has two frames in the snippet, of which the inner
one counts. -/
example :
    classify ⟨[(0, ⟨[("host", 7)], some 1, none, true⟩),
      (1, ⟨[("unit", 9), ("unit", 4), ("unit", 2)], some 0, none, false⟩)]⟩ ⟨"u", "unit", [], 3⟩ 0 = ⟨1, some 1⟩ := by
  decide

end Evalbox
