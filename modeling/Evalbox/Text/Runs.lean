/-!
# Sets of code points as runs

A set of code points is listed as alternating numbers: how many code points to skip, then how many
belong to the set, counted on from there. `inRuns` decides membership by walking the list.
-/

namespace Evalbox.Text

/-- Whether `n` lies in the set that the alternating skip and take counts describe. -/
def inRuns : List Nat → Nat → Bool
  | skip :: take :: rest, n =>
    if n < skip then false
    else if n < skip + take then true
    else inRuns rest (n - skip - take)
  | _, _ => false

/-- One run holds the code points from `skip` up to, not including, `skip + take`. -/
theorem inRuns_single (skip take n : Nat) :
    inRuns [skip, take] n = true ↔ skip ≤ n ∧ n < skip + take := by
  simp only [inRuns]
  split
  · simp; omega
  · split <;> simp <;> omega

end Evalbox.Text
