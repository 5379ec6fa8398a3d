/-
Counting over the threads of a system. Each thread stands at a point of its
program, and a point has a share; the tally is the sum of the shares. A step moves
one thread, so a tally changes by what that thread gave and gives.
-/

import Mathlib.Algebra.BigOperators.Group.Finset.Piecewise
import Mathlib.Algebra.Order.BigOperators.Group.Finset
import Mathlib.Data.Fintype.BigOperators

namespace Cab403.Tally

variable {Thread Point : Type*} [Fintype Thread]

def tally (share : Thread → Point → Nat) (points : Thread → Point) : Nat :=
  ∑ thread, share thread (points thread)

section Moving

variable [DecidableEq Thread]

theorem tally_update (share : Thread → Point → Nat) (points : Thread → Point) (thread : Thread)
    (point : Point) :
    tally share (Function.update points thread point) + share thread (points thread) =
      tally share points + share thread point := by
  unfold tally
  rw [← Finset.add_sum_erase _ _ (Finset.mem_univ thread),
    ← Finset.add_sum_erase _ (fun other => share other (points other)) (Finset.mem_univ thread),
    Function.update_self]
  have others : ∑ other ∈ Finset.univ.erase thread,
      share other (Function.update points thread point other) =
      ∑ other ∈ Finset.univ.erase thread, share other (points other) := by
    refine Finset.sum_congr rfl fun other member => ?_
    rw [Function.update_of_ne (Finset.ne_of_mem_erase member)]
  rw [others]
  omega

/-- A move between points of one share leaves the tally as it is. -/
theorem tally_update_eq {share : Thread → Point → Nat} {points : Thread → Point} {thread : Thread}
    {point : Point} (same : share thread point = share thread (points thread)) :
    tally share (Function.update points thread point) = tally share points := by
  have moved := tally_update share points thread point
  omega

end Moving

theorem share_le_tally (share : Thread → Point → Nat) (points : Thread → Point)
    (thread : Thread) : share thread (points thread) ≤ tally share points := by
  have nonnegative : ∀ other ∈ Finset.univ, 0 ≤ share other (points other) :=
    fun _ _ => Nat.zero_le _
  exact Finset.single_le_sum nonnegative (Finset.mem_univ thread)

theorem tally_eq_zero {share : Thread → Point → Nat} {points : Thread → Point}
    (none_ : ∀ thread, share thread (points thread) = 0) : tally share points = 0 :=
  Finset.sum_eq_zero fun thread _ => none_ thread

end Cab403.Tally
