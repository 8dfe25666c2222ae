import Mathlib.Tactic
import Mathlib.Algebra.BigOperators.Intervals

/-!
# A line cut into blocks

Block `n` is `len n` long and begins at `start len n`.  A position lies in at most one block, and
positions are ordered by their block first and by their offset in it second.
-/

namespace Ccos.Reasoning.Blocks

open Finset

variable {len : Nat → Nat}

def start (len : Nat → Nat) (n : Nat) : Nat := ∑ k ∈ range n, len k

theorem start_succ (n : Nat) : start len (n + 1) = start len n + len n :=
  sum_range_succ len n

theorem start_mono {m n : Nat} (h : m ≤ n) : start len m ≤ start len n :=
  sum_le_sum_of_subset (range_mono h)

/-- Every offset inside a block is in front of the later blocks. -/
theorem start_add_lt {m n r : Nat} (hr : r < len m) (hmn : m < n) :
    start len m + r < start len n := by
  calc start len m + r < start len m + len m := by omega
    _ = start len (m + 1) := (start_succ m).symm
    _ ≤ start len n := start_mono hmn

/-- Blocks of at least `c` positions. -/
theorem mul_le_start {c : Nat} (hc : ∀ k, c ≤ len k) (n : Nat) : c * n ≤ start len n := by
  induction n with
  | zero => exact Nat.le_refl 0
  | succ n ih =>
    rw [start_succ, Nat.mul_succ]
    exact Nat.add_le_add ih (hc n)

theorem start_le_mul {c : Nat} (hc : ∀ k, len k ≤ c) (n : Nat) : start len n ≤ c * n := by
  induction n with
  | zero => exact Nat.le_refl 0
  | succ n ih =>
    rw [start_succ, Nat.mul_succ]
    exact Nat.add_le_add ih (hc n)

end Ccos.Reasoning.Blocks
