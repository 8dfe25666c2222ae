import Mathlib.Tactic

/-!
# Copying in place, cell by cell

Cell `s i` is copied to cell `d i`, for `i = 0, 1, …` or in the other direction.  The ranges may
overlap: the copy is right when no cell is read after it was written.
-/

namespace Ccos.Reasoning.Overlap

variable {α β : Type} [DecidableEq α] (d s : Nat → α)

def copyCell (m : α → β) (i : Nat) : α → β :=
  Function.update m (d i) (m (s i))

/-- The cells `i, …, i + n - 1`, first to last. -/
def copyUp (m : α → β) (i : Nat) : Nat → α → β
  | 0 => m
  | n + 1 => copyUp (copyCell d s m i) (i + 1) n

/-- The cells `n - 1, …, 0`, last to first. -/
def copyDown (m : α → β) : Nat → α → β
  | 0 => m
  | n + 1 => copyDown (copyCell d s m n) n

variable {d s} {m : α → β} {n : Nat}

theorem copyCell_self (i : Nat) : copyCell d s m i (d i) = m (s i) :=
  Function.update_self _ _ _

theorem copyCell_of_ne {i : Nat} {a : α} (ha : a ≠ d i) : copyCell d s m i a = m a :=
  Function.update_of_ne ha _ _

theorem copyUp_outside {i : Nat} {a : α} (ha : ∀ j, i ≤ j → j < i + n → a ≠ d j) :
    copyUp d s m i n a = m a := by
  induction n generalizing m i with
  | zero => rfl
  | succ n ih =>
    show copyUp d s (copyCell d s m i) (i + 1) n a = m a
    rw [ih fun j h1 h2 => ha j (by omega) (by omega)]
    exact copyCell_of_ne (ha i (by omega) (by omega))

theorem copyDown_outside {a : α} (ha : ∀ j, j < n → a ≠ d j) : copyDown d s m n a = m a := by
  induction n generalizing m with
  | zero => rfl
  | succ n ih =>
    show copyDown d s (copyCell d s m n) n a = m a
    rw [ih fun j hj => ha j (by omega)]
    exact copyCell_of_ne (ha n (by omega))

/-- Upwards, cell `i` is written before the cells behind it are read. -/
theorem copyUp_inside {i j : Nat} (hj : i ≤ j) (hjn : j < i + n)
    (hd : ∀ j k, i ≤ j → j < k → k < i + n → d j ≠ d k)
    (hs : ∀ j k, i ≤ j → j < k → k < i + n → s k ≠ d j) :
    copyUp d s m i n (d j) = m (s j) := by
  induction n generalizing m i with
  | zero => omega
  | succ n ih =>
    show copyUp d s (copyCell d s m i) (i + 1) n (d j) = m (s j)
    rcases Nat.eq_or_lt_of_le hj with heq | hlt
    · -- cell `i` is written now, and by no later step
      subst heq
      rw [copyUp_outside fun k h1 h2 => hd i k (by omega) (by omega) (by omega)]
      exact copyCell_self i
    · rw [ih (by omega) (by omega) (fun j k h1 h2 h3 => hd j k (by omega) h2 (by omega))
        (fun j k h1 h2 h3 => hs j k (by omega) h2 (by omega))]
      exact copyCell_of_ne (hs i j (by omega) hlt hjn)

/-- Downwards, cell `n - 1` is written before the cells in front of it are read. -/
theorem copyDown_inside {j : Nat} (hjn : j < n) (hd : ∀ j k, j < k → k < n → d j ≠ d k)
    (hs : ∀ j k, j < k → k < n → s j ≠ d k) : copyDown d s m n (d j) = m (s j) := by
  induction n generalizing m with
  | zero => omega
  | succ n ih =>
    show copyDown d s (copyCell d s m n) n (d j) = m (s j)
    rcases Nat.eq_or_lt_of_le (Nat.le_of_lt_succ hjn) with heq | hlt
    · subst heq
      rw [copyDown_outside fun k hk => (hd k j hk (by omega)).symm]
      exact copyCell_self j
    · rw [ih hlt (fun j k h1 h2 => hd j k h1 (by omega)) (fun j k h1 h2 => hs j k h1 (by omega))]
      exact copyCell_of_ne (hs j n hlt (by omega))

end Ccos.Reasoning.Overlap
