import Mathlib.Tactic

/-!
# Ring buffers

An array of `cap` cells indexed modulo `cap`.  `slice cap buf start n` are the `n` cells from
`start` on; a queue kept in such an array is a slice whose ends move.
-/

namespace Ccos.Reasoning.Ring

variable {α : Type} {cap : Nat}

def slice (cap : Nat) (buf : Nat → α) (start n : Nat) : List α :=
  (List.range n).map fun i => buf ((start + i) % cap)

@[simp] theorem length_slice (buf : Nat → α) (start n : Nat) :
    (slice cap buf start n).length = n := by
  simp [slice]

@[simp] theorem slice_zero (buf : Nat → α) (start : Nat) : slice cap buf start 0 = [] := rfl

theorem slice_append (buf : Nat → α) (start n m : Nat) :
    slice cap buf start (n + m) = slice cap buf start n ++ slice cap buf (start + n) m := by
  unfold slice
  rw [List.range_add, List.map_append, List.map_map]
  congr 1
  apply List.map_congr_left
  intro i _
  show buf ((start + (n + i)) % cap) = buf ((start + n + i) % cap)
  rw [Nat.add_assoc]

/-- The first cell of a slice. -/
theorem slice_succ (buf : Nat → α) (start n : Nat) :
    slice cap buf start (n + 1) = buf (start % cap) :: slice cap buf (start + 1) n := by
  rw [Nat.add_comm n 1, slice_append]
  rfl

/-- Only the residue of the start matters. -/
theorem slice_congr_start (buf : Nat → α) {start start' : Nat} (n : Nat)
    (h : start % cap = start' % cap) : slice cap buf start n = slice cap buf start' n := by
  apply List.map_congr_left
  intro i _
  show buf ((start + i) % cap) = buf ((start' + i) % cap)
  rw [Nat.add_mod, h, ← Nat.add_mod]

theorem take_slice (buf : Nat → α) (start n k : Nat) :
    (slice cap buf start n).take k = slice cap buf start (min k n) := by
  unfold slice
  rw [← List.map_take, List.take_range]

theorem drop_slice (buf : Nat → α) (start n k : Nat) (hk : k ≤ n) :
    (slice cap buf start n).drop k = slice cap buf (start + k) (n - k) := by
  have hsplit : slice cap buf start n =
      slice cap buf start k ++ slice cap buf (start + k) (n - k) := by
    rw [← slice_append]
    congr 1
    omega
  rw [hsplit]
  exact List.drop_left' (length_slice buf start k)

/-- Offsets below the capacity name different cells. -/
theorem offset_inj {a x y : Nat} (hx : x < cap) (hy : y < cap)
    (h : (a + x) % cap = (a + y) % cap) : x = y := by
  have hmod : a + x ≡ a + y [MOD cap] := h
  exact (Nat.ModEq.add_left_cancel' a hmod).eq_of_lt_of_lt hx hy

/-! ## Stores -/

/-- The cells from `start` on receive `xs`, one after the other. -/
def store (cap : Nat) (start : Nat) : List α → (Nat → α) → Nat → α
  | [], buf => buf
  | x :: xs, buf => store cap (start + 1) xs fun k => if k = start % cap then x else buf k

/-- A cell that is not written keeps its content. -/
theorem store_other (xs : List α) (start : Nat) (buf : Nat → α) {k : Nat}
    (h : ∀ i < xs.length, k ≠ (start + i) % cap) : store cap start xs buf k = buf k := by
  induction xs generalizing start buf with
  | nil => rfl
  | cons x xs ih =>
    rw [store, ih]
    · exact if_neg (h 0 (by simp))
    · intro i hi
      have hne := h (i + 1) (by simpa using hi)
      rwa [show start + (i + 1) = start + 1 + i by omega] at hne

/-- A slice that the store does not touch. -/
theorem slice_store_other (xs : List α) (start : Nat) (buf : Nat → α) {start' n : Nat}
    (h : ∀ i < n, ∀ j < xs.length, (start' + i) % cap ≠ (start + j) % cap) :
    slice cap (store cap start xs buf) start' n = slice cap buf start' n := by
  apply List.map_congr_left
  intro i hi
  exact store_other xs start buf (h i (List.mem_range.mp hi))

/-- What was stored is there, if it fits the ring. -/
theorem slice_store_self (xs : List α) (start : Nat) (buf : Nat → α) (hfit : xs.length ≤ cap) :
    slice cap (store cap start xs buf) start xs.length = xs := by
  induction xs generalizing start buf with
  | nil => rfl
  | cons x xs ih =>
    rw [List.length_cons] at hfit ⊢
    rw [slice_succ]
    have hrest := ih (start + 1) (fun k => if k = start % cap then x else buf k) (by omega)
    -- the later cells of the block do not come round to the first one
    have hfirst : store cap start (x :: xs) buf (start % cap) = x := by
      rw [store, store_other]
      · exact if_pos rfl
      · intro i hi heq
        have hz : (start + 0) % cap = (start + (i + 1)) % cap := by
          rw [Nat.add_zero, heq]
          congr 1
          omega
        have := offset_inj (by omega) (by omega) hz
        omega
    rw [hfirst]
    exact congrArg (x :: ·) hrest

end Ccos.Reasoning.Ring
