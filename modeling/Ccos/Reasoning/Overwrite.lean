import Mathlib.Tactic

/-!
# Writing a text over a buffer

`overwrite buf text` is the buffer after the cells from 0 on have received `text`.  A writer with
room for `room` cells turns `buf` into `overwrite buf (text.take room)`, whether it stops when it is
full or only drops what does not fit.
-/

namespace Ccos.Reasoning.Overwrite

variable {α : Type}

def overwrite (buf : Nat → α) (text : List α) : Nat → α :=
  fun i => (text[i]?).getD (buf i)

@[simp] theorem overwrite_nil (buf : Nat → α) : overwrite buf [] = buf := rfl

theorem overwrite_inside (buf : Nat → α) {text : List α} {i : Nat} (hi : i < text.length) :
    overwrite buf text i = text.get ⟨i, hi⟩ := by
  unfold overwrite
  rw [List.getElem?_eq_getElem hi]
  rfl

theorem overwrite_outside (buf : Nat → α) {text : List α} {i : Nat} (hi : text.length ≤ i) :
    overwrite buf text i = buf i := by
  unfold overwrite
  rw [List.getElem?_eq_none hi]
  rfl

/-- Writing the cell behind the text makes the text one longer. -/
theorem update_overwrite (buf : Nat → α) (text : List α) (c : α) :
    Function.update (overwrite buf text) text.length c = overwrite buf (text ++ [c]) := by
  funext i
  rcases Nat.lt_trichotomy i text.length with hlt | heq | hgt
  · rw [Function.update_of_ne hlt.ne]
    unfold overwrite
    rw [List.getElem?_append_left hlt]
  · subst heq
    rw [Function.update_self]
    unfold overwrite
    rw [List.getElem?_concat_length]
    rfl
  · rw [Function.update_of_ne hgt.ne', overwrite_outside _ hgt.le, overwrite_outside]
    rw [List.length_append]
    exact hgt

/-- What a reader of the first cells finds. -/
theorem map_range_overwrite (buf : Nat → α) {text : List α} {n : Nat} (hn : n ≤ text.length) :
    (List.range n).map (overwrite buf text) = text.take n := by
  apply List.ext_getElem
  · rw [List.length_map, List.length_range, List.length_take, Nat.min_eq_left hn]
  · intro i h₁ h₂
    rw [List.length_map, List.length_range] at h₁
    rw [List.getElem_map, List.getElem_range, List.getElem_take,
      overwrite_inside buf (Nat.lt_of_lt_of_le h₁ hn)]
    rfl

/-- A write behind the cells that are read. -/
theorem map_range_update (f : Nat → α) (n : Nat) (c : α) :
    (List.range n).map (Function.update f n c) = (List.range n).map f := by
  apply List.map_congr_left
  intro i hi
  exact Function.update_of_ne (List.mem_range.mp hi).ne _ _

/-- One more character for a writer with room for `room` of them: it lands in the cell behind the
text, or there is no room left for it. -/
theorem overwrite_take_concat (buf : Nat → α) (text : List α) (c : α) (room : Nat) :
    overwrite buf ((text ++ [c]).take room) =
      if text.length < room then
        Function.update (overwrite buf (text.take room)) text.length c
      else overwrite buf (text.take room) := by
  split
  · rename_i hroom
    rw [List.take_of_length_le hroom.le, update_overwrite, List.take_of_length_le]
    rw [List.length_append]
    exact hroom
  · rename_i hfull
    rw [List.take_append_of_le_length (Nat.le_of_not_lt hfull)]

end Ccos.Reasoning.Overwrite
