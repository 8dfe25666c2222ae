import Mathlib.Tactic

/-!
# Singly linked segments

`Segment next a xs b`: following `next` from `a` visits the nodes `xs` in order and arrives at `b`.
A list ended by a sentinel is the case where `b` is the sentinel.  The lemmas say what one write to
`next` does to a segment; together they cover appending a node and unlinking one anywhere.
-/

namespace Ccos.Reasoning

variable {α : Type}

def Segment (next : α → α) : α → List α → α → Prop
  | a, [], b => a = b
  | a, x :: xs, b => a = x ∧ Segment next (next x) xs b

@[simp] theorem segment_nil {next : α → α} {a b : α} : Segment next a [] b ↔ a = b := Iff.rfl

@[simp] theorem segment_cons {next : α → α} {a x b : α} {xs : List α} :
    Segment next a (x :: xs) b ↔ a = x ∧ Segment next (next x) xs b := Iff.rfl

theorem segment_append {next : α → α} {a c : α} {xs ys : List α} :
    Segment next a (xs ++ ys) c ↔ ∃ b, Segment next a xs b ∧ Segment next b ys c := by
  induction xs generalizing a with
  | nil => simp
  | cons x xs ih => simp only [List.cons_append, segment_cons, ih, and_assoc, exists_and_left]

/-- A segment only depends on the links of its own nodes. -/
theorem Segment.congr {next next' : α → α} {a b : α} {xs : List α}
    (h : Segment next a xs b) (heq : ∀ x ∈ xs, next' x = next x) : Segment next' a xs b := by
  induction xs generalizing a with
  | nil => exact h
  | cons x xs ih =>
    refine ⟨h.1, ?_⟩
    rw [heq x List.mem_cons_self]
    exact ih h.2 fun y hy => heq y (List.mem_cons_of_mem x hy)

/-- The nodes of a segment are determined by its two ends, if the end is not a node. -/
theorem Segment.unique {next : α → α} {a b : α} {xs ys : List α} (hx : Segment next a xs b)
    (hy : Segment next a ys b) (hxb : b ∉ xs) (hyb : b ∉ ys) : xs = ys := by
  induction xs generalizing a ys with
  | nil =>
    cases ys with
    | nil => rfl
    | cons y ys =>
      have heq : b = y := hx.symm.trans hy.1
      exact absurd (heq ▸ List.mem_cons_self) hyb
  | cons x xs ih =>
    cases ys with
    | nil =>
      have heq : b = x := hy.symm.trans hx.1
      exact absurd (heq ▸ List.mem_cons_self) hxb
    | cons y ys =>
      obtain rfl : x = y := hx.1.symm.trans hy.1
      rw [List.mem_cons, not_or] at hxb hyb
      rw [ih hx.2 hy.2 hxb.2 hyb.2]

variable [DecidableEq α]

/-- Links outside a segment can be rewritten freely. -/
theorem Segment.frame {next : α → α} {a b : α} {xs : List α} (h : Segment next a xs b)
    {t n : α} (ht : t ∉ xs) : Segment (fun u => if u = t then n else next u) a xs b := by
  apply h.congr
  intro x hx
  have hne : x ≠ t := fun heq => ht (heq ▸ hx)
  exact if_neg hne

/-- Redirecting the last node of a segment moves its end. -/
theorem Segment.redirect {next : α → α} {a b : α} {xs : List α} {l n : α}
    (h : Segment next a (xs ++ [l]) b) (hl : l ∉ xs) :
    Segment (fun u => if u = l then n else next u) a (xs ++ [l]) n := by
  obtain ⟨c, hxs, hc⟩ := segment_append.mp h
  refine segment_append.mpr ⟨c, hxs.frame hl, ?_⟩
  exact ⟨hc.1, if_pos rfl⟩

end Ccos.Reasoning
