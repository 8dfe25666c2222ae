import Mathlib.Tactic

/-!
# Computations that return

Total correctness of `Except` programs: `Returns x Q` says that `x` ends without an exception and
that its value meets `Q`.
-/

namespace Ccos.Reasoning

variable {ε α β : Type}

def Returns (x : Except ε α) (Q : α → Prop) : Prop := ∃ a, x = .ok a ∧ Q a

variable {x : Except ε α} {f : α → Except ε β} {P P' : α → Prop} {Q : β → Prop}

theorem Returns.ok {a : α} (h : P a) : Returns (.ok a : Except ε α) P := ⟨a, rfl, h⟩

theorem Returns.bind (hx : Returns x P) (hf : ∀ a, P a → Returns (f a) Q) :
    Returns (x >>= f) Q := by
  obtain ⟨a, rfl, ha⟩ := hx
  exact hf a ha

theorem Returns.mono (hx : Returns x P) (h : ∀ a, P a → P' a) : Returns x P' := by
  obtain ⟨a, rfl, ha⟩ := hx
  exact ⟨a, rfl, h a ha⟩

theorem Returns.ite {c : Prop} [Decidable c] {y : Except ε α} (hx : c → Returns x P)
    (hy : ¬ c → Returns y P) : Returns (if c then x else y) P := by
  split
  · exact hx ‹_›
  · exact hy ‹_›

theorem Returns.exists_ok (hx : Returns x P) : ∃ a, x = .ok a := by
  obtain ⟨a, ha, -⟩ := hx
  exact ⟨a, ha⟩

end Ccos.Reasoning
