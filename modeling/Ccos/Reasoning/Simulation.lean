import Mathlib.Tactic
import Ccos.Reasoning.Run

/-!
# Forward simulation between two systems

A step of the fine system is one step of the coarse one, or none.  `label` says which: the events of
the coarse run are the labels of the fine run, in its order.
-/

namespace Ccos.Reasoning

variable {ε ε' σ τ ev ev' : Type}

structure Simulation (fine : System ε σ ev) (coarse : System ε' τ ev') (label : σ → ev → Option ev')
    (R : σ → τ → Prop) : Prop where
  init : ∀ S, fine.init S → ∃ s, coarse.init s ∧ R S s
  /-- a step without a label is invisible -/
  silent : ∀ S e S' s, Reachable coarse s → R S s → fine.guard S e → fine.step S e = .ok S' →
    label S e = none → R S' s
  visible : ∀ S e S' s e', Reachable coarse s → R S s → fine.guard S e → fine.step S e = .ok S' →
    label S e = some e' → ∃ s', coarse.guard s e' ∧ coarse.step s e' = .ok s' ∧ R S' s'

/-- Every run of the fine system is a run of the coarse one. -/
theorem Simulation.run {fine : System ε σ ev} {coarse : System ε' τ ev'}
    {label : σ → ev → Option ev'} {R : σ → τ → Prop} (hsim : Simulation fine coarse label R)
    {tr : List (σ × ev)} {S : σ} (hr : Run fine tr S) :
    ∃ tr' s, Run coarse tr' s ∧ tr'.map Prod.snd = tr.filterMap (fun p => label p.1 p.2) ∧
      R S s := by
  induction hr with
  | start hi =>
    obtain ⟨s, hs, hR⟩ := hsim.init _ hi
    exact ⟨[], s, .start hs, rfl, hR⟩
  | @step tr S S' e _ hg hstep ih =>
    obtain ⟨tr', s, hrun, hev, hR⟩ := ih
    cases hl : label S e with
    | none =>
      refine ⟨tr', s, hrun, ?_, hsim.silent S e S' s ⟨tr', hrun⟩ hR hg hstep hl⟩
      simp only [List.filterMap_cons, hl, hev]
    | some e' =>
      obtain ⟨s', hg', hstep', hR'⟩ := hsim.visible S e S' s e' ⟨tr', hrun⟩ hR hg hstep hl
      refine ⟨(s, e') :: tr', s', hrun.step hg' hstep', ?_, hR'⟩
      simp only [List.filterMap_cons, hl, List.map_cons, hev]

/-! ## Executing a list of events -/

/-- Execute `es` from `s`, up to an event that may not happen. -/
def System.exec (sys : System ε σ ev) [∀ s e, Decidable (sys.guard s e)] (s : σ) :
    List ev → Option σ
  | [] => some s
  | e :: es =>
    if sys.guard s e then
      match sys.step s e with
      | .ok s' => sys.exec s' es
      | .error _ => none
    else none

theorem Run.exec {sys : System ε σ ev} [∀ s e, Decidable (sys.guard s e)] {tr : List (σ × ev)}
    {s s' : σ} {es : List ev} (hr : Run sys tr s) (hx : sys.exec s es = some s') :
    ∃ tr', Run sys tr' s' := by
  induction es generalizing tr s with
  | nil =>
    rw [System.exec, Option.some.injEq] at hx
    exact ⟨tr, hx ▸ hr⟩
  | cons e es ih =>
    unfold System.exec at hx
    split at hx
    · rename_i hg
      split at hx
      · rename_i s₁ hstep
        exact ih (hr.step hg hstep) hx
      · cases hx
    · cases hx

/-! ## Commuting with a change of state -/

theorem map_bind {α β γ : Type} (x : Except ε α) (f : α → Except ε β) (g : β → γ) :
    (x >>= f).map g = x >>= fun a => (f a).map g := by
  cases x <;> rfl

theorem bind_map {α β γ : Type} (x : Except ε α) (g : α → β) (f : β → Except ε γ) :
    x.map g >>= f = x >>= fun a => f (g a) := by
  cases x <;> rfl

/-- A monadic fold commutes with a change `g` of its state that every step commutes with, as long as
the steps keep what that needs. -/
theorem foldlM_map {α : Type} {f : σ → α → Except ε σ} (g : σ → σ) (P : σ → Prop) {xs : List α}
    (hcomm : ∀ a ∈ xs, ∀ s, P s → f (g s) a = (f s a).map g)
    (hkeep : ∀ a ∈ xs, ∀ s s', P s → f s a = .ok s' → P s') {s : σ} (hs : P s) :
    xs.foldlM f (g s) = (xs.foldlM f s).map g := by
  induction xs generalizing s with
  | nil => rfl
  | cons a xs ih =>
    rw [List.foldlM_cons, List.foldlM_cons, hcomm a List.mem_cons_self s hs]
    cases hfa : f s a with
    | error e => rfl
    | ok s₁ =>
      exact ih (fun b hb => hcomm b (List.mem_cons_of_mem a hb))
        (fun b hb => hkeep b (List.mem_cons_of_mem a hb)) (hkeep a List.mem_cons_self s s₁ hs hfa)

end Ccos.Reasoning
