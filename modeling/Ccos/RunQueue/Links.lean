import Mathlib.Tactic
import Ccos.Kernel.Thread

/-!
# Links of the run queues

What every operation keeps about heads and `rq_next`, whether or not the links still form lists:
they point to non-idle slots or end the queue, and a queue only becomes non-empty by a push.
-/

namespace Ccos

open Reasoning

/-- A link: the end of a queue or a slot that may be queued. -/
def IsLink (cfg : Config) (t : Int) : Prop :=
  t < 0 ∨ ((cfg.maxHarts : Int) ≤ t ∧ t < cfg.threadMax)

structure LinksIn (cfg : Config) (r : RunQueues) : Prop where
  head : ∀ h, h < cfg.maxHarts → IsLink cfg (r.queues h).head
  next : ∀ t, (cfg.maxHarts : Int) ≤ t → t < cfg.threadMax → IsLink cfg (r.rqNext t)

variable {cfg : Config} {r r' : RunQueues}

theorem LinksIn.setNext (hl : LinksIn cfg r) {n : Int} (t : Int) (hn : IsLink cfg n) :
    LinksIn cfg (r.setNext t n) where
  head := hl.head
  next u h1 h2 := by
    rw [RunQueues.setNext_rqNext]
    split
    · exact hn
    · exact hl.next u h1 h2

theorem LinksIn.setOnRq (hl : LinksIn cfg r) (t : Int) (b : Bool) : LinksIn cfg (r.setOnRq t b) :=
  ⟨hl.head, hl.next⟩

theorem LinksIn.modQueue (hl : LinksIn cfg r) {h : Nat} {f : RunQueue → RunQueue}
    (hf : h < cfg.maxHarts → IsLink cfg (f (r.queues h)).head) : LinksIn cfg (r.modQueue h f) where
  head k hk := by
    rw [RunQueues.modQueue_queues]
    split
    · rename_i heq
      rw [heq]
      exact hf (heq ▸ hk)
    · exact hl.head k hk
  next := hl.next

theorem LinksIn.unlink (hl : LinksIn cfg r) (t : Int) : LinksIn cfg (r.unlink t) :=
  (hl.setOnRq t false).setNext t (.inl (by omega))

/-! ## Push -/

theorem rqPushTail_links (hl : LinksIn cfg r) {h : Nat} {t : Int}
    (hp : rqPushTail cfg r h t = .ok r') : LinksIn cfg r' := by
  unfold rqPushTail at hp
  by_cases h1 : cfg.maxHarts ≤ h
  · rw [if_pos h1, Except.ok.injEq] at hp
    exact hp ▸ hl
  by_cases h2 : t < 0 ∨ (cfg.threadMax : Int) ≤ t
  · rw [if_neg h1, if_pos h2, Except.ok.injEq] at hp
    exact hp ▸ hl
  by_cases h3 : t < cfg.maxHarts
  · rw [if_neg h1, if_neg h2, if_pos h3, Except.ok.injEq] at hp
    exact hp ▸ hl
  by_cases h4 : r.onRq t = true
  · rw [if_neg h1, if_neg h2, if_neg h3, if_pos h4] at hp
    cases hp
  have hlink : IsLink cfg t := .inr (by omega)
  have hend : IsLink cfg (-1) := .inl (by omega)
  rw [if_neg h1, if_neg h2, if_neg h3, if_neg h4] at hp
  dsimp only at hp
  rw [Except.ok.injEq] at hp
  subst hp
  by_cases ht : (r.queues h).tail = -1
  · rw [if_pos ht]
    have hpush := (hl.setNext t hend).modQueue (h := h)
      (f := fun q => { q with head := t, tail := t }) fun _ => hlink
    exact (hpush.setOnRq t true).modQueue fun hh => hpush.head h hh
  · rw [if_neg ht]
    have hnext := (hl.setNext t hend).setNext (r.queues h).tail hlink
    have hpush := hnext.modQueue (h := h) (f := fun q => { q with tail := t })
      fun hh => hnext.head h hh
    exact (hpush.setOnRq t true).modQueue fun hh => hpush.head h hh

/-- A push changes no other hart's queue. -/
theorem rqPushTail_queues_ne {h k : Nat} {t : Int} (hp : rqPushTail cfg r h t = .ok r')
    (hk : k ≠ h) : r'.queues k = r.queues k := by
  unfold rqPushTail at hp
  split_ifs at hp <;> simp only [Except.ok.injEq] at hp
  · rw [hp]
  · rw [hp]
  · rw [hp]
  · subst hp
    split <;> simp [hk]

/-! ## Pop and pick -/

theorem rqPopHead_cases (h : Nat) :
    (rqPopHead cfg r h = (-1, r) ∧ (h < cfg.maxHarts → (r.queues h).head < 0)) ∨
    (h < cfg.maxHarts ∧ 0 ≤ (r.queues h).head ∧
      (rqPopHead cfg r h).1 = (r.queues h).head ∧
      (∀ k, k ≠ h → (rqPopHead cfg r h).2.queues k = r.queues k) ∧
      (LinksIn cfg r → LinksIn cfg (rqPopHead cfg r h).2)) := by
  unfold rqPopHead
  by_cases h1 : cfg.maxHarts ≤ h
  · rw [if_pos h1]
    exact .inl ⟨rfl, fun hh => by omega⟩
  by_cases h2 : (r.queues h).head < 0
  · rw [if_neg h1]
    dsimp only
    rw [if_pos h2]
    exact .inl ⟨rfl, fun _ => h2⟩
  · rw [if_neg h1]
    dsimp only
    rw [if_neg h2]
    refine .inr ⟨by omega, by omega, rfl, ?_, ?_⟩
    · intro k hk
      simp [RunQueues.unlink, hk]
    · intro hl
      have hhead := hl.head h (by omega)
      have hnext : IsLink cfg (r.rqNext (r.queues h).head) := by
        rcases hhead with hneg | hin
        · omega
        · exact hl.next _ hin.1 hin.2
      exact (hl.modQueue fun _ => hnext).unlink _

/-- What the pick loop of `schedule` returns. -/
structure Picked (cfg : Config) (threads : Int → Thread) (h : Nat) (idle next : Int)
    (r r' : RunQueues) : Prop where
  queues_ne : ∀ k, k ≠ h → r'.queues k = r.queues k
  links : LinksIn cfg r → LinksIn cfg r'
  next : (next = idle ∧ (h < cfg.maxHarts → (r'.queues h).head < 0)) ∨
    (0 ≤ next ∧ (threads next).state = .runnable ∧ (LinksIn cfg r → IsLink cfg next))

theorem schedulePick_picked {threads : Int → Thread} {h : Nat} {idle next : Int} {fuel : Nat}
    (hp : schedulePick cfg threads h idle fuel r = .ok (next, r')) :
    Picked cfg threads h idle next r r' := by
  induction fuel generalizing r with
  | zero => cases hp
  | succ fuel ih =>
    unfold schedulePick at hp
    dsimp only at hp
    obtain ⟨hpop, hempty⟩ | ⟨hh, hhead, hpop, hne, hlinks⟩ := @rqPopHead_cases cfg r h
    · rw [hpop] at hp
      simp only [Int.reduceNeg, Int.reduceLT, if_true, Except.ok.injEq, Prod.mk.injEq] at hp
      obtain ⟨rfl, rfl⟩ := hp
      exact ⟨fun _ _ => rfl, id, .inl ⟨rfl, hempty⟩⟩
    · have hnot : ¬ (rqPopHead cfg r h).1 < 0 := by omega
      rw [if_neg hnot] at hp
      by_cases hrun : (threads (rqPopHead cfg r h).1).state = .runnable
      · rw [if_pos hrun, Except.ok.injEq, Prod.mk.injEq] at hp
        obtain ⟨rfl, rfl⟩ := hp
        refine ⟨hne, hlinks, .inr ⟨by omega, hrun, fun hl => ?_⟩⟩
        rw [hpop]
        exact hl.head h hh
      · rw [if_neg hrun] at hp
        have hrest := ih hp
        refine ⟨fun k hk => (hrest.queues_ne k hk).trans (hne k hk),
          fun hl => hrest.links (hlinks hl), ?_⟩
        rcases hrest.next with hidle | ⟨h0, hst, hlink⟩
        · exact .inl hidle
        · exact .inr ⟨h0, hst, fun hl => hlink (hlinks hl)⟩

/-! ## Removal -/

theorem rqRemoveLoop_links {h : Nat} {t : Int} {fuel : Nat} {prev cur ret : Int}
    (hl : LinksIn cfg r) (hcur : IsLink cfg cur)
    (hp : rqRemoveLoop h t fuel r prev cur = .ok (ret, r')) :
    LinksIn cfg r' ∧ ∀ k, k ≠ h → r'.queues k = r.queues k := by
  induction fuel generalizing prev cur with
  | zero => cases hp
  | succ fuel ih =>
    unfold rqRemoveLoop at hp
    by_cases h1 : cur < 0
    · rw [if_pos h1, Except.ok.injEq, Prod.mk.injEq] at hp
      rw [← hp.2]
      exact ⟨hl, fun _ _ => rfl⟩
    have hnext : IsLink cfg (r.rqNext cur) := by
      rcases hcur with hneg | hin
      · omega
      · exact hl.next cur hin.1 hin.2
    by_cases h2 : cur = t
    · rw [if_neg h1, if_pos h2] at hp
      dsimp only at hp
      rw [Except.ok.injEq, Prod.mk.injEq] at hp
      rw [← hp.2]
      by_cases hprev : prev < 0
      · rw [if_pos hprev]
        have hcut := hl.modQueue (h := h) (f := fun q => { q with head := r.rqNext cur })
          fun _ => hnext
        refine ⟨(hcut.modQueue fun hh => hcut.head h hh).unlink _, fun k hk => ?_⟩
        simp [RunQueues.unlink, hk]
      · rw [if_neg hprev]
        have hcut := hl.setNext prev hnext
        refine ⟨(hcut.modQueue fun hh => hcut.head h hh).unlink _, fun k hk => ?_⟩
        simp [RunQueues.unlink, hk]
    · rw [if_neg h1, if_neg h2] at hp
      exact ih hnext hp

theorem rqRemove_links {h : Nat} {t ret : Int} (hl : LinksIn cfg r)
    (hp : rqRemove cfg r h t = .ok (ret, r')) :
    LinksIn cfg r' ∧ ∀ k, k < cfg.maxHarts → (r.queues k).head < 0 → r'.queues k = r.queues k := by
  unfold rqRemove at hp
  by_cases h1 : cfg.maxHarts ≤ h
  · rw [if_pos h1, Except.ok.injEq, Prod.mk.injEq] at hp
    rw [← hp.2]
    exact ⟨hl, fun _ _ _ => rfl⟩
  by_cases h2 : t < 0 ∨ (cfg.threadMax : Int) ≤ t
  · rw [if_neg h1, if_pos h2, Except.ok.injEq, Prod.mk.injEq] at hp
    rw [← hp.2]
    exact ⟨hl, fun _ _ _ => rfl⟩
  rw [if_neg h1, if_neg h2] at hp
  obtain ⟨hlinks, hne⟩ := rqRemoveLoop_links hl (hl.head h (by omega)) hp
  refine ⟨hlinks, fun k hk hempty => ?_⟩
  by_cases hkh : k = h
  · -- an empty queue is left at the first test of the walk
    subst hkh
    rw [rqRemoveLoop, if_pos hempty, Except.ok.injEq, Prod.mk.injEq] at hp
    rw [← hp.2]
  · exact hne k hkh

theorem rqRemoveAnyLoop_links {t ret : Int} {n h : Nat} (hl : LinksIn cfg r)
    (hp : rqRemoveAnyLoop cfg t n h r = .ok (ret, r')) :
    LinksIn cfg r' ∧ ∀ k, k < cfg.maxHarts → (r.queues k).head < 0 → r'.queues k = r.queues k := by
  induction n generalizing h r with
  | zero =>
    simp only [rqRemoveAnyLoop, Except.ok.injEq, Prod.mk.injEq] at hp
    rw [← hp.2]
    exact ⟨hl, fun _ _ _ => rfl⟩
  | succ n ih =>
    simp only [rqRemoveAnyLoop, bind_eq_ok] at hp
    obtain ⟨⟨ret₁, r₁⟩, hrem, hp⟩ := hp
    obtain ⟨hl₁, hkeep⟩ := rqRemove_links hl hrem
    dsimp only at hp
    by_cases hret : ret₁ = 0
    · rw [if_pos hret, Except.ok.injEq, Prod.mk.injEq] at hp
      rw [← hp.2]
      exact ⟨hl₁, hkeep⟩
    · rw [if_neg hret] at hp
      obtain ⟨hl₂, hkeep₂⟩ := ih hl₁ hp
      refine ⟨hl₂, fun k hk hempty => ?_⟩
      have hk₁ := hkeep k hk hempty
      rw [hkeep₂ k hk (by rw [hk₁]; exact hempty), hk₁]

/-- `rq_remove_any` leaves every empty queue alone. -/
theorem rqRemoveAny_links {t ret : Int} (hl : LinksIn cfg r)
    (hp : rqRemoveAny cfg r t = .ok (ret, r')) :
    LinksIn cfg r' ∧ ∀ k, k < cfg.maxHarts → (r.queues k).head < 0 → r'.queues k = r.queues k := by
  unfold rqRemoveAny at hp
  by_cases h1 : t < 0 ∨ (cfg.threadMax : Int) ≤ t
  · rw [if_pos h1, Except.ok.injEq, Prod.mk.injEq] at hp
    rw [← hp.2]
    exact ⟨hl, fun _ _ _ => rfl⟩
  · rw [if_neg h1] at hp
    exact rqRemoveAnyLoop_links hl hp

end Ccos
