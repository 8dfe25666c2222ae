import Mathlib.Tactic
import Ccos.RunQueue.Repr
import Ccos.Kernel.Trace

/-!
# `runqueue.c` refines lists

The operations of `runqueue.c` against one list per hart.  `rq_snapshot` is the only one that looks
at its arguments before the queue: with no room it reports an error, whatever the queue holds.
-/

namespace Ccos

open Reasoning

variable {cfg : Config} {r : RunQueues} {q : Nat → List Int}

/-! ## Walks that only read -/

/-- The walk of `rq_snapshot` visits the nodes of the segment until the room is used up. -/
theorem rqWalk_eq {cur : Int} {xs : List Int} (hseg : Segment r.rqNext cur xs (-1))
    (hpos : ∀ x ∈ xs, 0 ≤ x) (n : Nat) : rqWalk r n cur = xs.take n := by
  induction xs generalizing n cur with
  | nil =>
    rw [segment_nil] at hseg
    cases n with
    | zero => rfl
    | succ n => simp [rqWalk, hseg]
  | cons x xs ih =>
    obtain ⟨rfl, hrest⟩ := hseg
    have h0 : ¬ cur < 0 := by
      have := hpos cur List.mem_cons_self
      omega
    cases n with
    | zero => rfl
    | succ n =>
      rw [rqWalk, if_neg h0, List.take_succ_cons]
      rw [ih hrest (fun y hy => hpos y (List.mem_cons_of_mem _ hy)) n]

/-- `rq_snapshot` copies a prefix of the list and adds the sentinel if there is room for it. -/
theorem rqSnapshot_spec (hr : RqRepr cfg r q) {h max : Nat} (hh : h < cfg.maxHarts)
    (hmax : 0 < max) :
    rqSnapshot cfg r h max =
      (((min (q h).length max : Nat) : Int),
        if (q h).length < max then q h ++ [-1] else (q h).take max) := by
  have hpos : ∀ x ∈ q h, 0 ≤ x := by
    intro x hx
    have := hr.range h hh x hx
    omega
  have hnot : ¬ cfg.maxHarts ≤ h := by omega
  have hmax' : ¬ max = 0 := by omega
  unfold rqSnapshot
  rw [if_neg hnot, if_neg hmax', rqWalk_eq (hr.seg h hh) hpos max]
  simp only [List.length_take]
  by_cases hlt : (q h).length < max
  · have hmin : min max (q h).length = (q h).length := by omega
    have hmin' : min (q h).length max = (q h).length := by omega
    rw [hmin, hmin', if_pos hlt, if_pos hlt, List.take_of_length_le (by omega)]
  · have hmin : min max (q h).length = max := by omega
    have hmin' : min (q h).length max = max := by omega
    rw [hmin, hmin', if_neg hlt, if_neg (lt_irrefl max)]

/-- `rq_remove_any` of a tid that no queue holds changes nothing. -/
theorem rqRemoveAny_absent (hr : RqRepr cfg r q) {t : Int}
    (ht : ∀ h, h < cfg.maxHarts → t ∉ q h) : rqRemoveAny cfg r t = .ok (-1, r) := by
  have hloop : ∀ n k : Nat, k + n ≤ cfg.maxHarts → rqRemoveAnyLoop cfg t n k r = .ok (-1, r) := by
    intro n
    induction n with
    | zero => exact fun k _ => rfl
    | succ n ih =>
      intro k hk
      have hrem := rqRemove_not_mem hr (by omega : k < cfg.maxHarts) (ht k (by omega))
      simp only [rqRemoveAnyLoop, hrem, ok_bind]
      exact ih (k + 1) (by omega)
  unfold rqRemoveAny
  split
  · rfl
  · exact hloop cfg.maxHarts 0 (by omega)

/-! ## The refinement -/

/-- In a state that represents the lists `q`, every operation does to the lists what its name says,
leaves the lists of the other harts alone, and returns. -/
theorem runqueue_refines_lists (cfg : Config) {r : RunQueues} {q : Nat → List Int}
    (hr : RqRepr cfg r q) :
    (∀ (h : Nat) (t : Int), h < cfg.maxHarts → (cfg.maxHarts : Int) ≤ t → t < cfg.threadMax →
      r.onRq t = false →
      ∃ r', rqPushTail cfg r h t = .ok r' ∧ RqRepr cfg r' (setQueue q h (q h ++ [t]))) ∧
    (∀ h : Nat, h < cfg.maxHarts → q h = [] → rqPopHead cfg r h = (-1, r)) ∧
    (∀ (h : Nat) (t : Int) (ts : List Int), h < cfg.maxHarts → q h = t :: ts →
      ∃ r', rqPopHead cfg r h = (t, r') ∧ RqRepr cfg r' (setQueue q h ts)) ∧
    (∀ (h : Nat) (t : Int), h < cfg.maxHarts →
      (t ∈ q h → ∃ r', rqRemove cfg r h t = .ok (0, r') ∧
        RqRepr cfg r' (setQueue q h ((q h).erase t))) ∧
      (t ∉ q h → rqRemove cfg r h t = .ok (-1, r))) ∧
    (∀ t : Int,
      (∀ h : Nat, h < cfg.maxHarts → t ∈ q h → ∃ r', rqRemoveAny cfg r t = .ok (h, r') ∧
        RqRepr cfg r' (setQueue q h ((q h).erase t))) ∧
      ((∀ h : Nat, h < cfg.maxHarts → t ∉ q h) → rqRemoveAny cfg r t = .ok (-1, r))) ∧
    (∀ h : Nat, h < cfg.maxHarts → rqLen cfg r h = (q h).length) ∧
    (∀ h max : Nat, h < cfg.maxHarts → 0 < max →
      (rqSnapshot cfg r h max).1 = (min (q h).length max : Nat) ∧
      (rqSnapshot cfg r h max).2.take (min (q h).length max) = (q h).take (min (q h).length max)) ∧
    (∀ h : Nat, h < cfg.maxHarts → rqSnapshot cfg r h 0 = (-1, [])) := by
  refine ⟨?_, ?_, ?_, ?_, ?_, ?_, ?_, ?_⟩
  · intro h t hh h1 h2 ht
    obtain ⟨r', hpush, hrepr, -⟩ := rqPushTail_spec hr hh h1 h2 ht
    exact ⟨r', hpush, hrepr⟩
  · exact fun h hh hq => rqPopHead_nil hr hh hq
  · intro h t ts hh hq
    obtain ⟨r', hpop, hrepr, -⟩ := rqPopHead_cons hr hh hq
    exact ⟨r', hpop, hrepr⟩
  · intro h t hh
    refine ⟨fun ht => ?_, fun ht => rqRemove_not_mem hr hh ht⟩
    obtain ⟨r', hrem, hrepr, -⟩ := rqRemove_mem hr hh ht
    exact ⟨r', hrem, hrepr⟩
  · intro t
    refine ⟨fun h hh ht => ?_, fun ht => rqRemoveAny_absent hr ht⟩
    obtain ⟨r', hrem, hrepr, -⟩ := rqRemoveAny_spec hr hh ht
    exact ⟨r', hrem, hrepr⟩
  · exact fun h hh => hr.rqLen_eq hh
  · -- a short queue is padded with the old contents of the buffer, a long one is cut
    intro h max hh hmax
    rw [rqSnapshot_spec hr hh hmax]
    refine ⟨rfl, ?_⟩
    dsimp only
    split
    · rw [List.take_append_of_le_length (by omega)]
    · rw [List.take_take]
      congr 1
      omega
  · intro h hh
    have hnot : ¬ cfg.maxHarts ≤ h := by omega
    simp [rqSnapshot, hnot]

/-- Hart 0 of `oneHart` with threads 2 and 1 queued. -/
def twoQueued : RunQueues where
  queues := fun _ => { head := 2, tail := 1, len := 2 }
  rqNext := fun t => if t = 2 then 1 else -1
  onRq := fun t => t == 1 || t == 2

theorem twoQueued_repr : RqRepr oneHart twoQueued fun _ => [2, 1] where
  seg h _ := by simp [twoQueued]
  tail h _ := rfl
  len h _ := rfl
  range h _ t ht := by
    have hN : (oneHart.maxHarts : Int) = 1 ∧ (oneHart.threadMax : Int) = 5 := ⟨rfl, rfl⟩
    simp only [List.mem_cons, List.not_mem_nil, or_false] at ht
    omega
  nodup h _ := by decide
  disjoint h k hh hk := by
    have hN : oneHart.maxHarts = 1 := rfl
    omega
  onRq t := by
    have hN : 0 < oneHart.maxHarts := oneHart.maxHarts_pos
    constructor
    · intro ht
      refine ⟨0, hN, ?_⟩
      simpa [twoQueued, or_comm] using ht
    · rintro ⟨-, -, ht⟩
      simpa [twoQueued, or_comm] using ht

/-- Removing the head of that queue leaves the other thread. -/
theorem runqueue_refines_lists_example :
    RqRepr oneHart twoQueued (fun _ => [2, 1]) ∧ 0 < oneHart.maxHarts ∧
      ∃ r', rqRemoveAny oneHart twoQueued 2 = .ok (0, r') ∧
        RqRepr oneHart r' (setQueue (fun _ => [2, 1]) 0 [1]) := by
  have hpos := oneHart.maxHarts_pos
  have hremove := (runqueue_refines_lists oneHart twoQueued_repr).2.2.2.2.1 2
  exact ⟨twoQueued_repr, hpos, hremove.1 0 hpos (by simp)⟩

/-- With no room the snapshot of an empty prefix is an error, not a count of 0. -/
theorem snapshot_without_room :
    RqRepr oneHart twoQueued (fun _ => [2, 1]) ∧
      (rqSnapshot oneHart twoQueued 0 0).1 ≠ (min [(2 : Int), 1].length 0 : Nat) :=
  ⟨twoQueued_repr, by decide⟩

end Ccos
