import Mathlib.Tactic
import Mathlib.Data.Finset.Card
import Ccos.Join.Exact

/-!
# Free slots of the thread table

Every event of the join protocol takes one slot, gives one slot back, or leaves the number of
`UNUSED` slots as it is.  A thread that dies gives its slot back exactly if somebody waits for it or
it is detached.
-/

namespace Ccos

open Reasoning

/-- One element more satisfies `q` than `p`. -/
theorem card_filter_succ {n j : Nat} {p q : Nat → Prop} [DecidablePred p] [DecidablePred q]
    (hj : j < n) (hp : ¬ p j) (hq : q j) (hother : ∀ i, i ≠ j → (q i ↔ p i)) :
    ((Finset.range n).filter q).card = ((Finset.range n).filter p).card + 1 := by
  have hinsert : (Finset.range n).filter q = insert j ((Finset.range n).filter p) := by
    ext i
    rw [Finset.mem_insert, Finset.mem_filter, Finset.mem_filter, Finset.mem_range]
    by_cases hi : i = j
    · simp [hi, hj, hq]
    · simp [hi, hother i hi]
  have hnot : j ∉ (Finset.range n).filter p := fun hmem => hp (Finset.mem_filter.mp hmem).2
  rw [hinsert, Finset.card_insert_of_notMem hnot]

def unusedThreads (cfg : Config) (s : Kernel) : Nat :=
  ((Finset.range cfg.threadMax).filter fun i : Nat => (s.threads i).state = .unused).card

/-- `thread_create` finds a slot exactly if there is one; slot 0 is an idle thread's. -/
theorem allocThreadSlot_nonneg {cfg : Config} {s : Kernel} (hb : Basic cfg s) :
    0 ≤ allocThreadSlot cfg s ↔ 0 < unusedThreads cfg s := by
  unfold unusedThreads
  rw [Finset.card_pos]
  constructor
  · intro hpos
    obtain ⟨h1, h2, hun⟩ := allocThreadSlot_unused (not_lt.mpr hpos)
    obtain ⟨i, hi⟩ := Int.eq_ofNat_of_zero_le h1
    rw [hi] at h2 hun
    exact ⟨i, Finset.mem_filter.mpr ⟨Finset.mem_range.mpr (by omega), hun⟩⟩
  · rintro ⟨i, hmem⟩
    obtain ⟨hlt, hun⟩ := Finset.mem_filter.mp hmem
    rw [Finset.mem_range] at hlt
    have hpos := cfg.maxHarts_pos
    have hne : i ≠ 0 := by
      rintro rfl
      rcases (hb.idle 0 (le_refl 0) (by omega)).1 with hst | hst <;>
        rw [Nat.cast_zero, hst] at hun <;>
        cases hun
    unfold allocThreadSlot
    split
    · exact Int.natCast_nonneg _
    · rename_i hnone
      rw [List.find?_eq_none] at hnone
      refine absurd (decide_eq_true hun) (hnone i ?_)
      rw [List.mem_range'_1]
      omega

/-! ## One event -/

/-- The slot that an event takes, gives back or leaves dead. -/
def JoinEvent.slot : JoinEvent → Option Int
  | .create t => some t
  | .collect t => some t
  | .terminate t _ _ => some t
  | _ => none

namespace Table

variable {V : Table}

/-- Everywhere else, slots that are free or dead stay so, and the others do not become so. -/
theorem SlotStep.slot_ne {u : Int} {e : JoinEvent} {x : Slot} (hs : SlotStep V u e x)
    (he : e.slot ≠ some u) :
    (x.phase = .unused ↔ (V u).phase = .unused) ∧ (x.phase = .zombie ↔ (V u).phase = .zombie) := by
  cases hs with
  | same _ => exact ⟨.rfl, .rfl⟩
  | create _ => exact absurd rfl he
  | wait halive => simp [halive]
  | joined _ _ => exact ⟨.rfl, .rfl⟩
  | detach _ _ => exact ⟨.rfl, .rfl⟩
  | collect _ => exact absurd rfl he
  | released _ _ _ hwaits => simp [hwaits.1]
  | freed _ => exact absurd rfl he
  | died _ _ => exact absurd rfl he

/-- A dying thread leaves its slot free if somebody waits for it or it is detached. -/
theorem terminate_self (V : Table) (t code : Int) : V.terminate t code true t =
    if 0 ≤ (V t).joinWaiter ∨ (V t).detached = true then .free else (V t).die code := by
  unfold terminate recycle release
  simp only [true_and]
  split
  · rw [set_self]
  · rename_i hnot
    rw [if_neg fun h0 => hnot (.inl h0), set_self]

end Table

/-! ## One step -/

variable {cfg : Config} {s s' : Kernel}

/-- Somebody waits for the thread, or it is detached. -/
def WaitedFor (s : Kernel) (t : Int) : Prop :=
  0 ≤ (s.threads t).joinWaiter ∨ (s.threads t).detached = true

instance (s : Kernel) (t : Int) : Decidable (WaitedFor s t) :=
  inferInstanceAs (Decidable (_ ∨ _))

section Step

variable {e : Event} (hs : Settled cfg s) (hg : Allowed cfg s e) (hc : NoStrayKill cfg s e)
  (hstep : step cfg s e = .ok s')

include hs hg hc hstep

theorem Settled.unused_iff {u : Int} (he : (stepEvent cfg s e).slot ≠ some u) :
    (s'.threads u).state = .unused ↔ (s.threads u).state = .unused := by
  rw [← phase_eq_unused, ← phase_eq_unused]
  exact ((hs.slotStep hg hc hstep u).slot_ne he).1

theorem Settled.zombie_iff {u : Int} (he : (stepEvent cfg s e).slot ≠ some u) :
    (s'.threads u).state = .zombie ↔ (s.threads u).state = .zombie := by
  rw [← phase_eq_zombie, ← phase_eq_zombie]
  exact ((hs.slotStep hg hc hstep u).slot_ne he).2

theorem Settled.unused_kept (he : (stepEvent cfg s e).slot = none) :
    unusedThreads cfg s' = unusedThreads cfg s := by
  unfold unusedThreads
  congr 1
  refine Finset.filter_congr fun i _ => hs.unused_iff hg hc hstep ?_
  rw [he]
  nofun

/-- A slot that was in use is free. -/
theorem Settled.unused_given {t : Int} (he : (stepEvent cfg s e).slot = some t) (h1 : 0 ≤ t)
    (h2 : t < cfg.threadMax) (hbefore : (s.threads t).state ≠ .unused)
    (hafter : (s'.threads t).state = .unused) :
    unusedThreads cfg s' = unusedThreads cfg s + 1 := by
  obtain ⟨j, rfl⟩ := Int.eq_ofNat_of_zero_le h1
  refine card_filter_succ (by omega) hbefore hafter fun i hi => hs.unused_iff hg hc hstep ?_
  rw [he]
  simpa using Ne.symm hi

theorem Settled.created {t : Int} (he : stepEvent cfg s e = .create t) :
    unusedThreads cfg s = unusedThreads cfg s' + 1 ∧ (s'.threads t).state ≠ .zombie := by
  obtain ⟨hstrict, hslots⟩ := hs.event hg hc hstep
  rw [he] at hstrict hslots
  obtain ⟨h1, h2, hun⟩ := hstrict
  have hnew : (s'.slots t).phase = .alive := by
    rw [hslots]
    show (s.slots.set t _ t).phase = _
    rw [Table.set_self]
    rfl
  have hstate : (s'.threads t).state.phase = .alive := hnew
  constructor
  · obtain ⟨j, rfl⟩ := Int.eq_ofNat_of_zero_le h1
    refine card_filter_succ (by omega) ?_ (phase_eq_unused.mp hun) fun i hi => ?_
    · rw [← phase_eq_unused, hstate]
      decide
    · refine (hs.unused_iff hg hc hstep ?_).symm
      rw [he]
      simpa [JoinEvent.slot] using Ne.symm hi
  · rw [ne_eq, ← phase_eq_zombie, hstate]
    decide

theorem Settled.collected {t : Int} (he : stepEvent cfg s e = .collect t) (h1 : 0 ≤ t)
    (h2 : t < cfg.threadMax) :
    unusedThreads cfg s' = unusedThreads cfg s + 1 ∧ (s.threads t).state = .zombie ∧
      (s'.threads t).state = .unused := by
  obtain ⟨hstrict, hslots⟩ := hs.event hg hc hstep
  rw [he] at hstrict hslots
  have hz : (s.threads t).state = .zombie := phase_eq_zombie.mp hstrict
  have hfree : (s'.threads t).state = .unused := by
    rw [← phase_eq_unused]
    show (s'.slots t).phase = _
    rw [hslots]
    show (s.slots.recycle t t).phase = _
    rw [Table.recycle, Table.set_self]
    rfl
  refine ⟨hs.unused_given hg hc hstep ?_ h1 h2 ?_ hfree, hz, hfree⟩
  · rw [he]
    rfl
  · rw [hz]
    decide

theorem Settled.terminated {t code : Int} (he : stepEvent cfg s e = .terminate t code true) :
    (s.threads t).state ≠ .zombie ∧
    ((WaitedFor s t ∧ unusedThreads cfg s' = unusedThreads cfg s + 1 ∧
        (s'.threads t).state = .unused) ∨
      (¬ WaitedFor s t ∧ unusedThreads cfg s' = unusedThreads cfg s ∧
        (s'.threads t).state = .zombie)) := by
  obtain ⟨hstrict, hslots⟩ := hs.event hg hc hstep
  rw [he] at hstrict hslots
  obtain ⟨h1, h2, halive, -⟩ := hstrict
  have hstate : (s.threads t).state.phase = .alive := halive
  have hself : s'.slots t = if WaitedFor s t then .free else (s.slots t).die code := by
    rw [hslots]
    exact Table.terminate_self s.slots t code
  have hslot : (stepEvent cfg s e).slot = some t := by
    rw [he]
    rfl
  have hbefore : (s.threads t).state ≠ .unused := by
    rw [ne_eq, ← phase_eq_unused, hstate]
    decide
  refine ⟨?_, ?_⟩
  · rw [ne_eq, ← phase_eq_zombie, hstate]
    decide
  by_cases hw : WaitedFor s t
  · -- waited for or detached: the slot goes back at once
    have hfree : (s'.threads t).state = .unused := by
      rw [← phase_eq_unused]
      show (s'.slots t).phase = _
      rw [hself, if_pos hw]
      rfl
    exact .inl ⟨hw, hs.unused_given hg hc hstep hslot h1 h2 hbefore hfree, hfree⟩
  · have hdead : (s'.threads t).state = .zombie := by
      rw [← phase_eq_zombie]
      show (s'.slots t).phase = _
      rw [hself, if_neg hw]
      rfl
    -- a slot in use became a zombie, and no other slot changed hands
    refine .inr ⟨hw, ?_, hdead⟩
    unfold unusedThreads
    congr 1
    refine Finset.filter_congr fun i _ => ?_
    by_cases hi : (i : Int) = t
    · rw [hi, hdead]
      simp [hbefore]
    · refine hs.unused_iff hg hc hstep ?_
      rw [hslot]
      simpa using Ne.symm hi

end Step

end Ccos
