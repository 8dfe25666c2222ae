import Mathlib.Tactic
import Ccos.Sched.Consistent

/-!
# Slots in use

The victim of a kill keeps executing on its hart until that hart takes the IPI, as a `ZOMBIE` whose
`running_hart` is still set.  `thread_sys_kill` leaves such a slot to `schedule`, but
`thread_sys_join` and `thread_sys_detach` recycle a `ZOMBIE` without looking at `running_hart`, and
the release of a joiner wakes whatever thread is recorded.
-/

namespace Ccos

open Reasoning

variable {cfg : Config} {s : Kernel} {h : Nat}

/-- No dead thread that a hart still executes is collected by `join` or `detach`, or woken as the
recorded joiner of a thread that terminates. -/
def NoLiveRecycle (cfg : Config) (s : Kernel) : Event → Prop
  | .trap h regs io =>
    (∀ t ∈ collected cfg s h (trapAction cfg regs io), (s.threads t).runningHart < 0) ∧
    ∀ t ∈ terminated cfg s h (trapAction cfg regs io), 0 ≤ (s.threads t).joinWaiter →
      (s.threads (s.threads t).joinWaiter).state = .zombie →
      (s.threads (s.threads t).joinWaiter).runningHart < 0
  | _ => True

instance (s : Kernel) : (e : Event) → Decidable (NoLiveRecycle cfg s e)
  | .trap _ _ _ => inferInstanceAs (Decidable (_ ∧ _))
  | .cpuInit _ => inferInstanceAs (Decidable True)
  | .enterIdle _ => inferInstanceAs (Decidable True)

theorem NoLiveRecycle.safe {regs : Trapframe} {io : TrapInput}
    (hc : NoLiveRecycle cfg s (.trap h regs io)) :
    Safe cfg True s h (trapAction cfg regs io) where
  kill := .inl trivial
  joiner := by
    rintro - w ⟨t, ht, rfl⟩ h0 - hz
    exact hc.2 t ht h0 hz
  collect := fun _ t ht => hc.1 t ht

/-- In every run with that discipline, whatever the kills, no hart executes a recycled slot and no
two harts execute the same one. -/
theorem current_not_recycled (cfg : Config) {s : Kernel}
    (hr : Reachable ((kernelSystem cfg).restrict (NoLiveRecycle cfg)) s) :
    (∀ h, Entered cfg s h → (s.threads (s.cpus h).currentTid).state ≠ .unused) ∧
    ∀ h k, Entered cfg s h → Entered cfg s k →
      (s.cpus h).currentTid = (s.cpus k).currentTid → h = k := by
  obtain ⟨q, hs⟩ := sched_reachable (fun _ _ _ _ _ hc => NoLiveRecycle.safe hc) hr
  refine ⟨fun h he hu => ?_, hs.curInj⟩
  rcases (hs.cur h he (by simp)).1 with hst | ⟨-, hst⟩ <;> rw [hu] at hst <;> cases hst

/-- Thread 4 is killed while hart 1 executes it: it stays current there, dead but not recycled. -/
theorem current_not_recycled_example :
    ∃ s, Reachable ((kernelSystem twoHarts).restrict (NoLiveRecycle twoHarts)) s ∧
      Entered twoHarts s 1 ∧ (s.cpus 1).currentTid = 4 ∧ (s.threads 4).state = .zombie ∧
      (s.threads (s.cpus 1).currentTid).state ≠ .unused := by
  obtain ⟨s, hr, hs⟩ := exists_reachable twoHarts (NoLiveRecycle twoHarts) bootOnHart0
    (startBoth ++ [sysCreate 0, sysCreate 0, ipiIrq 1, sysKill 0 4])
    (fun s => decide (Entered twoHarts s 1 ∧ (s.cpus 1).currentTid = 4 ∧
      (s.threads 4).state = .zombie))
    (by decide +kernel)
  obtain ⟨he, hcur, hz⟩ := of_decide_eq_true hs
  exact ⟨s, hr, he, hcur, hz, (current_not_recycled twoHarts hr).1 1 he⟩

/-- `user_main` kills thread 4, which hart 1 executes, and joins it at once. -/
theorem joined_while_current :
    ∃ s, Reachable (kernelSystem twoHarts) s ∧ Entered twoHarts s 1 ∧
      (s.threads (s.cpus 1).currentTid).state = .unused := by
  obtain ⟨s, hr, hs⟩ := exists_reachable twoHarts anyStep bootOnHart0
    (startBoth ++ [sysCreate 0, sysCreate 0, ipiIrq 1, sysKill 0 4, sysJoin 0 4 0])
    (fun s => decide (Entered twoHarts s 1 ∧
      (s.threads (s.cpus 1).currentTid).state = .unused))
    (by decide +kernel)
  obtain ⟨he, hu⟩ := of_decide_eq_true hs
  exact ⟨s, hr.unrestrict, he, hu⟩

end Ccos
