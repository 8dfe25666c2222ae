import Mathlib.Tactic
import Ccos.Sched.Ops

/-!
# The scheduler invariant in every run

`sched_reachable` follows `Sched` through boot, the boot steps of the harts and every trap.  Its
condition on the traps is `Safe`; the first consequence is that thread states, queues and current
threads agree in every run in which no kill hits a thread that another hart executes.
-/

namespace Ccos

open Reasoning

variable {cfg : Config} {dead : Prop} {s s' : Kernel} {h : Nat} {q : Nat → List Int}

/-! ## Traps -/

/-- Between steps the invariant is also a mid-trap invariant. -/
theorem Sched.anyMid (hs : Sched cfg dead none s q) (mid : Option Nat) :
    Sched cfg dead mid s q :=
  { hs with cur := fun k he _ => hs.cur k he (by simp) }

/-- The scheduler's data up to the `schedule` of a trap with the action `a` from the state `s`. -/
structure Reached (cfg : Config) (dead : Prop) (s : Kernel) (h : Nat) (a : Action)
    (q : Nat → List Int) (s₁ : Kernel) (q₁ : Nat → List Int) : Prop where
  sched : Sched cfg dead (leaves cfg s h a) s₁ q₁
  keeps : ∀ x, terminated cfg s h a ≠ some x → Keeps x q q₁

theorem Sched.trap {regs : Trapframe} {io : TrapInput} (hs : Sched cfg dead none s q)
    (hb : Basic cfg s) (hsafe : Safe cfg dead s h (trapAction cfg regs io))
    (hg : Allowed cfg s (.trap h regs io)) (hstep : step cfg s (.trap h regs io) = .ok s') :
    ∃ s₁, TrapRan cfg s h (trapAction cfg regs io)
      (fun s₁ => ∃ q₁, Reached cfg dead s h (trapAction cfg regs io) q s₁ q₁) s₁ s' := by
  refine trap_ran _ hb hg hstep ?_ ?_
  · exact ⟨q, hs.anyMid _, fun x _ => .refl x q⟩
  · rintro s₁ s₂ hb₁ he₁ hc₁ ⟨q₁, hs₁, hk₁⟩ hact
    obtain ⟨q₂, hs₂, hk₂⟩ := Sched.act hb hsafe hb₁ he₁ hc₁ hs₁ hact
    exact ⟨q₂, hs₂, fun x hx => (hk₁ x hx).trans (hk₂ x hx)⟩

/-- A trap that does not reschedule leaves its current thread running. -/
theorem Reached.done {a : Action} {s₁ : Kernel} {q₁ : Nat → List Int}
    (hr : Reached cfg dead s h a q s₁ q₁) (hR : ¬ Reschedules cfg s h a) :
    Sched cfg dead none s₁ q₁ := by
  have hl : leaves cfg s h a = none := by
    cases hl : leaves cfg s h a with
    | none => rfl
    | some k => exact absurd (reschedules_of_leaves hl) hR
  exact hl ▸ hr.sched

/-- A trap that reschedules starts `schedule` from the mid-trap invariant of its hart. -/
theorem Reached.mid {a : Action} {s₁ : Kernel} {q₁ : Nat → List Int}
    (hr : Reached cfg dead s h a q s₁ q₁) : Sched cfg dead (some h) s₁ q₁ := by
  cases hl : leaves cfg s h a with
  | none => exact (hl ▸ hr.sched).anyMid (some h)
  | some k =>
    obtain rfl := (leaves_eq_some hl).1
    exact hl ▸ hr.sched

theorem sched_trap {regs : Trapframe} {io : TrapInput} (hs : Sched cfg dead none s q)
    (hb : Basic cfg s) (hsafe : Safe cfg dead s h (trapAction cfg regs io))
    (hg : Allowed cfg s (.trap h regs io)) (hstep : step cfg s (.trap h regs io) = .ok s') :
    ∃ q', Sched cfg dead none s' q' := by
  obtain ⟨s₁, hran⟩ := hs.trap hb hsafe hg hstep
  obtain ⟨q₁, hreach⟩ := hran.kept
  rcases hran.last with ⟨-, rq, next, rq', hsch⟩ | ⟨hR, rfl⟩
  · exact ⟨_, hreach.mid.schedule hran.entered hsch⟩
  · exact ⟨q₁, hreach.done hR⟩

/-! ## Boot steps -/

theorem Sched.cpuInit (hs : Sched cfg dead none s q) (hg : Allowed cfg s (.cpuInit h))
    (hstep : step cfg s (.cpuInit h) = .ok s') : Sched cfg dead none s' q := by
  obtain ⟨-, c, hon, -, -, htf, -, rfl⟩ := cpuInit_cases hstep
  have hent := fun k => @cpuInit_entered cfg s h c htf hg.2 k
  -- the hart that comes online has no current thread yet, so it is none of those in `Entered`
  have hcpu : ∀ k, Entered cfg (s.modCpu h fun _ => c) k →
      (s.modCpu h fun _ => c).cpus k = s.cpus k := by
    intro k hk
    have hne : k ≠ h := by
      rintro rfl
      have hoff := hg.2
      rw [((hent k).mp hk).2.1] at hoff
      cases hoff
    rw [Kernel.modCpu_cpus, if_neg hne]
  refine ⟨hs.repr, ⟨fun k hk => ?_, fun k hk => ?_⟩, fun k hk hoff => ?_, fun k j hk hj heq => ?_,
    hs.runnable, fun t h1 h2 hrun => ?_, fun k hk hm => ?_, fun k hk hc => ?_,
    fun t h1 h2 hrh => ?_⟩
  · rw [hcpu k hk]
    exact hs.harts.curTf k ((hent k).mp hk)
  · rw [hcpu k hk]
    exact hs.harts.curRange k ((hent k).mp hk)
  · refine hs.offline k hk ?_
    rw [Kernel.modCpu_cpus] at hoff
    split at hoff
    · rename_i hkh
      rw [hkh]
      exact hg.2
    · exact hoff
  · rw [hcpu k hk, hcpu j hj] at heq
    exact hs.curInj k j ((hent k).mp hk) ((hent j).mp hj) heq
  · obtain ⟨k, hk, hc⟩ := hs.running t h1 h2 hrun
    have hk' := (hent k).mpr hk
    exact ⟨k, hk', by rw [hcpu k hk', hc]⟩
  · rw [hcpu k hk]
    exact hs.cur k ((hent k).mp hk) hm
  · rw [hcpu k hk] at hc ⊢
    exact hs.curMid k ((hent k).mp hk) hc
  · obtain ⟨k, hk, hc, hr⟩ := hs.runningHart t h1 h2 hrh
    have hk' := (hent k).mpr hk
    exact ⟨k, hk', by rw [hcpu k hk', hc], hr⟩

theorem Sched.enterIdle (hs : Sched cfg dead none s q) (hb : Basic cfg s)
    (hg : Allowed cfg s (.enterIdle h)) (hstep : step cfg s (.enterIdle h) = .ok s') :
    Sched cfg dead none s' q := by
  have hent := enterIdle_entered hb hg hstep
  have hhlt := hg.1
  obtain ⟨hrq, -, -, -, -, -, -, -, -, hcpus, hthreads, -⟩ := enterIdle_cases hstep
  have hnot : ¬ Entered cfg s h := by
    rintro ⟨-, -, -, -, h1, h2⟩
    rcases hg.2.2 with hc | hc
    · exact h1 hc
    · exact h2 hc
  -- the harts that had entered before keep their current threads, none of which is idle thread `h`
  have hold : ∀ k, Entered cfg s' k → k ≠ h → Entered cfg s k ∧ s'.cpus k = s.cpus k ∧
      s'.threads (s.cpus k).currentTid = s.threads (s.cpus k).currentTid := by
    intro k hk hkh
    have hk' := ((hent k).mp hk).resolve_left hkh
    have hne : (s.cpus k).currentTid ≠ h := by
      have hklt := hk'.1
      rcases hs.harts.curRange k hk' with hc | hc <;> omega
    exact ⟨hk', by rw [hcpus k, if_neg hkh], by rw [hthreads, if_neg hne]⟩
  have hself : (s'.cpus h).currentTid = h ∧ (s'.threads h).state = .running ∧
      (s'.threads h).runningHart = h := by
    rw [hcpus h, if_pos rfl, hthreads h, if_pos rfl]
    exact ⟨rfl, rfl, rfl⟩
  refine ⟨hrq ▸ hs.repr, (hb.enterIdle hg hstep).harts, fun k hk hoff => ?_,
    fun k j hk hj heq => ?_, fun t h1 h2 => ?_, fun t h1 h2 hrun => ?_, fun k hk hm => ?_,
    fun k hk hc => ?_, fun t h1 h2 hrh => ?_⟩
  · refine hs.offline k hk ?_
    rw [hcpus k] at hoff
    split at hoff <;> exact hoff
  · by_cases hkh : k = h
    · by_cases hjh : j = h
      · rw [hkh, hjh]
      · obtain ⟨hj', hcj, -⟩ := hold j hj hjh
        have hjlt := hj'.1
        subst hkh
        rw [hself.1, hcj] at heq
        rcases hs.harts.curRange j hj' with hc | hc <;> omega
    · obtain ⟨hk', hck, -⟩ := hold k hk hkh
      have hklt := hk'.1
      by_cases hjh : j = h
      · subst hjh
        rw [hself.1, hck] at heq
        rcases hs.harts.curRange k hk' with hc | hc <;> omega
      · obtain ⟨hj', hcj, -⟩ := hold j hj hjh
        rw [hck, hcj] at heq
        exact hs.curInj k j hk' hj' heq
  · have hne : t ≠ h := by omega
    rw [hthreads, if_neg hne, hrq]
    exact hs.runnable t h1 h2
  · by_cases hth : t = h
    · exact ⟨h, (hent h).mpr (.inl rfl), hself.1.trans hth.symm⟩
    · rw [hthreads, if_neg hth] at hrun
      obtain ⟨k, hk, hc⟩ := hs.running t h1 h2 hrun
      have hkh : k ≠ h := by
        rintro rfl
        exact hnot hk
      have hk' := (hent k).mpr (.inr hk)
      exact ⟨k, hk', by rw [(hold k hk' hkh).2.1, hc]⟩
  · by_cases hkh : k = h
    · rw [hkh, hself.1]
      exact ⟨.inl hself.2.1, hself.2.2⟩
    · obtain ⟨hk', hck, hth⟩ := hold k hk hkh
      rw [hck, hth]
      exact hs.cur k hk' hm
  · by_cases hkh : k = h
    · rw [hkh, hself.1, hself.2.1]
      decide
    · obtain ⟨hk', hck, hth⟩ := hold k hk hkh
      rw [hck] at hc ⊢
      rw [hth]
      exact hs.curMid k hk' hc
  · by_cases hth : t = h
    · exact ⟨h, (hent h).mpr (.inl rfl), hself.1.trans hth.symm, hth ▸ hself.2.2⟩
    · rw [hthreads, if_neg hth] at hrh ⊢
      obtain ⟨k, hk, hc, hr⟩ := hs.runningHart t h1 h2 hrh
      have hkh : k ≠ h := by
        rintro rfl
        exact hnot hk
      have hk' := (hent k).mpr (.inr hk)
      exact ⟨k, hk', by rw [(hold k hk' hkh).2.1, hc], hr⟩

/-! ## Runs -/

/-- Before any hart has entered idle, nothing runs and nothing is queued. -/
theorem BootState.sched (hs : BootState cfg s) : Sched cfg dead none s fun _ => [] where
  repr := hs.queues
  harts := hs.basic.harts
  offline _ _ _ := rfl
  curInj h _ hh := absurd hh (hs.cpus h).not_entered
  runnable t h1 h2 := by
    have hpos := cfg.maxHarts_pos
    have hst := (hs.slots t (by omega) h2).2.1
    have hnot : ¬ t < cfg.maxHarts := by omega
    rw [hst, if_neg hnot, hs.queues.onRq]
    simp
  running t h1 h2 hrun := by
    rw [(hs.slots t h1 h2).2.1] at hrun
    split at hrun <;> cases hrun
  cur k hk := absurd hk (hs.cpus k).not_entered
  curMid k hk := absurd hk (hs.cpus k).not_entered
  runningHart t h1 h2 hrh := by
    rw [(hs.slots t h1 h2).2.2.2.2.1] at hrh
    omega

theorem sched_init (hs : (kernelSystem cfg).init s) : ∃ q, Sched cfg dead none s q := by
  obtain ⟨s₀, s₁, tid, entry, arg, name, sstatus, hboot, hcreate, rfl⟩ := init_cases hs
  have hsched : ∃ q, Sched cfg dead none s₁ q := by
    rcases threadCreateUser_cases hcreate with ⟨-, rfl⟩ | ⟨h1, h2, hu, hmake⟩
    · exact ⟨_, hboot.sched⟩
    · have hge : (cfg.maxHarts : Int) ≤ tid := by
        by_contra hlt
        have hst := (hboot.slots tid (by omega) h2).2.1
        rw [if_pos (by omega), hu] at hst
        cases hst
      have hid : cpuCurrentHartid s₀ s₀.bootHartid = s₀.bootHartid := hboot.boot.2.2
      rw [hid] at hmake
      have hf : ∀ x : Thread,
          (initUserThread x (threadStack cfg tid) entry arg name sstatus).state = .runnable ∧
          (initUserThread x (threadStack cfg tid) entry arg name sstatus).runningHart =
            x.runningHart := fun _ => ⟨rfl, rfl⟩
      obtain ⟨q, hs₁, -⟩ := Sched.create hboot.sched hboot.boot.1 hboot.boot.2.1 hge h2 hu hf hmake
      exact ⟨q, hs₁⟩
  obtain ⟨q, hs₁⟩ := hsched
  exact ⟨q, hs₁.frame rfl (fun _ => .refl _) (fun _ => rfl) fun _ => rfl⟩

theorem sched_step {e : Event} (hs : Sched cfg dead none s q) (hb : Basic cfg s)
    (hsafe : ∀ h regs io, e = .trap h regs io → Safe cfg dead s h (trapAction cfg regs io))
    (hg : Allowed cfg s e) (hstep : step cfg s e = .ok s') : ∃ q', Sched cfg dead none s' q' := by
  cases e with
  | cpuInit h => exact ⟨q, hs.cpuInit hg hstep⟩
  | enterIdle h => exact ⟨q, hs.enterIdle hb hg hstep⟩
  | trap h regs io => exact sched_trap hs hb (hsafe h regs io rfl) hg hstep

/-- The scheduler invariant holds in every run whose traps are safe. -/
theorem sched_reachable {cond : Kernel → Event → Prop}
    (hsafe : ∀ s h regs io, Allowed cfg s (.trap h regs io) → cond s (.trap h regs io) →
      Safe cfg dead s h (trapAction cfg regs io))
    (hr : Reachable ((kernelSystem cfg).restrict cond) s) : ∃ q, Sched cfg dead none s q := by
  refine kernel_invariant (fun s => ∃ q, Sched cfg dead none s q) (fun _ hi => sched_init hi) ?_ hr
  rintro s₁ e s₂ hb ⟨q, hs⟩ hg hc hstep
  refine sched_step hs hb ?_ hg hstep
  rintro h regs io rfl
  exact hsafe s₁ h regs io hg hc

/-! ## States, queues and current threads agree -/

structure Consistent (cfg : Config) (s : Kernel) : Prop where
  runnable : ∀ t, (cfg.maxHarts : Int) ≤ t → t < cfg.threadMax →
    ((s.threads t).state = .runnable ↔ s.rq.onRq t = true)
  queues : ∃ q, RqRepr cfg s.rq q
  running : ∀ t : Int, 0 ≤ t → t < cfg.threadMax →
    ((s.threads t).state = .running ↔ ∃! h, Entered cfg s h ∧ (s.cpus h).currentTid = t)
  current : ∀ h, Entered cfg s h →
    (s.threads (s.cpus h).currentTid).state = .running ∧
    (s.threads (s.cpus h).currentTid).runningHart = h ∧ s.rq.onRq (s.cpus h).currentTid = false
  curTf : ∀ h, Entered cfg s h → (s.cpus h).curTf = .thread (s.cpus h).currentTid

theorem Sched.consistent (hs : Sched cfg False none s q) : Consistent cfg s where
  runnable := hs.runnable
  queues := ⟨q, hs.repr⟩
  running t h1 h2 := by
    constructor
    · intro hrun
      obtain ⟨h, he, hc⟩ := hs.running t h1 h2 hrun
      exact ⟨h, ⟨he, hc⟩, fun k hk => hs.curInj k h hk.1 he (hk.2.trans hc.symm)⟩
    · rintro ⟨h, ⟨he, rfl⟩, -⟩
      exact (hs.cur h he (by simp)).1.resolve_right fun hd => hd.1
  current h he := by
    have hc := hs.cur h he (by simp)
    exact ⟨hc.1.resolve_right fun hd => hd.1, hc.2, hs.cur_onRq he⟩
  curTf := hs.harts.curTf

/-- No kill hits a thread that another hart executes; with one hart there is no other. -/
def NoRemoteKill (cfg : Config) (s : Kernel) : Event → Prop
  | .trap h regs io => cfg.maxHarts = 1 ∨ ∀ t ∈ victim cfg s h (trapAction cfg regs io),
      ∀ k, k < cfg.maxHarts → k ≠ h → Entered cfg s k → (s.cpus k).currentTid ≠ t
  | _ => True

instance (s : Kernel) : (e : Event) → Decidable (NoRemoteKill cfg s e)
  | .trap _ _ _ => inferInstanceAs (Decidable (_ ∨ _))
  | .cpuInit _ => inferInstanceAs (Decidable True)
  | .enterIdle _ => inferInstanceAs (Decidable True)

theorem NoRemoteKill.safe {regs : Trapframe} {io : TrapInput} (hh : h < cfg.maxHarts)
    (hc : NoRemoteKill cfg s (.trap h regs io)) :
    Safe cfg False s h (trapAction cfg regs io) := by
  refine ⟨.inr fun t ha hhit k hk heq => ?_, False.elim, False.elim⟩
  have hvictim : t ∈ victim cfg s h (trapAction cfg regs io) := by
    rw [ha]
    exact if_pos hhit
  have hkh : k ≠ h := by
    rintro rfl
    exact hhit.2.2.1 heq.symm
  rcases hc with hone | hc
  · have hk1 := hk.1
    omega
  · exact hc t hvictim k hk.1 hkh hk heq

/-- In every run without such kills, after every step a thread is `RUNNABLE` exactly if it is
queued, the queues are disjoint chains, and a thread is `RUNNING` exactly if one hart executes
it. -/
theorem scheduler_consistent (cfg : Config) {s : Kernel}
    (hr : Reachable ((kernelSystem cfg).restrict (NoRemoteKill cfg)) s) : Consistent cfg s := by
  obtain ⟨q, hs⟩ := sched_reachable (fun _ _ _ _ hg hc => NoRemoteKill.safe hg.1.1 hc) hr
  exact hs.consistent

/-- Hart 1 runs thread 4 when `user_main` on hart 0 kills thread 3, which is still queued. -/
theorem scheduler_consistent_example :
    ∃ s, Reachable ((kernelSystem twoHarts).restrict (NoRemoteKill twoHarts)) s ∧
      (s.cpus 0).currentTid = 2 ∧ (s.cpus 1).currentTid = 4 ∧ (s.threads 3).state = .zombie ∧
      Consistent twoHarts s := by
  obtain ⟨s, hr, hs⟩ := exists_reachable twoHarts (NoRemoteKill twoHarts) bootOnHart0
    (startBoth ++ [sysCreate 0, sysCreate 0, ipiIrq 1, sysKill 0 3])
    (fun s => decide ((s.cpus 0).currentTid = 2 ∧ (s.cpus 1).currentTid = 4 ∧
      (s.threads 3).state = .zombie))
    (by decide +kernel)
  obtain ⟨h0, h1, h3⟩ := of_decide_eq_true hs
  exact ⟨s, hr, h0, h1, h3, scheduler_consistent twoHarts hr⟩

end Ccos
