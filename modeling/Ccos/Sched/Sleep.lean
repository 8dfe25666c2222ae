import Mathlib.Tactic
import Ccos.Console.Reader

/-!
# Sleeping

`thread_sys_sleep` stores `g_ticks + ticks` as a 64-bit word and `threads_tick` compares it with
`<=`.  Where the sum does not wrap around, the thread sleeps through exactly `ticks` ticks.
-/

namespace Ccos

open Reasoning

variable {cfg : Config} {dead : Prop} {s s' : Kernel} {h : Nat} {q : Nat → List Int}

/-! ## Ticks -/

/-- The events on which `threads_tick` runs: timer interrupts of the boot hart. -/
def isTick (boot : Nat) : Event → Bool
  | .trap h regs _ => decide (h = boot ∧ trapKind regs.scause = .timerS)
  | _ => false

/-- The number of `threads_tick` calls in a continuation of a run. -/
def ticksIn (boot : Nat) (vs : List (Event × Kernel)) : Nat :=
  vs.countP fun v => isTick boot v.1

theorem step_bootHartid {e : Event} (hb : Basic cfg s) (hg : Allowed cfg s e)
    (hs : step cfg s e = .ok s') : s'.bootHartid = s.bootHartid := by
  cases e with
  | cpuInit h =>
    obtain ⟨-, c, -, -, -, -, -, rfl⟩ := cpuInit_cases hs
    rfl
  | enterIdle h => exact (enterIdle_cases hs).2.2.1
  | trap h regs io =>
    obtain ⟨s₁, hran⟩ := trap_ran (fun k => k.bootHartid = s.bootHartid) hb hg hs rfl
      fun s₁ s₂ _ _ _ hk hact => hact.bootHartid.trans hk
    rcases hran.last with ⟨-, rq, next, rq', hsch⟩ | ⟨-, rfl⟩
    · rw [hsch.rest]
      exact hran.kept
    · exact hran.kept

theorem step_ticks {e : Event} (hb : Basic cfg s) (hg : Allowed cfg s e)
    (hs : step cfg s e = .ok s') :
    s'.ticks = if isTick s.bootHartid e then s.ticks + 1 else s.ticks := by
  cases e with
  | cpuInit h =>
    obtain ⟨-, c, -, -, -, -, -, rfl⟩ := cpuInit_cases hs
    rfl
  | enterIdle h => exact (enterIdle_cases hs).2.2.2.2.2.2.2.1
  | trap h regs io =>
    rw [trap_ticks hb hg hs]
    by_cases hk : trapKind regs.scause = .timerS
    · rw [trapAction_timer.mpr hk, clocked, hg.1.2.2.1]
      simp only [isTick, hk, and_true, decide_eq_true_eq]
      split <;> rfl
    · have hne : trapAction cfg regs io ≠ .timer := fun ha => hk (trapAction_timer.mp ha)
      have hno : isTick s.bootHartid (.trap h regs io) = false := by
        simp [isTick, hk]
      rw [hno]
      cases ha : trapAction cfg regs io with
      | timer => exact absurd ha hne
      | _ => rfl

/-! ## A sleeper is left alone -/

/-- A sleeper whose time has not come sleeps on. -/
theorem asleep_step {e : Event} {t : Int} (hb : Basic cfg s) (ho : Orderly cfg s)
    (hg : Allowed cfg s e) (hc : KillFree cfg s e) (hs : step cfg s e = .ok s') (h0 : 0 ≤ t)
    (hst : (s.threads t).state = .sleeping)
    (hdue : isTick s.bootHartid e = true → ¬ (s.threads t).wakeupTick ≤ s.ticks + 1) :
    (s'.threads t).state = .sleeping ∧ (s'.threads t).wakeupTick = (s.threads t).wakeupTick := by
  cases e with
  | cpuInit h =>
    obtain ⟨-, c, -, -, -, -, -, rfl⟩ := cpuInit_cases hs
    exact ⟨hst, rfl⟩
  | enterIdle h =>
    obtain ⟨-, -, -, -, -, -, -, -, -, -, hth, -⟩ := enterIdle_cases hs
    have hne : t ≠ h := by
      intro heq
      have hh := hg.1
      rcases (hb.idle t h0 (by omega)).1 with hi | hi <;> rw [hst] at hi <;> cases hi
    rw [hth, if_neg hne]
    exact ⟨hst, rfl⟩
  | trap h regs io =>
    have hsus : (s.threads t).state.suspended = true := by
      rw [hst]
      rfl
    have hby := ho.bystands hg.1 hc h0 (.inl hst) (fun ha hboot hd => hdue (by
        rw [hg.1.2.2.1] at hboot
        simp [isTick, hboot, trapAction_timer.mp ha]) hd.2)
      (fun claims _ hw => by
        have hbl := (ho.reader (hw ▸ h0)).2
        rw [hw, hst] at hbl
        cases hbl)
    obtain ⟨w, d, hm⟩ := marked_eq cfg s h t (trapAction cfg regs io)
    rw [hby.suspended hb hg hs hsus, hm]
    exact ⟨hst, rfl⟩

/-! ## A due sleeper is woken -/

/-- The scheduler's data stay in order through the scan of `threads_tick`. -/
theorem Sched.tick (hs : Sched cfg dead none s q) (hb : Basic cfg s)
    (htick : threadsTick cfg s h = .ok s') : ∃ q', Sched cfg dead none s' q' := by
  have hkeep : (∃ q', Sched cfg dead none s' q') ∧ s'.bootHartid = s.bootHartid ∧
      ∀ k, SameCpu (s.cpus k) (s'.cpus k) := by
    refine foldlM_keeps (fun k => (∃ q', Sched cfg dead none k q') ∧ k.bootHartid = s.bootHartid ∧
      ∀ j, SameCpu (s.cpus j) (k.cpus j)) ?_ ?_ htick
    · rintro i - k k' ⟨⟨q₁, hs₁⟩, hboot, hcpu⟩ hstep
      unfold threadsTickStep at hstep
      split at hstep
      · rename_i hsl
        have hclear : Sched cfg dead none (k.modThread i Thread.clearWakeup) q₁ :=
          hs₁.modThread i fun _ => ⟨rfl, rfl⟩
        have hcur : ∀ j, Entered cfg (k.modThread i Thread.clearWakeup) j →
            ((k.modThread i Thread.clearWakeup).cpus j).currentTid = i →
            ((k.modThread i Thread.clearWakeup).threads i).state = .running := by
          intro j he hji
          exfalso
          have hnot := hs₁.cur_not_suspended (h := j) he
          have hji' : (k.cpus j).currentTid = i := hji
          rw [hji', hsl.1] at hnot
          cases hnot
        have hon : ((k.modThread i Thread.clearWakeup).cpus k.bootHartid).online = true := by
          show (k.cpus k.bootHartid).online = true
          rw [hboot, (hcpu _).2.2.1]
          exact hb.boot.2
        obtain ⟨q₂, hs₂, -⟩ := hclear.wake (hboot ▸ hb.boot.1) hon hcur hstep
        refine ⟨⟨q₂, hs₂⟩, ?_, fun j => ?_⟩
        · exact (threadMakeRunnable_schedOnly hstep).bootHartid.trans hboot
        · exact (hcpu j).trans ((threadMakeRunnable_sameHarts hstep).sameCpu j)
      · cases hstep
        exact ⟨⟨q₁, hs₁⟩, hboot, hcpu⟩
    · refine ⟨⟨q, ?_⟩, rfl, fun _ => .refl _⟩
      exact hs.frame rfl (fun _ => .refl _) (fun _ => rfl) (fun _ => rfl)
  exact hkeep.1

theorem threadsTick_due {t : Int} (hlo : (cfg.maxHarts : Int) ≤ t) (hhi : t < cfg.threadMax)
    (hst : (s.threads t).state = .sleeping) (hdue : (s.threads t).wakeupTick ≤ s.ticks + 1)
    (hoff : s.rq.onRq t = false) (htick : threadsTick cfg s h = .ok s') :
    (s'.threads t).state = .runnable := by
  have hpos := cfg.maxHarts_pos
  obtain ⟨n, rfl⟩ := Int.eq_ofNat_of_zero_le (by omega : 0 ≤ t)
  -- the turn of the scan that looks at the thread itself
  have hhit : ∀ k k' : Kernel, k.threads n = s.threads n ∧ k.ticks = s.ticks + 1 ∧
      k.rq.onRq n = false → threadsTickStep cfg h k n = .ok k' →
      (k'.threads n).state = .runnable := by
    rintro k k' ⟨hth, htk, hq⟩ hstep
    have hcond : (k.threads n).state = .sleeping ∧ (k.threads n).wakeupTick ≤ k.ticks := by
      rw [hth, htk]
      exact ⟨hst, hdue⟩
    unfold threadsTickStep at hstep
    rw [if_pos hcond] at hstep
    rcases threadMakeRunnable_cases hstep with ⟨-, hno⟩ | ⟨rq, hw⟩
    · exfalso
      rcases hno with hno | hno | hno | hno
      · omega
      · omega
      · have hq' : k.rq.onRq n = true := hno
        rw [hq] at hq'
        cases hq'
      · rw [Kernel.modThread_threads, if_pos rfl, Thread.clearWakeup_state, hcond.1] at hno
        cases hno
    · rw [hw.threads, if_pos rfl]
      rfl
  refine foldlM_reaches (fun k => k.threads n = s.threads n ∧ k.ticks = s.ticks + 1 ∧
    k.rq.onRq n = false) (fun k => (k.threads n).state = .runnable)
    (List.mem_range.mpr (by omega : n < cfg.threadMax)) ?_ ?_ hhit (.inl ⟨rfl, rfl, hoff⟩) htick
  · rintro i - k k' hpre hstep
    by_cases hi : i = n
    · subst hi
      exact .inr (hhit k k' hpre hstep)
    · -- another slot: neither the thread nor its place in the queues is touched
      left
      have hne : (n : Int) ≠ i := by omega
      unfold threadsTickStep at hstep
      split at hstep
      · rw [threadMakeRunnable_threads hstep hne, modThread_other hne,
          (threadMakeRunnable_schedOnly hstep).ticks, threadMakeRunnable_onRq hstep hne]
        exact hpre
      · cases hstep
        exact hpre
  · -- once runnable, it is not touched again: only sleeping threads are
    rintro i - k k' hrun hstep
    unfold threadsTickStep at hstep
    split at hstep
    · rename_i hsl
      have hne : (n : Int) ≠ i := by
        intro heq
        rw [← heq, hrun] at hsl
        cases hsl.1
      rw [threadMakeRunnable_threads hstep hne, modThread_other hne]
      exact hrun
    · cases hstep
      exact hrun

/-! ## Going to sleep -/

theorem trap_sleeping {regs : Trapframe} {io : TrapInput} {t : Int} (hb : Basic cfg s)
    (hg : Allowed cfg s (.trap h regs io)) (hs : step cfg s (.trap h regs io) = .ok s')
    (hst : (s'.threads t).state = .sleeping) : (s.threads t).state = .sleeping ∨
      (t = (s.cpus h).currentTid ∧ ∃ n, trapAction cfg regs io = .sleep n ∧ n ≠ 0) := by
  rcases trap_paused (.inl rfl) hb hg hs hst with hold | ⟨hcur, ⟨-, hn⟩ | ⟨hno, -⟩⟩
  · exact .inl hold
  · exact .inr ⟨hcur, hn⟩
  · cases hno

/-- After `thread_sys_sleep` the thread is `SLEEPING` until the sum. -/
theorem trap_sleep {regs : Trapframe} {io : TrapInput} {n : UInt64} (hb : Basic cfg s)
    (hg : Allowed cfg s (.trap h regs io)) (hs : step cfg s (.trap h regs io) = .ok s')
    (ha : trapAction cfg regs io = .sleep n) (hn : n ≠ 0) :
    (s'.threads (s.cpus h).currentTid).state = .sleeping ∧
      (s'.threads (s.cpus h).currentTid).wakeupTick = s.ticks + n := by
  obtain ⟨hrun, huser⟩ := trap_runAction hb hg hs
  rw [ha] at hrun huser
  have hpos := cfg.maxHarts_pos
  have hh := hg.1.1
  obtain ⟨hlo, hhi⟩ := huser rfl
  rcases threadSysSleep_cases hrun with ⟨h0, -⟩ | ⟨-, hsch⟩
  · exact absurd h0 hn
  have hidle : (s.cpus h).currentTid ≠ (s.cpus h).idleTid := by
    rw [hg.1.2.2.2.1]
    omega
  have hself : (sleepCur (saveRegs s h regs) h n).threads (s.cpus h).currentTid =
      ((s.threads (s.cpus h).currentTid).setTf (trapFrame regs)).sleepUntil (s.ticks + n) := by
    unfold sleepCur saveRegs
    simp
  have hok : ((sleepCur (saveRegs s h regs) h n).cpus h).currentTid ≠
      ((sleepCur (saveRegs s h regs) h n).cpus h).idleTid →
      0 < ((sleepCur (saveRegs s h regs) h n).cpus h).currentTid ∧
        ((sleepCur (saveRegs s h regs) h n).cpus h).currentTid < cfg.threadMax := by
    intro _
    show 0 < (s.cpus h).currentTid ∧ (s.cpus h).currentTid < cfg.threadMax
    omega
  obtain ⟨rq, next, rq', hsched⟩ := schedule_cases hok hsch
  have hstate : ((sleepCur (saveRegs s h regs) h n).threads
      ((sleepCur (saveRegs s h regs) h n).cpus h).currentTid).state = .sleeping := by
    show ((sleepCur (saveRegs s h regs) h n).threads (s.cpus h).currentTid).state = .sleeping
    rw [hself]
    rfl
  have hleft := hsched.left_suspended hidle (.inl hstate)
  have hleft' : s'.threads (s.cpus h).currentTid = threadMarkNotRunning
      ((sleepCur (saveRegs s h regs) h n).threads (s.cpus h).currentTid) := hleft
  rw [hleft', hself]
  exact ⟨rfl, rfl⟩

/-! ## Runs -/

/-- No kill, and no `sleep` whose wake-up tick wraps around. -/
def SleepsFit (cfg : Config) (s : Kernel) : Event → Prop
  | .trap h regs io => KillFree cfg s (.trap h regs io) ∧
    match trapAction cfg regs io with
    | .sleep n => s.ticks.toNat + n.toNat < 2 ^ 64
    | _ => True
  | _ => True

instance (s : Kernel) : (e : Event) → Decidable (SleepsFit cfg s e)
  | .trap _ regs io =>
    haveI : Decidable (match trapAction cfg regs io with
        | .sleep n => s.ticks.toNat + n.toNat < 2 ^ 64
        | _ => True) :=
      match trapAction cfg regs io with
      | .sleep _ => Nat.decLt _ _
      | .ipi | .timer | .external _ | .exit _ | .join _ _ | .create _ _ _ _ | .kill _
      | .detach _ | .read _ _ _ | .query _ _ | .skip | .halt _ =>
        isTrue trivial
    inferInstanceAs (Decidable (_ ∧ _))
  | .cpuInit _ => inferInstanceAs (Decidable True)
  | .enterIdle _ => inferInstanceAs (Decidable True)

theorem SleepsFit.killFree {s : Kernel} {e : Event} (hc : SleepsFit cfg s e) :
    KillFree cfg s e := by
  cases e with
  | trap h regs io => exact hc.1
  | _ => trivial

theorem SleepsFit.fits {regs : Trapframe} {io : TrapInput} {n : UInt64}
    (hc : SleepsFit cfg s (.trap h regs io)) (ha : trapAction cfg regs io = .sleep n) :
    s.ticks.toNat + n.toNat < 2 ^ 64 := by
  have hfit := hc.2
  rw [ha] at hfit
  exact hfit

/-- Every sleeper has its wake-up ahead of it. -/
def SleepersWait (cfg : Config) (s : Kernel) : Prop :=
  ∀ t : Int, 0 ≤ t → t < cfg.threadMax → (s.threads t).state = .sleeping →
    s.ticks < (s.threads t).wakeupTick

theorem Basic.sleeping_user (hb : Basic cfg s) {t : Int} (h0 : 0 ≤ t)
    (hst : (s.threads t).state = .sleeping) : (cfg.maxHarts : Int) ≤ t := by
  by_contra hlt
  rcases (hb.idle t h0 (by omega)).1 with hi | hi <;> rw [hst] at hi <;> cases hi

/-- The tick that ends a sleep: the sleeper is `RUNNABLE` when `threads_tick` returns. -/
theorem tick_wakes {regs : Trapframe} {io : TrapInput} {t : Int} (hb : Basic cfg s)
    (hs : Sched cfg dead none s q) (hg : Allowed cfg s (.trap h regs io))
    (htick : isTick s.bootHartid (.trap h regs io) = true)
    (hstep : step cfg s (.trap h regs io) = .ok s') (h0 : 0 ≤ t) (h1 : t < cfg.threadMax)
    (hst : (s.threads t).state = .sleeping) (hdue : (s.threads t).wakeupTick ≤ s.ticks + 1) :
    ∃ s₁, threadsTick cfg (countTimer (saveRegs s h regs) h) h = .ok s₁ ∧
      sliceTick cfg s₁ h (s.cpus h).currentTid = .ok s' ∧
      (s₁.threads t).state = .runnable ∧ ∃ q', Sched cfg dead none s₁ q' := by
  simp only [isTick, decide_eq_true_eq] at htick
  obtain ⟨hrun, -⟩ := trap_runAction hb hg hstep
  rw [trapAction_timer.mpr htick.2] at hrun
  obtain ⟨s₁, hslice, hcase⟩ := schedOnTimerIrq_cases hrun
  have hboot : ((saveRegs s h regs).cpus h).hartid = (saveRegs s h regs).bootHartid := by
    show (s.cpus h).hartid = s.bootHartid
    rw [hg.1.2.2.1]
    exact htick.1
  -- only the boot hart keeps the time
  have htick₁ : threadsTick cfg (countTimer (saveRegs s h regs) h) h = .ok s₁ := by
    rcases hcase with ⟨-, hok⟩ | ⟨hno, -⟩
    · exact hok
    · exact absurd hboot hno
  -- the trap saves registers into the slot of the current thread, which does not sleep
  have hcur : t ≠ (s.cpus h).currentTid := by
    rintro rfl
    have hnot := hs.cur_not_suspended hg.1
    rw [hst] at hnot
    cases hnot
  have hsave : (countTimer (saveRegs s h regs) h).threads t = s.threads t :=
    saveRegs_other regs hcur
  have hsched : Sched cfg dead none (countTimer (saveRegs s h regs) h) q := by
    have hquiet := (saveRegs_quiet s h regs)
    refine hs.frame rfl (fun k => ?_) (fun u => ?_) (fun u => ?_)
    · exact (countTimer_quiet (saveRegs s h regs) h).cpus k
    · exact saveRegs_state s h regs u
    · exact saveRegs_runningHart s h regs u
  have hbasic : Basic cfg (countTimer (saveRegs s h regs) h) :=
    (hb.quiet (saveRegs_quiet s h regs)).quiet (countTimer_quiet _ h)
  refine ⟨s₁, htick₁, hslice, ?_, hsched.tick hbasic htick₁⟩
  refine threadsTick_due (hb.sleeping_user h0 hst) h1 ?_ ?_ ?_ htick₁
  · rw [hsave]
    exact hst
  · rw [hsave]
    exact hdue
  · apply hsched.onRq_false
    rw [hsave, hst]
    decide

/-- A thread that `threads_tick` made `RUNNABLE` does not sleep when the trap ends. -/
theorem sliceTick_awake {t cur : Int} (hst : (s.threads t).state ≠ .sleeping)
    (hok : (s.cpus h).currentTid ≠ (s.cpus h).idleTid →
      0 < (s.cpus h).currentTid ∧ (s.cpus h).currentTid < cfg.threadMax)
    (hs : sliceTick cfg s h cur = .ok s') : (s'.threads t).state ≠ .sleeping := by
  rcases sliceTick_cases hs with ⟨-, hsch⟩ | ⟨-, rfl⟩
  · have hok' : ((resetSlice (useTick s h) h).cpus h).currentTid ≠
        ((resetSlice (useTick s h) h).cpus h).idleTid →
        0 < ((resetSlice (useTick s h) h).cpus h).currentTid ∧
          ((resetSlice (useTick s h) h).cpus h).currentTid < cfg.threadMax := by
      simpa [resetSlice, useTick] using hok
    obtain ⟨rq, next, rq', hsched⟩ := schedule_cases hok' hsch
    exact fun hsl => hst (hsched.paused (.inl rfl) hsl)
  · exact hst

theorem lt_add_of_fits {a n : UInt64} (hn : n ≠ 0) (hfit : a.toNat + n.toNat < 2 ^ 64) :
    a < a + n := by
  rw [UInt64.lt_iff_toNat_lt, UInt64.toNat_add, Nat.mod_eq_of_lt hfit]
  have hpos : n.toNat ≠ 0 := fun h0 => hn (UInt64.toNat_inj.mp h0)
  omega

theorem sleepersWait_trap {regs : Trapframe} {io : TrapInput} (hb : Basic cfg s)
    (ho : Orderly cfg s) (hw : SleepersWait cfg s) (hg : Allowed cfg s (.trap h regs io))
    (hc : SleepsFit cfg s (.trap h regs io)) (hstep : step cfg s (.trap h regs io) = .ok s') :
    SleepersWait cfg s' := by
  obtain ⟨q, hs⟩ := ho.joins.1
  have hticks := step_ticks hb hg hstep
  intro t h0 h1 hst
  by_cases hnew : t = (s.cpus h).currentTid ∧ ∃ n, trapAction cfg regs io = .sleep n ∧ n ≠ 0
  · -- the thread that just went to sleep
    obtain ⟨rfl, n, ha, hn⟩ := hnew
    have hno : isTick s.bootHartid (.trap h regs io) = false := by
      simp only [isTick, decide_eq_false_iff_not]
      rintro ⟨-, hk⟩
      rw [trapAction_timer.mpr hk] at ha
      cases ha
    rw [(trap_sleep hb hg hstep ha hn).2, hticks, hno]
    exact lt_add_of_fits hn (hc.fits ha)
  · have hold := (trap_sleeping hb hg hstep hst).resolve_right hnew
    have hlt := hw t h0 h1 hold
    by_cases hdue : isTick s.bootHartid (.trap h regs io) = true ∧
        (s.threads t).wakeupTick ≤ s.ticks + 1
    · -- its time has come, so it does not sleep any more
      exfalso
      obtain ⟨s₁, htick, hslice, hrun, -⟩ := tick_wakes hb hs hg hdue.1 hstep h0 h1 hold hdue.2
      refine sliceTick_awake (by rw [hrun]; decide) ?_ hslice hst
      have hsame := threadsTick_sameHarts htick
      rw [hsame.currentTid, hsame.idleTid]
      have hcount : ((countTimer (saveRegs s h regs) h).cpus h).currentTid = (s.cpus h).currentTid ∧
          ((countTimer (saveRegs s h regs) h).cpus h).idleTid = (s.cpus h).idleTid :=
        ((countTimer_quiet (saveRegs s h regs) h).cpus h).2.2.2
      rw [hcount.1, hcount.2]
      exact hb.cur_ok hg.1
    · obtain ⟨-, hsame⟩ := asleep_step hb ho hg hc.killFree hstep h0 hold
        fun ht hle => hdue ⟨ht, hle⟩
      rw [hsame, hticks]
      split
      · rename_i ht
        exact UInt64.not_le.mp fun hle => hdue ⟨ht, hle⟩
      · exact hlt

theorem sleepersWait_step {e : Event} (hb : Basic cfg s) (ho : Orderly cfg s)
    (hw : SleepersWait cfg s) (hg : Allowed cfg s e) (hc : SleepsFit cfg s e)
    (hstep : step cfg s e = .ok s') : SleepersWait cfg s' := by
  cases e with
  | cpuInit h =>
    obtain ⟨-, c, -, -, -, -, -, rfl⟩ := cpuInit_cases hstep
    exact hw
  | enterIdle h =>
    obtain ⟨-, -, -, -, -, -, -, hticks, -, -, hth, -⟩ := enterIdle_cases hstep
    intro t h0 h1 hst
    rw [hth] at hst ⊢
    rw [hticks]
    by_cases ht : t = h
    · rw [if_pos ht] at hst
      cases hst
    · rw [if_neg ht] at hst ⊢
      exact hw t h0 h1 hst
  | trap h regs io => exact sleepersWait_trap hb ho hw hg hc hstep

/-- Nobody sleeps when the run starts. -/
theorem sleepersWait_init (hi : (kernelSystem cfg).init s) : SleepersWait cfg s := by
  intro t h0 h1 hst
  exact absurd hst (init_not_paused (.inl rfl) hi h0 h1)

theorem sleepersWait_reachable (hr : Reachable ((kernelSystem cfg).restrict (SleepsFit cfg)) s) :
    Orderly cfg s ∧ SleepersWait cfg s := by
  refine kernel_invariant (fun s => Orderly cfg s ∧ SleepersWait cfg s)
    (fun _ hi => ⟨⟨joins_init hi, readerWaits_init hi⟩, sleepersWait_init hi⟩) ?_ hr
  rintro s₁ e s₂ hb ⟨ho, hw⟩ hg hc hstep
  exact ⟨orderly_step hb ho hg hc.killFree hstep, sleepersWait_step hb ho hw hg hc hstep⟩

theorem path_bootHartid {cond : Kernel → Event → Prop} {vs : List (Event × Kernel)}
    (hr : Reachable ((kernelSystem cfg).restrict cond) s)
    (hp : Path ((kernelSystem cfg).restrict cond) s vs s') : s'.bootHartid = s.bootHartid := by
  induction hp with
  | refl => rfl
  | step hp hg hs ih =>
    have hb := basic_reachable (hr.path hp).unrestrict
    exact (step_bootHartid hb hg.1 hs).trans ih

theorem ticksIn_cons (boot : Nat) (e : Event) (k : Kernel) (vs : List (Event × Kernel)) :
    ticksIn boot ((e, k) :: vs) = ticksIn boot vs + if isTick boot e then 1 else 0 := by
  unfold ticksIn
  rw [List.countP_cons]

theorem toNat_succ {a : UInt64} {n : Nat} (hn : a.toNat + 1 < n) (hlt : n < 2 ^ 64) :
    (a + 1).toNat = a.toNat + 1 := by
  rw [UInt64.toNat_add, UInt64.toNat_one, Nat.mod_eq_of_lt (by omega)]

/-- A thread whose wake-up is `n` ticks ahead sleeps through the next `n - 1` of them. -/
theorem asleep_path {vs : List (Event × Kernel)} {t : Int} {n : Nat}
    (hr : Reachable ((kernelSystem cfg).restrict (SleepsFit cfg)) s) (h0 : 0 ≤ t)
    (hst : (s.threads t).state = .sleeping)
    (hwake : (s.threads t).wakeupTick.toNat = s.ticks.toNat + n)
    (hp : Path ((kernelSystem cfg).restrict (SleepsFit cfg)) s vs s')
    (hlt : ticksIn s.bootHartid vs < n) :
    (s'.threads t).state = .sleeping ∧
      (s'.threads t).wakeupTick = (s.threads t).wakeupTick ∧
      s'.ticks.toNat = s.ticks.toNat + ticksIn s.bootHartid vs := by
  -- induction on the steps: each tick brings the clock one closer, and none reaches the wake-up
  induction hp with
  | refl => exact ⟨hst, rfl, rfl⟩
  | @step vs s₁ s₂ e hp hg hs ih =>
    have hreach := hr.path hp
    have hb := basic_reachable hreach.unrestrict
    obtain ⟨ho, -⟩ := sleepersWait_reachable hreach
    have hboot := path_bootHartid hr hp
    rw [ticksIn_cons] at hlt ⊢
    obtain ⟨hst₁, hw₁, htk₁⟩ := ih (by omega)
    have hbound := (s.threads t).wakeupTick.toNat_lt
    have hsucc : isTick s.bootHartid e = true → (s₁.ticks + 1).toNat = s₁.ticks.toNat + 1 := by
      intro ht
      rw [if_pos ht] at hlt
      exact toNat_succ (n := (s.threads t).wakeupTick.toNat) (by omega) hbound
    have hticks := step_ticks hb hg.1 hs
    rw [hboot] at hticks
    have hnot : isTick s₁.bootHartid e = true → ¬ (s₁.threads t).wakeupTick ≤ s₁.ticks + 1 := by
      intro ht hle
      rw [hboot] at ht
      rw [UInt64.le_iff_toNat_le, hsucc ht, hw₁] at hle
      rw [if_pos ht] at hlt
      omega
    obtain ⟨hst₂, hw₂⟩ := asleep_step hb ho hg.1 hg.2.killFree hs h0 hst₁ hnot
    refine ⟨hst₂, hw₂.trans hw₁, ?_⟩
    rw [hticks]
    split
    · rename_i ht
      rw [hsucc ht]
      omega
    · omega

/-- Queue membership as `RqRepr` gives it: a queued thread is in exactly one queue. -/
theorem Sched.queued_once (hs : Sched cfg dead none s q) {t : Int} (hlo : (cfg.maxHarts : Int) ≤ t)
    (hhi : t < cfg.threadMax) (hst : (s.threads t).state = .runnable) :
    ∃! k, k < cfg.maxHarts ∧ t ∈ q k := by
  obtain ⟨k, hk, hmem⟩ := (hs.repr.onRq t).mp ((hs.runnable t hlo hhi).mp hst)
  refine ⟨k, ⟨hk, hmem⟩, ?_⟩
  rintro j ⟨hj, hmem'⟩
  exact hs.repr.disjoint j k hj hk t hmem' hmem

/-- In every kill-free run whose sleeps end before the clock wraps around, a thread that calls
`sleep` for `n` ticks at tick `s.ticks` is `SLEEPING` with wake-up tick `s.ticks + n` while fewer
than `n` ticks have passed; the `threads_tick` of the `n`-th tick makes it `RUNNABLE` and puts it
into exactly one run queue; and every sleeper of every state has its wake-up ahead. -/
theorem sleep_exact (cfg : Config) {s s₁ s₂ : Kernel} {h : Nat} {regs : Trapframe} {io : TrapInput}
    {n : UInt64} {vs : List (Event × Kernel)}
    (hr : Reachable ((kernelSystem cfg).restrict (SleepsFit cfg)) s)
    (hg : Allowed cfg s (.trap h regs io)) (hc : SleepsFit cfg s (.trap h regs io))
    (hstep : step cfg s (.trap h regs io) = .ok s₁) (ha : trapAction cfg regs io = .sleep n)
    (hn : n ≠ 0) (hp : Path ((kernelSystem cfg).restrict (SleepsFit cfg)) s₁ vs s₂) :
    SleepersWait cfg s₂ ∧
    (ticksIn s.bootHartid vs < n.toNat →
      (s₂.threads (s.cpus h).currentTid).state = .sleeping ∧
      (s₂.threads (s.cpus h).currentTid).wakeupTick.toNat = s.ticks.toNat + n.toNat ∧
      s₂.ticks.toNat = s.ticks.toNat + ticksIn s.bootHartid vs) ∧
    (ticksIn s.bootHartid vs + 1 = n.toNat → ∀ k regs' io' s₃,
      Allowed cfg s₂ (.trap k regs' io') → SleepsFit cfg s₂ (.trap k regs' io') →
      isTick s.bootHartid (.trap k regs' io') = true →
      step cfg s₂ (.trap k regs' io') = .ok s₃ →
      ∃ s₄ q, threadsTick cfg (countTimer (saveRegs s₂ k regs') k) k = .ok s₄ ∧
        (s₄.threads (s.cpus h).currentTid).state = .runnable ∧
        RqRepr cfg s₄.rq q ∧ ∃! j, j < cfg.maxHarts ∧ (s.cpus h).currentTid ∈ q j) := by
  have hb := basic_reachable hr.unrestrict
  have hr₁ : Reachable ((kernelSystem cfg).restrict (SleepsFit cfg)) s₁ :=
    hr.next (e := .trap h regs io) ⟨hg, hc⟩ hstep
  have hr₂ := hr₁.path hp
  have hb₂ := basic_reachable hr₂.unrestrict
  obtain ⟨ho₂, hw₂⟩ := sleepersWait_reachable hr₂
  obtain ⟨hlo, hhi⟩ := (trap_runAction hb hg hstep).2 (by rw [ha]; rfl)
  have hpos := cfg.maxHarts_pos
  have hboot₁ := step_bootHartid hb hg hstep
  obtain ⟨hst₁, hwake₁⟩ := trap_sleep hb hg hstep ha hn
  have hfit := hc.fits ha
  -- the clock does not move in the step that goes to sleep
  have htick₁ : s₁.ticks = s.ticks := by
    rw [trap_ticks hb hg hstep, ha]
    rfl
  have hsum : (s₁.threads (s.cpus h).currentTid).wakeupTick.toNat = s₁.ticks.toNat + n.toNat := by
    rw [hwake₁, htick₁, UInt64.toNat_add, Nat.mod_eq_of_lt hfit]
  have hasleep : ticksIn s.bootHartid vs < n.toNat →
      (s₂.threads (s.cpus h).currentTid).state = .sleeping ∧
      (s₂.threads (s.cpus h).currentTid).wakeupTick.toNat = s.ticks.toNat + n.toNat ∧
      s₂.ticks.toNat = s.ticks.toNat + ticksIn s.bootHartid vs := by
    intro hlt
    rw [← hboot₁] at hlt ⊢
    obtain ⟨hst, hw, htk⟩ := asleep_path hr₁ (by omega) hst₁ hsum hp hlt
    rw [hw, hsum, htk, htick₁]
    exact ⟨hst, rfl, rfl⟩
  refine ⟨hw₂, hasleep, ?_⟩
  intro hlast k regs' io' s₃ hg₂ hc₂ htick hstep₂
  obtain ⟨hst₂, hwake₂, htk₂⟩ := hasleep (by omega)
  obtain ⟨q, hs₂⟩ := ho₂.joins.1
  have hdue : (s₂.threads (s.cpus h).currentTid).wakeupTick ≤ s₂.ticks + 1 := by
    have hbound := (s₂.threads (s.cpus h).currentTid).wakeupTick.toNat_lt
    rw [UInt64.le_iff_toNat_le, UInt64.toNat_add, UInt64.toNat_one,
      Nat.mod_eq_of_lt (by omega)]
    omega
  have hboot₂ : s₂.bootHartid = s.bootHartid := (path_bootHartid hr₁ hp).trans hboot₁
  rw [← hboot₂] at htick
  obtain ⟨s₄, htick₄, -, hrun, q', hs₄⟩ :=
    tick_wakes hb₂ hs₂ hg₂ htick hstep₂ (by omega) hhi hst₂ hdue
  exact ⟨s₄, q', htick₄, hrun, hs₄.repr, hs₄.queued_once hlo hhi hrun⟩

/-- `user_main` (1) sleeps for one tick at tick 5, and the next tick wakes it. -/
theorem sleep_exact_example :
    ∃ s s₁ s₂, Reachable ((kernelSystem oneHart).restrict (SleepsFit oneHart)) s ∧
      step oneHart s (sysSleep 0 1) = .ok s₁ ∧ step oneHart s₁ (timerIrq 0) = .ok s₂ ∧
      SleepersWait oneHart s₁ ∧ (s₁.threads 1).state = .sleeping ∧
      (s₁.threads 1).wakeupTick.toNat = 5 + 1 ∧
      ∃ s₄ q, threadsTick oneHart
        (countTimer (saveRegs s₁ 0 { scause := 0x8000000000000005 }) 0) 0 =
          .ok s₄ ∧ (s₄.threads 1).state = .runnable ∧ RqRepr oneHart s₄.rq q ∧
        ∃! j, j < oneHart.maxHarts ∧ 1 ∈ q j := by
  obtain ⟨s, hr, hs⟩ := exists_reachable oneHart (SleepsFit oneHart) bootOnHart0 startMain
    (fun s => decide (SleepsFit oneHart s (sysSleep 0 1) ∧ (s.cpus 0).currentTid = 1 ∧
      s.bootHartid = 0 ∧ s.ticks.toNat = 5) && stepTo oneHart s (sysSleep 0 1) fun s₁ =>
        decide (SleepsFit oneHart s₁ (timerIrq 0)) && stepTo oneHart s₁ (timerIrq 0) fun _ => true)
    (by decide +kernel)
  rw [Bool.and_eq_true, decide_eq_true_eq] at hs
  obtain ⟨⟨hc, hcur, hboot, htk⟩, hstep⟩ := hs
  obtain ⟨s₁, hg, hs₁, hnext⟩ := exists_step hstep
  rw [Bool.and_eq_true, decide_eq_true_eq] at hnext
  obtain ⟨s₂, hg₁, hs₂, -⟩ := exists_step hnext.2
  have hexact := sleep_exact oneHart hr hg hc hs₁ rfl (by decide) .refl
  rw [hcur, htk, hboot] at hexact
  obtain ⟨hw, hasleep, hwoken⟩ := hexact
  obtain ⟨hst, hwake, -⟩ := hasleep (by decide)
  exact ⟨s, s₁, s₂, hr, hs₁, hs₂, hw, hst, hwake,
    hwoken rfl 0 _ _ s₂ hg₁ hnext.1 (by decide) hs₂⟩

/-- At tick 5 `user_main` (1) asks for `2 ^ 64 - 3` ticks; the sum wraps around to 2 and the next
tick ends the sleep. -/
theorem long_sleep_ends_at_once :
    ∃ s s₁ s₂, Reachable ((kernelSystem oneHart).restrict (KillFree oneHart)) s ∧
      step oneHart s (sysSleep 0 0xFFFFFFFFFFFFFFFD) = .ok s₁ ∧
      step oneHart s₁ (timerIrq 0) = .ok s₂ ∧ s.ticks = 5 ∧
      (s₁.threads 1).state = .sleeping ∧ (s₁.threads 1).wakeupTick = 2 ∧ ¬ SleepersWait oneHart s₁ ∧
      ticksIn s.bootHartid [(timerIrq 0, s₂)] < (0xFFFFFFFFFFFFFFFD : UInt64).toNat ∧
      (s₂.threads 1).state = .runnable := by
  obtain ⟨s, hr, hs⟩ := exists_reachable oneHart (KillFree oneHart) bootOnHart0 startMain
    (fun s => decide (s.ticks = 5 ∧ s.bootHartid = 0) &&
      stepTo oneHart s (sysSleep 0 0xFFFFFFFFFFFFFFFD) fun s₁ =>
        decide ((s₁.threads 1).state = .sleeping ∧ (s₁.threads 1).wakeupTick = 2 ∧ s₁.ticks = 5) &&
        stepTo oneHart s₁ (timerIrq 0) fun s₂ => decide ((s₂.threads 1).state = .runnable))
    (by decide +kernel)
  rw [Bool.and_eq_true, decide_eq_true_eq] at hs
  obtain ⟨⟨htk, hboot⟩, hstep⟩ := hs
  obtain ⟨s₁, -, hs₁, hnext⟩ := exists_step hstep
  rw [Bool.and_eq_true, decide_eq_true_eq] at hnext
  obtain ⟨⟨hst, hwake, htk₁⟩, hstep₂⟩ := hnext
  obtain ⟨s₂, -, hs₂, hrun⟩ := exists_step hstep₂
  refine ⟨s, s₁, s₂, hr, hs₁, hs₂, htk, hst, hwake, ?_, ?_, of_decide_eq_true hrun⟩
  · intro hw
    have hlt := hw 1 (by decide) (by decide) hst
    rw [hwake, htk₁] at hlt
    exact absurd hlt (by decide)
  · rw [hboot]
    have hone : ticksIn 0 [(timerIrq 0, s₂)] = 1 := rfl
    rw [hone]
    decide

end Ccos
