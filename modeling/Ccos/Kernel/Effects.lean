import Mathlib.Tactic
import Ccos.Kernel.System
import Ccos.RunQueue.Links

/-!
# What each kernel function can change

Inversion lemmas: from a call that returned, what it wrote and under which guards.  The invariants
that hold in every run are derived from these and never unfold the functions again.
-/

namespace Ccos

open Reasoning

/-! ## Harts -/

/-- What `cpu_t` records about the harts that have entered idle. -/
structure Harts (cfg : Config) (s : Kernel) : Prop where
  curTf : ∀ h, Entered cfg s h → (s.cpus h).curTf = .thread (s.cpus h).currentTid
  curRange : ∀ h, Entered cfg s h → (s.cpus h).currentTid = h ∨
    ((cfg.maxHarts : Int) ≤ (s.cpus h).currentTid ∧ (s.cpus h).currentTid < cfg.threadMax)

/-- Only `need_resched` of the harts may differ. -/
def SameHarts (s s' : Kernel) : Prop :=
  ∀ h, s'.cpus h = { s.cpus h with needResched := (s'.cpus h).needResched }

theorem SameHarts.refl (s : Kernel) : SameHarts s s := fun _ => rfl

theorem SameHarts.trans {s s' s'' : Kernel} (h : SameHarts s s') (h' : SameHarts s' s'') :
    SameHarts s s'' := by
  intro k
  rw [h' k, h k]

theorem SameHarts.of_eq {s s' : Kernel} (h : s'.cpus = s.cpus) : SameHarts s s' := by
  intro k
  rw [h]

theorem SameHarts.needResched (s : Kernel) (h : Nat) (b : Bool) :
    SameHarts s (s.modCpu h fun c => { c with needResched := b }) := by
  intro k
  simp only [Kernel.modCpu_cpus]
  split <;> rfl

namespace SameHarts

variable {s s' : Kernel} (h : SameHarts s s') (k : Nat)

include h

theorem currentTid : (s'.cpus k).currentTid = (s.cpus k).currentTid := by rw [h k]

theorem curTf : (s'.cpus k).curTf = (s.cpus k).curTf := by rw [h k]

theorem hartid : (s'.cpus k).hartid = (s.cpus k).hartid := by rw [h k]

theorem idleTid : (s'.cpus k).idleTid = (s.cpus k).idleTid := by rw [h k]

theorem online : (s'.cpus k).online = (s.cpus k).online := by rw [h k]

theorem sliceLeft : (s'.cpus k).sliceLeft = (s.cpus k).sliceLeft := by rw [h k]

theorem entered (cfg : Config) : Entered cfg s' k ↔ Entered cfg s k := by
  unfold Entered
  rw [h.online, h.hartid, h.idleTid, h.curTf]

end SameHarts

/-! ## The rest of the kernel -/

variable {cfg : Config} {s s' : Kernel} {h : Nat}

/-- Everything but threads, queues, harts and pending IPIs is unchanged. -/
def SchedOnly (s s' : Kernel) : Prop :=
  s' = { s with threads := s'.threads, rq := s'.rq, cpus := s'.cpus, ssip := s'.ssip }

theorem SchedOnly.refl (s : Kernel) : SchedOnly s s := rfl

theorem SchedOnly.trans {s'' : Kernel} (h₁ : SchedOnly s s') (h₂ : SchedOnly s' s'') :
    SchedOnly s s'' := by
  unfold SchedOnly at h₁ h₂ ⊢
  rw [h₂, h₁]

namespace SchedOnly

variable (ho : SchedOnly s s')

include ho

theorem mem : s'.mem = s.mem := by rw [ho]

theorem rx : s'.rx = s.rx := by rw [ho]

theorem ticks : s'.ticks = s.ticks := by rw [ho]

theorem stdinWaiter : s'.stdinWaiter = s.stdinWaiter := by rw [ho]

theorem bootHartid : s'.bootHartid = s.bootHartid := by rw [ho]

theorem smpBootDone : s'.smpBootDone = s.smpBootDone := by rw [ho]

theorem sie : s'.sie = s.sie := by rw [ho]

theorem irqs : s'.irqs = s.irqs := by rw [ho]

end SchedOnly

/-! ## `thread_make_runnable` -/

/-- The notification at the end of `thread_make_runnable`. -/
def notifyHart (cfg : Config) (s : Kernel) (h target : Nat) : Kernel :=
  if target = cpuCurrentHartid s h then s.modCpu h fun c => { c with needResched := true }
  else smpKickHart cfg s target

/-- `t` was made `RUNNABLE` and pushed to the queue of `target`. -/
structure Woken (cfg : Config) (h : Nat) (s : Kernel) (t : Int) (target : Nat) (rq : RunQueues)
    (s' : Kernel) : Prop where
  lower : (cfg.maxHarts : Int) ≤ t
  upper : t < cfg.threadMax
  onRq : s.rq.onRq t = false
  state : (s.threads t).state ≠ .running
  push : rqPushTail cfg s.rq target t = .ok rq
  eq : s' = notifyHart cfg ((s.modThread t Thread.makeRunnable).setRq rq) h target

theorem threadMakeRunnable_cases {t : Int} {p : Nat}
    (hw : threadMakeRunnable cfg s h t p = .ok s') :
    (s' = s ∧ (t < cfg.maxHarts ∨ (cfg.threadMax : Int) ≤ t ∨ s.rq.onRq t = true ∨
      (s.threads t).state = .running)) ∨
    ∃ rq, Woken cfg h s t (schedPickTargetHart cfg s p) rq s' := by
  unfold threadMakeRunnable at hw
  by_cases h1 : t < 0 ∨ (cfg.threadMax : Int) ≤ t
  · rw [if_pos h1, Except.ok.injEq] at hw
    exact .inl ⟨hw.symm, by omega⟩
  by_cases h2 : t < cfg.maxHarts
  · rw [if_neg h1, if_pos h2, Except.ok.injEq] at hw
    exact .inl ⟨hw.symm, .inl h2⟩
  by_cases h3 : s.rq.onRq t = true ∨ (s.threads t).state = .running
  · rw [if_neg h1, if_neg h2, if_pos h3, Except.ok.injEq] at hw
    exact .inl ⟨hw.symm, .inr (.inr h3)⟩
  rw [if_neg h1, if_neg h2, if_neg h3] at hw
  simp only [bind_eq_ok] at hw
  obtain ⟨rq, hpush, hw⟩ := hw
  refine .inr ⟨rq, by omega, by omega, by simpa using (not_or.mp h3).1, (not_or.mp h3).2, hpush, ?_⟩
  unfold notifyHart
  split at hw
  · rename_i heq
    rw [if_pos heq]
    exact (Except.ok.inj hw).symm
  · rename_i hne
    rw [if_neg hne]
    exact (Except.ok.inj hw).symm

theorem smpKickHart_threads (k : Nat) : (smpKickHart cfg s k).threads = s.threads := by
  unfold smpKickHart sbiSendIpi
  split_ifs <;> rfl

theorem smpKickHart_rq (k : Nat) : (smpKickHart cfg s k).rq = s.rq := by
  unfold smpKickHart sbiSendIpi
  split_ifs <;> rfl

theorem smpKickHart_cpus (k : Nat) : (smpKickHart cfg s k).cpus = s.cpus := by
  unfold smpKickHart sbiSendIpi
  split_ifs <;> rfl

theorem smpKickHart_ssip (k : Nat) {j : Nat} (hj : s.ssip j = true) :
    (smpKickHart cfg s k).ssip j = true := by
  unfold smpKickHart sbiSendIpi
  split_ifs <;> simp_all

theorem smpKickHart_schedOnly (k : Nat) : SchedOnly s (smpKickHart cfg s k) := by
  unfold smpKickHart sbiSendIpi
  split_ifs <;> rfl

@[simp] theorem notifyHart_threads (k : Nat) : (notifyHart cfg s h k).threads = s.threads := by
  unfold notifyHart
  split
  · rfl
  · exact smpKickHart_threads k

@[simp] theorem notifyHart_rq (k : Nat) : (notifyHart cfg s h k).rq = s.rq := by
  unfold notifyHart
  split
  · rfl
  · exact smpKickHart_rq k

theorem notifyHart_sameHarts (k : Nat) : SameHarts s (notifyHart cfg s h k) := by
  unfold notifyHart
  split
  · exact SameHarts.needResched s h true
  · exact .of_eq (smpKickHart_cpus k)

theorem notifyHart_schedOnly (k : Nat) : SchedOnly s (notifyHart cfg s h k) := by
  unfold notifyHart
  split
  · rfl
  · exact smpKickHart_schedOnly k

section Woken

variable {t : Int} {target : Nat} {rq : RunQueues} (hw : Woken cfg h s t target rq s')

include hw

theorem Woken.threads (u : Int) : s'.threads u =
    if u = t then (s.threads u).makeRunnable else s.threads u := by
  rw [hw.eq, notifyHart_threads]
  rfl

theorem Woken.rq_eq : s'.rq = rq := by
  rw [hw.eq, notifyHart_rq]
  rfl

theorem Woken.sameHarts : SameHarts s s' := by
  rw [hw.eq]
  exact SameHarts.trans (.of_eq rfl) (notifyHart_sameHarts target)

theorem Woken.schedOnly : SchedOnly s s' := by
  rw [hw.eq]
  have hset : SchedOnly s ((s.modThread t Thread.makeRunnable).setRq rq) := rfl
  exact hset.trans (notifyHart_schedOnly target)

end Woken

theorem threadMakeRunnable_threads {t u : Int} {p : Nat}
    (hw : threadMakeRunnable cfg s h t p = .ok s') (hu : u ≠ t) : s'.threads u = s.threads u := by
  obtain ⟨rfl, -⟩ | ⟨rq, hw⟩ := threadMakeRunnable_cases hw
  · rfl
  · rw [hw.threads, if_neg hu]

theorem threadMakeRunnable_sameHarts {t : Int} {p : Nat}
    (hw : threadMakeRunnable cfg s h t p = .ok s') : SameHarts s s' := by
  obtain ⟨rfl, -⟩ | ⟨rq, hw⟩ := threadMakeRunnable_cases hw
  · exact .refl _
  · exact hw.sameHarts

theorem threadMakeRunnable_schedOnly {t : Int} {p : Nat}
    (hw : threadMakeRunnable cfg s h t p = .ok s') : SchedOnly s s' := by
  obtain ⟨rfl, -⟩ | ⟨rq, hw⟩ := threadMakeRunnable_cases hw
  · exact .refl _
  · exact hw.schedOnly

/-! ## `recycle_thread` -/

theorem recycleThread_eq {t : Int} (h1 : 0 < t) (h2 : t < cfg.threadMax) :
    recycleThread cfg s t =
      ((s.setStdinWaiter (if s.stdinWaiter = t then -1 else s.stdinWaiter)).modThread t
        Thread.recycled).setRq (s.rq.unlink t) := by
  have hb : ¬ (t ≤ 0 ∨ (cfg.threadMax : Int) ≤ t) := by omega
  unfold recycleThread
  rw [if_neg hb]
  by_cases hw : s.stdinWaiter = t
  · simp only [if_pos hw]
    rfl
  · simp only [if_neg hw]
    rfl

theorem recycleThread_cpus (t : Int) : (recycleThread cfg s t).cpus = s.cpus := by
  unfold recycleThread
  split_ifs <;> rfl

/-! ## `schedule` -/

/-- A dead thread that `schedule` reclaims when it switches away from it. -/
def Reclaims (cfg : Config) (t : Thread) : Prop :=
  t.state = .zombie ∧ ((0 ≤ t.joinWaiter ∧ t.joinWaiter < cfg.threadMax) ∨ t.detached = true)

instance (t : Thread) : Decidable (Reclaims cfg t) :=
  inferInstanceAs (Decidable (_ ∧ _))

/-- What `schedule` leaves of the thread it switches away from. -/
def leftThread (cfg : Config) (isIdle : Prop) [Decidable isIdle] (t : Thread) : Thread :=
  if isIdle ∨ t.state = .running then (threadMarkNotRunning t).setState .runnable
  else if Reclaims cfg t then t.recycled
  else threadMarkNotRunning t

theorem leftThread_requeued {isIdle : Prop} [Decidable isIdle] {t : Thread}
    (ht : isIdle ∨ t.state = .running) :
    leftThread cfg isIdle t = (threadMarkNotRunning t).setState .runnable := if_pos ht

theorem leftThread_reclaimed {isIdle : Prop} [Decidable isIdle] {t : Thread} (hi : ¬ isIdle)
    (hz : Reclaims cfg t) : leftThread cfg isIdle t = t.recycled := by
  have hnot : ¬ (isIdle ∨ t.state = .running) := by simp [hi, hz.1]
  rw [leftThread, if_neg hnot, if_pos hz]

theorem leftThread_kept {isIdle : Prop} [Decidable isIdle] {t : Thread} (hi : ¬ isIdle)
    (hr : t.state ≠ .running) (hz : ¬ Reclaims cfg t) :
    leftThread cfg isIdle t = threadMarkNotRunning t := by
  rw [leftThread, if_neg (not_or.mpr ⟨hi, hr⟩), if_neg hz]

/-- What `schedule` does to the queues before it picks. -/
def leftRq (cfg : Config) (s : Kernel) (h : Nat) : Except Halt RunQueues :=
  let c := s.cpus h
  if c.currentTid ≠ c.idleTid ∧ (s.threads c.currentTid).state = .running then
    rqPushTail cfg s.rq c.hartid c.currentTid
  else if c.currentTid ≠ c.idleTid ∧ Reclaims cfg (s.threads c.currentTid) then
    .ok (s.rq.unlink c.currentTid)
  else .ok s.rq

/-- `g_stdin_waiter` after `schedule`. -/
def leftWaiter (cfg : Config) (s : Kernel) (h : Nat) : Int :=
  let c := s.cpus h
  if c.currentTid ≠ c.idleTid ∧ Reclaims cfg (s.threads c.currentTid) ∧
    s.stdinWaiter = c.currentTid then -1
  else s.stdinWaiter

/-- The kernel after the first part of `schedule`. -/
def leftKernel (cfg : Config) (s : Kernel) (h : Nat) (rq : RunQueues) : Kernel :=
  let c := s.cpus h
  ((s.setRq rq).setStdinWaiter (leftWaiter cfg s h)).modThread c.currentTid
    (leftThread cfg (c.currentTid = c.idleTid))

theorem Kernel.modThread_modThread (s : Kernel) (t : Int) (f g : Thread → Thread) :
    (s.modThread t f).modThread t g = s.modThread t fun x => g (f x) := by
  unfold Kernel.modThread
  congr 1
  funext u
  by_cases hu : u = t <;> simp [hu]

theorem Kernel.modThread_congr {s : Kernel} {t : Int} {f g : Thread → Thread}
    (hfg : f (s.threads t) = g (s.threads t)) : s.modThread t f = s.modThread t g := by
  unfold Kernel.modThread
  congr 1
  funext u
  by_cases hu : u = t
  · simp only [hu, if_true, hfg]
  · simp only [hu, if_false]

theorem scheduleLeave_eq
    (hc : (s.cpus h).currentTid ≠ (s.cpus h).idleTid →
      0 < (s.cpus h).currentTid ∧ (s.cpus h).currentTid < cfg.threadMax) :
    scheduleLeave cfg s h = (leftRq cfg s h).map (leftKernel cfg s h) := by
  unfold scheduleLeave leftRq leftKernel leftWaiter
  dsimp only
  by_cases hidle : (s.cpus h).currentTid = (s.cpus h).idleTid
  · -- the idle thread is neither pushed nor reclaimed
    simp only [hidle, not_true_eq_false, ne_eq, false_and, if_false, if_true, ok_bind, Except.map,
      Kernel.modThread_modThread]
    refine congrArg Except.ok (Kernel.modThread_congr ?_)
    exact (leftThread_requeued (.inl hidle)).symm
  have hcur := hc hidle
  by_cases hrun : (s.threads (s.cpus h).currentTid).state = .running
  · -- still `RUNNING`: pushed, so no longer a zombie to reclaim
    have hz : ¬ Reclaims cfg (s.threads (s.cpus h).currentTid) := fun hr => by
      simp [Reclaims, hrun] at hr
    simp only [hidle, hrun, hz, not_false_eq_true, ne_eq, true_and, and_false, false_and,
      if_false, if_true, Kernel.modThread_rq]
    cases rqPushTail cfg s.rq (s.cpus h).hartid (s.cpus h).currentTid with
    | error e => rfl
    | ok rq =>
      simp only [ok_bind, Except.map, Kernel.modThread_threads, Kernel.setRq_threads, if_true,
        threadMarkNotRunning_state, Thread.setState_state, reduceCtorEq, false_and, if_false]
      refine congrArg Except.ok ?_
      have hmerge := Kernel.modThread_modThread (s.setRq rq) (s.cpus h).currentTid
        (Thread.setState · .runnable) threadMarkNotRunning
      refine hmerge.trans (Kernel.modThread_congr ?_)
      exact (leftThread_requeued (.inr hrun)).symm
  · simp only [hidle, hrun, not_false_eq_true, ne_eq, true_and, and_false, if_false, ok_bind,
      Kernel.modThread_threads, if_true, threadMarkNotRunning_state,
      threadMarkNotRunning_joinWaiter, threadMarkNotRunning_detached]
    by_cases hz : Reclaims cfg (s.threads (s.cpus h).currentTid)
    · -- dead and collected by nobody: its slot is freed, with its place in the queues
      have hz' := hz
      unfold Reclaims at hz'
      rw [if_pos hz', if_pos hz, recycleThread_eq hcur.1 hcur.2]
      refine congrArg Except.ok ?_
      have hmerge := Kernel.modThread_modThread
        ((s.setRq (s.rq.unlink (s.cpus h).currentTid)).setStdinWaiter
          (if s.stdinWaiter = (s.cpus h).currentTid then -1 else s.stdinWaiter))
        (s.cpus h).currentTid threadMarkNotRunning Thread.recycled
      simp only [hz, true_and]
      refine hmerge.trans (Kernel.modThread_congr ?_)
      exact (leftThread_reclaimed hidle hz).symm
    · -- suspended, or a zombie that keeps its exit code for a join
      have hz' := hz
      unfold Reclaims at hz'
      rw [if_neg hz', if_neg hz]
      refine congrArg Except.ok ?_
      simp only [hz, false_and, if_false]
      refine Kernel.modThread_congr ?_
      exact (leftThread_kept hidle hrun hz).symm

/-- `schedule` on hart `h` left `rq` after requeueing, picked `next` and the queues `rq'`. -/
structure Scheduled (cfg : Config) (h : Nat) (s : Kernel) (rq : RunQueues) (next : Int)
    (rq' : RunQueues) (s' : Kernel) : Prop where
  left : leftRq cfg s h = .ok rq
  pick : schedulePick cfg (leftKernel cfg s h rq).threads (s.cpus h).hartid (s.cpus h).idleTid
    (cfg.threadMax + 1) rq = .ok (next, rq')
  picked : Picked cfg (leftKernel cfg s h rq).threads (s.cpus h).hartid
    (s.cpus h).idleTid next rq rq'
  eq : s' = scheduleEnter ((leftKernel cfg s h rq).setRq rq') h (s.cpus h).currentTid next

theorem schedule_cases {tf : Int}
    (hc : (s.cpus h).currentTid ≠ (s.cpus h).idleTid →
      0 < (s.cpus h).currentTid ∧ (s.cpus h).currentTid < cfg.threadMax)
    (hs : schedule cfg s h tf = .ok s') :
    ∃ rq next rq', Scheduled cfg h s rq next rq' s' := by
  unfold schedule at hs
  simp only [bind_eq_ok] at hs
  obtain ⟨-, -, s₁, hleave, ⟨next, rq'⟩, hpick, hs⟩ := hs
  rw [scheduleLeave_eq hc] at hleave
  cases hrq : leftRq cfg s h with
  | error e =>
    rw [hrq] at hleave
    cases hleave
  | ok rq =>
    rw [hrq] at hleave
    obtain rfl : leftKernel cfg s h rq = s₁ := Except.ok.inj hleave
    exact ⟨rq, next, rq', hrq, hpick, schedulePick_picked hpick, (Except.ok.inj hs).symm⟩

section Scheduled

variable {rq rq' : RunQueues} {next : Int} (hs : Scheduled cfg h s rq next rq' s')

include hs

theorem Scheduled.threads (u : Int) : s'.threads u =
    if u = next then
      threadMarkRunning (((leftKernel cfg s h rq).threads u).setState .running) (s.cpus h).hartid
    else (leftKernel cfg s h rq).threads u := by
  rw [hs.eq]
  rfl

theorem Scheduled.cpus_ne {k : Nat} (hk : k ≠ h) : s'.cpus k = s.cpus k := by
  rw [hs.eq]
  exact if_neg hk

theorem Scheduled.cpus_self : s'.cpus h =
    { s.cpus h with
      currentTid := next
      sliceLeft := schedSliceTicks
      needResched := false
      ctxSwitches :=
        if next ≠ (s.cpus h).currentTid then (s.cpus h).ctxSwitches + 1
        else (s.cpus h).ctxSwitches
      curTf := .thread next } := by
  rw [hs.eq]
  exact if_pos rfl

theorem Scheduled.rq_eq : s'.rq = rq' := by
  rw [hs.eq]
  rfl

theorem Scheduled.stdinWaiter_eq : s'.stdinWaiter = leftWaiter cfg s h := by
  rw [hs.eq]
  rfl

/-- `schedule` touches threads, queues, its own hart and the stdin waiter. -/
theorem Scheduled.rest :
    s' = { s with threads := s'.threads, rq := s'.rq, cpus := s'.cpus,
                  stdinWaiter := s'.stdinWaiter } := by
  rw [hs.eq]
  rfl

end Scheduled

end Ccos
