import Mathlib.Tactic
import Ccos.Sched.Basic

/-!
# What a trap does to the other threads

A trap writes the thread its hart executes and the few threads its action is about.  Every other
thread keeps its record, except that `join` and `detach` leave a mark on their target and `schedule`
may run it.
-/

namespace Ccos

open Reasoning

variable {cfg : Config} {s s' : Kernel} {h : Nat} {cur u : Int}

/-- Thread `u` is none of the threads that the action `a` on hart `h` is about. -/
structure Bystands (cfg : Config) (s : Kernel) (h : Nat) (a : Action) (u : Int) : Prop where
  slot : 0 ≤ u
  used : (s.threads u).state ≠ .unused
  other : u ≠ (s.cpus h).currentTid
  lives : terminated cfg s h a ≠ some u
  notJoiner : ¬ Joiner cfg s h a u
  kept : collected cfg s h a ≠ some u
  notDue : a = .timer → (s.cpus h).hartid = s.bootHartid →
    ¬ ((s.threads u).state = .sleeping ∧ (s.threads u).wakeupTick ≤ s.ticks + 1)
  notReader : ∀ claims, a = .external claims → s.stdinWaiter ≠ u

/-- The mark that `join` or `detach` leaves on its target. -/
def marked (cfg : Config) (s : Kernel) (h : Nat) (a : Action) (u : Int) : Thread :=
  match a with
  | .join t _ =>
    if t = u ∧ JoinAccepts cfg s h t then (s.threads u).setJoinWaiter (s.cpus h).currentTid
    else s.threads u
  | .detach t => if t = u ∧ DetachAccepts cfg s t then (s.threads u).detach else s.threads u
  | _ => s.threads u

/-- A trap up to its `schedule`. -/
def Leads (cfg : Config) (s : Kernel) (h : Nat) (cur : Int) (u : Int) (t : Thread) (s' : Kernel) :
    Prop :=
  ∃ s₁, s₁.threads u = t ∧ SameCpu (s.cpus h) (s₁.cpus h) ∧
    (schedule cfg s₁ h cur = .ok s' ∨ s' = s₁)

theorem modThread_other {t : Int} {f : Thread → Thread} (hu : u ≠ t) :
    (s.modThread t f).threads u = s.threads u := by
  rw [Kernel.modThread_threads, if_neg hu]

theorem setA0_other {t : Int} {v : UInt64} (hu : u ≠ t) : (s.setA0 t v).threads u = s.threads u :=
  modThread_other hu

theorem recycleThread_other {t : Int} (hu : u ≠ t) :
    (recycleThread cfg s t).threads u = s.threads u := by
  by_cases ht : t ≤ 0 ∨ (cfg.threadMax : Int) ≤ t
  · unfold recycleThread
    rw [if_pos ht]
  · rw [recycleThread_eq (by omega) (by omega)]
    exact modThread_other hu

theorem storeStatus_threads (p : UInt64) (v : Int) : (storeStatus s p v).threads = s.threads := by
  unfold storeStatus
  split <;> rfl

theorem deliver_other {w code : Int} (hu : u ≠ w) : (deliver s w code).threads u = s.threads u := by
  unfold deliver
  rw [modThread_other hu, setA0_other hu, storeStatus_threads]

theorem blockCur_other {buf len : UInt64} (hu : u ≠ (s.cpus h).currentTid) :
    (blockCur s h buf len).threads u = s.threads u := by
  unfold blockCur
  dsimp only
  rw [modThread_other hu, Kernel.setStdinWaiter_threads, modThread_other hu]

theorem completeRead_other (hu : u ≠ s.stdinWaiter) :
    (completeRead s).threads u = s.threads u := by
  unfold completeRead
  dsimp only
  rw [modThread_other hu]
  rfl

/-! ## System calls -/

theorem sleep_bystander {ticks : UInt64} (hcur : (s.cpus h).currentTid = cur) (hu : u ≠ cur)
    (hs : threadSysSleep cfg s h cur ticks = .ok s') : Leads cfg s h cur u (s.threads u) s' := by
  subst hcur
  rcases threadSysSleep_cases hs with ⟨-, hsch⟩ | ⟨-, hsch⟩
  · exact ⟨s, rfl, .refl _, .inl hsch⟩
  · have hsleep : (sleepCur s h ticks).threads u = s.threads u := by
      unfold sleepCur
      rw [Kernel.setRq_threads, modThread_other hu]
    exact ⟨_, hsleep, .refl _, .inl hsch⟩

theorem exit_bystander {code : Int} (hcur : (s.cpus h).currentTid = cur) (hu : u ≠ cur)
    (hw : (s.threads cur).joinWaiter ≠ u)
    (hs : threadSysExit cfg s h cur code = .ok s') : Leads cfg s h cur u (s.threads u) s' := by
  subst hcur
  obtain ⟨s₁, hrel, hsch⟩ := threadSysExit_cases hs
  have hcur₁ : (exitCur s h (s.cpus h).currentTid code).threads u = s.threads u := by
    unfold exitCur
    rw [Kernel.setRq_threads, modThread_other hu]
  refine ⟨_, ?_, ?_, .inl hsch⟩
  · rw [modThread_other hu]
    rcases hrel with ⟨-, -, s₀, hs₀, rfl⟩ | ⟨-, rfl⟩
    · rw [recycleThread_other hu, threadMakeRunnable_threads hs₀ hw.symm, deliver_other hw.symm,
        hcur₁]
    · exact hcur₁
  · show SameCpu (s.cpus h) (s₁.cpus h)
    rcases hrel with ⟨-, -, s₀, hs₀, rfl⟩ | ⟨-, rfl⟩
    · rw [recycleThread_cpus]
      have hsame := (threadMakeRunnable_sameHarts hs₀).sameCpu h
      rw [deliver_cpus] at hsame
      exact hsame
    · exact .refl _

theorem join_bystander {t : Int} {p : UInt64} (hcur : (s.cpus h).currentTid = cur) (hu : u ≠ cur)
    (hcoll : collected cfg s h (.join t p) ≠ some u)
    (hs : threadSysJoin cfg s h cur t p = .ok s') :
    Leads cfg s h cur u (marked cfg s h (.join t p) u) s' := by
  subst hcur
  rw [marked]
  rcases threadSysJoin_cases hs with ⟨hno, v, -, rfl⟩ | ⟨hacc, hz, rfl⟩ | ⟨hacc, hz, hsch⟩
  · rw [if_neg fun hc => hno hc.2]
    exact ⟨_, setA0_other hu, .refl _, .inr rfl⟩
  · have htu : t ≠ u := by
      rintro rfl
      exact hcoll (if_pos ⟨hacc, hz⟩)
    rw [if_neg fun hc => htu hc.1]
    refine ⟨_, ?_, ?_, .inr rfl⟩
    · rw [setA0_other hu, recycleThread_other htu.symm, storeStatus_threads]
    · show SameCpu _ ((recycleThread cfg (storeStatus s p _) t).cpus h)
      rw [recycleThread_cpus]
      unfold storeStatus
      split <;> exact .refl _
  · refine ⟨waitCur s h t p, ?_, .refl _, .inl hsch⟩
    unfold waitCur
    rw [Kernel.modThread_threads, modThread_other hu]
    by_cases htu : u = t
    · rw [if_pos htu, if_pos ⟨htu.symm, hacc⟩]
    · rw [if_neg htu, if_neg fun hc => htu hc.1.symm]

theorem create_bystander {entry arg name sstatus : UInt64} (hu : u ≠ cur)
    (hused : (s.threads u).state ≠ .unused)
    (hs : threadSysCreate cfg s h cur entry arg name sstatus = .ok s') :
    Leads cfg s h cur u (s.threads u) s' := by
  obtain ⟨tid, s₁, hcreate, rfl⟩ := threadSysCreate_cases hs
  rcases threadCreateUser_cases hcreate with ⟨-, rfl⟩ | ⟨-, -, hfree, hmake⟩
  · exact ⟨_, setA0_other hu, .refl _, .inr rfl⟩
  · have hne : u ≠ tid := by
      rintro rfl
      exact hused hfree
    refine ⟨s₁.setA0 cur (UInt64.ofInt tid), ?_, (threadMakeRunnable_sameHarts hmake).sameCpu h,
      .inr rfl⟩
    rw [setA0_other hu, threadMakeRunnable_threads hmake hne, modThread_other hne]

theorem kill_bystander {t : Int} (hu : u ≠ cur)
    (hterm : terminated cfg s h (.kill t) ≠ some u) (hjoin : ¬ Joiner cfg s h (.kill t) u)
    (hs : threadSysKill cfg s h cur t = .ok s') : Leads cfg s h cur u (s.threads u) s' := by
  rcases threadSysKill_cases hs with ⟨-, v, rfl⟩ | ⟨hhit, hkill⟩
  · exact ⟨_, setA0_other hu, .refl _, .inr rfl⟩
  · have hterm' : terminated cfg s h (.kill t) = some t := if_pos hhit
    have hut : u ≠ t := by
      rintro rfl
      exact hterm hterm'
    have huw : u ≠ (s.threads t).joinWaiter := fun heq => hjoin ⟨t, hterm', heq⟩
    obtain ⟨rq, s₁, -, hrel, rfl⟩ := killThread_cases hkill
    have hcpus : SameCpu (s.cpus h) ((killed cfg s h t rq).cpus h) :=
      (kickVictim_sameHarts t).sameCpu h
    have hkilled : (killed cfg s h t rq).threads u = s.threads u := by
      rw [killed_threads, if_neg hut]
    -- a kill writes the victim, its joiner and the slot of the victim again when it is recycled
    refine ⟨_, ?_, ?_, .inr rfl⟩
    · rw [setA0_other hu]
      rcases hrel with ⟨-, -, s₀, hs₀, rfl⟩ | ⟨-, rfl⟩ | ⟨-, rfl⟩
      · have hs₀u : s₀.threads u = s.threads u := by
          rw [threadMakeRunnable_threads hs₀ huw, deliver_other huw, hkilled]
        split
        · rw [recycleThread_other hut, hs₀u]
        · rw [modThread_other hut, hs₀u]
      · split
        · rw [recycleThread_other hut, modThread_other hut, hkilled]
        · rw [modThread_other hut, hkilled]
      · exact hkilled
    · show SameCpu (s.cpus h) (s₁.cpus h)
      rcases hrel with ⟨-, -, s₀, hs₀, rfl⟩ | ⟨-, rfl⟩ | ⟨-, rfl⟩
      · have hsame := (threadMakeRunnable_sameHarts hs₀).sameCpu h
        rw [deliver_cpus] at hsame
        split
        · rw [recycleThread_cpus]
          exact hcpus.trans hsame
        · exact hcpus.trans hsame
      · split
        · rw [recycleThread_cpus]
          exact hcpus
        · exact hcpus
      · exact hcpus

theorem detach_bystander {t : Int} (hu : u ≠ cur) (hcoll : collected cfg s h (.detach t) ≠ some u) :
    Leads cfg s h cur u (marked cfg s h (.detach t) u) (threadSysDetach cfg s cur t) := by
  obtain ⟨s', hs'⟩ : ∃ s', threadSysDetach cfg s cur t = s' := ⟨_, rfl⟩
  rw [hs']
  rw [marked]
  rcases threadSysDetach_cases hs' with ⟨hno, v, rfl⟩ | ⟨hacc, rfl⟩
  · have hne : ¬ (t = u ∧ DetachAccepts cfg s t) := fun hc => hno hc.2
    rw [if_neg hne]
    exact ⟨_, setA0_other hu, .refl _, .inr rfl⟩
  · refine ⟨_, ?_, ?_, .inr rfl⟩
    · rw [setA0_other hu]
      by_cases htu : t = u
      · subst htu
        have hz : (s.threads t).state ≠ .zombie := fun hz => hcoll (if_pos ⟨hacc, hz⟩)
        have hmark : t = t ∧ DetachAccepts cfg s t := ⟨rfl, hacc⟩
        rw [if_neg hz, if_pos hmark, Kernel.modThread_threads, if_pos rfl]
      · have hne : ¬ (t = u ∧ DetachAccepts cfg s t) := fun hc => htu hc.1
        rw [if_neg hne]
        split
        · rw [recycleThread_other (Ne.symm htu), modThread_other (Ne.symm htu)]
        · exact modThread_other (Ne.symm htu)
    · show SameCpu (s.cpus h) (Kernel.cpus (if _ then _ else _) h)
      split
      · rw [recycleThread_cpus]
        exact .refl _
      · exact .refl _

theorem read_bystander {fd : Int} {buf len : UInt64} (hcur : (s.cpus h).currentTid = cur)
    (hu : u ≠ cur) (hs : sysRead cfg s h cur fd buf len = .ok s') :
    Leads cfg s h cur u (s.threads u) s' := by
  subst hcur
  rcases sysRead_cases hs with ⟨v, rfl, -⟩ | ⟨-, -, rfl⟩ | ⟨-, -, hsch⟩
  · exact ⟨_, setA0_other hu, .refl _, .inr rfl⟩
  · refine ⟨(drained s buf len).setA0 _ _, ?_, .refl _, .inr rfl⟩
    rw [setA0_other hu]
    rfl
  · refine ⟨blockCur (drained s buf len) h buf len, ?_, .refl _, .inl hsch⟩
    have hblock :
        (blockCur (drained s buf len) h buf len).threads u = (drained s buf len).threads u :=
      blockCur_other hu
    exact hblock

/-! ## Interrupts -/

theorem threadMakeRunnable_ticks {t : Int} {p : Nat}
    (hw : threadMakeRunnable cfg s h t p = .ok s') : s'.ticks = s.ticks :=
  (threadMakeRunnable_schedOnly hw).ticks

/-- `threads_tick` touches only the sleepers whose time has come. -/
theorem threadsTick_bystander (hs : threadsTick cfg s h = .ok s')
    (hdue : ¬ ((s.threads u).state = .sleeping ∧ (s.threads u).wakeupTick ≤ s.ticks + 1)) :
    s'.threads u = s.threads u ∧ s'.ticks = s.ticks + 1 := by
  refine foldlM_keeps (fun s₁ => s₁.threads u = s.threads u ∧ s₁.ticks = s.ticks + 1) ?_
    ⟨rfl, rfl⟩ hs
  rintro i - s₁ s₂ ⟨hth, htk⟩ hstep
  unfold threadsTickStep at hstep
  split at hstep
  · rename_i hsleep
    have hne : u ≠ i := by
      rintro rfl
      rw [hth, htk] at hsleep
      exact hdue hsleep
    rw [threadMakeRunnable_threads hstep hne, modThread_other hne, threadMakeRunnable_ticks hstep]
    exact ⟨hth, htk⟩
  · cases hstep
    exact ⟨hth, htk⟩

theorem threadWake_other {t : Int} (hs : threadWake cfg s h t = .ok s') (hu : u ≠ t) :
    s'.threads u = s.threads u := by
  rcases threadWake_cases hs with ⟨rfl, -⟩ | ⟨-, -, -, hmake⟩
  · rfl
  · exact threadMakeRunnable_threads hmake hu

/-- A received character touches only the registered reader. -/
theorem char_bystander {ch : UInt8} (hs : consoleOnCharFromIrq cfg s h ch = .ok s') (h0 : 0 ≤ u)
    (hu : s.stdinWaiter ≠ u) : s'.threads u = s.threads u ∧ s'.stdinWaiter ≠ u := by
  rcases consoleOnCharFromIrq_cases hs with ⟨-, rfl⟩ | ⟨-, s₁, hread, rfl⟩
  · exact ⟨rfl, hu⟩
  · refine ⟨?_, ?_⟩
    · show s₁.threads u = s.threads u
      rcases threadReadFromStdin_cases hread with ⟨-, hwake⟩ | ⟨-, ⟨-, rfl⟩ | ⟨-, hwake⟩⟩
      · have hother := threadWake_other hwake (Ne.symm hu)
        exact hother
      · rfl
      · have hother := (threadWake_other hwake (Ne.symm hu)).trans (completeRead_other (Ne.symm hu))
        exact hother
    · show (-1 : Int) ≠ u
      omega

theorem uart_bystander {rx : List UInt8} (hs : uart16550IrqHandler cfg s h rx = .ok s') (h0 : 0 ≤ u)
    (hu : s.stdinWaiter ≠ u) : s'.threads u = s.threads u ∧ s'.stdinWaiter ≠ u := by
  refine foldlM_keeps (fun s₁ => s₁.threads u = s.threads u ∧ s₁.stdinWaiter ≠ u) ?_ ⟨rfl, hu⟩ hs
  rintro ch - s₁ s₂ ⟨hth, hw⟩ hstep
  obtain ⟨hth', hw'⟩ := char_bystander hstep h0 hw
  exact ⟨hth'.trans hth, hw'⟩

theorem uart_sameHarts {rx : List UInt8} (hs : uart16550IrqHandler cfg s h rx = .ok s') :
    SameHarts s s' := by
  refine foldlM_keeps (SameHarts s) ?_ (.refl s) hs
  intro ch _ s₁ s₂ hsame hstep
  refine hsame.trans ?_
  have hwake : ∀ {s₁ s₂ : Kernel} {t : Int}, threadWake cfg s₁ h t = .ok s₂ → SameHarts s₁ s₂ := by
    intro s₁ s₂ t hw
    rcases threadWake_cases hw with ⟨rfl, -⟩ | ⟨-, -, -, hmake⟩
    · exact .refl _
    · exact threadMakeRunnable_sameHarts hmake
  rcases consoleOnCharFromIrq_cases hstep with ⟨-, rfl⟩ | ⟨-, s₃, hread, rfl⟩
  · exact .of_eq rfl
  · rcases threadReadFromStdin_cases hread with ⟨-, hw⟩ | ⟨-, ⟨-, rfl⟩ | ⟨-, hw⟩⟩
    · have hsame := hwake hw
      exact hsame
    · exact .of_eq rfl
    · have hsame := hwake hw
      exact hsame

theorem timer_bystander
    (hdue : (s.cpus h).hartid = s.bootHartid →
      ¬ ((s.threads u).state = .sleeping ∧ (s.threads u).wakeupTick ≤ s.ticks + 1))
    (hs : schedOnTimerIrq cfg s h cur = .ok s') : Leads cfg s h cur u (s.threads u) s' := by
  obtain ⟨s₁, hslice, htick⟩ := schedOnTimerIrq_cases hs
  have hmid : s₁.threads u = s.threads u ∧ SameCpu (s.cpus h) (s₁.cpus h) := by
    have hcount : SameCpu (s.cpus h) ((countTimer s h).cpus h) := (countTimer_quiet s h).cpus h
    rcases htick with ⟨hboot, htick⟩ | ⟨-, rfl⟩
    · exact ⟨(threadsTick_bystander htick (hdue hboot)).1,
        hcount.trans ((threadsTick_sameHarts htick).sameCpu h)⟩
    · exact ⟨rfl, hcount⟩
  obtain ⟨hth, hcpu⟩ := hmid
  have huse : ∀ k : Kernel, SameCpu (k.cpus h) ((useTick k h).cpus h) := by
    intro k
    unfold useTick
    rw [Kernel.modCpu_cpus, if_pos rfl]
    exact ⟨rfl, rfl, rfl, rfl, rfl⟩
  have hreset : ∀ k : Kernel, SameCpu (k.cpus h) ((resetSlice k h).cpus h) := by
    intro k
    unfold resetSlice
    rw [Kernel.modCpu_cpus, if_pos rfl]
    exact ⟨rfl, rfl, rfl, rfl, rfl⟩
  rcases sliceTick_cases hslice with ⟨-, hsch⟩ | ⟨-, rfl⟩
  · exact ⟨resetSlice (useTick s₁ h) h, hth, hcpu.trans ((huse _).trans (hreset _)), .inl hsch⟩
  · exact ⟨useTick s₁ h, hth, hcpu.trans (huse _), .inr rfl⟩

/-! ## Traps -/

theorem runAction_bystander {a : Action} (hcur : (s.cpus h).currentTid = cur)
    (hb : Bystands cfg s h a u) (hs : runAction cfg s h cur a = .ok s') :
    Leads cfg s h cur u (marked cfg s h a u) s' := by
  have hu : u ≠ cur := hcur ▸ hb.other
  cases a with
  | ipi =>
    refine ⟨Kernel.modCpu { s with ssip := fun k => if k = h then false else s.ssip k } h fun c =>
      { c with needResched := false }, rfl, ?_, .inl hs⟩
    rw [Kernel.modCpu_cpus, if_pos rfl]
    exact ⟨rfl, rfl, rfl, rfl, rfl⟩
  | timer => exact timer_bystander (hb.notDue rfl) hs
  | external claims =>
    obtain ⟨s₁, ops, irqs, huart, rfl, -⟩ := platformHandleSExternal_cases hs
    exact ⟨s₁.setIrq ops irqs, (uart_bystander huart hb.slot (hb.notReader claims rfl)).1,
      (uart_sameHarts huart).sameCpu h, .inr rfl⟩
  | sleep ticks => exact sleep_bystander hcur hu hs
  | exit code =>
    refine exit_bystander hcur hu (fun heq => hb.notJoiner ⟨cur, congrArg some hcur, heq.symm⟩) hs
  | join t p => exact join_bystander hcur hu hb.kept hs
  | create entry arg name sstatus => exact create_bystander hu hb.used hs
  | kill t => exact kill_bystander hu hb.lives hb.notJoiner hs
  | detach t =>
    cases hs
    exact detach_bystander hu hb.kept
  | read fd buf len => exact read_bystander hcur hu hs
  | query call io =>
    simp only [runAction, Except.ok.injEq] at hs
    refine ⟨(s.setMem (runQuery cfg s h io call).2.mem).setA0 cur (runQuery cfg s h io call).1,
      ?_, .refl _, .inr ?_⟩
    · rw [setA0_other hu]
      rfl
    · rw [← hs, ← runQuery_mem]
  | skip =>
    cases hs
    exact ⟨s, rfl, .refl _, .inr rfl⟩
  | halt msg => cases hs

/-- `schedule` runs a `RUNNABLE` thread or the idle thread of its hart and leaves the others
alone. -/
theorem Scheduled.bystander {rq rq' : RunQueues} {next : Int}
    (hs : Scheduled cfg h s rq next rq' s') (hu : u ≠ (s.cpus h).currentTid) :
    s'.threads u = s.threads u ∨
      (s'.threads u = threadMarkRunning ((s.threads u).setState .running) (s.cpus h).hartid ∧
        (s'.cpus h).currentTid = u ∧
        (u = (s.cpus h).idleTid ∨ (s.threads u).state = .runnable)) := by
  have hleft : (leftKernel cfg s h rq).threads u = s.threads u := by
    rw [leftKernel_threads, if_neg hu]
  rw [hs.threads]
  split
  · rename_i hn
    right
    rw [hleft, hs.cpus_self]
    refine ⟨rfl, hn.symm, ?_⟩
    rcases hs.picked.next with ⟨hidle, -⟩ | ⟨-, hrun, -⟩
    · exact .inl (hn.trans hidle)
    · rw [← hn, hleft] at hrun
      exact .inr hrun
  · exact .inl hleft

theorem saveRegs_other (regs : Trapframe) (hu : u ≠ (s.cpus h).currentTid) :
    (saveRegs s h regs).threads u = s.threads u :=
  modThread_other hu

theorem Bystands.saveRegs {a : Action} (hb : Bystands cfg s h a u) (regs : Trapframe) :
    Bystands cfg (saveRegs s h regs) h a u where
  slot := hb.slot
  used := by
    rw [saveRegs_state]
    exact hb.used
  other := hb.other
  lives := by
    rw [terminated_saveRegs]
    exact hb.lives
  notJoiner := by
    rintro ⟨t, ht, hw⟩
    rw [terminated_saveRegs] at ht
    rw [saveRegs_joinWaiter] at hw
    exact hb.notJoiner ⟨t, ht, hw⟩
  kept := by
    rw [collected_saveRegs]
    exact hb.kept
  notDue ha hboot := by
    rw [saveRegs_other regs hb.other]
    exact hb.notDue ha hboot
  notReader := hb.notReader

theorem marked_saveRegs (regs : Trapframe) (hu : u ≠ (s.cpus h).currentTid) (a : Action) :
    marked cfg (saveRegs s h regs) h a u = marked cfg s h a u := by
  cases a <;> simp only [marked, saveRegs_other regs hu, joinAccepts_saveRegs,
    detachAccepts_saveRegs, saveRegs_cpus]

/-- The marks change neither the state nor anything a wait is about. -/
theorem marked_eq (cfg : Config) (s : Kernel) (h : Nat) (u : Int) (a : Action) :
    ∃ w d, marked cfg s h a u =
    { s.threads u with joinWaiter := w, detached := d } := by
  cases a with
  | join t p =>
    rw [marked]
    split
    · exact ⟨_, _, rfl⟩
    · exact ⟨_, _, rfl⟩
  | detach t =>
    rw [marked]
    split
    · exact ⟨_, _, rfl⟩
    · exact ⟨_, _, rfl⟩
  | _ => exact ⟨_, _, rfl⟩

theorem marked_state (a : Action) : (marked cfg s h a u).state = (s.threads u).state := by
  obtain ⟨w, d, hm⟩ := marked_eq cfg s h u a
  rw [hm]

/-- The rule for bystanders: after a trap, the thread is as before but for its mark, or `schedule`
has just started it. -/
theorem trap_bystander {regs : Trapframe} {io : TrapInput} (hb : Basic cfg s)
    (hg : Allowed cfg s (.trap h regs io)) (hs : step cfg s (.trap h regs io) = .ok s')
    (hby : Bystands cfg s h (trapAction cfg regs io) u) :
    s'.threads u = marked cfg s h (trapAction cfg regs io) u ∨
      (s'.threads u = threadMarkRunning
          ((marked cfg s h (trapAction cfg regs io) u).setState .running) h ∧
        (s'.cpus h).currentTid = u ∧ (u = h ∨ (s.threads u).state = .runnable)) := by
  obtain ⟨hrun, -⟩ := trap_runAction hb hg hs
  have he := hg.1
  have hby' := hby.saveRegs regs
  have hmark : marked cfg (saveRegs s h regs) h (trapAction cfg regs io) u = _ :=
    marked_saveRegs regs hby.other _
  obtain ⟨s₁, hth, hcpu, hlast⟩ := runAction_bystander rfl hby' hrun
  rw [hmark] at hth
  obtain ⟨-, hid, -, hcur, hidle⟩ := hcpu
  rcases hlast with hsch | rfl
  · have hok : (s₁.cpus h).currentTid ≠ (s₁.cpus h).idleTid →
        0 < (s₁.cpus h).currentTid ∧ (s₁.cpus h).currentTid < cfg.threadMax := by
      rw [hcur, hidle]
      exact hb.cur_ok he
    obtain ⟨rq, next, rq', hsched⟩ := schedule_cases hok hsch
    have hne : u ≠ (s₁.cpus h).currentTid := by
      rw [hcur]
      exact hby.other
    rcases hsched.bystander hne with hsame | ⟨hrunning, hnext, hwhy⟩
    · exact .inl (hsame.trans hth)
    · right
      have hstate : (marked cfg s h (trapAction cfg regs io) u).state = (s.threads u).state :=
        marked_state _
      rw [hrunning, hth, hid, saveRegs_cpus, he.2.2.1]
      refine ⟨rfl, hnext, ?_⟩
      rw [hth, hstate, hidle, saveRegs_cpus] at hwhy
      exact hwhy.imp_left fun hu => hu.trans he.2.2.2.1
  · exact .inl hth

/-! ## Who goes to sleep or blocks -/

section Paused

variable {st : ThreadState}

theorem modThread_leaves {t u : Int} {f : Thread → Thread}
    (hf : (f (s.threads t)).state = (s.threads t).state ∨ (f (s.threads t)).state ≠ st)
    (hu : ((s.modThread t f).threads u).state = st) : (s.threads u).state = st := by
  by_cases heq : u = t
  · subst heq
    rw [Kernel.modThread_threads, if_pos rfl] at hu
    rcases hf with hf | hf
    · rw [hf] at hu
      exact hu
    · exact absurd hu hf
  · rw [modThread_other heq] at hu
    exact hu

variable (hst : st = .sleeping ∨ st = .blocked)

include hst

theorem wake_paused {t u : Int} {p : Nat} (hw : threadMakeRunnable cfg s h t p = .ok s')
    (hu : (s'.threads u).state = st) : (s.threads u).state = st := by
  rcases threadMakeRunnable_cases hw with ⟨rfl, -⟩ | ⟨rq, hw⟩
  · exact hu
  · rw [hw.threads] at hu
    split at hu
    · rcases hst with rfl | rfl <;> cases hu
    · exact hu

theorem recycle_paused {t u : Int} (hu : ((recycleThread cfg s t).threads u).state = st) :
    (s.threads u).state = st := by
  by_cases hr : t ≤ 0 ∨ (cfg.threadMax : Int) ≤ t
  · unfold recycleThread at hu
    rw [if_pos hr] at hu
    exact hu
  · rw [recycleThread_eq (by omega) (by omega)] at hu
    refine modThread_leaves (s := s.setStdinWaiter _) (.inr ?_) hu
    rcases hst with rfl | rfl <;> simp

/-- Only `thread_sys_sleep` makes a thread `SLEEPING`, only a read of stdin makes one `BLOCKED`, and
only the current one. -/
theorem Act.paused {s₀ : Kernel} {a : Action} (ha : Act cfg h s₀ a s s') {t : Int}
    (hu : (s'.threads t).state = st) : (s.threads t).state = st ∨
      (t = (s.cpus h).currentTid ∧ ((st = .sleeping ∧ ∃ n, a = .sleep n ∧ n ≠ 0) ∨
        (st = .blocked ∧ ∃ p n, a = .read 0 p n))) := by
  cases ha with
  | quiet hq =>
    rw [(hq.threads t).state] at hu
    exact .inl hu
  | slice _ _ => exact .inl hu
  | wakeSleeper _ _ hw => exact .inl (wake_paused hst hw hu)
  | wakeReader _ _ hw => exact .inl (wake_paused hst hw hu)
  | wakeJoiner _ _ _ _ _ hw => exact .inl (wake_paused hst hw hu)
  | clearReader _ => exact .inl hu
  | create _ _ _ _ _ hw =>
    left
    refine modThread_leaves (.inr ?_) (wake_paused hst hw hu)
    rcases hst with rfl | rfl <;> simp
  | @sleep n hn hsus _ =>
    subst hn
    by_cases ht : t = (s.cpus h).currentTid
    · refine .inr ⟨ht, .inl ⟨?_, n, rfl, hsus⟩⟩
      rw [ht] at hu
      unfold sleepCur at hu
      rw [Kernel.setRq_threads, Kernel.modThread_threads, if_pos rfl] at hu
      exact hu.symm
    · left
      unfold sleepCur at hu
      rw [Kernel.setRq_threads, modThread_other ht] at hu
      exact hu
  -- a `join` makes its caller `WAITING`, which is neither of the two
  | wait _ _ _ =>
    left
    refine modThread_leaves (.inr ?_) (modThread_leaves (.inl rfl) hu)
    rcases hst with rfl | rfl <;> simp
  | @block buf len hread _ _ =>
    by_cases ht : t = (s.cpus h).currentTid
    · refine .inr ⟨ht, .inr ⟨?_, buf, len, hread⟩⟩
      rw [ht] at hu
      unfold blockCur at hu
      simpa using hu.symm
    · left
      rw [blockCur_other ht] at hu
      exact hu
  | @exit code _ _ =>
    left
    unfold exitCur at hu
    rw [Kernel.setRq_threads] at hu
    refine modThread_leaves (.inr ?_) hu
    rcases hst with rfl | rfl <;> simp
  | kill _ _ _ _ =>
    left
    refine modThread_leaves (.inr ?_) hu
    rcases hst with rfl | rfl <;> simp
  | @deliver w code _ _ _ =>
    rw [(deliver_state w code t).1] at hu
    exact .inl hu
  | joinWaiter _ _ => exact .inl (modThread_leaves (.inl rfl) hu)
  | detach _ _ _ => exact .inl (modThread_leaves (.inl rfl) hu)
  | reclaim _ _ _ _ _ => exact .inl (recycle_paused hst hu)
  | collect _ _ _ _ _ => exact .inl (recycle_paused hst hu)

theorem Scheduled.paused {rq rq' : RunQueues} {next t : Int}
    (hs : Scheduled cfg h s rq next rq' s') (hu : (s'.threads t).state = st) :
    (s.threads t).state = st := by
  rw [hs.threads] at hu
  split at hu
  · rcases hst with rfl | rfl <;> cases hu
  · rw [leftKernel_threads] at hu
    split at hu
    · unfold leftThread at hu
      split_ifs at hu
      · rcases hst with rfl | rfl <;> cases hu
      · rcases hst with rfl | rfl <;> cases hu
      · exact hu
    · exact hu

theorem trap_paused {regs : Trapframe} {io : TrapInput} {t : Int} (hb : Basic cfg s)
    (hg : Allowed cfg s (.trap h regs io)) (hs : step cfg s (.trap h regs io) = .ok s')
    (hu : (s'.threads t).state = st) : (s.threads t).state = st ∨
      (t = (s.cpus h).currentTid ∧
        ((st = .sleeping ∧ ∃ n, trapAction cfg regs io = .sleep n ∧ n ≠ 0) ∨
          (st = .blocked ∧ ∃ p n, trapAction cfg regs io = .read 0 p n))) := by
  obtain ⟨s₁, hran⟩ := trap_ran (fun k => ∀ u, (k.threads u).state = st →
    (s.threads u).state = st ∨ (u = (s.cpus h).currentTid ∧
      ((st = .sleeping ∧ ∃ n, trapAction cfg regs io = .sleep n ∧ n ≠ 0) ∨
        (st = .blocked ∧ ∃ p n, trapAction cfg regs io = .read 0 p n)))) hb hg hs
    (fun u hu => .inl hu) (by
      intro s₁ s₂ _ _ hcpu hk hact u hu
      rcases hact.paused hst hu with hold | ⟨hcur, hn⟩
      · exact hk u hold
      · rw [(hcpu h).2.2.2.1] at hcur
        exact .inr ⟨hcur, hn⟩)
  rcases hran.last with ⟨-, rq, next, rq', hsch⟩ | ⟨-, rfl⟩
  · exact hran.kept t (hsch.paused hst hu)
  · exact hran.kept t hu

/-- Nobody sleeps or is blocked when the run starts. -/
theorem init_not_paused {t : Int} (hi : (kernelSystem cfg).init s) (h0 : 0 ≤ t)
    (h1 : t < cfg.threadMax) : (s.threads t).state ≠ st := by
  obtain ⟨s₀, s₁, tid, entry, arg, name, sstatus, hboot, hcreate, rfl⟩ := init_cases hi
  intro hu
  have hold : (s₀.threads t).state = st := by
    have hu₁ : (s₁.threads t).state = st := hu
    rcases threadCreateUser_cases hcreate with ⟨-, rfl⟩ | ⟨-, -, -, hmake⟩
    · exact hu₁
    · refine modThread_leaves (.inr ?_) (wake_paused hst hmake hu₁)
      rcases hst with rfl | rfl <;> simp
  have hslot := (hboot.slots t h0 h1).2.1
  rw [hold] at hslot
  rcases hst with rfl | rfl <;> split at hslot <;> cases hslot

end Paused

end Ccos
