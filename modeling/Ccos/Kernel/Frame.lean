import Mathlib.Tactic
import Ccos.Kernel.Acts

/-!
# What every action leaves alone

Apart from the received characters and the reads that take them, an action writes to the scheduling
data, to memory, to the clock and to `g_stdin_waiter`, and to the last only when it recycles a slot.
A relation between kernels that such writes keep, a `Frame`, is kept by every action.
-/

namespace Ccos

open Reasoning

/-! ## Frames -/

/-- `R` is kept by writes to the scheduling data and to memory, and by recycling a slot whose thread
may be `gone`. -/
structure Frame (cfg : Config) (gone : Int → Prop) (R : Kernel → Kernel → Prop) : Prop where
  trans : ∀ {s s' s'' : Kernel}, R s s' → R s' s'' → R s s''
  sched : ∀ {s s' : Kernel}, SchedOnly s s' → R s s'
  setMem : ∀ (s : Kernel) (m : Mem), R s (s.setMem m)
  recycle : ∀ (s : Kernel) {t : Int}, gone t → R s (recycleThread cfg s t)

/-- The actions that touch the console. -/
def Action.usesConsole : Action → Bool
  | .read _ _ _ | .external _ => true
  | _ => false

/-- The threads whose slot the action may recycle. -/
def MayRecycle (cfg : Config) (s : Kernel) (h : Nat) (a : Action) (t : Int) : Prop :=
  t = (s.cpus h).currentTid ∨ terminated cfg s h a = some t ∨ collected cfg s h a = some t

@[simps]
def Kernel.setTicks (s : Kernel) (ticks : UInt64) : Kernel :=
  { s with ticks := ticks }

/-- The kernel with the clock as the action leaves it: the timer of the boot hart is the clock. -/
def clocked (s : Kernel) (h : Nat) : Action → Kernel
  | .timer => if (s.cpus h).hartid = s.bootHartid then s.setTicks (s.ticks + 1) else s
  | _ => s

variable {cfg : Config} {gone : Int → Prop} {R : Kernel → Kernel → Prop} {s s' : Kernel} {h : Nat}
  {cur : Int}

namespace Frame

variable (hf : Frame cfg gone R)

include hf

theorem refl (s : Kernel) : R s s :=
  hf.sched (.refl s)

theorem storeStatus (s : Kernel) (p : UInt64) (v : Int) : R s (storeStatus s p v) := by
  unfold Ccos.storeStatus
  split
  · exact hf.setMem s _
  · exact hf.refl s

theorem deliver (s : Kernel) (w code : Int) : R s (deliver s w code) := by
  have hwait : SchedOnly (Ccos.storeStatus s (s.threads w).joinStatusPtr code)
      (Ccos.deliver s w code) := rfl
  exact hf.trans (hf.storeStatus s _ code) (hf.sched hwait)

/-- The end of `scheduleLeave`. -/
theorem reclaimIf {c : Prop} [Decidable c] {t : Int} (ht : gone t)
    (hs : (if c then Except.ok (recycleThread cfg s t) else Except.ok s) =
      (Except.ok s' : Except Halt Kernel)) : R s s' := by
  split at hs
  · cases hs
    exact hf.recycle s ht
  · cases hs
    exact hf.refl s

theorem schedule {tf : Int} (hcur : gone (s.cpus h).currentTid)
    (hs : schedule cfg s h tf = .ok s') : R s s' := by
  unfold Ccos.schedule at hs
  simp only [bind_eq_ok] at hs
  obtain ⟨-, -, s₁, hleave, ⟨next, rq'⟩, -, hs⟩ := hs
  have hleft : R s s₁ := by
    unfold scheduleLeave at hleave
    dsimp only at hleave
    split at hleave
    · simp only [bind_eq_ok] at hleave
      obtain ⟨rq, -, s₂, hput, hleave⟩ := hleave
      cases hput
      refine hf.trans (hf.sched ?_) (hf.reclaimIf hcur hleave)
      split <;> rfl
    · simp only [ok_bind] at hleave
      refine hf.trans (hf.sched ?_) (hf.reclaimIf hcur hleave)
      split <;> rfl
  cases hs
  exact hf.trans hleft (hf.sched rfl)

/-! ## System calls -/

theorem exit {code : Int} (hgone : gone (s.cpus h).currentTid)
    (hs : threadSysExit cfg s h cur code = .ok s') : R s s' := by
  obtain ⟨s₁, hrel, hsch⟩ := threadSysExit_cases hs
  have hexit : R s (exitCur s h cur code) := hf.sched rfl
  have hrel' : R s s₁ ∧ (s₁.cpus h).currentTid = (s.cpus h).currentTid := by
    rcases hrel with ⟨-, -, s₀, hmake, rfl⟩ | ⟨-, rfl⟩
    · have hsame := (threadMakeRunnable_sameHarts hmake).currentTid h
      rw [deliver_cpus] at hsame
      refine ⟨?_, by rw [recycleThread_cpus]; exact hsame⟩
      have hwake := hf.trans (hf.deliver (exitCur s h cur code) _ code)
        (hf.sched (threadMakeRunnable_schedOnly hmake))
      exact hf.trans (hf.trans hexit hwake) (hf.recycle s₀ hgone)
    · exact ⟨hexit, rfl⟩
  have hmark : R s₁ (s₁.modThread (s.cpus h).currentTid (Thread.setJoinWaiter · (-1))) :=
    hf.sched rfl
  refine hf.trans (hf.trans hrel'.1 hmark) (hf.schedule ?_ hsch)
  show gone (s₁.cpus h).currentTid
  rw [hrel'.2]
  exact hgone

theorem kill {t : Int} (hgone : KillHits cfg s h t → gone t)
    (hs : threadSysKill cfg s h cur t = .ok s') : R s s' := by
  rcases threadSysKill_cases hs with ⟨-, v, rfl⟩ | ⟨hhit, hkill⟩
  · exact hf.sched rfl
  obtain ⟨rq, s₁, -, hrel, rfl⟩ := killThread_cases hkill
  have hmod : SchedOnly s ((s.modThread t Thread.kill).setRq rq) := rfl
  have hkilled : R s (killed cfg s h t rq) := hf.sched (hmod.trans (kickVictim_schedOnly t))
  refine hf.trans (hf.trans hkilled ?_) (hf.sched rfl)
  rcases hrel with ⟨-, -, s₀, hmake, rfl⟩ | ⟨-, rfl⟩ | ⟨-, rfl⟩
  · have hwake : R (killed cfg s h t rq) s₀ :=
      hf.trans (hf.deliver _ _ _) (hf.sched (threadMakeRunnable_schedOnly hmake))
    split
    · exact hf.trans hwake (hf.recycle s₀ (hgone hhit))
    · exact hf.trans hwake (hf.sched rfl)
  · have hclear : R (killed cfg s h t rq)
        ((killed cfg s h t rq).modThread t (Thread.setJoinWaiter · (-1))) := hf.sched rfl
    split
    · exact hf.trans hclear (hf.recycle _ (hgone hhit))
    · exact hclear
  · exact hf.refl _

theorem join {t : Int} {p : UInt64} (hgone : gone (s.cpus h).currentTid)
    (hcoll : JoinAccepts cfg s h t → (s.threads t).state = .zombie → gone t)
    (hs : threadSysJoin cfg s h cur t p = .ok s') : R s s' := by
  rcases threadSysJoin_cases hs with ⟨-, v, -, rfl⟩ | ⟨hacc, hz, rfl⟩ | ⟨-, -, hsch⟩
  · exact hf.sched rfl
  · have hrec := hf.trans (hf.storeStatus s p (s.threads t).exitCode)
      (hf.recycle _ (hcoll hacc hz))
    exact hf.trans hrec (hf.sched rfl)
  · have hwait : R s (waitCur s h t p) := hf.sched rfl
    exact hf.trans hwait (hf.schedule hgone hsch)

theorem create {entry arg : UInt64} {name : Option ThreadName} {sstatus : UInt64} {tid : Int}
    (hs : threadCreateUser cfg s h entry arg name sstatus = .ok (tid, s')) : R s s' := by
  rcases threadCreateUser_cases hs with ⟨-, rfl⟩ | ⟨-, -, -, hmake⟩
  · exact hf.refl _
  · have hinit : SchedOnly s (s.modThread tid fun t =>
        initUserThread t (threadStack cfg tid) entry arg name sstatus) := rfl
    exact hf.sched (hinit.trans (threadMakeRunnable_schedOnly hmake))

theorem detach {t : Int} (hcoll : DetachAccepts cfg s t → (s.threads t).state = .zombie → gone t) :
    R s (threadSysDetach cfg s cur t) := by
  rcases threadSysDetach_cases (rfl : threadSysDetach cfg s cur t = _) with ⟨-, v, hv⟩ | ⟨hacc, hd⟩
  · rw [hv]
    exact hf.sched rfl
  · rw [hd]
    have hmark : R s (s.modThread t Thread.detach) := hf.sched rfl
    split
    · rename_i hz
      exact hf.trans (hf.trans hmark (hf.recycle _ (hcoll hacc hz))) (hf.sched rfl)
    · exact hf.trans hmark (hf.sched rfl)

/-! ## Interrupts -/

theorem threadsTick (hs : threadsTick cfg s h = .ok s') : R (s.setTicks (s.ticks + 1)) s' := by
  refine foldlM_keeps (R (s.setTicks (s.ticks + 1))) ?_ (hf.refl _) hs
  intro i _ s₁ s₂ hk hstep
  unfold threadsTickStep at hstep
  split at hstep
  · have hclear : SchedOnly s₁ (s₁.modThread i Thread.clearWakeup) := rfl
    exact hf.trans hk (hf.sched (hclear.trans (threadMakeRunnable_schedOnly hstep)))
  · cases hstep
    exact hk

theorem timer (hgone : gone (s.cpus h).currentTid) (hs : schedOnTimerIrq cfg s h cur = .ok s') :
    R (clocked s h .timer) s' := by
  obtain ⟨s₁, hslice, htick⟩ := schedOnTimerIrq_cases hs
  have hcount : ((countTimer s h).cpus h).currentTid = (s.cpus h).currentTid :=
    ((countTimer_quiet s h).cpus h).2.2.2.1
  have hmid : R (clocked s h .timer) s₁ ∧ (s₁.cpus h).currentTid = (s.cpus h).currentTid := by
    rcases htick with ⟨hboot, htick⟩ | ⟨hboot, rfl⟩
    · refine ⟨?_, ((threadsTick_sameHarts htick).currentTid h).trans hcount⟩
      rw [clocked, if_pos hboot]
      have hcounted : SchedOnly (s.setTicks (s.ticks + 1))
          ((countTimer s h).setTicks ((countTimer s h).ticks + 1)) := rfl
      exact hf.trans (hf.sched hcounted) (hf.threadsTick htick)
    · refine ⟨?_, hcount⟩
      rw [clocked, if_neg hboot]
      exact hf.sched rfl
  rcases sliceTick_cases hslice with ⟨-, hsch⟩ | ⟨-, rfl⟩
  · have hreset : R s₁ (resetSlice (useTick s₁ h) h) := hf.sched rfl
    refine hf.trans (hf.trans hmid.1 hreset) (hf.schedule ?_ hsch)
    unfold resetSlice useTick
    rw [Kernel.modCpu_cpus, if_pos rfl, Kernel.modCpu_cpus, if_pos rfl, hmid.2]
    exact hgone
  · exact hf.trans hmid.1 (hf.sched rfl)

/-- Every action but those that use the console keeps a frame, with the clock moved as it moves
it. -/
theorem runAction {a : Action} (ha : a.usesConsole = false)
    (hgone : ∀ t, MayRecycle cfg s h a t → gone t) (hs : runAction cfg s h cur a = .ok s') :
    R (clocked s h a) s' := by
  have hcur : gone (s.cpus h).currentTid := hgone _ (.inl rfl)
  cases a with
  | external claims => cases ha
  | read fd buf len => cases ha
  | timer => exact hf.timer hcur hs
  | ipi =>
    have hclear : R s (Kernel.modCpu { s with ssip := fun k => if k = h then false else s.ssip k } h
        fun c => { c with needResched := false }) := hf.sched rfl
    refine hf.trans hclear (hf.schedule ?_ hs)
    rw [Kernel.modCpu_cpus, if_pos rfl]
    exact hcur
  | sleep ticks =>
    rcases threadSysSleep_cases hs with ⟨-, hsch⟩ | ⟨-, hsch⟩
    · exact hf.schedule hcur hsch
    · have hsleep : R s (sleepCur s h ticks) := hf.sched rfl
      exact hf.trans hsleep (hf.schedule hcur hsch)
  | exit code => exact hf.exit hcur hs
  | join t p =>
    exact hf.join hcur (fun hacc hz => hgone t (.inr (.inr (if_pos ⟨hacc, hz⟩)))) hs
  | create entry arg name sstatus =>
    obtain ⟨tid, s₁, hcreate, rfl⟩ := threadSysCreate_cases hs
    exact hf.trans (hf.create hcreate) (hf.sched rfl)
  | kill t => exact hf.kill (fun hhit => hgone t (.inr (.inl (if_pos hhit)))) hs
  | detach t =>
    cases hs
    exact hf.detach fun hacc hz => hgone t (.inr (.inr (if_pos ⟨hacc, hz⟩)))
  | query call io =>
    simp only [Ccos.runAction, Except.ok.injEq] at hs
    rw [← hs, runQuery_mem]
    exact hf.trans (hf.setMem s _) (hf.sched rfl)
  | skip =>
    cases hs
    exact hf.refl _
  | halt msg => cases hs

end Frame

end Ccos
