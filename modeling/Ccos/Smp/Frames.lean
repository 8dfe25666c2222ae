import Mathlib.Tactic
import Ccos.Reasoning.Simulation
import Ccos.Join.Joiners
import Ccos.Sched.Bystander

/-!
# Saved registers of other harts

`trap.S` saves the registers of a hart into `cur_tf` before `trap_entry_c` takes the lock, so a
handler may find new registers in the frames of threads that other harts execute.  It neither reads
nor writes those frames: every kernel function commutes with such a save.
-/

namespace Ccos

open Reasoning

/-- The kernel with the registers `F t` saved in the frame of every thread `t` that has some. -/
def Kernel.withFrames (s : Kernel) (F : Int → Option Trapframe) : Kernel :=
  { s with threads := fun t => (F t).elim (s.threads t) (s.threads t).setTf }

variable {cfg : Config} {s s' : Kernel} {h : Nat} {F : Int → Option Trapframe}

/-! ## What is read -/

theorem withFrames_none {t : Int} (ht : F t = none) : (s.withFrames F).threads t = s.threads t := by
  simp [Kernel.withFrames, ht]

/-- Saving registers changes no field but `tf`. -/
theorem withFrames_field {α : Type} (g : Thread → α) (hg : ∀ x f, g (Thread.setTf x f) = g x)
    (t : Int) : g ((s.withFrames F).threads t) = g (s.threads t) := by
  show g ((F t).elim (s.threads t) (s.threads t).setTf) = _
  cases F t with
  | none => rfl
  | some f => exact hg _ f

@[simp] theorem withFrames_state (t : Int) :
    ((s.withFrames F).threads t).state = (s.threads t).state :=
  withFrames_field Thread.state (fun _ _ => rfl) t

@[simp] theorem withFrames_id (t : Int) : ((s.withFrames F).threads t).id = (s.threads t).id :=
  withFrames_field Thread.id (fun _ _ => rfl) t

@[simp] theorem withFrames_wakeupTick (t : Int) :
    ((s.withFrames F).threads t).wakeupTick = (s.threads t).wakeupTick :=
  withFrames_field Thread.wakeupTick (fun _ _ => rfl) t

@[simp] theorem withFrames_canBeKilled (t : Int) :
    ((s.withFrames F).threads t).canBeKilled = (s.threads t).canBeKilled :=
  withFrames_field Thread.canBeKilled (fun _ _ => rfl) t

@[simp] theorem withFrames_detached (t : Int) :
    ((s.withFrames F).threads t).detached = (s.threads t).detached :=
  withFrames_field Thread.detached (fun _ _ => rfl) t

@[simp] theorem withFrames_runningHart (t : Int) :
    ((s.withFrames F).threads t).runningHart = (s.threads t).runningHart :=
  withFrames_field Thread.runningHart (fun _ _ => rfl) t

@[simp] theorem withFrames_exitCode (t : Int) :
    ((s.withFrames F).threads t).exitCode = (s.threads t).exitCode :=
  withFrames_field Thread.exitCode (fun _ _ => rfl) t

@[simp] theorem withFrames_joinWaiter (t : Int) :
    ((s.withFrames F).threads t).joinWaiter = (s.threads t).joinWaiter :=
  withFrames_field Thread.joinWaiter (fun _ _ => rfl) t

@[simp] theorem withFrames_joinStatusPtr (t : Int) :
    ((s.withFrames F).threads t).joinStatusPtr = (s.threads t).joinStatusPtr :=
  withFrames_field Thread.joinStatusPtr (fun _ _ => rfl) t

@[simp] theorem withFrames_pendingReadBuf (t : Int) :
    ((s.withFrames F).threads t).pendingReadBuf = (s.threads t).pendingReadBuf :=
  withFrames_field Thread.pendingReadBuf (fun _ _ => rfl) t

@[simp] theorem withFrames_pendingReadLen (t : Int) :
    ((s.withFrames F).threads t).pendingReadLen = (s.threads t).pendingReadLen :=
  withFrames_field Thread.pendingReadLen (fun _ _ => rfl) t

@[simp] theorem withFrames_cpus : (s.withFrames F).cpus = s.cpus := rfl

@[simp] theorem withFrames_rq : (s.withFrames F).rq = s.rq := rfl

@[simp] theorem withFrames_ticks : (s.withFrames F).ticks = s.ticks := rfl

@[simp] theorem withFrames_stdinWaiter : (s.withFrames F).stdinWaiter = s.stdinWaiter := rfl

@[simp] theorem withFrames_bootHartid : (s.withFrames F).bootHartid = s.bootHartid := rfl

@[simp] theorem withFrames_smpBootDone : (s.withFrames F).smpBootDone = s.smpBootDone := rfl

/-! ## What is written -/

theorem modThread_withFrames {t : Int} {f : Thread → Thread}
    (hf : F t = none ∨ ∀ x r, f (Thread.setTf x r) = (f x).setTf r) :
    (s.withFrames F).modThread t f = (s.modThread t f).withFrames F := by
  unfold Kernel.modThread Kernel.withFrames
  congr 1
  funext u
  by_cases hu : u = t
  · subst hu
    cases hF : F u with
    | none => simp [hF]
    | some r =>
      rcases hf with hnone | hcomm
      · rw [hF] at hnone
        cases hnone
      · simp [hF, hcomm]
  · simp [hu]

theorem setA0_withFrames {t : Int} (ht : F t = none) (v : UInt64) :
    (s.withFrames F).setA0 t v = (s.setA0 t v).withFrames F :=
  modThread_withFrames (.inl ht)

theorem smpKickHart_withFrames (k : Nat) :
    smpKickHart cfg (s.withFrames F) k = (smpKickHart cfg s k).withFrames F := by
  unfold smpKickHart
  rw [withFrames_smpBootDone, withFrames_cpus]
  split
  · rfl
  split
  · rfl
  split
  · rfl
  · rfl

theorem schedPickTargetHart_withFrames (p : Nat) :
    schedPickTargetHart cfg (s.withFrames F) p = schedPickTargetHart cfg s p := rfl

theorem threadMakeRunnable_withFrames (t : Int) (p : Nat) :
    threadMakeRunnable cfg (s.withFrames F) h t p =
      (threadMakeRunnable cfg s h t p).map (·.withFrames F) := by
  have hmod : (s.withFrames F).modThread t Thread.makeRunnable =
      (s.modThread t Thread.makeRunnable).withFrames F :=
    modThread_withFrames (.inr fun _ _ => rfl)
  unfold threadMakeRunnable
  rw [schedPickTargetHart_withFrames, withFrames_rq, withFrames_state, hmod]
  split_ifs
  · rfl
  · rfl
  · rfl
  · simp only [map_bind]
    refine congrArg (rqPushTail cfg s.rq (schedPickTargetHart cfg s p) t >>= ·)
      (funext fun rq => ?_)
    have hset : ((s.modThread t Thread.makeRunnable).withFrames F).setRq rq =
        ((s.modThread t Thread.makeRunnable).setRq rq).withFrames F := rfl
    have hid : cpuCurrentHartid (((s.modThread t Thread.makeRunnable).setRq rq).withFrames F) h =
        cpuCurrentHartid ((s.modThread t Thread.makeRunnable).setRq rq) h := rfl
    rw [hset, smpKickHart_withFrames, hid]
    split_ifs <;> rfl

/-! ## `schedule` -/

theorem recycleThread_withFrames {t : Int} (ht : F t = none) :
    recycleThread cfg (s.withFrames F) t = (recycleThread cfg s t).withFrames F := by
  by_cases hr : t ≤ 0 ∨ (cfg.threadMax : Int) ≤ t
  · simp only [recycleThread, if_pos hr]
  · rw [recycleThread_eq (by omega) (by omega), recycleThread_eq (by omega) (by omega)]
    have hmod := modThread_withFrames
      (s := s.setStdinWaiter (if s.stdinWaiter = t then -1 else s.stdinWaiter)) (F := F) (t := t)
      (f := Thread.recycled) (.inl ht)
    exact congrArg (Kernel.setRq · (s.rq.unlink t)) hmod

/-- The pick loop reads nothing of a thread but its state. -/
theorem schedulePick_congr {threads threads' : Int → Thread}
    (hst : ∀ t, (threads t).state = (threads' t).state) (hartid : Nat) (idle : Int) (fuel : Nat)
    (r : RunQueues) :
    schedulePick cfg threads hartid idle fuel r = schedulePick cfg threads' hartid idle fuel r := by
  induction fuel generalizing r with
  | zero => rfl
  | succ fuel ih =>
    unfold schedulePick
    dsimp only
    rw [hst, ih]

/-- The thread a hart switches away from is its own. -/
structure OwnThread (cfg : Config) (F : Int → Option Trapframe) (s : Kernel) (h : Nat) : Prop where
  frame : F (s.cpus h).currentTid = none
  range : (s.cpus h).currentTid ≠ (s.cpus h).idleTid →
    0 < (s.cpus h).currentTid ∧ (s.cpus h).currentTid < cfg.threadMax

theorem OwnThread.of_same (ho : OwnThread cfg F s h) (hc : SameCpu (s.cpus h) (s'.cpus h)) :
    OwnThread cfg F s' h := by
  obtain ⟨-, -, -, hcur, hidle⟩ := hc
  refine ⟨?_, ?_⟩
  · rw [hcur]
    exact ho.frame
  · rw [hcur, hidle]
    exact ho.range

theorem scheduleLeave_withFrames (ho : OwnThread cfg F s h) :
    scheduleLeave cfg (s.withFrames F) h = (scheduleLeave cfg s h).map (·.withFrames F) := by
  have hrange : ((s.withFrames F).cpus h).currentTid ≠ ((s.withFrames F).cpus h).idleTid →
      0 < ((s.withFrames F).cpus h).currentTid ∧
        ((s.withFrames F).cpus h).currentTid < cfg.threadMax := ho.range
  have hcur : (s.withFrames F).threads (s.cpus h).currentTid = s.threads (s.cpus h).currentTid :=
    withFrames_none ho.frame
  have hleft : leftRq cfg (s.withFrames F) h = leftRq cfg s h := by
    unfold leftRq
    dsimp only [withFrames_cpus, withFrames_rq]
    rw [hcur]
  have hkernel :
      ∀ rq, leftKernel cfg (s.withFrames F) h rq = (leftKernel cfg s h rq).withFrames F := by
    intro rq
    have hwaiter : leftWaiter cfg (s.withFrames F) h = leftWaiter cfg s h := by
      unfold leftWaiter
      dsimp only [withFrames_cpus, withFrames_stdinWaiter]
      rw [hcur]
      rfl
    unfold leftKernel
    rw [hwaiter]
    exact modThread_withFrames (s := (s.setRq rq).setStdinWaiter (leftWaiter cfg s h))
      (.inl ho.frame)
  rw [scheduleLeave_eq hrange, scheduleLeave_eq ho.range, hleft]
  cases leftRq cfg s h with
  | error e => rfl
  | ok rq => exact congrArg Except.ok (hkernel rq)

theorem scheduleEnter_withFrames (cur next : Int) :
    scheduleEnter (s.withFrames F) h cur next = (scheduleEnter s h cur next).withFrames F := by
  unfold scheduleEnter
  dsimp only
  rw [modThread_withFrames (.inr fun _ _ => rfl)]
  rfl

theorem schedule_withFrames {tf : Int} (ho : OwnThread cfg F s h) :
    schedule cfg (s.withFrames F) h tf = (schedule cfg s h tf).map (·.withFrames F) := by
  unfold schedule
  rw [withFrames_cpus, scheduleLeave_withFrames ho]
  simp only [map_bind, bind_map]
  refine congrArg (assertOk cfg _ _ >>= ·) (funext fun _ => ?_)
  refine congrArg (scheduleLeave cfg s h >>= ·) (funext fun s₁ => ?_)
  rw [schedulePick_congr (fun t => withFrames_state t), withFrames_rq]
  refine congrArg (schedulePick cfg _ _ _ _ _ >>= ·) (funext fun out => ?_)
  have henter := scheduleEnter_withFrames (s := s₁.setRq out.2) (F := F) (h := h)
    (s.cpus h).currentTid out.1
  exact congrArg Except.ok henter

/-! ## The calls of the current thread -/

theorem sleep_withFrames {tf : Int} {ticks : UInt64} (ho : OwnThread cfg F s h) :
    threadSysSleep cfg (s.withFrames F) h tf ticks =
      (threadSysSleep cfg s h tf ticks).map (·.withFrames F) := by
  unfold threadSysSleep
  dsimp only [withFrames_cpus, withFrames_ticks, withFrames_rq]
  split
  · exact schedule_withFrames ho
  · rw [modThread_withFrames (.inl ho.frame)]
    have ho' : OwnThread cfg F (sleepCur s h ticks) h := ho.of_same (.refl _)
    exact schedule_withFrames ho'

theorem threadWaitForStdin_withFrames {tf : Int} {buf len : UInt64} (ho : OwnThread cfg F s h) :
    threadWaitForStdin cfg (s.withFrames F) h tf buf len =
      (threadWaitForStdin cfg s h tf buf len).map (·.withFrames F) := by
  unfold threadWaitForStdin threadBlock
  dsimp only [withFrames_cpus]
  rw [modThread_withFrames (.inl ho.frame), withFrames_id]
  have hmod := modThread_withFrames (F := F) (t := (s.cpus h).currentTid)
    (s := (s.modThread (s.cpus h).currentTid (Thread.setPendingRead · buf len)).setStdinWaiter
      ((s.modThread (s.cpus h).currentTid (Thread.setPendingRead · buf len)).threads
        (s.cpus h).currentTid).id)
    (f := (Thread.setState · .blocked)) (.inl ho.frame)
  refine (congrArg (schedule cfg · h tf) hmod).trans ?_
  have ho' : OwnThread cfg F (blockCur s h buf len) h := ho.of_same (.refl _)
  exact schedule_withFrames ho'

theorem read_withFrames {tf fd : Int} {buf len : UInt64} (ho : OwnThread cfg F s h)
    (htf : F tf = none) :
    sysRead cfg (s.withFrames F) h tf fd buf len =
      (sysRead cfg s h tf fd buf len).map (·.withFrames F) := by
  have hread : consoleReadNonblock (s.withFrames F) buf len =
      ((consoleReadNonblock s buf len).1, (consoleReadNonblock s buf len).2.withFrames F) := rfl
  unfold sysRead
  rw [hread]
  dsimp only
  split_ifs
  · rw [setA0_withFrames htf]
    rfl
  · rw [setA0_withFrames htf]
    rfl
  · have ho' : OwnThread cfg F (drained s buf len) h := ho.of_same (.refl _)
    exact threadWaitForStdin_withFrames ho'

theorem storeStatus_withFrames (p : UInt64) (v : Int) :
    storeStatus (s.withFrames F) p v = (storeStatus s p v).withFrames F := by
  unfold storeStatus
  split
  · rfl
  · rfl

theorem join_withFrames {tf t : Int} {p : UInt64} (ho : OwnThread cfg F s h) (htf : F tf = none)
    (hkept : JoinAccepts cfg s h t → (s.threads t).state = .zombie → F t = none) :
    threadSysJoin cfg (s.withFrames F) h tf t p =
      (threadSysJoin cfg s h tf t p).map (·.withFrames F) := by
  unfold threadSysJoin
  dsimp only [withFrames_cpus]
  simp only [withFrames_state, withFrames_detached, withFrames_joinWaiter, withFrames_exitCode,
    setA0_withFrames htf]
  split_ifs with h1 h2 h3 h4 h5 h6 h7
  · rfl
  · rfl
  · rfl
  · rfl
  · rfl
  · -- a dead thread is collected: no hart executes it
    have ht : F t = none := hkept ⟨by omega, by omega, h2, h3, by simpa using h4, by omega⟩ h5
    rw [storeStatus_withFrames, recycleThread_withFrames ht, setA0_withFrames htf]
    rfl
  · rfl
  · rw [modThread_withFrames (.inl ho.frame), modThread_withFrames (.inr fun _ _ => rfl)]
    have ho' : OwnThread cfg F (waitCur s h t p) h := ho.of_same (.refl _)
    exact schedule_withFrames ho'

theorem deliver_withFrames {w : Int} (hw : F w = none) (code : Int) :
    deliver (s.withFrames F) w code = (deliver s w code).withFrames F := by
  unfold deliver
  rw [withFrames_joinStatusPtr, storeStatus_withFrames, setA0_withFrames hw,
    modThread_withFrames (.inl hw)]

theorem releaseJoiner_withFrames {w code : Int} (hw : F w = none) :
    releaseJoiner cfg (s.withFrames F) h w code =
      (releaseJoiner cfg s h w code).map (·.withFrames F) := by
  rw [releaseJoiner_eq, releaseJoiner_eq, deliver_withFrames hw]
  exact threadMakeRunnable_withFrames w _

theorem exit_withFrames {tf code : Int} (ho : OwnThread cfg F s h) (htf : F tf = none)
    (hjoiner : 0 ≤ (s.threads (s.cpus h).currentTid).joinWaiter →
      F (s.threads (s.cpus h).currentTid).joinWaiter = none) :
    threadSysExit cfg (s.withFrames F) h tf code =
      (threadSysExit cfg s h tf code).map (·.withFrames F) := by
  have hend : ∀ s₁ : Kernel, SameCpu (s.cpus h) (s₁.cpus h) →
      schedule cfg ((s₁.withFrames F).modThread (s.cpus h).currentTid
        (Thread.setJoinWaiter · (-1))) h tf =
      (schedule cfg (s₁.modThread (s.cpus h).currentTid (Thread.setJoinWaiter · (-1))) h tf).map
        (·.withFrames F) := by
    intro s₁ hcpu
    rw [modThread_withFrames (.inl ho.frame)]
    exact schedule_withFrames (ho.of_same hcpu)
  have hjw := withFrames_joinWaiter (s := s) (F := F) (s.cpus h).currentTid
  unfold threadSysExit
  dsimp only [withFrames_cpus]
  rw [hjw, withFrames_none htf, modThread_withFrames (.inl ho.frame)]
  split
  · rename_i hw
    show (releaseJoiner cfg ((exitCur s h tf code).withFrames F) h
      (s.threads (s.cpus h).currentTid).joinWaiter code >>= fun s₀ =>
        schedule cfg ((recycleThread cfg s₀ (s.cpus h).currentTid).modThread (s.cpus h).currentTid
          (Thread.setJoinWaiter · (-1))) h tf) =
      (releaseJoiner cfg (exitCur s h tf code) h
        (s.threads (s.cpus h).currentTid).joinWaiter code >>= fun s₀ =>
          schedule cfg ((recycleThread cfg s₀ (s.cpus h).currentTid).modThread (s.cpus h).currentTid
            (Thread.setJoinWaiter · (-1))) h tf).map (·.withFrames F)
    rw [releaseJoiner_withFrames (hjoiner hw.1)]
    cases hrel : releaseJoiner cfg (exitCur s h tf code) h
        (s.threads (s.cpus h).currentTid).joinWaiter code with
    | error e => rfl
    | ok s₀ =>
      rw [releaseJoiner_eq] at hrel
      have hcpu : SameCpu (s.cpus h) ((recycleThread cfg s₀ (s.cpus h).currentTid).cpus h) := by
        have hsame := (threadMakeRunnable_sameHarts hrel).sameCpu h
        rw [deliver_cpus] at hsame
        rw [recycleThread_cpus]
        exact hsame
      have hrec := @recycleThread_withFrames cfg s₀ F _ ho.frame
      show schedule cfg ((recycleThread cfg (s₀.withFrames F) (s.cpus h).currentTid).modThread
        (s.cpus h).currentTid (Thread.setJoinWaiter · (-1))) h tf = _
      rw [hrec]
      exact hend _ hcpu
  · exact hend (exitCur s h tf code) (.refl _)

/-! ## The calls about other threads -/

theorem create_withFrames {tf : Int} {entry arg name sstatus : UInt64} (htf : F tf = none)
    (hused : ∀ t, (s.threads t).state = .unused → F t = none) :
    threadSysCreate cfg (s.withFrames F) h tf entry arg name sstatus =
      (threadSysCreate cfg s h tf entry arg name sstatus).map (·.withFrames F) := by
  have hslot : allocThreadSlot cfg (s.withFrames F) = allocThreadSlot cfg s := by
    unfold allocThreadSlot
    simp only [withFrames_state]
  unfold threadSysCreate threadCreateUser
  dsimp only
  rw [hslot]
  split
  · simp only [ok_bind]
    rw [setA0_withFrames htf]
    rfl
  · rename_i hneg
    rw [modThread_withFrames (.inl (hused _ (allocThreadSlot_unused hneg).2.2))]
    rw [threadMakeRunnable_withFrames]
    simp only [map_bind, bind_map, cpuCurrentHartid, Kernel.modThread_cpus, withFrames_cpus]
    cases threadMakeRunnable cfg _ h _ _ with
    | error e => rfl
    | ok s₁ => exact congrArg Except.ok (setA0_withFrames htf _)

theorem kickVictim_withFrames (t : Int) :
    kickVictim cfg (s.withFrames F) h t = (kickVictim cfg s h t).withFrames F := by
  unfold kickVictim
  dsimp only
  rw [withFrames_runningHart, smpKickHart_withFrames]
  split
  · split
    · rename_i hne
      have hne' : (s.threads t).runningHart.toNat ≠ cpuCurrentHartid s h := hne
      rw [if_pos hne']
    · rename_i heq
      have heq' : ¬ (s.threads t).runningHart.toNat ≠ cpuCurrentHartid s h := heq
      rw [if_neg heq']
      rfl
  · rfl

theorem killRelease_withFrames {t w : Int} (ht : F t = none) (hw : 0 ≤ w → F w = none) :
    killRelease cfg (s.withFrames F) h t w = (killRelease cfg s h t w).map (·.withFrames F) := by
  unfold killRelease
  by_cases hin : 0 ≤ w ∧ w < cfg.threadMax
  · have hneg : ¬ w < 0 := by omega
    simp only [hin, hneg, and_self, if_true, if_false, false_and, withFrames_exitCode]
    rw [releaseJoiner_withFrames (hw hin.1)]
    cases releaseJoiner cfg s h w (s.threads t).exitCode with
    | error e => rfl
    | ok s₁ =>
      have hrec := @recycleThread_withFrames cfg s₁ F t ht
      have hmark := @modThread_withFrames s₁ F t (Thread.setJoinWaiter · w) (.inl ht)
      simp only [Except.map, ok_bind, withFrames_runningHart, withFrames_rq, hrec, hmark]
      split_ifs <;> rfl
  · simp only [hin, if_false, ok_bind]
    by_cases hneg : w < 0
    · have hmark := @modThread_withFrames s F t (Thread.setJoinWaiter · (-1)) (.inl ht)
      have hrec :=
        @recycleThread_withFrames cfg (s.modThread t (Thread.setJoinWaiter · (-1))) F t ht
      simp only [hneg, if_true, true_and, hmark, hrec, withFrames_detached, withFrames_runningHart,
        withFrames_rq]
      split_ifs <;> rfl
    · simp only [hneg, if_false, false_and]
      rfl

theorem killUnqueue_withFrames (t : Int) :
    killUnqueue cfg (s.withFrames F) t = (killUnqueue cfg s t).map (·.withFrames F) := by
  unfold killUnqueue
  rw [withFrames_rq]
  split
  · cases rqRemoveAny cfg s.rq t <;> rfl
  · rfl

theorem kill_withFrames {tf t : Int} (htf : F tf = none) (ht : KillHits cfg s h t → F t = none)
    (hw : KillHits cfg s h t → 0 ≤ (s.threads t).joinWaiter → F (s.threads t).joinWaiter = none) :
    threadSysKill cfg (s.withFrames F) h tf t =
      (threadSysKill cfg s h tf t).map (·.withFrames F) := by
  unfold threadSysKill
  dsimp only [withFrames_cpus]
  simp only [withFrames_state, withFrames_canBeKilled, setA0_withFrames htf]
  split
  · rfl
  split
  · rfl
  split
  · rfl
  split
  · rfl
  split
  · rfl
  split
  · rfl
  rename_i h1 h2 h3 h4 h5 h6
  have hhit : KillHits cfg s h t := ⟨by omega, by omega, h3, by simpa using h4, h5, h6⟩
  unfold killThread
  dsimp only
  rw [withFrames_joinWaiter, modThread_withFrames (.inl (ht hhit)), killUnqueue_withFrames]
  cases killUnqueue cfg (s.modThread t Thread.kill) t with
  | error e => rfl
  | ok s₁ =>
    simp only [Except.map, ok_bind]
    rw [kickVictim_withFrames, killRelease_withFrames (ht hhit) (hw hhit)]
    cases killRelease cfg (kickVictim cfg s₁ h t) h t (s.threads t).joinWaiter with
    | error e => rfl
    | ok s₂ => exact congrArg Except.ok (setA0_withFrames htf 0)

theorem detach_withFrames {tf t : Int} (htf : F tf = none)
    (hkept : DetachAccepts cfg s t → (s.threads t).state = .zombie → F t = none) :
    threadSysDetach cfg (s.withFrames F) tf t = (threadSysDetach cfg s tf t).withFrames F := by
  unfold threadSysDetach
  dsimp only
  simp only [withFrames_state, withFrames_detached, withFrames_joinWaiter, setA0_withFrames htf]
  split
  · rfl
  split
  · rfl
  split
  · rfl
  split
  · rfl
  split
  · rfl
  rename_i h1 h2 h3 h4 h5
  have hmark := @modThread_withFrames s F t Thread.detach (.inr fun _ _ => rfl)
  rw [hmark]
  split
  · rename_i hz
    have ht : F t = none := hkept ⟨by omega, by omega, h2, by omega, by simpa using h5⟩ hz
    rw [recycleThread_withFrames ht, setA0_withFrames htf]
  · rw [setA0_withFrames htf]

/-! ## Interrupts -/

theorem threadsTick_withFrames :
    threadsTick cfg (s.withFrames F) h = (threadsTick cfg s h).map (·.withFrames F) := by
  have hstep : ∀ i ∈ List.range cfg.threadMax, ∀ s₁ : Kernel, True →
      threadsTickStep cfg h (s₁.withFrames F) i =
        (threadsTickStep cfg h s₁ i).map (·.withFrames F) := by
    intro i _ s₁ _
    unfold threadsTickStep
    simp only [withFrames_state, withFrames_wakeupTick, withFrames_ticks, withFrames_bootHartid]
    split
    · rw [modThread_withFrames (.inr fun _ _ => rfl)]
      exact threadMakeRunnable_withFrames _ _
    · rfl
  exact @foldlM_map _ _ _ _ (Kernel.withFrames · F) (fun _ => True) _ hstep
    (fun _ _ _ _ _ _ => trivial) { s with ticks := s.ticks + 1 } trivial

theorem sliceTick_withFrames {tf : Int} (ho : OwnThread cfg F s h) :
    sliceTick cfg (s.withFrames F) h tf = (sliceTick cfg s h tf).map (·.withFrames F) := by
  show (if ((useTick s h).cpus h).sliceLeft = 0 then
      schedule cfg ((resetSlice (useTick s h) h).withFrames F) h tf
    else .ok ((useTick s h).withFrames F)) =
    (if ((useTick s h).cpus h).sliceLeft = 0 then schedule cfg (resetSlice (useTick s h) h) h tf
      else .ok (useTick s h)).map (·.withFrames F)
  split
  · refine schedule_withFrames (ho.of_same ?_)
    simp only [resetSlice, useTick, Kernel.modCpu_cpus, if_true]
    exact ⟨rfl, rfl, rfl, rfl, rfl⟩
  · rfl

theorem timer_withFrames {tf : Int} (ho : OwnThread cfg F s h) :
    schedOnTimerIrq cfg (s.withFrames F) h tf =
      (schedOnTimerIrq cfg s h tf).map (·.withFrames F) := by
  have hcount : SameCpu (s.cpus h) ((countTimer s h).cpus h) := (countTimer_quiet s h).cpus h
  show (if ((countTimer s h).cpus h).hartid = s.bootHartid then
      threadsTick cfg ((countTimer s h).withFrames F) h >>= fun s => sliceTick cfg s h tf
    else sliceTick cfg ((countTimer s h).withFrames F) h tf) =
    (if ((countTimer s h).cpus h).hartid = s.bootHartid then
      threadsTick cfg (countTimer s h) h >>= fun s => sliceTick cfg s h tf
    else sliceTick cfg (countTimer s h) h tf).map (·.withFrames F)
  split
  · rw [threadsTick_withFrames]
    cases htick : threadsTick cfg (countTimer s h) h with
    | error e => rfl
    | ok s₁ =>
      have hsame := hcount.trans ((threadsTick_sameHarts htick).sameCpu h)
      exact sliceTick_withFrames (ho.of_same hsame)
  · exact sliceTick_withFrames (ho.of_same hcount)

theorem threadWake_withFrames (t : Int) :
    threadWake cfg (s.withFrames F) h t = (threadWake cfg s h t).map (·.withFrames F) := by
  unfold threadWake
  rw [withFrames_state]
  split
  · rfl
  split
  · exact threadMakeRunnable_withFrames t _
  · rfl

/-- No save is pending for the registered reader. -/
def ReaderOwn (F : Int → Option Trapframe) (s : Kernel) : Prop :=
  0 ≤ s.stdinWaiter → F s.stdinWaiter = none

theorem threadReadFromStdin_withFrames (h0 : 0 ≤ s.stdinWaiter) (hr : ReaderOwn F s) :
    threadReadFromStdin cfg (s.withFrames F) h =
      (threadReadFromStdin cfg s h).map (·.withFrames F) := by
  have hread : ∀ buf len, consoleReadNonblock (s.withFrames F) buf len =
      ((consoleReadNonblock s buf len).1, (consoleReadNonblock s buf len).2.withFrames F) :=
    fun _ _ => rfl
  unfold threadReadFromStdin
  dsimp only [withFrames_stdinWaiter]
  simp only [withFrames_pendingReadBuf, withFrames_pendingReadLen, hread]
  split
  · exact threadWake_withFrames _
  split
  · rfl
  · rw [modThread_withFrames (.inl (hr h0))]
    exact threadWake_withFrames _

theorem char_withFrames {ch : UInt8} (hr : ReaderOwn F s) :
    consoleOnCharFromIrq cfg (s.withFrames F) h ch =
      (consoleOnCharFromIrq cfg s h ch).map (·.withFrames F) := by
  unfold consoleOnCharFromIrq
  dsimp only [withFrames_stdinWaiter]
  split
  · rfl
  · rename_i h0
    have hread := @threadReadFromStdin_withFrames cfg { s with rx := s.rx.put ch } h F
      (Int.not_lt.mp h0) hr
    show (threadReadFromStdin cfg (Kernel.withFrames { s with rx := s.rx.put ch } F) h >>= _) = _
    rw [hread]
    cases threadReadFromStdin cfg { s with rx := s.rx.put ch } h <;> rfl

theorem char_readerOwn {ch : UInt8} (hr : ReaderOwn F s)
    (hs : consoleOnCharFromIrq cfg s h ch = .ok s') : ReaderOwn F s' := by
  rcases consoleOnCharFromIrq_cases hs with ⟨-, rfl⟩ | ⟨-, s₁, -, rfl⟩
  · exact hr
  · intro h0
    have hneg : (0 : Int) ≤ -1 := h0
    omega

theorem uart_withFrames (rx : List UInt8) (hr : ReaderOwn F s) :
    uart16550IrqHandler cfg (s.withFrames F) h rx =
      (uart16550IrqHandler cfg s h rx).map (·.withFrames F) :=
  foldlM_map (Kernel.withFrames · F) (ReaderOwn F) (fun _ _ _ hr => char_withFrames hr)
    (fun _ _ _ _ hr hs => char_readerOwn hr hs) hr

theorem uart_readerOwn {rx : List UInt8} (hr : ReaderOwn F s)
    (hs : uart16550IrqHandler cfg s h rx = .ok s') : ReaderOwn F s' :=
  foldlM_keeps (ReaderOwn F) (fun _ _ _ _ hr hs => char_readerOwn hr hs) hr hs

/-- The end of a round of `platform_handle_s_external`. -/
def completeIrq (irq : Nat) (s : Kernel) : Kernel :=
  { s with plicOps := s.plicOps ++ [.complete irq] }

/-- A round claims an irq, records it if it is in the table, feeds the console and completes it. -/
theorem plicRound_eq (c : PlicClaim) : ∃ irqs,
    plicRound cfg h s c = (uart16550IrqHandler cfg
      { s with plicOps := s.plicOps ++ [.claim c.irq], irqs := irqs } h (claimRx
        { s with plicOps := s.plicOps ++ [.claim c.irq], irqs := irqs } c)).map
        (completeIrq c.irq) ∧
    plicRound cfg h (s.withFrames F) c = (uart16550IrqHandler cfg
      (Kernel.withFrames { s with plicOps := s.plicOps ++ [.claim c.irq], irqs := irqs } F) h
        (claimRx { s with plicOps := s.plicOps ++ [.claim c.irq], irqs := irqs } c)).map
        (completeIrq c.irq) := by
  have hmap : ∀ x : Except Halt Kernel, (x >>= fun s₂ => .ok (completeIrq c.irq s₂)) =
      x.map (completeIrq c.irq) := by
    intro x
    cases x <;> rfl
  unfold plicRound
  dsimp only
  by_cases hirq : c.irq < maxIrq
  · simp only [if_pos hirq, ← hmap]
    exact ⟨_, rfl, rfl⟩
  · simp only [if_neg hirq, ← hmap]
    exact ⟨_, rfl, rfl⟩

theorem plicRound_withFrames (c : PlicClaim) (hr : ReaderOwn F s) :
    plicRound cfg h (s.withFrames F) c = (plicRound cfg h s c).map (·.withFrames F) := by
  obtain ⟨irqs, hplain, hframes⟩ := @plicRound_eq cfg s h F c
  rw [hplain, hframes, uart_withFrames (s := { s with
    plicOps := s.plicOps ++ [.claim c.irq], irqs := irqs }) _ hr]
  cases uart16550IrqHandler cfg _ h _ <;> rfl

theorem plicRound_readerOwn {c : PlicClaim} (hr : ReaderOwn F s)
    (hs : plicRound cfg h s c = .ok s') : ReaderOwn F s' := by
  obtain ⟨irqs, hplain, -⟩ := @plicRound_eq cfg s h F c
  rw [hplain] at hs
  cases huart : uart16550IrqHandler cfg
      { s with plicOps := s.plicOps ++ [.claim c.irq], irqs := irqs } h (claimRx
        { s with plicOps := s.plicOps ++ [.claim c.irq], irqs := irqs } c) with
  | error e =>
    rw [huart] at hs
    cases hs
  | ok s₁ =>
    rw [huart] at hs
    rw [← Except.ok.inj hs]
    have hr₁ : ReaderOwn F s₁ := uart_readerOwn (s := { s with
      plicOps := s.plicOps ++ [.claim c.irq], irqs := irqs }) hr huart
    exact hr₁

theorem external_withFrames (claims : List PlicClaim) (hr : ReaderOwn F s) :
    platformHandleSExternal cfg (s.withFrames F) h claims =
      (platformHandleSExternal cfg s h claims).map (·.withFrames F) := by
  unfold platformHandleSExternal
  rw [foldlM_map (Kernel.withFrames · F) (ReaderOwn F) (fun _ _ _ hr => plicRound_withFrames _ hr)
    (fun _ _ _ _ hr hs => plicRound_readerOwn hr hs) hr]
  cases (claims.takeWhile fun c => c.irq ≠ 0).foldlM (plicRound cfg h) s <;> rfl

/-! ## All actions -/

theorem runQuery_withFrames (io : TrapInput) (call : Syscall) :
    runQuery cfg (s.withFrames F) h io call =
      ((runQuery cfg s h io call).1, (runQuery cfg s h io call).2.withFrames F) := by
  cases call with
  | threadList ubuf max =>
    have hinfo : ∀ (m : Mem) (dst : UInt64) (t : Int),
        storeThreadInfo m dst ((s.withFrames F).threads t) = storeThreadInfo m dst (s.threads t) :=
      fun m dst t => withFrames_field (storeThreadInfo m dst) (fun _ _ => rfl) t
    unfold runQuery threadSysList
    simp only [withFrames_state, hinfo]
    split
    · rfl
    · rfl
  | clockGettime id uts =>
    unfold runQuery sysClockGettime copyToUserTimespec
    dsimp only
    split_ifs <;> rfl
  | irqGetStats ubuf n =>
    unfold runQuery sysIrqGetStats
    dsimp only
    split
    · rfl
    · rfl
  | runqueueSnapshot ubuf n =>
    unfold runQuery sysRunqueueSnapshot
    dsimp only
    split
    · rfl
    · rfl
  | _ => rfl

/-- A trap whose action is about none of the threads with pending saves does the same before and
after those saves. -/
theorem runAction_withFrames {a : Action} (ho : OwnThread cfg F s h)
    (hby : ∀ u, F u ≠ none → Bystands cfg s h a u) :
    runAction cfg (s.withFrames F) h (s.cpus h).currentTid a =
      (runAction cfg s h (s.cpus h).currentTid a).map (·.withFrames F) := by
  have hown : ∀ {u : Int}, ¬ Bystands cfg s h a u → F u = none := by
    intro u hu
    by_contra hF
    exact hu (hby u hF)
  cases a with
  | ipi =>
    refine schedule_withFrames (s := Kernel.modCpu { s with
      ssip := fun k => if k = h then false else s.ssip k } h fun c =>
        { c with needResched := false })
      (ho.of_same ?_)
    rw [Kernel.modCpu_cpus, if_pos rfl]
    exact ⟨rfl, rfl, rfl, rfl, rfl⟩
  | timer => exact timer_withFrames ho
  | external claims =>
    exact external_withFrames claims fun h0 => hown fun hb => hb.notReader claims rfl rfl
  | sleep ticks => exact sleep_withFrames ho
  | exit code =>
    exact exit_withFrames ho ho.frame fun h0 => hown fun hb => hb.notJoiner ⟨_, rfl, rfl⟩
  | join t p =>
    refine join_withFrames ho ho.frame fun hacc hz => hown fun hb => hb.kept ?_
    exact if_pos ⟨hacc, hz⟩
  | create entry arg name sstatus =>
    exact create_withFrames ho.frame fun t ht => hown fun hb => hb.used ht
  | kill t =>
    refine kill_withFrames ho.frame (fun hhit => hown fun hb => hb.lives (if_pos hhit)) ?_
    exact fun hhit h0 => hown fun hb => hb.notJoiner ⟨t, if_pos hhit, rfl⟩
  | detach t =>
    refine congrArg Except.ok (detach_withFrames ho.frame fun hacc hz => hown fun hb => hb.kept ?_)
    exact if_pos ⟨hacc, hz⟩
  | read fd buf len => exact read_withFrames ho ho.frame
  | query call io =>
    unfold runAction
    dsimp only
    rw [runQuery_withFrames]
    exact congrArg Except.ok (setA0_withFrames ho.frame _)
  | skip => rfl
  | halt msg => rfl

/-- `trap_entry_c` on a hart whose own registers are saved. -/
theorem trapEntry_withFrames {regs : Trapframe} {io : TrapInput} (ho : OwnThread cfg F s h)
    (hcur : (s.cpus h).curTf = .thread (s.cpus h).currentTid)
    (hby : ∀ u, F u ≠ none → Bystands cfg s h (trapAction cfg regs io) u) :
    trapEntry cfg (s.withFrames F) h regs io =
      (trapEntry cfg s h regs io).map (·.withFrames F) := by
  have hsave : saveRegs (s.withFrames F) h regs = (saveRegs s h regs).withFrames F :=
    modThread_withFrames (.inl ho.frame)
  rw [trapEntry_eq (s := s.withFrames F) hcur, trapEntry_eq hcur, hsave]
  exact runAction_withFrames (s := saveRegs s h regs) (ho.of_same (.refl _))
    fun u hu => (hby u hu).saveRegs regs

theorem cpuEnterIdle_withFrames :
    cpuEnterIdle cfg (s.withFrames F) h = (cpuEnterIdle cfg s h).map (·.withFrames F) := by
  have hmod := modThread_withFrames (F := F) (t := (h : Int))
    (s := s.modCpu h fun c => { c with idleTid := h, currentTid := h, curTf := .thread h })
    (f := fun t => threadMarkRunning (t.setState .running) h) (.inr fun _ _ => rfl)
  unfold cpuEnterIdle
  simp only [map_bind, withFrames_cpus]
  refine congrArg (assertOk cfg _ _ >>= ·) (funext fun _ => ?_)
  refine congrArg (assertOk cfg _ _ >>= ·) (funext fun _ => ?_)
  refine congrArg (fun k : Kernel => Except.ok { k with
    sie := fun j => if j = h then
      { ssie := true, stie := decide (h = k.bootHartid) || (k.sie j).stie,
        seie := decide (h = k.bootHartid) || (k.sie j).seie } else k.sie j }) hmod

end Ccos
