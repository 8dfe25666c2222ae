import Mathlib.Tactic
import Ccos.Kernel.Effects

/-!
# What each trap handler can do

The handlers of `trap_entry_c` as sequences of the functions of `Kernel.Effects`, one inversion
lemma each.  The states in between get names, so that an invariant is followed from one to the next.
-/

namespace Ccos

open Reasoning

variable {cfg : Config} {s s' : Kernel} {h : Nat} {tf : Int}

/-! ## Intermediate states -/

/-- The current thread is asleep and unlinked. -/
def sleepCur (s : Kernel) (h : Nat) (ticks : UInt64) : Kernel :=
  (s.modThread (s.cpus h).currentTid (Thread.sleepUntil · (s.ticks + ticks))).setRq
    (s.rq.unlink (s.cpus h).currentTid)

/-- The current thread is dead and unlinked. -/
def exitCur (s : Kernel) (h : Nat) (tf : Int) (code : Int) : Kernel :=
  (s.modThread (s.cpus h).currentTid (Thread.exit · (s.threads tf).tf code)).setRq
    (s.rq.unlink (s.cpus h).currentTid)

/-- The current thread waits for `target`. -/
def waitCur (s : Kernel) (h : Nat) (target : Int) (p : UInt64) : Kernel :=
  (s.modThread (s.cpus h).currentTid (Thread.waitFor · target p)).modThread target
    (Thread.setJoinWaiter · (s.cpus h).currentTid)

/-- The current thread is blocked on stdin. -/
def blockCur (s : Kernel) (h : Nat) (buf len : UInt64) : Kernel :=
  let cur := (s.cpus h).currentTid
  let s := s.modThread cur (Thread.setPendingRead · buf len)
  (s.setStdinWaiter (s.threads cur).id).modThread cur (Thread.setState · .blocked)

/-- The exit code is handed to the joiner `w`, which is not awake yet. -/
def deliver (s : Kernel) (w : Int) (code : Int) : Kernel :=
  ((storeStatus s (s.threads w).joinStatusPtr code).setA0 w 0).modThread w Thread.clearWait

/-- The victim of a kill is dead, off its queue (`rq`), and its hart is told. -/
def killed (cfg : Config) (s : Kernel) (h : Nat) (t : Int) (rq : RunQueues) : Kernel :=
  kickVictim cfg ((s.modThread t Thread.kill).setRq rq) h t

theorem releaseJoiner_eq {w code : Int} :
    releaseJoiner cfg s h w code =
      threadMakeRunnable cfg (deliver s w code) h w (cpuCurrentHartid s h) := by
  unfold releaseJoiner deliver storeStatus
  dsimp only
  split <;> rfl

/-! ## System calls of the current thread -/

theorem threadSysSleep_cases {ticks : UInt64} (hs : threadSysSleep cfg s h tf ticks = .ok s') :
    (ticks = 0 ∧ schedule cfg s h tf = .ok s') ∨
    (ticks ≠ 0 ∧ schedule cfg (sleepCur s h ticks) h tf = .ok s') := by
  unfold threadSysSleep at hs
  dsimp only at hs
  split at hs
  · exact .inl ⟨‹_›, hs⟩
  · exact .inr ⟨‹_›, hs⟩

/-- `thread_sys_exit` up to the clearing of `join_waiter`. -/
def ExitRelease (cfg : Config) (s : Kernel) (h : Nat) (tf code : Int) (s₁ : Kernel) : Prop :=
  let cur := (s.cpus h).currentTid
  let w := (s.threads cur).joinWaiter
  (0 ≤ w ∧ w < cfg.threadMax ∧ ∃ s₀,
    threadMakeRunnable cfg (deliver (exitCur s h tf code) w code) h w (cpuCurrentHartid s h) =
      .ok s₀ ∧
    s₁ = recycleThread cfg s₀ cur) ∨
  ((w < 0 ∨ (cfg.threadMax : Int) ≤ w) ∧ s₁ = exitCur s h tf code)

theorem threadSysExit_cases {code : Int} (hs : threadSysExit cfg s h tf code = .ok s') :
    ∃ s₁, ExitRelease cfg s h tf code s₁ ∧
      schedule cfg (s₁.modThread (s.cpus h).currentTid (Thread.setJoinWaiter · (-1))) h tf =
        .ok s' := by
  unfold threadSysExit at hs
  dsimp only at hs
  split at hs
  · rename_i hw
    simp only [bind_eq_ok] at hs
    obtain ⟨s₀, h₀, s₁, h₁, hs⟩ := hs
    rw [releaseJoiner_eq] at h₀
    exact ⟨s₁, .inl ⟨hw.1, hw.2, s₀, h₀, (Except.ok.inj h₁).symm⟩, hs⟩
  · rename_i hw
    rw [ok_bind] at hs
    exact ⟨_, .inr ⟨by omega, rfl⟩, hs⟩

/-- The checks of `thread_sys_join` on its target. -/
def JoinAccepts (cfg : Config) (s : Kernel) (h : Nat) (t : Int) : Prop :=
  0 < t ∧ t < cfg.threadMax ∧ t ≠ (s.cpus h).currentTid ∧ (s.threads t).state ≠ .unused ∧
    (s.threads t).detached = false ∧
    ((s.threads t).joinWaiter < 0 ∨ (s.threads t).joinWaiter = (s.cpus h).currentTid)

instance (t : Int) : Decidable (JoinAccepts cfg s h t) :=
  inferInstanceAs (Decidable (_ ∧ _))

/-- `thread_sys_join` refuses, collects a dead thread, or waits. -/
theorem threadSysJoin_cases {t : Int} {p : UInt64} (hs : threadSysJoin cfg s h tf t p = .ok s') :
    (¬ JoinAccepts cfg s h t ∧ ∃ v : UInt64, v ≠ 0 ∧ s' = s.setA0 tf v) ∨
    (JoinAccepts cfg s h t ∧ (s.threads t).state = .zombie ∧
      s' = (recycleThread cfg (storeStatus s p (s.threads t).exitCode) t).setA0 tf 0) ∨
    (JoinAccepts cfg s h t ∧ (s.threads t).state ≠ .zombie ∧
      schedule cfg (waitCur s h t p) h tf = .ok s') := by
  have herr : ∀ {v : Int}, UInt64.ofInt v ≠ 0 → Except.ok (s.setA0 tf (UInt64.ofInt v)) =
      (Except.ok s' : Except Halt Kernel) → ∃ v : UInt64, v ≠ 0 ∧ s' = s.setA0 tf v :=
    fun hv he => ⟨_, hv, (Except.ok.inj he).symm⟩
  unfold threadSysJoin at hs
  dsimp only at hs
  split_ifs at hs with h1 h2 h3 h4 h5 h6 h7
  · exact .inl ⟨fun ha => by have := ha.1; have := ha.2.1; omega, herr (by decide) hs⟩
  · exact .inl ⟨fun ha => ha.2.2.1 h2, herr (by decide) hs⟩
  · exact .inl ⟨fun ha => ha.2.2.2.1 h3, herr (by decide) hs⟩
  · exact .inl ⟨fun ha => by simp [ha.2.2.2.2.1] at h4, herr (by decide) hs⟩
  · exact .inl ⟨fun ha => by have := ha.2.2.2.2.2; omega, herr (by decide) hs⟩
  · exact .inr (.inl ⟨⟨by omega, by omega, h2, h3, by simpa using h4, by omega⟩, h5,
      (Except.ok.inj hs).symm⟩)
  · exact .inl ⟨fun ha => by have := ha.2.2.2.2.2; omega, herr (by decide) hs⟩
  · exact .inr (.inr ⟨⟨by omega, by omega, h2, h3, by simpa using h4, by omega⟩, h5, hs⟩)

theorem threadCreateUser_cases {entry arg sstatus : UInt64} {name : Option ThreadName} {tid : Int}
    (hs : threadCreateUser cfg s h entry arg name sstatus = .ok (tid, s')) :
    (tid = -1 ∧ s' = s) ∨
    (0 < tid ∧ tid < cfg.threadMax ∧ (s.threads tid).state = .unused ∧
      threadMakeRunnable cfg (s.modThread tid fun t =>
        initUserThread t (threadStack cfg tid) entry arg name sstatus) h tid
        (cpuCurrentHartid s h) = .ok s') := by
  unfold threadCreateUser at hs
  dsimp only at hs
  split at hs
  · rw [Except.ok.injEq, Prod.mk.injEq] at hs
    exact .inl ⟨hs.1.symm, hs.2.symm⟩
  · rename_i hpos
    simp only [bind_eq_ok, Except.ok.injEq, Prod.mk.injEq] at hs
    obtain ⟨s₁, hmake, rfl, rfl⟩ := hs
    unfold allocThreadSlot at *
    split at hpos
    · rename_i i hi
      have hmem := List.mem_of_find?_eq_some hi
      have hst := List.find?_some hi
      rw [List.mem_range'] at hmem
      have hlt := cfg.maxHarts_lt
      obtain ⟨j, hj, hij⟩ := hmem
      simp only [hi] at hmake ⊢
      exact .inr ⟨by omega, by omega, by simpa using hst, hmake⟩
    · omega

theorem threadSysCreate_cases {entry arg name sstatus : UInt64}
    (hs : threadSysCreate cfg s h tf entry arg name sstatus = .ok s') :
    ∃ tid s₁, threadCreateUser cfg s h entry arg (if name = 0 then none else some (.user name))
      sstatus = .ok (tid, s₁) ∧ s' = s₁.setA0 tf (UInt64.ofInt tid) := by
  unfold threadSysCreate at hs
  simp only [bind_eq_ok] at hs
  obtain ⟨⟨tid, s₁⟩, hcreate, hs⟩ := hs
  exact ⟨tid, s₁, hcreate, (Except.ok.inj hs).symm⟩

/-- The checks of `thread_sys_kill` that lead to a kill. -/
def KillHits (cfg : Config) (s : Kernel) (h : Nat) (t : Int) : Prop :=
  0 < t ∧ t < cfg.threadMax ∧ t ≠ (s.cpus h).currentTid ∧ (s.threads t).canBeKilled = true ∧
    (s.threads t).state ≠ .unused ∧ (s.threads t).state ≠ .zombie

instance (t : Int) : Decidable (KillHits cfg s h t) :=
  inferInstanceAs (Decidable (_ ∧ _))

theorem threadSysKill_cases {t : Int} (hs : threadSysKill cfg s h tf t = .ok s') :
    (¬ KillHits cfg s h t ∧ ∃ v : UInt64, s' = s.setA0 tf v) ∨
    (KillHits cfg s h t ∧ killThread cfg s h tf t = .ok s') := by
  have herr : ∀ {v : UInt64}, Except.ok (s.setA0 tf v) =
      (Except.ok s' : Except Halt Kernel) → ∃ v : UInt64, s' = s.setA0 tf v :=
    fun he => ⟨_, (Except.ok.inj he).symm⟩
  unfold threadSysKill at hs
  dsimp only at hs
  split_ifs at hs with h1 h2 h3 h4 h5 h6
  · exact .inl ⟨fun hk => by have := hk.1; have := hk.2.1; omega, herr hs⟩
  · exact .inl ⟨fun hk => by have := hk.1; omega, herr hs⟩
  · exact .inl ⟨fun hk => hk.2.2.1 h3, herr hs⟩
  · exact .inl ⟨fun hk => hk.2.2.2.2.1 h5, herr hs⟩
  · exact .inl ⟨fun hk => hk.2.2.2.2.2 h6, herr hs⟩
  · exact .inr ⟨⟨by omega, by omega, h3, h4, h5, h6⟩, hs⟩
  · exact .inl ⟨fun hk => h4 hk.2.2.2.1, herr hs⟩

/-- The queues after the victim of a kill was taken off its run queue. -/
def KillUnqueued (cfg : Config) (s : Kernel) (t : Int) (rq : RunQueues) : Prop :=
  (s.rq.onRq t = true ∧ ∃ ret, rqRemoveAny cfg s.rq t = .ok (ret, rq)) ∨
  (s.rq.onRq t = false ∧ rq = s.rq)

/-- `thread_sys_kill` from the death of the victim to the return value: the joiner is released and
the slot reclaimed, unless a hart still executes the victim. -/
def KillRelease (cfg : Config) (s : Kernel) (h : Nat) (t w : Int) (s₁ : Kernel) : Prop :=
  (0 ≤ w ∧ w < cfg.threadMax ∧ ∃ s₀,
    threadMakeRunnable cfg (deliver s w exitcodeSigkill) h w (cpuCurrentHartid s h) = .ok s₀ ∧
    s₁ = if (s₀.threads t).runningHart < 0 ∧ s₀.rq.onRq t = false then recycleThread cfg s₀ t
      else s₀.modThread t (Thread.setJoinWaiter · w)) ∨
  (w < 0 ∧ s₁ = if (s.threads t).detached = true ∧ (s.threads t).runningHart < 0 ∧
      s.rq.onRq t = false then recycleThread cfg (s.modThread t (Thread.setJoinWaiter · (-1))) t
      else s.modThread t (Thread.setJoinWaiter · (-1))) ∨
  ((cfg.threadMax : Int) ≤ w ∧ s₁ = s)

theorem kickVictim_threads (t : Int) : (kickVictim cfg s h t).threads = s.threads := by
  unfold kickVictim
  dsimp only
  split_ifs
  · exact smpKickHart_threads _
  · rfl
  · rfl

theorem kickVictim_rq (t : Int) : (kickVictim cfg s h t).rq = s.rq := by
  unfold kickVictim
  dsimp only
  split_ifs
  · exact smpKickHart_rq _
  · rfl
  · rfl

theorem kickVictim_sameHarts (t : Int) : SameHarts s (kickVictim cfg s h t) := by
  unfold kickVictim
  dsimp only
  split_ifs
  · exact .of_eq (smpKickHart_cpus _)
  · exact SameHarts.needResched s h true
  · exact .refl s

theorem kickVictim_schedOnly (t : Int) : SchedOnly s (kickVictim cfg s h t) := by
  unfold kickVictim
  dsimp only
  split_ifs
  · exact smpKickHart_schedOnly _
  · rfl
  · rfl

theorem killUnqueue_cases {t : Int} (hs : killUnqueue cfg (s.modThread t Thread.kill) t = .ok s') :
    ∃ rq, KillUnqueued cfg s t rq ∧ s' = (s.modThread t Thread.kill).setRq rq := by
  unfold killUnqueue at hs
  split at hs
  · rename_i hon
    simp only [bind_eq_ok] at hs
    obtain ⟨⟨ret, rq⟩, hrem, hs⟩ := hs
    exact ⟨rq, .inl ⟨hon, ret, hrem⟩, (Except.ok.inj hs).symm⟩
  · rename_i hon
    exact ⟨s.rq, .inr ⟨by simpa using hon, rfl⟩, (Except.ok.inj hs).symm⟩

theorem killRelease_cases {t w : Int} (hcode : (s.threads t).exitCode = exitcodeSigkill)
    (hs : killRelease cfg s h t w = .ok s') : KillRelease cfg s h t w s' := by
  unfold killRelease at hs
  unfold KillRelease
  by_cases hw : 0 ≤ w ∧ w < cfg.threadMax
  · have hneg : ¬ w < 0 := by omega
    refine .inl ⟨hw.1, hw.2, ?_⟩
    simp only [hw, hneg, and_self, if_true, if_false, false_and, bind_eq_ok, hcode,
      releaseJoiner_eq] at hs
    obtain ⟨s₀, hmake, hs⟩ := hs
    refine ⟨s₀, hmake, ?_⟩
    split at hs
    · rename_i hrec
      rw [if_pos ⟨hrec.1, by simpa using hrec.2⟩]
      simpa using hs.symm
    · rename_i hrec
      have hrec' : ¬ ((s₀.threads t).runningHart < 0 ∧ s₀.rq.onRq t = false) := by simpa using hrec
      rw [if_neg hrec']
      simpa using hs.symm
  · simp only [hw, if_false, ok_bind] at hs
    by_cases hneg : w < 0
    · refine .inr (.inl ⟨hneg, ?_⟩)
      simp only [hneg, if_true, true_and, Kernel.modThread_threads, Kernel.modThread_rq,
        Thread.setJoinWaiter_detached, Thread.setJoinWaiter_runningHart, Bool.not_eq_true] at hs
      split at hs
      · rename_i hrec
        rw [if_pos hrec]
        exact (Except.ok.inj hs).symm
      · rename_i hrec
        rw [if_neg hrec]
        exact (Except.ok.inj hs).symm
    · refine .inr (.inr ⟨by omega, ?_⟩)
      simp only [hneg, if_false, false_and] at hs
      exact (Except.ok.inj hs).symm

theorem killThread_cases {t : Int} (hs : killThread cfg s h tf t = .ok s') :
    ∃ rq s₁, KillUnqueued cfg s t rq ∧
      KillRelease cfg (killed cfg s h t rq) h t (s.threads t).joinWaiter s₁ ∧
      s' = s₁.setA0 tf 0 := by
  unfold killThread at hs
  simp only [bind_eq_ok] at hs
  obtain ⟨s₀, hunq, s₁, hrel, hs⟩ := hs
  obtain ⟨rq, hrq, rfl⟩ := killUnqueue_cases hunq
  refine ⟨rq, s₁, hrq, killRelease_cases ?_ hrel, (Except.ok.inj hs).symm⟩
  rw [killed, kickVictim_threads]
  simp

/-- The checks of `thread_sys_detach` that lead to a change. -/
def DetachAccepts (cfg : Config) (s : Kernel) (t : Int) : Prop :=
  (cfg.maxHarts : Int) ≤ t ∧ t < cfg.threadMax ∧ (s.threads t).state ≠ .unused ∧
    (s.threads t).joinWaiter < 0 ∧ (s.threads t).detached = false

instance (t : Int) : Decidable (DetachAccepts cfg s t) :=
  inferInstanceAs (Decidable (_ ∧ _))

/-- `thread_sys_detach` refuses, repeats itself, or detaches and reclaims a dead thread. -/
theorem threadSysDetach_cases {t : Int} (hs : threadSysDetach cfg s tf t = s') :
    (¬ DetachAccepts cfg s t ∧ ∃ v : UInt64, s' = s.setA0 tf v) ∨
    (DetachAccepts cfg s t ∧
      s' = (if (s.threads t).state = .zombie then recycleThread cfg (s.modThread t Thread.detach) t
        else s.modThread t Thread.detach).setA0 tf 0) := by
  have hpos := cfg.maxHarts_pos
  have herr : ∀ {v : UInt64}, s.setA0 tf v = s' → ∃ v : UInt64, s' = s.setA0 tf v :=
    fun he => ⟨_, he.symm⟩
  unfold threadSysDetach at hs
  dsimp only at hs
  split_ifs at hs with h1 h2 h3 h4 h5 h6
  · exact .inl ⟨fun hd => by have := hd.1; have := hd.2.1; omega, herr hs⟩
  · exact .inl ⟨fun hd => hd.2.2.1 h2, herr hs⟩
  · exact .inl ⟨fun hd => by have := hd.1; omega, herr hs⟩
  · exact .inl ⟨fun hd => by have := hd.2.2.2.1; omega, herr hs⟩
  · exact .inl ⟨fun hd => by simp [hd.2.2.2.2] at h5, herr hs⟩
  · exact .inr ⟨⟨by omega, by omega, h2, by omega, by simpa using h5⟩,
      by rw [if_pos h6]; exact hs.symm⟩
  · exact .inr ⟨⟨by omega, by omega, h2, by omega, by simpa using h5⟩,
      by rw [if_neg h6]; exact hs.symm⟩

/-! ## Timer -/

/-- The hart has counted the interrupt. -/
def countTimer (s : Kernel) (h : Nat) : Kernel :=
  s.modCpu h fun c => { c with timerIrqs := c.timerIrqs + 1 }

/-- One tick of the slice is used up. -/
def useTick (s : Kernel) (h : Nat) : Kernel :=
  s.modCpu h fun c => { c with sliceLeft := c.sliceLeft - 1 }

/-- The slice starts again, just before `schedule`. -/
def resetSlice (s : Kernel) (h : Nat) : Kernel :=
  s.modCpu h fun c => { c with sliceLeft := schedSliceTicks, needResched := false }

theorem sliceTick_cases (hs : sliceTick cfg s h tf = .ok s') :
    ((s.cpus h).sliceLeft ≤ 1 ∧ schedule cfg (resetSlice (useTick s h) h) h tf = .ok s') ∨
    (1 < (s.cpus h).sliceLeft ∧ s' = useTick s h) := by
  have hleft : ((useTick s h).cpus h).sliceLeft = (s.cpus h).sliceLeft - 1 := by simp [useTick]
  unfold sliceTick at hs
  change (if ((useTick s h).cpus h).sliceLeft = 0 then
    schedule cfg (resetSlice (useTick s h) h) h tf else .ok (useTick s h)) = .ok s' at hs
  rw [hleft] at hs
  split at hs
  · exact .inl ⟨by omega, hs⟩
  · exact .inr ⟨by omega, (Except.ok.inj hs).symm⟩

/-- The boot hart advances the tick counter, every hart its slice. -/
theorem schedOnTimerIrq_cases (hs : schedOnTimerIrq cfg s h tf = .ok s') :
    ∃ s₁, sliceTick cfg s₁ h tf = .ok s' ∧
      (((s.cpus h).hartid = s.bootHartid ∧ threadsTick cfg (countTimer s h) h = .ok s₁) ∨
        ((s.cpus h).hartid ≠ s.bootHartid ∧ s₁ = countTimer s h)) := by
  have hid : ((countTimer s h).cpus h).hartid = (s.cpus h).hartid := by simp [countTimer]
  unfold schedOnTimerIrq at hs
  change (if ((countTimer s h).cpus h).hartid = s.bootHartid then
    threadsTick cfg (countTimer s h) h >>= fun s => sliceTick cfg s h tf
    else sliceTick cfg (countTimer s h) h tf) = .ok s' at hs
  rw [hid] at hs
  split at hs
  · rw [bind_eq_ok] at hs
    obtain ⟨s₁, htick, hs⟩ := hs
    exact ⟨s₁, hs, .inl ⟨‹_›, htick⟩⟩
  · exact ⟨_, hs, .inr ⟨‹_›, rfl⟩⟩

/-! ## Stdin -/

/-- The ring and memory after `console_read_nonblock`. -/
def drained (s : Kernel) (buf len : UInt64) : Kernel :=
  (consoleReadNonblock s buf len).2

theorem sysRead_cases {fd : Int} {buf len : UInt64} (hs : sysRead cfg s h tf fd buf len = .ok s') :
    (∃ v : UInt64, s' = s.setA0 tf v ∧ fd ≠ 0) ∨
    (fd = 0 ∧ 0 < (consoleReadNonblock s buf len).1 ∧
      s' = (drained s buf len).setA0 tf (UInt64.ofNat (consoleReadNonblock s buf len).1)) ∨
    (fd = 0 ∧ (consoleReadNonblock s buf len).1 = 0 ∧
      schedule cfg (blockCur (drained s buf len) h buf len) h tf = .ok s') := by
  unfold sysRead at hs
  dsimp only at hs
  split_ifs at hs with h1 h2
  · exact .inl ⟨_, (Except.ok.inj hs).symm, h1⟩
  · exact .inr (.inl ⟨by simpa using h1, h2, (Except.ok.inj hs).symm⟩)
  · exact .inr (.inr ⟨by simpa using h1, by omega, hs⟩)

/-- The read of the registered waiter is completed: bytes in its buffer, their number in `a0`. -/
def completeRead (s : Kernel) : Kernel :=
  let t := s.threads s.stdinWaiter
  let n := (consoleReadNonblock s t.pendingReadBuf t.pendingReadLen).1
  (drained s t.pendingReadBuf t.pendingReadLen).modThread s.stdinWaiter fun t =>
    (t.setA0 (UInt64.ofNat n)).setPendingRead 0 0

theorem threadReadFromStdin_cases (hs : threadReadFromStdin cfg s h = .ok s') :
    (((s.threads s.stdinWaiter).pendingReadBuf = 0 ∨ (s.threads s.stdinWaiter).pendingReadLen = 0) ∧
      threadWake cfg s h s.stdinWaiter = .ok s') ∨
    (((s.threads s.stdinWaiter).pendingReadBuf ≠ 0 ∧ (s.threads s.stdinWaiter).pendingReadLen ≠ 0) ∧
      ((consoleReadNonblock s (s.threads s.stdinWaiter).pendingReadBuf
          (s.threads s.stdinWaiter).pendingReadLen).1 = 0 ∧
        s' = drained s (s.threads s.stdinWaiter).pendingReadBuf
          (s.threads s.stdinWaiter).pendingReadLen ∨
      0 < (consoleReadNonblock s (s.threads s.stdinWaiter).pendingReadBuf
          (s.threads s.stdinWaiter).pendingReadLen).1 ∧
        threadWake cfg (completeRead s) h s.stdinWaiter = .ok s')) := by
  unfold threadReadFromStdin at hs
  dsimp only at hs
  split_ifs at hs with h1 h2
  · exact .inl ⟨h1, hs⟩
  · exact .inr ⟨not_or.mp h1, .inl ⟨h2, (Except.ok.inj hs).symm⟩⟩
  · exact .inr ⟨not_or.mp h1, .inr ⟨by omega, hs⟩⟩

theorem consoleOnCharFromIrq_cases {ch : UInt8} (hs : consoleOnCharFromIrq cfg s h ch = .ok s') :
    (s.stdinWaiter < 0 ∧ s' = { s with rx := s.rx.put ch }) ∨
    (0 ≤ s.stdinWaiter ∧ ∃ s₁,
      threadReadFromStdin cfg { s with rx := s.rx.put ch } h = .ok s₁ ∧
      s' = s₁.setStdinWaiter (-1)) := by
  unfold consoleOnCharFromIrq at hs
  dsimp only at hs
  split_ifs at hs with h1
  · exact .inl ⟨h1, (Except.ok.inj hs).symm⟩
  · simp only [bind_eq_ok] at hs
    obtain ⟨s₁, hread, hs⟩ := hs
    exact .inr ⟨by omega, s₁, hread, (Except.ok.inj hs).symm⟩

theorem threadWake_cases {t : Int} (hs : threadWake cfg s h t = .ok s') :
    (s' = s ∧ (t < 0 ∨ (cfg.threadMax : Int) ≤ t ∨ (s.threads t).state ≠ .blocked)) ∨
    (0 ≤ t ∧ t < cfg.threadMax ∧ (s.threads t).state = .blocked ∧
      threadMakeRunnable cfg s h t (cpuCurrentHartid s h) = .ok s') := by
  unfold threadWake at hs
  split_ifs at hs with h1 h2
  · exact .inl ⟨(Except.ok.inj hs).symm, by omega⟩
  · exact .inr ⟨by omega, by omega, h2, hs⟩
  · exact .inl ⟨(Except.ok.inj hs).symm, .inr (.inr h2)⟩

end Ccos
