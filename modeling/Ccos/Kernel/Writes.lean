import Mathlib.Tactic
import Ccos.Kernel.Acts

/-!
# The writes of a trap

Every handler is a sequence of small writes to the thread table and to user memory, each with the
reason the handler has for it.  What no write changes, no trap changes.
-/

namespace Ccos

open Reasoning Relation

variable {cfg : Config} {s₀ s s' s'' : Kernel} {h : Nat} {a : Action}

/-- The thread has been created and has not ended. -/
def Thread.Alive (x : Thread) : Prop :=
  x.state ≠ .unused ∧ x.state ≠ .zombie

/-- The buffers that the system call a thread is blocked in will fill. -/
def SameBuffers (x y : Thread) : Prop :=
  y.joinStatusPtr = x.joinStatusPtr ∧ y.pendingReadBuf = x.pendingReadBuf ∧
    y.pendingReadLen = x.pendingReadLen

/-- What a thread will see when it runs again: its registers and its buffers. -/
def SameUser (x y : Thread) : Prop :=
  y.tf = x.tf ∧ SameBuffers x y ∧ (x.Alive → y.Alive)

theorem SameUser.of_state {x y : Thread} (htf : y.tf = x.tf) (hb : SameBuffers x y)
    (hs : y.state = x.state) : SameUser x y := by
  refine ⟨htf, hb, fun ha => ?_⟩
  unfold Thread.Alive at ha ⊢
  rw [hs]
  exact ha

/-- One write of the trap that hart `h` takes in `s₀` to do `a`. -/
inductive Write (cfg : Config) (s₀ : Kernel) (h : Nat) (a : Action) : Kernel → Kernel → Prop
  /-- queues, harts, clock, console ring, irq statistics -/
  | other {s s' : Kernel} (hth : s'.threads = s.threads) (hm : s'.mem = s.mem)
      (hreg : s'.stdinWaiter = s.stdinWaiter ∨ s'.stdinWaiter = -1 ∨
        ∃ buf len, a = .read 0 buf len) :
      Write cfg s₀ h a s s'
  /-- scheduling data of a thread -/
  | thread (s : Kernel) (t : Int) (f : Thread → Thread)
      (hf : SameUser (s.threads t) (f (s.threads t))) : Write cfg s₀ h a s (s.modThread t f)
  /-- the return value of a system call, the caller's or that of a joiner it releases -/
  | setA0 (s : Kernel) (t : Int) (v : UInt64) (ha : a.isSyscall = true) :
      Write cfg s₀ h a s (s.setA0 t v)
  | clearWait (s : Kernel) (w : Int) : Write cfg s₀ h a s (s.modThread w Thread.clearWait)
  | die (s : Kernel) (t : Int) (f : Thread → Thread) (ht : terminated cfg s₀ h a = some t)
      (hf : (f (s.threads t)).tf = (s.threads t).tf ∧
        SameBuffers (s.threads t) (f (s.threads t))) :
      Write cfg s₀ h a s (s.modThread t f)
  | recycle (s : Kernel) (t : Int) (hz : (s.threads t).state = .zombie) :
      Write cfg s₀ h a s (s.modThread t Thread.recycled)
  | create (s : Kernel) (t : Int) (stack entry arg : UInt64) (name : Option ThreadName)
      (sstatus : UInt64) (hu : (s.threads t).state = .unused) :
      Write cfg s₀ h a s (s.modThread t fun x => initUserThread x stack entry arg name sstatus)
  /-- a join that blocks remembers where its status goes -/
  | wait (s : Kernel) (t : Int) (p : UInt64) (ha : a = .join t p) :
      Write cfg s₀ h a s (s.modThread (s₀.cpus h).currentTid (Thread.waitFor · t p))
  /-- a read that blocks remembers its buffer -/
  | pend (s : Kernel) (buf len : UInt64) (ha : a = .read 0 buf len) :
      Write cfg s₀ h a s
        (s.modThread (s₀.cpus h).currentTid fun t => (t.setPendingRead buf len).setState .blocked)
  /-- a join that finds its target dead -/
  | status (s : Kernel) (t : Int) (p : UInt64) (v : Int) (ha : a = .join t p) :
      Write cfg s₀ h a s (storeStatus s p v)
  /-- the end of a thread somebody waits for -/
  | deliver (s : Kernel) (w v : Int) :
      Write cfg s₀ h a s (storeStatus s (s.threads w).joinStatusPtr v)
  | take (s : Kernel) (buf len : UInt64) (ha : a = .read 0 buf len) :
      Write cfg s₀ h a s (drained s buf len)
  /-- received characters go to the reader that waits for them -/
  | feed (s : Kernel) :
      Write cfg s₀ h a s (drained s (s.threads s.stdinWaiter).pendingReadBuf
        (s.threads s.stdinWaiter).pendingReadLen)
  | served (s : Kernel) (v : UInt64) (claims : List PlicClaim) (ha : a = .external claims) :
      Write cfg s₀ h a s
        (s.modThread s.stdinWaiter fun t => (t.setA0 v).setPendingRead 0 0)
  | query (s : Kernel) (call : Syscall) (io : TrapInput) (ha : a = .query call io) :
      Write cfg s₀ h a s (runQuery cfg s h io call).2

/-- The writes of a trap one after the other. -/
abbrev Writes (cfg : Config) (s₀ : Kernel) (h : Nat) (a : Action) : Kernel → Kernel → Prop :=
  ReflTransGen (Write cfg s₀ h a)

namespace Writes

theorem one (hw : Write cfg s₀ h a s s') : Writes cfg s₀ h a s s' :=
  .single hw

/-- A write to the scheduling data of a thread that leaves its life as it is. -/
theorem thread {t : Int} {f : Thread → Thread} (hf : SameUser (s.threads t) (f (s.threads t))) :
    Writes cfg s₀ h a s (s.modThread t f) :=
  one (.thread s t f hf)

theorem other (hth : s'.threads = s.threads) (hm : s'.mem = s.mem)
    (hreg : s'.stdinWaiter = s.stdinWaiter) : Writes cfg s₀ h a s s' :=
  one (.other hth hm (.inl hreg))

/-! ## Parts of the handlers -/

theorem setState (t : Int) {st : ThreadState} (h1 : st ≠ .unused) (h2 : st ≠ .zombie) :
    Writes cfg s₀ h a s (s.modThread t (Thread.setState · st)) :=
  thread ⟨rfl, ⟨rfl, rfl, rfl⟩, fun _ => ⟨h1, h2⟩⟩

theorem setJoinWaiter (t w : Int) :
    Writes cfg s₀ h a s (s.modThread t (Thread.setJoinWaiter · w)) :=
  thread (.of_state rfl ⟨rfl, rfl, rfl⟩ rfl)

theorem makeRunnable {t : Int} {p : Nat} (hs : threadMakeRunnable cfg s h t p = .ok s') :
    Writes cfg s₀ h a s s' := by
  rcases threadMakeRunnable_cases hs with ⟨rfl, -⟩ | ⟨rq, hw⟩
  · exact .refl
  · have hrun : Writes cfg s₀ h a s (s.modThread t Thread.makeRunnable) :=
      thread ⟨rfl, ⟨rfl, rfl, rfl⟩, fun _ => ⟨by simp, by simp⟩⟩
    refine hrun.trans (other ?_ ?_ ?_)
    · rw [hw.eq, notifyHart_threads]
      rfl
    · exact hw.schedOnly.mem
    · exact hw.schedOnly.stdinWaiter

theorem recycle {t : Int} (hz : (s.threads t).state = .zombie) :
    Writes cfg s₀ h a s (recycleThread cfg s t) := by
  unfold recycleThread
  split
  · exact .refl
  · dsimp only
    split
    · have hw : Writes cfg s₀ h a s (s.setStdinWaiter (-1)) :=
        one (.other rfl rfl (.inr (.inl rfl)))
      exact (hw.tail (.recycle _ t hz)).trans (other rfl rfl rfl)
    · exact (one (.recycle s t hz)).trans (other rfl rfl rfl)

theorem recycleIf {c : Prop} [Decidable c] {t : Int} (hc : c → (s.threads t).state = .zombie)
    (hs : (if c then Except.ok (recycleThread cfg s t) else Except.ok s) =
      (Except.ok s' : Except Halt Kernel)) : Writes cfg s₀ h a s s' := by
  split at hs
  · rename_i hyes
    cases hs
    exact recycle (hc hyes)
  · cases hs
    exact .refl

theorem deliver (w code : Int) (ha : a.isSyscall = true) :
    Writes cfg s₀ h a s (deliver s w code) :=
  ((one (.deliver s w code)).tail (.setA0 _ w 0 ha)).tail (.clearWait _ w)

theorem returns (cur : Int) (v : UInt64) (ha : a.isSyscall = true) :
    Writes cfg s₀ h a s (s.setA0 cur v) :=
  one (.setA0 s cur v ha)

/-- The first part of `schedule`. -/
theorem scheduleLeave (hs : scheduleLeave cfg s h = .ok s') : Writes cfg s₀ h a s s' := by
  have hmark : ∀ s₁ : Kernel, Writes cfg s₀ h a s₁
      (if (s.cpus h).currentTid = (s.cpus h).idleTid then
        (s₁.modThread (s.cpus h).currentTid threadMarkNotRunning).modThread
          (s.cpus h).currentTid (Thread.setState · .runnable)
      else s₁.modThread (s.cpus h).currentTid threadMarkNotRunning) := by
    intro s₁
    have hnot : Writes cfg s₀ h a s₁
        (s₁.modThread (s.cpus h).currentTid threadMarkNotRunning) :=
      thread (.of_state rfl ⟨rfl, rfl, rfl⟩ rfl)
    split
    · exact hnot.trans (setState _ nofun nofun)
    · exact hnot
  unfold Ccos.scheduleLeave at hs
  dsimp only at hs
  split at hs
  · simp only [bind_eq_ok] at hs
    obtain ⟨rq, -, s₁, hput, hs⟩ := hs
    cases hput
    have hstate : Writes cfg s₀ h a s
        (s.modThread (s.cpus h).currentTid (Thread.setState · .runnable)) :=
      setState _ nofun nofun
    have hput : Writes cfg s₀ h a s
        ((s.modThread (s.cpus h).currentTid (Thread.setState · .runnable)).setRq rq) :=
      hstate.trans (other rfl rfl rfl)
    exact (hput.trans (hmark _)).trans (recycleIf (fun hz => hz.2.1) hs)
  · simp only [ok_bind] at hs
    exact (hmark s).trans (recycleIf (fun hz => hz.2.1) hs)

theorem schedule {tf : Int} (hs : schedule cfg s h tf = .ok s') : Writes cfg s₀ h a s s' := by
  unfold Ccos.schedule at hs
  simp only [bind_eq_ok] at hs
  obtain ⟨-, -, s₁, hleave, ⟨next, rq⟩, -, hs⟩ := hs
  cases hs
  have hpick : Writes cfg s₀ h a s₁ (s₁.setRq rq) := other rfl rfl rfl
  have hrun : Writes cfg s₀ h a (s₁.setRq rq) ((s₁.setRq rq).modThread next fun t =>
      threadMarkRunning (t.setState .running) ((s₁.setRq rq).cpus h).hartid) :=
    thread ⟨rfl, ⟨rfl, rfl, rfl⟩, fun _ => ⟨by simp, by simp⟩⟩
  exact (((scheduleLeave hleave).trans hpick).trans hrun).trans (other rfl rfl rfl)

/-! ## System calls -/

section Calls

variable {cur : Int}

theorem sleep {ticks : UInt64} (hs : threadSysSleep cfg s h cur ticks = .ok s') :
    Writes cfg s₀ h a s s' := by
  rcases threadSysSleep_cases hs with ⟨-, hsch⟩ | ⟨-, hsch⟩
  · exact schedule hsch
  · have hsleep : Writes cfg s₀ h a s
        (s.modThread (s.cpus h).currentTid (Thread.sleepUntil · (s.ticks + ticks))) :=
      thread ⟨rfl, ⟨rfl, rfl, rfl⟩, fun _ => ⟨by simp, by simp⟩⟩
    have hoff : Writes cfg s₀ h a s (sleepCur s h ticks) := hsleep.trans (other rfl rfl rfl)
    exact hoff.trans (schedule hsch)

/-- The slot of a thread that has just ended is still a zombie's after its joiner was released. -/
theorem zombie_kept {t w code : Int} {p : Nat} (hz : (s.threads t).state = .zombie) (hne : t ≠ w)
    (hs : threadMakeRunnable cfg (Ccos.deliver s w code) h w p = .ok s') :
    (s'.threads t).state = .zombie := by
  rw [threadMakeRunnable_threads hs hne, (deliver_state w code t).1]
  exact hz

theorem exit {code : Int} (ha : a = .exit code)
    (hcur : (s.cpus h).currentTid = (s₀.cpus h).currentTid) (htf : cur = (s.cpus h).currentTid)
    (hself : (s.threads cur).joinWaiter ≠ cur) (hs : threadSysExit cfg s h cur code = .ok s') :
    Writes cfg s₀ h a s s' := by
  obtain ⟨s₁, hrel, hsch⟩ := threadSysExit_cases hs
  have hterm : terminated cfg s₀ h a = some (s.cpus h).currentTid := by
    rw [ha, hcur]
    rfl
  have hdie : Writes cfg s₀ h a s (exitCur s h cur code) := by
    refine (one (.die s _ (Thread.exit · (s.threads cur).tf code) hterm ?_)).trans
      (other rfl rfl rfl)
    rw [htf]
    exact ⟨rfl, rfl, rfl, rfl⟩
  have hrel' : Writes cfg s₀ h a s s₁ := by
    rcases hrel with ⟨-, -, s₂, hmake, rfl⟩ | ⟨-, rfl⟩
    · have hzombie : ((exitCur s h cur code).threads (s.cpus h).currentTid).state = .zombie := by
        simp [exitCur]
      rw [htf] at hself
      have hz := zombie_kept hzombie (Ne.symm hself) hmake
      have hwake := (hdie.trans (deliver _ code (by rw [ha]; rfl))).trans (makeRunnable hmake)
      exact hwake.trans (recycle hz)
    · exact hdie
  exact (hrel'.trans (setJoinWaiter _ _)).trans (schedule hsch)

theorem join {t : Int} {p : UInt64} (ha : a = .join t p)
    (hcur : (s.cpus h).currentTid = (s₀.cpus h).currentTid)
    (hs : threadSysJoin cfg s h cur t p = .ok s') : Writes cfg s₀ h a s s' := by
  have hcall : a.isSyscall = true := by rw [ha]; rfl
  rcases threadSysJoin_cases hs with ⟨-, v, -, rfl⟩ | ⟨-, hz, rfl⟩ | ⟨-, -, hsch⟩
  · exact returns cur v hcall
  · have hstore : Writes cfg s₀ h a s (storeStatus s p (s.threads t).exitCode) :=
      one (.status s t p _ ha)
    have hz' : ((storeStatus s p (s.threads t).exitCode).threads t).state = .zombie := by
      unfold storeStatus
      split <;> exact hz
    exact (hstore.trans (recycle hz')).trans (returns cur 0 hcall)
  · have hwait : Writes cfg s₀ h a s
        (s.modThread (s.cpus h).currentTid (Thread.waitFor · t p)) := by
      rw [hcur]
      exact one (.wait s t p ha)
    have hboth : Writes cfg s₀ h a s (waitCur s h t p) := hwait.trans (setJoinWaiter _ _)
    exact hboth.trans (schedule hsch)

theorem create {entry arg name sstatus : UInt64} (ha : a = .create entry arg name sstatus)
    (hs : threadSysCreate cfg s h cur entry arg name sstatus = .ok s') :
    Writes cfg s₀ h a s s' := by
  obtain ⟨tid, s₁, hcreate, rfl⟩ := threadSysCreate_cases hs
  have hmade : Writes cfg s₀ h a s s₁ := by
    rcases threadCreateUser_cases hcreate with ⟨-, rfl⟩ | ⟨-, -, hu, hmake⟩
    · exact .refl
    · exact (one (.create s tid _ entry arg _ sstatus hu)).trans (makeRunnable hmake)
  exact hmade.trans (returns cur _ (by rw [ha]; rfl))

theorem kill {t : Int} (ha : a = .kill t) (hhits : KillHits cfg s h t → KillHits cfg s₀ h t)
    (hself : 0 ≤ t → (s.threads t).joinWaiter ≠ t)
    (hs : threadSysKill cfg s h cur t = .ok s') : Writes cfg s₀ h a s s' := by
  have hcall : a.isSyscall = true := by rw [ha]; rfl
  rcases threadSysKill_cases hs with ⟨-, v, rfl⟩ | ⟨hhit, hkill⟩
  · exact returns cur v hcall
  have hself' := hself (Int.le_of_lt hhit.1)
  obtain ⟨rq, s₁, -, hrel, rfl⟩ := killThread_cases hkill
  have hterm : terminated cfg s₀ h a = some t := by
    rw [ha]
    exact if_pos (hhits hhit)
  have hdie : Writes cfg s₀ h a s (s.modThread t Thread.kill) :=
    one (.die s t Thread.kill hterm ⟨rfl, rfl, rfl, rfl⟩)
  have hdead : Writes cfg s₀ h a s (killed cfg s h t rq) := by
    refine hdie.trans (other ?_ ?_ ?_)
    · exact kickVictim_threads t
    · exact (kickVictim_schedOnly t).mem
    · exact (kickVictim_schedOnly t).stdinWaiter
  have hz : ((killed cfg s h t rq).threads t).state = .zombie := by
    rw [killed, kickVictim_threads]
    simp
  have hrel' : Writes cfg s₀ h a (killed cfg s h t rq) s₁ := by
    rcases hrel with ⟨-, -, s₂, hmake, rfl⟩ | ⟨-, rfl⟩ | ⟨-, rfl⟩
    · have hwake : Writes cfg s₀ h a (killed cfg s h t rq) s₂ :=
        (deliver _ _ hcall).trans (makeRunnable hmake)
      split
      · exact hwake.trans (recycle (zombie_kept hz (Ne.symm hself') hmake))
      · exact hwake.trans (setJoinWaiter _ _)
    · have hclear : Writes cfg s₀ h a (killed cfg s h t rq) _ := setJoinWaiter t (-1)
      split
      · refine hclear.trans (recycle ?_)
        simpa using hz
      · exact hclear
    · exact .refl
  exact (hdead.trans hrel').trans (returns cur 0 hcall)

theorem detach {t : Int} (ha : a = .detach t) :
    Writes cfg s₀ h a s (threadSysDetach cfg s cur t) := by
  have hcall : a.isSyscall = true := by rw [ha]; rfl
  rcases threadSysDetach_cases (rfl : threadSysDetach cfg s cur t = _) with ⟨-, v, hv⟩ | ⟨-, hd⟩
  · rw [hv]
    exact returns cur v hcall
  · rw [hd]
    have hmark : Writes cfg s₀ h a s (s.modThread t Thread.detach) :=
      thread (.of_state rfl ⟨rfl, rfl, rfl⟩ rfl)
    split
    · rename_i hz
      have hz' : ((s.modThread t Thread.detach).threads t).state = .zombie := by
        simpa using hz
      exact (hmark.trans (recycle hz')).trans (returns cur 0 hcall)
    · exact hmark.trans (returns cur 0 hcall)

theorem read {fd : Int} {buf len : UInt64} (ha : a = .read fd buf len)
    (hcur : (s.cpus h).currentTid = (s₀.cpus h).currentTid)
    (hs : sysRead cfg s h cur fd buf len = .ok s') : Writes cfg s₀ h a s s' := by
  have hcall : a.isSyscall = true := by rw [ha]; rfl
  rcases sysRead_cases hs with ⟨v, rfl, -⟩ | ⟨rfl, -, rfl⟩ | ⟨rfl, -, hsch⟩
  · exact returns cur v hcall
  · exact (one (.take s buf len ha)).trans (returns cur _ hcall)
  · have hcur' : ((drained s buf len).cpus h).currentTid = (s₀.cpus h).currentTid := hcur
    have hpend : Writes cfg s₀ h a (drained s buf len)
        (blockCur (drained s buf len) h buf len) := by
      refine (one (.pend _ buf len ha)).tail (.other ?_ rfl (.inr (.inr ⟨buf, len, ha⟩)))
      unfold blockCur
      rw [hcur']
      funext u
      by_cases hu : u = (s₀.cpus h).currentTid <;> simp [hu]
    exact ((one (.take s buf len ha)).trans hpend).trans (schedule hsch)

end Calls

/-! ## Interrupts -/

theorem threadsTick (hs : threadsTick cfg s h = .ok s') : Writes cfg s₀ h a s s' := by
  have hclock : Writes cfg s₀ h a s { s with ticks := s.ticks + 1 } := other rfl rfl rfl
  refine hclock.trans (foldlM_keeps (Writes cfg s₀ h a { s with ticks := s.ticks + 1 }) ?_ .refl hs)
  intro i _ s₁ s₂ hk hstep
  unfold threadsTickStep at hstep
  split at hstep
  · have hclear : Writes cfg s₀ h a s₁ (s₁.modThread i Thread.clearWakeup) :=
      thread (.of_state rfl ⟨rfl, rfl, rfl⟩ rfl)
    exact hk.trans (hclear.trans (makeRunnable hstep))
  · cases hstep
    exact hk

theorem timer {cur : Int} (hs : schedOnTimerIrq cfg s h cur = .ok s') :
    Writes cfg s₀ h a s s' := by
  obtain ⟨s₁, hslice, htick⟩ := schedOnTimerIrq_cases hs
  have hcount : Writes cfg s₀ h a s (countTimer s h) := other rfl rfl rfl
  have hmid : Writes cfg s₀ h a s s₁ := by
    rcases htick with ⟨-, htick⟩ | ⟨-, rfl⟩
    · exact hcount.trans (threadsTick htick)
    · exact hcount
  rcases sliceTick_cases hslice with ⟨-, hsch⟩ | ⟨-, rfl⟩
  · have hreset : Writes cfg s₀ h a s₁ (resetSlice (useTick s₁ h) h) := other rfl rfl rfl
    exact (hmid.trans hreset).trans (schedule hsch)
  · exact hmid.trans (other rfl rfl rfl)

theorem ipi {cur : Int} (hs : schedOnIpiIrq cfg s h cur = .ok s') : Writes cfg s₀ h a s s' := by
  have hclear : Writes cfg s₀ h a s (Kernel.modCpu
      { s with ssip := fun k => if k = h then false else s.ssip k } h
      fun c => { c with needResched := false }) := other rfl rfl rfl
  exact hclear.trans (schedule hs)

theorem wake {t : Int} (hs : threadWake cfg s h t = .ok s') : Writes cfg s₀ h a s s' := by
  rcases threadWake_cases hs with ⟨rfl, -⟩ | ⟨-, -, -, hmake⟩
  · exact .refl
  · exact makeRunnable hmake

theorem readFromStdin {claims : List PlicClaim} (ha : a = .external claims)
    (hs : threadReadFromStdin cfg s h = .ok s') : Writes cfg s₀ h a s s' := by
  rcases threadReadFromStdin_cases hs with ⟨-, hwake⟩ | ⟨-, ⟨-, rfl⟩ | ⟨-, hwake⟩⟩
  · exact wake hwake
  · exact one (.feed s)
  · have hdone : Writes cfg s₀ h a s (completeRead s) :=
      (one (.feed s)).tail (.served (drained s _ _) _ claims ha)
    exact hdone.trans (wake hwake)

theorem char {claims : List PlicClaim} {ch : UInt8} (ha : a = .external claims)
    (hs : consoleOnCharFromIrq cfg s h ch = .ok s') :
    Writes cfg s₀ h a s s' := by
  have hput : Writes cfg s₀ h a s { s with rx := s.rx.put ch } := other rfl rfl rfl
  rcases consoleOnCharFromIrq_cases hs with ⟨-, rfl⟩ | ⟨-, s₁, hread, rfl⟩
  · exact hput
  · have hfed : Writes cfg s₀ h a s s₁ := hput.trans (readFromStdin ha hread)
    exact hfed.tail (.other rfl rfl (.inr (.inl rfl)))

theorem external {claims : List PlicClaim} (ha : a = .external claims)
    (hs : platformHandleSExternal cfg s h claims = .ok s') :
    Writes cfg s₀ h a s s' := by
  obtain ⟨s₁, ops, irqs, hfeed, rfl, -⟩ := platformHandleSExternal_cases hs
  have hchars : Writes cfg s₀ h a s s₁ :=
    foldlM_keeps (Writes cfg s₀ h a s) (fun ch _ _ _ hk hstep => hk.trans (char ha hstep)) .refl
      hfeed
  exact hchars.trans (other rfl rfl rfl)

end Writes

/-- Every action is a sequence of writes; `s₀` is the kernel before the registers were saved. -/
theorem runAction_writes {cur : Int} (hcur : cur = (s.cpus h).currentTid)
    (hsame : s.cpus = s₀.cpus) (hhits : ∀ t, KillHits cfg s h t → KillHits cfg s₀ h t)
    (hself : ∀ t : Int, 0 ≤ t → (s.threads t).joinWaiter ≠ t)
    (hpos : a.isSyscall = true → 0 ≤ cur) (hs : runAction cfg s h cur a = .ok s') :
    Writes cfg s₀ h a s s' := by
  have hc : (s.cpus h).currentTid = (s₀.cpus h).currentTid := by rw [hsame]
  cases a with
  | ipi => exact .ipi hs
  | timer => exact .timer hs
  | external claims => exact .external rfl hs
  | sleep ticks => exact .sleep hs
  | exit code => exact .exit rfl hc hcur (hself cur (hpos rfl)) hs
  | join t p => exact .join rfl hc hs
  | create entry arg name sstatus => exact .create rfl hs
  | kill t => exact .kill rfl (hhits t) (hself t) hs
  | detach t =>
    cases hs
    exact .detach rfl
  | read fd buf len => exact .read rfl hc hs
  | query call io =>
    cases hs
    exact (Writes.one (.query s call io rfl)).trans (Writes.returns cur _ rfl)
  | skip =>
    cases hs
    exact .refl
  | halt msg => cases hs

end Ccos
