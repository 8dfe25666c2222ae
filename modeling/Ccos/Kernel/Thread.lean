import Mathlib.Tactic
import Ccos.Kernel.RunQueue
import Ccos.Kernel.Console

/-!
# `thread.c`, `sched.c` and `cpu.c`

Every function takes the hart `h` it runs on; `cpu_this()` is `s.cpus h`.  A parameter `tf : Int`
stands for the pointer `&g_threads[tf].tf`.
-/

namespace Ccos

def schedSliceTicks : Nat := 5

/-- `THREAD_EXITCODE_SIGKILL` -/
def exitcodeSigkill : Int := -9

def threadStackSize : UInt64 := 4096

def sstatusSie : UInt64 := (1 : UInt64) <<< 1
def sstatusSpie : UInt64 := (1 : UInt64) <<< 5
def sstatusSpp : UInt64 := (1 : UInt64) <<< 8

variable (cfg : Config)

/-! ## Wake-ups -/

/-- The scan of `sched_pick_target_hart`: best hart, its queue length and whether it is online. -/
def schedPickStep (s : Kernel) (best : Nat × Nat × Bool) (h : Nat) : Nat × Nat × Bool :=
  if (s.cpus h).online then
    let len := rqLen cfg s.rq h
    if !best.2.2 || len < best.2.1 then (h, len, true) else best
  else best

def schedPickTargetHart (s : Kernel) (wakerHart : Nat) : Nat :=
  ((List.range cfg.maxHarts).foldl (schedPickStep cfg s)
    (wakerHart, rqLen cfg s.rq wakerHart, (s.cpus wakerHart).online)).1

/-- `sbi_send_ipi(1, h)` sets the pending bit of hart `h`. -/
def sbiSendIpi (s : Kernel) (h : Nat) : Kernel :=
  { s with ssip := fun k => if k = h then true else s.ssip k }

def smpKickHart (s : Kernel) (hartid : Nat) : Kernel :=
  if !s.smpBootDone then s
  else if cfg.maxHarts ≤ hartid then s
  else if !(s.cpus hartid).online then s
  else sbiSendIpi s hartid

/-- `cpu_current_hartid()` -/
def cpuCurrentHartid (s : Kernel) (h : Nat) : Nat :=
  (s.cpus h).hartid

@[simps]
def Thread.makeRunnable (t : Thread) : Thread :=
  { t with state := .runnable, wakeupTick := 0 }

def threadMakeRunnable (s : Kernel) (h : Nat) (tid : Int) (preferredHart : Nat) :
    Except Halt Kernel :=
  if tid < 0 ∨ (cfg.threadMax : Int) ≤ tid then .ok s
  -- an idle thread is in no queue
  else if tid < cfg.maxHarts then .ok s
  -- queued twice is ignored
  else if s.rq.onRq tid ∨ (s.threads tid).state = .running then .ok s
  else do
    let target := schedPickTargetHart cfg s preferredHart
    let s := s.modThread tid Thread.makeRunnable
    let rq ← rqPushTail cfg s.rq target tid
    let s := s.setRq rq
    if target = cpuCurrentHartid s h then
      .ok (s.modCpu h fun c => { c with needResched := true })
    else .ok (smpKickHart cfg s target)

/-! ## Internal helpers -/

@[simps]
def threadMarkRunning (t : Thread) (hartid : Nat) : Thread :=
  { t with
    runningHart := hartid
    runs := t.runs + 1
    migrations :=
      if 0 ≤ t.lastHart ∧ t.lastHart ≠ hartid then t.migrations + 1 else t.migrations }

@[simps]
def threadMarkNotRunning (t : Thread) : Thread :=
  { t with
    lastHart := if 0 ≤ t.runningHart then t.runningHart else t.lastHart
    runningHart := -1 }

/-- The first `UNUSED` slot from `1` on, or `-1`. -/
def allocThreadSlot (s : Kernel) : Int :=
  match (List.range' 1 (cfg.threadMax - 1)).find? fun i : Nat => (s.threads i).state = .unused with
  | some i => (i : Int)
  | none => -1

/-- The stack top of a slot, rounded down to 16 bytes. -/
def threadStackTop (stackBase : UInt64) : UInt64 :=
  (stackBase + threadStackSize) &&& ~~~(0xF : UInt64)

/-- `init_thread_context_s`; `sstatus` is the CSR read while the context is built. -/
@[simps]
def initThreadContextS (t : Thread) (entry arg sstatus : UInt64) : Thread :=
  { t with
    tf :=
      { sp := threadStackTop t.stackBase
        sepc := entry
        a0 := arg
        sstatus := (sstatus &&& ~~~(sstatusSpp ||| sstatusSie)) ||| sstatusSpp ||| sstatusSpie } }

@[simps]
def initThreadContextU (t : Thread) (entry arg sstatus : UInt64) : Thread :=
  { t with
    tf :=
      { sp := threadStackTop t.stackBase
        sepc := entry
        a0 := arg
        sstatus := (sstatus &&& ~~~(sstatusSpp ||| sstatusSie)) ||| sstatusSpie } }

/-- `g_thread_stacks[tid]` -/
def threadStack (tid : Int) : UInt64 :=
  cfg.threadStacks + threadStackSize * UInt64.ofInt tid

/-- The fields `recycle_thread` resets; the stack and the pending read stay. -/
@[simps]
def Thread.recycled (t : Thread) : Thread :=
  { t with
    state := .unused
    wakeupTick := 0
    name := some (.lit "unused")
    isUser := false
    canBeKilled := false
    detached := false
    exitCode := 0
    joinWaiter := -1
    waitingFor := -1
    joinStatusPtr := 0
    tf := {}
    runningHart := -1
    lastHart := -1
    migrations := 0
    runs := 0 }

def recycleThread (s : Kernel) (tid : Int) : Kernel :=
  if tid ≤ 0 ∨ (cfg.threadMax : Int) ≤ tid then s
  else
    let s := if s.stdinWaiter = tid then s.setStdinWaiter (-1) else s
    let s := s.modThread tid Thread.recycled
    s.setRq (s.rq.unlink tid)

/-! ## Creation -/

/-- The fields `thread_create_user` sets in the slot it found; a null `name` is `none`. -/
@[simps!]
def initUserThread (t : Thread) (stack entry arg : UInt64) (name : Option ThreadName)
    (sstatus : UInt64) : Thread :=
  initThreadContextU
    { t with
      state := .runnable
      wakeupTick := 0
      name := some (name.getD (.lit "uthread"))
      stackBase := stack
      isUser := true
      canBeKilled := true
      detached := false }
    entry arg sstatus

/-- The new tid (`-1` on failure) and the kernel. -/
def threadCreateUser (s : Kernel) (h : Nat) (entry arg : UInt64) (name : Option ThreadName)
    (sstatus : UInt64) : Except Halt (Int × Kernel) :=
  let tid := allocThreadSlot cfg s
  if tid < 0 then .ok (-1, s)
  else do
    let s := s.modThread tid fun t => initUserThread t (threadStack cfg tid) entry arg name sstatus
    let s ← threadMakeRunnable cfg s h tid (cpuCurrentHartid s h)
    .ok (tid, s)

/-! ## Scheduling -/

@[simps]
def Thread.clearWakeup (t : Thread) : Thread :=
  { t with wakeupTick := 0 }

/-- One iteration of the scan of `threads_tick`. -/
def threadsTickStep (h : Nat) (s : Kernel) (i : Nat) : Except Halt Kernel :=
  if (s.threads i).state = .sleeping ∧ (s.threads i).wakeupTick ≤ s.ticks then
    threadMakeRunnable cfg (s.modThread i Thread.clearWakeup) h i s.bootHartid
  else .ok s

def threadsTick (s : Kernel) (h : Nat) : Except Halt Kernel :=
  (List.range cfg.threadMax).foldlM (threadsTickStep cfg h) { s with ticks := s.ticks + 1 }

/-- `ASSERT(cond)`: a panic unless the build defines `NDEBUG`. -/
def assertOk (cond : Prop) [Decidable cond] (msg : String) : Except Halt Unit :=
  if cond ∨ cfg.ndebug then .ok () else .error (.panic msg)

/-- An assertion ends a debug build when it fails, a release build never. -/
theorem assertOk_eq_ok {cfg : Config} {cond : Prop} [Decidable cond] {msg : String} :
    assertOk cfg cond msg = .ok () ↔ cond ∨ cfg.ndebug := by
  unfold assertOk
  split_ifs with h
  · exact iff_of_true rfl h
  · exact iff_of_false nofun h

/-- First part of `schedule`: put the running thread back, clear `running_hart`, and reclaim a dead
thread whose joiner was released or that is detached. -/
def scheduleLeave (s : Kernel) (h : Nat) : Except Halt Kernel := do
  let c := s.cpus h
  let cur := c.currentTid
  let curIsIdle := cur = c.idleTid
  let s ←
    -- a thread that can go on is queued at the tail of its own hart
    if ¬ curIsIdle ∧ (s.threads cur).state = .running then do
      let s := s.modThread cur (Thread.setState · .runnable)
      let rq ← rqPushTail cfg s.rq c.hartid cur
      .ok (s.setRq rq)
    else .ok s
  let s := s.modThread cur threadMarkNotRunning
  -- idle is in no queue, but can run at any time
  let s := if curIsIdle then s.modThread cur (Thread.setState · .runnable) else s
  -- a dead thread is recycled here, when no hart executes it any more
  let t := s.threads cur
  if ¬ curIsIdle ∧ t.state = .zombie ∧
      ((0 ≤ t.joinWaiter ∧ t.joinWaiter < cfg.threadMax) ∨ t.detached) then
    .ok (recycleThread cfg s cur)
  else .ok s

/-- The `for (;;)` of `schedule`: pop until a `RUNNABLE` thread or the end of the queue.  Every pop
clears the popped link, so `THREAD_MAX + 1` pops empty any queue. -/
def schedulePick (threads : Int → Thread) (hartid : Nat) (idle : Int) :
    Nat → RunQueues → Except Halt (Int × RunQueues)
  | 0, _ => .error .spin
  | fuel + 1, r =>
    let (tid, r) := rqPopHead cfg r hartid
    if tid < 0 then .ok (idle, r)
    else if (threads tid).state = .runnable then .ok (tid, r)
    -- a stale node is dropped
    else schedulePick threads hartid idle fuel r

/-- Last part of `schedule`: make `next` current. -/
def scheduleEnter (s : Kernel) (h : Nat) (cur next : Int) : Kernel :=
  let hartid := (s.cpus h).hartid
  let s := s.modThread next fun t => threadMarkRunning (t.setState .running) hartid
  s.modCpu h fun c =>
    { c with
      currentTid := next
      sliceLeft := schedSliceTicks
      needResched := false
      ctxSwitches := if next ≠ cur then c.ctxSwitches + 1 else c.ctxSwitches
      curTf := .thread next }

def schedule (s : Kernel) (h : Nat) (tf : Int) : Except Halt Kernel := do
  let c := s.cpus h
  assertOk cfg (.thread tf = c.curTf) "ASSERT failed: tf == cpu_this()->cur_tf"
  let s ← scheduleLeave cfg s h
  let (next, rq) ← schedulePick cfg s.threads c.hartid c.idleTid (cfg.threadMax + 1) s.rq
  .ok (scheduleEnter (s.setRq rq) h c.currentTid next)

def threadBlock (s : Kernel) (h : Nat) (tf : Int) : Except Halt Kernel :=
  let cur := (s.cpus h).currentTid
  schedule cfg (s.modThread cur (Thread.setState · .blocked)) h tf

def threadWake (s : Kernel) (h : Nat) (tid : Int) : Except Halt Kernel :=
  if tid < 0 ∨ (cfg.threadMax : Int) ≤ tid then .ok s
  else if (s.threads tid).state = .blocked then
    threadMakeRunnable cfg s h tid (cpuCurrentHartid s h)
  else .ok s

/-! ## Thread syscalls -/

@[simps]
def Thread.sleepUntil (t : Thread) (tick : UInt64) : Thread :=
  { t with state := .sleeping, wakeupTick := tick }

def threadSysSleep (s : Kernel) (h : Nat) (tf : Int) (ticks : UInt64) : Except Halt Kernel :=
  let cur := (s.cpus h).currentTid
  -- `sleep(0)` is a yield: the state stays `RUNNING`
  if ticks = 0 then schedule cfg s h tf
  else
    let s := s.modThread cur (Thread.sleepUntil · (s.ticks + ticks))
    schedule cfg (s.setRq (s.rq.unlink cur)) h tf

def threadSysYield (s : Kernel) (h : Nat) (tf : Int) : Except Halt Kernel :=
  threadSysSleep cfg s h tf 0

def threadSysCreate (s : Kernel) (h : Nat) (tf : Int) (entry arg name sstatus : UInt64) :
    Except Halt Kernel := do
  let (tid, s) ← threadCreateUser cfg s h entry arg
    (if name = 0 then none else some (.user name)) sstatus
  .ok (s.setA0 tf (UInt64.ofInt tid))

/-- `*(int *)p = v` when `p` is not null. -/
def storeStatus (s : Kernel) (p : UInt64) (v : Int) : Kernel :=
  if p ≠ 0 then s.setMem (storeBytes s.mem p (intBytes v)) else s

@[simps]
def Thread.clearWait (t : Thread) : Thread :=
  { t with waitingFor := -1, joinStatusPtr := 0 }

/-- What `thread_sys_exit` and `thread_sys_kill` do to the joiner of a dead thread: store the exit
code, make its `join` return 0, clear its wait state and wake it. -/
def releaseJoiner (s : Kernel) (h : Nat) (joiner : Int) (exitCode : Int) : Except Halt Kernel :=
  let s := storeStatus s (s.threads joiner).joinStatusPtr exitCode
  let s := s.setA0 joiner 0
  let s := s.modThread joiner Thread.clearWait
  threadMakeRunnable cfg s h joiner (cpuCurrentHartid s h)

@[simps]
def Thread.exit (t : Thread) (frame : Trapframe) (exitCode : Int) : Thread :=
  { t with tf := frame, exitCode := exitCode, state := .zombie }

def threadSysExit (s : Kernel) (h : Nat) (tf : Int) (exitCode : Int) : Except Halt Kernel := do
  let cur := (s.cpus h).currentTid
  let joiner := (s.threads cur).joinWaiter
  let frame := (s.threads tf).tf
  let s := s.modThread cur (Thread.exit · frame exitCode)
  let s := s.setRq (s.rq.unlink cur)
  let s ←
    if 0 ≤ joiner ∧ joiner < cfg.threadMax then do
      let s ← releaseJoiner cfg s h joiner exitCode
      .ok (recycleThread cfg s cur)
    else .ok s
  -- also in a slot recycled just now, whose waiter is -1 already
  let s := s.modThread cur (Thread.setJoinWaiter · (-1))
  schedule cfg s h tf

@[simps]
def Thread.waitFor (t : Thread) (targetTid : Int) (statusPtr : UInt64) : Thread :=
  { t with state := .waiting, waitingFor := targetTid, joinStatusPtr := statusPtr }

def threadSysJoin (s : Kernel) (h : Nat) (tf : Int) (targetTid : Int) (statusPtr : UInt64) :
    Except Halt Kernel :=
  let cur := (s.cpus h).currentTid
  let t := s.threads targetTid
  -- EINVAL, EDEADLK, ESRCH, and EINVAL for a detached thread
  if targetTid ≤ 0 ∨ (cfg.threadMax : Int) ≤ targetTid then .ok (s.setA0 tf (UInt64.ofInt (-1)))
  else if targetTid = cur then .ok (s.setA0 tf (UInt64.ofInt (-2)))
  else if t.state = .unused then .ok (s.setA0 tf (UInt64.ofInt (-3)))
  else if t.detached then .ok (s.setA0 tf (UInt64.ofInt (-5)))
  else if t.state = .zombie then
    -- EBUSY: another thread is joining it, dead or not
    if 0 ≤ t.joinWaiter ∧ t.joinWaiter ≠ cur then .ok (s.setA0 tf (UInt64.ofInt (-4)))
    else
      let s := storeStatus s statusPtr t.exitCode
      .ok ((recycleThread cfg s targetTid).setA0 tf 0)
  else if 0 ≤ t.joinWaiter ∧ t.joinWaiter ≠ cur then .ok (s.setA0 tf (UInt64.ofInt (-4)))
  else
    -- the target runs; `a0` is written when it ends
    let s := s.modThread cur (Thread.waitFor · targetTid statusPtr)
    let s := s.modThread targetTid (Thread.setJoinWaiter · cur)
    schedule cfg s h tf

/-- Kick or mark the hart that still executes the victim of a kill. -/
def kickVictim (s : Kernel) (h : Nat) (targetTid : Int) : Kernel :=
  let rh := (s.threads targetTid).runningHart
  if 0 ≤ rh ∧ rh < cfg.maxHarts then
    -- the victim is current on that hart until it schedules
    if rh.toNat ≠ cpuCurrentHartid s h then smpKickHart cfg s rh.toNat
    else s.modCpu h fun c => { c with needResched := true }
  else s

@[simps]
def Thread.kill (t : Thread) : Thread :=
  { t with exitCode := exitcodeSigkill, state := .zombie, wakeupTick := 0 }

/-- The victim of a kill leaves its run queue. -/
def killUnqueue (s : Kernel) (targetTid : Int) : Except Halt Kernel :=
  if s.rq.onRq targetTid then do
    let (_, rq) ← rqRemoveAny cfg s.rq targetTid
    .ok (s.setRq rq)
  else .ok s

/-- The joiner of a killed thread is released; the slot is reclaimed unless a hart still executes
the victim or its queue still holds it. -/
def killRelease (s : Kernel) (h : Nat) (targetTid joiner : Int) : Except Halt Kernel := do
  let s ←
    if 0 ≤ joiner ∧ joiner < cfg.threadMax then do
      let s ← releaseJoiner cfg s h joiner (s.threads targetTid).exitCode
      -- otherwise the recorded joiner makes `schedule` recycle the slot later
      if (s.threads targetTid).runningHart < 0 ∧ ¬ s.rq.onRq targetTid then
        .ok (recycleThread cfg s targetTid)
      else .ok (s.modThread targetTid (Thread.setJoinWaiter · joiner))
    else .ok s
  let s := if joiner < 0 then s.modThread targetTid (Thread.setJoinWaiter · (-1)) else s
  let t := s.threads targetTid
  if joiner < 0 ∧ t.detached ∧ t.runningHart < 0 ∧ ¬ s.rq.onRq targetTid then
    .ok (recycleThread cfg s targetTid)
  else .ok s

/-- The part of `thread_sys_kill` after its checks. -/
def killThread (s : Kernel) (h : Nat) (tf : Int) (targetTid : Int) : Except Halt Kernel := do
  let joiner := (s.threads targetTid).joinWaiter
  let s ← killUnqueue cfg (s.modThread targetTid Thread.kill) targetTid
  let s ← killRelease cfg (kickVictim cfg s h targetTid) h targetTid joiner
  .ok (s.setA0 tf 0)

def threadSysKill (s : Kernel) (h : Nat) (tf : Int) (targetTid : Int) : Except Halt Kernel :=
  let cur := (s.cpus h).currentTid
  let t := s.threads targetTid
  if targetTid < 0 ∨ (cfg.threadMax : Int) ≤ targetTid then .ok (s.setA0 tf (UInt64.ofInt (-1)))
  else if targetTid = 0 then .ok (s.setA0 tf (UInt64.ofInt (-2)))
  else if targetTid = cur then .ok (s.setA0 tf (UInt64.ofInt (-4)))
  else if ¬ t.canBeKilled then .ok (s.setA0 tf (UInt64.ofInt (-3)))
  else if t.state = .unused then .ok (s.setA0 tf (UInt64.ofInt (-3)))
  -- a second kill succeeds and changes nothing
  else if t.state = .zombie then .ok (s.setA0 tf 0)
  else killThread cfg s h tf targetTid

@[simps]
def Thread.detach (t : Thread) : Thread :=
  { t with detached := true }

def threadSysDetach (s : Kernel) (tf : Int) (targetTid : Int) : Kernel :=
  let t := s.threads targetTid
  if targetTid ≤ 0 ∨ (cfg.threadMax : Int) ≤ targetTid then s.setA0 tf (UInt64.ofInt (-1))
  else if t.state = .unused then s.setA0 tf (UInt64.ofInt (-3))
  else if targetTid < cfg.maxHarts then s.setA0 tf (UInt64.ofInt (-2))
  -- a thread somebody waits for cannot be detached; twice is once
  else if 0 ≤ t.joinWaiter then s.setA0 tf (UInt64.ofInt (-4))
  else if t.detached then s.setA0 tf 0
  else
    let s := s.modThread targetTid Thread.detach
    let s := if t.state = .zombie then recycleThread cfg s targetTid else s
    s.setA0 tf 0

/-! ## Blocking reads -/

@[simps]
def Thread.setPendingRead (t : Thread) (buf len : UInt64) : Thread :=
  { t with pendingReadBuf := buf, pendingReadLen := len }

def threadWaitForStdin (s : Kernel) (h : Nat) (tf : Int) (buf len : UInt64) :
    Except Halt Kernel :=
  let cur := (s.cpus h).currentTid
  let s := s.modThread cur (Thread.setPendingRead · buf len)
  threadBlock cfg (s.setStdinWaiter (s.threads cur).id) h tf

/-- `thread_read_from_stdin(console_read_nonblock)` -/
def threadReadFromStdin (s : Kernel) (h : Nat) : Except Halt Kernel :=
  let w := s.stdinWaiter
  let t := s.threads w
  -- nothing to copy: the waiter is woken with its `a0` unwritten
  if t.pendingReadBuf = 0 ∨ t.pendingReadLen = 0 then threadWake cfg s h w
  else
    let (n, s) := consoleReadNonblock s t.pendingReadBuf t.pendingReadLen
    if n = 0 then .ok s
    else
      let s := s.modThread w fun t => (t.setA0 (UInt64.ofNat n)).setPendingRead 0 0
      threadWake cfg s h w

/-- `console_on_char_from_irq` -/
def consoleOnCharFromIrq (s : Kernel) (h : Nat) (ch : UInt8) : Except Halt Kernel := do
  let s := { s with rx := s.rx.put ch }
  if s.stdinWaiter < 0 then .ok s
  else do
    let s ← threadReadFromStdin cfg s h
    .ok (s.setStdinWaiter (-1))

end Ccos
