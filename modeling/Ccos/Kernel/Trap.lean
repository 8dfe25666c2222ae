import Mathlib.Tactic
import Ccos.Kernel.Thread

/-!
# Traps: `trap.c`, `sysfile.c`, `time.c` and the irq side of `sched.c` and `platform.c`
-/

namespace Ccos

/-! ## Decoding -/

def scauseInt : UInt64 := (1 : UInt64) <<< 63

def scauseIsInterrupt (scause : UInt64) : Bool :=
  (scause &&& scauseInt) ≠ 0

def scauseCode (scause : UInt64) : UInt64 :=
  scause &&& (scauseInt - 1)

/-- The cases of the two `switch (code)` of `trap_entry_c`. -/
inductive TrapKind
  | softS
  | timerS
  | extS
  | ecallU
  | breakpoint
  | illegalInstr
  | unhandled
  deriving DecidableEq

def trapKind (scause : UInt64) : TrapKind :=
  let code := (scauseCode scause).toNat
  if scauseIsInterrupt scause then
    if code = 1 then .softS
    else if code = 5 then .timerS
    else if code = 9 then .extS
    else .unhandled
  else if code = 8 then .ecallU
  else if code = 3 then .breakpoint
  else if code = 2 then .illegalInstr
  else .unhandled

/-- A system call with its arguments, as `syscall_handler` casts them. -/
inductive Syscall
  | sleep (ticks : UInt64)
  | threadExit (exitCode : Int)
  | threadJoin (tid : Int) (statusPtr : UInt64)
  | threadCreate (entry arg name : UInt64)
  | write (fd : Int) (buf len : UInt64)
  | read (fd : Int) (buf len : UInt64)
  | threadList (ubuf : UInt64) (max : Int)
  | threadKill (tid : Int)
  | clockGettime (clockId : Int) (uts : UInt64)
  | irqGetStats (ubuf n : UInt64)
  | getHartid
  | yield
  | threadDetach (tid : Int)
  | runqueueSnapshot (ubuf n : UInt64)
  | unknown
  deriving DecidableEq

/-- The `switch (sys_id)` of `syscall_handler` (numbers from `usyscall.h`). -/
def syscallOf (tf : Trapframe) : Syscall :=
  match tf.a0.toNat with
  | 1 => .sleep tf.a1
  | 2 => .threadExit (toInt32 tf.a1)
  | 3 => .threadJoin (toInt32 tf.a1) tf.a2
  | 4 => .threadCreate tf.a1 tf.a2 tf.a3
  | 5 => .write (toInt32 tf.a1) tf.a2 tf.a3
  | 6 => .read (toInt32 tf.a1) tf.a2 tf.a3
  | 7 => .threadList tf.a1 (toInt32 tf.a2)
  | 8 => .threadKill (toInt32 tf.a1)
  | 9 => .clockGettime (toInt32 tf.a1) tf.a2
  | 10 => .irqGetStats tf.a1 tf.a2
  | 11 => .getHartid
  | 12 => .yield
  | 13 => .threadDetach (toInt32 tf.a1)
  | 14 => .runqueueSnapshot tf.a1 tf.a2
  | _ => .unknown

/-! ## Time -/

/-- `platform_rtc_read_ns` for the value `ticks` of the `time` CSR. -/
def platformRtcReadNs (hz : UInt32) (ticks : UInt64) : UInt64 :=
  let hz := hz.toUInt64
  let sec := ticks / hz
  let rem := ticks - sec * hz
  -- whole seconds first: `ticks * 10^9` would soon overflow
  sec * 1000000000 + rem * 1000000000 / hz

/-- `ktime_get_real_ts` and `ktime_get_monotonic_ts` after their clock read: seconds,
nanoseconds. -/
def ktimeSplit (ns : UInt64) : UInt64 × UInt32 :=
  (ns / 1000000000, (ns % 1000000000).toUInt32)

def ktimeGetRealTs (s : Kernel) (time : UInt64) : UInt64 × UInt32 :=
  ktimeSplit (platformRtcReadNs s.timebaseHz time)

def ktimeGetMonotonicTs (s : Kernel) (time : UInt64) : UInt64 × UInt32 :=
  ktimeSplit (platformRtcReadNs s.timebaseHz time - s.bootRealNs)

/-- `copy_to_user_timespec`: `struct timespec` is `tv_sec` at 0 and `tv_nsec` at 8. -/
def copyToUserTimespec (s : Kernel) (uts : UInt64) (ts : UInt64 × UInt32) : Int × Kernel :=
  if uts = 0 then (-1, s)
  else
    (0, { s with mem := storeBytes s.mem uts (leBytes 8 ts.1.toNat ++ leBytes 4 ts.2.toNat) })

def sysClockGettime (s : Kernel) (time : UInt64) (clockId : Int) (uts : UInt64) : Int × Kernel :=
  if clockId = 0 then copyToUserTimespec s uts (ktimeGetRealTs s time)
  else if clockId = 1 then copyToUserTimespec s uts (ktimeGetMonotonicTs s time)
  else (-1, s)

/-! ## Reports to user space -/

/-- The bytes of a C string at `p`, without its terminator, at most `n` of them. -/
def cstring (m : Mem) (p : UInt64) : Nat → List UInt8
  | 0 => []
  | n + 1 => if m p = 0 then [] else m p :: cstring m (p + 1) n

def nameBytes (m : Mem) (max : Nat) : Option ThreadName → List UInt8
  | none => []
  | some (.lit str) => (str.toUTF8.toList).take max
  | some (.user p) => cstring m p max

/-- One entry of `thread_sys_list` at `dst` (`struct u_thread_info`, 72 bytes; the padding and the
part of `name` after its terminator stay as they are). -/
def storeThreadInfo (m : Mem) (dst : UInt64) (t : Thread) : Mem :=
  let m := storeBytes m dst (intBytes t.id ++ intBytes t.state.code ++
    intBytes (if t.isUser then 1 else 0) ++ intBytes t.exitCode)
  let m := storeBytes m (dst + 48) (intBytes t.runningHart ++ intBytes t.lastHart ++
    leBytes 4 t.migrations.toNat)
  let m := storeBytes m (dst + 64) (leBytes 8 t.runs.toNat)
  -- the string `t->name` points to does not overlap the entry
  storeBytes m (dst + 16) (nameBytes m 31 t.name ++ [0])

variable (cfg : Config)

/-- `thread_sys_list`: the return value and the kernel. -/
def threadSysList (s : Kernel) (ubuf : UInt64) (max : Int) : Int × Kernel :=
  if ubuf = 0 ∨ max ≤ 0 then (-1, s)
  else
    let used := (List.range cfg.threadMax).filter fun i => (s.threads i).state ≠ .unused
    let listed := used.take max.toNat
    let m := listed.zipIdx.foldl
      (fun m p => storeThreadInfo m (ubuf + UInt64.ofNat (72 * p.2)) (s.threads p.1)) s.mem
    (listed.length, { s with mem := m })

/-- The bytes of one `struct rq_state`: hart, length and `THREAD_MAX` tids padded with `-1`. -/
def rqStateBytes (s : Kernel) (h : Nat) : List UInt8 :=
  let (ret, dst) := rqSnapshot cfg s.rq h cfg.threadMax
  let tids := dst ++ List.replicate (cfg.threadMax - dst.length) (-1)
  leBytes 4 h ++ leBytes 4 ret.toNat ++ tids.flatMap intBytes

/-- `sys_runqueue_snapshot`: the return value and the kernel. -/
def sysRunqueueSnapshot (s : Kernel) (ubuf n : UInt64) : Int × Kernel :=
  if ubuf = 0 ∨ n = 0 then (-1, s)
  else
    let online := (List.range cfg.maxHarts).filter fun h => (s.cpus h).online
    let listed := online.take n.toNat
    let size := 8 + 4 * cfg.threadMax
    let m := listed.zipIdx.foldl
      (fun m p => storeBytes m (ubuf + UInt64.ofNat (size * p.2)) (rqStateBytes cfg s p.1)) s.mem
    (listed.length, { s with mem := m })

def maxIrq : Nat := 64

/-- `ubuf[i] = tmp` for one `struct irqstat_user` (56 bytes) at `dst`.  The padding and the part of
`name` after its terminator are what the stack holds there. -/
def storeIrqStat (m : Mem) (dst : UInt64) (stack : Nat → UInt8) (irq : Nat) (l : IrqLine) : Mem :=
  let unset := fun start stop => (List.range' start (stop - start)).map stack
  let name := nameBytes m 15 (l.name.map .lit) ++ [0]
  storeBytes m dst (leBytes 4 irq ++ unset 4 8 ++ leBytes 8 l.count.toNat ++
    leBytes 8 l.firstTick.toNat ++ leBytes 8 l.lastTick.toNat ++ leBytes 8 l.maxDelta.toNat ++
    name ++ unset (40 + name.length) 56)

/-- `sys_irq_get_stats` over `platform_irq_get_stats`; `stack` is what is on the stack where the
entries are put together. -/
def sysIrqGetStats (s : Kernel) (stack : Nat → Nat → UInt8) (ubuf n : UInt64) : Int × Kernel :=
  if ubuf = 0 then (-1, s)
  else
    let n := min n.toNat maxIrq
    let m := (List.range n).foldl
      (fun m i => storeIrqStat m (ubuf + UInt64.ofNat (56 * i)) (stack i) i (s.irqs i)) s.mem
    (n, { s with mem := m })

/-! ## Files -/

/-- `sys_write`: output goes to the UART, so only the return value is left. -/
def sysWrite (fd : Int) (len : UInt64) : UInt64 :=
  if len = 0 then 0
  else if fd = 1 ∨ fd = 2 then len
  else UInt64.ofInt (-1)

/-- `sys_read` with the `SYS_READ` case of `syscall_handler`, which writes `a0` only when the read
did not block. -/
def sysRead (s : Kernel) (h : Nat) (tf : Int) (fd : Int) (buf len : UInt64) :
    Except Halt Kernel :=
  if fd ≠ 0 then .ok (s.setA0 tf (UInt64.ofInt (-1)))
  else
    let (n, s) := consoleReadNonblock s buf len
    if 0 < n then .ok (s.setA0 tf (UInt64.ofNat n))
    -- nothing was read, as the ring is empty or `len` is 0: `a0` keeps the number of the call
    else threadWaitForStdin cfg s h tf buf len

/-! ## Interrupts -/

/-- The end of `sched_on_timer_irq`: one tick of the slice is used up, and its last one
reschedules. -/
def sliceTick (s : Kernel) (h : Nat) (tf : Int) : Except Halt Kernel :=
  let s := s.modCpu h fun c => { c with sliceLeft := c.sliceLeft - 1 }
  if (s.cpus h).sliceLeft = 0 then
    schedule cfg
      (s.modCpu h fun c => { c with sliceLeft := schedSliceTicks, needResched := false }) h tf
  else .ok s

def schedOnTimerIrq (s : Kernel) (h : Nat) (tf : Int) : Except Halt Kernel := do
  let s := s.modCpu h fun c => { c with timerIrqs := c.timerIrqs + 1 }
  -- only the boot hart keeps the time
  let s ← if (s.cpus h).hartid = s.bootHartid then threadsTick cfg s h else .ok s
  sliceTick cfg s h tf

def schedOnIpiIrq (s : Kernel) (h : Nat) (tf : Int) : Except Halt Kernel :=
  -- the pending bit is cleared before the reschedule, so a later kick is not lost
  let s := { s with ssip := fun k => if k = h then false else s.ssip k }
  schedule cfg (s.modCpu h fun c => { c with needResched := false }) h tf

/-- One round of `platform_handle_s_external`: the irq `plic_claim` returns, the time CSR, and, when
the irq is the UART's, the characters its receive register hands out. -/
structure PlicClaim where
  irq : Nat
  now : UInt64
  rx : List UInt8

/-- The statistics update of one claimed irq. -/
def IrqLine.record (l : IrqLine) (now : UInt64) : IrqLine :=
  -- the first trigger, or the one after the 64-bit counter wrapped
  if l.count = 0 then { l with firstTick := now, lastTick := now, count := l.count + 1 }
  else
    let delta := now - l.lastTick
    { l with
      maxDelta := if l.maxDelta < delta then delta else l.maxDelta
      lastTick := now
      count := l.count + 1 }

def uart16550IrqHandler (s : Kernel) (h : Nat) (rx : List UInt8) : Except Halt Kernel :=
  rx.foldlM (fun s ch => consoleOnCharFromIrq cfg s h ch) s

/-- The characters a claimed irq feeds to the console: those of the UART, if its handler is
registered. -/
def claimRx (s : Kernel) (c : PlicClaim) : List UInt8 :=
  if c.irq < maxIrq ∧ (s.irqs c.irq).handler = some .uart16550 then c.rx else []

def plicRound (h : Nat) (s : Kernel) (c : PlicClaim) : Except Halt Kernel := do
  let s := { s with plicOps := s.plicOps ++ [.claim c.irq] }
  -- an irq number outside the table is claimed and completed without a record
  let s :=
    if c.irq < maxIrq then
      { s with irqs := fun i => if i = c.irq then (s.irqs i).record c.now else s.irqs i }
    else s
  let s ← uart16550IrqHandler cfg s h (claimRx s c)
  .ok { s with plicOps := s.plicOps ++ [.complete c.irq] }

/-- The loop ends at the first claim that returns 0. -/
def platformHandleSExternal (s : Kernel) (h : Nat) (claims : List PlicClaim) :
    Except Halt Kernel := do
  let s ← (claims.takeWhile fun c => c.irq ≠ 0).foldlM (plicRound cfg h) s
  .ok { s with plicOps := s.plicOps ++ [.claim 0] }

/-! ## Exceptions and dispatch -/

def fromKernel (tf : Trapframe) : Bool :=
  (tf.sstatus &&& sstatusSpp) ≠ 0

/-- `tf->sepc += 4` -/
@[simps]
def Thread.skipInstr (t : Thread) : Thread :=
  { t with tf := { t.tf with sepc := t.tf.sepc + 4 } }

/-- `breakpoint_handler`: a debug build steps over the `ebreak` and ends the user thread, a release
build panics. -/
def breakpointHandler (s : Kernel) (h : Nat) (tf : Int) : Except Halt Kernel :=
  if cfg.ndebug then .error (.panic "EXC_BREAKPOINT in release build")
  else
    let s' := s.modThread tf Thread.skipInstr
    if fromKernel (s.threads tf).tf then .ok s' else threadSysExit cfg s' h tf (-1)

/-- What a trap works with besides the saved registers: the `time` CSR, the rounds of PLIC claims an
external interrupt goes through, and the bytes of the kernel stack where `sys_irq_get_stats` puts
its entries together. -/
structure TrapInput where
  time : UInt64 := 0
  claims : List PlicClaim := []
  stack : Nat → Nat → UInt8 := fun _ _ => 0

def syscallHandler (s : Kernel) (h : Nat) (tf : Int) (io : TrapInput) : Except Halt Kernel :=
  let frame := (s.threads tf).tf
  -- `sepc` moves past the `ecall` before the call can switch threads
  let s := s.modThread tf Thread.skipInstr
  match syscallOf frame with
  | .sleep ticks => threadSysSleep cfg s h tf ticks
  | .threadExit code => threadSysExit cfg s h tf code
  | .threadJoin tid p => threadSysJoin cfg s h tf tid p
  | .threadCreate entry arg name => threadSysCreate cfg s h tf entry arg name frame.sstatus
  | .threadKill tid => threadSysKill cfg s h tf tid
  | .threadList ubuf max =>
    let (n, s) := threadSysList cfg s ubuf max
    .ok (s.setA0 tf (UInt64.ofInt n))
  | .write fd _ len => .ok (s.setA0 tf (sysWrite fd len))
  | .read fd buf len => sysRead cfg s h tf fd buf len
  | .clockGettime id uts =>
    let (n, s) := sysClockGettime s io.time id uts
    .ok (s.setA0 tf (UInt64.ofInt n))
  | .irqGetStats ubuf n =>
    let (n, s) := sysIrqGetStats s io.stack ubuf n
    .ok (s.setA0 tf (UInt64.ofInt n))
  | .getHartid => .ok (s.setA0 tf (UInt64.ofNat (cpuCurrentHartid s h)))
  | .yield => threadSysYield cfg s h tf
  | .threadDetach tid => .ok (threadSysDetach cfg s tf tid)
  | .runqueueSnapshot ubuf n =>
    let (n, s) := sysRunqueueSnapshot cfg s ubuf n
    .ok (s.setA0 tf (UInt64.ofInt n))
  | .unknown => .error (.panic "unknown syscall")

def trapEntryC (s : Kernel) (h : Nat) (tf : Int) (io : TrapInput) : Except Halt Kernel :=
  let frame := (s.threads tf).tf
  match trapKind frame.scause with
  | .softS => schedOnIpiIrq cfg s h tf
  | .timerS => schedOnTimerIrq cfg s h tf
  | .extS => platformHandleSExternal cfg s h io.claims
  | .ecallU => syscallHandler cfg s h tf io
  | .breakpoint => breakpointHandler cfg s h tf
  | .illegalInstr =>
    -- an illegal instruction ends a user thread; in S-mode the kernel panics
    if fromKernel frame then .error (.panic "unhandled trap") else threadSysExit cfg s h tf (-1)
  | .unhandled => .error (.panic "unhandled trap")

/-- `trap_entry` of `trap.S`: save the registers into the trapframe `cur_tf` points to and call
`trap_entry_c`. -/
def trapEntry (s : Kernel) (h : Nat) (regs : Trapframe) (io : TrapInput) : Except Halt Kernel :=
  match (s.cpus h).curTf with
  | .thread tf => trapEntryC cfg (s.modThread tf (Thread.setTf · regs)) h tf io
  | _ => .error .noTf

end Ccos
