import Mathlib.Tactic
import Ccos.Reasoning.Run

/-!
# Kernel data

The globals of `kernel/` as one record.  `tid_t` is a C `int`, so thread ids are `Int` and the
`-1` sentinels stay what they are; hart ids are `uint32_t` and become `Nat`.  `g_threads`, `g_cpus`
and `g_runqueues` are total functions of their index: every index the code computes is checked
against `THREAD_MAX` or `MAX_HARTS` first, or is shown in range by the invariants.

The two run-queue fields of `struct Thread` (`rq_next`, `on_rq`) are kept next to the queue heads
in `RunQueues`, so that `runqueue.c` is a function of that record alone.
-/

namespace Ccos

/-- The build: `MAX_HARTS` (`CPUS`), `THREAD_MAX`, `NDEBUG` and the address of `g_thread_stacks`.
`thread.c` refuses to compile unless `THREAD_MAX > MAX_HARTS`. -/
structure Config where
  maxHarts : Nat
  threadMax : Nat
  ndebug : Bool
  threadStacks : UInt64
  maxHarts_pos : 0 < maxHarts
  maxHarts_lt : maxHarts < threadMax

/-- Why a trap does not return: a panic, a trap taken with no trapframe installed (`.Lno_tf`), or
a walk over a cyclic run queue. -/
inductive Halt
  | panic (msg : String)
  | noTf
  | spin
  deriving DecidableEq

/-! ## Machine words and memory -/

/-- `(int)x` of a 64-bit register. -/
def toInt32 (x : UInt64) : Int :=
  x.toUInt32.toInt32.toInt

/-- Byte memory reached through the pointers user threads pass to the kernel.  There is no
isolation, so that the pointers lead to RAM, and not into the kernel's own data, is an assumption of
the model: no load or store faults, and no store changes a kernel variable. -/
abbrev Mem := UInt64 → UInt8

def storeBytes (m : Mem) (p : UInt64) (bs : List UInt8) : Mem := fun a =>
  if (a - p).toNat < bs.length then bs.getD (a - p).toNat 0 else m a

def loadBytes (m : Mem) (p : UInt64) (n : Nat) : List UInt8 :=
  (List.range n).map fun i => m (p + UInt64.ofNat i)

/-- Little-endian bytes of the low `n` bytes of `x`. -/
def leBytes : Nat → Nat → List UInt8
  | 0, _ => []
  | n + 1, x => UInt8.ofNat x :: leBytes n (x / 256)

/-- The bytes of a C `int`. -/
def intBytes (i : Int) : List UInt8 :=
  leBytes 4 (i % 2 ^ 32).toNat

/-- The C `int` stored at `p`. -/
def loadInt (m : Mem) (p : UInt64) : Int :=
  let u : Nat := (loadBytes m p 4).foldr (fun b acc => b.toNat + 256 * acc) 0
  if u < 2 ^ 31 then (u : Int) else (u : Int) - 2 ^ 32

/-! ## Threads -/

/-- `struct trapframe` (`kernel/include/trap.h`). -/
structure Trapframe where
  ra : UInt64 := 0
  sp : UInt64 := 0
  gp : UInt64 := 0
  tp : UInt64 := 0
  t0 : UInt64 := 0
  t1 : UInt64 := 0
  t2 : UInt64 := 0
  s0 : UInt64 := 0
  s1 : UInt64 := 0
  a0 : UInt64 := 0
  a1 : UInt64 := 0
  a2 : UInt64 := 0
  a3 : UInt64 := 0
  a4 : UInt64 := 0
  a5 : UInt64 := 0
  a6 : UInt64 := 0
  a7 : UInt64 := 0
  s2 : UInt64 := 0
  s3 : UInt64 := 0
  s4 : UInt64 := 0
  s5 : UInt64 := 0
  s6 : UInt64 := 0
  s7 : UInt64 := 0
  s8 : UInt64 := 0
  s9 : UInt64 := 0
  s10 : UInt64 := 0
  s11 : UInt64 := 0
  t3 : UInt64 := 0
  t4 : UInt64 := 0
  t5 : UInt64 := 0
  t6 : UInt64 := 0
  sepc : UInt64 := 0
  sstatus : UInt64 := 0
  scause : UInt64 := 0
  stval : UInt64 := 0
  pad : UInt64 := 0

inductive ThreadState
  | unused
  | runnable
  | running
  | sleeping
  | waiting
  | zombie
  | blocked
  deriving DecidableEq, Repr

/-- `ThreadState` as the `int` that `thread_sys_list` reports. -/
def ThreadState.code : ThreadState → Int
  | unused => 0
  | runnable => 1
  | running => 2
  | sleeping => 3
  | waiting => 4
  | zombie => 5
  | blocked => 6

/-- `const char *name`: a kernel literal or a pointer passed to `SYS_THREAD_CREATE`. -/
inductive ThreadName
  | lit (s : String)
  | user (ptr : UInt64)

/-- `struct Thread` without `rq_next` and `on_rq`.  The zero values are those of `.bss`. -/
structure Thread where
  id : Int := 0
  state : ThreadState := .unused
  wakeupTick : UInt64 := 0
  name : Option ThreadName := none
  isUser : Bool := false
  canBeKilled : Bool := false
  detached : Bool := false
  runningHart : Int := 0
  lastHart : Int := 0
  migrations : UInt32 := 0
  runs : UInt64 := 0
  tf : Trapframe := {}
  stackBase : UInt64 := 0
  exitCode : Int := 0
  joinWaiter : Int := 0
  waitingFor : Int := 0
  joinStatusPtr : UInt64 := 0
  pendingReadBuf : UInt64 := 0
  pendingReadLen : UInt64 := 0

@[simps]
def Thread.setA0 (t : Thread) (v : UInt64) : Thread :=
  { t with tf := { t.tf with a0 := v } }

@[simps]
def Thread.setTf (t : Thread) (tf : Trapframe) : Thread :=
  { t with tf := tf }

@[simps]
def Thread.setState (t : Thread) (st : ThreadState) : Thread :=
  { t with state := st }

@[simps]
def Thread.setJoinWaiter (t : Thread) (w : Int) : Thread :=
  { t with joinWaiter := w }

/-! ## Harts -/

/-- `struct trapframe *cur_tf`: null, `&g_bootstrap_tf` or `&g_threads[t].tf`. -/
inductive TfPtr
  | null
  | bootstrap
  | thread (t : Int)
  deriving DecidableEq

/-- `struct cpu` without the kernel stack pointer, which only `trap.S` reads. -/
structure Cpu where
  curTf : TfPtr := .null
  hartid : Nat := 0
  online : Bool := false
  currentTid : Int := 0
  idleTid : Int := 0
  timerIrqs : UInt64 := 0
  ctxSwitches : UInt64 := 0
  needResched : Bool := false
  sliceLeft : Nat := 0

/-- The interrupt-enable bits of a hart's `sie` that `cpu_enter_idle` sets. -/
structure Sie where
  ssie : Bool := false
  stie : Bool := false
  seie : Bool := false

structure RunQueue where
  head : Int := 0
  tail : Int := 0
  len : Nat := 0

/-- `g_runqueues` with the `rq_next` and `on_rq` fields of every thread. -/
structure RunQueues where
  queues : Nat → RunQueue
  rqNext : Int → Int
  onRq : Int → Bool

/-! ## Console and platform -/

/-- `g_rx_buf`, `g_rx_head` (next write) and `g_rx_tail` (next read). -/
structure RxRing where
  buf : Nat → UInt8
  head : Nat
  tail : Nat

inductive IrqHandler
  | uart16550
  deriving DecidableEq

/-- `s_irq_table`, `s_irq_name` and `s_irq_stats` at one irq number. -/
structure IrqLine where
  handler : Option IrqHandler := none
  name : Option String := none
  count : UInt64 := 0
  lastTick : UInt64 := 0
  firstTick : UInt64 := 0
  maxDelta : UInt64 := 0

/-- MMIO traffic with the PLIC, in program order. -/
inductive PlicOp
  | claim (irq : Nat)
  | complete (irq : Nat)
  deriving DecidableEq

/-! ## The kernel -/

structure Kernel where
  threads : Int → Thread
  rq : RunQueues
  cpus : Nat → Cpu
  /-- `sip.SSIP` of each hart -/
  ssip : Nat → Bool
  sie : Nat → Sie
  ticks : UInt64
  stdinWaiter : Int
  rx : RxRing
  irqs : Nat → IrqLine
  plicOps : List PlicOp
  mem : Mem
  bootHartid : Nat
  smpBootDone : Bool
  timebaseHz : UInt32
  bootRealNs : UInt64

@[simps]
def Kernel.modThread (s : Kernel) (t : Int) (f : Thread → Thread) : Kernel :=
  { s with threads := fun u => if u = t then f (s.threads u) else s.threads u }

@[simps]
def Kernel.modCpu (s : Kernel) (h : Nat) (f : Cpu → Cpu) : Kernel :=
  { s with cpus := fun k => if k = h then f (s.cpus k) else s.cpus k }

@[simps]
def Kernel.setRq (s : Kernel) (rq : RunQueues) : Kernel :=
  { s with rq := rq }

@[simps]
def Kernel.setStdinWaiter (s : Kernel) (w : Int) : Kernel :=
  { s with stdinWaiter := w }

@[simps]
def Kernel.setMem (s : Kernel) (m : Mem) : Kernel :=
  { s with mem := m }

/-- `tf->a0 = v` for `tf = &g_threads[t].tf`. -/
def Kernel.setA0 (s : Kernel) (t : Int) (v : UInt64) : Kernel :=
  s.modThread t fun th => th.setA0 v

/-- Hart `h` has executed `cpu_enter_idle`: its `cpu_t` is set up by `cpu_init_this_hart` and its
`cur_tf` is the trapframe of a thread. -/
def Entered (cfg : Config) (s : Kernel) (h : Nat) : Prop :=
  h < cfg.maxHarts ∧ (s.cpus h).online = true ∧ (s.cpus h).hartid = h ∧
    (s.cpus h).idleTid = h ∧ (s.cpus h).curTf ≠ .null ∧ (s.cpus h).curTf ≠ .bootstrap

instance (cfg : Config) (s : Kernel) (h : Nat) : Decidable (Entered cfg s h) :=
  inferInstanceAs (Decidable (_ ∧ _))

end Ccos
