import Mathlib.Tactic
import Ccos.Kernel.Trap

/-!
# Boot, events and the kernel as a transition system

A run starts where `primary_main` has finished `threads_init` and `set_smp_boot_done`.  Its steps
are the remaining boot steps of the harts and the traps they take afterwards.  A trap holds
`g_kernel_lock` from entry to exit, so it is one step; the boot steps of a hart write only its own
`cpu_t` and idle thread.
-/

namespace Ccos

open Reasoning

variable (cfg : Config)

/-! ## `cpu.c` -/

def cpuInitThisHart (s : Kernel) (h : Nat) : Except Halt Kernel :=
  if cfg.maxHarts ≤ h then .error (.panic "hartid >= MAX_HARTS")
  else
    .ok (s.modCpu h fun c =>
      { c with
        hartid := h
        curTf := .null
        idleTid := h
        currentTid := -1
        timerIrqs := 0
        ctxSwitches := 0
        online := true
        needResched := false
        sliceLeft := schedSliceTicks })

def cpuEnterIdle (s : Kernel) (h : Nat) : Except Halt Kernel := do
  assertOk cfg (h < cfg.maxHarts) "ASSERT failed: hartid < MAX_HARTS"
  assertOk cfg ((s.cpus h).hartid = h) "ASSERT failed: c && c->hartid == hartid"
  let s := s.modCpu h fun c =>
    { c with idleTid := h, currentTid := h, curTf := .thread h }
  let s := s.modThread h fun t => threadMarkRunning (t.setState .running) h
  -- timer and external interrupts are the boot hart's; `SSIE` lets every hart be kicked
  let isBoot := decide (h = s.bootHartid)
  .ok { s with
    sie := fun k =>
      if k = h then
        { ssie := true, stie := isBoot || (s.sie k).stie, seie := isBoot || (s.sie k).seie }
      else s.sie k }

/-! ## Boot -/

/-- One iteration of the first loop of `threads_init`; `is_user` keeps its `.bss` value. -/
def initThread (i : Int) (t : Thread) : Thread :=
  { t with
    id := i
    state := .unused
    wakeupTick := 0
    name := some (.lit "unused")
    stackBase := 0
    canBeKilled := false
    detached := false
    exitCode := 0
    joinWaiter := -1
    waitingFor := -1
    joinStatusPtr := 0
    pendingReadBuf := 0
    pendingReadLen := 0
    runningHart := -1
    lastHart := -1
    migrations := 0
    runs := 0
    tf := {} }

/-- One iteration of the idle loop of `threads_init`.  The entry is `idle_main`, a kernel function
whose address does not matter. -/
def initIdleThread (hid : Int) (idleMain sstatus : UInt64) (t : Thread) : Thread :=
  initThreadContextS
    { t with
      state := .runnable
      name := some (.lit ("idle" ++ toString hid))
      stackBase := threadStack cfg hid
      isUser := false
      canBeKilled := false }
    idleMain (UInt64.ofInt hid) sstatus

/-- What the boot hart finds when it starts. -/
structure BootArgs where
  bootHart : Nat
  /-- harts that ran `cpu_init_this_hart` and wait for `smp_boot_done` -/
  early : List Nat
  uartIrq : Nat
  sstatus : UInt64
  idleMain : UInt64
  userMain : UInt64
  timebaseHz : UInt32
  time : UInt64
  mem : Mem

def threadsInit (s : Kernel) (h : Nat) (a : BootArgs) : Except Halt Kernel := do
  let inTable := fun i : Int => 0 ≤ i ∧ i < cfg.threadMax
  let s :=
    { s with
      ticks := 0
      threads := fun i => if inTable i then initThread i (s.threads i) else s.threads i
      rq :=
        { s.rq with
          rqNext := fun i => if inTable i then -1 else s.rq.rqNext i
          onRq := fun i => if inTable i then false else s.rq.onRq i } }
  let s := { s with rq := rqInitAll cfg s.rq }
  -- the idle thread of hart `i` is thread `i`
  let s :=
    { s with
      threads := fun i =>
        if 0 ≤ i ∧ i < cfg.maxHarts then initIdleThread cfg i a.idleMain a.sstatus (s.threads i)
        else s.threads i }
  -- the first slot that is not an idle one
  let (tid, s) ← threadCreateUser cfg s h a.userMain 0 (some (.lit "user_main")) a.sstatus
  assertOk cfg (tid = cfg.maxHarts) "ASSERT failed: user_main_tid == FIRST_TID"
  .ok s

/-- The globals as `start.S` leaves them. -/
def bssKernel (a : BootArgs) : Kernel where
  threads := fun _ => {}
  rq := { queues := fun _ => {}, rqNext := fun _ => 0, onRq := fun _ => false }
  cpus := fun _ => {}
  ssip := fun _ => false
  sie := fun _ => {}
  ticks := 0
  stdinWaiter := -1
  rx := { buf := fun _ => 0, head := 0, tail := 0 }
  irqs := fun _ => {}
  plicOps := []
  mem := a.mem
  bootHartid := a.bootHart
  smpBootDone := false
  timebaseHz := a.timebaseHz
  bootRealNs := 0

/-- `kernel_main` and `primary_main` of the boot hart up to `set_smp_boot_done`. -/
def primaryMain (a : BootArgs) : Except Halt Kernel := do
  let s ← a.early.foldlM (cpuInitThisHart cfg) (bssKernel a)
  let s ← cpuInitThisHart cfg s a.bootHart
  let s :=
    { s with
      irqs := fun i =>
        if i = a.uartIrq ∧ i < maxIrq then
          { s.irqs i with handler := some .uart16550, name := some "uart0" }
        else s.irqs i }
  -- traps of the boot code, before there are threads, use a frame of their own
  let s := s.modCpu a.bootHart fun c => { c with curTf := .bootstrap }
  let s := { s with bootRealNs := platformRtcReadNs a.timebaseHz a.time }
  let s ← threadsInit cfg s a.bootHart a
  .ok { s with smpBootDone := true }

/-! ## Events -/

inductive Event
  /-- a secondary hart reaches `cpu_init_this_hart` -/
  | cpuInit (h : Nat)
  /-- a hart reaches `cpu_enter_idle` -/
  | enterIdle (h : Nat)
  /-- hart `h` traps with these registers -/
  | trap (h : Nat) (regs : Trapframe) (io : TrapInput)

def step (s : Kernel) : Event → Except Halt Kernel
  | .cpuInit h => cpuInitThisHart cfg s h
  | .enterIdle h => cpuEnterIdle cfg s h
  | .trap h regs io => trapEntry cfg s h regs io

/-- Exceptions come from user code; idle threads only execute `wfi`. -/
def TrapKind.isException : TrapKind → Bool
  | .ecallU | .breakpoint | .illegalInstr => true
  | _ => false

/-- A hart boots once, and traps only after it has entered idle. -/
def Allowed (s : Kernel) : Event → Prop
  | .cpuInit h => h < cfg.maxHarts ∧ (s.cpus h).online = false
  | .enterIdle h =>
    h < cfg.maxHarts ∧ (s.cpus h).online = true ∧
      ((s.cpus h).curTf = .null ∨ (s.cpus h).curTf = .bootstrap)
  | .trap h regs _ =>
    Entered cfg s h ∧
      ((trapKind regs.scause).isException → (s.cpus h).currentTid ≠ (s.cpus h).idleTid)

instance (s : Kernel) : (e : Event) → Decidable (Allowed cfg s e)
  | .cpuInit _ => inferInstanceAs (Decidable (_ ∧ _))
  | .enterIdle _ => inferInstanceAs (Decidable (_ ∧ _))
  | .trap _ _ _ => inferInstanceAs (Decidable (_ ∧ _))

/-- The kernel with every order of boot steps and traps of its harts. -/
def kernelSystem : System Halt Kernel Event where
  init s := ∃ a, primaryMain cfg a = .ok s
  guard := Allowed cfg
  step := step cfg

end Ccos
