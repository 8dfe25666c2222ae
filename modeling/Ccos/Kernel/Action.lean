import Mathlib.Tactic
import Ccos.Kernel.Syscalls

/-!
# Traps as actions

`trapAction` is what a trap with given registers asks the kernel to do, decoded once; `trapEntry_eq`
says that the trap handler saves the registers and then does exactly that.  Conditions on the steps
of a run are stated over actions.
-/

namespace Ccos

open Reasoning

inductive Action
  | ipi
  | timer
  | external (claims : List PlicClaim)
  | sleep (ticks : UInt64)
  | exit (code : Int)
  | join (tid : Int) (statusPtr : UInt64)
  | create (entry arg name sstatus : UInt64)
  | kill (tid : Int)
  | detach (tid : Int)
  | read (fd : Int) (buf len : UInt64)
  /-- a system call that changes nothing but the caller's `a0` and memory -/
  | query (call : Syscall) (io : TrapInput)
  /-- `ebreak` in kernel mode, stepped over by a debug build -/
  | skip
  | halt (msg : String)

def syscallAction (sstatus : UInt64) (io : TrapInput) : Syscall → Action
  | .sleep ticks => .sleep ticks
  | .threadExit code => .exit code
  | .threadJoin tid p => .join tid p
  | .threadCreate entry arg name => .create entry arg name sstatus
  | .threadKill tid => .kill tid
  | .read fd buf len => .read fd buf len
  | .yield => .sleep 0
  | .threadDetach tid => .detach tid
  | .unknown => .halt "unknown syscall"
  | call => .query call io

def trapAction (cfg : Config) (regs : Trapframe) (io : TrapInput) : Action :=
  match trapKind regs.scause with
  | .softS => .ipi
  | .timerS => .timer
  | .extS => .external io.claims
  | .ecallU => syscallAction regs.sstatus io (syscallOf regs)
  | .breakpoint =>
    if cfg.ndebug then .halt "EXC_BREAKPOINT in release build"
    else if fromKernel regs then .skip else .exit (-1)
  | .illegalInstr => if fromKernel regs then .halt "unhandled trap" else .exit (-1)
  | .unhandled => .halt "unhandled trap"

/-- Only a timer interrupt is handled as one. -/
theorem trapAction_timer {cfg : Config} {regs : Trapframe} {io : TrapInput} :
    trapAction cfg regs io = .timer ↔ trapKind regs.scause = .timerS := by
  unfold trapAction
  cases hk : trapKind regs.scause with
  | timerS => simp
  | ecallU =>
    cases syscallOf regs <;> exact ⟨nofun, nofun⟩
  | breakpoint =>
    dsimp only
    split_ifs <;> simp
  | illegalInstr =>
    dsimp only
    split_ifs <;> simp
  | _ => simp

/-- The saved trapframe as the handler leaves it: `ecall` and `ebreak` are stepped over. -/
def trapFrame (regs : Trapframe) : Trapframe :=
  match trapKind regs.scause with
  | .ecallU | .breakpoint => { regs with sepc := regs.sepc + 4 }
  | _ => regs

/-- Hart `h` traps with its current thread's registers saved. -/
def saveRegs (s : Kernel) (h : Nat) (regs : Trapframe) : Kernel :=
  s.modThread (s.cpus h).currentTid (Thread.setTf · (trapFrame regs))

section SaveRegs

variable (s : Kernel) (h : Nat) (regs : Trapframe) (t : Int)

/-- Saving the registers changes no field but `tf`. -/
theorem saveRegs_field {α : Type} (g : Thread → α) (hg : ∀ x f, g (Thread.setTf x f) = g x) :
    g ((saveRegs s h regs).threads t) = g (s.threads t) := by
  unfold saveRegs
  rw [Kernel.modThread_threads]
  split
  · exact hg _ _
  · rfl

@[simp] theorem saveRegs_state : ((saveRegs s h regs).threads t).state = (s.threads t).state :=
  saveRegs_field s h regs t Thread.state fun _ _ => rfl

@[simp] theorem saveRegs_id : ((saveRegs s h regs).threads t).id = (s.threads t).id :=
  saveRegs_field s h regs t Thread.id fun _ _ => rfl

@[simp] theorem saveRegs_detached :
    ((saveRegs s h regs).threads t).detached = (s.threads t).detached :=
  saveRegs_field s h regs t Thread.detached fun _ _ => rfl

@[simp] theorem saveRegs_canBeKilled :
    ((saveRegs s h regs).threads t).canBeKilled = (s.threads t).canBeKilled :=
  saveRegs_field s h regs t Thread.canBeKilled fun _ _ => rfl

@[simp] theorem saveRegs_runningHart :
    ((saveRegs s h regs).threads t).runningHart = (s.threads t).runningHart :=
  saveRegs_field s h regs t Thread.runningHart fun _ _ => rfl

@[simp] theorem saveRegs_exitCode :
    ((saveRegs s h regs).threads t).exitCode = (s.threads t).exitCode :=
  saveRegs_field s h regs t Thread.exitCode fun _ _ => rfl

@[simp] theorem saveRegs_joinWaiter :
    ((saveRegs s h regs).threads t).joinWaiter = (s.threads t).joinWaiter :=
  saveRegs_field s h regs t Thread.joinWaiter fun _ _ => rfl

@[simp] theorem saveRegs_joinStatusPtr :
    ((saveRegs s h regs).threads t).joinStatusPtr = (s.threads t).joinStatusPtr :=
  saveRegs_field s h regs t Thread.joinStatusPtr fun _ _ => rfl

@[simp] theorem saveRegs_cpus : (saveRegs s h regs).cpus = s.cpus := rfl

@[simp] theorem saveRegs_rx : (saveRegs s h regs).rx = s.rx := rfl

@[simp] theorem saveRegs_stdinWaiter : (saveRegs s h regs).stdinWaiter = s.stdinWaiter := rfl

end SaveRegs

/-- The return value and the memory of a `query`. -/
def runQuery (cfg : Config) (s : Kernel) (h : Nat) (io : TrapInput) : Syscall → UInt64 × Kernel
  | .threadList ubuf max =>
    let (n, s) := threadSysList cfg s ubuf max
    (UInt64.ofInt n, s)
  | .write fd _ len => (sysWrite fd len, s)
  | .clockGettime id uts =>
    let (n, s) := sysClockGettime s io.time id uts
    (UInt64.ofInt n, s)
  | .irqGetStats ubuf n =>
    let (n, s) := sysIrqGetStats s io.stack ubuf n
    (UInt64.ofInt n, s)
  | .getHartid => (UInt64.ofNat (cpuCurrentHartid s h), s)
  | .runqueueSnapshot ubuf n =>
    let (n, s) := sysRunqueueSnapshot cfg s ubuf n
    (UInt64.ofInt n, s)
  | _ => (0, s)

def runAction (cfg : Config) (s : Kernel) (h : Nat) (tf : Int) : Action → Except Halt Kernel
  | .ipi => schedOnIpiIrq cfg s h tf
  | .timer => schedOnTimerIrq cfg s h tf
  | .external claims => platformHandleSExternal cfg s h claims
  | .sleep ticks => threadSysSleep cfg s h tf ticks
  | .exit code => threadSysExit cfg s h tf code
  | .join tid p => threadSysJoin cfg s h tf tid p
  | .create entry arg name sstatus => threadSysCreate cfg s h tf entry arg name sstatus
  | .kill tid => threadSysKill cfg s h tf tid
  | .detach tid => .ok (threadSysDetach cfg s tf tid)
  | .read fd buf len => sysRead cfg s h tf fd buf len
  | .query call io =>
    let (v, s) := runQuery cfg s h io call
    .ok (s.setA0 tf v)
  | .skip => .ok s
  | .halt msg => .error (.panic msg)

variable {cfg : Config} {s s' : Kernel} {h : Nat}

theorem syscallHandler_eq (tf : Int) (regs : Trapframe) (io : TrapInput)
    (hk : trapKind regs.scause = .ecallU) :
    syscallHandler cfg (s.modThread tf (Thread.setTf · regs)) h tf io =
      runAction cfg (s.modThread tf (Thread.setTf · (trapFrame regs))) h tf
        (syscallAction regs.sstatus io (syscallOf regs)) := by
  have hframe : ((s.modThread tf (Thread.setTf · regs)).threads tf).tf = regs := by simp
  have hsave : (s.modThread tf (Thread.setTf · regs)).modThread tf Thread.skipInstr =
      s.modThread tf (Thread.setTf · (trapFrame regs)) := by
    rw [Kernel.modThread_modThread]
    apply Kernel.modThread_congr
    simp only [trapFrame, hk]
    rfl
  unfold syscallHandler
  simp only [hframe, hsave]
  cases syscallOf regs <;> rfl

theorem trapEntry_eq {regs : Trapframe} {io : TrapInput}
    (hcur : (s.cpus h).curTf = .thread (s.cpus h).currentTid) :
    trapEntry cfg s h regs io =
      runAction cfg (saveRegs s h regs) h (s.cpus h).currentTid (trapAction cfg regs io) := by
  have hframe : ((s.modThread (s.cpus h).currentTid (Thread.setTf · regs)).threads
      (s.cpus h).currentTid).tf = regs := by simp
  unfold trapEntry trapEntryC saveRegs trapAction
  simp only [hcur, hframe]
  cases hk : trapKind regs.scause with
  | softS => simp only [trapFrame, hk, runAction]
  | timerS => simp only [trapFrame, hk, runAction]
  | extS => simp only [trapFrame, hk, runAction]
  | ecallU => exact syscallHandler_eq _ regs io hk
  | breakpoint =>
    have hsave : (s.modThread (s.cpus h).currentTid (Thread.setTf · regs)).modThread
        (s.cpus h).currentTid Thread.skipInstr =
        s.modThread (s.cpus h).currentTid (Thread.setTf · (trapFrame regs)) := by
      rw [Kernel.modThread_modThread]
      apply Kernel.modThread_congr
      simp only [trapFrame, hk]
      rfl
    unfold breakpointHandler
    simp only [hframe, hsave]
    split_ifs <;> rfl
  | illegalInstr =>
    simp only [trapFrame, hk]
    split_ifs <;> rfl
  | unhandled => simp only [runAction]

/-- A query writes `a0` and user memory. -/
theorem runQuery_mem (io : TrapInput) (call : Syscall) :
    (runQuery cfg s h io call).2 = s.setMem (runQuery cfg s h io call).2.mem := by
  cases call <;> try rfl
  case threadList ubuf max =>
    unfold runQuery threadSysList
    dsimp only
    split_ifs <;> rfl
  case clockGettime id uts =>
    unfold runQuery sysClockGettime copyToUserTimespec
    dsimp only
    split_ifs <;> rfl
  case irqGetStats ubuf n =>
    unfold runQuery sysIrqGetStats
    dsimp only
    split_ifs <;> rfl
  case runqueueSnapshot ubuf n =>
    unfold runQuery sysRunqueueSnapshot
    dsimp only
    split_ifs <;> rfl

end Ccos
