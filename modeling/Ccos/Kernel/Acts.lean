import Mathlib.Tactic
import Ccos.Kernel.Action
import Ccos.Kernel.Uart

/-!
# A trap as a chain of acts

What a trap can do to the scheduling data, one write at a time and with the guard under which the
code does it.  An invariant that every `Act` keeps holds along every trap, whatever the action.
-/

namespace Ccos

open Reasoning

variable {cfg : Config} {s s' : Kernel} {h : Nat}

/-! ## Writes outside the scheduling data -/

/-- Only the registers, the wake-up tick and the pending read may differ. -/
def SameThread (t t' : Thread) : Prop :=
  t' = { t with tf := t'.tf, wakeupTick := t'.wakeupTick, pendingReadBuf := t'.pendingReadBuf,
                pendingReadLen := t'.pendingReadLen }

theorem SameThread.refl (t : Thread) : SameThread t t := rfl

namespace SameThread

variable {t t' : Thread} (hs : SameThread t t')

include hs

theorem id : t'.id = t.id := by rw [hs]

theorem state : t'.state = t.state := by rw [hs]

theorem canBeKilled : t'.canBeKilled = t.canBeKilled := by rw [hs]

theorem detached : t'.detached = t.detached := by rw [hs]

theorem runningHart : t'.runningHart = t.runningHart := by rw [hs]

theorem exitCode : t'.exitCode = t.exitCode := by rw [hs]

theorem joinWaiter : t'.joinWaiter = t.joinWaiter := by rw [hs]

theorem waitingFor : t'.waitingFor = t.waitingFor := by rw [hs]

theorem joinStatusPtr : t'.joinStatusPtr = t.joinStatusPtr := by rw [hs]

end SameThread

/-- The `cpu_t` fields that only `schedule` and the boot steps write. -/
def SameCpu (c c' : Cpu) : Prop :=
  c'.curTf = c.curTf ∧ c'.hartid = c.hartid ∧ c'.online = c.online ∧
    c'.currentTid = c.currentTid ∧ c'.idleTid = c.idleTid

theorem SameCpu.refl (c : Cpu) : SameCpu c c := ⟨rfl, rfl, rfl, rfl, rfl⟩

/-- Writes of hart `h` outside the data below: registers, memory, the console, counters, and pending
IPIs that are raised, or taken by `h` itself. -/
structure Quiet (h : Nat) (s s' : Kernel) : Prop where
  rq : s'.rq = s.rq
  threads : ∀ t, SameThread (s.threads t) (s'.threads t)
  cpus : ∀ k, SameCpu (s.cpus k) (s'.cpus k)
  slice : ∀ k, (s'.cpus k).sliceLeft = (s.cpus k).sliceLeft
  ssip : ∀ k, k ≠ h → s.ssip k = true → s'.ssip k = true
  sie : s'.sie = s.sie
  stdinWaiter : s'.stdinWaiter = s.stdinWaiter
  bootHartid : s'.bootHartid = s.bootHartid
  smpBootDone : s'.smpBootDone = s.smpBootDone

namespace Quiet

theorem refl (h : Nat) (s : Kernel) : Quiet h s s :=
  ⟨rfl, fun _ => .refl _, fun _ => .refl _, fun _ => rfl, fun _ _ hk => hk, rfl, rfl, rfl, rfl⟩

/-- Changing one thread outside its scheduling fields. -/
theorem modThread (h : Nat) (s : Kernel) (t : Int) {f : Thread → Thread}
    (hf : ∀ x, SameThread x (f x)) : Quiet h s (s.modThread t f) where
  rq := rfl
  threads u := by
    rw [Kernel.modThread_threads]
    split
    · exact hf _
    · exact .refl _
  cpus k := .refl _
  slice k := rfl
  ssip k _ hk := hk
  sie := rfl
  stdinWaiter := rfl
  bootHartid := rfl
  smpBootDone := rfl

theorem modCpu (h : Nat) (s : Kernel) (k : Nat) {f : Cpu → Cpu}
    (hf : ∀ c, SameCpu c (f c) ∧ (f c).sliceLeft = c.sliceLeft) : Quiet h s (s.modCpu k f) where
  rq := rfl
  threads t := .refl _
  cpus j := by
    rw [Kernel.modCpu_cpus]
    split
    · exact (hf _).1
    · exact .refl _
  slice j := by
    rw [Kernel.modCpu_cpus]
    split
    · exact (hf _).2
    · rfl
  ssip j _ hj := hj
  sie := rfl
  stdinWaiter := rfl
  bootHartid := rfl
  smpBootDone := rfl

theorem setA0 (h : Nat) (s : Kernel) (t : Int) (v : UInt64) : Quiet h s (s.setA0 t v) :=
  modThread h s t fun _ => rfl

theorem setMem (h : Nat) (s : Kernel) (m : Mem) : Quiet h s (s.setMem m) :=
  ⟨rfl, fun _ => .refl _, fun _ => .refl _, fun _ => rfl, fun _ _ hk => hk, rfl, rfl, rfl, rfl⟩

theorem storeStatus (h : Nat) (s : Kernel) (p : UInt64) (v : Int) :
    Quiet h s (storeStatus s p v) := by
  unfold Ccos.storeStatus
  split
  · exact setMem h s _
  · exact refl h s

/-- The console, the PLIC log and the irq table. -/
theorem device (h : Nat) (s : Kernel) (rx : RxRing) (mem : Mem) (ops : List PlicOp)
    (irqs : Nat → IrqLine) (ticks : UInt64) :
    Quiet h s { s with rx := rx, mem := mem, plicOps := ops, irqs := irqs, ticks := ticks } :=
  ⟨rfl, fun _ => .refl _, fun _ => .refl _, fun _ => rfl, fun _ _ hk => hk, rfl, rfl, rfl, rfl⟩

end Quiet

/-! ## What an action does to threads, read off the state it starts from -/

/-- The current thread stops running without dying: it goes to sleep, waits or blocks. -/
def Suspends (cfg : Config) (s : Kernel) (h : Nat) : Action → Prop
  | .sleep ticks => ticks ≠ 0
  | .join t _ => JoinAccepts cfg s h t ∧ (s.threads t).state ≠ .zombie
  | .read fd _ len => fd = 0 ∧ (len = 0 ∨ s.rx.isEmpty = true)
  | _ => False

instance (a : Action) : Decidable (Suspends cfg s h a) := by
  cases a <;> unfold Suspends <;> infer_instance

/-- The trap ends in `schedule`. -/
def Reschedules (cfg : Config) (s : Kernel) (h : Nat) : Action → Prop
  | .ipi => True
  | .timer => (s.cpus h).sliceLeft ≤ 1
  | .sleep _ => True
  | .exit _ => True
  | .join t p => Suspends cfg s h (.join t p)
  | .read fd buf len => Suspends cfg s h (.read fd buf len)
  | _ => False

instance (a : Action) : Decidable (Reschedules cfg s h a) := by
  cases a <;> unfold Reschedules <;> infer_instance

/-- The thread that the action kills. -/
def victim (cfg : Config) (s : Kernel) (h : Nat) : Action → Option Int
  | .kill t => if KillHits cfg s h t then some t else none
  | _ => none

/-- The thread that the action terminates. -/
def terminated (cfg : Config) (s : Kernel) (h : Nat) : Action → Option Int
  | .exit _ => some (s.cpus h).currentTid
  | a => victim cfg s h a

/-- The recorded joiner of the thread that the action terminates. -/
def Joiner (cfg : Config) (s : Kernel) (h : Nat) (a : Action) (w : Int) : Prop :=
  ∃ t, terminated cfg s h a = some t ∧ w = (s.threads t).joinWaiter

/-- The dead thread whose slot the action collects. -/
def collected (cfg : Config) (s : Kernel) (h : Nat) : Action → Option Int
  | .join t _ => if JoinAccepts cfg s h t ∧ (s.threads t).state = .zombie then some t else none
  | .detach t =>
    if DetachAccepts cfg s t ∧ (s.threads t).state = .zombie then some t else none
  | _ => none

/-- The hart whose current thread stops running before `schedule` is called. -/
def leaves (cfg : Config) (s : Kernel) (h : Nat) (a : Action) : Option Nat :=
  match a with
  | .exit _ => some h
  | a => if Suspends cfg s h a then some h else none

@[simp] theorem killHits_saveRegs {regs : Trapframe} {t : Int} :
    KillHits cfg (saveRegs s h regs) h t ↔ KillHits cfg s h t := by
  simp only [KillHits, saveRegs_state, saveRegs_canBeKilled, saveRegs_cpus]

@[simp] theorem joinAccepts_saveRegs {regs : Trapframe} {t : Int} :
    JoinAccepts cfg (saveRegs s h regs) h t ↔ JoinAccepts cfg s h t := by
  simp only [JoinAccepts, saveRegs_state, saveRegs_detached, saveRegs_joinWaiter, saveRegs_cpus]

@[simp] theorem suspends_saveRegs {regs : Trapframe} {a : Action} :
    Suspends cfg (saveRegs s h regs) h a ↔ Suspends cfg s h a := by
  cases a <;> simp [Suspends]

@[simp] theorem detachAccepts_saveRegs {regs : Trapframe} {t : Int} :
    DetachAccepts cfg (saveRegs s h regs) t ↔ DetachAccepts cfg s t := by
  simp only [DetachAccepts, saveRegs_state, saveRegs_joinWaiter, saveRegs_detached]

theorem reschedules_saveRegs {regs : Trapframe} {a : Action} :
    Reschedules cfg (saveRegs s h regs) h a ↔ Reschedules cfg s h a := by
  cases a with
  | join t p =>
    show Suspends cfg (saveRegs s h regs) h (.join t p) ↔ Suspends cfg s h (.join t p)
    exact suspends_saveRegs
  | read fd buf len =>
    show Suspends cfg (saveRegs s h regs) h (.read fd buf len) ↔ Suspends cfg s h (.read fd buf len)
    exact suspends_saveRegs
  | _ => rfl

theorem terminated_saveRegs {regs : Trapframe} (a : Action) :
    terminated cfg (saveRegs s h regs) h a = terminated cfg s h a := by
  cases a with
  | kill t =>
    show (if KillHits cfg (saveRegs s h regs) h t then some t else none) =
      if KillHits cfg s h t then some t else none
    simp only [killHits_saveRegs]
  | _ => rfl

theorem collected_saveRegs {regs : Trapframe} (a : Action) :
    collected cfg (saveRegs s h regs) h a = collected cfg s h a := by
  cases a with
  | join t p =>
    show (if JoinAccepts cfg (saveRegs s h regs) h t ∧ _ then some t else none) =
      if JoinAccepts cfg s h t ∧ _ then some t else none
    simp only [joinAccepts_saveRegs, saveRegs_state]
  | detach t =>
    show (if DetachAccepts cfg (saveRegs s h regs) t ∧ _ then some t else none) =
      if DetachAccepts cfg s t ∧ _ then some t else none
    simp only [detachAccepts_saveRegs, saveRegs_state]
  | _ => rfl

theorem leaves_eq_some {a : Action} {k : Nat} (hl : leaves cfg s h a = some k) :
    k = h ∧ (Suspends cfg s h a ∨ ∃ code, a = .exit code) := by
  unfold leaves at hl
  split at hl
  · exact ⟨(Option.some.inj hl).symm, .inr ⟨_, rfl⟩⟩
  · split at hl
    · exact ⟨(Option.some.inj hl).symm, .inl ‹_›⟩
    · cases hl

theorem leaves_of_suspends {a : Action} (ha : Suspends cfg s h a) : leaves cfg s h a = some h := by
  unfold leaves
  split
  · rfl
  · rw [if_pos ha]

theorem terminated_cases {a : Action} {t : Int} (ht : terminated cfg s h a = some t) :
    (∃ code, a = .exit code ∧ t = (s.cpus h).currentTid) ∨ (a = .kill t ∧ KillHits cfg s h t) := by
  cases a with
  | exit code => exact .inl ⟨code, rfl, (Option.some.inj ht).symm⟩
  | kill u =>
    change (if KillHits cfg s h u then some u else none) = some t at ht
    rw [Option.ite_none_right_eq_some] at ht
    obtain ⟨hhit, hu⟩ := ht
    obtain rfl : u = t := Option.some.inj hu
    exact .inr ⟨rfl, hhit⟩
  | _ => cases ht

theorem collected_cases {a : Action} {t : Int} (ht : collected cfg s h a = some t) :
    0 < t ∧ t < cfg.threadMax ∧ (s.threads t).state = .zombie ∧
      ((∃ p, a = .join t p ∧ JoinAccepts cfg s h t) ∨ (a = .detach t ∧ DetachAccepts cfg s t)) := by
  have hpos := cfg.maxHarts_pos
  cases a with
  | join u p =>
    rw [collected, Option.ite_none_right_eq_some] at ht
    obtain ⟨⟨hacc, hz⟩, hu⟩ := ht
    obtain rfl : u = t := Option.some.inj hu
    exact ⟨hacc.1, hacc.2.1, hz, .inl ⟨p, rfl, hacc⟩⟩
  | detach u =>
    rw [collected, Option.ite_none_right_eq_some] at ht
    obtain ⟨⟨hacc, hz⟩, hu⟩ := ht
    obtain rfl : u = t := Option.some.inj hu
    have hge := hacc.1
    exact ⟨by omega, hacc.2.1, hz, .inr ⟨rfl, hacc⟩⟩
  | _ => cases ht

/-- Collecting a dead thread does not suspend the caller. -/
theorem leaves_of_collected {a : Action} {t : Int} (ht : collected cfg s h a = some t) :
    leaves cfg s h a = none := by
  obtain ⟨-, -, hz, ⟨p, rfl, -⟩ | ⟨rfl, -⟩⟩ := collected_cases ht
  · exact if_neg fun hsus => hsus.2 hz
  · rfl

/-- A trap that takes the current thread off its hart ends in `schedule`. -/
theorem reschedules_of_leaves {a : Action} {k : Nat} (hl : leaves cfg s h a = some k) :
    Reschedules cfg s h a := by
  obtain ⟨-, hsus | ⟨code, rfl⟩⟩ := leaves_eq_some hl
  · cases a with
    | sleep ticks => trivial
    | join t p => exact hsus
    | read fd buf len => exact hsus
    | _ => cases hsus
  · trivial

/-! ## Acts -/

/-- One write of a trap on hart `h` that does the action `a` from the state `s₀`. -/
inductive Act (cfg : Config) (h : Nat) (s₀ : Kernel) (a : Action) : Kernel → Kernel → Prop
  | quiet {s s' : Kernel} : Quiet h s s' → Act cfg h s₀ a s s'
  | slice {s : Kernel} {f : Cpu → Cpu} : a = .timer → (∀ c, SameCpu c (f c)) →
      Act cfg h s₀ a s (s.modCpu h f)
  /-- `threads_tick` -/
  | wakeSleeper {s s' : Kernel} {t : Int} : a = .timer → (s.threads t).state = .sleeping →
      threadMakeRunnable cfg s h t s.bootHartid = .ok s' → Act cfg h s₀ a s s'
  /-- `thread_wake` on a received character -/
  | wakeReader {s s' : Kernel} {t : Int} {claims : List PlicClaim} : a = .external claims →
      (s.threads t).state = .blocked →
      threadMakeRunnable cfg s h t (s.cpus h).hartid = .ok s' → Act cfg h s₀ a s s'
  /-- the registered reader was served -/
  | clearReader {s : Kernel} :
      (∀ t : Int, (cfg.maxHarts : Int) ≤ t → t < cfg.threadMax → s.stdinWaiter = t →
        (s.threads t).state = .blocked → s.rq.onRq t = true) →
      Act cfg h s₀ a s (s.setStdinWaiter (-1))
  | create {s s' : Kernel} {t : Int} {entry arg name sstatus : UInt64} :
      a = .create entry arg name sstatus → 0 < t → t < cfg.threadMax →
      (s₀.threads t).state = .unused → (s.threads t).state = .unused →
      threadMakeRunnable cfg
        (s.modThread t fun x => initUserThread x (threadStack cfg t) entry arg
          (if name = 0 then none else some (.user name)) sstatus) h t
        (s.cpus h).hartid = .ok s' → Act cfg h s₀ a s s'
  | sleep {s : Kernel} {ticks : UInt64} : a = .sleep ticks → Suspends cfg s₀ h a →
      (cfg.maxHarts : Int) ≤ (s.cpus h).currentTid → Act cfg h s₀ a s (sleepCur s h ticks)
  | wait {s : Kernel} {t : Int} {p : UInt64} : a = .join t p → Suspends cfg s₀ h a →
      (cfg.maxHarts : Int) ≤ (s.cpus h).currentTid → Act cfg h s₀ a s (waitCur s h t p)
  | block {s : Kernel} {buf len : UInt64} : a = .read 0 buf len → Suspends cfg s₀ h a →
      (cfg.maxHarts : Int) ≤ (s.cpus h).currentTid → Act cfg h s₀ a s (blockCur s h buf len)
  | exit {s : Kernel} {code : Int} : a = .exit code →
      (cfg.maxHarts : Int) ≤ (s.cpus h).currentTid →
      Act cfg h s₀ a s (exitCur s h (s.cpus h).currentTid code)
  | kill {s : Kernel} {t : Int} {rq : RunQueues} : a = .kill t → KillHits cfg s₀ h t →
      (cfg.maxHarts : Int) ≤ t → KillUnqueued cfg s t rq →
      Act cfg h s₀ a s ((s.modThread t Thread.kill).setRq rq)
  | deliver {s : Kernel} {w code : Int} : Joiner cfg s₀ h a w → 0 ≤ w → w < cfg.threadMax →
      Act cfg h s₀ a s (deliver s w code)
  | wakeJoiner {s s' : Kernel} {w : Int} : Joiner cfg s₀ h a w → 0 ≤ w → w < cfg.threadMax →
      (s.threads w).state = (s₀.threads w).state →
      (s.threads w).runningHart = (s₀.threads w).runningHart →
      threadMakeRunnable cfg s h w (s.cpus h).hartid = .ok s' → Act cfg h s₀ a s s'
  | joinWaiter {s : Kernel} {t w : Int} : terminated cfg s₀ h a = some t →
      w < 0 ∨ (w = (s₀.threads t).joinWaiter ∧ (s.threads t).state = .zombie) →
      Act cfg h s₀ a s (s.modThread t (Thread.setJoinWaiter · w))
  | detach {s : Kernel} {t : Int} : a = .detach t → (s.threads t).state ≠ .zombie →
      (s.threads t).joinWaiter < 0 → (cfg.maxHarts : Int) ≤ t →
      Act cfg h s₀ a s (s.modThread t Thread.detach)
  /-- `recycle_thread` of the thread that died, once no hart executes it -/
  | reclaim {s : Kernel} {t : Int} : terminated cfg s₀ h a = some t → (cfg.maxHarts : Int) ≤ t →
      t < cfg.threadMax → (s.threads t).state = .zombie →
      t = (s.cpus h).currentTid ∨ (s.threads t).runningHart < 0 →
      Act cfg h s₀ a s (recycleThread cfg s t)
  /-- `recycle_thread` of a thread that was dead before -/
  | collect {s : Kernel} {t : Int} : collected cfg s₀ h a = some t → (cfg.maxHarts : Int) ≤ t →
      t < cfg.threadMax → (s.threads t).state = .zombie →
      (s.threads t).runningHart = (s₀.threads t).runningHart →
      Act cfg h s₀ a s (recycleThread cfg s t)

abbrev Acts (cfg : Config) (h : Nat) (s₀ : Kernel) (a : Action) : Kernel → Kernel → Prop :=
  Relation.ReflTransGen (Act cfg h s₀ a)

/-- Acts, then `schedule` exactly if `R` holds. -/
def Ran (cfg : Config) (h : Nat) (s₀ : Kernel) (a : Action) (cur : Int) (R : Prop)
    (s s' : Kernel) : Prop :=
  ∃ s₁, Acts cfg h s₀ a s s₁ ∧ ((R ∧ schedule cfg s₁ h cur = .ok s') ∨ (¬ R ∧ s' = s₁))

section Chains

open Relation

variable {s₀ s₁ : Kernel} {a : Action} {cur : Int} {R : Prop}

theorem Ran.trans (ha : Acts cfg h s₀ a s s₁) (hr : Ran cfg h s₀ a cur R s₁ s') :
    Ran cfg h s₀ a cur R s s' := by
  obtain ⟨s₂, hacts, hend⟩ := hr
  exact ⟨s₂, ReflTransGen.trans ha hacts, hend⟩

theorem Ran.done (hR : ¬ R) (ha : Acts cfg h s₀ a s s') : Ran cfg h s₀ a cur R s s' :=
  ⟨s', ha, .inr ⟨hR, rfl⟩⟩

theorem Quiet.acts (hq : Quiet h s s') : Acts cfg h s₀ a s s' :=
  .single (.quiet hq)

/-! ## System calls

The registers are saved when a system call starts, so its state `s` differs from `s₀` quietly. -/

theorem acts_sleep {ticks : UInt64} (ha : a = .sleep ticks)
    (hle : (cfg.maxHarts : Int) ≤ (s.cpus h).currentTid)
    (hs : threadSysSleep cfg s h cur ticks = .ok s') : Ran cfg h s₀ a cur True s s' := by
  rcases threadSysSleep_cases hs with ⟨-, hsch⟩ | ⟨ht, hsch⟩
  · exact ⟨s, .refl, .inl ⟨trivial, hsch⟩⟩
  · have hsus : Suspends cfg s₀ h a := ha ▸ ht
    exact ⟨_, .single (.sleep ha hsus hle), .inl ⟨trivial, hsch⟩⟩

theorem deliver_cpus (w code : Int) : (deliver s w code).cpus = s.cpus := by
  unfold deliver storeStatus
  split <;> rfl

theorem deliver_threads (w code : Int) (u : Int) :
    SameThread (s.threads u) ((deliver s w code).threads u) ∨
      (u = w ∧ SameThread (s.threads u).clearWait ((deliver s w code).threads u)) := by
  unfold deliver storeStatus
  by_cases hu : u = w
  · subst hu
    refine .inr ⟨rfl, ?_⟩
    split
    · simp only [Kernel.setA0, Kernel.modThread_threads, Kernel.setMem_threads, if_true]
      rfl
    · simp only [Kernel.setA0, Kernel.modThread_threads, if_true]
      rfl
  · left
    split <;> simp [SameThread, Kernel.setA0, hu]

/-- Handing over the exit code changes neither states nor who executes what. -/
theorem deliver_state (w code : Int) (u : Int) :
    ((deliver s w code).threads u).state = (s.threads u).state ∧
      ((deliver s w code).threads u).runningHart = (s.threads u).runningHart := by
  rcases @deliver_threads s w code u with hu | ⟨-, hu⟩
  · exact ⟨hu.state, hu.runningHart⟩
  · exact ⟨hu.state, hu.runningHart⟩

theorem acts_exit {code : Int} (ha : a = .exit code) (hq : Quiet h s₀ s)
    (hcur : (s.cpus h).currentTid = cur) (hle : (cfg.maxHarts : Int) ≤ cur)
    (hlt : cur < cfg.threadMax) (hself : (s₀.threads cur).joinWaiter ≠ cur)
    (hs : threadSysExit cfg s h cur code = .ok s') : Ran cfg h s₀ a cur True s s' := by
  have hcur₀ : (s₀.cpus h).currentTid = cur := (hq.cpus h).2.2.2.1 ▸ hcur
  have hterm : terminated cfg s₀ h a = some cur := by rw [ha, terminated, hcur₀]
  have hwaiter := (hq.threads cur).joinWaiter
  obtain ⟨s₁, hrel, hsch⟩ := threadSysExit_cases hs
  rw [hcur] at hsch
  have hdie : Acts cfg h s₀ a s (exitCur s h cur code) := by
    subst hcur
    exact .single (.exit ha hle)
  have hrelease : Acts cfg h s₀ a s s₁ := by
    unfold ExitRelease at hrel
    simp only [hcur, hwaiter] at hrel
    rcases hrel with ⟨h1, h2, s₂, hmake, rfl⟩ | ⟨-, rfl⟩
    · have hjoin : Joiner cfg s₀ h a (s₀.threads cur).joinWaiter := ⟨cur, hterm, rfl⟩
      have hstate := fun u => @deliver_state (exitCur s h cur code)
        (s₀.threads cur).joinWaiter code u
      have hother : (exitCur s h cur code).threads (s₀.threads cur).joinWaiter =
          s.threads (s₀.threads cur).joinWaiter := by
        simp [exitCur, hcur, hself]
      have hmake' : threadMakeRunnable cfg
          (Ccos.deliver (exitCur s h cur code) (s₀.threads cur).joinWaiter code) h
          (s₀.threads cur).joinWaiter
          ((Ccos.deliver (exitCur s h cur code) (s₀.threads cur).joinWaiter code).cpus h).hartid =
          .ok s₂ := by
        rw [deliver_cpus]
        exact hmake
      have hwake := (hdie.tail (.deliver hjoin h1 h2)).tail (.wakeJoiner hjoin h1 h2
        (by rw [(hstate _).1, hother, (hq.threads _).state])
        (by rw [(hstate _).2, hother, (hq.threads _).runningHart]) hmake')
      -- the joiner is another thread, so the exiting one is still a zombie
      have hz : (s₂.threads cur).state = .zombie := by
        rw [threadMakeRunnable_threads hmake (Ne.symm hself), (hstate _).1]
        simp [exitCur, hcur]
      have hcur₂ : cur = (s₂.cpus h).currentTid := by
        rw [(threadMakeRunnable_sameHarts hmake).currentTid, deliver_cpus]
        exact hcur.symm
      exact hwake.tail (.reclaim hterm hle hlt hz (.inl hcur₂))
    · exact hdie
  exact ⟨_, hrelease.tail (.joinWaiter hterm (.inl (by omega))), .inl ⟨trivial, hsch⟩⟩

theorem acts_join {t : Int} {p : UInt64} (ha : a = .join t p) (hq : Quiet h s₀ s)
    (hacc₀ : JoinAccepts cfg s h t ↔ JoinAccepts cfg s₀ h t)
    (hle : (cfg.maxHarts : Int) ≤ (s.cpus h).currentTid)
    (hidle : ∀ t : Int, 0 ≤ t → t < cfg.maxHarts → (s.threads t).state ≠ .zombie)
    (hs : threadSysJoin cfg s h cur t p = .ok s') :
    Ran cfg h s₀ a cur (Suspends cfg s₀ h (.join t p)) s s' := by
  have hst := (hq.threads t).state
  rcases threadSysJoin_cases hs with ⟨hnot, v, -, rfl⟩ | ⟨hacc, hz, rfl⟩ | ⟨hacc, hz, hsch⟩
  · exact .done (fun hsus => hnot (hacc₀.mpr hsus.1)) (Quiet.setA0 h s cur v).acts
  · have hge : (cfg.maxHarts : Int) ≤ t := by
      by_contra hlt
      exact hidle t (by have := hacc.1; omega) (by omega) hz
    have hcol : collected cfg s₀ h a = some t := by
      rw [ha, collected, if_pos ⟨hacc₀.mp hacc, hst ▸ hz⟩]
    have hstore := Quiet.storeStatus h s p (s.threads t).exitCode
    have hdone : Acts cfg h s₀ a s _ := (Quiet.acts hstore).tail (.collect hcol hge hacc.2.1
      (by rw [(hstore.threads t).state, hz])
      (by rw [(hstore.threads t).runningHart, (hq.threads t).runningHart]))
    exact .done (fun hsus => hsus.2 (hst ▸ hz)) (hdone.trans (Quiet.setA0 h _ cur 0).acts)
  · have hsus : Suspends cfg s₀ h (.join t p) := ⟨hacc₀.mp hacc, hst ▸ hz⟩
    exact ⟨_, .single (.wait ha (ha ▸ hsus) hle), .inl ⟨hsus, hsch⟩⟩

theorem acts_create {entry arg name sstatus : UInt64} (ha : a = .create entry arg name sstatus)
    (hq : Quiet h s₀ s) (hs : threadSysCreate cfg s h cur entry arg name sstatus = .ok s') :
    Acts cfg h s₀ a s s' := by
  obtain ⟨tid, s₁, hcreate, rfl⟩ := threadSysCreate_cases hs
  have hset : Acts cfg h s₀ a s₁ (s₁.setA0 cur (UInt64.ofInt tid)) :=
    (Quiet.setA0 h s₁ cur _).acts
  rcases threadCreateUser_cases hcreate with ⟨-, rfl⟩ | ⟨h1, h2, hu, hmake⟩
  · exact hset
  · have hu₀ : (s₀.threads tid).state = .unused := (hq.threads tid).state ▸ hu
    exact ReflTransGen.trans (.single (.create ha h1 h2 hu₀ hu hmake)) hset

theorem kickVictim_quiet (t : Int) : Quiet h s (kickVictim cfg s h t) := by
  have ho := @kickVictim_schedOnly cfg s h t
  have hh := @kickVictim_sameHarts cfg s h t
  refine ⟨kickVictim_rq t, fun u => ?_, fun k => ?_, fun k => hh.sliceLeft k, fun k _ hk => ?_,
    ho.sie, ho.stdinWaiter, ho.bootHartid, ho.smpBootDone⟩
  · rw [kickVictim_threads]
    exact .refl _
  · exact ⟨hh.curTf k, hh.hartid k, hh.online k, hh.currentTid k, hh.idleTid k⟩
  · unfold kickVictim
    dsimp only
    split_ifs
    · exact smpKickHart_ssip _ hk
    · exact hk
    · exact hk

/-- The victim of a kill after its hart was told. -/
theorem killed_threads {t : Int} {rq : RunQueues} (u : Int) :
    (killed cfg s h t rq).threads u = if u = t then (s.threads u).kill else s.threads u := by
  rw [killed, kickVictim_threads]
  rfl

theorem acts_kill {t : Int} (ha : a = .kill t) (hq : Quiet h s₀ s)
    (hhit₀ : KillHits cfg s h t ↔ KillHits cfg s₀ h t)
    (hidle : ∀ t : Int, 0 ≤ t → t < cfg.maxHarts → (s.threads t).canBeKilled = false)
    (hself : 0 ≤ t → (s₀.threads t).joinWaiter ≠ t)
    (hs : threadSysKill cfg s h cur t = .ok s') : Acts cfg h s₀ a s s' := by
  rcases threadSysKill_cases hs with ⟨-, v, rfl⟩ | ⟨hhit, hkill⟩
  · exact (Quiet.setA0 h s cur v).acts
  -- idle threads are created with `can_be_killed` off
  have hge : (cfg.maxHarts : Int) ≤ t := by
    by_contra hlt
    have hoff := hidle t (by have := hhit.1; omega) (by omega)
    have hcan := hhit.2.2.2.1
    rw [hoff] at hcan
    cases hcan
  have hterm : terminated cfg s₀ h a = some t := ha ▸ if_pos (hhit₀.mp hhit)
  have hne := hself (by have := hhit.1; omega)
  obtain ⟨rq, s₁, hunq, hrel, rfl⟩ := killThread_cases hkill
  rw [(hq.threads t).joinWaiter] at hrel
  have hdead : Acts cfg h s₀ a s ((s.modThread t Thread.kill).setRq rq) :=
    .single (.kill ha (hhit₀.mp hhit) hge hunq)
  have hkilled : Acts cfg h s₀ a s (killed cfg s h t rq) := hdead.trans (kickVictim_quiet t).acts
  have hzombie : ((killed cfg s h t rq).threads t).state = .zombie := by
    rw [killed_threads, if_pos rfl]
    rfl
  -- a recorded joiner gets the exit code and is woken; without one only a detached victim goes
  have hrelease : Acts cfg h s₀ a s s₁ := by
    rcases hrel with ⟨h1, h2, s₂, hmake, rfl⟩ | ⟨-, rfl⟩ | ⟨-, rfl⟩
    · have hjoin : Joiner cfg s₀ h a (s₀.threads t).joinWaiter := ⟨t, hterm, rfl⟩
      have hstate := fun u => @deliver_state (killed cfg s h t rq)
        (s₀.threads t).joinWaiter exitcodeSigkill u
      have hother : (killed cfg s h t rq).threads (s₀.threads t).joinWaiter =
          s.threads (s₀.threads t).joinWaiter := by
        rw [killed_threads, if_neg hne]
      have hmake' : threadMakeRunnable cfg
          (Ccos.deliver (killed cfg s h t rq) (s₀.threads t).joinWaiter exitcodeSigkill) h
          (s₀.threads t).joinWaiter
          ((Ccos.deliver (killed cfg s h t rq) (s₀.threads t).joinWaiter exitcodeSigkill).cpus
            h).hartid = .ok s₂ := by
        rw [deliver_cpus]
        exact hmake
      have hwake := (hkilled.tail (.deliver hjoin h1 h2)).tail (.wakeJoiner hjoin h1 h2
        (by rw [(hstate _).1, hother, (hq.threads _).state])
        (by rw [(hstate _).2, hother, (hq.threads _).runningHart]) hmake')
      -- the wake-up is of another thread, so the victim is still a zombie
      have hz : (s₂.threads t).state = .zombie := by
        rw [threadMakeRunnable_threads hmake (Ne.symm hne), (hstate _).1, hzombie]
      split
      · rename_i hrec
        exact hwake.tail (.reclaim hterm hge hhit.2.1 hz (.inr hrec.1))
      · exact hwake.tail (.joinWaiter hterm (.inr ⟨rfl, hz⟩))
    · have hclear := hkilled.tail (.joinWaiter (w := -1) hterm (.inl (by omega)))
      split
      · rename_i hrec
        refine hclear.tail (.reclaim hterm hge hhit.2.1 ?_ (.inr ?_))
        · simpa using hzombie
        · simpa using hrec.2.1
      · exact hclear
    · exact hkilled
  exact hrelease.trans (Quiet.setA0 h s₁ cur 0).acts

/-- A reclaimed slot does not remember that it was detached. -/
theorem recycleThread_detach {t : Int} (h1 : 0 < t) (h2 : t < cfg.threadMax) :
    recycleThread cfg (s.modThread t Thread.detach) t = recycleThread cfg s t := by
  rw [recycleThread_eq h1 h2, recycleThread_eq h1 h2]
  have hmerge := Kernel.modThread_modThread
    (s.setStdinWaiter (if s.stdinWaiter = t then -1 else s.stdinWaiter)) t Thread.detach
    Thread.recycled
  exact congrArg (Kernel.setRq · (s.rq.unlink t)) hmerge

theorem acts_detach {t : Int} (ha : a = .detach t) (hq : Quiet h s₀ s) :
    Acts cfg h s₀ a s (threadSysDetach cfg s cur t) := by
  rcases threadSysDetach_cases (rfl : threadSysDetach cfg s cur t = _) with
    ⟨-, v, hv⟩ | ⟨hacc, hs⟩
  · rw [hv]
    exact (Quiet.setA0 h s cur v).acts
  · rw [hs]
    refine ReflTransGen.trans ?_ (Quiet.setA0 h _ cur 0).acts
    split
    · rename_i hz
      have hcol : collected cfg s₀ h a = some t := by
        rw [ha, collected, if_pos]
        unfold DetachAccepts at hacc ⊢
        rw [(hq.threads t).state, (hq.threads t).joinWaiter, (hq.threads t).detached] at hacc
        exact ⟨hacc, (hq.threads t).state ▸ hz⟩
      have hpos := cfg.maxHarts_pos
      have hge := hacc.1
      rw [recycleThread_detach (by omega) hacc.2.1]
      exact .single (.collect hcol hge hacc.2.1 hz (hq.threads t).runningHart)
    · exact .single (.detach ha ‹_› hacc.2.2.2.1 hacc.1)

theorem drained_quiet (buf len : UInt64) : Quiet h s (drained s buf len) :=
  Quiet.device h s _ _ s.plicOps s.irqs s.ticks

/-- Nothing is read only from an empty ring or with a zero length. -/
theorem consoleReadLoop_count (buf : UInt64) (k n : Nat) (m : Mem) (r : RxRing) :
    n ≤ (consoleReadLoop buf k n m r).1 := by
  induction k generalizing n m r with
  | zero => exact le_refl n
  | succ k ih =>
    unfold consoleReadLoop
    split
    · exact le_refl n
    · exact le_trans (Nat.le_succ n) (ih _ _ _)

theorem consoleReadNonblock_eq_zero (s : Kernel) (buf len : UInt64) :
    (consoleReadNonblock s buf len).1 = 0 ↔ len = 0 ∨ s.rx.isEmpty = true := by
  have hlen : len.toNat = 0 ↔ len = 0 := by
    rw [← UInt64.toNat_inj]
    rfl
  change (consoleReadLoop buf len.toNat 0 s.mem s.rx).1 = 0 ↔ _
  cases hk : len.toNat with
  | zero => simp [consoleReadLoop, hlen.mp hk]
  | succ k =>
    have hne : len ≠ 0 := fun h0 => by
      rw [hlen.mpr h0] at hk
      omega
    by_cases hempty : s.rx.isEmpty = true
    · simp [consoleReadLoop, hempty]
    · rw [consoleReadLoop, if_neg hempty]
      have hpos := consoleReadLoop_count buf k (0 + 1)
        (fun a => if a = buf + UInt64.ofNat 0 then s.rx.buf s.rx.tail else s.mem a)
        { s.rx with tail := (s.rx.tail + 1) % consoleRbufSize }
      constructor
      · intro hzero
        rw [hzero] at hpos
        omega
      · intro hor
        exact absurd hor (not_or.mpr ⟨hne, hempty⟩)

theorem acts_read {fd : Int} {buf len : UInt64} (ha : a = .read fd buf len) (hrx : s.rx = s₀.rx)
    (hle : (cfg.maxHarts : Int) ≤ (s.cpus h).currentTid)
    (hs : sysRead cfg s h cur fd buf len = .ok s') :
    Ran cfg h s₀ a cur (Suspends cfg s₀ h (.read fd buf len)) s s' := by
  have hzero := consoleReadNonblock_eq_zero s buf len
  rw [hrx] at hzero
  rcases sysRead_cases hs with ⟨v, rfl, hfd⟩ | ⟨-, hn, rfl⟩ | ⟨hfd, hn, hsch⟩
  · exact .done (fun hsus => hfd hsus.1) (Quiet.setA0 h s cur v).acts
  · refine .done (fun hsus => ?_)
      (ReflTransGen.trans (drained_quiet buf len).acts (Quiet.setA0 h _ cur _).acts)
    have hnone := hzero.mpr hsus.2
    omega
  · have hsus : Suspends cfg s₀ h (.read fd buf len) := ⟨hfd, hzero.mp hn⟩
    have hdrain : Acts cfg h s₀ a s (drained s buf len) := (drained_quiet buf len).acts
    subst hfd
    have hblock := hdrain.tail (.block ha (ha ▸ hsus) hle)
    exact ⟨_, hblock, .inl ⟨hsus, hsch⟩⟩

/-! ## Interrupts -/

theorem acts_tick (ha : a = .timer) (hs : threadsTick cfg s h = .ok s') :
    Acts cfg h s₀ a s s' := by
  unfold threadsTick at hs
  refine foldlM_keeps (Acts cfg h s₀ a s) ?_ ?_ hs
  · intro i _ s₁ s₂ hacts hstep
    unfold threadsTickStep at hstep
    split at hstep
    · rename_i hsleep
      have hclear : Quiet h s₁ (s₁.modThread i Thread.clearWakeup) :=
        Quiet.modThread h s₁ i (fun x => rfl)
      refine (hacts.trans hclear.acts).tail (.wakeSleeper ha ?_ hstep)
      rw [(hclear.threads i).state]
      exact hsleep.1
    · rw [Except.ok.injEq] at hstep
      exact hstep ▸ hacts
  · exact (Quiet.device h s s.rx s.mem s.plicOps s.irqs (s.ticks + 1)).acts

theorem threadsTick_sameHarts (hs : threadsTick cfg s h = .ok s') : SameHarts s s' := by
  unfold threadsTick at hs
  refine foldlM_keeps (SameHarts s) ?_ ?_ hs
  · intro i _ s₁ s₂ hsame hstep
    unfold threadsTickStep at hstep
    split at hstep
    · have hmod : SameHarts s₁ (s₁.modThread i Thread.clearWakeup) := .of_eq rfl
      exact (hsame.trans hmod).trans (threadMakeRunnable_sameHarts hstep)
    · rw [Except.ok.injEq] at hstep
      exact hstep ▸ hsame
  · exact .of_eq rfl

theorem acts_slice (ha : a = .timer) (hs : sliceTick cfg s h cur = .ok s') :
    Ran cfg h s₀ a cur ((s.cpus h).sliceLeft ≤ 1) s s' := by
  have huse : Acts cfg h s₀ a s (useTick s h) := .single (.slice ha fun _ => .refl _)
  rcases sliceTick_cases hs with ⟨hle, hsch⟩ | ⟨hlt, rfl⟩
  · have hreset : Act cfg h s₀ a (useTick s h) (resetSlice (useTick s h) h) :=
      .slice ha (fun _ => .refl _)
    exact ⟨_, huse.tail hreset, .inl ⟨hle, hsch⟩⟩
  · exact .done (by omega) huse

theorem countTimer_quiet (s : Kernel) (h : Nat) : Quiet h s (countTimer s h) :=
  Quiet.modCpu h s h (fun _ => ⟨.refl _, rfl⟩)

/-- The slice counter is not touched before the tick of the slice. -/
theorem timer_slice (htick : ((s.cpus h).hartid = s.bootHartid ∧
      threadsTick cfg (countTimer s h) h = .ok s₁) ∨
      ((s.cpus h).hartid ≠ s.bootHartid ∧ s₁ = countTimer s h)) :
    (s₁.cpus h).sliceLeft = (s.cpus h).sliceLeft := by
  have hcount := (countTimer_quiet s h).slice h
  rcases htick with ⟨-, htick⟩ | ⟨-, rfl⟩
  · rw [(threadsTick_sameHarts htick).sliceLeft, hcount]
  · exact hcount

theorem acts_timer (ha : a = .timer) (hs : schedOnTimerIrq cfg s h cur = .ok s') :
    Ran cfg h s₀ a cur ((s.cpus h).sliceLeft ≤ 1) s s' := by
  obtain ⟨s₁, hslice, htick⟩ := schedOnTimerIrq_cases hs
  have hcount : Acts cfg h s₀ a s (countTimer s h) := (countTimer_quiet s h).acts
  rw [← timer_slice htick]
  rcases htick with ⟨-, htick⟩ | ⟨-, rfl⟩
  · exact Ran.trans (hcount.trans (acts_tick ha htick)) (acts_slice ha hslice)
  · exact Ran.trans hcount (acts_slice ha hslice)

theorem acts_ipi (hs : schedOnIpiIrq cfg s h cur = .ok s') :
    Ran cfg h s₀ a cur True s s' := by
  unfold schedOnIpiIrq at hs
  dsimp only at hs
  refine ⟨_, Quiet.acts ?_, .inl ⟨trivial, hs⟩⟩
  refine ⟨rfl, fun _ => .refl _, fun k => ?_, fun k => ?_, fun k hk hs => ?_, rfl, rfl, rfl, rfl⟩
  · simp only [Kernel.modCpu_cpus]
    split <;> exact ⟨rfl, rfl, rfl, rfl, rfl⟩
  · simp only [Kernel.modCpu_cpus]
    split <;> rfl
  · simpa [hk] using hs

theorem acts_wake {t : Int} {claims : List PlicClaim} (ha : a = .external claims)
    (hs : threadWake cfg s h t = .ok s') : Acts cfg h s₀ a s s' := by
  rcases threadWake_cases hs with ⟨rfl, -⟩ | ⟨-, -, hb, hmake⟩
  · exact .refl
  · exact .single (.wakeReader ha hb hmake)

/-- After a wake-up the reader is not blocked, unless its queue held it all along. -/
theorem threadWake_served {t : Int} (hs : threadWake cfg s h t = .ok s')
    (h1 : (cfg.maxHarts : Int) ≤ t) (h2 : t < cfg.threadMax)
    (hb : (s'.threads t).state = .blocked) : s'.rq.onRq t = true := by
  have hpos := cfg.maxHarts_pos
  rcases threadWake_cases hs with ⟨rfl, hno⟩ | ⟨-, -, -, hmake⟩
  · rcases hno with hneg | hbig | hst
    · omega
    · omega
    · exact absurd hb hst
  rcases threadMakeRunnable_cases hmake with ⟨rfl, hno⟩ | ⟨rq, hw⟩
  · rcases hno with hlt | hbig | hon | hst
    · omega
    · omega
    · exact hon
    · rw [hb] at hst
      cases hst
  · rw [hw.threads, if_pos rfl] at hb
    cases hb

/-- A ring that just received a character is not empty. -/
theorem RxRing.put_nonempty (r : RxRing) (ch : UInt8) : (r.put ch).isEmpty = false := by
  unfold RxRing.put RxRing.isEmpty RxRing.isFull consoleRbufSize
  split
  · rename_i hfull
    rw [beq_iff_eq] at hfull
    rw [beq_eq_false_iff_ne]
    omega
  · rename_i hnot
    simpa using hnot

theorem threadWake_stdinWaiter {t : Int} (hs : threadWake cfg s h t = .ok s') :
    s'.stdinWaiter = s.stdinWaiter := by
  rcases threadWake_cases hs with ⟨rfl, -⟩ | ⟨-, -, -, hmake⟩
  · rfl
  · exact (threadMakeRunnable_schedOnly hmake).stdinWaiter

theorem acts_char {ch : UInt8} {claims : List PlicClaim} (ha : a = .external claims)
    (hs : consoleOnCharFromIrq cfg s h ch = .ok s') : Acts cfg h s₀ a s s' := by
  have hput : Acts cfg h s₀ a s { s with rx := s.rx.put ch } :=
    (Quiet.device h s (s.rx.put ch) s.mem s.plicOps s.irqs s.ticks).acts
  rcases consoleOnCharFromIrq_cases hs with ⟨-, rfl⟩ | ⟨-, s₁, hread, rfl⟩
  · exact hput
  rcases threadReadFromStdin_cases hread with ⟨-, hwake⟩ | ⟨⟨-, hlen⟩, ⟨hn, -⟩ | ⟨-, hwake⟩⟩
  · refine (hput.trans (acts_wake ha hwake)).tail (.clearReader fun t h1 h2 hw hb => ?_)
    rw [threadWake_stdinWaiter hwake] at hw
    subst hw
    exact threadWake_served hwake h1 h2 hb
  · -- the character just received is there to be read
    rcases (consoleReadNonblock_eq_zero _ _ _).mp hn with h0 | hempty
    · exact absurd h0 hlen
    · rw [RxRing.put_nonempty] at hempty
      cases hempty
  · have hcomplete : Acts cfg h s₀ a s (completeRead { s with rx := s.rx.put ch }) := by
      unfold completeRead
      dsimp only
      refine hput.trans
        (ReflTransGen.trans (drained_quiet _ _).acts (Quiet.modThread h _ _ ?_).acts)
      exact fun x => rfl
    refine (hcomplete.trans (acts_wake ha hwake)).tail (.clearReader fun t h1 h2 hw hb => ?_)
    rw [threadWake_stdinWaiter hwake] at hw
    subst hw
    exact threadWake_served hwake h1 h2 hb

theorem acts_external {claims : List PlicClaim} (ha : a = .external claims)
    (hs : platformHandleSExternal cfg s h claims = .ok s') : Acts cfg h s₀ a s s' := by
  obtain ⟨s₁, ops, irqs, huart, rfl, -⟩ := platformHandleSExternal_cases hs
  have hchars : Acts cfg h s₀ a s s₁ := by
    unfold uart16550IrqHandler at huart
    refine foldlM_keeps (Acts cfg h s₀ a s) ?_ .refl huart
    exact fun ch _ s₂ s₃ hacts hchar => hacts.trans (acts_char ha hchar)
  exact hchars.trans (Quiet.device h s₁ s₁.rx s₁.mem ops irqs s₁.ticks).acts

end Chains

/-! ## The whole trap -/

/-- The facts about idle threads and join relations that a trap relies on. -/
structure TrapReady (cfg : Config) (s : Kernel) : Prop where
  idleZombie : ∀ t : Int, 0 ≤ t → t < cfg.maxHarts → (s.threads t).state ≠ .zombie
  idleKill : ∀ t : Int, 0 ≤ t → t < cfg.maxHarts → (s.threads t).canBeKilled = false
  joinSelf : ∀ t : Int, 0 ≤ t → (s.threads t).joinWaiter ≠ t

/-- The actions that only a user thread asks for. -/
def Action.isSyscall : Action → Bool
  | .ipi | .timer | .external _ | .halt _ => false
  | _ => true

theorem saveRegs_quiet (s : Kernel) (h : Nat) (regs : Trapframe) : Quiet h s (saveRegs s h regs) :=
  Quiet.modThread h s _ (fun _ => rfl)

theorem runAction_acts {a : Action} {cur : Int} {regs : Trapframe}
    (hready : TrapReady cfg s) (hcur : (s.cpus h).currentTid = cur)
    (huser : a.isSyscall = true → (cfg.maxHarts : Int) ≤ cur ∧ cur < cfg.threadMax)
    (hs : runAction cfg (saveRegs s h regs) h cur a = .ok s') :
    Ran cfg h s a cur (Reschedules cfg s h a) s s' := by
  have hsave := saveRegs_quiet s h regs
  have hcur' : ((saveRegs s h regs).cpus h).currentTid = cur := hcur
  have hpos := cfg.maxHarts_pos
  refine Ran.trans hsave.acts ?_
  cases a with
  | ipi => exact acts_ipi hs
  | timer => exact acts_timer rfl hs
  | external claims => exact .done not_false (acts_external rfl hs)
  | sleep ticks => exact acts_sleep rfl (hcur' ▸ (huser rfl).1) hs
  -- the idle threads' part of `TrapReady` keeps each system call off their slots
  | exit code =>
    have hrange := huser rfl
    exact acts_exit rfl hsave hcur' hrange.1 hrange.2 (hready.joinSelf cur (by omega)) hs
  | join t p =>
    refine acts_join rfl hsave joinAccepts_saveRegs (hcur' ▸ (huser rfl).1) ?_ hs
    intro u h1 h2
    rw [saveRegs_state]
    exact hready.idleZombie u h1 h2
  | create entry arg name sstatus => exact .done not_false (acts_create rfl hsave hs)
  | kill t =>
    refine .done not_false (acts_kill rfl hsave killHits_saveRegs ?_ (hready.joinSelf t) hs)
    intro u h1 h2
    rw [saveRegs_canBeKilled]
    exact hready.idleKill u h1 h2
  | detach t =>
    rw [runAction, Except.ok.injEq] at hs
    rw [← hs]
    exact .done not_false (acts_detach rfl hsave)
  | read fd buf len => exact acts_read rfl rfl (hcur' ▸ (huser rfl).1) hs
  | query call io =>
    simp only [runAction, Except.ok.injEq] at hs
    rw [← hs, runQuery_mem]
    refine .done not_false ?_
    exact Relation.ReflTransGen.trans (Quiet.setMem h _ _).acts (Quiet.setA0 h _ _ _).acts
  | skip =>
    rw [runAction, Except.ok.injEq] at hs
    exact hs ▸ .done not_false .refl
  | halt msg => cases hs

end Ccos
