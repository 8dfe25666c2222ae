import Mathlib.Tactic
import Ccos.Sched.Progress
import Ccos.Smp.Lock

/-!
# The boot of the harts

Every hart enters `kernel_main`.  The first one to swap its id into `g_boot_hartid` initialises the
system, the others wait for `smp_boot_done`.  `kernelSystem` starts where that flag is set: its
start state is what `primary_main` computes when the other harts are at rest.  Here the harts take
their boot steps in any order, and each order leads to a run of `kernelSystem`.
-/

namespace Ccos

open Reasoning

/-! ## Model -/

/-- `NO_BOOT_HART` -/
def noBootHart : Nat := 0xFFFFFFFF

/-- The part of `primary_main` the boot hart runs next. -/
inductive PrimaryStage
  | platformInit
  | bootHartInit
  /-- `trap_init` and `trap_install_bootstrap_tf` -/
  | trapInit
  | timeInit
  | threadsInit
  | setBootDone
  | startOthers
  deriving DecidableEq

inductive BootPhase
  /-- before `cpu_init_this_hart` -/
  | parked
  /-- before the compare-and-swap of `kernel_main` -/
  | arrived
  | primary (next : PrimaryStage)
  /-- in `wait_for_smp_boot_done` -/
  | waiting
  /-- before `secondary_main` -/
  | secondary
  /-- before `cpu_enter_idle` -/
  | ready
  /-- `cpu_enter_idle` has switched to the idle thread -/
  | idle
  deriving DecidableEq

structure BootHarts where
  kernel : Kernel
  /-- `g_dtb` of `platform.c` -/
  dtb : UInt64
  phase : Nat → BootPhase

def BootHarts.move (S : BootHarts) (h : Nat) (k : Kernel) (p : BootPhase) : BootHarts :=
  { S with kernel := k, phase := fun j => if j = h then p else S.phase j }

inductive BootEvent
  | arrive (h : Nat)
  | swap (h : Nat)
  | primary (h : Nat)
  /-- one turn of the loop of `wait_for_smp_boot_done` -/
  | poll (h : Nat)
  | secondary (h : Nat)
  | enterIdle (h : Nat)
  | trap (h : Nat) (regs : Trapframe) (io : TrapInput)

/-- `platform_set_dtb`: the new `g_dtb`. -/
def platformSetDtb (dtb dtbPa : UInt64) : Except Halt UInt64 :=
  if dtbPa = 0 then .ok dtb
  else if dtb = 0 then .ok dtbPa
  else if dtb ≠ dtbPa then .error (.panic "platform_set_dtb: dtb mismatch")
  else .ok dtb

variable (cfg : Config) (a : BootArgs) (dtbPa : Nat → UInt64)

/-- One part of `primary_main`.  The drivers, the console, the log and the instruction probe change
nothing here. -/
def primaryStep (S : BootHarts) (h : Nat) : PrimaryStage → Except Halt BootHarts
  | .platformInit => do
    let dtb ← platformSetDtb S.dtb (dtbPa h)
    -- `platform_irq_table_init`
    let k := { S.kernel with irqs := fun i => { S.kernel.irqs i with handler := none } }
    .ok ({ S with dtb := dtb }.move h k (.primary .bootHartInit))
  | .bootHartInit => do
    assertOk cfg (S.dtb ≠ 0) "ASSERT failed: g_dtb != NULL"
    -- `platform_register_irq_handler` ignores an interrupt number that is out of range
    let k :=
      { S.kernel with
        irqs := fun i =>
          if i = a.uartIrq ∧ i < maxIrq then
            { S.kernel.irqs i with handler := some .uart16550, name := some "uart0" }
          else S.kernel.irqs i }
    .ok (S.move h k (.primary .trapInit))
  | .trapInit =>
    .ok (S.move h (S.kernel.modCpu h fun c => { c with curTf := .bootstrap }) (.primary .timeInit))
  | .timeInit =>
    let k := { S.kernel with bootRealNs := platformRtcReadNs a.timebaseHz a.time }
    .ok (S.move h k (.primary .threadsInit))
  | .threadsInit => do
    let k ← threadsInit cfg S.kernel h a
    .ok (S.move h k (.primary .setBootDone))
  | .setBootDone => .ok (S.move h { S.kernel with smpBootDone := true } (.primary .startOthers))
  | .startOthers => do
    assertOk cfg (S.kernel.bootHartid ≠ noBootHart) "ASSERT failed: g_boot_hartid != NO_BOOT_HART"
    -- the firmware starts the other harts; the loop only watches them
    .ok (S.move h S.kernel .ready)

def bootStep (S : BootHarts) : BootEvent → Except Halt BootHarts
  | .arrive h => do
    let k ← cpuInitThisHart cfg S.kernel h
    .ok (S.move h k .arrived)
  | .swap h =>
    if S.kernel.bootHartid = noBootHart then
      .ok (S.move h { S.kernel with bootHartid := h } (.primary .platformInit))
    else .ok (S.move h S.kernel .waiting)
  | .primary h =>
    match S.phase h with
    | .primary next => primaryStep cfg a dtbPa S h next
    | _ => .ok S
  | .poll h => .ok (if S.kernel.smpBootDone then S.move h S.kernel .secondary else S)
  | .secondary h => do
    -- `platform_secondary_hart_init`
    assertOk cfg (S.dtb ≠ 0) "ASSERT failed: g_dtb != NULL"
    .ok (S.move h S.kernel .ready)
  | .enterIdle h => do
    let k ← cpuEnterIdle cfg S.kernel h
    .ok (S.move h k .idle)
  | .trap h regs io => do
    let k ← trapEntry cfg S.kernel h regs io
    .ok { S with kernel := k }

/-- Each hart follows its own program; interrupts are enabled by `cpu_enter_idle`. -/
def BootAllowed (S : BootHarts) : BootEvent → Prop
  | .arrive h => S.phase h = .parked
  | .swap h => S.phase h = .arrived
  | .primary h => ∃ next, S.phase h = .primary next
  | .poll h => S.phase h = .waiting
  | .secondary h => S.phase h = .secondary
  | .enterIdle h => S.phase h = .ready
  | .trap h regs _ =>
    S.phase h = .idle ∧ ((trapKind regs.scause).isException →
      (S.kernel.cpus h).currentTid ≠ (S.kernel.cpus h).idleTid)

/-- The machine `a` with its harts anywhere in the boot code; which hart boots and which are early
is decided by the run, not by `a`.  Hart `h` gets the address `dtbPa h` of the device tree from the
firmware. -/
def bootSystem : System Halt BootHarts BootEvent where
  init S := S.kernel = { bssKernel a with bootHartid := noBootHart } ∧ S.dtb = 0 ∧
    ∀ h, S.phase h = .parked
  guard := BootAllowed
  step := bootStep cfg a dtbPa

/-- The step of `kernelSystem` a boot step is.  It has none before `smp_boot_done`. -/
def bootLabel (S : BootHarts) : BootEvent → Option Event
  | .arrive h => if S.kernel.smpBootDone then some (.cpuInit h) else none
  | .enterIdle h => some (.enterIdle h)
  | .trap h regs io => some (.trap h regs io)
  | .swap _ | .primary _ | .poll _ | .secondary _ => none

/-! ## `threads_init` -/

variable {cfg a dtbPa}

/-- The scan of `sched_pick_target_hart` stays with an online hart whose queue is empty. -/
theorem schedPickTargetHart_idle {s : Kernel} {h : Nat} (hon : (s.cpus h).online = true)
    (hlen : rqLen cfg s.rq h = 0) : schedPickTargetHart cfg s h = h := by
  have hfold : ∀ hs : List Nat, hs.foldl (schedPickStep cfg s) (h, 0, true) = (h, 0, true) := by
    intro hs
    induction hs with
    | nil => rfl
    | cons k hs ih =>
      have hkeep : schedPickStep cfg s (h, 0, true) k = (h, 0, true) := by
        simp [schedPickStep]
      rw [List.foldl_cons, hkeep, ih]
  unfold schedPickTargetHart
  rw [hlen, hon, hfold]

/-- The first free slot is the one after the idle threads. -/
theorem allocThreadSlot_boot {s : Kernel} (ht : s.threads = bootTable cfg a) :
    allocThreadSlot cfg s = cfg.maxHarts := by
  have hlt := cfg.maxHarts_lt
  have hpos := cfg.maxHarts_pos
  have hfind : (List.range' 1 (cfg.threadMax - 1)).find?
      (fun i : Nat => decide ((s.threads i).state = .unused)) = some cfg.maxHarts := by
    rw [List.find?_range'_eq_some]
    refine ⟨?_, ?_, ?_⟩
    · have hslot := (@bootTable_slot cfg a cfg.maxHarts (by omega) (by omega)).2.1
      rw [if_neg (by omega)] at hslot
      rw [ht, hslot]
      rfl
    · rw [List.mem_range'_1]
      omega
    · intro j hj hjm
      have hslot := (@bootTable_slot cfg a j (by omega) (by omega)).2.1
      rw [if_pos (by omega)] at hslot
      rw [ht, hslot]
      rfl
  unfold allocThreadSlot
  rw [hfind]

/-- The thread table `threads_init` leaves. -/
def bootThreads (cfg : Config) (a : BootArgs) (i : Int) : Thread :=
  if i = cfg.maxHarts then
    (initUserThread (bootTable cfg a i) (threadStack cfg i) a.userMain 0
      (some (.lit "user_main")) a.sstatus).makeRunnable
  else bootTable cfg a i

/-- The queues between `rq_init_all` and the creation of `user_main`. -/
def bootQueues (cfg : Config) : RunQueues :=
  rqInitAll cfg
    { queues := fun _ => {}
      rqNext := fun i => if 0 ≤ i ∧ i < cfg.threadMax then -1 else 0
      onRq := fun _ => false }

theorem bootQueues_onRq (t : Int) : (bootQueues cfg).onRq t = false := by
  unfold bootQueues
  rw [rqInitAll_links.2]

theorem rqLen_bootQueues (b : Nat) : rqLen cfg (bootQueues cfg) b = 0 := by
  unfold rqLen bootQueues
  rw [rqInitAll_queues]
  split_ifs <;> rfl

theorem rqPushTail_bootQueues (b : Nat) :
    ∃ r, rqPushTail cfg (bootQueues cfg) b cfg.maxHarts = .ok r := by
  unfold rqPushTail
  rw [bootQueues_onRq]
  split_ifs <;> first | exact ⟨_, rfl⟩ | contradiction

/-- `threads_init` sets the table and the queues whatever the harts' `cpu_t` are, and asks the boot
hart to reschedule. -/
theorem threadsInit_boot {b : Nat} {k : Kernel} {r : RunQueues}
    (hr : rqPushTail cfg (bootQueues cfg) b cfg.maxHarts = .ok r)
    (hthreads : k.threads = fun _ => {})
    (hrq : k.rq = { queues := fun _ => {}, rqNext := fun _ => 0, onRq := fun _ => false })
    (hon : (k.cpus b).online = true) (hid : (k.cpus b).hartid = b) :
    threadsInit cfg k b a =
      .ok ({ k with ticks := 0, threads := bootThreads cfg a, rq := r }.modCpu b fun c =>
        { c with needResched := true }) := by
  have hlt := cfg.maxHarts_lt
  unfold threadsInit
  dsimp only
  rw [hthreads, hrq]
  simp only [ite_self]
  -- the two loops and `rq_init_all`
  change (threadCreateUser cfg
    { k with ticks := 0, threads := bootTable cfg a, rq := bootQueues cfg } b a.userMain 0
      (some (.lit "user_main")) a.sstatus >>= _) = _
  generalize hk₁ :
    ({ k with ticks := 0, threads := bootTable cfg a, rq := bootQueues cfg } : Kernel) = k₁
  have hcpus : k₁.cpus = k.cpus := by rw [← hk₁]
  have hslot : allocThreadSlot cfg k₁ = cfg.maxHarts := allocThreadSlot_boot (by rw [← hk₁])
  have hqueue : k₁.rq = bootQueues cfg := by rw [← hk₁]
  unfold threadCreateUser
  dsimp only
  rw [hslot, if_neg (by omega)]
  generalize hk₂ : k₁.modThread (cfg.maxHarts : Int) (fun t => initUserThread t
    (threadStack cfg cfg.maxHarts) a.userMain 0 (some (.lit "user_main")) a.sstatus) = k₂
  have hcpus₂ : k₂.cpus = k.cpus := hk₂ ▸ hcpus
  have hqueue₂ : k₂.rq = bootQueues cfg := by rw [← hk₂, Kernel.modThread_rq, hqueue]
  have hcur : cpuCurrentHartid k₂ b = b := by
    unfold cpuCurrentHartid
    rw [hcpus₂, hid]
  have hstate : (k₂.threads cfg.maxHarts).state ≠ .running := by
    rw [← hk₂]
    simp [initUserThread]
  -- `user_main` goes to the queue of the boot hart itself
  have htarget : schedPickTargetHart cfg k₂ b = b := by
    apply schedPickTargetHart_idle
    · rw [hcpus₂, hon]
    · rw [hqueue₂, rqLen_bootQueues]
  have hmake : threadMakeRunnable cfg k₂ b cfg.maxHarts b = .ok
      (((k₂.modThread (cfg.maxHarts : Int) Thread.makeRunnable).setRq r).modCpu b fun c =>
        { c with needResched := true }) := by
    have hself : cpuCurrentHartid
        ((k₂.modThread (cfg.maxHarts : Int) Thread.makeRunnable).setRq r) b = b := hcur
    unfold threadMakeRunnable
    rw [if_neg (by omega), if_neg (by omega), hqueue₂, bootQueues_onRq, if_neg (by simp [hstate])]
    dsimp only
    rw [htarget, Kernel.modThread_rq, hqueue₂, hr]
    simp only [ok_bind]
    rw [if_pos hself.symm]
  rw [hcur, hmake]
  simp only [ok_bind]
  rw [assertOk_eq_ok.mpr (.inl trivial), ok_bind]
  rw [← hk₂, ← hk₁]
  congr 2
  unfold Kernel.modThread Kernel.setRq bootThreads
  congr 1
  funext i
  by_cases hi : i = cfg.maxHarts
  · simp [hi]
  · simp [hi]

/-! ## The kernel before `smp_boot_done` -/

/-- The `cpu_t` after `cpu_init_this_hart`. -/
def bootCpu (h : Nat) : Cpu where
  hartid := h
  online := true
  currentTid := -1
  idleTid := h
  sliceLeft := schedSliceTicks

/-- The `cpu_t` of a hart in a boot phase; the boot hart is the only one that changes it again. -/
def BootPhase.cpu (h : Nat) : BootPhase → Cpu
  | .parked => {}
  | .primary .platformInit | .primary .bootHartInit | .primary .trapInit => bootCpu h
  | .primary .timeInit | .primary .threadsInit => { bootCpu h with curTf := .bootstrap }
  | .primary .setBootDone | .primary .startOthers =>
    { bootCpu h with curTf := .bootstrap, needResched := true }
  | .arrived | .waiting | .secondary | .ready | .idle => bootCpu h

/-- What `primary_main` has done to the kernel when it comes to a stage, the `cpu_t` apart. -/
def PrimaryStage.kernel (cfg : Config) (a : BootArgs) (b : Nat) (r : RunQueues)
    (cpus : Nat → Cpu) : PrimaryStage → Kernel
  | .platformInit | .bootHartInit => { bssKernel a with bootHartid := b, cpus := cpus }
  | .trapInit | .timeInit =>
    { bssKernel a with
      bootHartid := b
      cpus := cpus
      irqs := fun i =>
        if i = a.uartIrq ∧ i < maxIrq then
          { handler := some .uart16550, name := some "uart0" }
        else {} }
  | .threadsInit =>
    { bssKernel a with
      bootHartid := b
      cpus := cpus
      irqs := fun i =>
        if i = a.uartIrq ∧ i < maxIrq then
          { handler := some .uart16550, name := some "uart0" }
        else {}
      bootRealNs := platformRtcReadNs a.timebaseHz a.time }
  | .setBootDone | .startOthers =>
    { bssKernel a with
      bootHartid := b
      cpus := cpus
      irqs := fun i =>
        if i = a.uartIrq ∧ i < maxIrq then
          { handler := some .uart16550, name := some "uart0" }
        else {}
      bootRealNs := platformRtcReadNs a.timebaseHz a.time
      threads := bootThreads cfg a
      rq := r }

/-- `g_dtb` at a stage of the boot hart, which was given `dtbPa`. -/
def PrimaryStage.dtb (dtbPa : UInt64) : PrimaryStage → UInt64
  | .platformInit => 0
  | _ => dtbPa

theorem cpuInitThisHart_eq {s : Kernel} {h : Nat} (hlt : h < cfg.maxHarts) :
    cpuInitThisHart cfg s h = .ok (s.modCpu h fun _ => bootCpu h) := by
  unfold cpuInitThisHart
  rw [if_neg (by omega), Kernel.modCpu_const]
  rfl

/-- The early harts reset their own `cpu_t`, in any order. -/
theorem earlyHarts_eq {s : Kernel} {hs : List Nat} (hlt : ∀ h ∈ hs, h < cfg.maxHarts) :
    hs.foldlM (cpuInitThisHart cfg) s =
      .ok { s with cpus := fun k => if k ∈ hs then bootCpu k else s.cpus k } := by
  induction hs generalizing s with
  | nil => simp [pure, Except.pure]
  | cons h hs ih =>
    rw [List.foldlM_cons, cpuInitThisHart_eq (hlt h List.mem_cons_self), ok_bind,
      ih fun k hk => hlt k (List.mem_cons_of_mem h hk)]
    congr 2
    funext k
    rw [Kernel.modCpu_cpus]
    by_cases hmem : k ∈ hs
    · simp [hmem]
    · by_cases hk : k = h
      · simp [hk]
      · simp [hmem, hk]

/-- `kernel_main` of the boot hart, after any set of other harts. -/
theorem primaryMain_boot {b : Nat} {r : RunQueues} {early : List Nat} (hb : b < cfg.maxHarts)
    (hr : rqPushTail cfg (bootQueues cfg) b cfg.maxHarts = .ok r)
    (hlt : ∀ h ∈ early, h < cfg.maxHarts) :
    primaryMain cfg { a with bootHart := b, early := early } =
      .ok { PrimaryStage.kernel cfg a b r (fun k =>
          if k = b then (BootPhase.primary .startOthers).cpu b
          else if k ∈ early then bootCpu k else {}) .startOthers with smpBootDone := true } := by
  unfold primaryMain
  dsimp only
  rw [earlyHarts_eq hlt, ok_bind, cpuInitThisHart_eq hb, ok_bind]
  generalize hk : Kernel.modCpu _ b (fun c => { c with curTf := .bootstrap }) = k
  have hcpu : k.cpus b = { bootCpu b with curTf := .bootstrap } := by
    rw [← hk, Kernel.modCpu_cpus, if_pos rfl]
    simp
  have hinit := @threadsInit_boot cfg { a with bootHart := b, early := early } b
    { k with bootRealNs := platformRtcReadNs a.timebaseHz a.time } r hr (by rw [← hk]; rfl)
    (by rw [← hk]; rfl) (by rw [hcpu]; rfl) (by rw [hcpu]; rfl)
  rw [hinit, ok_bind, ← hk]
  unfold PrimaryStage.kernel
  congr 2
  unfold Kernel.modCpu
  dsimp only
  funext j
  by_cases hj : j = b
  · simp [hj, BootPhase.cpu]
  · simp [hj, bssKernel]

/-! ## The three parts of the boot -/

/-- No hart has won yet. -/
structure Electing (cfg : Config) (a : BootArgs) (S : BootHarts) : Prop where
  dtb : S.dtb = 0
  range : ∀ h, S.phase h ≠ .parked → h < cfg.maxHarts
  phases : ∀ h, S.phase h = .parked ∨ S.phase h = .arrived
  kernel : S.kernel =
    { bssKernel a with bootHartid := noBootHart, cpus := fun h => (S.phase h).cpu h }

/-- Hart `b` is in `primary_main` before `set_smp_boot_done`. -/
structure Booting (cfg : Config) (a : BootArgs) (dtbPa : Nat → UInt64) (b : Nat)
    (st : PrimaryStage) (r : RunQueues) (S : BootHarts) : Prop where
  dtb : S.dtb = st.dtb (dtbPa b)
  range : ∀ h, S.phase h ≠ .parked → h < cfg.maxHarts
  boot : S.phase b = .primary st
  before : st ≠ .startOthers
  phases : ∀ h, h ≠ b → S.phase h = .parked ∨ S.phase h = .arrived ∨ S.phase h = .waiting
  queue : rqPushTail cfg (bootQueues cfg) b cfg.maxHarts = .ok r
  kernel : S.kernel = st.kernel cfg a b r fun h => (S.phase h).cpu h

/-- The harts agree with the kernel on how far each has come. -/
structure Booted (cfg : Config) (dtbPa : Nat → UInt64) (S : BootHarts) : Prop where
  dtb : S.dtb = dtbPa S.kernel.bootHartid
  done : S.kernel.smpBootDone = true
  boot : S.kernel.bootHartid < cfg.maxHarts
  primary : ∀ h next, S.phase h = .primary next → next = .startOthers ∧ S.kernel.bootHartid = h
  parked : ∀ h, S.phase h = .parked → (S.kernel.cpus h).online = false
  arrived : ∀ h, S.phase h ≠ .parked → S.phase h ≠ .idle → h < cfg.maxHarts ∧
    (S.kernel.cpus h).online = true ∧
    ((S.kernel.cpus h).curTf = .null ∨ (S.kernel.cpus h).curTf = .bootstrap)
  idle : ∀ h, S.phase h = .idle → Entered cfg S.kernel h

variable {S S' : BootHarts} {h b : Nat} {st : PrimaryStage} {r : RunQueues}

theorem move_phase_self (k : Kernel) (p : BootPhase) : (S.move h k p).phase h = p :=
  if_pos rfl

theorem move_phase_ne (k : Kernel) (p : BootPhase) {j : Nat} (hj : j ≠ h) :
    (S.move h k p).phase j = S.phase j :=
  if_neg hj

/-- The `cpu_t` of all harts after one of them has moved. -/
theorem move_cpus (k : Kernel) (p : BootPhase) :
    (fun j => ((S.move h k p).phase j).cpu j) =
      fun j => if j = h then p.cpu h else (S.phase j).cpu j := by
  funext j
  by_cases hj : j = h
  · rw [hj, move_phase_self, if_pos rfl]
  · rw [move_phase_ne k p hj, if_neg hj]

theorem move_range {k : Kernel} {p : BootPhase}
    (hr : ∀ j, S.phase j ≠ .parked → j < cfg.maxHarts) (hlt : h < cfg.maxHarts) (j : Nat)
    (hj : (S.move h k p).phase j ≠ .parked) : j < cfg.maxHarts := by
  by_cases hjh : j = h
  · exact hjh ▸ hlt
  · rw [move_phase_ne k p hjh] at hj
    exact hr j hj

/-- The boot hart is the only one to set the device tree. -/
theorem platformSetDtb_first (p : UInt64) : platformSetDtb 0 p = .ok p := by
  unfold platformSetDtb
  by_cases h : p = 0
  · rw [if_pos h, h]
  · rw [if_neg h, if_pos rfl]

theorem arrive_cases (hs : bootStep cfg a dtbPa S (.arrive h) = .ok S') :
    h < cfg.maxHarts ∧ S' = S.move h (S.kernel.modCpu h fun _ => bootCpu h) .arrived := by
  have hlt : h < cfg.maxHarts := by
    by_contra hge
    simp [bootStep, cpuInitThisHart, Nat.le_of_not_lt hge, bind, Except.bind] at hs
  refine ⟨hlt, ?_⟩
  simp only [bootStep, cpuInitThisHart_eq hlt, ok_bind, Except.ok.injEq] at hs
  exact hs.symm

theorem Electing.arrive (he : Electing cfg a S)
    (hs : bootStep cfg a dtbPa S (.arrive h) = .ok S') : Electing cfg a S' := by
  obtain ⟨hlt, rfl⟩ := arrive_cases hs
  refine ⟨he.dtb, move_range he.range hlt, fun j => ?_, ?_⟩
  · by_cases hj : j = h
    · exact .inr (hj ▸ move_phase_self _ _)
    · rw [move_phase_ne _ _ hj]
      exact he.phases j
  · rw [move_cpus]
    show S.kernel.modCpu h (fun _ => bootCpu h) = _
    rw [he.kernel]
    rfl

/-- The first compare-and-swap succeeds. -/
theorem Electing.swap (he : Electing cfg a S) (hp : S.phase h = .arrived)
    (hs : bootStep cfg a dtbPa S (.swap h) = .ok S') :
    ∃ r, Booting cfg a dtbPa h .platformInit r S' := by
  obtain ⟨r, hr⟩ := @rqPushTail_bootQueues cfg h
  have hfree : S.kernel.bootHartid = noBootHart := by rw [he.kernel]
  have hlt : h < cfg.maxHarts := he.range h (by rw [hp]; decide)
  simp only [bootStep, if_pos hfree, Except.ok.injEq] at hs
  subst hs
  refine ⟨r, he.dtb, move_range he.range hlt, move_phase_self _ _, by decide, fun j hj => ?_,
    hr, ?_⟩
  · rw [move_phase_ne _ _ hj]
    rcases he.phases j with hj' | hj'
    · exact .inl hj'
    · exact .inr (.inl hj')
  · rw [move_cpus]
    show ({ S.kernel with bootHartid := h } : Kernel) = _
    rw [he.kernel]
    have hcpus : (fun j => (S.phase j).cpu j) =
        fun j => if j = h then (BootPhase.primary .platformInit).cpu h else (S.phase j).cpu j := by
      funext j
      by_cases hj : j = h
      · rw [if_pos hj, hj, hp]
        rfl
      · rw [if_neg hj]
    rw [← hcpus]
    rfl

theorem stage_modCpu (st : PrimaryStage) (C : Nat → Cpu) (j : Nat) (f : Cpu → Cpu) :
    (st.kernel cfg a b r C).modCpu j f =
      st.kernel cfg a b r fun k => if k = j then f (C k) else C k := by
  cases st <;> rfl

theorem stage_bootHartid (st : PrimaryStage) (C : Nat → Cpu) :
    (st.kernel cfg a b r C).bootHartid = b := by
  cases st <;> rfl

theorem stage_smpBootDone (st : PrimaryStage) (C : Nat → Cpu) :
    (st.kernel cfg a b r C).smpBootDone = false := by
  cases st <;> rfl

namespace Booting

variable (hb : Booting cfg a dtbPa b st r S)

include hb

theorem boot_lt : b < cfg.maxHarts :=
  hb.range b (by rw [hb.boot]; nofun)

/-- Another hart moves to a phase with the `cpu_t` it now has. -/
theorem other {k : Kernel} {p : BootPhase} (hlt : h < cfg.maxHarts) (hne : h ≠ b)
    (hp : p = .parked ∨ p = .arrived ∨ p = .waiting)
    (hk : k = st.kernel cfg a b r fun j => if j = h then p.cpu h else (S.phase j).cpu j) :
    Booting cfg a dtbPa b st r (S.move h k p) where
  dtb := hb.dtb
  range := move_range hb.range hlt
  boot := by rw [move_phase_ne _ _ (Ne.symm hne), hb.boot]
  before := hb.before
  phases j hj := by
    by_cases hjh : j = h
    · rw [hjh, move_phase_self]
      exact hp
    · rw [move_phase_ne _ _ hjh]
      exact hb.phases j hj
  queue := hb.queue
  kernel := by rw [move_cpus]; exact hk

theorem arrive (hp : S.phase h = .parked) (hs : bootStep cfg a dtbPa S (.arrive h) = .ok S') :
    Booting cfg a dtbPa b st r S' := by
  obtain ⟨hlt, rfl⟩ := arrive_cases hs
  have hne : h ≠ b := by
    rintro rfl
    rw [hb.boot] at hp
    cases hp
  apply hb.other hlt hne (.inr (.inl rfl))
  rw [hb.kernel, stage_modCpu]
  rfl

/-- A later compare-and-swap finds the boot hart. -/
theorem swap (hmax : cfg.maxHarts ≤ noBootHart) (hp : S.phase h = .arrived)
    (hs : bootStep cfg a dtbPa S (.swap h) = .ok S') : Booting cfg a dtbPa b st r S' := by
  have htaken : S.kernel.bootHartid ≠ noBootHart := by
    rw [hb.kernel, stage_bootHartid]
    have hlt := hb.boot_lt
    omega
  have hne : h ≠ b := by
    rintro rfl
    rw [hb.boot] at hp
    cases hp
  simp only [bootStep, if_neg htaken, Except.ok.injEq] at hs
  subst hs
  apply hb.other (hb.range h (by rw [hp]; nofun)) hne (.inr (.inr rfl))
  rw [hb.kernel]
  congr 1
  funext j
  by_cases hj : j = h
  · rw [if_pos hj, hj, hp]
    rfl
  · rw [if_neg hj]

/-- The boot hart comes to the next stage. -/
theorem stage {k : Kernel} {dtb : UInt64} {next : PrimaryStage} (hn : next ≠ .startOthers)
    (hd : dtb = next.dtb (dtbPa b))
    (hk : k = next.kernel cfg a b r fun j =>
      if j = b then (BootPhase.primary next).cpu b else (S.phase j).cpu j) :
    Booting cfg a dtbPa b next r
      (({ S with dtb := dtb } : BootHarts).move b k (.primary next)) where
  dtb := hd
  range := move_range hb.range hb.boot_lt
  boot := move_phase_self _ _
  before := hn
  phases j hj := by
    rw [move_phase_ne _ _ hj]
    exact hb.phases j hj
  queue := hb.queue
  kernel := by rw [move_cpus]; exact hk

/-- The stages before the last one return and lead to the next, if there is a device tree. -/
theorem primary_stage (hst : st ≠ .setBootDone)
    (hdtb : st = .bootHartInit → dtbPa b ≠ 0 ∨ cfg.ndebug) :
    ∃ S' next, bootStep cfg a dtbPa S (.primary b) = .ok S' ∧
      Booting cfg a dtbPa b next r S' := by
  have hcur : S.kernel.cpus b = (BootPhase.primary st).cpu b := by
    rw [hb.kernel, ← hb.boot]
    cases st <;> rfl
  -- the `cpu_t` of the boot hart, where the stage does not touch it
  have hsame : ∀ next, (BootPhase.primary next).cpu b = (BootPhase.primary st).cpu b →
      (fun j => (S.phase j).cpu j) = fun j =>
        if j = b then (BootPhase.primary next).cpu b else (S.phase j).cpu j := by
    intro next hn
    funext j
    by_cases hj : j = b
    · rw [if_pos hj, hn, hj, hb.boot]
    · rw [if_neg hj]
  -- where it does, the stage maps it by `f`
  have hmod : ∀ (next : PrimaryStage) (f : Cpu → Cpu),
      (BootPhase.primary next).cpu b = f ((BootPhase.primary st).cpu b) →
      (fun j => if j = b then f ((S.phase j).cpu j) else (S.phase j).cpu j) = fun j =>
        if j = b then (BootPhase.primary next).cpu b else (S.phase j).cpu j := by
    intro next f hn
    funext j
    by_cases hj : j = b
    · rw [if_pos hj, if_pos hj, hn, hj, hb.boot]
    · rw [if_neg hj, if_neg hj]
  simp only [bootStep, hb.boot]
  have hkernel := hb.kernel
  have htree := hb.dtb
  cases st with
  | platformInit =>
    have hset : platformSetDtb S.dtb (dtbPa b) = .ok (dtbPa b) := by
      rw [htree]
      exact platformSetDtb_first _
    refine ⟨_, .bootHartInit, by rw [primaryStep, hset]; rfl, hb.stage nofun rfl ?_⟩
    rw [← hsame .bootHartInit rfl, hkernel]
    rfl
  | bootHartInit =>
    have hassert : assertOk cfg (S.dtb ≠ 0) "ASSERT failed: g_dtb != NULL" = .ok () := by
      rw [assertOk_eq_ok, htree]
      exact hdtb rfl
    refine ⟨_, .trapInit, by rw [primaryStep, hassert]; rfl, hb.stage nofun htree ?_⟩
    rw [← hsame .trapInit rfl, hkernel]
    rfl
  | trapInit =>
    refine ⟨_, .timeInit, rfl, hb.stage nofun htree ?_⟩
    rw [← hmod .timeInit (fun c => { c with curTf := .bootstrap }) rfl, hkernel, stage_modCpu]
    rfl
  | timeInit =>
    refine ⟨_, .threadsInit, rfl, hb.stage nofun htree ?_⟩
    rw [← hsame .threadsInit rfl, hkernel]
    rfl
  | threadsInit =>
    have hinit := @threadsInit_boot cfg a b S.kernel r hb.queue (by rw [hkernel]; rfl)
      (by rw [hkernel]; rfl) (by rw [hcur]; rfl) (by rw [hcur]; rfl)
    refine ⟨_, .setBootDone, by rw [primaryStep, hinit, ok_bind], hb.stage nofun htree ?_⟩
    rw [← hmod .setBootDone (fun c => { c with needResched := true }) rfl, hkernel]
    rfl
  | setBootDone => exact absurd rfl hst
  | startOthers => exact absurd rfl hb.before

/-- Setting the flag makes the harts' phases visible in the kernel. -/
theorem booted (hst : st = .setBootDone) :
    Booted cfg dtbPa (S.move b { S.kernel with smpBootDone := true } (.primary .startOthers)) := by
  have hlt := hb.boot_lt
  have hcpus : ∀ j, S.kernel.cpus j = (S.phase j).cpu j := by
    intro j
    rw [hb.kernel]
    cases st <;> rfl
  have hid : S.kernel.bootHartid = b := by rw [hb.kernel, stage_bootHartid]
  have hboot : S.phase b = .primary .setBootDone := by rw [hb.boot, hst]
  refine ⟨?_, rfl, ?_, ?_, ?_, ?_, ?_⟩
  · show S.dtb = dtbPa S.kernel.bootHartid
    rw [hb.dtb, hst, hid]
    rfl
  · show S.kernel.bootHartid < cfg.maxHarts
    rw [hid]
    exact hlt
  · -- the others are still before or in `wait_for_smp_boot_done`
    intro j next hj
    by_cases hjb : j = b
    · rw [hjb, move_phase_self] at hj
      cases hj
      exact ⟨rfl, hid.trans hjb.symm⟩
    · rw [move_phase_ne _ _ hjb] at hj
      rcases hb.phases j hjb with hp | hp | hp <;> rw [hp] at hj <;> cases hj
  · intro j hj
    have hjb : j ≠ b := by
      rintro rfl
      rw [move_phase_self] at hj
      cases hj
    rw [move_phase_ne _ _ hjb] at hj
    show (S.kernel.cpus j).online = false
    rw [hcpus, hj]
    rfl
  · intro j hj _
    refine ⟨move_range hb.range hlt j hj, ?_⟩
    show (S.kernel.cpus j).online = true ∧
      ((S.kernel.cpus j).curTf = .null ∨ (S.kernel.cpus j).curTf = .bootstrap)
    rw [hcpus]
    by_cases hjb : j = b
    · rw [hjb, hboot]
      exact ⟨rfl, .inr rfl⟩
    · rw [move_phase_ne _ _ hjb] at hj
      rcases hb.phases j hjb with hp | hp | hp
      · exact absurd hp hj
      · rw [hp]
        exact ⟨rfl, .inl rfl⟩
      · rw [hp]
        exact ⟨rfl, .inl rfl⟩
  · intro j hj
    by_cases hjb : j = b
    · rw [hjb, move_phase_self] at hj
      cases hj
    · rw [move_phase_ne _ _ hjb] at hj
      rcases hb.phases j hjb with hp | hp | hp <;> rw [hp] at hj <;> cases hj

/-- When the flag is set, the kernel is what `primary_main` computes after the harts that came
early. -/
theorem init (hst : st = .setBootDone) :
    (kernelSystem cfg).init { S.kernel with smpBootDone := true } := by
  have hcpus : (fun j => if j = b then (BootPhase.primary .startOthers).cpu b
      else if j ∈ (List.range cfg.maxHarts).filter fun j => S.phase j ≠ .parked ∧ j ≠ b then
        bootCpu j
      else {}) = fun j => (S.phase j).cpu j := by
    funext j
    by_cases hjb : j = b
    · rw [if_pos hjb, hjb, hb.boot, hst]
      rfl
    · rw [if_neg hjb]
      rcases hb.phases j hjb with hp | hp | hp
      · simp [hp, BootPhase.cpu]
      · have hjlt := hb.range j (by rw [hp]; nofun)
        simp [hp, hjb, hjlt, BootPhase.cpu]
      · have hjlt := hb.range j (by rw [hp]; nofun)
        simp [hp, hjb, hjlt, BootPhase.cpu]
  refine ⟨{ a with
    bootHart := b
    early := (List.range cfg.maxHarts).filter fun j => S.phase j ≠ .parked ∧ j ≠ b }, ?_⟩
  rw [primaryMain_boot hb.boot_lt hb.queue, hcpus, hb.kernel, hst]
  · rfl
  · intro j hj
    rw [List.mem_filter, List.mem_range] at hj
    exact hj.1

end Booting

/-! ## After `smp_boot_done` -/

/-- A trap keeps the two boot variables and the other harts' part of the boot. -/
theorem trap_boot {s s' : Kernel} {regs : Trapframe} {io : TrapInput} (hb : Basic cfg s)
    (hg : Allowed cfg s (.trap h regs io)) (hs : step cfg s (.trap h regs io) = .ok s') :
    s'.bootHartid = s.bootHartid ∧ s'.smpBootDone = s.smpBootDone ∧
      ∀ j, j ≠ h → SameCpu (s.cpus j) (s'.cpus j) := by
  have hact : ∀ {s₀ s₁ s₂ : Kernel} {act : Action}, Act cfg h s₀ act s₁ s₂ →
      s₂.smpBootDone = s₁.smpBootDone := by
    intro s₀ s₁ s₂ act ha
    cases ha with
    | quiet hq => exact hq.smpBootDone
    | wakeSleeper _ _ hw => exact (threadMakeRunnable_schedOnly hw).smpBootDone
    | wakeReader _ _ hw => exact (threadMakeRunnable_schedOnly hw).smpBootDone
    | wakeJoiner _ _ _ _ _ hw => exact (threadMakeRunnable_schedOnly hw).smpBootDone
    | create _ _ _ _ _ hw => exact (threadMakeRunnable_schedOnly hw).smpBootDone
    | deliver _ _ _ => exact (deliver_rest _ _).2.2.2.2
    | reclaim _ _ _ _ _ =>
      unfold recycleThread
      split_ifs <;> rfl
    | collect _ _ _ _ _ =>
      unfold recycleThread
      split_ifs <;> rfl
    | _ => rfl
  obtain ⟨s₁, hran⟩ := trap_ran
    (fun s₁ => s₁.bootHartid = s.bootHartid ∧ s₁.smpBootDone = s.smpBootDone) hb hg hs ⟨rfl, rfl⟩
    fun s₁ s₂ _ _ _ hp ha => ⟨ha.bootHartid.trans hp.1, (hact ha).trans hp.2⟩
  rcases hran.last with ⟨-, rq, next, rq', hsch⟩ | ⟨-, rfl⟩
  · have hrest := hsch.rest
    refine ⟨?_, ?_, fun j hj => ?_⟩
    · rw [hrest]
      exact hran.kept.1
    · rw [hrest]
      exact hran.kept.2
    · rw [hsch.cpus_ne hj]
      exact hran.sameCpu j
  · exact ⟨hran.kept.1, hran.kept.2, fun j _ => hran.sameCpu j⟩

/-- What `Booted` asks of a hart in phase `p`. -/
structure PhaseAgrees (cfg : Config) (k : Kernel) (h : Nat) (p : BootPhase) : Prop where
  primary : ∀ next, p = .primary next → next = .startOthers ∧ k.bootHartid = h
  parked : p = .parked → (k.cpus h).online = false
  arrived : p ≠ .parked → p ≠ .idle → h < cfg.maxHarts ∧ (k.cpus h).online = true ∧
    ((k.cpus h).curTf = .null ∨ (k.cpus h).curTf = .bootstrap)
  idle : p = .idle → Entered cfg k h

/-- Between `cpu_init_this_hart` and `cpu_enter_idle` the `cpu_t` stays as it is. -/
theorem PhaseAgrees.inBoot {k : Kernel} {p : BootPhase}
    (hp : p = .arrived ∨ p = .waiting ∨ p = .secondary ∨ p = .ready)
    (harr : h < cfg.maxHarts ∧ (k.cpus h).online = true ∧
      ((k.cpus h).curTf = .null ∨ (k.cpus h).curTf = .bootstrap)) : PhaseAgrees cfg k h p := by
  refine ⟨fun _ hc => ?_, fun hc => ?_, fun _ _ => harr, fun hc => ?_⟩
  · rcases hp with rfl | rfl | rfl | rfl <;> cases hc
  · rcases hp with rfl | rfl | rfl | rfl <;> cases hc
  · rcases hp with rfl | rfl | rfl | rfl <;> cases hc

theorem PhaseAgrees.entered {k : Kernel} (he : Entered cfg k h) : PhaseAgrees cfg k h .idle where
  primary _ hc := by cases hc
  parked hc := by cases hc
  arrived _ hi := absurd rfl hi
  idle _ := he

theorem Booted.agrees (hb : Booted cfg dtbPa S) (h : Nat) :
    PhaseAgrees cfg S.kernel h (S.phase h) :=
  ⟨hb.primary h, hb.parked h, hb.arrived h, hb.idle h⟩

/-- One hart moves, and the kernel keeps the others as they are. -/
theorem Booted.move (hb : Booted cfg dtbPa S) {k : Kernel} {p : BootPhase}
    (hdone : k.smpBootDone = S.kernel.smpBootDone) (hid : k.bootHartid = S.kernel.bootHartid)
    (hothers : ∀ j, j ≠ h → SameCpu (S.kernel.cpus j) (k.cpus j))
    (hself : PhaseAgrees cfg k h p) : Booted cfg dtbPa (S.move h k p) := by
  have hagree : ∀ j, PhaseAgrees cfg k j ((S.move h k p).phase j) := by
    intro j
    by_cases hj : j = h
    · rw [hj, move_phase_self]
      exact hself
    · obtain ⟨htf, hhart, hon, -, hidle⟩ := hothers j hj
      have hold := hb.agrees j
      rw [move_phase_ne _ _ hj]
      refine ⟨?_, ?_, ?_, fun hp => ?_⟩
      · rw [hid]
        exact hold.primary
      · rw [hon]
        exact hold.parked
      · rw [hon, htf]
        exact hold.arrived
      · have he := hold.idle hp
        unfold Entered at he ⊢
        rw [htf, hhart, hon, hidle]
        exact he
  have hdtb : S.dtb = dtbPa k.bootHartid := by rw [hid, hb.dtb]
  exact ⟨hdtb, hdone.trans hb.done, hid ▸ hb.boot, fun j => (hagree j).primary,
    fun j => (hagree j).parked, fun j => (hagree j).arrived, fun j => (hagree j).idle⟩

/-- A hart moves on without a write to the kernel. -/
theorem Booted.advance (hb : Booted cfg dtbPa S) {p q : BootPhase} (hp : S.phase h = p)
    (hpark : p ≠ .parked) (hidle : p ≠ .idle) (hq : q = .waiting ∨ q = .secondary ∨ q = .ready) :
    Booted cfg dtbPa (S.move h S.kernel q) := by
  apply hb.move rfl rfl (fun j _ => .refl _)
  exact .inBoot (.inr hq) (hb.arrived h (hp ▸ hpark) (hp ▸ hidle))

theorem Booted.allowed_enterIdle (hb : Booted cfg dtbPa S) (hg : BootAllowed S (.enterIdle h)) :
    Allowed cfg S.kernel (.enterIdle h) := by
  have hp : S.phase h = .ready := hg
  exact hb.arrived h (hp ▸ by decide) (hp ▸ by decide)

theorem Booted.step (hb : Booted cfg dtbPa S) (hmax : cfg.maxHarts ≤ noBootHart)
    (hr : Reachable (kernelSystem cfg) S.kernel) {e : BootEvent} (hg : BootAllowed S e)
    (hs : bootStep cfg a dtbPa S e = .ok S') :
    Booted cfg dtbPa S' ∧ ((bootLabel S e = none ∧ S'.kernel = S.kernel) ∨
      ∃ e', bootLabel S e = some e' ∧ Allowed cfg S.kernel e' ∧
        Ccos.step cfg S.kernel e' = .ok S'.kernel) := by
  have hbasic := basic_reachable hr
  cases e with
  | arrive h =>
    -- from here on `cpu_init_this_hart` is a step of the kernel
    have hoff := hb.parked h hg
    obtain ⟨hlt, rfl⟩ := arrive_cases hs
    refine ⟨?_, .inr ⟨.cpuInit h, if_pos hb.done, ⟨hlt, hoff⟩, cpuInitThisHart_eq hlt⟩⟩
    refine hb.move rfl rfl ?_ ?_
    · intro j hj
      rw [Kernel.modCpu_cpus, if_neg hj]
      exact .refl _
    · apply PhaseAgrees.inBoot (.inl rfl)
      rw [Kernel.modCpu_cpus, if_pos rfl]
      exact ⟨hlt, rfl, .inl rfl⟩
  | swap h =>
    have htaken : S.kernel.bootHartid ≠ noBootHart := by
      have hlt := hb.boot
      omega
    simp only [bootStep, if_neg htaken, Except.ok.injEq] at hs
    subst hs
    exact ⟨hb.advance hg (by decide) (by decide) (.inl rfl), .inl ⟨rfl, rfl⟩⟩
  | primary h =>
    obtain ⟨next, hp⟩ := hg
    obtain ⟨rfl, hid⟩ := hb.primary h next hp
    simp only [bootStep, hp, primaryStep, bind_eq_ok, Except.ok.injEq] at hs
    obtain ⟨-, -, rfl⟩ := hs
    exact ⟨hb.advance hp (by decide) (by decide) (.inr (.inr rfl)), .inl ⟨rfl, rfl⟩⟩
  | poll h =>
    simp only [bootStep, hb.done, if_true, Except.ok.injEq] at hs
    subst hs
    exact ⟨hb.advance hg (by decide) (by decide) (.inr (.inl rfl)), .inl ⟨rfl, rfl⟩⟩
  | secondary h =>
    simp only [bootStep, bind_eq_ok, Except.ok.injEq] at hs
    obtain ⟨-, -, rfl⟩ := hs
    exact ⟨hb.advance hg (by decide) (by decide) (.inr (.inr rfl)), .inl ⟨rfl, rfl⟩⟩
  | enterIdle h =>
    have hallowed := hb.allowed_enterIdle hg
    simp only [bootStep, bind_eq_ok, Except.ok.injEq] at hs
    obtain ⟨k, hk, rfl⟩ := hs
    obtain ⟨-, -, hid, hdone, -, -, -, -, -, hcpus, -⟩ := enterIdle_cases hk
    refine ⟨?_, .inr ⟨.enterIdle h, rfl, hallowed, hk⟩⟩
    apply hb.move hdone hid
    · intro j hj
      rw [hcpus j, if_neg hj]
      exact .refl _
    · exact .entered ((enterIdle_entered hbasic hallowed hk h).mpr (.inl rfl))
  | trap h regs io =>
    have hallowed : Allowed cfg S.kernel (.trap h regs io) := ⟨hb.idle h hg.1, hg.2⟩
    simp only [bootStep, bind_eq_ok, Except.ok.injEq] at hs
    obtain ⟨k, hk, rfl⟩ := hs
    obtain ⟨hid, hdone, hothers⟩ := trap_boot hbasic hallowed hk
    have hmove : ({ S with kernel := k } : BootHarts) = S.move h k .idle := by
      unfold BootHarts.move
      congr 1
      funext j
      by_cases hj : j = h
      · rw [if_pos hj, hj, hg.1]
      · rw [if_neg hj]
    refine ⟨?_, .inr ⟨.trap h regs io, rfl, hallowed, hk⟩⟩
    rw [hmove]
    exact hb.move hdone hid hothers
      (.entered (((trap_harts hbasic hallowed hk).1 h).mpr hallowed.1))

/-! ## Whole runs -/

/-- How far the boot has come; `evs` are the steps of `kernelSystem` among those it took. -/
inductive BootedTo (cfg : Config) (a : BootArgs) (dtbPa : Nat → UInt64) (evs : List Event)
    (S : BootHarts) : Prop
  | electing (hs : Electing cfg a S) (hno : evs = [])
  | booting {b : Nat} {st : PrimaryStage} {r : RunQueues} (hs : Booting cfg a dtbPa b st r S)
      (hno : evs = [])
  | booted (hs : Booted cfg dtbPa S) {tr : List (Kernel × Event)}
      (hr : Run (kernelSystem cfg) tr S.kernel) (hevs : tr.map Prod.snd = evs)

theorem Electing.step (he : Electing cfg a S) {e : BootEvent} (hg : BootAllowed S e)
    (hs : bootStep cfg a dtbPa S e = .ok S') :
    bootLabel S e = none ∧ (Electing cfg a S' ∨ ∃ b st r, Booting cfg a dtbPa b st r S') := by
  have hnot : S.kernel.smpBootDone = false := by
    rw [he.kernel]
    rfl
  have hphase : ∀ {h : Nat} {p : BootPhase}, S.phase h = p → p = .parked ∨ p = .arrived :=
    fun hp => hp ▸ he.phases _
  cases e with
  | arrive h => exact ⟨by simp [bootLabel, hnot], .inl (he.arrive hs)⟩
  | swap h =>
    obtain ⟨r, hb⟩ := he.swap hg hs
    exact ⟨rfl, .inr ⟨h, _, r, hb⟩⟩
  | primary h =>
    obtain ⟨next, hp⟩ := hg
    rcases hphase hp with hc | hc <;> cases hc
  | poll h => rcases hphase hg with hc | hc <;> cases hc
  | secondary h => rcases hphase hg with hc | hc <;> cases hc
  | enterIdle h => rcases hphase hg with hc | hc <;> cases hc
  | trap h regs io => rcases hphase hg.1 with hc | hc <;> cases hc

/-- Before the flag is set only the boot hart is past the compare-and-swap. -/
theorem Booting.primary_eq (hb : Booting cfg a dtbPa b st r S) {next : PrimaryStage}
    (hp : S.phase h = .primary next) : h = b := by
  by_contra hne
  rcases hb.phases h hne with hc | hc | hc <;> rw [hp] at hc <;> cases hc

theorem Booting.not_past (hb : Booting cfg a dtbPa b st r S) (h : Nat) :
    S.phase h ≠ .secondary ∧ S.phase h ≠ .ready ∧ S.phase h ≠ .idle := by
  by_cases hne : h = b
  · rw [hne, hb.boot]
    exact ⟨nofun, nofun, nofun⟩
  · rcases hb.phases h hne with hc | hc | hc <;> rw [hc] <;> exact ⟨nofun, nofun, nofun⟩

theorem Booting.step (hb : Booting cfg a dtbPa b st r S) (hmax : cfg.maxHarts ≤ noBootHart)
    {e : BootEvent} (hg : BootAllowed S e) (hs : bootStep cfg a dtbPa S e = .ok S') :
    bootLabel S e = none ∧ ((∃ st, Booting cfg a dtbPa b st r S') ∨
      (Booted cfg dtbPa S' ∧ (kernelSystem cfg).init S'.kernel)) := by
  have hnot : S.kernel.smpBootDone = false := by
    rw [hb.kernel, stage_smpBootDone]
  cases e with
  | arrive h => exact ⟨by simp [bootLabel, hnot], .inl ⟨st, hb.arrive hg hs⟩⟩
  | swap h => exact ⟨rfl, .inl ⟨st, hb.swap hmax hg hs⟩⟩
  | primary h =>
    obtain ⟨next, hp⟩ := hg
    obtain rfl := hb.primary_eq hp
    refine ⟨rfl, ?_⟩
    by_cases hst : st = .setBootDone
    · right
      have hdone : bootStep cfg a dtbPa S (.primary h) =
          .ok (S.move h { S.kernel with smpBootDone := true } (.primary .startOthers)) := by
        simp only [bootStep, hb.boot, hst]
        rfl
      rw [hdone, Except.ok.injEq] at hs
      subst hs
      exact ⟨hb.booted hst, hb.init hst⟩
    · left
      -- the stage that asserts it has a device tree has returned
      have hdtb : st = .bootHartInit → dtbPa h ≠ 0 ∨ cfg.ndebug := by
        rintro rfl
        simp only [bootStep, hb.boot, primaryStep, bind_eq_ok] at hs
        obtain ⟨⟨⟩, hassert, -⟩ := hs
        have hset : S.dtb = dtbPa h := hb.dtb
        rw [← hset]
        exact assertOk_eq_ok.mp hassert
      obtain ⟨S₁, next, hs₁, hb₁⟩ := hb.primary_stage hst hdtb
      rw [hs, Except.ok.injEq] at hs₁
      subst hs₁
      exact ⟨next, hb₁⟩
  | poll h =>
    simp only [bootStep, hnot, Except.ok.injEq] at hs
    exact ⟨rfl, .inl ⟨st, hs ▸ hb⟩⟩
  | secondary h => exact absurd hg (hb.not_past h).1
  | enterIdle h => exact absurd hg (hb.not_past h).2.1
  | trap h regs io => exact absurd hg.1 (hb.not_past h).2.2

theorem bootedTo_run (hmax : cfg.maxHarts ≤ noBootHart) {tr : List (BootHarts × BootEvent)}
    (hr : Run (bootSystem cfg a dtbPa) tr S) :
    BootedTo cfg a dtbPa (tr.filterMap fun p => bootLabel p.1 p.2) S := by
  induction hr with
  | @start S hi =>
    obtain ⟨hk, hdtb, hparked⟩ := hi
    refine .electing ⟨hdtb, fun h hp => absurd (hparked h) hp, fun h => .inl (hparked h), ?_⟩ rfl
    have hcpus : (fun h => (S.phase h).cpu h) = fun _ => {} := by
      funext h
      rw [hparked h]
      rfl
    rw [hk, hcpus]
    rfl
  | @step tr S S' e _ hg hstep ih =>
    cases ih with
    | electing hs hno =>
      obtain ⟨hlabel, hnext⟩ := hs.step hg hstep
      have hevs : ((S, e) :: tr).filterMap (fun p => bootLabel p.1 p.2) = [] := by
        simp only [List.filterMap_cons, hlabel, hno]
      rcases hnext with hs' | ⟨b, st, r, hs'⟩
      · exact .electing hs' hevs
      · exact .booting hs' hevs
    | booting hs hno =>
      obtain ⟨hlabel, hnext⟩ := hs.step hmax hg hstep
      have hevs : ((S, e) :: tr).filterMap (fun p => bootLabel p.1 p.2) = [] := by
        simp only [List.filterMap_cons, hlabel, hno]
      rcases hnext with ⟨st, hs'⟩ | ⟨hs', hinit⟩
      · exact .booting hs' hevs
      · exact .booted hs' (.start hinit) hevs.symm
    | booted hs hrun hevs =>
      obtain ⟨hs', hlast⟩ := hs.step hmax ⟨_, hrun⟩ hg hstep
      rcases hlast with ⟨hlabel, hk⟩ | ⟨e', hlabel, hg', hstep'⟩
      · refine .booted hs' (hk.symm ▸ hrun) ?_
        simp only [List.filterMap_cons, hlabel, hevs]
      · refine .booted hs' (hrun.step hg' hstep') ?_
        simp only [List.filterMap_cons, hlabel, List.map_cons, hevs]

/-- No step of the boot panics, for harts the kernel is built for and a device tree at every
hart. -/
theorem bootStep_returns (hmax : cfg.maxHarts ≤ noBootHart) (hdtb : ∀ h, dtbPa h ≠ 0)
    {evs : List Event} (hto : BootedTo cfg a dtbPa evs S) {e : BootEvent} (hg : BootAllowed S e)
    (hlt : ∀ h, e = .arrive h → h < cfg.maxHarts) (htrap : ∀ h regs io, e ≠ .trap h regs io) :
    ∃ S', bootStep cfg a dtbPa S e = .ok S' := by
  cases e with
  | arrive h =>
    simp only [bootStep, cpuInitThisHart_eq (hlt h rfl)]
    exact ⟨_, rfl⟩
  | swap h =>
    unfold bootStep
    dsimp only
    split
    · exact ⟨_, rfl⟩
    · exact ⟨_, rfl⟩
  | primary h =>
    obtain ⟨next, hp⟩ := hg
    cases hto with
    | electing hs _ => rcases hs.phases h with hc | hc <;> rw [hp] at hc <;> cases hc
    | booting hs _ =>
      obtain rfl := hs.primary_eq hp
      rw [hs.boot, BootPhase.primary.injEq] at hp
      -- the last stage returns by itself, the others by `primary_stage`
      by_cases hlast : next = .setBootDone
      · simp only [bootStep, hs.boot, hp, hlast, primaryStep]
        exact ⟨_, rfl⟩
      · rw [← hp] at hlast
        obtain ⟨S', next, hs', -⟩ := hs.primary_stage hlast fun _ => .inl (hdtb h)
        exact ⟨S', hs'⟩
    | booted hs _ _ =>
      obtain ⟨rfl, -⟩ := hs.primary h next hp
      have hboot : S.kernel.bootHartid ≠ noBootHart := by
        have hlt := hs.boot
        omega
      simp only [bootStep, hp, primaryStep]
      rw [assertOk_eq_ok.mpr (.inl hboot)]
      exact ⟨_, rfl⟩
  | poll h => exact ⟨_, rfl⟩
  | secondary h =>
    cases hto with
    | electing hs _ => rcases hs.phases h with hc | hc <;> rw [hg] at hc <;> cases hc
    | booting hs _ => exact absurd hg (hs.not_past h).1
    | booted hs _ _ =>
      have htree : S.dtb ≠ 0 := by
        rw [hs.dtb]
        exact hdtb _
      unfold bootStep
      rw [assertOk_eq_ok.mpr (.inl htree)]
      exact ⟨_, rfl⟩
  | enterIdle h =>
    cases hto with
    | electing hs _ => rcases hs.phases h with hc | hc <;> rw [hg] at hc <;> cases hc
    | booting hs _ => exact absurd hg (hs.not_past h).2.1
    | booted hs hrun _ =>
      have harr := hs.allowed_enterIdle hg
      have hid := ((basic_reachable ⟨_, hrun⟩).hartid h harr.1 harr.2.1).1
      simp only [bootStep, cpuEnterIdle, assertOk, harr.1, hid, true_or, if_true, ok_bind]
      exact ⟨_, rfl⟩
  | trap h regs io => exact absurd rfl (htrap h regs io)

instance (S : BootHarts) : (e : BootEvent) → Decidable (BootAllowed S e)
  | .arrive h => inferInstanceAs (Decidable (S.phase h = .parked))
  | .swap h => inferInstanceAs (Decidable (S.phase h = .arrived))
  | .primary h =>
    match hp : S.phase h with
    | .primary next => isTrue ⟨next, hp⟩
    | .parked | .arrived | .waiting | .secondary | .ready | .idle =>
      isFalse fun ⟨next, hn⟩ => by rw [hp] at hn; cases hn
  | .poll h => inferInstanceAs (Decidable (S.phase h = .waiting))
  | .secondary h => inferInstanceAs (Decidable (S.phase h = .secondary))
  | .enterIdle h => inferInstanceAs (Decidable (S.phase h = .ready))
  | .trap _ _ _ => inferInstanceAs (Decidable (_ ∧ _))

instance (cfg : Config) (a : BootArgs) (dtbPa : Nat → UInt64) (S : BootHarts) (e : BootEvent) :
    Decidable ((bootSystem cfg a dtbPa).guard S e) :=
  inferInstanceAs (Decidable (BootAllowed S e))

/-- Hart 1 arrives first and loses the compare-and-swap; it polls once too early. -/
def raceToBoot : List BootEvent :=
  [.arrive 1, .arrive 0, .swap 0, .primary 0, .primary 0, .swap 1, .primary 0, .poll 1, .primary 0,
    .primary 0, .primary 0, .poll 1, .secondary 1, .enterIdle 1,
    .trap 1 { scause := 0x8000000000000001 } {}, .primary 0]

/-- The harts before the first of them comes to `cpu_init_this_hart`. -/
def parkedHarts (a : BootArgs) : BootHarts where
  kernel := { bssKernel a with bootHartid := noBootHart }
  dtb := 0
  phase := fun _ => .parked

end Ccos
