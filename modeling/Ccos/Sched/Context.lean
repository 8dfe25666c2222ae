import Mathlib.Tactic
import Ccos.Kernel.Writes
import Ccos.Smp.Harts

/-!
# A thread finds its registers as it left them

The frame of a thread that is switched away from is touched by the kernel only to put a return value
into `a0`.  A thread that was interrupted has made no system call, so it resumes with every register
it had, whatever the other threads and harts did in the meantime.  That no pointer of a system call
leads to a frame is the assumption made with `Mem`.
-/

namespace Ccos

open Reasoning

variable {cfg : Config} {s s' : Kernel} {h : Nat}

/-! ## One trap -/

/-- The writes of a trap start from the kernel with the registers saved. -/
theorem trap_writes {regs : Trapframe} {io : TrapInput} (hb : Basic cfg s)
    (hg : Allowed cfg s (.trap h regs io)) (hs : step cfg s (.trap h regs io) = .ok s') :
    Writes cfg s h (trapAction cfg regs io) (saveRegs s h regs) s' := by
  obtain ⟨hrun, huser⟩ := trap_runAction hb hg hs
  refine @runAction_writes cfg s (saveRegs s h regs) s' h _ _ rfl rfl ?_ ?_ ?_ hrun
  · intro t hhit
    exact killHits_saveRegs.mp hhit
  · intro t ht
    rw [saveRegs_joinWaiter]
    exact hb.joinSelf t ht
  · intro hsys
    have hlow := (huser hsys).1
    show 0 ≤ (s.cpus h).currentTid
    omega

/-- A thread that the trap does not end keeps its registers, but for a return value. -/
theorem Write.keeps_frame {s₀ : Kernel} {a : Action} {u : Int} (hw : Write cfg s₀ h a s s')
    (hlives : terminated cfg s₀ h a ≠ some u) (ha : (s.threads u).Alive) :
    (s'.threads u).Alive ∧ ∃ v, (s'.threads u).tf = { (s.threads u).tf with a0 := v } := by
  -- a write to the thread itself, or to another one
  have hmod : ∀ (t : Int) (f : Thread → Thread),
      (t = u → (f (s.threads u)).Alive ∧
        ∃ v, (f (s.threads u)).tf = { (s.threads u).tf with a0 := v }) →
      ((s.modThread t f).threads u).Alive ∧
        ∃ v, ((s.modThread t f).threads u).tf = { (s.threads u).tf with a0 := v } := by
    intro t f hf
    rw [Kernel.modThread_threads]
    by_cases hu : u = t
    · rw [if_pos hu]
      exact hf hu.symm
    · rw [if_neg hu]
      exact ⟨ha, _, rfl⟩
  have hsame : ∀ s₁ : Kernel, s₁.threads = s.threads →
      (s₁.threads u).Alive ∧ ∃ v, (s₁.threads u).tf = { (s.threads u).tf with a0 := v } := by
    intro s₁ hs₁
    rw [hs₁]
    exact ⟨ha, _, rfl⟩
  cases hw with
  | other hth _ _ => exact hsame s' hth
  | thread t f hf =>
    refine hmod t f ?_
    rintro rfl
    exact ⟨hf.2.2 ha, _, hf.1⟩
  | setA0 t v _ => exact hmod t _ fun _ => ⟨ha, v, rfl⟩
  | clearWait w => exact hmod w _ fun _ => ⟨ha, _, rfl⟩
  | die t f ht _ =>
    refine hmod t f ?_
    rintro rfl
    exact absurd ht hlives
  | recycle t hz =>
    refine hmod t _ ?_
    rintro rfl
    exact absurd hz ha.2
  | create t stack entry arg name sstatus hu =>
    refine hmod t _ ?_
    rintro rfl
    exact absurd hu ha.1
  | wait t p _ => exact hmod _ _ fun _ => ⟨⟨nofun, nofun⟩, _, rfl⟩
  | pend buf len _ => exact hmod _ _ fun _ => ⟨⟨nofun, nofun⟩, _, rfl⟩
  | status t p v _ =>
    apply hsame
    unfold storeStatus
    split <;> rfl
  | deliver w v =>
    apply hsame
    unfold storeStatus
    split <;> rfl
  | take buf len _ => exact hsame _ rfl
  | feed => exact hsame _ rfl
  | served v claims _ => exact hmod _ _ fun _ => ⟨ha, v, rfl⟩
  | query call io _ =>
    apply hsame
    rw [runQuery_mem]
    rfl

/-- The thread lives, has the frame `f`, and no received character is for it. -/
structure Parked (a : Action) (u : Int) (f : Trapframe) (s : Kernel) : Prop where
  alive : (s.threads u).Alive
  frame : (s.threads u).tf = f
  notReader : ∀ claims, a = .external claims → s.stdinWaiter ≠ u

/-- An interrupt leaves the registers of every thread alone. -/
theorem Write.keeps_parked {s₀ : Kernel} {a : Action} {u : Int} {f : Trapframe} (h0 : 0 ≤ u)
    (hw : Write cfg s₀ h a s s') (hlives : terminated cfg s₀ h a ≠ some u)
    (hirq : a.isSyscall = false) (hp : Parked a u f s) : Parked a u f s' := by
  have hlive := (hw.keeps_frame hlives hp.alive).1
  have hmod : ∀ (t : Int) (g : Thread → Thread), s' = s.modThread t g →
      (t = u → (g (s.threads u)).tf = (s.threads u).tf) → Parked a u f s' := by
    rintro t g rfl hg
    refine ⟨hlive, ?_, hp.notReader⟩
    rw [Kernel.modThread_threads]
    by_cases hu : u = t
    · rw [if_pos hu, hg hu.symm]
      exact hp.frame
    · rw [if_neg hu]
      exact hp.frame
  have hsame : s'.threads = s.threads → s'.stdinWaiter = s.stdinWaiter → Parked a u f s' := by
    intro hth hreg
    refine ⟨hlive, ?_, ?_⟩
    · rw [hth]
      exact hp.frame
    · rw [hreg]
      exact hp.notReader
  cases hw with
  | other hth _ hreg =>
    refine ⟨hlive, by rw [hth]; exact hp.frame, fun claims ha => ?_⟩
    -- only a blocking `read` registers a reader
    rcases hreg with hreg | hreg | ⟨buf, len, hread⟩
    · rw [hreg]
      exact hp.notReader claims ha
    · rw [hreg]
      omega
    · rw [ha] at hread
      cases hread
  | thread t g hg =>
    refine hmod t g rfl ?_
    rintro rfl
    exact hg.1
  | setA0 t v hsys =>
    rw [hirq] at hsys
    cases hsys
  | clearWait w => exact hmod w _ rfl fun _ => rfl
  | die t g ht _ =>
    refine hmod t g rfl ?_
    rintro rfl
    exact absurd ht hlives
  | recycle t hz =>
    refine hmod t _ rfl ?_
    rintro rfl
    exact absurd hz hp.alive.2
  | create t stack entry arg name sstatus hu =>
    refine hmod t _ rfl ?_
    rintro rfl
    exact absurd hu hp.alive.1
  | wait t p _ => exact hmod _ _ rfl fun _ => rfl
  | pend buf len _ => exact hmod _ _ rfl fun _ => rfl
  | status t p v _ =>
    apply hsame
    · unfold storeStatus
      split <;> rfl
    · unfold storeStatus
      split <;> rfl
  | deliver w v =>
    apply hsame
    · unfold storeStatus
      split <;> rfl
    · unfold storeStatus
      split <;> rfl
  | take buf len _ => exact hsame rfl rfl
  | feed => exact hsame rfl rfl
  | served v claims ha =>
    refine hmod _ _ rfl fun hu => ?_
    exact absurd hu (hp.notReader claims ha)
  | query call io _ =>
    apply hsame
    · rw [runQuery_mem]
      rfl
    · rw [runQuery_mem]
      rfl

/-! ## Until the next trap of the thread -/

/-- Steps in which thread `t` neither traps nor is ended. -/
def LeavesAlone (cfg : Config) (t : Int) (s : Kernel) : Event → Prop
  | .trap h regs io =>
    (s.cpus h).currentTid ≠ t ∧ terminated cfg s h (trapAction cfg regs io) ≠ some t
  | _ => True

instance (cfg : Config) (t : Int) (s : Kernel) : (e : Event) → Decidable (LeavesAlone cfg t s e)
  | .cpuInit _ => inferInstanceAs (Decidable True)
  | .enterIdle _ => inferInstanceAs (Decidable True)
  | .trap _ _ _ => inferInstanceAs (Decidable (_ ∧ _))

/-- The trap of another thread keeps the frame up to a return value. -/
theorem trap_keeps_frame {regs : Trapframe} {io : TrapInput} {u : Int} (hb : Basic cfg s)
    (hg : Allowed cfg s (.trap h regs io)) (hs : step cfg s (.trap h regs io) = .ok s')
    (hlives : terminated cfg s h (trapAction cfg regs io) ≠ some u)
    (ha : (s.threads u).Alive) :
    (s'.threads u).Alive ∧
      ∃ v, (s'.threads u).tf = { ((saveRegs s h regs).threads u).tf with a0 := v } := by
  have hw := trap_writes hb hg hs
  clear hs
  have halive : ((saveRegs s h regs).threads u).Alive := by
    unfold Thread.Alive
    rw [saveRegs_state]
    exact ha
  induction hw with
  | refl => exact ⟨halive, _, rfl⟩
  | tail _ hlast ih =>
    obtain ⟨ha₁, v, hv⟩ := ih
    obtain ⟨ha₂, v', hv'⟩ := hlast.keeps_frame hlives ha₁
    exact ⟨ha₂, v', by rw [hv', hv]⟩

/-- An interrupted thread goes on or is queued. -/
theorem interrupted_state {regs : Trapframe} {io : TrapInput} (hb : Basic cfg s)
    (hg : Allowed cfg s (.trap h regs io)) (hs : step cfg s (.trap h regs io) = .ok s')
    (hirq : (trapAction cfg regs io).isSyscall = false)
    (hrun : (s.threads (s.cpus h).currentTid).state = .running) :
    (s'.threads (s.cpus h).currentTid).state = .running ∨
      (s'.threads (s.cpus h).currentTid).state = .runnable := by
  have hterm : ∀ t, terminated cfg s h (trapAction cfg regs io) ≠ some t := by
    intro t ht
    generalize trapAction cfg regs io = a at hirq ht
    cases a with
    | exit _ => cases hirq
    | kill _ => cases hirq
    | _ => cases ht
  have hcoll : ∀ t, collected cfg s h (trapAction cfg regs io) ≠ some t := by
    intro t ht
    generalize trapAction cfg regs io = a at hirq ht
    cases a with
    | join _ _ => cases hirq
    | detach _ => cases hirq
    | _ => cases ht
  -- up to `schedule` the thread stays `RUNNING`: interrupts wake others only
  have hkeep : ∀ s₁ s₂, (s₁.threads (s.cpus h).currentTid).state = .running →
      Act cfg h s (trapAction cfg regs io) s₁ s₂ →
      (s₂.threads (s.cpus h).currentTid).state = .running := by
    intro s₁ s₂ hst hact
    have hwake : ∀ {t : Int} {p : Nat}, (s₁.threads t).state ≠ .running →
        threadMakeRunnable cfg s₁ h t p = .ok s₂ →
        (s₂.threads (s.cpus h).currentTid).state = .running := by
      intro t p ht hmake
      have hne : (s.cpus h).currentTid ≠ t := fun heq => ht (heq ▸ hst)
      rw [threadMakeRunnable_threads hmake hne]
      exact hst
    cases hact with
    | quiet hq => exact ((hq.threads _).state).trans hst
    | slice _ _ => exact hst
    | wakeSleeper _ hsl hmake => exact hwake (by rw [hsl]; nofun) hmake
    | wakeReader _ hbl hmake => exact hwake (by rw [hbl]; nofun) hmake
    | clearReader _ => exact hst
    | create ha => rw [ha] at hirq; cases hirq
    | sleep ha => rw [ha] at hirq; cases hirq
    | wait ha => rw [ha] at hirq; cases hirq
    | block ha => rw [ha] at hirq; cases hirq
    | exit ha => rw [ha] at hirq; cases hirq
    | kill ha => rw [ha] at hirq; cases hirq
    | deliver hj =>
      obtain ⟨t, ht, -⟩ := hj
      exact absurd ht (hterm t)
    | wakeJoiner hj =>
      obtain ⟨t, ht, -⟩ := hj
      exact absurd ht (hterm t)
    | joinWaiter ht => exact absurd ht (hterm _)
    | detach ha => rw [ha] at hirq; cases hirq
    | reclaim ht => exact absurd ht (hterm _)
    | collect hc => exact absurd hc (hcoll _)
  obtain ⟨s₁, hran⟩ := trap_ran
    (fun s₁ => (s₁.threads (s.cpus h).currentTid).state = .running) hb hg hs hrun
    fun s₁ s₂ _ _ _ hst hact => hkeep s₁ s₂ hst hact
  have hsame := (hran.sameCpu h).2.2.2.1
  rcases hran.last with ⟨-, rq, next, rq', hsch⟩ | ⟨-, rfl⟩
  · have hleft : ((leftKernel cfg s₁ h rq).threads (s.cpus h).currentTid).state = .runnable := by
      rw [leftKernel_threads, hsame, if_pos rfl, leftThread_requeued (.inr hran.kept)]
      rfl
    rw [hsch.threads]
    by_cases hn : (s.cpus h).currentTid = next
    · rw [if_pos hn]
      exact .inl rfl
    · rw [if_neg hn]
      exact .inr hleft
  · exact .inl hran.kept

/-- The thread runs or is queued. -/
def Ready (s : Kernel) (u : Int) : Prop :=
  (s.threads u).state = .running ∨ (s.threads u).state = .runnable

theorem Ready.not {u : Int} {st : ThreadState} (hr : Ready s u) (hst : (s.threads u).state = st)
    (h1 : st ≠ .running) (h2 : st ≠ .runnable) : False := by
  rcases hr with hr | hr
  · exact h1 (hst.symm.trans hr)
  · exact h2 (hst.symm.trans hr)

theorem ready_bystands {regs : Trapframe} {io : TrapInput} {u : Int}
    (hset : Settled cfg s) (hro : ReaderOff cfg s) (hg : Allowed cfg s (.trap h regs io))
    (hc : NoStrayKill cfg s (.trap h regs io)) (h0 : 0 ≤ u) (hready : Ready s u)
    (hother : (s.cpus h).currentTid ≠ u)
    (hlives : terminated cfg s h (trapAction cfg regs io) ≠ some u) :
    Bystands cfg s h (trapAction cfg regs io) u := by
  obtain ⟨q, hs⟩ := hset.sched
  refine ⟨h0, fun hst => hready.not hst nofun nofun, Ne.symm hother, hlives, ?_, ?_, ?_, ?_⟩
  · rintro ⟨t, ht, rfl⟩
    have hwait := (joiner_of_terminated hs hset.exact.toJoinersWait hg.1 (NoStrayKill.safe hc) ht
      h0).2.1
    exact hready.not hwait nofun nofun
  · intro hcoll
    obtain ⟨-, -, hz, -⟩ := collected_cases hcoll
    exact hready.not hz nofun nofun
  · rintro - - ⟨hsl, -⟩
    exact hready.not hsl nofun nofun
  · rintro claims - rfl
    rcases (hro h0).2 with hst | hst
    · exact hready.not hst nofun nofun
    · exact hready.not hst nofun nofun

/-- A step of the others keeps the registers of a thread that could run, and the thread ready. -/
theorem ready_kept {e : Event} {u : Int} (hset : Settled cfg s) (hro : ReaderOff cfg s)
    (hg : Allowed cfg s e) (hc : NoStrayKill cfg s e) (hal : LeavesAlone cfg u s e)
    (hs : step cfg s e = .ok s') (h0 : 0 ≤ u) (hready : Ready s u) :
    Ready s' u ∧ (s'.threads u).tf = (s.threads u).tf := by
  cases e with
  | cpuInit k =>
    obtain ⟨-, c, -, -, -, -, -, rfl⟩ := cpuInit_cases hs
    exact ⟨hready, rfl⟩
  | enterIdle k =>
    obtain ⟨-, -, -, -, -, -, -, -, -, -, hth, -⟩ := enterIdle_cases hs
    unfold Ready
    rw [hth]
    by_cases hu : u = k
    · rw [if_pos hu]
      exact ⟨.inl rfl, rfl⟩
    · rw [if_neg hu]
      exact ⟨hready, rfl⟩
  | trap h regs io =>
    have hby := ready_bystands hset hro hg hc h0 hready hal.1 hal.2
    obtain ⟨w, d, hmarked⟩ := marked_eq cfg s h u (trapAction cfg regs io)
    unfold Ready
    rcases trap_bystander hset.basic hg hs hby with hsame | ⟨hsame, -⟩
    · rw [hsame, hmarked]
      exact ⟨hready, rfl⟩
    · rw [hsame]
      exact ⟨.inl rfl, by rw [hmarked]; rfl⟩

/-- A step of the others keeps the registers of a suspended thread up to a return value. -/
theorem alive_step {e : Event} {u : Int} (hb : Basic cfg s) (hg : Allowed cfg s e)
    (hal : LeavesAlone cfg u s e) (hs : step cfg s e = .ok s') (ha : (s.threads u).Alive) :
    (s'.threads u).Alive ∧ ∃ v, (s'.threads u).tf = { (s.threads u).tf with a0 := v } := by
  cases e with
  | cpuInit k =>
    obtain ⟨-, c, -, -, -, -, -, rfl⟩ := cpuInit_cases hs
    exact ⟨ha, _, rfl⟩
  | enterIdle k =>
    obtain ⟨-, -, -, -, -, -, -, -, -, -, hth, -⟩ := enterIdle_cases hs
    rw [hth]
    by_cases hu : u = k
    · rw [if_pos hu]
      exact ⟨⟨nofun, nofun⟩, _, rfl⟩
    · rw [if_neg hu]
      exact ⟨ha, _, rfl⟩
  | trap h regs io =>
    have hkeep := trap_keeps_frame hb hg hs hal.2 ha
    have hother : (saveRegs s h regs).threads u = s.threads u := by
      unfold saveRegs
      rw [Kernel.modThread_threads, if_neg (Ne.symm hal.1)]
    rw [hother] at hkeep
    exact hkeep

/-- Interrupts step over no instruction. -/
theorem trapFrame_interrupt {regs : Trapframe} {io : TrapInput} {cur : Int}
    (hirq : (trapAction cfg regs io).isSyscall = false)
    (hs : runAction cfg s h cur (trapAction cfg regs io) = .ok s') : trapFrame regs = regs := by
  unfold trapAction at hirq hs
  unfold trapFrame
  cases hk : trapKind regs.scause with
  | ecallU =>
    rw [hk] at hirq hs
    generalize syscallOf regs = call at hirq hs
    cases call with
    | unknown => cases hs
    | _ => cases hirq
  | breakpoint =>
    rw [hk] at hirq hs
    dsimp only at hirq hs
    split_ifs at hirq hs
    · cases hs
    · cases hirq
    · cases hirq
  | _ => rfl

/-- Whatever happens between a trap of a thread and its next one, the thread finds its registers as
the trap saved them, except for the return value of a system call; an interrupted thread finds all
of them unchanged. -/
theorem resumes_with_saved_registers {regs : Trapframe} {io : TrapInput} {s₁ : Kernel}
    {vs : List (Event × Kernel)}
    (hr : Reachable ((kernelSystem cfg).restrict (NoStrayKill cfg)) s)
    (hg : Allowed cfg s (.trap h regs io)) (hc : NoStrayKill cfg s (.trap h regs io))
    (hstep : step cfg s (.trap h regs io) = .ok s₁)
    (hlives : terminated cfg s h (trapAction cfg regs io) ≠ some (s.cpus h).currentTid)
    (hpath : Path ((kernelSystem cfg).restrict fun s₂ e =>
      NoStrayKill cfg s₂ e ∧ LeavesAlone cfg (s.cpus h).currentTid s₂ e) s₁ vs s') :
    (∃ v, (s'.threads (s.cpus h).currentTid).tf = { trapFrame regs with a0 := v }) ∧
    ((trapAction cfg regs io).isSyscall = false →
      (s'.threads (s.cpus h).currentTid).tf = regs) := by
  have hset := settled_reachable hr
  have hro := readerOff_reachable hr
  have hb := hset.basic
  obtain ⟨q, hsched⟩ := hset.sched
  have h0 := (Sched.cur_range hb.harts hg.1).1
  have hrun : (s.threads (s.cpus h).currentTid).state = .running := by
    rcases (hsched.cur h hg.1 (by simp)).1 with hrun | ⟨hdead, -⟩
    · exact hrun
    · exact hdead.elim
  have halive : (s.threads (s.cpus h).currentTid).Alive := by
    unfold Thread.Alive
    rw [hrun]
    exact ⟨nofun, nofun⟩
  have hsaved : ((saveRegs s h regs).threads (s.cpus h).currentTid).tf = trapFrame regs := by
    simp [saveRegs]
  have hr₁ : Reachable ((kernelSystem cfg).restrict (NoStrayKill cfg)) s₁ :=
    hr.next (e := .trap h regs io) ⟨hg, hc⟩ hstep
  -- the states on the way are reachable
  have hway : ∀ {vs s₂}, Path ((kernelSystem cfg).restrict fun s₂ e =>
      NoStrayKill cfg s₂ e ∧ LeavesAlone cfg (s.cpus h).currentTid s₂ e) s₁ vs s₂ →
      Reachable ((kernelSystem cfg).restrict (NoStrayKill cfg)) s₂ := by
    intro vs s₂ hp
    induction hp with
    | refl => exact hr₁
    | step _ hg₂ hs₂ ih => exact ih.next ⟨hg₂.1, hg₂.2.1⟩ hs₂
  constructor
  · have hall : (s'.threads (s.cpus h).currentTid).Alive ∧
        ∃ v, (s'.threads (s.cpus h).currentTid).tf = { trapFrame regs with a0 := v } := by
      induction hpath with
      | refl =>
        have hfirst := trap_keeps_frame hb hg hstep hlives halive
        rw [hsaved] at hfirst
        exact hfirst
      | step hp hg₂ hs₂ ih =>
        obtain ⟨ha₂, v, hv⟩ := ih
        have hb₂ := (settled_reachable (hway hp)).basic
        obtain ⟨ha₃, v', hv'⟩ := alive_step hb₂ hg₂.1 hg₂.2.2 hs₂ ha₂
        exact ⟨ha₃, v', by rw [hv', hv]⟩
    exact hall.2
  · intro hirq
    have hframe := trapFrame_interrupt hirq (trap_runAction hb hg hstep).1
    rw [hframe] at hsaved
    have hpark : Parked (trapAction cfg regs io) (s.cpus h).currentTid regs s₁ := by
      have hw := trap_writes hb hg hstep
      have hstart : Parked (trapAction cfg regs io) (s.cpus h).currentTid regs
          (saveRegs s h regs) := by
        refine ⟨?_, hsaved, fun claims _ hreg => ?_⟩
        · unfold Thread.Alive
          rw [saveRegs_state]
          exact halive
        · change s.stdinWaiter = (s.cpus h).currentTid at hreg
          have hst := (hro (hreg ▸ h0)).2
          rw [hreg, hrun] at hst
          rcases hst with hst | hst <;> cases hst
      clear hstep hpath hr₁ hway
      induction hw with
      | refl => exact hstart
      | tail _ hlast ih => exact hlast.keeps_parked h0 hlives hirq ih
    have hall : Ready s' (s.cpus h).currentTid ∧
        (s'.threads (s.cpus h).currentTid).tf = regs := by
      induction hpath with
      | refl => exact ⟨interrupted_state hb hg hstep hirq hrun, hpark.frame⟩
      | step hp hg₂ hs₂ ih =>
        obtain ⟨hready, hf⟩ := ih
        obtain ⟨hready', hf'⟩ := ready_kept (settled_reachable (hway hp))
          (readerOff_reachable (hway hp)) hg₂.1 hg₂.2.1 hg₂.2.2 hs₂ h0 hready
        exact ⟨hready', hf'.trans hf⟩
    exact hall.2

/-- The registers of `user_main` when its slice ends. -/
def busyRegs : Trapframe :=
  { s1 := 42, a0 := 7, sepc := 0x1004, scause := 0x8000000000000005 }

/-- `user_main` is preempted in favour of the thread it created, which yields at once. -/
theorem resumes_with_saved_registers_example : ∃ s s₁ s',
    Reachable ((kernelSystem oneHart).restrict (NoStrayKill oneHart)) s ∧
    step oneHart s (.trap 0 busyRegs {}) = .ok s₁ ∧ (s₁.cpus 0).currentTid = 2 ∧
    step oneHart s₁ (sysYield 0) = .ok s' ∧ (s'.cpus 0).currentTid = 1 ∧
    (s'.threads 1).tf = busyRegs := by
  obtain ⟨s, hr, hs⟩ := exists_reachable oneHart (NoStrayKill oneHart) bootOnHart0
    (startMain ++ sysCreate 0 :: List.replicate 4 (timerIrq 0))
    (fun s => decide ((s.cpus 0).currentTid = 1) &&
      (decide (NoStrayKill oneHart s (.trap 0 busyRegs {})) &&
        stepTo oneHart s (.trap 0 busyRegs {}) fun s₁ => decide ((s₁.cpus 0).currentTid = 2) &&
          (decide (NoStrayKill oneHart s₁ (sysYield 0) ∧ LeavesAlone oneHart 1 s₁ (sysYield 0)) &&
            stepTo oneHart s₁ (sysYield 0) fun s' => decide ((s'.cpus 0).currentTid = 1))))
    (by decide +kernel)
  simp only [Bool.and_eq_true, decide_eq_true_eq] at hs
  obtain ⟨hcur, hc, hstep⟩ := hs
  obtain ⟨s₁, hg, hs₁, hrest⟩ := exists_step hstep
  simp only [Bool.and_eq_true, decide_eq_true_eq] at hrest
  obtain ⟨hcur₁, hc₁, hstep₁⟩ := hrest
  obtain ⟨s', hg₁, hs', hcur'⟩ := exists_step hstep₁
  have hpath : Path ((kernelSystem oneHart).restrict fun s₂ e =>
      NoStrayKill oneHart s₂ e ∧ LeavesAlone oneHart (s.cpus 0).currentTid s₂ e) s₁
      [(sysYield 0, s')] s' := .step .refl ⟨hg₁, hcur ▸ hc₁⟩ hs'
  have hkept := (resumes_with_saved_registers hr hg hc hs₁ nofun hpath).2 rfl
  rw [hcur] at hkept
  exact ⟨s, s₁, s', hr, hs₁, hcur₁, hs', of_decide_eq_true hcur', hkept⟩

/-! ## Privilege -/

/-- The bits of `sstatus` that `sret` turns into the mode and the interrupt enable of the hart. -/
def modeBits : UInt64 := sstatusSpp ||| sstatusSpie

/-- The hart traps in the mode that `sret` has put it in: neither user code nor the idle loop, which
only enables interrupts, changes it. -/
def ModeKept (s : Kernel) : Event → Prop
  | .trap h regs _ =>
    regs.sstatus &&& modeBits = (s.threads (s.cpus h).currentTid).tf.sstatus &&& modeBits
  | _ => True

instance (s : Kernel) : (e : Event) → Decidable (ModeKept s e)
  | .cpuInit _ => inferInstanceAs (Decidable True)
  | .enterIdle _ => inferInstanceAs (Decidable True)
  | .trap _ _ _ => inferInstanceAs (Decidable (_ = _))

/-- User slots never return to supervisor mode, idle threads always do, with interrupts enabled. -/
structure Modes (cfg : Config) (s : Kernel) : Prop where
  user : ∀ t : Int, cfg.maxHarts ≤ t → (s.threads t).tf.sstatus &&& sstatusSpp = 0
  idle : ∀ t : Int, 0 ≤ t → t < cfg.maxHarts → (s.threads t).tf.sstatus &&& modeBits = modeBits

theorem and_or_distrib (x m c b : UInt64) :
    (x &&& m ||| c) &&& b = x &&& (m &&& b) ||| c &&& b := by
  apply UInt64.eq_of_toBitVec_eq
  simp only [UInt64.toBitVec_and, UInt64.toBitVec_or]
  ext i hi
  simp only [BitVec.getElem_and, BitVec.getElem_or]
  cases x.toBitVec[i] <;> cases m.toBitVec[i] <;> cases c.toBitVec[i] <;>
    cases b.toBitVec[i] <;> rfl

theorem initUserThread_spp (x : Thread) (stack entry arg : UInt64) (name : Option ThreadName)
    (sstatus : UInt64) :
    (initUserThread x stack entry arg name sstatus).tf.sstatus &&& sstatusSpp = 0 := by
  show (sstatus &&& ~~~(sstatusSpp ||| sstatusSie) ||| sstatusSpie) &&& sstatusSpp = 0
  rw [and_or_distrib, show ~~~(sstatusSpp ||| sstatusSie) &&& sstatusSpp = 0 by decide,
    show sstatusSpie &&& sstatusSpp = 0 by decide, UInt64.and_zero]
  rfl

theorem initIdleThread_modeBits (hid : Int) (idleMain sstatus : UInt64) (x : Thread) :
    (initIdleThread cfg hid idleMain sstatus x).tf.sstatus &&& modeBits = modeBits := by
  show (sstatus &&& ~~~(sstatusSpp ||| sstatusSie) ||| sstatusSpp ||| sstatusSpie) &&& modeBits = _
  rw [UInt64.or_assoc, and_or_distrib,
    show ~~~(sstatusSpp ||| sstatusSie) &&& modeBits = sstatusSpie by decide,
    show (sstatusSpp ||| sstatusSpie) &&& modeBits = modeBits by decide]
  apply UInt64.eq_of_toBitVec_eq
  simp only [UInt64.toBitVec_and, UInt64.toBitVec_or]
  ext i hi
  have hsub : sstatusSpie.toBitVec[i] = true → modeBits.toBitVec[i] = true := by
    have hall : sstatusSpie.toBitVec &&& modeBits.toBitVec = sstatusSpie.toBitVec := by decide
    intro hbit
    have hand := congrArg (fun v : BitVec 64 => v[i]) hall
    simp only [BitVec.getElem_and, hbit, Bool.true_and] at hand
    exact hand
  simp only [BitVec.getElem_and, BitVec.getElem_or]
  cases hbit : sstatusSpie.toBitVec[i] with
  | false => simp
  | true => simp [hsub hbit]

theorem Write.keeps_spp {s₀ : Kernel} {a : Action} (hw : Write cfg s₀ h a s s') {t : Int}
    (hs : (s.threads t).tf.sstatus &&& sstatusSpp = 0) :
    (s'.threads t).tf.sstatus &&& sstatusSpp = 0 := by
  have hmod : ∀ (u : Int) (f : Thread → Thread),
      (t = u → (f (s.threads t)).tf.sstatus &&& sstatusSpp = 0) →
      ((s.modThread u f).threads t).tf.sstatus &&& sstatusSpp = 0 := by
    intro u f hf
    rw [Kernel.modThread_threads]
    by_cases ht : t = u
    · rw [if_pos ht]
      exact hf ht
    · rw [if_neg ht]
      exact hs
  -- an exit status goes to user memory
  have hstatus : ∀ (p : UInt64) (v : Int), (storeStatus s p v).threads = s.threads := by
    intro p v
    unfold storeStatus
    split <;> rfl
  cases hw with
  | other hth _ _ =>
    rw [hth]
    exact hs
  | thread u f hf =>
    refine hmod u f ?_
    rintro rfl
    rw [hf.1]
    exact hs
  | die u f _ hf =>
    refine hmod u f ?_
    rintro rfl
    rw [hf.1]
    exact hs
  | recycle u _ => exact hmod u _ fun _ => UInt64.zero_and
  | create u stack entry arg name sstatus _ =>
    exact hmod u _ fun _ => initUserThread_spp _ stack entry arg name sstatus
  | setA0 u v _ => exact hmod u _ fun _ => hs
  | clearWait w => exact hmod w _ fun _ => hs
  | wait u p _ => exact hmod _ _ fun _ => hs
  | pend buf len _ => exact hmod _ _ fun _ => hs
  | served v claims _ => exact hmod _ _ fun _ => hs
  | status u p v _ =>
    rw [hstatus]
    exact hs
  | deliver w v =>
    rw [hstatus]
    exact hs
  | take buf len _ => exact hs
  | feed => exact hs
  | query call io _ =>
    rw [runQuery_mem]
    exact hs

theorem Writes.keeps_spp {s₀ : Kernel} {a : Action} (hw : Writes cfg s₀ h a s s') {t : Int}
    (hs : (s.threads t).tf.sstatus &&& sstatusSpp = 0) :
    (s'.threads t).tf.sstatus &&& sstatusSpp = 0 := by
  induction hw with
  | refl => exact hs
  | tail _ hlast ih => exact hlast.keeps_spp ih

theorem trapFrame_sstatus (regs : Trapframe) : (trapFrame regs).sstatus = regs.sstatus := by
  unfold trapFrame
  split <;> rfl

theorem modes_trap {regs : Trapframe} {io : TrapInput} (hb : Basic cfg s) (hm : Modes cfg s)
    (hg : Allowed cfg s (.trap h regs io)) (hk : ModeKept s (.trap h regs io))
    (hs : step cfg s (.trap h regs io) = .ok s') : Modes cfg s' := by
  -- the saved frame has the mode of the frame the thread was resumed with
  have hsaved : ∀ t, ((saveRegs s h regs).threads t).tf.sstatus &&& modeBits =
      (s.threads t).tf.sstatus &&& modeBits := by
    intro t
    unfold saveRegs
    rw [Kernel.modThread_threads]
    by_cases ht : t = (s.cpus h).currentTid
    · rw [if_pos ht, Thread.setTf_tf, trapFrame_sstatus, ht]
      exact hk
    · rw [if_neg ht]
  have hspp : ∀ x y : UInt64, x &&& modeBits = y &&& modeBits →
      x &&& sstatusSpp = y &&& sstatusSpp := by
    intro x y hxy
    have hpart : modeBits &&& sstatusSpp = sstatusSpp := by decide
    rw [← hpart, ← UInt64.and_assoc, ← UInt64.and_assoc, hxy]
  constructor
  · intro t ht
    have hstart : ((saveRegs s h regs).threads t).tf.sstatus &&& sstatusSpp = 0 := by
      rw [hspp _ _ (hsaved t)]
      exact hm.user t ht
    exact Writes.keeps_spp (trap_writes hb hg hs) hstart
  · intro t h0 hlt
    have hidle := hb.idle t h0 hlt
    have halive : (s.threads t).Alive := by
      unfold Thread.Alive
      rcases hidle.1 with hst | hst <;> rw [hst] <;> exact ⟨nofun, nofun⟩
    have hlives : terminated cfg s h (trapAction cfg regs io) ≠ some t := by
      intro hterm
      rcases terminated_cases hterm with ⟨code, ha, hcur⟩ | ⟨-, hhit⟩
      · have huser := ((trap_runAction hb hg hs).2 (by rw [ha]; rfl)).1
        omega
      · have hkill := hhit.2.2.2.1
        rw [hidle.2] at hkill
        cases hkill
    obtain ⟨-, v, hv⟩ := trap_keeps_frame hb hg hs hlives halive
    rw [hv]
    show ((saveRegs s h regs).threads t).tf.sstatus &&& modeBits = modeBits
    rw [hsaved]
    exact hm.idle t h0 hlt

theorem modes_init (hs : (kernelSystem cfg).init s) : Modes cfg s := by
  have hpos := cfg.maxHarts_pos
  obtain ⟨a, hs⟩ := hs
  unfold primaryMain at hs
  simp only [bind_eq_ok] at hs
  obtain ⟨s₁, hearly, s₂, hboot, s₃, hinit, hs⟩ := hs
  have he₂ := (cpuInit_early (early_fold hearly) hboot).1
  obtain ⟨tid, hcreate⟩ := threadsInit_cases hinit
  rw [Except.ok.injEq] at hs
  subst hs
  rw [he₂.1] at hcreate
  have huser : ∀ t : Int, cfg.maxHarts ≤ t →
      (bootTable cfg a t).tf.sstatus &&& sstatusSpp = 0 := by
    intro t ht
    have hnot : ¬ (0 ≤ t ∧ t < (cfg.maxHarts : Int)) := by omega
    unfold bootTable
    dsimp only
    rw [if_neg hnot]
    split <;> exact UInt64.zero_and
  have hidle : ∀ t : Int, 0 ≤ t → t < cfg.maxHarts →
      (bootTable cfg a t).tf.sstatus &&& modeBits = modeBits := by
    intro t h0 hlt
    unfold bootTable
    dsimp only
    rw [if_pos ⟨h0, hlt⟩]
    exact initIdleThread_modeBits t _ _ _
  rcases threadCreateUser_cases hcreate with ⟨-, rfl⟩ | ⟨-, -, hu, hmake⟩
  · exact ⟨huser, hidle⟩
  · have hwake : Writes cfg s₃ a.bootHart .ipi _ s₃ := Writes.makeRunnable hmake
    have hw := (Writes.one (.create _ tid _ _ _ _ _ hu)).trans hwake
    constructor
    · intro t ht
      exact Writes.keeps_spp hw (huser t ht)
    · intro t h0 hlt
      have hne : t ≠ tid := by
        rintro rfl
        have hslot := (@bootTable_slot cfg a t h0 (by have := cfg.maxHarts_lt; omega)).2.1
        rw [if_pos hlt] at hslot
        exact absurd (hslot.symm.trans hu) nofun
      show (s₃.threads t).tf.sstatus &&& modeBits = modeBits
      rw [threadMakeRunnable_threads hmake hne, Kernel.modThread_threads, if_neg hne]
      exact hidle t h0 hlt

/-- Whatever the threads do, a hart that returns from a trap is in supervisor mode exactly when it
runs its idle thread, and then with interrupts enabled. -/
theorem user_threads_unprivileged
    (hr : Reachable ((kernelSystem cfg).restrict ModeKept) s) :
    (∀ t : Int, cfg.maxHarts ≤ t → fromKernel (s.threads t).tf = false) ∧
    ∀ h, Entered cfg s h →
      (fromKernel (s.threads (s.cpus h).currentTid).tf = true ↔
        (s.cpus h).currentTid = (s.cpus h).idleTid) ∧
      ((s.cpus h).currentTid = (s.cpus h).idleTid →
        (s.threads (s.cpus h).currentTid).tf.sstatus &&& sstatusSpie ≠ 0) := by
  have hb := basic_reachable hr.unrestrict
  have hm : Modes cfg s := by
    have hboth : Basic cfg s ∧ Modes cfg s := by
      apply Reachable.invariant (fun s => Basic cfg s ∧ Modes cfg s) _ _ hr
      · intro s₁ hi
        exact ⟨basic_init hi, modes_init hi⟩
      rintro s₁ e s₂ ⟨hb₁, hm₁⟩ hg hs
      refine ⟨basic_step hb₁ hg.1 hs, ?_⟩
      cases e with
      | cpuInit k =>
        obtain ⟨-, c, -, -, -, -, -, rfl⟩ := cpuInit_cases hs
        exact ⟨hm₁.user, hm₁.idle⟩
      | enterIdle k =>
        obtain ⟨-, -, -, -, -, -, -, -, -, -, hth, -⟩ := enterIdle_cases hs
        have htf : ∀ t, (s₂.threads t).tf = (s₁.threads t).tf := by
          intro t
          rw [hth]
          split <;> rfl
        constructor
        · intro t ht
          rw [htf]
          exact hm₁.user t ht
        · intro t h0 hlt
          rw [htf]
          exact hm₁.idle t h0 hlt
      | trap h regs io => exact modes_trap hb₁ hm₁ hg.1 hg.2 hs
    exact hboth.2
  have huser : ∀ t : Int, cfg.maxHarts ≤ t → fromKernel (s.threads t).tf = false := by
    intro t ht
    unfold fromKernel
    rw [hm.user t ht]
    decide
  refine ⟨huser, fun h he => ?_⟩
  have hidleTid := he.2.2.2.1
  have hlt := he.1
  have hbits : (s.cpus h).currentTid = (s.cpus h).idleTid →
      (s.threads (s.cpus h).currentTid).tf.sstatus &&& modeBits = modeBits := by
    intro hi
    rw [hi, hidleTid]
    exact hm.idle h (by omega) (by omega)
  have hpart : ∀ {x b : UInt64}, x &&& modeBits = modeBits → modeBits &&& b = b →
      x &&& b = b := by
    intro x b hx hmb
    rw [← hmb, ← UInt64.and_assoc, hx]
  refine ⟨⟨fun hk => ?_, fun hi => ?_⟩, fun hi => ?_⟩
  · -- whoever is not the idle thread of the hart has a user slot
    by_contra hne
    rw [huser _ (hb.harts.cur_pos he hne).1] at hk
    cases hk
  · unfold fromKernel
    rw [hpart (hbits hi) (by decide)]
    decide
  · rw [hpart (hbits hi) (by decide)]
    decide

/-- A timer interrupt of the idle loop, then the system call of a user thread that creates
another. -/
theorem user_threads_unprivileged_example :
    ∃ s, Reachable ((kernelSystem oneHart).restrict ModeKept) s ∧ (s.cpus 0).currentTid = 1 ∧
      (s.threads 2).state = .runnable ∧ fromKernel (s.threads 1).tf = false ∧
      fromKernel (s.threads 2).tf = false := by
  obtain ⟨s, hr, hs⟩ := exists_reachable oneHart ModeKept bootOnHart0
    (.enterIdle 0 :: List.replicate 5
      (.trap 0 { sstatus := 0x120, scause := 0x8000000000000005 } {}) ++
      [.trap 0 { a0 := 4, a1 := 0x2000, sstatus := 0x20, scause := 8 } {}])
    (fun s => decide ((s.cpus 0).currentTid = 1 ∧ (s.threads 2).state = .runnable))
    (by decide +kernel)
  have huser := (user_threads_unprivileged hr).1
  obtain ⟨hcur, hst⟩ := of_decide_eq_true hs
  exact ⟨s, hr, hcur, hst, huser 1 (by decide), huser 2 (by decide)⟩

end Ccos
