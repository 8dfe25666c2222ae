import Mathlib.Tactic
import Ccos.Join.Exact
import Ccos.Kernel.Memory

/-!
# Exit codes reach one joiner

The lives of a slot are told apart by counting how often it was freed before.  Over the runs of
`Join.Exact`, one `join` at most returns 0 for one life, the step where it does frees the slot, and
what it stored is the code that life ended with.
-/

namespace Ccos

open Reasoning

variable {cfg : Config} {s s' : Kernel} {h : Nat}

/-! ## The lives of a slot -/

/-- The step frees the slot `t`. -/
def frees (t : Int) (x : Kernel × Event × Kernel) : Bool :=
  decide ((x.1.threads t).state ≠ .unused ∧ (x.2.2.threads t).state = .unused)

/-- How many lives of the slot `t` have ended before. -/
def incarnation (t : Int) (past : List (Kernel × Event × Kernel)) : Nat :=
  past.countP (frees t)

/-- The argument of `thread_sys_exit`, or `THREAD_EXITCODE_SIGKILL`. -/
def exitCodeOf : Action → Int
  | .exit code => code
  | _ => exitcodeSigkill

/-- The newest step terminates `t` with this exit code. -/
def Dies (cfg : Config) (t code : Int) : List (Kernel × Event × Kernel) → Prop
  | (s, .trap h regs io, _) :: _ =>
    terminated cfg s h (trapAction cfg regs io) = some t ∧
    code = exitCodeOf (trapAction cfg regs io)
  | _ => False

/-- Thread `w` called `join(t, p)` and has waited since, up to the start of the newest step. -/
inductive JoinCall (cfg : Config) (w t : Int) (p : UInt64) : List (Kernel × Event × Kernel) → Prop
  | call {s s' : Kernel} {h : Nat} {regs : Trapframe} {io : TrapInput}
      {past : List (Kernel × Event × Kernel)} : trapAction cfg regs io = .join t p →
      (s.cpus h).currentTid = w → JoinCall cfg w t p ((s, .trap h regs io, s') :: past)
  | wait {s s' : Kernel} {e : Event} {past : List (Kernel × Event × Kernel)} :
      JoinCall cfg w t p past → (s.threads w).state = .waiting →
      JoinCall cfg w t p ((s, e, s') :: past)

/-- With the newest step the call of `join(t, p)` by `w` yields `a0 = 0`. -/
def Yields (cfg : Config) (w t : Int) (p : UInt64) : List (Kernel × Event × Kernel) → Prop
  | [] => False
  | (s, e, s') :: past => JoinCall cfg w t p ((s, e, s') :: past) ∧
      (s'.threads w).state ≠ .waiting ∧ (s'.threads w).tf.a0 = 0

variable {past : List (Kernel × Event × Kernel)} {e : Event}

theorem incarnation_suffix {A : List (Kernel × Event × Kernel)} (hA : A <:+ past) (t : Int) :
    incarnation t A.tail ≤ incarnation t past :=
  ((List.tail_suffix A).trans hA).sublist.countP_le

theorem incarnation_freed {t : Int} (hu : (s.threads t).state ≠ .unused)
    (hu' : (s'.threads t).state = .unused) :
    incarnation t ((s, e, s') :: past) = incarnation t past + 1 :=
  List.countP_cons_of_pos (decide_eq_true ⟨hu, hu'⟩)

theorem incarnation_kept {t : Int} (hu' : (s'.threads t).state ≠ .unused) :
    incarnation t ((s, e, s') :: past) = incarnation t past :=
  List.countP_cons_of_neg fun hf => hu' (of_decide_eq_true hf).2

theorem dies_iff {t code : Int} : Dies cfg t code ((s, e, s') :: past) ↔
    ∃ now, stepEvent cfg s e = .terminate t code now := by
  cases e with
  | cpuInit h => exact ⟨False.elim, nofun⟩
  | enterIdle h => exact ⟨False.elim, nofun⟩
  | trap h regs io =>
    show (terminated cfg s h (trapAction cfg regs io) = some t ∧
      code = exitCodeOf (trapAction cfg regs io)) ↔
      ∃ now, joinEvent cfg s h (trapAction cfg regs io) = .terminate t code now
    constructor
    · rintro ⟨ht, rfl⟩
      rcases terminated_cases ht with ⟨code, ha, rfl⟩ | ⟨ha, hhit⟩
      · rw [ha]
        exact ⟨true, rfl⟩
      · rw [ha, joinEvent, if_pos hhit]
        exact ⟨_, rfl⟩
    · rintro ⟨now, hev⟩
      cases ha : trapAction cfg regs io with
      | exit c =>
        rw [ha] at hev
        cases hev
        exact ⟨rfl, rfl⟩
      | kill u =>
        rw [ha, joinEvent] at hev
        split at hev
        · rename_i hhit
          cases hev
          exact ⟨if_pos hhit, rfl⟩
        · cases hev
      | _ =>
        rw [ha] at hev
        first
          | cases hev
          | rw [joinEvent] at hev
            split_ifs at hev

/-- What is known of the lives of the slots after the steps `past`. -/
structure Lives (cfg : Config) (past : List (Kernel × Event × Kernel)) (s : Kernel) : Prop where
  once : ∀ {t code : Int} {A : List (Kernel × Event × Kernel)}, A <:+ past → Dies cfg t code A →
    incarnation t A.tail = incarnation t past → (s.threads t).state = .zombie
  dead : ∀ {t : Int}, 0 ≤ t → t < cfg.threadMax → (s.threads t).state = .zombie → ∃ A, A <:+ past ∧
    Dies cfg t (s.threads t).exitCode A ∧ incarnation t A.tail = incarnation t past
  calls : ∀ {w t : Int} {p : UInt64}, JoinCall cfg w t p past → (s.threads w).state = .waiting →
    (s.threads w).waitingFor = t ∧ (s.threads w).joinStatusPtr = p

section Step

variable (hs : Settled cfg s) (hg : Allowed cfg s e) (hc : NoStrayKill cfg s e)
  (hstep : step cfg s e = .ok s')

include hs hg hc hstep

theorem Lives.once_step (hl : Lives cfg past s) {t code : Int} {A : List (Kernel × Event × Kernel)}
    (hA : A <:+ (s, e, s') :: past) (hd : Dies cfg t code A)
    (hinc : incarnation t A.tail = incarnation t ((s, e, s') :: past)) :
    (s'.threads t).state = .zombie := by
  rcases List.suffix_cons_iff.mp hA with rfl | hA
  · obtain ⟨now, hev⟩ := dies_iff.mp hd
    obtain ⟨halive, hz | hu⟩ := hs.dies hg hc hstep hev
    · exact hz
    · -- freed at once: a new life has begun
      have hne : (s.threads t).state ≠ .unused := by
        intro heq
        rw [heq] at halive
        cases halive
      rw [incarnation_freed hne hu, List.tail_cons] at hinc
      omega
  · have hle := incarnation_suffix hA t
    by_cases hu : (s.threads t).state ≠ .unused ∧ (s'.threads t).state = .unused
    · rw [incarnation_freed hu.1 hu.2] at hinc
      omega
    · have hkeep : incarnation t ((s, e, s') :: past) = incarnation t past :=
        List.countP_cons_of_neg fun hf => hu (of_decide_eq_true hf)
      have hz := hl.once hA hd (hinc.trans hkeep)
      rcases hs.zombie_left hg hc hstep hz with hz' | hu'
      · exact hz'
      · exact absurd ⟨by rw [hz]; decide, hu'⟩ hu

theorem Lives.dead_step (hl : Lives cfg past s) {t : Int} (h1 : 0 ≤ t) (h2 : t < cfg.threadMax)
    (ht : (s'.threads t).state = .zombie) :
    ∃ A, A <:+ (s, e, s') :: past ∧ Dies cfg t (s'.threads t).exitCode A ∧
      incarnation t A.tail = incarnation t ((s, e, s') :: past) := by
  have hkeep : incarnation t ((s, e, s') :: past) = incarnation t past :=
    incarnation_kept (by rw [ht]; decide)
  rcases hs.zombie hg hc hstep ht with ⟨hz, hcode⟩ | ⟨-, hev⟩
  · obtain ⟨A, hA, hd, hinc⟩ := hl.dead h1 h2 hz
    rw [hcode, hkeep]
    exact ⟨A, hA.trans (List.suffix_cons _ _), hd, hinc⟩
  · exact ⟨(s, e, s') :: past, List.suffix_refl _, dies_iff.mpr ⟨true, hev⟩, hkeep.symm⟩

theorem Lives.calls_step (hl : Lives cfg past s) {w t : Int} {p : UInt64}
    (hcall : JoinCall cfg w t p ((s, e, s') :: past)) (hw' : (s'.threads w).state = .waiting) :
    (s'.threads w).waitingFor = t ∧ (s'.threads w).joinStatusPtr = p := by
  have hwait := hs.waiting hg hc hstep hw'
  cases hcall with
  | @call _ _ h regs io _ ha hcur =>
    obtain ⟨q, hsched⟩ := hs.sched
    have halive := hsched.cur_alive hg.1
    rw [hcur] at halive
    rcases hwait with ⟨hw, -, -⟩ | ⟨-, hev⟩
    · have hph : (s.slots w).phase = .waiting := phase_eq_waiting.mpr hw
      rw [hph] at halive
      cases halive
    · change joinEvent cfg s h (trapAction cfg regs io) = _ at hev
      rw [ha, joinEvent] at hev
      split_ifs at hev
      injection hev with hw ht hp
      exact ⟨ht.symm, hp.symm⟩
  | wait hcall hw =>
    rcases hwait with ⟨-, hfor, hptr⟩ | ⟨halive, -⟩
    · rw [hfor, hptr]
      exact hl.calls hcall hw
    · rw [hw] at halive
      cases halive

theorem Lives.next (hl : Lives cfg past s) : Lives cfg ((s, e, s') :: past) s' where
  once := hl.once_step hs hg hc hstep
  dead := hl.dead_step hs hg hc hstep
  calls := hl.calls_step hs hg hc hstep

end Step

theorem lives_init (hi : (kernelSystem cfg).init s) : Lives cfg [] s where
  once hA hd _ := by
    rw [List.suffix_nil.mp hA] at hd
    exact hd.elim
  dead h1 h2 hz := by
    rcases init_alive hi h1 h2 with hst | hst <;> rw [hz] at hst <;> cases hst
  calls hcall := nomatch hcall

theorem lives_run {tr : List (Kernel × Event)}
    (hr : Run ((kernelSystem cfg).restrict (NoStrayKill cfg)) tr s) : Lives cfg (steps tr s) s := by
  apply hr.history (Lives cfg)
  · exact fun s₁ hi => lives_init hi
  · intro tr s₁ e s₂ hrun hl hg hstep
    exact hl.next (settled_reachable ⟨tr, hrun⟩) hg.1 hg.2 hstep

/-! ## What a join stores -/

theorem storeStatus_mem (p : UInt64) (v : Int) : (storeStatus s p v).mem =
    if p ≠ 0 then storeBytes s.mem p (intBytes v) else s.mem := by
  unfold storeStatus
  split <;> rfl

theorem recycleThread_mem (t : Int) : (recycleThread cfg s t).mem = s.mem := by
  unfold recycleThread
  dsimp only
  split_ifs <;> rfl

theorem deliver_mem (w code : Int) : (deliver s w code).mem =
    if (s.threads w).joinStatusPtr ≠ 0 then
      storeBytes s.mem (s.threads w).joinStatusPtr (intBytes code)
    else s.mem :=
  storeStatus_mem _ code

theorem schedule_mem {s₁ : Kernel} {cur : Int} (hsch : schedule cfg s₁ h cur = .ok s')
    (hb : Basic cfg s) (he : Entered cfg s h) (hcpus : SameCpu (s.cpus h) (s₁.cpus h)) :
    s'.mem = s₁.mem := by
  obtain ⟨-, -, -, hcur, hid⟩ := hcpus
  have hok : (s₁.cpus h).currentTid ≠ (s₁.cpus h).idleTid →
      0 < (s₁.cpus h).currentTid ∧ (s₁.cpus h).currentTid < cfg.threadMax := by
    rw [hcur, hid]
    exact hb.cur_ok he
  obtain ⟨rq, next, rq', hsched⟩ := schedule_cases hok hsch
  rw [hsched.rest]

/-- `thread_sys_exit` stores the exit code for a waiting joiner. -/
theorem exit_mem {tf code w : Int} (hb : Basic cfg s) (he : Entered cfg s h)
    (hw : (s.threads (s.cpus h).currentTid).joinWaiter = w) (h0 : 0 ≤ w) (hlt : w < cfg.threadMax)
    (hs : threadSysExit cfg s h tf code = .ok s') :
    s'.mem = if (s.threads w).joinStatusPtr ≠ 0 then
        storeBytes s.mem (s.threads w).joinStatusPtr (intBytes code)
      else s.mem := by
  obtain ⟨s₁, hrel, hsch⟩ := threadSysExit_cases hs
  rcases hrel with ⟨-, -, s₀, hmake, rfl⟩ | ⟨hno, -⟩
  · rw [hw] at hmake
    have hsame : SameCpu (s.cpus h) (s₀.cpus h) := by
      have hsame := (threadMakeRunnable_sameHarts hmake).sameCpu h
      rw [deliver_cpus] at hsame
      exact hsame
    have hptr : ((exitCur s h tf code).threads w).joinStatusPtr = (s.threads w).joinStatusPtr := by
      show ((s.modThread (s.cpus h).currentTid (Thread.exit · (s.threads tf).tf code)).threads
        w).joinStatusPtr = _
      rw [Kernel.modThread_threads]
      split <;> rfl
    have hmem : s₀.mem = (deliver (exitCur s h tf code) w code).mem :=
      (threadMakeRunnable_schedOnly hmake).mem
    rw [schedule_mem hsch hb he (by rw [Kernel.modThread_cpus, recycleThread_cpus]; exact hsame)]
    show (recycleThread cfg s₀ (s.cpus h).currentTid).mem = _
    rw [recycleThread_mem, hmem, deliver_mem, hptr]
    rfl
  · rw [hw] at hno
    omega

/-- `thread_sys_kill` stores it for a waiting joiner of its victim. -/
theorem kill_mem {tf t w : Int} (hhit : KillHits cfg s h t) (hw : (s.threads t).joinWaiter = w)
    (h0 : 0 ≤ w) (hlt : w < cfg.threadMax) (hs : threadSysKill cfg s h tf t = .ok s') :
    s'.mem = if (s.threads w).joinStatusPtr ≠ 0 then
        storeBytes s.mem (s.threads w).joinStatusPtr (intBytes exitcodeSigkill)
      else s.mem := by
  rcases threadSysKill_cases hs with ⟨hno, -⟩ | ⟨-, hkill⟩
  · exact absurd hhit hno
  · obtain ⟨rq, s₁, -, hrel, rfl⟩ := killThread_cases hkill
    rw [hw] at hrel
    show s₁.mem = _
    rcases hrel with ⟨-, -, s₀, hmake, rfl⟩ | ⟨hneg, -⟩ | ⟨hge, -⟩
    · have hptr :
          ((killed cfg s h t rq).threads w).joinStatusPtr = (s.threads w).joinStatusPtr := by
        rw [killed, kickVictim_threads]
        show ((s.modThread t Thread.kill).threads w).joinStatusPtr = _
        rw [Kernel.modThread_threads]
        split <;> rfl
      have hkilled : (killed cfg s h t rq).mem = s.mem := (kickVictim_schedOnly t).mem
      have hmem : s₀.mem = (deliver (killed cfg s h t rq) w exitcodeSigkill).mem :=
        (threadMakeRunnable_schedOnly hmake).mem
      have hlast : (if (s₀.threads t).runningHart < 0 ∧ s₀.rq.onRq t = false then
          recycleThread cfg s₀ t else s₀.modThread t (Thread.setJoinWaiter · w)).mem = s₀.mem := by
        split
        · exact recycleThread_mem t
        · rfl
      rw [hlast, hmem, deliver_mem, hptr, hkilled]
    · omega
    · omega

/-- A thread dies and its joiner's pointer gets the exit code. -/
theorem terminated_mem {regs : Trapframe} {io : TrapInput} {t w : Int} (hb : Basic cfg s)
    (hg : Allowed cfg s (.trap h regs io)) (hstep : step cfg s (.trap h regs io) = .ok s')
    (ht : terminated cfg s h (trapAction cfg regs io) = some t)
    (hw : (s.threads t).joinWaiter = w) (h0 : 0 ≤ w) (hlt : w < cfg.threadMax) :
    s'.mem = if (s.threads w).joinStatusPtr ≠ 0 then
        storeBytes s.mem (s.threads w).joinStatusPtr
          (intBytes (exitCodeOf (trapAction cfg regs io)))
      else s.mem := by
  have hrun := (trap_runAction hb hg hstep).1
  have hptr := saveRegs_joinStatusPtr s h regs w
  rcases terminated_cases ht with ⟨code, ha, rfl⟩ | ⟨ha, hhit⟩
  · rw [ha] at hrun ⊢
    have hmem := exit_mem (hb.quiet (saveRegs_quiet s h regs)) hg.1
      ((saveRegs_joinWaiter s h regs _).trans hw) h0 hlt hrun
    rw [hptr] at hmem
    exact hmem
  · rw [ha] at hrun ⊢
    have hmem := kill_mem (killHits_saveRegs.mpr hhit)
      ((saveRegs_joinWaiter s h regs t).trans hw) h0 hlt hrun
    rw [hptr] at hmem
    exact hmem

/-- Exit codes are C `int`s. -/
theorem exitCodeOf_fits {regs : Trapframe} {io : TrapInput} :
    -2 ^ 31 ≤ exitCodeOf (trapAction cfg regs io) ∧
    exitCodeOf (trapAction cfg regs io) < 2 ^ 31 := by
  have hint : ∀ x : UInt64, -2 ^ 31 ≤ toInt32 x ∧ toInt32 x < 2 ^ 31 :=
    fun x => ⟨Int32.le_toInt _, Int32.toInt_lt _⟩
  cases ha : trapAction cfg regs io with
  | exit code =>
    show -2 ^ 31 ≤ code ∧ code < 2 ^ 31
    unfold trapAction at ha
    cases hk : trapKind regs.scause with
    | ecallU =>
      rw [hk] at ha
      unfold syscallOf at ha
      dsimp only at ha
      split at ha <;> cases ha
      exact hint _
    | breakpoint =>
      rw [hk] at ha
      dsimp only at ha
      split_ifs at ha
      cases ha
      exact ⟨by decide, by decide⟩
    | illegalInstr =>
      rw [hk] at ha
      dsimp only at ha
      split_ifs at ha
      cases ha
      exact ⟨by decide, by decide⟩
    | _ =>
      rw [hk] at ha
      cases ha
  | _ =>
    show -2 ^ 31 ≤ exitcodeSigkill ∧ exitcodeSigkill < 2 ^ 31
    exact ⟨by decide, by decide⟩

/-! ## Joins that return 0 -/

/-- The memory after `*(int *)p = code` for a `p` that may be null. -/
def Stored (s s' : Kernel) (p : UInt64) (code : Int) : Prop :=
  s'.mem = if p ≠ 0 then storeBytes s.mem p (intBytes code) else s.mem

theorem Stored.load {p : UInt64} {code : Int} (hst : Stored s s' p code) (h1 : -2 ^ 31 ≤ code)
    (h2 : code < 2 ^ 31) (hp : p ≠ 0) : loadInt s'.mem p = code := by
  rw [hst, if_pos hp]
  exact loadInt_intBytes s.mem p h1 h2

/-- A call of `join` that returns 0 at once collects a zombie. -/
theorem Settled.collects {regs : Trapframe} {io : TrapInput} {t : Int} {p : UInt64}
    (hs : Settled cfg s) (hg : Allowed cfg s (.trap h regs io))
    (hc : NoStrayKill cfg s (.trap h regs io)) (hstep : step cfg s (.trap h regs io) = .ok s')
    (ha : trapAction cfg regs io = .join t p)
    (hret : (s'.threads (s.cpus h).currentTid).state ≠ .waiting)
    (ha0 : (s'.threads (s.cpus h).currentTid).tf.a0 = 0) :
    JoinAccepts cfg s h t ∧ (s.threads t).state = .zombie ∧ (s'.threads t).state = .unused ∧
      Stored s s' p (s.threads t).exitCode := by
  have hrun := (trap_runAction hs.basic hg hstep).1
  obtain ⟨-, hslots⟩ := hs.event hg hc hstep
  change s'.slots = s.slots.apply (joinEvent cfg s h (trapAction cfg regs io)) at hslots
  rw [ha] at hrun hslots
  rcases threadSysJoin_cases hrun with ⟨-, v, hv, rfl⟩ | ⟨hacc, hz, hs'⟩ | ⟨hacc, hz, -⟩
  · -- refused: the error code is not 0
    refine absurd ?_ hv
    rw [← ha0]
    unfold Kernel.setA0
    rw [Kernel.modThread_threads, if_pos rfl]
    rfl
  · rw [joinAccepts_saveRegs] at hacc
    rw [saveRegs_state] at hz
    refine ⟨hacc, hz, ?_, ?_⟩
    · rw [joinEvent, if_pos hacc, if_pos hz] at hslots
      have hfree : s'.slots t = .free := by
        rw [hslots]
        exact Table.set_self _ _ _
      exact phase_eq_unused.mp (congrArg Slot.phase hfree)
    · unfold Stored
      rw [hs', saveRegs_exitCode]
      show (recycleThread cfg _ t).mem = _
      rw [recycleThread_mem, storeStatus_mem]
      rfl
  · -- the caller blocks
    rw [joinAccepts_saveRegs] at hacc
    rw [saveRegs_state] at hz
    rw [joinEvent, if_pos hacc, if_neg hz] at hslots
    refine absurd (phase_eq_waiting.mp ?_) hret
    show (s'.slots (s.cpus h).currentTid).phase = .waiting
    rw [hslots]
    show (s.slots.wait (s.cpus h).currentTid t p (s.cpus h).currentTid).phase = .waiting
    unfold Table.wait
    rw [Table.set_ne _ _ (Ne.symm hacc.2.2.1), Table.set_self]
    rfl

/-- The two ways in which the newest step makes a `join` of `t` by `w` return 0. -/
theorem Settled.yields {w t : Int} {p : UInt64} (hs : Settled cfg s) (hg : Allowed cfg s e)
    (hc : NoStrayKill cfg s e) (hstep : step cfg s e = .ok s') (hl : Lives cfg past s)
    (hy : Yields cfg w t p ((s, e, s') :: past)) :
    ((s.threads t).state ≠ .unused ∧ (s'.threads t).state = .unused) ∧
    ((∃ h regs io, e = .trap h regs io ∧ trapAction cfg regs io = .join t p ∧
        (s.cpus h).currentTid = w ∧ 0 < t ∧ t < cfg.threadMax ∧ (s.threads t).state = .zombie ∧
        Stored s s' p (s.threads t).exitCode) ∨
      (∃ code, stepEvent cfg s e = .terminate t code true ∧ (s.threads t).state.phase = .alive ∧
        (s.threads t).joinWaiter = w ∧ (s.threads w).joinStatusPtr = p ∧ Stored s s' p code)) := by
  obtain ⟨hcall, hret, ha0⟩ := hy
  cases hcall with
  | @call _ _ h regs io _ ha hcur =>
    subst hcur
    obtain ⟨hacc, hz, hu, hst⟩ := hs.collects hg hc hstep ha hret ha0
    exact ⟨⟨hacc.2.2.2.1, hu⟩, .inl ⟨h, regs, io, rfl, ha, rfl, hacc.1, hacc.2.1, hz, hst⟩⟩
  | wait hcall hw =>
    obtain ⟨rfl, rfl⟩ := hl.calls hcall hw
    obtain ⟨⟨code, hev⟩, h0, hjoin, halive, hu⟩ := hs.released hg hc hstep hw hret
    have hused : (s.threads (s.threads w).waitingFor).state ≠ .unused := by
      intro heq
      rw [heq] at halive
      cases halive
    refine ⟨⟨hused, hu⟩, .inr ⟨code, hev, halive, hjoin, rfl, ?_⟩⟩
    have hd : Dies cfg (s.threads w).waitingFor code ((s, e, s') :: past) :=
      dies_iff.mpr ⟨true, hev⟩
    cases e with
    | cpuInit h => exact hd.elim
    | enterIdle h => exact hd.elim
    | trap h regs io =>
      obtain ⟨ht, rfl⟩ := hd
      obtain ⟨q, hsched⟩ := hs.sched
      have hlt := (joiner_of_terminated hsched hs.exact.toJoinersWait hg.1 (NoStrayKill.safe hc) ht
        (by rw [hjoin]; exact h0)).1
      rw [hjoin] at hlt
      exact terminated_mem hs.basic hg hstep ht hjoin h0 hlt

/-- One step makes one `join` of `t` return 0. -/
theorem Settled.yields_unique {w w' t : Int} {p p' : UInt64} (hs : Settled cfg s)
    (hg : Allowed cfg s e) (hc : NoStrayKill cfg s e) (hstep : step cfg s e = .ok s')
    (hl : Lives cfg past s) (hy : Yields cfg w t p ((s, e, s') :: past))
    (hy' : Yields cfg w' t p' ((s, e, s') :: past)) : w = w' ∧ p = p' := by
  obtain ⟨-, hcase⟩ := hs.yields hg hc hstep hl hy
  obtain ⟨-, hcase'⟩ := hs.yields hg hc hstep hl hy'
  rcases hcase with ⟨h, regs, io, rfl, ha, rfl, -, -, hz, -⟩ | ⟨code, -, halive, rfl, rfl, -⟩
  · rcases hcase' with ⟨h', regs', io', heq, ha', rfl, -, -, -, -⟩ | ⟨code', -, halive', -, -, -⟩
    · cases heq
      rw [ha] at ha'
      cases ha'
      exact ⟨rfl, rfl⟩
    · rw [hz] at halive'
      cases halive'
  · rcases hcase' with ⟨h', regs', io', -, -, -, -, -, hz, -⟩ | ⟨code', -, -, rfl, rfl, -⟩
    · rw [hz] at halive
      cases halive
    · exact ⟨rfl, rfl⟩

/-- The code that a `join` returning 0 has stored is the exit code of the life that ends. -/
theorem Settled.reports {w t : Int} {p : UInt64} (hs : Settled cfg s) (hg : Allowed cfg s e)
    (hc : NoStrayKill cfg s e) (hstep : step cfg s e = .ok s') (hl : Lives cfg past s)
    (hy : Yields cfg w t p ((s, e, s') :: past)) :
    ∃ A code, A <:+ (s, e, s') :: past ∧ Dies cfg t code A ∧
      incarnation t A.tail = incarnation t past ∧ (p ≠ 0 → loadInt s'.mem p = code) := by
  have hfits : ∀ {A : List (Kernel × Event × Kernel)} {code : Int}, Dies cfg t code A →
      -2 ^ 31 ≤ code ∧ code < 2 ^ 31 := by
    intro A code hd
    cases A with
    | nil => exact hd.elim
    | cons x A =>
      obtain ⟨s₁, e₁, s₂⟩ := x
      cases e₁ with
      | cpuInit h => exact hd.elim
      | enterIdle h => exact hd.elim
      | trap h regs io =>
        rw [hd.2]
        exact exitCodeOf_fits
  rcases (hs.yields hg hc hstep hl hy).2 with
    ⟨h, regs, io, -, -, -, h1, h2, hz, hst⟩ | ⟨code, hev, -, -, -, hst⟩
  · obtain ⟨A, hA, hd, hinc⟩ := hl.dead h1.le h2 hz
    exact ⟨A, _, hA.trans (List.suffix_cons _ _), hd, hinc, hst.load (hfits hd).1 (hfits hd).2⟩
  · have hd : Dies cfg t code ((s, e, s') :: past) := dies_iff.mpr ⟨true, hev⟩
    exact ⟨_, code, List.suffix_refl _, hd, rfl, hst.load (hfits hd).1 (hfits hd).2⟩

/-- Joining a zombie succeeds. -/
theorem Settled.join_zombie {regs : Trapframe} {io : TrapInput} {t : Int} {p : UInt64}
    (hs : Settled cfg s) (h1 : 0 ≤ t) (h2 : t < cfg.threadMax) (hz : (s.threads t).state = .zombie)
    (hg : Allowed cfg s (.trap h regs io)) (ha : trapAction cfg regs io = .join t p)
    (hne : (s.cpus h).currentTid ≠ t) :
    ∃ s', step cfg s (.trap h regs io) = .ok s' ∧ (s'.threads (s.cpus h).currentTid).tf.a0 = 0 := by
  have hpos : 0 < t := by
    have hmax := cfg.maxHarts_pos
    by_contra hneg
    rcases (hs.basic.idle t h1 (by omega)).1 with hst | hst <;> rw [hz] at hst <;> cases hst
  obtain ⟨hjw, hdet⟩ := hs.exact.dead t h1 h2 (phase_eq_zombie.mpr hz)
  change (s.threads t).joinWaiter = -1 at hjw
  change (s.threads t).detached = false at hdet
  have hstep : step cfg s (.trap h regs io) =
      threadSysJoin cfg (saveRegs s h regs) h (s.cpus h).currentTid t p := by
    show trapEntry cfg s h regs io = _
    rw [trapEntry_eq (hs.basic.harts.curTf h hg.1), ha]
    rfl
  have hjoin : threadSysJoin cfg (saveRegs s h regs) h (s.cpus h).currentTid t p =
      .ok ((recycleThread cfg (storeStatus (saveRegs s h regs) p (s.threads t).exitCode) t).setA0
        (s.cpus h).currentTid 0) := by
    unfold threadSysJoin
    dsimp only
    rw [saveRegs_cpus, saveRegs_state, saveRegs_detached, saveRegs_joinWaiter, saveRegs_exitCode,
      if_neg (by omega), if_neg (Ne.symm hne), if_neg (by rw [hz]; decide),
      if_neg (by rw [hdet]; decide),
      if_pos hz, if_neg (by omega)]
  refine ⟨_, hstep.trans hjoin, ?_⟩
  unfold Kernel.setA0
  rw [Kernel.modThread_threads, if_pos rfl]
  rfl

/-- Of two steps of one run the later one has the earlier one in its past. -/
theorem suffix_cases {A B tr : List (Kernel × Event × Kernel)} (hA : A <:+ tr) (hB : B <:+ tr) :
    A = B ∨ A <:+ B.tail ∨ B <:+ A.tail := by
  have hstrict : ∀ {A B : List (Kernel × Event × Kernel)}, A <:+ B → A = B ∨ A <:+ B.tail := by
    intro A B hAB
    cases B with
    | nil => exact .inl (List.suffix_nil.mp hAB)
    | cons x B => exact List.suffix_cons_iff.mp hAB
  rcases List.suffix_or_suffix_of_suffix hA hB with hAB | hBA
  · rcases hstrict hAB with heq | hlt
    · exact .inl heq
    · exact .inr (.inl hlt)
  · rcases hstrict hBA with heq | hlt
    · exact .inl heq.symm
    · exact .inr (.inr hlt)

section Run

variable {tr : List (Kernel × Event)}
  (hr : Run ((kernelSystem cfg).restrict (NoStrayKill cfg)) tr s)

include hr

/-- The state in which the newest step of `A` started. -/
theorem run_step {s₁ s₂ : Kernel} (hA : (s₁, e, s₂) :: past <:+ steps tr s) :
    Settled cfg s₁ ∧ Allowed cfg s₁ e ∧ NoStrayKill cfg s₁ e ∧ step cfg s₁ e = .ok s₂ ∧
      Lives cfg past s₁ := by
  obtain ⟨tr', rfl, hrun, hg, hstep⟩ := hr.suffix hA
  exact ⟨settled_reachable ⟨tr', hrun⟩, hg.1, hg.2, hstep, lives_run hrun⟩

/-- A life ends after its last `join` that returns 0. -/
theorem yields_past {w t : Int} {p : UInt64} {A B : List (Kernel × Event × Kernel)}
    (hA : A <:+ steps tr s) (hy : Yields cfg w t p A) (hlt : A <:+ B.tail) :
    incarnation t A.tail < incarnation t B.tail := by
  cases A with
  | nil => exact hy.elim
  | cons x A =>
    obtain ⟨s₁, e₁, s₂⟩ := x
    obtain ⟨hs, hg, hc, hstep, hl⟩ := run_step hr hA
    obtain ⟨⟨hu, hu'⟩, -⟩ := hs.yields hg hc hstep hl hy
    have hinc : incarnation t ((s₁, e₁, s₂) :: A) = incarnation t A + 1 := incarnation_freed hu hu'
    have hle : incarnation t ((s₁, e₁, s₂) :: A) ≤ incarnation t B.tail := hlt.sublist.countP_le
    show incarnation t A < incarnation t B.tail
    omega

/-- A slot dies once in each of its lives. -/
theorem dies_past {t c c' : Int} {A B : List (Kernel × Event × Kernel)} (hB : B <:+ steps tr s)
    (hd : Dies cfg t c A) (hd' : Dies cfg t c' B) (hlt : A <:+ B.tail) :
    incarnation t A.tail ≠ incarnation t B.tail := by
  cases B with
  | nil => exact hd'.elim
  | cons x B =>
    obtain ⟨s₁, e₁, s₂⟩ := x
    obtain ⟨hs, hg, hc, hstep, hl⟩ := run_step hr hB
    obtain ⟨now, hev⟩ := dies_iff.mp hd'
    intro hinc
    have hz := hl.once hlt hd hinc
    have halive := (hs.dies hg hc hstep hev).1
    rw [hz] at halive
    cases halive

end Run

theorem Dies.code_eq {t c c' : Int} {A : List (Kernel × Event × Kernel)} (hd : Dies cfg t c A)
    (hd' : Dies cfg t c' A) : c = c' := by
  cases A with
  | nil => exact hd.elim
  | cons x A =>
    obtain ⟨s₁, e₁, s₂⟩ := x
    obtain ⟨now, hev⟩ := dies_iff.mp hd
    obtain ⟨now', hev'⟩ := dies_iff.mp hd'
    rw [hev] at hev'
    cases hev'
    rfl

/-- In every run where no kill hits a thread that waits in `join` or that another hart executes: a
slot dies once in each of its lives; at most one `join` returns 0 for one life; the step where it
does frees the slot, and a non-null pointer it passed then holds the code that life ended with; and
a zombie has neither a joiner nor is it detached, so that any other thread can join it. -/
theorem exit_code_reported_once (cfg : Config) {tr : List (Kernel × Event)} {s : Kernel}
    (hr : Run ((kernelSystem cfg).restrict (NoStrayKill cfg)) tr s) :
    (∀ t c c' A B, A <:+ steps tr s → B <:+ steps tr s → Dies cfg t c A → Dies cfg t c' B →
      incarnation t A.tail = incarnation t B.tail → A = B ∧ c = c') ∧
    (∀ t w w' p p' A B, A <:+ steps tr s → B <:+ steps tr s → Yields cfg w t p A →
      Yields cfg w' t p' B → incarnation t A.tail = incarnation t B.tail →
      A = B ∧ w = w' ∧ p = p') ∧
    (∀ w t p s₁ e s₂ past, (s₁, e, s₂) :: past <:+ steps tr s →
      Yields cfg w t p ((s₁, e, s₂) :: past) →
      ((s₁.threads t).state ≠ .unused ∧ (s₂.threads t).state = .unused) ∧
      ∃ A code, A <:+ (s₁, e, s₂) :: past ∧ Dies cfg t code A ∧
        incarnation t A.tail = incarnation t past ∧ (p ≠ 0 → loadInt s₂.mem p = code)) ∧
    (∀ t : Int, 0 ≤ t → t < cfg.threadMax → (s.threads t).state = .zombie →
      (s.threads t).joinWaiter = -1 ∧ (s.threads t).detached = false ∧
      ∀ h regs io p, Allowed cfg s (.trap h regs io) → trapAction cfg regs io = .join t p →
        (s.cpus h).currentTid ≠ t → ∃ s', step cfg s (.trap h regs io) = .ok s' ∧
          (s'.threads (s.cpus h).currentTid).tf.a0 = 0) := by
  refine ⟨?_, ?_, ?_, ?_⟩
  · intro t c c' A B hA hB hd hd' hinc
    rcases suffix_cases hA hB with rfl | hlt | hlt
    · exact ⟨rfl, hd.code_eq hd'⟩
    · exact absurd hinc (dies_past hr hB hd hd' hlt)
    · exact absurd hinc.symm (dies_past hr hA hd' hd hlt)
  · intro t w w' p p' A B hA hB hy hy' hinc
    rcases suffix_cases hA hB with rfl | hlt | hlt
    · cases A with
      | nil => exact hy.elim
      | cons x A =>
        obtain ⟨s₁, e₁, s₂⟩ := x
        obtain ⟨hs, hg, hc, hstep, hl⟩ := run_step hr hA
        exact ⟨rfl, hs.yields_unique hg hc hstep hl hy hy'⟩
    · have hne := yields_past hr hA hy hlt
      omega
    · have hne := yields_past hr hB hy' hlt
      omega
  · intro w t p s₁ e s₂ past hA hy
    obtain ⟨hs, hg, hc, hstep, hl⟩ := run_step hr hA
    exact ⟨(hs.yields hg hc hstep hl hy).1, hs.reports hg hc hstep hl hy⟩
  · intro t h1 h2 hz
    have hs := settled_reachable ⟨tr, hr⟩
    obtain ⟨hjw, hdet⟩ := hs.exact.dead t h1 h2 (phase_eq_zombie.mpr hz)
    exact ⟨hjw, hdet, fun h regs io p hg ha hne => hs.join_zombie h1 h2 hz hg ha hne⟩

/-- `user_main` (1) joins thread 2 with a pointer, and 2 exits with 7. -/
theorem exit_code_reported_once_example :
    ∃ tr s A, Run ((kernelSystem oneHart).restrict (NoStrayKill oneHart)) tr s ∧ A <:+ steps tr s ∧
      Yields oneHart 1 2 0x5000 A ∧ (s.threads 2).state = .unused ∧ loadInt s.mem 0x5000 = 7 := by
  obtain ⟨s₀, ⟨tr, hr⟩, hs₀⟩ := exists_reachable oneHart (NoStrayKill oneHart) bootOnHart0
    (startMain ++ [sysCreate 0])
    (fun s => decide (NoStrayKill oneHart s (sysJoin 0 2 0x5000) ∧ (s.cpus 0).currentTid = 1) &&
      stepTo oneHart s (sysJoin 0 2 0x5000) fun s₁ =>
        decide (NoStrayKill oneHart s₁ (sysExit 0 7) ∧ (s₁.threads 1).state = .waiting ∧
          (s₁.cpus 0).currentTid = 2) &&
        stepTo oneHart s₁ (sysExit 0 7) fun s₂ =>
          decide ((s₂.threads 1).state ≠ .waiting ∧ (s₂.threads 1).tf.a0 = 0))
    (by decide +kernel)
  rw [Bool.and_eq_true, decide_eq_true_eq] at hs₀
  obtain ⟨⟨hc₀, hcur₀⟩, hjoin⟩ := hs₀
  obtain ⟨s₁, hg₀, hstep₀, hs₁⟩ := exists_step hjoin
  rw [Bool.and_eq_true, decide_eq_true_eq] at hs₁
  obtain ⟨⟨hc₁, hwait, hcur₁⟩, hexit⟩ := hs₁
  obtain ⟨s₂, hg₁, hstep₁, hs₂⟩ := exists_step hexit
  have hrun : Run ((kernelSystem oneHart).restrict (NoStrayKill oneHart))
      ((s₁, sysExit 0 7) :: (s₀, sysJoin 0 2 0x5000) :: tr) s₂ :=
    .step (.step hr ⟨hg₀, hc₀⟩ hstep₀) ⟨hg₁, hc₁⟩ hstep₁
  have hy :
      Yields oneHart 1 2 0x5000 (steps ((s₁, sysExit 0 7) :: (s₀, sysJoin 0 2 0x5000) :: tr) s₂) :=
    ⟨.wait (.call rfl hcur₀) hwait, of_decide_eq_true hs₂⟩
  have hd : Dies oneHart 2 7 (steps ((s₁, sysExit 0 7) :: (s₀, sysJoin 0 2 0x5000) :: tr) s₂) :=
    ⟨congrArg some hcur₁, rfl⟩
  obtain ⟨hdies, -, hreport, -⟩ := exit_code_reported_once oneHart hrun
  obtain ⟨⟨-, hu⟩, A, code, hA, hdA, hinc, hload⟩ :=
    hreport 1 2 0x5000 _ _ _ _ (List.suffix_refl _) hy
  obtain ⟨-, rfl⟩ := hdies 2 7 code _ A (List.suffix_refl _) hA hd hdA hinc.symm
  exact ⟨_, s₂, _, hrun, List.suffix_refl _, hy, hu, hload (by decide)⟩

end Ccos
