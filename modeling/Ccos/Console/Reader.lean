import Mathlib.Tactic
import Ccos.Console.Devices
import Ccos.Join.Joiners
import Ccos.Sched.Reuse

/-!
# The registered reader

`g_stdin_waiter` names a thread that is `BLOCKED` in `read`, as long as nothing makes the thread
leave that state without the console: `thread_sys_kill` leaves the victim registered unless it
recycles its slot, and the release of a joiner wakes whatever thread is recorded.
-/

namespace Ccos

open Reasoning

variable {cfg : Config} {dead : Prop} {s s' : Kernel} {h : Nat} {q : Nat → List Int}

/-! ## Suspended threads are bystanders -/

/-- Asleep, waiting in `join` or blocked in `read`. -/
def ThreadState.suspended : ThreadState → Bool
  | .sleeping | .waiting | .blocked => true
  | _ => false

/-- A hart executes no suspended thread. -/
theorem Sched.cur_not_suspended (hs : Sched cfg dead none s q) (he : Entered cfg s h) :
    (s.threads (s.cpus h).currentTid).state.suspended = false := by
  rcases (hs.cur h he (by simp)).1 with hst | ⟨-, hst⟩ <;> rw [hst] <;> rfl

theorem Sched.bystands {a : Action} {u : Int} (hs : Sched cfg dead none s q) (he : Entered cfg s h)
    (h0 : 0 ≤ u) (hst : (s.threads u).state.suspended = true) (hlives : victim cfg s h a ≠ some u)
    (hjoin : ¬ Joiner cfg s h a u)
    (hdue : a = .timer → (s.cpus h).hartid = s.bootHartid →
      ¬ ((s.threads u).state = .sleeping ∧ (s.threads u).wakeupTick ≤ s.ticks + 1))
    (hreader : ∀ claims, a = .external claims → s.stdinWaiter ≠ u) : Bystands cfg s h a u := by
  have hother : u ≠ (s.cpus h).currentTid := by
    rintro rfl
    rw [hs.cur_not_suspended he] at hst
    cases hst
  refine ⟨h0, ?_, hother, ?_, hjoin, ?_, hdue, hreader⟩
  · intro hu
    rw [hu] at hst
    cases hst
  · intro hterm
    rcases terminated_cases hterm with ⟨code, rfl, rfl⟩ | ⟨rfl, hhit⟩
    · exact hother rfl
    · exact hlives (if_pos hhit)
  · intro hcoll
    obtain ⟨-, -, hz, -⟩ := collected_cases hcoll
    rw [hz] at hst
    cases hst

/-- A suspended bystander stays suspended. -/
theorem Bystands.suspended {regs : Trapframe} {io : TrapInput} {u : Int} (hb : Basic cfg s)
    (hg : Allowed cfg s (.trap h regs io)) (hs : step cfg s (.trap h regs io) = .ok s')
    (hby : Bystands cfg s h (trapAction cfg regs io) u)
    (hst : (s.threads u).state.suspended = true) :
    s'.threads u = marked cfg s h (trapAction cfg regs io) u := by
  rcases trap_bystander hb hg hs hby with hsame | ⟨-, -, hidle | hrun⟩
  · exact hsame
  · exfalso
    have hh := hg.1.1
    rcases (hb.idle u hby.slot (by omega)).1 with hu | hu <;> rw [hu] at hst <;> cases hst
  · rw [hrun] at hst
    cases hst

/-! ## The invariant -/

theorem victim_cases {a : Action} {t : Int} (hv : victim cfg s h a = some t) :
    a = .kill t ∧ KillHits cfg s h t := by
  cases a with
  | kill u =>
    rw [victim] at hv
    split at hv
    · obtain rfl := Option.some.inj hv
      exact ⟨rfl, ‹_›⟩
    · cases hv
  | _ => cases hv

/-- The registered reader is blocked. -/
def ReaderWaits (cfg : Config) (s : Kernel) : Prop :=
  0 ≤ s.stdinWaiter → s.stdinWaiter < cfg.threadMax ∧ (s.threads s.stdinWaiter).state = .blocked

/-- `thread_sys_kill` recycles the slot of a victim that no hart executes if it was joined or is
detached. -/
def KillRecycles (cfg : Config) (t : Thread) : Prop :=
  (0 ≤ t.joinWaiter ∧ t.joinWaiter < cfg.threadMax) ∨ (t.joinWaiter < 0 ∧ t.detached = true)

instance (t : Thread) : Decidable (KillRecycles cfg t) :=
  inferInstanceAs (Decidable (_ ∨ _))

/-- The action does not take the registered reader out of `BLOCKED` behind the console's back. -/
structure ReaderSafe (cfg : Config) (s : Kernel) (h : Nat) (a : Action) : Prop where
  kill : ∀ t, victim cfg s h a = some t → s.stdinWaiter = t → KillRecycles cfg (s.threads t)
  joiner : ∀ t, terminated cfg s h a = some t → 0 ≤ (s.threads t).joinWaiter →
    (s.threads t).joinWaiter ≠ s.stdinWaiter

theorem recycleThread_unregisters {t : Int} (h1 : 0 < t) (h2 : t < cfg.threadMax) :
    (recycleThread cfg s t).stdinWaiter ≠ t := by
  rw [recycleThread_eq h1 h2]
  show (if s.stdinWaiter = t then -1 else s.stdinWaiter) ≠ t
  split
  · omega
  · assumption

/-- A killed reader whose slot is recycled is no longer registered. -/
theorem kill_unregisters {t cur : Int} (hhit : KillHits cfg s h t)
    (hrec : KillRecycles cfg (s.threads t)) (hself : (s.threads t).joinWaiter ≠ t)
    (hrh : (s.threads t).runningHart < 0) (hoff : s.rq.onRq t = false)
    (hs : threadSysKill cfg s h cur t = .ok s') : s'.stdinWaiter ≠ t := by
  rcases threadSysKill_cases hs with ⟨hno, -⟩ | ⟨-, hkill⟩
  · exact absurd hhit hno
  obtain ⟨rq, s₁, hunq, hrel, rfl⟩ := killThread_cases hkill
  obtain rfl : rq = s.rq := by
    rcases hunq with ⟨hon, -⟩ | ⟨-, heq⟩
    · rw [hoff] at hon
      cases hon
    · exact heq
  have hvictim : (killed cfg s h t s.rq).threads t = (s.threads t).kill := by
    rw [killed_threads, if_pos rfl]
  have hoff' : (killed cfg s h t s.rq).rq.onRq t = false := by
    show (kickVictim cfg ((s.modThread t Thread.kill).setRq s.rq) h t).rq.onRq t = false
    rw [kickVictim_rq]
    exact hoff
  show s₁.stdinWaiter ≠ t
  -- a joined victim goes once its joiner is woken, one without a joiner if it is detached
  rcases hrel with ⟨hlo, hhi, s₀, hmake, rfl⟩ | ⟨hneg, rfl⟩ | ⟨hbig, -⟩
  · have hrh' : (s₀.threads t).runningHart < 0 := by
      rw [threadMakeRunnable_threads hmake hself.symm, deliver_other hself.symm, hvictim]
      exact hrh
    have hoff₀ : s₀.rq.onRq t = false := by
      rw [threadMakeRunnable_onRq hmake hself.symm, (deliver_rest _ _).1]
      exact hoff'
    rw [if_pos ⟨hrh', hoff₀⟩]
    exact recycleThread_unregisters hhit.1 hhit.2.1
  · have hdet : (s.threads t).detached = true := by
      rcases hrec with hj | hd
      · omega
      · exact hd.2
    have hcond : ((killed cfg s h t s.rq).threads t).detached = true ∧
        ((killed cfg s h t s.rq).threads t).runningHart < 0 ∧
        (killed cfg s h t s.rq).rq.onRq t = false := by
      rw [hvictim]
      exact ⟨hdet, hrh, hoff'⟩
    rw [if_pos hcond]
    exact recycleThread_unregisters hhit.1 hhit.2.1
  · rcases hrec with hj | hd <;> omega

/-- No hart executes a suspended thread and no queue holds it. -/
theorem Sched.suspended_off (hs : Sched cfg dead none s q) {t : Int} (h0 : 0 ≤ t)
    (h1 : t < cfg.threadMax) (hst : (s.threads t).state.suspended = true) :
    (s.threads t).runningHart < 0 ∧ s.rq.onRq t = false := by
  constructor
  · by_contra hge
    obtain ⟨k, he, hcur, -⟩ := hs.runningHart t h0 h1 (by omega)
    rw [← hcur, hs.cur_not_suspended he] at hst
    cases hst
  · apply hs.onRq_false
    intro hr
    rw [hr] at hst
    cases hst

theorem readerWaits_trap {regs : Trapframe} {io : TrapInput} (hb : Basic cfg s)
    (hs : Sched cfg dead none s q) (hw : ReaderWaits cfg s)
    (hsafe : ReaderSafe cfg s h (trapAction cfg regs io)) (hg : Allowed cfg s (.trap h regs io))
    (hstep : step cfg s (.trap h regs io) = .ok s') : ReaderWaits cfg s' := by
  obtain ⟨hrun, huser⟩ := trap_runAction hb hg hstep
  by_cases huse : (trapAction cfg regs io).usesConsole = true
  · cases ha : trapAction cfg regs io with
    | read fd buf len =>
      have hkeep : ∀ s₁ : Kernel, s₁.stdinWaiter = s.stdinWaiter →
          (∀ t, (s₁.threads t).state = (s.threads t).state) → ReaderWaits cfg s₁ := by
        intro s₁ h1 h2
        unfold ReaderWaits
        rw [h1, h2]
        exact hw
      have hstate : ∀ (k : Kernel) (t u : Int) (v : UInt64),
          ((k.setA0 t v).threads u).state = (k.threads u).state := fun k t u v =>
        ((Quiet.setA0 h k t v).threads u).state
      rcases trap_read hb hg hstep ha with ⟨-, v, rfl⟩ | ⟨-, -, rfl⟩ | ⟨-, -, -, -, -, hreg, hth⟩
      · refine hkeep _ rfl fun t => ?_
        rw [hstate, saveRegs_state]
      · refine hkeep _ rfl fun t => ?_
        rw [hstate]
        exact saveRegs_state s h regs t
      · intro _
        rw [ha] at huser
        rw [hreg, hth]
        exact ⟨(huser rfl).2, rfl⟩
    | external claims =>
      rw [ha] at hrun
      obtain ⟨s₁, ops, irqs, huart, rfl, -⟩ := platformHandleSExternal_cases hrun
      by_cases hrx : received (saveRegs s h regs) claims = []
      · rw [hrx] at huart
        cases huart
        unfold ReaderWaits
        show 0 ≤ s.stdinWaiter → s.stdinWaiter < cfg.threadMax ∧
          ((saveRegs s h regs).threads s.stdinWaiter).state = .blocked
        rw [saveRegs_state]
        exact hw
      · intro h0
        have hneg : s₁.stdinWaiter < 0 := uart_stdinWaiter huart hrx
        have h0' : 0 ≤ s₁.stdinWaiter := h0
        omega
    | _ =>
      rw [ha] at huse
      cases huse
  · rw [Bool.not_eq_true] at huse
    obtain ⟨-, -, hreg⟩ := trap_consoleKept hb hg hstep huse
    rw [clocked_stdinWaiter] at hreg
    intro h0
    rcases hreg with hsame | ⟨hneg, -⟩
    · rw [hsame] at h0 ⊢
      obtain ⟨hlt, hbl⟩ := hw h0
      have hsus : (s.threads s.stdinWaiter).state.suspended = true := by
        rw [hbl]
        rfl
      obtain ⟨hrh, hoff⟩ := hs.suspended_off h0 hlt hsus
      refine ⟨hlt, ?_⟩
      -- it is not killed: the kill would have unregistered it
      have hlives : victim cfg s h (trapAction cfg regs io) ≠ some s.stdinWaiter := by
        intro hv
        obtain ⟨ha, hhit⟩ := victim_cases hv
        rw [ha] at hrun
        refine kill_unregisters (killHits_saveRegs.mpr hhit) ?_ ?_ ?_ hoff hrun hsame
        · unfold KillRecycles
          rw [saveRegs_joinWaiter, saveRegs_detached]
          exact hsafe.kill _ hv rfl
        · rw [saveRegs_joinWaiter]
          exact hb.joinSelf _ h0
        · rw [saveRegs_runningHart]
          exact hrh
      have hby : Bystands cfg s h (trapAction cfg regs io) s.stdinWaiter := by
        refine hs.bystands hg.1 h0 hsus hlives ?_ ?_ ?_
        · rintro ⟨t, ht, hj⟩
          exact hsafe.joiner t ht (hj ▸ h0) hj.symm
        · rintro - - ⟨hsl, -⟩
          rw [hbl] at hsl
          cases hsl
        · intro claims ha
          rw [ha] at huse
          cases huse
      rw [hby.suspended hb hg hstep hsus, marked_state, hbl]
    · omega

theorem readerWaits_step {e : Event} (hb : Basic cfg s) (hs : Sched cfg dead none s q)
    (hw : ReaderWaits cfg s)
    (hsafe : ∀ h regs io, e = .trap h regs io → ReaderSafe cfg s h (trapAction cfg regs io))
    (hg : Allowed cfg s e) (hstep : step cfg s e = .ok s') : ReaderWaits cfg s' := by
  cases e with
  | cpuInit h =>
    obtain ⟨-, c, -, -, -, -, -, rfl⟩ := cpuInit_cases hstep
    exact hw
  | enterIdle h =>
    obtain ⟨-, -, -, -, hreg, -, -, -, -, -, hth, -⟩ := enterIdle_cases hstep
    unfold ReaderWaits
    rw [hreg, hth]
    intro h0
    obtain ⟨hlt, hbl⟩ := hw h0
    refine ⟨hlt, ?_⟩
    have hne : s.stdinWaiter ≠ h := by
      intro heq
      have hh := hg.1
      rcases (hb.idle s.stdinWaiter h0 (by omega)).1 with hst | hst <;> rw [hbl] at hst <;>
        cases hst
    rw [if_neg hne]
    exact hbl
  | trap h regs io => exact readerWaits_trap hb hs hw (hsafe h regs io rfl) hg hstep

theorem init_stdinWaiter (hi : (kernelSystem cfg).init s) : s.stdinWaiter = -1 := by
  obtain ⟨s₀, s₁, tid, entry, arg, name, sstatus, hboot, hcreate, rfl⟩ := init_cases hi
  show s₁.stdinWaiter = -1
  rcases threadCreateUser_cases hcreate with ⟨-, rfl⟩ | ⟨-, -, -, hmake⟩
  · exact hboot.stdinWaiter
  · have ho := (threadMakeRunnable_schedOnly hmake).stdinWaiter
    exact ho.trans hboot.stdinWaiter

theorem readerWaits_init (hi : (kernelSystem cfg).init s) : ReaderWaits cfg s := by
  intro h0
  rw [init_stdinWaiter hi] at h0
  omega

/-! ## Runs without kills -/

/-- Everything a run without kills keeps in order: the scheduler's data, the join relation and the
registered reader. -/
structure Orderly (cfg : Config) (s : Kernel) : Prop where
  joins : Joins cfg False s
  reader : ReaderWaits cfg s

/-- The recorded joiner of a thread that terminates waits for it, so it does not read. -/
theorem Orderly.readerSafe {regs : Trapframe} {io : TrapInput} (ho : Orderly cfg s)
    (he : Entered cfg s h) (hc : KillFree cfg s (.trap h regs io)) :
    ReaderSafe cfg s h (trapAction cfg regs io) where
  kill t ht := by
    have hnone : victim cfg s h (trapAction cfg regs io) = none := hc
    rw [hnone] at ht
    cases ht
  joiner t ht h0 heq := by
    obtain ⟨⟨q, hs⟩, hj⟩ := ho.joins
    have hwait := (joiner_of_terminated hs hj he hc.safe ht h0).2.1
    rw [heq] at hwait h0
    rw [(ho.reader h0).2] at hwait
    cases hwait

theorem orderly_step {e : Event} (hb : Basic cfg s) (ho : Orderly cfg s) (hg : Allowed cfg s e)
    (hc : KillFree cfg s e) (hstep : step cfg s e = .ok s') : Orderly cfg s' := by
  obtain ⟨q, hs⟩ := ho.joins.1
  refine ⟨joins_step hb ho.joins ?_ hg hstep, readerWaits_step hb hs ho.reader ?_ hg hstep⟩
  · rintro h regs io rfl
    exact hc.safe
  · rintro h regs io rfl
    exact ho.readerSafe hg.1 hc

theorem orderly_reachable {cond : Kernel → Event → Prop}
    (hcond : ∀ s e, cond s e → KillFree cfg s e)
    (hr : Reachable ((kernelSystem cfg).restrict cond) s) : Orderly cfg s := by
  refine kernel_invariant (Orderly cfg) (fun _ hi => ⟨joins_init hi, readerWaits_init hi⟩) ?_ hr
  intro s₁ e s₂ hb ho hg hc hstep
  exact orderly_step hb ho hg (hcond s₁ e hc) hstep

/-- A suspended thread is a bystander of every trap but the tick that ends its sleep and the
character it waits for. -/
theorem Orderly.bystands {regs : Trapframe} {io : TrapInput} {u : Int} (ho : Orderly cfg s)
    (he : Entered cfg s h) (hc : KillFree cfg s (.trap h regs io)) (h0 : 0 ≤ u)
    (hst : (s.threads u).state = .sleeping ∨ (s.threads u).state = .blocked)
    (hdue : trapAction cfg regs io = .timer → (s.cpus h).hartid = s.bootHartid →
      ¬ ((s.threads u).state = .sleeping ∧ (s.threads u).wakeupTick ≤ s.ticks + 1))
    (hreader : ∀ claims, trapAction cfg regs io = .external claims → s.stdinWaiter ≠ u) :
    Bystands cfg s h (trapAction cfg regs io) u := by
  obtain ⟨⟨q, hs⟩, hj⟩ := ho.joins
  have hsus : (s.threads u).state.suspended = true := by
    rcases hst with hst | hst <;> rw [hst] <;> rfl
  refine hs.bystands he h0 hsus ?_ ?_ hdue hreader
  · have hnone : victim cfg s h (trapAction cfg regs io) = none := hc
    rw [hnone]
    exact nofun
  · rintro ⟨t, ht, rfl⟩
    have hwait := (joiner_of_terminated hs hj he hc.safe ht h0).2.1
    rcases hst with hst | hst <;> rw [hst] at hwait <;> cases hwait

/-! ## Received characters -/

/-- The registered reader was `BLOCKED` in `read` and is `RUNNABLE` now: the ring, with the new
character in it, was read into its buffer, and its `a0` is the number of bytes. -/
structure ReaderServed (v : Kernel) (ch : UInt8) (v' : Kernel) : Prop where
  registered : 0 ≤ v.stdinWaiter
  blocked : (v.threads v.stdinWaiter).state = .blocked
  pending : (v.threads v.stdinWaiter).pendingReadBuf ≠ 0 ∧
    (v.threads v.stdinWaiter).pendingReadLen ≠ 0
  runnable : (v'.threads v.stdinWaiter).state = .runnable
  stored : ∃ n : Nat, 0 < n ∧ (v'.threads v.stdinWaiter).tf.a0 = UInt64.ofNat n ∧
    (n, v'.mem, v'.rx) = consoleReadLoop (v.threads v.stdinWaiter).pendingReadBuf
      (v.threads v.stdinWaiter).pendingReadLen.toNat 0 v.mem (v.rx.put ch)

/-- A wake-up of a blocked thread that no queue holds succeeds. -/
theorem threadWake_blocked {t : Int} (hlo : (cfg.maxHarts : Int) ≤ t) (hhi : t < cfg.threadMax)
    (hst : (s.threads t).state = .blocked) (hoff : s.rq.onRq t = false)
    (hs : threadWake cfg s h t = .ok s') :
    s'.threads t = (s.threads t).makeRunnable ∧ SchedOnly s s' := by
  have hpos := cfg.maxHarts_pos
  rcases threadWake_cases hs with ⟨-, hno⟩ | ⟨-, -, -, hmake⟩
  · rcases hno with hno | hno | hno
    · omega
    · omega
    · exact absurd hst hno
  · rcases threadMakeRunnable_cases hmake with ⟨-, hno⟩ | ⟨rq, hw⟩
    · rcases hno with hno | hno | hno | hno
      · omega
      · omega
      · rw [hoff] at hno
        cases hno
      · rw [hst] at hno
        cases hno
    · rw [hw.threads, if_pos rfl]
      exact ⟨rfl, hw.schedOnly⟩

/-- A received character completes a pending read. -/
theorem char_completes {ch : UInt8} (hb : Basic cfg s) (h0 : 0 ≤ s.stdinWaiter)
    (hhi : s.stdinWaiter < cfg.threadMax) (hbl : (s.threads s.stdinWaiter).state = .blocked)
    (hoff : s.rq.onRq s.stdinWaiter = false)
    (hbuf : (s.threads s.stdinWaiter).pendingReadBuf ≠ 0)
    (hlen : (s.threads s.stdinWaiter).pendingReadLen ≠ 0)
    (hs : consoleOnCharFromIrq cfg s h ch = .ok s') : ReaderServed s ch s' := by
  have hlo : (cfg.maxHarts : Int) ≤ s.stdinWaiter := by
    by_contra hlt
    rcases (hb.idle s.stdinWaiter h0 (by omega)).1 with hst | hst <;> rw [hbl] at hst <;> cases hst
  rcases consoleOnCharFromIrq_cases hs with ⟨hneg, -⟩ | ⟨-, s₁, hread, rfl⟩
  · omega
  rcases threadReadFromStdin_cases hread with ⟨hor, -⟩ | ⟨hpend, ⟨hn, -⟩ | ⟨hn, hwake⟩⟩
  · rcases hor with hz | hz
    · exact absurd hz hbuf
    · exact absurd hz hlen
  · -- the character just received is there to be read
    rcases (consoleReadNonblock_eq_zero _ _ _).mp hn with hz | hempty
    · exact absurd hz hlen
    · rw [RxRing.put_nonempty] at hempty
      cases hempty
  · have hself : (completeRead { s with rx := s.rx.put ch }).threads s.stdinWaiter =
        ((s.threads s.stdinWaiter).setA0 (UInt64.ofNat (consoleReadNonblock
          { s with rx := s.rx.put ch } (s.threads s.stdinWaiter).pendingReadBuf
          (s.threads s.stdinWaiter).pendingReadLen).1)).setPendingRead 0 0 := by
      unfold completeRead
      dsimp only
      rw [Kernel.modThread_threads, if_pos rfl]
      rfl
    have hstate : ((completeRead { s with rx := s.rx.put ch }).threads s.stdinWaiter).state =
        .blocked := by
      rw [hself]
      exact hbl
    have hqueue : (completeRead { s with rx := s.rx.put ch }).rq.onRq s.stdinWaiter = false := hoff
    obtain ⟨hth, honly⟩ := threadWake_blocked hlo hhi hstate hqueue hwake
    refine ⟨h0, hbl, hpend, ?_, _, hn, ?_, ?_⟩
    · show (s₁.threads s.stdinWaiter).state = .runnable
      rw [hth]
      rfl
    · show (s₁.threads s.stdinWaiter).tf.a0 = _
      rw [hth, hself]
      rfl
    · show (_, s₁.mem, s₁.rx) = _
      rw [honly.mem, honly.rx]
      rfl

/-- A received character goes to the blocked reader, or stays in the ring. -/
theorem char_served {ch : UInt8} (hb : Basic cfg s) (hw : ReaderWaits cfg s)
    (hoff : 0 ≤ s.stdinWaiter → s.rq.onRq s.stdinWaiter = false)
    (hs : consoleOnCharFromIrq cfg s h ch = .ok s') :
    s'.rx = s.rx.put ch ∨ ReaderServed s ch s' := by
  rcases consoleOnCharFromIrq_cases hs with ⟨-, rfl⟩ | ⟨h0, s₁, hread, rfl⟩
  · exact .inl rfl
  obtain ⟨hhi, hbl⟩ := hw h0
  by_cases hpend : (s.threads s.stdinWaiter).pendingReadBuf ≠ 0 ∧
      (s.threads s.stdinWaiter).pendingReadLen ≠ 0
  · exact .inr (char_completes hb h0 hhi hbl (hoff h0) hpend.1 hpend.2 hs)
  · rcases threadReadFromStdin_cases hread with ⟨-, hwake⟩ | ⟨hp, -⟩
    · have hkeep := (threadWake_schedOnly hwake).rx
      exact .inl hkeep
    · exact absurd hp hpend

/-- No kill hits the registered reader unless it recycles its slot at once, no thread terminates
whose recorded joiner is the registered reader, and no slot that a hart still executes is
recycled. -/
def NoStaleReader (cfg : Config) (s : Kernel) : Event → Prop
  | .trap h regs io =>
    NoLiveRecycle cfg s (.trap h regs io) ∧
    (∀ t ∈ victim cfg s h (trapAction cfg regs io), s.stdinWaiter = t →
      KillRecycles cfg (s.threads t)) ∧
    ∀ t ∈ terminated cfg s h (trapAction cfg regs io), 0 ≤ (s.threads t).joinWaiter →
      (s.threads t).joinWaiter ≠ s.stdinWaiter
  | _ => True

instance (s : Kernel) : (e : Event) → Decidable (NoStaleReader cfg s e)
  | .trap _ _ _ => inferInstanceAs (Decidable (_ ∧ _ ∧ _))
  | .cpuInit _ => inferInstanceAs (Decidable True)
  | .enterIdle _ => inferInstanceAs (Decidable True)

theorem NoStaleReader.safe {regs : Trapframe} {io : TrapInput}
    (hc : NoStaleReader cfg s (.trap h regs io)) : ReaderSafe cfg s h (trapAction cfg regs io) where
  kill t ht heq := hc.2.1 t ht heq
  joiner t ht h0 := hc.2.2 t ht h0

/-- The scheduler's data and the registered reader are in order. -/
def ReaderOrdered (cfg : Config) (dead : Prop) (s : Kernel) : Prop :=
  (∃ q, Sched cfg dead none s q) ∧ ReaderWaits cfg s

theorem readerOrdered_reachable
    (hr : Reachable ((kernelSystem cfg).restrict (NoStaleReader cfg)) s) :
    ReaderOrdered cfg True s := by
  refine kernel_invariant (ReaderOrdered cfg True)
    (fun _ hi => ⟨sched_init hi, readerWaits_init hi⟩) ?_ hr
  rintro s₁ e s₂ hb ⟨⟨q, hs⟩, hw⟩ hg hc hstep
  refine ⟨sched_step hs hb ?_ hg hstep, readerWaits_step hb hs hw ?_ hg hstep⟩
  · rintro h regs io rfl
    exact hc.1.safe
  · rintro h regs io rfl
    exact hc.safe

/-- In every run with that discipline, whatever the other kills, each character of an external
interrupt stays in the ring or is stored, with the ring's older content, for the thread that is
`BLOCKED` in `read`, which becomes `RUNNABLE`.  `v` is the kernel when the character is received,
`v'` after it. -/
theorem received_char_not_swallowed (cfg : Config) {s v v' : Kernel} {h : Nat} {regs : Trapframe}
    {io : TrapInput} {claims : List PlicClaim} {before after : List UInt8} {ch : UInt8}
    (hr : Reachable ((kernelSystem cfg).restrict (NoStaleReader cfg)) s)
    (_ : Allowed cfg s (.trap h regs io)) (_ : trapAction cfg regs io = .external claims)
    (_ : received s claims = before ++ ch :: after)
    (hbefore : uart16550IrqHandler cfg (saveRegs s h regs) h before = .ok v)
    (hch : consoleOnCharFromIrq cfg v h ch = .ok v') :
    v'.rx = v.rx.put ch ∨ ReaderServed v ch v' := by
  obtain ⟨⟨q, hs⟩, hw⟩ := readerOrdered_reachable hr
  have hb := basic_reachable hr.unrestrict
  by_cases hnil : before = []
  · -- the first character: the reader registered before the interrupt
    subst hnil
    cases hbefore
    refine char_served (hb.quiet (saveRegs_quiet s h regs)) ?_ ?_ hch
    · unfold ReaderWaits
      rw [saveRegs_stdinWaiter, saveRegs_state]
      exact hw
    · intro h0
      obtain ⟨hhi, hbl⟩ := hw h0
      have hsus : (s.threads s.stdinWaiter).state.suspended = true := by
        rw [hbl]
        rfl
      exact (hs.suspended_off h0 hhi hsus).2
  · -- a later one finds nobody registered
    have hneg := uart_stdinWaiter hbefore hnil
    rcases consoleOnCharFromIrq_cases hch with ⟨-, rfl⟩ | ⟨h0, -⟩
    · exact .inl rfl
    · omega

/-- The call returned, to a state with `Q`. -/
def returnsTo (x : Except Halt Kernel) (Q : Kernel → Bool) : Bool :=
  match x with
  | .ok k => Q k
  | .error _ => false

theorem exists_ok {x : Except Halt Kernel} {Q : Kernel → Bool} (hx : returnsTo x Q = true) :
    ∃ k, x = .ok k ∧ Q k = true := by
  cases x with
  | error e => cases hx
  | ok k => exact ⟨k, rfl, hx⟩

/-- The registers of an external interrupt and the claim of a character from the UART. -/
def extRegs : Trapframe := { scause := 0x8000000000000009 }

def uartClaim (rx : List UInt8) : List PlicClaim := [{ irq := 10, now := 0, rx := rx }]

/-- `user_main` (1) is blocked in `read` when a character arrives. -/
theorem received_char_not_swallowed_example :
    ∃ s v', Reachable ((kernelSystem oneHart).restrict (NoStaleReader oneHart)) s ∧
      Allowed oneHart s (uartIrq 0 [65]) ∧ s.stdinWaiter = 1 ∧
      consoleOnCharFromIrq oneHart (saveRegs s 0 extRegs) 0 65 = .ok v' ∧
      ReaderServed (saveRegs s 0 extRegs) 65 v' := by
  obtain ⟨s, hr, hs⟩ := exists_reachable oneHart (NoStaleReader oneHart) bootOnHart0
    (startMain ++ [sysReadStdin 0 0x5000 8])
    (fun s => decide (Allowed oneHart s (uartIrq 0 [65]) ∧ s.stdinWaiter = 1 ∧
      received s (uartClaim [65]) = [65]) &&
      returnsTo (consoleOnCharFromIrq oneHart (saveRegs s 0 extRegs) 0 65) fun v' => v'.rx.isEmpty)
    (by decide +kernel)
  rw [Bool.and_eq_true, decide_eq_true_eq] at hs
  obtain ⟨⟨hg, hw, hrx⟩, hok⟩ := hs
  obtain ⟨v', hch, hempty⟩ := exists_ok hok
  have hfirst : received s (uartClaim [65]) = [] ++ 65 :: [] := hrx
  have hbefore : uart16550IrqHandler oneHart (saveRegs s 0 extRegs) 0 [] =
      .ok (saveRegs s 0 extRegs) := rfl
  have hserved := received_char_not_swallowed oneHart hr hg rfl hfirst hbefore hch
  refine ⟨s, v', hr, hg, hw, hch, hserved.resolve_left fun heq => ?_⟩
  rw [heq, RxRing.put_nonempty] at hempty
  cases hempty

/-- `user_main` (1) kills thread 2, which is blocked in `read`; the next character leaves the ring
for the buffer of the dead thread. -/
theorem char_swallowed_by_zombie :
    ∃ s v', Reachable (kernelSystem oneHart) s ∧ Allowed oneHart s (uartIrq 0 [65]) ∧
      received s (uartClaim [65]) = [65] ∧
      consoleOnCharFromIrq oneHart (saveRegs s 0 extRegs) 0 65 = .ok v' ∧
      s.stdinWaiter = 2 ∧ (s.threads 2).state = .zombie ∧
      v'.rx ≠ s.rx.put 65 ∧ v'.rx.isEmpty = true ∧ (v'.threads 2).state = .zombie ∧
      ¬ ReaderServed (saveRegs s 0 extRegs) 65 v' := by
  obtain ⟨s, hr, hs⟩ := exists_reachable oneHart anyStep bootOnHart0
    (startMain ++ [sysCreate 0, sysYield 0, sysReadStdin 0 0x5000 8, sysKill 0 2])
    (fun s => decide (Allowed oneHart s (uartIrq 0 [65]) ∧ received s (uartClaim [65]) = [65] ∧
      s.stdinWaiter = 2 ∧ (s.threads 2).state = .zombie) &&
      returnsTo (consoleOnCharFromIrq oneHart (saveRegs s 0 extRegs) 0 65) fun v' =>
        v'.rx.isEmpty && decide ((v'.threads 2).state = .zombie))
    (by decide +kernel)
  rw [Bool.and_eq_true, decide_eq_true_eq] at hs
  obtain ⟨⟨hg, hrx, hw, hz⟩, hok⟩ := hs
  obtain ⟨v', hch, hv⟩ := exists_ok hok
  rw [Bool.and_eq_true, decide_eq_true_eq] at hv
  refine ⟨s, v', hr.unrestrict, hg, hrx, hch, hw, hz, ?_, hv.1, hv.2, ?_⟩
  · intro heq
    rw [heq, RxRing.put_nonempty] at hv
    cases hv.1
  · intro hserved
    have hbl := hserved.blocked
    rw [saveRegs_stdinWaiter, hw, saveRegs_state, hz] at hbl
    cases hbl

end Ccos
