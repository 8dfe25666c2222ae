import Mathlib.Tactic
import Ccos.Join.Joiners

/-!
# Joiners and their targets along runs

In runs where no kill hits a thread that waits in `join` or that another hart executes, every step
is one event of the join protocol, nothing is left for `schedule` to reclaim, and the joiner of a
thread and the target of a waiter stay inverse to each other.
-/

namespace Ccos

open Reasoning

variable {cfg : Config} {s s' : Kernel} {h : Nat} {q : Nat → List Int}

/-! ## Runs -/

/-- No kill hits a thread that waits in `join` or that another hart executes. -/
def NoStrayKill (cfg : Config) (s : Kernel) : Event → Prop
  | .cpuInit _ => True
  | .enterIdle _ => True
  | .trap h regs io => ∀ t ∈ victim cfg s h (trapAction cfg regs io),
      (s.threads t).state ≠ .waiting ∧
      ∀ k, k < cfg.maxHarts → k ≠ h → Entered cfg s k → (s.cpus k).currentTid ≠ t

instance (s : Kernel) : (e : Event) → Decidable (NoStrayKill cfg s e)
  | .cpuInit _ => inferInstanceAs (Decidable True)
  | .enterIdle _ => inferInstanceAs (Decidable True)
  | .trap h regs io =>
    inferInstanceAs (Decidable (∀ t ∈ victim cfg s h (trapAction cfg regs io), _ ∧ _))

theorem NoStrayKill.safe {regs : Trapframe} {io : TrapInput}
    (hc : NoStrayKill cfg s (.trap h regs io)) :
    JoinSafe cfg False s h (trapAction cfg regs io) where
  kill := by
    refine .inr fun t ha hhit k hk heq => ?_
    have hkh : k ≠ h := by
      rintro rfl
      exact hhit.2.2.1 heq.symm
    exact (hc t (ha ▸ mem_victim hhit)).2 k hk.1 hkh hk heq
  victim t ha hhit := (hc t (ha ▸ mem_victim hhit)).1
  collect := False.elim
  released := False.elim

/-- The event of the join protocol that a step is. -/
def stepEvent (cfg : Config) (s : Kernel) : Event → JoinEvent
  | .trap h regs io => joinEvent cfg s h (trapAction cfg regs io)
  | _ => .skip

/-- Current threads live. -/
theorem Sched.cur_alive (hs : Sched cfg False none s q) (he : Entered cfg s h) :
    (s.slots (s.cpus h).currentTid).phase = .alive := by
  show (s.threads _).state.phase = .alive
  rcases (hs.cur h he (by simp)).1 with hrun | ⟨hd, -⟩
  · rw [hrun]
    rfl
  · exact hd.elim

theorem phase_eq_alive {st : ThreadState} (hu : st ≠ .unused) (hw : st ≠ .waiting)
    (hz : st ≠ .zombie) : st.phase = .alive := by
  cases st with
  | unused => exact absurd rfl hu
  | waiting => exact absurd rfl hw
  | zombie => exact absurd rfl hz
  | _ => rfl

/-- Only threads that live suspend themselves or die. -/
theorem joinEvent_strict {a : Action} (hs : Sched cfg False none s q) (he : Entered cfg s h)
    (hsafe : JoinSafe cfg False s h a) : s.slots.Strict cfg.threadMax (joinEvent cfg s h a) := by
  have hcur := hs.cur_alive he
  obtain ⟨hcur1, hcur2⟩ := Sched.cur_range hs.harts he
  -- one case per system call of the protocol; the others are `skip`
  cases a with
  | exit code => exact ⟨hcur1, hcur2, hcur, rfl⟩
  | kill t =>
    rw [joinEvent]
    split
    · rename_i hhit
      refine ⟨hhit.1.le, hhit.2.1, ?_, ?_⟩
      · exact phase_eq_alive hhit.2.2.2.2.1 (hsafe.victim t rfl hhit) hhit.2.2.2.2.2
      · -- a thread with a running hart is current there
        rw [decide_eq_true_eq]
        by_contra hrh
        obtain ⟨k, hk, hkt, -⟩ := hs.runningHart t hhit.1.le hhit.2.1 (by omega)
        rcases hsafe.kill with hd | hno
        · exact hd
        · exact hno t rfl hhit k hk hkt
    · trivial
  | join t p =>
    rw [joinEvent]
    split
    · rename_i hacc
      obtain ⟨h1, h2, hne, hu, hd, hw⟩ := hacc
      split
      · rename_i hz
        exact phase_eq_zombie.mpr hz
      · rename_i hz
        exact ⟨⟨hcur1, hcur2, hcur⟩, Ne.symm hne, h1.le, h2, fun hp => hu (phase_eq_unused.mp hp),
          fun hp => hz (phase_eq_zombie.mp hp), hd, hw⟩
    · trivial
  | detach t =>
    rw [joinEvent]
    split
    · rename_i hacc
      split
      · rename_i hz
        exact phase_eq_zombie.mpr hz
      · rename_i hz
        exact ⟨fun hp => hacc.2.2.1 (phase_eq_unused.mp hp), fun hp => hz (phase_eq_zombie.mp hp),
          hacc.2.2.2.1⟩
    · trivial
  | create entry arg name sstatus =>
    rw [joinEvent]
    split
    · trivial
    · rename_i hpos
      obtain ⟨h1, h2, hu⟩ := allocThreadSlot_unused hpos
      exact ⟨h1, h2, phase_eq_unused.mpr hu⟩
  | sleep ticks =>
    rw [joinEvent]
    split
    · exact hcur
    · trivial
  | read fd buf len =>
    rw [joinEvent]
    split
    · exact hcur
    · trivial
  | _ => trivial

/-- The scheduler's data and both ends of the join relation are in order. -/
structure Settled (cfg : Config) (s : Kernel) : Prop where
  basic : Basic cfg s
  sched : ∃ q, Sched cfg False none s q
  exact : s.slots.Exact cfg.threadMax

/-- A step of such a run is one event of the protocol. -/
theorem Settled.event {e : Event} (hs : Settled cfg s) (hg : Allowed cfg s e)
    (hc : NoStrayKill cfg s e) (hstep : step cfg s e = .ok s') :
    s.slots.Strict cfg.threadMax (stepEvent cfg s e) ∧
      s'.slots = s.slots.apply (stepEvent cfg s e) := by
  cases e with
  | cpuInit h => exact ⟨trivial, cpuInit_slots hstep⟩
  | enterIdle h => exact ⟨trivial, enterIdle_slots hs.basic hg hstep⟩
  | trap h regs io =>
    obtain ⟨q, hsched⟩ := hs.sched
    have hsafe := NoStrayKill.safe hc
    have hstrict := joinEvent_strict hsched hg.1 hsafe
    refine ⟨hstrict, ?_⟩
    have hslots := trap_slots hs.basic hsched hg hstep fun t ht h0 =>
      ⟨(joiner_of_terminated hsched hs.exact.toJoinersWait hg.1 hsafe ht h0).1,
        (joiner_of_terminated hsched hs.exact.toJoinersWait hg.1 hsafe ht h0).2.1⟩
    obtain ⟨hcur1, hcur2⟩ := Sched.cur_range hsched.harts hg.1
    rw [hslots]
    unfold trapSlots
    split
    · exact (hs.exact.apply hstrict).reclaim hcur1 hcur2
    · rfl

/-- Nobody waits or is dead when the run starts. -/
theorem init_alive (hi : (kernelSystem cfg).init s) {t : Int} (h1 : 0 ≤ t)
    (h2 : t < cfg.threadMax) :
    (s.threads t).state = .unused ∨ (s.threads t).state = .runnable := by
  obtain ⟨s₀, s₁, tid, entry, arg, name, sstatus, hboot, hcreate, rfl⟩ := init_cases hi
  have hold : (s₀.threads t).state = .unused ∨ (s₀.threads t).state = .runnable := by
    have hslot := (hboot.slots t h1 h2).2.1
    split at hslot
    · exact .inr hslot
    · exact .inl hslot
  show (s₁.threads t).state = .unused ∨ (s₁.threads t).state = .runnable
  rcases threadCreateUser_cases hcreate with ⟨-, rfl⟩ | ⟨-, -, -, hmake⟩
  · exact hold
  · have hnew : ((s₀.modThread tid fun x =>
        initUserThread x (threadStack cfg tid) entry arg name sstatus).threads t).state = .unused ∨
        ((s₀.modThread tid fun x =>
          initUserThread x (threadStack cfg tid) entry arg name sstatus).threads t).state =
          .runnable := by
      rw [Kernel.modThread_threads]
      split
      · exact .inr rfl
      · exact hold
    rcases threadMakeRunnable_cases hmake with ⟨rfl, -⟩ | ⟨rq, hw⟩
    · exact hnew
    · rw [hw.threads]
      split
      · exact .inr rfl
      · exact hnew

theorem exact_init (hi : (kernelSystem cfg).init s) : s.slots.Exact cfg.threadMax := by
  refine ⟨joinersWait_init hi, fun w h1 h2 hw => ?_, fun t h1 h2 hz => ?_⟩
  · have hst : (s.threads w).state = .waiting := phase_eq_waiting.mp hw
    rcases init_alive hi h1 h2 with hi | hi <;> rw [hst] at hi <;> cases hi
  · have hst : (s.threads t).state = .zombie := phase_eq_zombie.mp hz
    rcases init_alive hi h1 h2 with hi | hi <;> rw [hst] at hi <;> cases hi

theorem settled_init (hi : (kernelSystem cfg).init s) : Settled cfg s :=
  ⟨basic_init hi, sched_init hi, exact_init hi⟩

theorem Settled.next {e : Event} (hs : Settled cfg s) (hg : Allowed cfg s e)
    (hc : NoStrayKill cfg s e) (hstep : step cfg s e = .ok s') : Settled cfg s' := by
  obtain ⟨hstrict, hslots⟩ := hs.event hg hc hstep
  obtain ⟨q, hsched⟩ := hs.sched
  refine ⟨basic_step hs.basic hg hstep, sched_step hsched hs.basic ?_ hg hstep, ?_⟩
  · rintro h regs io rfl
    exact (NoStrayKill.safe hc).safe hsched hs.exact.toJoinersWait hg.1
  · rw [hslots]
    exact hs.exact.apply hstrict

theorem settled_reachable (hr : Reachable ((kernelSystem cfg).restrict (NoStrayKill cfg)) s) :
    Settled cfg s := by
  apply hr.invariant (Settled cfg)
  · exact fun s₁ hi => settled_init hi
  · exact fun s₁ e s₂ hs hg hstep => hs.next hg.1 hg.2 hstep

/-! ## What a slot goes through in a step -/

section Step

variable {e : Event} (hs : Settled cfg s) (hg : Allowed cfg s e) (hc : NoStrayKill cfg s e)
  (hstep : step cfg s e = .ok s')

include hs hg hc hstep

theorem Settled.slotStep (u : Int) :
    Table.SlotStep s.slots u (stepEvent cfg s e) (s'.slots u) := by
  obtain ⟨hstrict, hslots⟩ := hs.event hg hc hstep
  rw [hslots]
  exact hs.exact.slotStep hstrict u

/-- A joiner stops waiting because its target dies, and then its target is gone. -/
theorem Settled.released {w : Int} (hw : (s.threads w).state = .waiting)
    (hw' : (s'.threads w).state ≠ .waiting) :
    (∃ code, stepEvent cfg s e = .terminate (s.threads w).waitingFor code true) ∧
      0 ≤ w ∧ (s.threads (s.threads w).waitingFor).joinWaiter = w ∧
      (s.threads (s.threads w).waitingFor).state.phase = .alive ∧
      (s'.threads (s.threads w).waitingFor).state = .unused := by
  have hph : (s.slots w).phase = .waiting := phase_eq_waiting.mpr hw
  have hph' : (s'.slots w).phase ≠ .waiting := fun heq => hw' (phase_eq_waiting.mp heq)
  have hslot := hs.slotStep hg hc hstep w
  generalize hV : s'.slots w = x at hslot hph'
  generalize hE : stepEvent cfg s e = ev at hslot
  cases hslot with
  | same => exact absurd hph hph'
  | create hu =>
    rw [hph] at hu
    cases hu
  | wait => exact absurd rfl hph'
  | joined => exact absurd hph hph'
  | detach => exact absurd hph hph'
  | collect hz =>
    rw [hph] at hz
    cases hz
  | @released t code h0 hjoin halive hwait =>
    obtain rfl : (s.threads w).waitingFor = t := hwait.2
    refine ⟨⟨code, rfl⟩, h0, hjoin, halive, ?_⟩
    -- the dead thread had a joiner, so it is not left a zombie
    have hdead := hs.slotStep hg hc hstep (s.threads w).waitingFor
    rw [hE] at hdead
    generalize hU : s'.slots (s.threads w).waitingFor = y at hdead
    have hzero : (s'.slots (s.threads w).waitingFor).phase = .unused := by
      rw [hU]
      cases hdead with
      | same hno => exact absurd rfl (hno code true)
      | released _ _ _ hwaits =>
        rw [hwaits.1] at halive
        cases halive
      | freed => rfl
      | died _ hneg =>
        have hw0 : (s.slots (s.threads w).waitingFor).joinWaiter = w := hjoin
        omega
    exact phase_eq_unused.mp hzero
  | freed halive =>
    rw [hph] at halive
    cases halive
  | died halive =>
    rw [hph] at halive
    cases halive

/-- A thread that waits did so before, or has just called `join`. -/
theorem Settled.waiting {w : Int} (hw' : (s'.threads w).state = .waiting) :
    ((s.threads w).state = .waiting ∧ (s'.threads w).waitingFor = (s.threads w).waitingFor ∧
      (s'.threads w).joinStatusPtr = (s.threads w).joinStatusPtr) ∨
    ((s.threads w).state.phase = .alive ∧
      stepEvent cfg s e = .wait w (s'.threads w).waitingFor (s'.threads w).joinStatusPtr) := by
  have hph' : (s'.slots w).phase = .waiting := phase_eq_waiting.mpr hw'
  have hslot := hs.slotStep hg hc hstep w
  rw [← phase_eq_waiting]
  change ((s.slots w).phase = .waiting ∧ (s'.slots w).waitingFor = (s.slots w).waitingFor ∧
    (s'.slots w).statusPtr = (s.slots w).statusPtr) ∨
    ((s.slots w).phase = .alive ∧
      stepEvent cfg s e = .wait w (s'.slots w).waitingFor (s'.slots w).statusPtr)
  generalize s'.slots w = x at hslot hph' ⊢
  generalize stepEvent cfg s e = ev at hslot ⊢
  cases hslot with
  | same => exact .inl ⟨hph', rfl, rfl⟩
  | create => cases hph'
  | wait halive => exact .inr ⟨halive, rfl⟩
  | joined => exact .inl ⟨hph', rfl, rfl⟩
  | detach => exact .inl ⟨hph', rfl, rfl⟩
  | collect => cases hph'
  | released => cases hph'
  | freed => cases hph'
  | died => cases hph'

/-- A thread becomes a zombie by dying, with the exit code of its death. -/
theorem Settled.zombie {t : Int} (ht : (s'.threads t).state = .zombie) :
    ((s.threads t).state = .zombie ∧ (s'.threads t).exitCode = (s.threads t).exitCode) ∨
      ((s.threads t).state ≠ .zombie ∧
        stepEvent cfg s e = .terminate t (s'.threads t).exitCode true) := by
  have hph' : (s'.slots t).phase = .zombie := phase_eq_zombie.mpr ht
  have hslot := hs.slotStep hg hc hstep t
  show ((s.threads t).state = .zombie ∧ (s'.slots t).exitCode = (s.slots t).exitCode) ∨
    ((s.threads t).state ≠ .zombie ∧ stepEvent cfg s e = .terminate t (s'.slots t).exitCode true)
  rw [ne_eq, ← phase_eq_zombie]
  change ((s.slots t).phase = .zombie ∧ _) ∨ ((s.slots t).phase ≠ .zombie ∧ _)
  generalize s'.slots t = x at hslot hph' ⊢
  generalize stepEvent cfg s e = ev at hslot ⊢
  cases hslot with
  | same => exact .inl ⟨hph', rfl⟩
  | create => cases hph'
  | wait => cases hph'
  | joined _ hz => exact absurd hph' hz
  | detach _ hz => exact absurd hph' hz
  | collect => cases hph'
  | released => cases hph'
  | freed => cases hph'
  | died halive =>
    refine .inr ⟨?_, rfl⟩
    rw [halive]
    decide

/-- A zombie stays one until its slot is freed. -/
theorem Settled.zombie_left {t : Int} (ht : (s.threads t).state = .zombie) :
    (s'.threads t).state = .zombie ∨ (s'.threads t).state = .unused := by
  have hph : (s.slots t).phase = .zombie := phase_eq_zombie.mpr ht
  rw [← phase_eq_zombie, ← phase_eq_unused]
  change (s'.slots t).phase = .zombie ∨ (s'.slots t).phase = .unused
  have hslot := hs.slotStep hg hc hstep t
  generalize s'.slots t = x at hslot ⊢
  generalize stepEvent cfg s e = ev at hslot
  cases hslot with
  | same => exact .inl hph
  | create hu =>
    rw [hph] at hu
    cases hu
  | wait halive =>
    rw [hph] at halive
    cases halive
  | joined _ hz => exact absurd hph hz
  | detach _ hz => exact absurd hph hz
  | collect => exact .inr rfl
  | released _ _ _ hwaits =>
    rw [hwaits.1] at hph
    cases hph
  | freed => exact .inr rfl
  | died halive =>
    rw [hph] at halive
    cases halive

/-- A thread that dies lived, and is a zombie or gone afterwards. -/
theorem Settled.dies {t code : Int} {now : Bool} (ht : stepEvent cfg s e = .terminate t code now) :
    (s.threads t).state.phase = .alive ∧
      ((s'.threads t).state = .zombie ∨ (s'.threads t).state = .unused) := by
  obtain ⟨hstrict, -⟩ := hs.event hg hc hstep
  rw [ht] at hstrict
  have halive : (s.slots t).phase = .alive := hstrict.2.2.1
  refine ⟨halive, ?_⟩
  rw [← phase_eq_zombie, ← phase_eq_unused]
  change (s'.slots t).phase = .zombie ∨ (s'.slots t).phase = .unused
  have hslot := hs.slotStep hg hc hstep t
  rw [ht] at hslot
  generalize s'.slots t = x at hslot ⊢
  cases hslot with
  | same hno => exact absurd rfl (hno code now)
  | released _ _ _ hwaits =>
    rw [hwaits.1] at halive
    cases halive
  | freed => exact .inr rfl
  | died => exact .inl rfl

end Step

end Ccos
