import Mathlib.Tactic
import Ccos.Join.Effect
import Ccos.Kernel.Trace

/-!
# Wake-ups of `join` reach a joiner

The join relation along whole runs: the joiner recorded at a thread that is about to die waits for
exactly that thread.
-/

namespace Ccos

open Reasoning

variable {cfg : Config} {dead : Prop} {s s' : Kernel} {h : Nat} {q : Nat → List Int}

/-! ## Boot -/

theorem cpuInit_slots (hstep : step cfg s (.cpuInit h) = .ok s') : s'.slots = s.slots := by
  obtain ⟨-, c, -, -, -, -, -, rfl⟩ := cpuInit_cases hstep
  rfl

theorem enterIdle_slots (hb : Basic cfg s) (hg : Allowed cfg s (.enterIdle h))
    (hstep : step cfg s (.enterIdle h) = .ok s') : s'.slots = s.slots := by
  obtain ⟨-, -, -, -, -, -, -, -, -, -, hthreads, -⟩ := enterIdle_cases hstep
  funext t
  show (s'.threads t).slot = (s.threads t).slot
  rw [hthreads]
  split
  · rename_i ht
    have halive : (s.threads t).state.phase = .alive := by
      rw [ht]
      exact hb.idle_alive (by omega) (by exact_mod_cast hg.1)
    unfold Thread.slot
    rw [halive]
    rfl
  · rfl

/-- Nobody has a joiner when the run starts. -/
theorem init_joinWaiter (hi : (kernelSystem cfg).init s) {t : Int} (h1 : 0 ≤ t)
    (h2 : t < cfg.threadMax) : (s.threads t).joinWaiter = -1 := by
  obtain ⟨s₀, s₁, tid, entry, arg, name, sstatus, hboot, hcreate, rfl⟩ := init_cases hi
  have hold : (s₀.threads t).joinWaiter = -1 := (hboot.slots t h1 h2).2.2.2.2.2.1
  show (s₁.threads t).joinWaiter = -1
  rcases threadCreateUser_cases hcreate with ⟨-, rfl⟩ | ⟨-, -, -, hmake⟩
  · exact hold
  · have hkeep : (s₁.threads t).joinWaiter = ((s₀.modThread tid fun x =>
        initUserThread x (threadStack cfg tid) entry arg name sstatus).threads t).joinWaiter := by
      rcases threadMakeRunnable_cases hmake with ⟨rfl, -⟩ | ⟨rq, hw⟩
      · rfl
      · rw [hw.threads]
        split <;> rfl
    rw [hkeep, Kernel.modThread_threads]
    split
    · exact hold
    · exact hold

theorem joinersWait_init (hi : (kernelSystem cfg).init s) : s.slots.JoinersWait cfg.threadMax where
  waits t h1 h2 h0 := by
    have hneg : (s.slots t).joinWaiter = -1 := init_joinWaiter hi h1 h2
    omega
  unused t h1 h2 _ := by
    have hneg : (s.slots t).joinWaiter = -1 := init_joinWaiter hi h1 h2
    omega

/-! ## Traps -/

/-- What a trap must not do for the join relation to survive it.  Without `dead` no kill hits a
thread that another hart executes; with `dead` one that was killed there is not collected before its
hart has left it, and, once its joiner was released, neither exits nor suspends itself. -/
structure JoinSafe (cfg : Config) (dead : Prop) (s : Kernel) (h : Nat) (a : Action) : Prop where
  kill : dead ∨ ∀ t, a = .kill t → KillHits cfg s h t →
    ∀ k, Entered cfg s k → (s.cpus k).currentTid ≠ t
  victim : ∀ t, a = .kill t → KillHits cfg s h t → (s.threads t).state ≠ .waiting
  collect : dead → ∀ t, collected cfg s h a = some t → (s.threads t).runningHart < 0
  released : dead → (Suspends cfg s h a ∨ ∃ code, a = .exit code) →
    (s.threads (s.cpus h).currentTid).state = .zombie →
    (s.threads (s.cpus h).currentTid).joinWaiter < 0

/-- The current thread may suspend itself or exit. -/
theorem Sched.mayStop {a : Action} (hs : Sched cfg dead none s q) (he : Entered cfg s h)
    (hsafe : JoinSafe cfg dead s h a) (ha : Suspends cfg s h a ∨ ∃ code, a = .exit code) :
    s.slots.MayStop (s.cpus h).currentTid := by
  show (s.threads _).state.phase ≠ .unused ∧ (s.threads _).state.phase ≠ .waiting ∧
    ((s.threads _).state.phase = .zombie → (s.threads _).joinWaiter < 0)
  rcases (hs.cur h he (by simp)).1 with hrun | ⟨hd, hz⟩
  · rw [hrun]
    exact ⟨by decide, by decide, fun hc => by cases hc⟩
  · rw [hz]
    exact ⟨by decide, by decide, fun _ => hsafe.released hd ha hz⟩

theorem terminated_mayStop {a : Action} {t : Int} (hs : Sched cfg dead none s q)
    (he : Entered cfg s h) (hsafe : JoinSafe cfg dead s h a) (ht : terminated cfg s h a = some t) :
    0 ≤ t ∧ t < cfg.threadMax ∧ s.slots.MayStop t := by
  rcases terminated_cases ht with ⟨code, rfl, rfl⟩ | ⟨rfl, hhit⟩
  · obtain ⟨h0, hlt⟩ := Sched.cur_range hs.harts he
    exact ⟨h0, hlt, hs.mayStop he hsafe (.inr ⟨code, rfl⟩)⟩
  · refine ⟨hhit.1.le, hhit.2.1, ?_⟩
    show (s.threads t).state.phase ≠ .unused ∧ (s.threads t).state.phase ≠ .waiting ∧
      ((s.threads t).state.phase = .zombie → (s.threads t).joinWaiter < 0)
    simp only [ne_eq, phase_eq_unused, phase_eq_waiting, phase_eq_zombie]
    exact ⟨hhit.2.2.2.2.1, hsafe.victim t rfl hhit, fun hz => absurd hz hhit.2.2.2.2.2⟩

/-- The joiner recorded at a thread that is about to die waits for it. -/
theorem joiner_of_terminated {a : Action} {t : Int} (hs : Sched cfg dead none s q)
    (hj : s.slots.JoinersWait cfg.threadMax) (he : Entered cfg s h)
    (hsafe : JoinSafe cfg dead s h a) (ht : terminated cfg s h a = some t)
    (h0 : 0 ≤ (s.threads t).joinWaiter) :
    (s.threads t).joinWaiter < cfg.threadMax ∧
      (s.threads (s.threads t).joinWaiter).state = .waiting ∧
      (s.threads (s.threads t).joinWaiter).waitingFor = t := by
  obtain ⟨h1, h2, hx⟩ := terminated_mayStop hs he hsafe ht
  obtain ⟨hlt, hph, hfor⟩ := hj.joiner h1 h2 hx h0
  exact ⟨hlt, phase_eq_waiting.mp hph, hfor⟩

theorem JoinSafe.safe {a : Action} (hs : Sched cfg dead none s q)
    (hj : s.slots.JoinersWait cfg.threadMax) (he : Entered cfg s h)
    (hsafe : JoinSafe cfg dead s h a) : Safe cfg dead s h a where
  kill := hsafe.kill
  joiner := by
    rintro - w ⟨t, ht, rfl⟩ h0 - hz
    have hwait := (joiner_of_terminated hs hj he hsafe ht h0).2.1
    rw [hz] at hwait
    cases hwait
  collect := hsafe.collect

/-- `alloc_thread_slot` returns an `UNUSED` slot. -/
theorem allocThreadSlot_unused (hpos : ¬ allocThreadSlot cfg s < 0) :
    0 ≤ allocThreadSlot cfg s ∧ allocThreadSlot cfg s < cfg.threadMax ∧
      (s.threads (allocThreadSlot cfg s)).state = .unused := by
  unfold allocThreadSlot at hpos ⊢
  cases hfind : (List.range' 1 (cfg.threadMax - 1)).find? fun i : Nat =>
      decide ((s.threads i).state = .unused) with
  | none =>
    rw [hfind] at hpos
    exact absurd (by decide) hpos
  | some i =>
    have hmem := List.mem_of_find?_eq_some hfind
    have hst := List.find?_some hfind
    rw [List.mem_range'] at hmem
    obtain ⟨j, hj, hij⟩ := hmem
    have hlt := cfg.maxHarts_lt
    exact ⟨by simp only; omega, by simp only; omega, by simpa using hst⟩

/-- The protocol admits what the handlers do. -/
theorem joinEvent_legal {a : Action} (hs : Sched cfg dead none s q) (he : Entered cfg s h)
    (hsafe : JoinSafe cfg dead s h a) : s.slots.Legal cfg.threadMax (joinEvent cfg s h a) := by
  cases a with
  | exit code => exact terminated_mayStop hs he hsafe rfl
  | kill t =>
    rw [joinEvent]
    split
    · rename_i hhit
      exact terminated_mayStop hs he hsafe (if_pos hhit)
    · trivial
  | join t p =>
    rw [joinEvent]
    split
    · -- an accepted `join` collects a zombie, or its caller waits for another slot in use
      rename_i hacc
      split
      · rename_i hz
        exact phase_eq_zombie.mpr hz
      · rename_i hz
        exact ⟨(Sched.cur_range hs.harts he).2, hs.mayStop he hsafe (.inl ⟨hacc, hz⟩),
          Ne.symm hacc.2.2.1, fun hu => hacc.2.2.2.1 (phase_eq_unused.mp hu)⟩
    · trivial
  | detach t =>
    rw [joinEvent]
    split
    · rename_i hacc
      split
      · rename_i hz
        exact phase_eq_zombie.mpr hz
      · exact fun hu => hacc.2.2.1 (phase_eq_unused.mp hu)
    · trivial
  | create entry arg name sstatus =>
    rw [joinEvent]
    split
    · trivial
    · rename_i hpos
      obtain ⟨h1, h2, hu⟩ := allocThreadSlot_unused hpos
      exact ⟨h1, h2, phase_eq_unused.mpr hu⟩
  | sleep ticks =>
    rw [joinEvent]
    split
    · rename_i hne
      exact hs.mayStop he hsafe (.inl hne)
    · trivial
  | read fd buf len =>
    rw [joinEvent]
    split
    · rename_i hb
      exact hs.mayStop he hsafe (.inl hb)
    · trivial
  | _ => trivial

theorem joinersWait_trap {regs : Trapframe} {io : TrapInput} (hb : Basic cfg s)
    (hs : Sched cfg dead none s q) (hj : s.slots.JoinersWait cfg.threadMax)
    (hsafe : JoinSafe cfg dead s h (trapAction cfg regs io)) (hg : Allowed cfg s (.trap h regs io))
    (hstep : step cfg s (.trap h regs io) = .ok s') : s'.slots.JoinersWait cfg.threadMax := by
  have hslots := trap_slots hb hs hg hstep fun t ht h0 =>
    ⟨(joiner_of_terminated hs hj hg.1 hsafe ht h0).1,
      (joiner_of_terminated hs hj hg.1 hsafe ht h0).2.1⟩
  have hlegal := hj.apply (joinEvent_legal hs hg.1 hsafe)
  rw [hslots]
  unfold trapSlots
  split
  · exact hlegal.reclaim _
  · exact hlegal

/-! ## Runs -/

/-- The scheduler's data and the join relation are in order. -/
def Joins (cfg : Config) (dead : Prop) (s : Kernel) : Prop :=
  (∃ q, Sched cfg dead none s q) ∧ s.slots.JoinersWait cfg.threadMax

theorem joins_init (hi : (kernelSystem cfg).init s) : Joins cfg dead s :=
  ⟨sched_init hi, joinersWait_init hi⟩

theorem joins_step {e : Event} (hb : Basic cfg s) (hj : Joins cfg dead s)
    (hsafe : ∀ h regs io, e = .trap h regs io → JoinSafe cfg dead s h (trapAction cfg regs io))
    (hg : Allowed cfg s e) (hstep : step cfg s e = .ok s') : Joins cfg dead s' := by
  obtain ⟨⟨q, hs⟩, hjw⟩ := hj
  refine ⟨sched_step hs hb ?_ hg hstep, ?_⟩
  · rintro h regs io rfl
    exact (hsafe h regs io rfl).safe hs hjw hg.1
  · cases e with
    | cpuInit h => exact cpuInit_slots hstep ▸ hjw
    | enterIdle h => exact enterIdle_slots hb hg hstep ▸ hjw
    | trap h regs io => exact joinersWait_trap hb hs hjw (hsafe h regs io rfl) hg hstep

theorem joins_reachable {cond : Kernel → Event → Prop}
    (hsafe : ∀ s h regs io, cond s (.trap h regs io) →
      JoinSafe cfg dead s h (trapAction cfg regs io))
    (hr : Reachable ((kernelSystem cfg).restrict cond) s) : Joins cfg dead s := by
  refine kernel_invariant (Joins cfg dead) (fun _ hi => joins_init hi) ?_ hr
  intro s₁ e s₂ hb hj hg hc hstep
  refine joins_step hb hj ?_ hg hstep
  rintro h regs io rfl
  exact hsafe s₁ h regs io hc

/-- No kill hits a thread that waits in `join`; a thread killed while another hart executes it is
not collected before that hart has left it and, if it had a joiner, does nothing there that would
suspend or end it. -/
def NoStaleJoin (cfg : Config) (s : Kernel) : Event → Prop
  | .trap h regs io =>
    (∀ t ∈ victim cfg s h (trapAction cfg regs io), (s.threads t).state ≠ .waiting) ∧
    (∀ t ∈ collected cfg s h (trapAction cfg regs io), (s.threads t).runningHart < 0) ∧
    (leaves cfg s h (trapAction cfg regs io) ≠ none →
      (s.threads (s.cpus h).currentTid).state = .zombie →
      (s.threads (s.cpus h).currentTid).joinWaiter < 0)
  | _ => True

instance (s : Kernel) : (e : Event) → Decidable (NoStaleJoin cfg s e)
  | .trap _ _ _ => inferInstanceAs (Decidable (_ ∧ _ ∧ _))
  | .cpuInit _ => inferInstanceAs (Decidable True)
  | .enterIdle _ => inferInstanceAs (Decidable True)

theorem mem_victim {t : Int} (hhit : KillHits cfg s h t) : t ∈ victim cfg s h (.kill t) := by
  show (if KillHits cfg s h t then some t else none) = some t
  rw [if_pos hhit]

theorem NoStaleJoin.safe {regs : Trapframe} {io : TrapInput}
    (hc : NoStaleJoin cfg s (.trap h regs io)) :
    JoinSafe cfg True s h (trapAction cfg regs io) where
  kill := .inl trivial
  victim t ha hhit := hc.1 t (ha ▸ mem_victim hhit)
  collect _ t ht := hc.2.1 t ht
  released _ ha hz := by
    refine hc.2.2 ?_ hz
    rcases ha with hsus | ⟨code, ha⟩
    · rw [leaves_of_suspends hsus]
      exact Option.some_ne_none h
    · rw [ha]
      exact Option.some_ne_none h

/-- In every run with that discipline, the joiner recorded at a thread that `exit` or `kill`
terminates is blocked in `join` on that thread. -/
theorem terminated_joiner_waits (cfg : Config) {s s' : Kernel} {h : Nat} {regs : Trapframe}
    {io : TrapInput} {t : Int}
    (hr : Reachable ((kernelSystem cfg).restrict (NoStaleJoin cfg)) s)
    (hg : Allowed cfg s (.trap h regs io)) (hc : NoStaleJoin cfg s (.trap h regs io))
    (_ : step cfg s (.trap h regs io) = .ok s')
    (ht : terminated cfg s h (trapAction cfg regs io) = some t)
    (h0 : 0 ≤ (s.threads t).joinWaiter) :
    (s.threads t).joinWaiter < cfg.threadMax ∧
      (s.threads (s.threads t).joinWaiter).state = .waiting ∧
      (s.threads (s.threads t).joinWaiter).waitingFor = t := by
  obtain ⟨⟨q, hs⟩, hj⟩ := joins_reachable (fun _ _ _ _ hc => NoStaleJoin.safe hc) hr
  exact joiner_of_terminated hs hj hg.1 hc.safe ht h0

/-- `user_main` (1) waits for thread 2, which then exits. -/
theorem terminated_joiner_waits_example :
    ∃ s s', Reachable ((kernelSystem oneHart).restrict (NoStaleJoin oneHart)) s ∧
      Allowed oneHart s (sysExit 0 7) ∧ NoStaleJoin oneHart s (sysExit 0 7) ∧
      step oneHart s (sysExit 0 7) = .ok s' ∧ (s.threads 2).joinWaiter = 1 ∧
      (s.threads 1).state = .waiting ∧ (s.threads 1).waitingFor = 2 := by
  obtain ⟨s, hr, hs⟩ := exists_reachable oneHart (NoStaleJoin oneHart) bootOnHart0
    (startMain ++ [sysCreate 0, sysJoin 0 2 0])
    (fun s => decide (NoStaleJoin oneHart s (sysExit 0 7) ∧ (s.cpus 0).currentTid = 2 ∧
      (s.threads 2).joinWaiter = 1) && stepTo oneHart s (sysExit 0 7) fun _ => true)
    (by decide +kernel)
  rw [Bool.and_eq_true, decide_eq_true_eq] at hs
  obtain ⟨⟨hc, hcur, hjw⟩, hstep⟩ := hs
  obtain ⟨s', hg, hs', -⟩ := exists_step hstep
  have hwait :=
    terminated_joiner_waits oneHart hr hg hc hs' (congrArg some hcur) (by rw [hjw]; decide)
  rw [hjw] at hwait
  exact ⟨s, s', hr, hg, hc, hs', hjw, hwait.2⟩

/-- `user_main` (1) waits for 2 and is killed by 3; then 2 exits with a dead thread as its joiner,
whose `a0` it writes and which it wakes. -/
theorem killed_joiner_released :
    ∃ s s', Reachable (kernelSystem oneHart) s ∧ Allowed oneHart s (sysExit 0 7) ∧
      step oneHart s (sysExit 0 7) = .ok s' ∧
      terminated oneHart s 0 (.exit 7) = some 2 ∧ (s.threads 2).joinWaiter = 1 ∧
      (s.threads 1).state = .zombie ∧ (s'.threads 1).state = .runnable := by
  obtain ⟨s, hr, hs⟩ := exists_reachable oneHart anyStep bootOnHart0
    (startMain ++ [sysCreate 0, sysCreate 0, sysJoin 0 2 0, sysYield 0, sysKill 0 1, sysYield 0])
    (fun s => decide (terminated oneHart s 0 (.exit 7) = some 2 ∧ (s.threads 2).joinWaiter = 1 ∧
      (s.threads 1).state = .zombie) &&
      stepTo oneHart s (sysExit 0 7) fun s' => decide ((s'.threads 1).state = .runnable))
    (by decide +kernel)
  rw [Bool.and_eq_true, decide_eq_true_eq] at hs
  obtain ⟨s', hg, hs', hrun⟩ := exists_step hs.2
  exact ⟨s, s', hr.unrestrict, hg, hs', hs.1.1, hs.1.2.1, hs.1.2.2, of_decide_eq_true hrun⟩

/-! ## Runs without kills -/

/-- No kill hits anything. -/
def KillFree (cfg : Config) (s : Kernel) : Event → Prop
  | .trap h regs io => victim cfg s h (trapAction cfg regs io) = none
  | _ => True

instance (s : Kernel) : (e : Event) → Decidable (KillFree cfg s e)
  | .trap _ _ _ => inferInstanceAs (Decidable (_ = _))
  | .cpuInit _ => inferInstanceAs (Decidable True)
  | .enterIdle _ => inferInstanceAs (Decidable True)

theorem KillFree.no_hit {regs : Trapframe} {io : TrapInput} {t : Int}
    (hc : KillFree cfg s (.trap h regs io)) (ha : trapAction cfg regs io = .kill t) :
    ¬ KillHits cfg s h t := by
  intro hhit
  have hmem := mem_victim hhit
  have hnone : victim cfg s h (trapAction cfg regs io) = none := hc
  rw [ha] at hnone
  rw [hnone] at hmem
  cases hmem

theorem KillFree.safe {regs : Trapframe} {io : TrapInput} (hc : KillFree cfg s (.trap h regs io)) :
    JoinSafe cfg False s h (trapAction cfg regs io) where
  kill := .inr fun _ ha hhit => absurd hhit (hc.no_hit ha)
  victim _ ha hhit := absurd hhit (hc.no_hit ha)
  collect := False.elim
  released := False.elim

end Ccos
