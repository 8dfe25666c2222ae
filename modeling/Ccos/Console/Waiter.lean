import Mathlib.Tactic
import Ccos.Console.Read

/-!
# The reader that waits for stdin

`g_stdin_waiter` has room for one thread.  As long as no read starts while a thread is blocked in
another one, whoever is `BLOCKED` is registered there, and the next character wakes it.
-/

namespace Ccos

open Reasoning

variable {cfg : Config} {dead : Prop} {s s' : Kernel} {h : Nat} {t : Int} {q : Nat → List Int}

/-- Every blocked thread is the registered reader. -/
def NoneForgotten (cfg : Config) (s : Kernel) : Prop :=
  ∀ t : Int, 0 ≤ t → t < cfg.threadMax → (s.threads t).state = .blocked → s.stdinWaiter = t

/-- A killed thread is not blocked any more. -/
theorem kill_not_blocked {cur : Int} (hhit : KillHits cfg s h t)
    (hself : (s.threads t).joinWaiter ≠ t)
    (hs : threadSysKill cfg s h cur t = .ok s') : (s'.threads t).state ≠ .blocked := by
  rcases threadSysKill_cases hs with ⟨hno, -⟩ | ⟨-, hkill⟩
  · exact absurd hhit hno
  obtain ⟨rq, s₁, -, hrel, rfl⟩ := killThread_cases hkill
  have hvictim : ((killed cfg s h t rq).threads t).state = .zombie := by
    rw [killed_threads, if_pos rfl]
    rfl
  -- neither the recycled slot nor a change of the recorded joiner brings `BLOCKED` back
  have hmark : ∀ (k : Kernel) (w : Int), (k.threads t).state = .zombie →
      ((k.modThread t (Thread.setJoinWaiter · w)).threads t).state ≠ .blocked := by
    intro k w hk hbl
    have hold := modThread_leaves (.inl rfl) hbl
    rw [hk] at hold
    cases hold
  have hrecycle : ∀ k : Kernel, (k.threads t).state = .zombie →
      ((recycleThread cfg k t).threads t).state ≠ .blocked := by
    intro k hk hbl
    have hold := recycle_paused (.inr rfl) hbl
    rw [hk] at hold
    cases hold
  have hkept : (s₁.threads t).state ≠ .blocked := by
    rcases hrel with ⟨-, -, s₀, hmake, rfl⟩ | ⟨-, rfl⟩ | ⟨-, rfl⟩
    · have hz : (s₀.threads t).state = .zombie := by
        rw [threadMakeRunnable_threads hmake hself.symm, deliver_other hself.symm]
        exact hvictim
      split
      · exact hrecycle s₀ hz
      · exact hmark s₀ _ hz
    · split
      · apply hrecycle
        rw [Kernel.modThread_threads, if_pos rfl]
        exact hvictim
      · exact hmark _ _ hvictim
    · rw [hvictim]
      decide
  intro hbl
  exact hkept (modThread_leaves (.inl rfl) hbl)

/-- A received character wakes the registered reader if that is blocked. -/
theorem char_wakes_reader {ch : UInt8} (hb : Basic cfg s) (h0 : 0 ≤ s.stdinWaiter)
    (hhi : s.stdinWaiter < cfg.threadMax) (hbl : (s.threads s.stdinWaiter).state = .blocked)
    (hoff : s.rq.onRq s.stdinWaiter = false) (hs : consoleOnCharFromIrq cfg s h ch = .ok s') :
    (s'.threads s.stdinWaiter).state = .runnable := by
  have hlo : (cfg.maxHarts : Int) ≤ s.stdinWaiter := by
    by_contra hlt
    rcases (hb.idle s.stdinWaiter h0 (by omega)).1 with hst | hst <;> rw [hbl] at hst <;> cases hst
  by_cases hpend : (s.threads s.stdinWaiter).pendingReadBuf ≠ 0 ∧
      (s.threads s.stdinWaiter).pendingReadLen ≠ 0
  · exact (char_completes hb h0 hhi hbl hoff hpend.1 hpend.2 hs).runnable
  · -- nothing to store: the thread is only woken
    rcases consoleOnCharFromIrq_cases hs with ⟨hneg, -⟩ | ⟨-, s₁, hread, rfl⟩
    · omega
    rcases threadReadFromStdin_cases hread with ⟨-, hwake⟩ | ⟨hp, -⟩
    · have hwoken := (@threadWake_blocked cfg { s with rx := s.rx.put ch } s₁ h _ hlo hhi hbl hoff
        hwake).1
      show (s₁.threads s.stdinWaiter).state = .runnable
      rw [hwoken]
      rfl
    · exact absurd hp hpend

/-- The first character of an external interrupt finds the blocked reader and wakes it. -/
theorem first_char_wakes {regs : Trapframe} {ch : UInt8} {v : Kernel} (hb : Basic cfg s)
    (hs : Sched cfg dead none s q) (hn : NoneForgotten cfg s) (h0 : 0 ≤ t) (h1 : t < cfg.threadMax)
    (hbl : (s.threads t).state = .blocked)
    (hch : consoleOnCharFromIrq cfg (saveRegs s h regs) h ch = .ok v) :
    (v.threads t).state = .runnable := by
  have hreg : (saveRegs s h regs).stdinWaiter = t := hn t h0 h1 hbl
  have hsus : (s.threads t).state.suspended = true := by
    rw [hbl]
    rfl
  have hwoken : (v.threads (saveRegs s h regs).stdinWaiter).state = .runnable := by
    refine char_wakes_reader (hb.quiet (saveRegs_quiet s h regs)) ?_ ?_ ?_ ?_ hch
    all_goals rw [hreg]
    · exact h0
    · exact h1
    · rw [saveRegs_state]
      exact hbl
    · exact (hs.suspended_off h0 h1 hsus).2
  rw [hreg] at hwoken
  exact hwoken

theorem noneForgotten_trap {regs : Trapframe} {io : TrapInput} (hb : Basic cfg s)
    (hs : Sched cfg dead none s q) (hn : NoneForgotten cfg s) (hg : Allowed cfg s (.trap h regs io))
    (hc : ReadsAlone cfg s (.trap h regs io)) (hstep : step cfg s (.trap h regs io) = .ok s') :
    NoneForgotten cfg s' := by
  intro t h0 h1 hbl'
  obtain ⟨hrun, -⟩ := trap_runAction hb hg hstep
  rcases trap_paused (.inr rfl) hb hg hstep hbl' with hbl | ⟨hcur, ⟨hno, -⟩ | ⟨-, p, n, ha⟩⟩
  · -- blocked before the trap as well, so it was the registered reader
    have hreg := hn t h0 h1 hbl
    have hcur : t ≠ (s.cpus h).currentTid := by
      intro heq
      have hnot := hs.cur_not_suspended hg.1
      rw [← heq, hbl] at hnot
      cases hnot
    by_cases huse : (trapAction cfg regs io).usesConsole = false
    · obtain ⟨-, -, hkept⟩ := trap_consoleKept hb hg hstep huse
      rw [clocked_stdinWaiter] at hkept
      rcases hkept with hsame | ⟨-, hgone⟩
      · exact hsame.trans hreg
      · -- its slot was recycled, so it is not blocked
        exfalso
        rw [hreg] at hgone
        rcases hgone with heq | hterm | hcoll
        · exact hcur heq
        · rcases terminated_cases hterm with ⟨code, -, heq⟩ | ⟨ha, hhit⟩
          · exact hcur heq
          · rw [ha] at hrun
            refine kill_not_blocked (killHits_saveRegs.mpr hhit) ?_ hrun hbl'
            rw [saveRegs_joinWaiter]
            exact hb.joinSelf t h0
        · obtain ⟨-, -, hz, -⟩ := collected_cases hcoll
          rw [hbl] at hz
          cases hz
    · cases ha : trapAction cfg regs io with
      | read fd p n =>
        -- while a thread is blocked nobody else may start a read of stdin
        have hfd : fd ≠ 0 := by
          rintro rfl
          exact hc.none_blocked ha h0 h1 hbl
        rcases trap_read hb hg hstep ha with ⟨-, v, rfl⟩ | ⟨h0', -⟩ | ⟨h0', -⟩
        · exact hreg
        · exact absurd h0' hfd
        · exact absurd h0' hfd
      | external claims =>
        rw [ha] at hrun
        obtain ⟨s₁, ops, irqs, huart, rfl, -⟩ := platformHandleSExternal_cases hrun
        cases hrec : received (saveRegs s h regs) claims with
        | nil =>
          rw [hrec] at huart
          cases huart
          exact hreg
        | cons ch rest =>
          -- the first character wakes it, and the later ones do not touch it again
          exfalso
          rw [hrec] at huart
          unfold uart16550IrqHandler at huart
          rw [List.foldlM_cons, bind_eq_ok] at huart
          obtain ⟨v, hch, hrest⟩ := huart
          have hwoken := first_char_wakes hb hs hn h0 h1 hbl hch
          have hneg := char_stdinWaiter hch
          have hsame := (uart_bystander (u := t) hrest h0 (by omega)).1
          have hend : (s₁.threads t).state = .blocked := hbl'
          rw [hsame, hwoken] at hend
          cases hend
      | _ =>
        rw [ha] at huse
        exact absurd rfl huse
  · cases hno
  · -- the current thread has just blocked and registered itself
    rcases trap_read hb hg hstep ha with ⟨hfd, -⟩ | ⟨-, -, hs'⟩ | ⟨-, -, -, -, -, hreg, -⟩
    · exact absurd rfl hfd
    · exfalso
      have hnot := hs.cur_not_suspended hg.1
      rw [hs'] at hbl'
      have hold : ((drained (saveRegs s h regs) p n).threads t).state = .blocked :=
        modThread_leaves (.inl rfl) hbl'
      have hsave : ((saveRegs s h regs).threads t).state = .blocked := hold
      rw [saveRegs_state, hcur] at hsave
      rw [hsave] at hnot
      cases hnot
    · exact hreg.trans hcur.symm

theorem noneForgotten_step {e : Event} (hb : Basic cfg s) (hs : Sched cfg dead none s q)
    (hn : NoneForgotten cfg s) (hg : Allowed cfg s e) (hc : ReadsAlone cfg s e)
    (hstep : step cfg s e = .ok s') : NoneForgotten cfg s' := by
  cases e with
  | cpuInit h =>
    obtain ⟨-, c, -, -, -, -, -, rfl⟩ := cpuInit_cases hstep
    exact hn
  | enterIdle h =>
    obtain ⟨-, -, -, -, hreg, -, -, -, -, -, hth, -⟩ := enterIdle_cases hstep
    intro t h0 h1 hbl
    rw [hth] at hbl
    split at hbl
    · cases hbl
    · exact hreg.trans (hn t h0 h1 hbl)
  | trap h regs io => exact noneForgotten_trap hb hs hn hg hc hstep

/-! ## Runs -/

/-- No read of stdin starts while a thread is blocked in one, and no slot that a hart still executes
is recycled. -/
def ReadsInTurn (cfg : Config) (s : Kernel) (e : Event) : Prop :=
  NoLiveRecycle cfg s e ∧ ReadsAlone cfg s e

instance (s : Kernel) (e : Event) : Decidable (ReadsInTurn cfg s e) :=
  inferInstanceAs (Decidable (_ ∧ _))

/-- Nobody is blocked when the run starts. -/
theorem noneForgotten_init (hi : (kernelSystem cfg).init s) : NoneForgotten cfg s := by
  intro t h0 h1 hbl
  exact absurd hbl (init_not_paused (.inr rfl) hi h0 h1)

theorem noneForgotten_reachable (hr : Reachable ((kernelSystem cfg).restrict (ReadsInTurn cfg)) s) :
    (∃ q, Sched cfg True none s q) ∧ NoneForgotten cfg s := by
  refine kernel_invariant (fun s => (∃ q, Sched cfg True none s q) ∧ NoneForgotten cfg s)
    (fun _ hi => ⟨sched_init hi, noneForgotten_init hi⟩) ?_ hr
  rintro s₁ e s₂ hb ⟨⟨q, hs⟩, hn⟩ hg hc hstep
  refine ⟨sched_step hs hb ?_ hg hstep, noneForgotten_step hb hs hn hg hc.2 hstep⟩
  rintro h regs io rfl
  exact hc.1.safe

/-- In every run in which no read of stdin starts while a thread is blocked in another one, and no
slot is recycled that a hart still executes, a `BLOCKED` thread is the registered reader, and the
next character received makes it `RUNNABLE`. -/
theorem blocked_reader_registered (cfg : Config) {s : Kernel} {t : Int}
    (hr : Reachable ((kernelSystem cfg).restrict (ReadsInTurn cfg)) s) (h0 : 0 ≤ t)
    (h1 : t < cfg.threadMax) (hbl : (s.threads t).state = .blocked) :
    s.stdinWaiter = t ∧ ∀ h regs io claims ch rest v, Allowed cfg s (.trap h regs io) →
      trapAction cfg regs io = .external claims → received s claims = ch :: rest →
      consoleOnCharFromIrq cfg (saveRegs s h regs) h ch = .ok v →
      (v.threads t).state = .runnable := by
  obtain ⟨⟨q, hs⟩, hn⟩ := noneForgotten_reachable hr
  refine ⟨hn t h0 h1 hbl, ?_⟩
  intro h regs io claims ch rest v _ _ _ hch
  exact first_char_wakes (basic_reachable hr.unrestrict) hs hn h0 h1 hbl hch

/-- `user_main` (1) is blocked in `read`, and a character arrives. -/
theorem blocked_reader_registered_example :
    ∃ s v, Reachable ((kernelSystem oneHart).restrict (ReadsInTurn oneHart)) s ∧
      (s.threads 1).state = .blocked ∧ s.stdinWaiter = 1 ∧
      consoleOnCharFromIrq oneHart (saveRegs s 0 extRegs) 0 65 = .ok v ∧
      (v.threads 1).state = .runnable := by
  obtain ⟨s, hr, hs⟩ := exists_reachable oneHart (ReadsInTurn oneHart) bootOnHart0
    (startMain ++ [sysReadStdin 0 0x5000 8])
    (fun s => decide (Allowed oneHart s (uartIrq 0 [65]) ∧ (s.threads 1).state = .blocked ∧
      received s (uartClaim [65]) = [65]) &&
      returnsTo (consoleOnCharFromIrq oneHart (saveRegs s 0 extRegs) 0 65) fun v => v.rx.isEmpty)
    (by decide +kernel)
  rw [Bool.and_eq_true, decide_eq_true_eq] at hs
  obtain ⟨⟨hg, hbl, hrx⟩, hok⟩ := hs
  obtain ⟨v, hch, -⟩ := exists_ok hok
  have hreg := blocked_reader_registered oneHart hr (by decide) (by decide) hbl
  exact ⟨s, v, hr, hbl, hreg.1, hch, hreg.2 0 extRegs _ _ 65 [] v hg rfl hrx hch⟩

/-- `user_main` (1) blocks in `read`, then thread 2 does; the character that arrives wakes thread 2,
and nobody is registered any more while thread 1 is `BLOCKED`. -/
theorem second_reader_hides_first :
    ∃ s s', Reachable (kernelSystem oneHart) s ∧ (s.threads 1).state = .blocked ∧
      s.stdinWaiter = 2 ∧
      step oneHart s (uartIrq 0 [65]) = .ok s' ∧ (s'.threads 1).state = .blocked ∧
      s'.stdinWaiter = -1 := by
  obtain ⟨s, hr, hs⟩ := exists_reachable oneHart anyStep bootOnHart0
    (startMain ++ [sysCreate 0, sysReadStdin 0 0x5000 8, sysReadStdin 0 0x6000 8])
    (fun s => decide ((s.threads 1).state = .blocked ∧ s.stdinWaiter = 2) &&
      stepTo oneHart s (uartIrq 0 [65]) fun s' =>
        decide ((s'.threads 1).state = .blocked ∧ s'.stdinWaiter = -1))
    (by decide +kernel)
  rw [Bool.and_eq_true, decide_eq_true_eq] at hs
  obtain ⟨⟨hbl, hreg⟩, hstep⟩ := hs
  obtain ⟨s', -, hs', hend⟩ := exists_step hstep
  obtain ⟨hbl', hreg'⟩ := of_decide_eq_true hend
  exact ⟨s, s', hr.unrestrict, hbl, hreg, hs', hbl', hreg'⟩

end Ccos
