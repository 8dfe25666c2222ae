import Mathlib.Tactic
import Ccos.Sched.Reuse

/-!
# Work conservation

`thread_make_runnable` sets `need_resched` when it queues a thread on the hart it runs on, and no
code ever tests the flag.  A trap that does not call `schedule` therefore returns to the idle thread
whatever is queued by then.  `Stalls` says, from the state before the trap, when that happens.
-/

namespace Ccos

open Reasoning

variable {cfg : Config} {dead : Prop} {s s' : Kernel} {h : Nat} {q : Nat → List Int}

/-- A thread whose sleep is over at the next tick. -/
def DueSleeper (cfg : Config) (s : Kernel) : Prop :=
  ∃ t, t < cfg.threadMax ∧ (s.threads t).state = .sleeping ∧ (s.threads t).wakeupTick ≤ s.ticks + 1

instance : Decidable (DueSleeper cfg s) :=
  inferInstanceAs (Decidable (∃ t, t < cfg.threadMax ∧ _))

/-- A thread is registered as the stdin reader and still blocked. -/
def ReaderBlocked (cfg : Config) (s : Kernel) : Prop :=
  0 ≤ s.stdinWaiter ∧ s.stdinWaiter < cfg.threadMax ∧ (s.threads s.stdinWaiter).state = .blocked

instance : Decidable (ReaderBlocked cfg s) :=
  inferInstanceAs (Decidable (_ ∧ _))

/-- The trap does not reschedule and leaves hart `h` idle with something queued: something was there
before, or the handler itself makes a thread runnable. -/
def Stalls (cfg : Config) (s : Kernel) (h : Nat) : Action → Prop
  | .timer => (s.cpus h).currentTid = (s.cpus h).idleTid ∧ 1 < (s.cpus h).sliceLeft ∧
    (0 ≤ (s.rq.queues h).head ∨ (h = s.bootHartid ∧ DueSleeper cfg s))
  | .external claims => (s.cpus h).currentTid = (s.cpus h).idleTid ∧
    (0 ≤ (s.rq.queues h).head ∨ (received s claims ≠ [] ∧ ReaderBlocked cfg s))
  | _ => False

instance : (a : Action) → Decidable (Stalls cfg s h a)
  | .timer => inferInstanceAs (Decidable (_ ∧ _ ∧ (_ ∨ _)))
  | .external _ => inferInstanceAs (Decidable (_ ∧ (_ ∨ _)))
  | .ipi | .sleep _ | .exit _ | .join _ _ | .create _ _ _ _ | .kill _ | .detach _
    | .read _ _ _ | .query _ _ | .skip | .halt _ =>
    isFalse id

/-- If hart `h` is idle, its queue is empty. -/
def Conserves (s : Kernel) (h : Nat) : Prop :=
  (s.cpus h).currentTid = (s.cpus h).idleTid → (s.rq.queues h).head < 0

instance : Decidable (Conserves s h) :=
  inferInstanceAs (Decidable (_ → _))

/-! ## Handlers that wake nobody -/

/-- A tick without a due sleeper only counts. -/
theorem threadsTick_idle (hnone : ¬ DueSleeper cfg s)
    (hs : threadsTick cfg s h = .ok s') : s'.rq = s.rq := by
  unfold threadsTick at hs
  have hsame : s' = { s with ticks := s.ticks + 1 } := by
    refine foldlM_keeps (· = { s with ticks := s.ticks + 1 }) ?_ rfl hs
    rintro i hi s₁ s₂ rfl hstep
    unfold threadsTickStep at hstep
    split at hstep
    · rename_i hdue
      exact absurd ⟨i, List.mem_range.mp hi, hdue⟩ hnone
    · exact (Except.ok.inj hstep).symm
  rw [hsame]

/-- Nothing was woken so far, and no blocked reader is registered. -/
structure NoReader (cfg : Config) (s s₁ : Kernel) : Prop where
  rq : s₁.rq = s.rq
  waiter : ¬ ReaderBlocked cfg s₁

/-- A character without a blocked reader goes to the ring. -/
theorem NoReader.char {s₁ s₂ : Kernel} {ch : UInt8} (hn : NoReader cfg s s₁)
    (hs : consoleOnCharFromIrq cfg s₁ h ch = .ok s₂) : NoReader cfg s s₂ := by
  have hclear : ∀ s₃ : Kernel, ¬ ReaderBlocked cfg (s₃.setStdinWaiter (-1)) := by
    intro s₃ hr
    have := hr.1
    simp at this
  have hwake : ∀ {s₃ s₄ : Kernel}, threadWake cfg s₃ h s₁.stdinWaiter = .ok s₄ →
      s₃.rq = s₁.rq → (s₃.threads s₁.stdinWaiter).state = (s₁.threads s₁.stdinWaiter).state →
      s₄.rq = s.rq := by
    intro s₃ s₄ hwake hrq hst
    rcases threadWake_cases hwake with ⟨rfl, -⟩ | ⟨h0, hlt, hb, -⟩
    · exact hrq.trans hn.rq
    · exact absurd ⟨h0, hlt, hst ▸ hb⟩ hn.waiter
  rcases consoleOnCharFromIrq_cases hs with ⟨-, rfl⟩ | ⟨-, s₃, hread, rfl⟩
  · exact ⟨hn.rq, hn.waiter⟩
  refine ⟨?_, hclear s₃⟩
  change s₃.rq = s.rq
  rcases threadReadFromStdin_cases hread with ⟨-, hw⟩ | ⟨-, ⟨-, rfl⟩ | ⟨-, hw⟩⟩
  · exact hwake hw rfl rfl
  · exact hn.rq
  · refine hwake hw rfl ?_
    simp [completeRead, drained, consoleReadNonblock]

theorem external_idle {claims : List PlicClaim}
    (hs : platformHandleSExternal cfg s h claims = .ok s')
    (hnone : ¬ (received s claims ≠ [] ∧ ReaderBlocked cfg s)) : s'.rq = s.rq := by
  obtain ⟨s₁, ops, irqs, huart, rfl, -⟩ := platformHandleSExternal_cases hs
  by_cases hrx : received s claims = []
  · rw [hrx] at huart
    rw [← Except.ok.inj huart]
    rfl
  · have hno : NoReader cfg s s := ⟨rfl, fun hr => hnone ⟨hrx, hr⟩⟩
    unfold uart16550IrqHandler at huart
    exact (foldlM_keeps (NoReader cfg s) (fun ch _ s₂ s₃ hn hchar => hn.char hchar) hno huart).rq

/-! ## Handlers that wake somebody -/

/-- A push keeps every queue that is not empty so. -/
theorem rqPushTail_head {r r' : RunQueues} {k target : Nat} {t : Int}
    (hk : 0 ≤ (r.queues k).head) (hp : rqPushTail cfg r target t = .ok r') :
    0 ≤ (r'.queues k).head := by
  unfold rqPushTail at hp
  split_ifs at hp with h1 h2 h3 h4
  · exact Except.ok.inj hp ▸ hk
  · exact Except.ok.inj hp ▸ hk
  · exact Except.ok.inj hp ▸ hk
  · rw [← Except.ok.inj hp]
    by_cases hkt : k = target
    · subst hkt
      split_ifs
      · simp
        omega
      · simpa using hk
    · split_ifs <;> simpa [hkt] using hk

theorem threadMakeRunnable_head {k p : Nat} {t : Int} (hk : 0 ≤ (s.rq.queues k).head)
    (hs : threadMakeRunnable cfg s h t p = .ok s') : 0 ≤ (s'.rq.queues k).head := by
  rcases threadMakeRunnable_cases hs with ⟨rfl, -⟩ | ⟨rq, hw⟩
  · exact hk
  · rw [hw.rq_eq]
    exact rqPushTail_head hk hw.push

/-- A thread woken by a hart with an empty queue is queued on that hart. -/
theorem threadMakeRunnable_here {p : Nat} {t : Int} (hrepr : RqRepr cfg s.rq q)
    (hp : p < cfg.maxHarts) (hon : (s.cpus p).online = true) (h1 : (cfg.maxHarts : Int) ≤ t)
    (h2 : t < cfg.threadMax) (hoff : s.rq.onRq t = false) (hst : (s.threads t).state ≠ .running)
    (hs : threadMakeRunnable cfg s h t p = .ok s') : 0 ≤ (s'.rq.queues p).head := by
  by_cases hhead : 0 ≤ (s.rq.queues p).head
  · exact threadMakeRunnable_head hhead hs
  · have hempty : q p = [] := by
      by_contra hne
      exact hhead ((hrepr.head_nonneg hp).mpr hne)
    have htarget : schedPickTargetHart cfg s p = p := by
      apply schedPickTargetHart_empty hon
      rw [hrepr.rqLen_eq hp, hempty]
      rfl
    rcases threadMakeRunnable_cases hs with ⟨-, hno⟩ | ⟨rq, hw⟩
    · exfalso
      rcases hno with hlt | hge | hq | hrun
      · omega
      · omega
      · rw [hoff] at hq
        cases hq
      · exact hst hrun
    · obtain ⟨rq', hpush, hrepr', -⟩ := rqPushTail_spec hrepr hp h1 h2 hoff
      have hpush' := hw.push
      rw [htarget, hpush] at hpush'
      rw [hw.rq_eq, ← Except.ok.inj hpush', hrepr'.head_nonneg hp, setQueue_self]
      simp

theorem Sched.asleep_here {p : Nat} {t : Int} (hs : Sched cfg dead none s q) (hb : Basic cfg s)
    (hp : p < cfg.maxHarts) (hon : (s.cpus p).online = true) (h1 : 0 ≤ t) (h2 : t < cfg.threadMax)
    (hst : (s.threads t).state = .sleeping ∨ (s.threads t).state = .blocked) {s₁ : Kernel}
    (hmake : threadMakeRunnable cfg s₁ h t p = .ok s') (hrq : s₁.rq = s.rq)
    (hcpus : s₁.cpus = s.cpus) (hst₁ : (s₁.threads t).state = (s.threads t).state) :
    0 ≤ (s'.rq.queues p).head := by
  have hne : (s.threads t).state ≠ .runnable ∧ (s.threads t).state ≠ .running := by
    rcases hst with hst | hst <;> rw [hst] <;> decide
  have hge : (cfg.maxHarts : Int) ≤ t := by
    by_contra hlt
    rcases (hb.idle t h1 (by omega)).1 with hst | hst
    · exact hne.1 hst
    · exact hne.2 hst
  refine threadMakeRunnable_here (hrq ▸ hs.repr) hp (hcpus ▸ hon) hge h2 ?_ (hst₁ ▸ hne.2) hmake
  rw [hrq]
  exact hs.onRq_false hne.1

theorem threadsTickStep_head {k i : Nat} (hk : 0 ≤ (s.rq.queues k).head)
    (hs : threadsTickStep cfg h s i = .ok s') : 0 ≤ (s'.rq.queues k).head := by
  unfold threadsTickStep at hs
  split at hs
  · exact @threadMakeRunnable_head cfg (s.modThread i Thread.clearWakeup) s' h k _ _ hk hs
  · exact Except.ok.inj hs ▸ hk

theorem threadsTick_wakes (hs : Sched cfg dead none s q) (hb : Basic cfg s)
    (hdue : DueSleeper cfg s) (htick : threadsTick cfg s h = .ok s') :
    0 ≤ (s'.rq.queues s.bootHartid).head := by
  obtain ⟨t, hlt, hst, hwake⟩ := hdue
  unfold threadsTick at htick
  -- a due sleeper is woken on the boot hart unless another was before it
  have hhit : ∀ (i : Nat) (s₁ s₂ : Kernel), i < cfg.threadMax →
      s₁ = { s with ticks := s.ticks + 1 } → threadsTickStep cfg h s₁ i = .ok s₂ →
      s₂ = { s with ticks := s.ticks + 1 } ∨ 0 ≤ (s₂.rq.queues s.bootHartid).head := by
    rintro i s₁ s₂ hi rfl hstep
    unfold threadsTickStep at hstep
    split at hstep
    · rename_i hd
      refine .inr (hs.asleep_here hb hb.boot.1 hb.boot.2 (by omega) (by omega : (i : Int) < _)
        (.inl hd.1) hstep rfl rfl ?_)
      simp
    · exact .inl (Except.ok.inj hstep).symm
  refine foldlM_reaches (· = { s with ticks := s.ticks + 1 })
    (fun s₁ => 0 ≤ (s₁.rq.queues s.bootHartid).head) (List.mem_range.mpr hlt) ?_ ?_ ?_
      (.inl rfl) htick
  · exact fun i hi s₁ s₂ hpre hstep => hhit i s₁ s₂ (List.mem_range.mp hi) hpre hstep
  · exact fun i _ s₁ s₂ hdone hstep => threadsTickStep_head hdone hstep
  · rintro s₁ s₂ rfl hstep
    have hd : ({ s with ticks := s.ticks + 1 }.threads t).state = .sleeping ∧
        ({ s with ticks := s.ticks + 1 }.threads t).wakeupTick ≤ s.ticks + 1 := ⟨hst, hwake⟩
    unfold threadsTickStep at hstep
    rw [if_pos hd] at hstep
    refine hs.asleep_here hb hb.boot.1 hb.boot.2 (by omega) (by omega : (t : Int) < _)
      (.inl hst) hstep rfl rfl ?_
    simp

theorem threadsTick_head {k : Nat} (hk : 0 ≤ (s.rq.queues k).head)
    (hs : threadsTick cfg s h = .ok s') : 0 ≤ (s'.rq.queues k).head := by
  unfold threadsTick at hs
  refine foldlM_keeps (fun s => 0 ≤ (s.rq.queues k).head) (fun i _ s₁ s₂ => ?_) hk hs
  exact threadsTickStep_head

theorem threadWake_head {k : Nat} {t : Int} (hk : 0 ≤ (s.rq.queues k).head)
    (hs : threadWake cfg s h t = .ok s') : 0 ≤ (s'.rq.queues k).head := by
  rcases threadWake_cases hs with ⟨rfl, -⟩ | ⟨-, -, -, hmake⟩
  · exact hk
  · exact threadMakeRunnable_head hk hmake

theorem consoleOnCharFromIrq_head {k : Nat} {ch : UInt8} (hk : 0 ≤ (s.rq.queues k).head)
    (hs : consoleOnCharFromIrq cfg s h ch = .ok s') : 0 ≤ (s'.rq.queues k).head := by
  rcases consoleOnCharFromIrq_cases hs with ⟨-, rfl⟩ | ⟨-, s₁, hread, rfl⟩
  · exact hk
  rcases threadReadFromStdin_cases hread with ⟨-, hw⟩ | ⟨-, ⟨-, rfl⟩ | ⟨-, hw⟩⟩
  · exact @threadWake_head cfg { s with rx := s.rx.put ch } s₁ h k _ hk hw
  · exact hk
  · exact @threadWake_head cfg (completeRead { s with rx := s.rx.put ch }) s₁ h k _ hk hw

/-- The first character for a blocked reader queues the reader. -/
theorem Sched.char_wakes {ch : UInt8} (hs : Sched cfg dead none s q) (hb : Basic cfg s)
    (he : Entered cfg s h) (hr : ReaderBlocked cfg s)
    (hchar : consoleOnCharFromIrq cfg s h ch = .ok s') : 0 ≤ (s'.rq.queues h).head := by
  have hwake : ∀ {s₁ s₂ : Kernel}, threadWake cfg s₁ h s.stdinWaiter = .ok s₂ →
      s₁.rq = s.rq → s₁.cpus = s.cpus →
      (s₁.threads s.stdinWaiter).state = (s.threads s.stdinWaiter).state →
      0 ≤ (s₂.rq.queues h).head := by
    intro s₁ s₂ hwake hrq hcpus hst
    have h0 := hr.1
    have hlt := hr.2.1
    rcases threadWake_cases hwake with ⟨-, hno⟩ | ⟨-, -, -, hmake⟩
    · exfalso
      rcases hno with hneg | hbig | hnot
      · omega
      · omega
      · exact hnot (hst.trans hr.2.2)
    · have hid : cpuCurrentHartid s₁ h = h := by
        unfold cpuCurrentHartid
        rw [hcpus]
        exact he.2.2.1
      rw [hid] at hmake
      exact hs.asleep_here hb he.1 he.2.1 h0 hlt (.inr hr.2.2) hmake hrq hcpus hst
  rcases consoleOnCharFromIrq_cases hchar with ⟨hneg, -⟩ | ⟨-, s₁, hread, rfl⟩
  · have h0 := hr.1
    omega
  change 0 ≤ (s₁.rq.queues h).head
  rcases threadReadFromStdin_cases hread with ⟨-, hw⟩ | ⟨⟨-, hlen⟩, ⟨hn, -⟩ | ⟨-, hw⟩⟩
  · exact hwake hw rfl rfl rfl
  · rcases (consoleReadNonblock_eq_zero _ _ _).mp hn with h0 | hempty
    · exact absurd h0 hlen
    · rw [RxRing.put_nonempty] at hempty
      cases hempty
  · refine hwake hw rfl rfl ?_
    simp [completeRead, drained, consoleReadNonblock]

theorem uart16550IrqHandler_head {k : Nat} {rx : List UInt8} (hk : 0 ≤ (s.rq.queues k).head)
    (hs : uart16550IrqHandler cfg s h rx = .ok s') : 0 ≤ (s'.rq.queues k).head := by
  unfold uart16550IrqHandler at hs
  exact foldlM_keeps (fun s => 0 ≤ (s.rq.queues k).head)
    (fun ch _ s₁ s₂ hk hc => consoleOnCharFromIrq_head hk hc) hk hs

theorem external_head {k : Nat} {claims : List PlicClaim} (hk : 0 ≤ (s.rq.queues k).head)
    (hs : platformHandleSExternal cfg s h claims = .ok s') : 0 ≤ (s'.rq.queues k).head := by
  obtain ⟨s₁, ops, irqs, huart, rfl, -⟩ := platformHandleSExternal_cases hs
  change 0 ≤ (s₁.rq.queues k).head
  exact uart16550IrqHandler_head hk huart

theorem external_wakes {claims : List PlicClaim} (hs : Sched cfg dead none s q) (hb : Basic cfg s)
    (he : Entered cfg s h) (hrx : received s claims ≠ []) (hr : ReaderBlocked cfg s)
    (hext : platformHandleSExternal cfg s h claims = .ok s') : 0 ≤ (s'.rq.queues h).head := by
  obtain ⟨s₁, ops, irqs, huart, rfl, -⟩ := platformHandleSExternal_cases hext
  change 0 ≤ (s₁.rq.queues h).head
  obtain ⟨ch, rx, hcons⟩ := List.exists_cons_of_ne_nil hrx
  rw [hcons] at huart
  unfold uart16550IrqHandler at huart
  rw [List.foldlM_cons, bind_eq_ok] at huart
  obtain ⟨s₂, hchar, hrest⟩ := huart
  exact uart16550IrqHandler_head (hs.char_wakes hb he hr hchar) hrest

/-! ## The trap -/

/-- A timer interrupt in the middle of a slice. -/
theorem timer_inSlice {tf : Int} (hs : schedOnTimerIrq cfg s h tf = .ok s')
    (hslice : 1 < (s.cpus h).sliceLeft) :
    (∃ s₁, (s.cpus h).hartid = s.bootHartid ∧ threadsTick cfg (countTimer s h) h = .ok s₁ ∧
      s'.rq = s₁.rq) ∨
    ((s.cpus h).hartid ≠ s.bootHartid ∧ s'.rq = s.rq) := by
  obtain ⟨s₁, htick, hboot⟩ := schedOnTimerIrq_cases hs
  have hleft := timer_slice hboot
  rcases sliceTick_cases htick with ⟨hle, -⟩ | ⟨-, rfl⟩
  · omega
  · rcases hboot with ⟨hid, htick⟩ | ⟨hid, rfl⟩
    · exact .inl ⟨s₁, hid, htick, rfl⟩
    · exact .inr ⟨hid, rfl⟩

section SaveRegs

variable {regs : Trapframe}

@[simp] theorem dueSleeper_saveRegs : DueSleeper cfg (saveRegs s h regs) ↔ DueSleeper cfg s := by
  have hwake : ∀ t : Int, ((saveRegs s h regs).threads t).wakeupTick = (s.threads t).wakeupTick :=
    fun t => saveRegs_field s h regs t Thread.wakeupTick fun _ _ => rfl
  have hticks : (saveRegs s h regs).ticks = s.ticks := rfl
  simp only [DueSleeper, saveRegs_state, hwake, hticks]

@[simp] theorem readerBlocked_saveRegs :
    ReaderBlocked cfg (saveRegs s h regs) ↔ ReaderBlocked cfg s := by
  simp only [ReaderBlocked, saveRegs_state, saveRegs_stdinWaiter]

end SaveRegs

/-- The traps an idle hart takes without rescheduling: a timer interrupt within its slice and an
external interrupt. -/
theorem idle_trap {regs : Trapframe} {io : TrapInput} (hb : Basic cfg s)
    (hg : Allowed cfg s (.trap h regs io)) (hstep : step cfg s (.trap h regs io) = .ok s')
    (hidle : (s.cpus h).currentTid = (s.cpus h).idleTid)
    (hR : ¬ Reschedules cfg s h (trapAction cfg regs io)) :
    (trapAction cfg regs io = .timer ∧ 1 < (s.cpus h).sliceLeft ∧
      schedOnTimerIrq cfg (saveRegs s h regs) h (s.cpus h).currentTid = .ok s') ∨
    ∃ claims, trapAction cfg regs io = .external claims ∧
      platformHandleSExternal cfg (saveRegs s h regs) h claims = .ok s' := by
  have hrun : runAction cfg (saveRegs s h regs) h (s.cpus h).currentTid
      (trapAction cfg regs io) = .ok s' := by
    rw [← trapEntry_eq (hb.harts.curTf h hg.1)]
    exact hstep
  have hexc : (trapKind regs.scause).isException = false := by
    by_contra hexc
    rw [Bool.not_eq_false] at hexc
    exact hg.2 hexc hidle
  unfold trapAction at hR hrun ⊢
  cases hk : trapKind regs.scause with
  | softS =>
    rw [hk] at hR
    exact absurd trivial hR
  | timerS =>
    rw [hk] at hR hrun
    have hR' : ¬ (s.cpus h).sliceLeft ≤ 1 := hR
    exact .inl ⟨rfl, by omega, hrun⟩
  | extS =>
    rw [hk] at hrun
    exact .inr ⟨io.claims, rfl, hrun⟩
  | unhandled =>
    rw [hk] at hrun
    cases hrun
  | _ =>
    rw [hk] at hexc
    cases hexc

/-- `schedule` goes idle only when nothing is queued. -/
theorem Scheduled.conserves {rq rq' : RunQueues} {next : Int} (hb : Basic cfg s)
    (he : Entered cfg s h) (hs : Scheduled cfg h s rq next rq' s') : Conserves s' h := by
  intro hidle
  rw [hs.cpus_self] at hidle
  exact hs.idle_empty hb he (hidle.trans he.2.2.2.1)

/-- A trap that does not reschedule returns to the thread it interrupted. -/
theorem TrapRan.current {a : Action} {P : Kernel → Prop} {s₁ : Kernel}
    (hran : TrapRan cfg s h a P s₁ s') (hR : ¬ Reschedules cfg s h a) :
    SameCpu (s.cpus h) (s'.cpus h) := by
  rcases hran.last with ⟨hR', -⟩ | ⟨-, rfl⟩
  · exact absurd hR' hR
  · exact hran.sameCpu h

theorem conserves_of_not_stalls {regs : Trapframe} {io : TrapInput} (hb : Basic cfg s)
    (hg : Allowed cfg s (.trap h regs io)) (hstep : step cfg s (.trap h regs io) = .ok s')
    (hns : ¬ Stalls cfg s h (trapAction cfg regs io)) : Conserves s' h := by
  obtain ⟨s₁, hran⟩ := trap_ran (fun _ => True) hb hg hstep trivial fun _ _ _ _ _ _ _ => trivial
  by_cases hR : Reschedules cfg s h (trapAction cfg regs io)
  · rcases hran.last with ⟨-, rq, next, rq', hsch⟩ | ⟨hR', -⟩
    · exact hsch.conserves hran.basic hran.entered
    · exact absurd hR hR'
  intro hidle
  obtain ⟨-, -, -, hcur, hid⟩ := hran.current hR
  rw [hcur, hid] at hidle
  have hrq : s'.rq = s.rq ∧ ¬ 0 ≤ (s.rq.queues h).head := by
    rcases idle_trap hb hg hstep hidle hR with ⟨ha, hslice, htimer⟩ | ⟨claims, ha, hext⟩
    · rw [ha] at hns
      have hnot : ¬ (0 ≤ (s.rq.queues h).head ∨ (h = s.bootHartid ∧ DueSleeper cfg s)) :=
        fun hor => hns ⟨hidle, hslice, hor⟩
      refine ⟨?_, fun hhead => hnot (.inl hhead)⟩
      rcases timer_inSlice htimer hslice with ⟨s₂, hboot, htick, hrq⟩ | ⟨-, hrq⟩
      · have hid : h = s.bootHartid := hg.1.2.2.1.symm.trans hboot
        have hnone : ¬ DueSleeper cfg (countTimer (saveRegs s h regs) h) := by
          intro hdue
          exact hnot (.inr ⟨hid, dueSleeper_saveRegs.mp hdue⟩)
        have hsame := threadsTick_idle hnone htick
        exact hrq.trans hsame
      · exact hrq
    · rw [ha] at hns
      have hnot : ¬ (0 ≤ (s.rq.queues h).head ∨
          (received s claims ≠ [] ∧ ReaderBlocked cfg s)) := fun hor => hns ⟨hidle, hor⟩
      refine ⟨?_, fun hhead => hnot (.inl hhead)⟩
      have hnone : ¬ (received (saveRegs s h regs) claims ≠ [] ∧
          ReaderBlocked cfg (saveRegs s h regs)) := by
        rw [readerBlocked_saveRegs]
        exact fun hr => hnot (.inr hr)
      have hsame := external_idle hext hnone
      exact hsame
  rw [hrq.1]
  omega

/-- A stalling trap returns to idle with something queued. -/
theorem Sched.stalls {regs : Trapframe} {io : TrapInput} (hs : Sched cfg dead none s q)
    (hb : Basic cfg s) (hg : Allowed cfg s (.trap h regs io))
    (hstep : step cfg s (.trap h regs io) = .ok s')
    (hst : Stalls cfg s h (trapAction cfg regs io)) : ¬ Conserves s' h := by
  -- a stalling timer is inside its slice, and an external interrupt never reschedules
  have hR : ¬ Reschedules cfg s h (trapAction cfg regs io) := by
    intro hR
    cases ha : trapAction cfg regs io with
    | timer =>
      rw [ha] at hR hst
      have hle : (s.cpus h).sliceLeft ≤ 1 := hR
      have hlt := hst.2.1
      omega
    | external claims =>
      rw [ha] at hR
      exact hR
    | _ =>
      rw [ha] at hst
      exact hst
  obtain ⟨s₁, hran⟩ := trap_ran (fun _ => True) hb hg hstep trivial fun _ _ _ _ _ _ _ => trivial
  obtain ⟨-, -, -, hcur, hid⟩ := hran.current hR
  have hsave : Sched cfg dead none (saveRegs s h regs) q :=
    hs.frame rfl (fun _ => .refl _) (fun t => saveRegs_state s h regs t)
      fun t => saveRegs_runningHart s h regs t
  have hbsave : Basic cfg (saveRegs s h regs) := hb.quiet (saveRegs_quiet s h regs)
  have hidle : (s.cpus h).currentTid = (s.cpus h).idleTid := by
    cases ha : trapAction cfg regs io with
    | timer =>
      rw [ha] at hst
      exact hst.1
    | external claims =>
      rw [ha] at hst
      exact hst.1
    | _ =>
      rw [ha] at hst
      exact hst.elim
  -- something was queued before, or the interrupt itself queues a sleeper or the reader
  have hhead : 0 ≤ (s'.rq.queues h).head := by
    rcases idle_trap hb hg hstep hidle hR with ⟨ha, hslice, htimer⟩ | ⟨claims, ha, hext⟩
    · rw [ha] at hst
      obtain ⟨-, -, hhead | ⟨hboot, hdue⟩⟩ := hst
      · rcases timer_inSlice htimer hslice with ⟨s₂, -, htick, hrq⟩ | ⟨-, hrq⟩
        · rw [hrq]
          have hkeep : 0 ≤ ((countTimer (saveRegs s h regs) h).rq.queues h).head := hhead
          exact threadsTick_head hkeep htick
        · rw [hrq]
          exact hhead
      · -- only the boot hart wakes sleepers, and it queues them behind itself
        rcases timer_inSlice htimer hslice with ⟨s₂, -, htick, hrq⟩ | ⟨hne, -⟩
        · have hcount : Sched cfg dead none (countTimer (saveRegs s h regs) h) q :=
            hsave.frame rfl (countTimer_quiet _ h).cpus (fun _ => rfl) fun _ => rfl
          have hdue' : DueSleeper cfg (countTimer (saveRegs s h regs) h) :=
            dueSleeper_saveRegs.mpr hdue
          have hwoken := threadsTick_wakes hcount (hbsave.quiet (countTimer_quiet _ h)) hdue' htick
          rw [hrq, hboot]
          exact hwoken
        · exact absurd (hg.1.2.2.1.trans hboot) hne
    · rw [ha] at hst
      obtain ⟨-, hhead | ⟨hrx, hr⟩⟩ := hst
      · have hkeep : 0 ≤ ((saveRegs s h regs).rq.queues h).head := hhead
        exact external_head hkeep hext
      · exact external_wakes hsave hbsave hg.1 hrx (readerBlocked_saveRegs.mpr hr) hext
  intro hcons
  have hneg := hcons (by rw [hcur, hid, hidle])
  omega

/-- In every reachable state, a trap that does not stall returns to idle only with an empty queue.
Where no slot in use was recycled on the way, these are all the traps that do. -/
theorem work_conserving (cfg : Config) {s s' : Kernel} {h : Nat} {regs : Trapframe} {io : TrapInput}
    (hr : Reachable (kernelSystem cfg) s) (hg : Allowed cfg s (.trap h regs io))
    (hstep : step cfg s (.trap h regs io) = .ok s') :
    (¬ Stalls cfg s h (trapAction cfg regs io) → Conserves s' h) ∧
    (Reachable ((kernelSystem cfg).restrict (NoLiveRecycle cfg)) s →
      (Conserves s' h ↔ ¬ Stalls cfg s h (trapAction cfg regs io))) := by
  have hb := basic_reachable hr
  have hfwd := conserves_of_not_stalls hb hg hstep
  refine ⟨hfwd, fun hlive => ⟨fun hcons hst => ?_, hfwd⟩⟩
  obtain ⟨q, hs⟩ := sched_reachable (fun _ _ _ _ _ hc => NoLiveRecycle.safe hc) hlive
  exact hs.stalls hb hg hstep hst hcons

/-- `user_main` sleeps for five ticks; the next tick finds nobody due and hart 0 stays idle. -/
theorem work_conserving_example :
    ∃ s s', Reachable (kernelSystem oneHart) s ∧ Allowed oneHart s (timerIrq 0) ∧
      step oneHart s (timerIrq 0) = .ok s' ∧ (s'.cpus 0).currentTid = (s'.cpus 0).idleTid ∧
      (s'.threads 1).state = .sleeping ∧ Conserves s' 0 := by
  obtain ⟨s, hr, hs⟩ := exists_reachable oneHart anyStep bootOnHart0 (startMain ++ [sysSleep 0 5])
    (fun s => !decide (Stalls oneHart s 0 .timer) && stepTo oneHart s (timerIrq 0) fun s' =>
      decide ((s'.cpus 0).currentTid = (s'.cpus 0).idleTid ∧ (s'.threads 1).state = .sleeping))
    (by decide +kernel)
  simp only [Bool.and_eq_true, Bool.not_eq_true', decide_eq_false_iff_not] at hs
  obtain ⟨hns, hstep⟩ := hs
  obtain ⟨s', hg, hs', hend⟩ := exists_step hstep
  obtain ⟨hidle, hsleep⟩ := of_decide_eq_true hend
  exact ⟨s, s', hr.unrestrict, hg, hs', hidle, hsleep,
    (work_conserving oneHart hr.unrestrict hg hs').1 hns⟩

/-- `user_main` sleeps for one tick: the timer interrupt makes it runnable on its own hart, sets
`need_resched` and returns to the idle thread. -/
theorem woken_behind_idle :
    ∃ s s', Reachable (kernelSystem oneHart) s ∧ Allowed oneHart s (timerIrq 0) ∧
      step oneHart s (timerIrq 0) = .ok s' ∧ (s'.cpus 0).needResched = true ∧
      (s'.rq.queues 0).head = 1 ∧ ¬ Conserves s' 0 := by
  obtain ⟨s, hr, hs⟩ := exists_reachable oneHart anyStep bootOnHart0 (startMain ++ [sysSleep 0 1])
    (fun s => stepTo oneHart s (timerIrq 0) fun s' =>
      decide ((s'.cpus 0).needResched = true ∧ (s'.rq.queues 0).head = 1 ∧ ¬ Conserves s' 0))
    (by decide +kernel)
  obtain ⟨s', hg, hs', hend⟩ := exists_step hs
  exact ⟨s, s', hr.unrestrict, hg, hs', of_decide_eq_true hend⟩

end Ccos
