import Mathlib.Tactic
import Ccos.Sched.Basic
import Ccos.Kernel.Trace

/-!
# No lost cross-hart wake-up

A secondary hart takes no timer and no external interrupts, so an idle one leaves `wfi` only for an
IPI.  `Kicked` pairs every non-empty queue of such a hart with an IPI that is still pending.
-/

namespace Ccos

open Reasoning

variable {cfg : Config} {s s' : Kernel} {h : Nat}

/-! ## Placement -/

/-- `sched_pick_target_hart` returns an online hart if the waking hart is one. -/
theorem schedPickTargetHart_online {p : Nat} (hp : p < cfg.maxHarts)
    (hon : (s.cpus p).online = true) :
    schedPickTargetHart cfg s p < cfg.maxHarts ∧
      (s.cpus (schedPickTargetHart cfg s p)).online = true := by
  unfold schedPickTargetHart
  have hfold : ∀ (hs : List Nat) (best : Nat × Nat × Bool), (∀ k ∈ hs, k < cfg.maxHarts) →
      best.1 < cfg.maxHarts → (s.cpus best.1).online = true →
      (hs.foldl (schedPickStep cfg s) best).1 < cfg.maxHarts ∧
        (s.cpus (hs.foldl (schedPickStep cfg s) best).1).online = true := by
    intro hs
    induction hs with
    | nil => exact fun best _ h1 h2 => ⟨h1, h2⟩
    | cons k hs ih =>
      intro best hlt h1 h2
      rw [List.foldl_cons]
      have hk := hlt k List.mem_cons_self
      refine ih _ (fun j hj => hlt j (List.mem_cons_of_mem k hj)) ?_ ?_
      · unfold schedPickStep
        dsimp only
        split_ifs
        · exact hk
        · exact h1
        · exact h1
      · unfold schedPickStep
        dsimp only
        split_ifs
        · assumption
        · exact h2
        · exact h2
  exact hfold _ _ (fun k hk => List.mem_range.mp hk) hp hon

/-- A waking hart whose own queue is empty keeps the thread. -/
theorem schedPickTargetHart_empty {p : Nat} (hon : (s.cpus p).online = true)
    (hlen : rqLen cfg s.rq p = 0) : schedPickTargetHart cfg s p = p := by
  unfold schedPickTargetHart
  have hfold : ∀ hs : List Nat, hs.foldl (schedPickStep cfg s) (p, 0, true) = (p, 0, true) := by
    intro hs
    induction hs with
    | nil => rfl
    | cons k hs ih =>
      have hstep : schedPickStep cfg s (p, 0, true) k = (p, 0, true) := by
        unfold schedPickStep
        dsimp only
        split_ifs with h1 h2
        · simp at h2
        · rfl
        · rfl
      rw [List.foldl_cons, hstep, ih]
  rw [hlen, hon, hfold]

/-! ## The invariant -/

/-- Hart `k` waits for an IPI: it has not entered idle yet, or runs its idle thread. -/
def Waits (cfg : Config) (s : Kernel) (k : Nat) : Prop :=
  ¬ Entered cfg s k ∨ (s.cpus k).currentTid = (s.cpus k).idleTid

/-- The IPI of hart `k` is pending if its queue holds something and it waits. -/
def KickedAt (cfg : Config) (s : Kernel) (k : Nat) : Prop :=
  Waits cfg s k → 0 ≤ (s.rq.queues k).head → s.ssip k = true

def Kicked (cfg : Config) (s : Kernel) : Prop :=
  s.smpBootDone = true ∧ ∀ k, k < cfg.maxHarts → k ≠ s.bootHartid → KickedAt cfg s k

/-- The part of `Kicked` that a trap of hart `h` keeps all along. -/
def KickedOthers (cfg : Config) (h : Nat) (s : Kernel) : Prop :=
  s.smpBootDone = true ∧
    ∀ k, k < cfg.maxHarts → k ≠ s.bootHartid → k ≠ h → KickedAt cfg s k

theorem Waits.of_same (hc : ∀ k, SameCpu (s.cpus k) (s'.cpus k)) {k : Nat}
    (hw : Waits cfg s' k) : Waits cfg s k := by
  obtain ⟨-, -, -, h4, h5⟩ := hc k
  rcases hw with hn | hi
  · exact .inl fun he => hn ((SameCpu.entered hc k).mpr he)
  · rw [h4, h5] at hi
    exact .inr hi

/-- Writes that leave the harts and the heads of the queues alone. -/
theorem KickedOthers.of_same (hk : KickedOthers cfg h s)
    (hc : ∀ k, SameCpu (s.cpus k) (s'.cpus k))
    (hq : ∀ k, k < cfg.maxHarts → k ≠ h → 0 ≤ (s'.rq.queues k).head → 0 ≤ (s.rq.queues k).head)
    (hssip : ∀ k, k ≠ h → s.ssip k = true → s'.ssip k = true)
    (hboot : s'.bootHartid = s.bootHartid) (hdone : s'.smpBootDone = s.smpBootDone) :
    KickedOthers cfg h s' := by
  refine ⟨hdone.trans hk.1, fun k h1 h2 h3 hw hhead => ?_⟩
  rw [hboot] at h2
  exact hssip k h3 (hk.2 k h1 h2 h3 (Waits.of_same hc hw) (hq k h1 h3 hhead))

theorem notifyHart_ssip {k j : Nat} (hj : s.ssip j = true) :
    (notifyHart cfg s h k).ssip j = true := by
  unfold notifyHart
  split
  · exact hj
  · exact smpKickHart_ssip k hj

theorem notifyHart_kicks {k : Nat} (hne : k ≠ (s.cpus h).hartid) (hdone : s.smpBootDone = true)
    (hlt : k < cfg.maxHarts) (hon : (s.cpus k).online = true) :
    (notifyHart cfg s h k).ssip k = true := by
  have hbig : ¬ cfg.maxHarts ≤ k := by omega
  unfold notifyHart cpuCurrentHartid
  rw [if_neg hne]
  unfold smpKickHart
  simp [hdone, hbig, hon, sbiSendIpi]

/-- A push to another hart comes with an IPI. -/
theorem KickedOthers.wake (he : Entered cfg s h) (hk : KickedOthers cfg h s) {t : Int} {p : Nat}
    (hp : p < cfg.maxHarts) (hon : (s.cpus p).online = true)
    (hw : threadMakeRunnable cfg s h t p = .ok s') : KickedOthers cfg h s' := by
  rcases threadMakeRunnable_cases hw with ⟨rfl, -⟩ | ⟨rq, hw⟩
  · exact hk
  have hsame := fun k => hw.sameHarts.sameCpu k
  have ho := hw.schedOnly
  obtain ⟨hlt, htarget⟩ := schedPickTargetHart_online hp hon
  refine ⟨ho.smpBootDone.trans hk.1, fun k h1 h2 h3 hwait hhead => ?_⟩
  rw [ho.bootHartid] at h2
  by_cases hkt : k = schedPickTargetHart cfg s p
  · -- the target is not this hart, so it is kicked
    have hne : schedPickTargetHart cfg s p ≠ (s.cpus h).hartid := by
      rw [he.2.2.1, ← hkt]
      exact h3
    rw [hw.eq, hkt]
    exact notifyHart_kicks hne hk.1 hlt htarget
  · have hq : s'.rq.queues k = s.rq.queues k := by
      rw [hw.rq_eq]
      exact rqPushTail_queues_ne hw.push hkt
    rw [hq] at hhead
    rw [hw.eq]
    exact notifyHart_ssip (hk.2 k h1 h2 h3 (Waits.of_same hsame hwait) hhead)

theorem KickedOthers.recycle (hk : KickedOthers cfg h s) (t : Int) :
    KickedOthers cfg h (recycleThread cfg s t) := by
  unfold recycleThread
  split_ifs <;> exact hk

theorem KickedOthers.act {s₀ : Kernel} {a : Action} (hb : Basic cfg s) (he : Entered cfg s h)
    (hk : KickedOthers cfg h s) (ha : Act cfg h s₀ a s s') : KickedOthers cfg h s' := by
  have hself : (s.cpus h).hartid < cfg.maxHarts ∧ (s.cpus (s.cpus h).hartid).online = true := by
    rw [he.2.2.1]
    exact ⟨he.1, he.2.1⟩
  cases ha with
  | quiet hq =>
    exact hk.of_same hq.cpus (fun k _ _ hh => hq.rq ▸ hh) hq.ssip hq.bootHartid hq.smpBootDone
  | @slice f ht hf =>
    have hact : Act cfg h s₀ a s (s.modCpu h f) := .slice ht hf
    exact hk.of_same hact.sameCpu (fun _ _ _ hh => hh) (fun _ _ hs => hs) rfl rfl
  | wakeSleeper _ _ hw => exact hk.wake he hb.boot.1 hb.boot.2 hw
  | wakeReader _ _ hw => exact hk.wake he hself.1 hself.2 hw
  | wakeJoiner _ _ _ _ _ hw => exact hk.wake he hself.1 hself.2 hw
  | @create _ t entry arg name sstatus _ _ _ _ _ hw =>
    have hmod : KickedOthers cfg h (s.modThread t fun x => initUserThread x (threadStack cfg t)
        entry arg (if name = 0 then none else some (.user name)) sstatus) := hk
    refine KickedOthers.wake ?_ hmod hself.1 hself.2 hw
    exact he
  | @kill t rq _ _ _ hunq =>
    refine hk.of_same (fun _ => .refl _) (fun k h1 _ hhead => ?_) (fun _ _ hs => hs) rfl rfl
    rcases hunq with ⟨-, ret, hrem⟩ | ⟨-, rfl⟩
    · -- an empty queue stays empty when the victim is unlinked
      by_contra hneg
      have hsame := (rqRemoveAny_links hb.links hrem).2 k h1 (by omega)
      rw [Kernel.setRq_rq, hsame] at hhead
      exact hneg hhead
    · exact hhead
  | @deliver w code _ _ _ =>
    obtain ⟨hrq, -, hssip, hboot, hdone⟩ := @deliver_rest s w code
    refine hk.of_same (fun k => ?_) (fun _ _ _ hh => hrq ▸ hh)
      (fun _ _ hs => hssip ▸ hs) hboot hdone
    rw [deliver_cpus]
    exact .refl _
  | reclaim _ _ _ _ _ => exact hk.recycle _
  | collect _ _ _ _ _ => exact hk.recycle _
  | _ => exact hk

/-! ## Steps -/

/-- An interrupt is taken only by a hart that has its enable bit in `sie` set. -/
def Delivered (s : Kernel) : Event → Prop
  | .trap h regs _ =>
    match trapKind regs.scause with
    | .softS => (s.sie h).ssie = true
    | .timerS => (s.sie h).stie = true
    | .extS => (s.sie h).seie = true
    | _ => True
  | _ => True

instance (s : Kernel) : (e : Event) → Decidable (Delivered s e)
  | .trap h regs _ => by
    unfold Delivered
    dsimp only
    cases trapKind regs.scause <;> infer_instance
  | .cpuInit _ => inferInstanceAs (Decidable True)
  | .enterIdle _ => inferInstanceAs (Decidable True)

theorem leftRq_queues_ne {rq : RunQueues} (hrq : leftRq cfg s h = .ok rq) {k : Nat}
    (hk : k ≠ (s.cpus h).hartid) : rq.queues k = s.rq.queues k := by
  unfold leftRq at hrq
  dsimp only at hrq
  split_ifs at hrq
  · exact rqPushTail_queues_ne hrq hk
  · rw [← Except.ok.inj hrq]
    rfl
  · rw [← Except.ok.inj hrq]

theorem KickedOthers.schedule {rq rq' : RunQueues} {next : Int} (he : Entered cfg s h)
    (hk : KickedOthers cfg h s) (hs : Scheduled cfg h s rq next rq' s') :
    KickedOthers cfg h s' := by
  have hboot : s'.bootHartid = s.bootHartid := by rw [hs.rest]
  have hdone : s'.smpBootDone = s.smpBootDone := by rw [hs.rest]
  have hssip : s'.ssip = s.ssip := by rw [hs.rest]
  refine ⟨hdone.trans hk.1, fun k h1 h2 h3 hw hhead => ?_⟩
  rw [hboot] at h2
  have hq : s'.rq.queues k = s.rq.queues k := by
    have hne : k ≠ (s.cpus h).hartid := by
      rw [he.2.2.1]
      exact h3
    rw [hs.rq_eq, hs.picked.queues_ne k hne, leftRq_queues_ne hs.left hne]
  have hwait : Waits cfg s k := by
    unfold Waits at hw ⊢
    rw [hs.entered he k, hs.cpus_ne h3] at hw
    exact hw
  rw [hq] at hhead
  rw [hssip]
  exact hk.2 k h1 h2 h3 hwait hhead

/-- A timer interrupt of a secondary hart inside its slice only counts. -/
theorem timer_secondary {tf : Int} (hboot : (s.cpus h).hartid ≠ s.bootHartid)
    (hslice : ¬ (s.cpus h).sliceLeft ≤ 1) (hs : schedOnTimerIrq cfg s h tf = .ok s') :
    s'.rq = s.rq ∧ s'.ssip = s.ssip := by
  obtain ⟨s₁, hs, htick⟩ := schedOnTimerIrq_cases hs
  have hleft := timer_slice htick
  rcases htick with ⟨heq, -⟩ | ⟨-, rfl⟩
  · exact absurd heq hboot
  rcases sliceTick_cases hs with ⟨hle, -⟩ | ⟨-, rfl⟩
  · omega
  · exact ⟨rfl, rfl⟩

theorem kicked_trap {regs : Trapframe} {io : TrapInput} (hb : Basic cfg s) (hk : Kicked cfg s)
    (hg : Allowed cfg s (.trap h regs io)) (hd : Delivered s (.trap h regs io))
    (hs : step cfg s (.trap h regs io) = .ok s') : Kicked cfg s' := by
  obtain ⟨s₁, hran⟩ := trap_ran
    (fun s₁ => KickedOthers cfg h s₁ ∧ s₁.bootHartid = s.bootHartid) hb hg hs
    ⟨⟨hk.1, fun k h1 h2 _ => hk.2 k h1 h2⟩, rfl⟩
    fun s₁ s₂ hb₁ he₁ _ hk₁ hact => ⟨hk₁.1.act hb₁ he₁ hact, hact.bootHartid.trans hk₁.2⟩
  have hent := hran.entered
  have hboot := hran.kept.2
  rcases hran.last with ⟨-, rq, next, rq', hsch⟩ | ⟨hR, rfl⟩
  · have hothers := hran.kept.1.schedule hent hsch
    refine ⟨hothers.1, fun k h1 h2 => ?_⟩
    by_cases hkh : k = h
    · -- this hart went idle with an empty queue, or is not idle
      subst hkh
      intro hw hhead
      have hidle : (s'.cpus k).currentTid = (s'.cpus k).idleTid :=
        hw.resolve_left (not_not.mpr ((hsch.entered hent k).mpr hent))
      rw [hsch.cpus_self] at hidle
      have hempty := hsch.idle_empty hran.basic hent (hidle.trans hent.2.2.2.1)
      omega
    · exact hothers.2 k h1 h2 hkh
  · refine ⟨hran.kept.1.1, fun k h1 h2 => ?_⟩
    by_cases hkh : k = h
    · subst hkh
      intro hw hhead
      have hidle : (s.cpus k).currentTid = (s.cpus k).idleTid :=
        (Waits.of_same hran.sameCpu hw).resolve_left (not_not.mpr hg.1)
      have hrun : runAction cfg (saveRegs s k regs) k (s.cpus k).currentTid
          (trapAction cfg regs io) = .ok s' := by
        rw [← trapEntry_eq (hb.harts.curTf k hg.1)]
        exact hs
      have hexc : (trapKind regs.scause).isException = false := by
        by_contra he
        exact hg.2 (by simpa using he) hidle
      -- an idle secondary hart makes no system call and takes no external interrupt
      cases hkind : trapKind regs.scause with
      | softS =>
        unfold trapAction at hR
        rw [hkind] at hR
        exact absurd trivial hR
      | timerS =>
        unfold trapAction at hR hrun
        rw [hkind] at hR hrun
        have hsec : ((saveRegs s k regs).cpus k).hartid ≠ (saveRegs s k regs).bootHartid := by
          rw [saveRegs_cpus, hg.1.2.2.1]
          exact hboot ▸ h2
        obtain ⟨hrq, hssip⟩ := timer_secondary hsec hR hrun
        rw [hrq] at hhead
        rw [hssip]
        exact hk.2 k h1 (hboot ▸ h2) (.inr hidle) hhead
      | extS =>
        simp only [Delivered, hkind] at hd
        exact absurd (hb.seie k hd) (hboot ▸ h2)
      | unhandled =>
        unfold trapAction at hrun
        rw [hkind] at hrun
        cases hrun
      | ecallU => rw [hkind] at hexc; cases hexc
      | breakpoint => rw [hkind] at hexc; cases hexc
      | illegalInstr => rw [hkind] at hexc; cases hexc
    · exact hran.kept.1.2 k h1 h2 hkh

theorem kicked_step {e : Event} (hb : Basic cfg s) (hk : Kicked cfg s) (hg : Allowed cfg s e)
    (hd : Delivered s e) (hs : step cfg s e = .ok s') : Kicked cfg s' := by
  cases e with
  | cpuInit h =>
    obtain ⟨-, c, -, -, -, htf, -, rfl⟩ := cpuInit_cases hs
    refine ⟨hk.1, fun k h1 h2 hw hhead => hk.2 k h1 h2 ?_ hhead⟩
    unfold Waits at hw ⊢
    rw [cpuInit_entered htf hg.2 k] at hw
    by_cases hkh : k = h
    · refine .inl fun he => ?_
      have hoff := hg.2
      rw [← hkh, he.2.1] at hoff
      cases hoff
    · rw [Kernel.modCpu_cpus, if_neg hkh] at hw
      exact hw
  | enterIdle h =>
    have hent := enterIdle_entered hb hg hs
    obtain ⟨hrq, hssip, hboot, hdone, -, -, -, -, -, hcpus, -, -⟩ := enterIdle_cases hs
    refine ⟨hdone.trans hk.1, fun k h1 h2 hw hhead => ?_⟩
    rw [hboot] at h2
    rw [hrq] at hhead
    rw [hssip]
    refine hk.2 k h1 h2 ?_ hhead
    by_cases hkh : k = h
    · -- the hart that enters idle was waiting already
      refine .inl fun he => ?_
      subst hkh
      rcases hg.2.2 with hnull | hbs
      · exact he.2.2.2.2.1 hnull
      · exact he.2.2.2.2.2 hbs
    · unfold Waits at hw ⊢
      rw [hent k, hcpus k, if_neg hkh] at hw
      simpa [hkh] using hw
  | trap h regs io => exact kicked_trap hb hk hg hd hs

theorem kicked_init (hs : (kernelSystem cfg).init s) : Kicked cfg s := by
  obtain ⟨s₀, s₁, tid, entry, arg, name, sstatus, hboot, hcreate, rfl⟩ := init_cases hs
  refine ⟨rfl, fun k h1 h2 _ hhead => ?_⟩
  have hempty : (s₀.rq.queues k).head < 0 := by
    by_contra hge
    have hne := (hboot.queues.head_nonneg h1).mp (by omega)
    exact hne rfl
  exfalso
  rcases threadCreateUser_cases hcreate with ⟨-, rfl⟩ | ⟨_, _, -, hmake⟩
  · change 0 ≤ (s₁.rq.queues k).head at hhead
    omega
  rcases threadMakeRunnable_cases hmake with ⟨rfl, -⟩ | ⟨rq, hw⟩
  · change 0 ≤ (s₀.rq.queues k).head at hhead
    omega
  · -- `user_main` goes to the boot hart: nothing is queued anywhere
    have hid : cpuCurrentHartid s₀ s₀.bootHartid = s₀.bootHartid := hboot.boot.2.2
    have hpick := @schedPickTargetHart_empty cfg (s₀.modThread tid fun t =>
      initUserThread t (threadStack cfg tid) entry arg name sstatus) s₀.bootHartid
      hboot.boot.2.1 (hboot.queues.rqLen_eq hboot.boot.1)
    have hpush := hw.push
    rw [hid, hpick] at hpush
    have hsame := rqPushTail_queues_ne hpush (hw.schedOnly.bootHartid ▸ h2)
    have hrq : s₁.rq = rq := hw.rq_eq
    change 0 ≤ (s₁.rq.queues k).head at hhead
    rw [hrq, hsame] at hhead
    change 0 ≤ (s₀.rq.queues k).head at hhead
    omega

/-- In every run, an idle secondary hart with something in its run queue has an IPI pending. -/
theorem idle_hart_has_pending_ipi (cfg : Config) {s : Kernel} {h : Nat}
    (hr : Reachable ((kernelSystem cfg).restrict Delivered) s) (he : Entered cfg s h)
    (hboot : h ≠ s.bootHartid) (hq : 0 ≤ (s.rq.queues h).head)
    (hidle : (s.cpus h).currentTid = (s.cpus h).idleTid) : s.ssip h = true := by
  have hk : Kicked cfg s := kernel_invariant (Kicked cfg) (fun _ => kicked_init)
    (fun _ _ _ hb hk hg hd hs => kicked_step hb hk hg hd hs) hr
  exact hk.2 h he.1 hboot (.inr hidle) hq

/-- `user_main` creates two threads; the second goes to hart 1, whose IPI stays pending. -/
theorem idle_hart_has_pending_ipi_example :
    ∃ s, Reachable ((kernelSystem twoHarts).restrict Delivered) s ∧ Entered twoHarts s 1 ∧
      1 ≠ s.bootHartid ∧ 0 ≤ (s.rq.queues 1).head ∧
      (s.cpus 1).currentTid = (s.cpus 1).idleTid ∧ s.ssip 1 = true := by
  obtain ⟨s, hr, hs⟩ := exists_reachable twoHarts Delivered bootOnHart0
    (startBoth ++ [sysCreate 0, sysCreate 0])
    (fun s => decide (Entered twoHarts s 1 ∧ 1 ≠ s.bootHartid ∧ 0 ≤ (s.rq.queues 1).head ∧
      (s.cpus 1).currentTid = (s.cpus 1).idleTid))
    (by decide +kernel)
  obtain ⟨h1, h2, h3, h4⟩ := of_decide_eq_true hs
  exact ⟨s, hr, h1, h2, h3, h4, idle_hart_has_pending_ipi twoHarts hr h1 h2 h3 h4⟩

end Ccos
