import Mathlib.Tactic
import Ccos.Kernel.Frame
import Ccos.Sched.Bystander

/-!
# What a trap does to the console and the clock

The receive ring changes when characters arrive or a read takes them out, the tick counter with the
timer of the boot hart.  `g_stdin_waiter` is written by a blocking read, by a received character,
and when the slot it names is recycled.
-/

namespace Ccos

open Reasoning

variable {cfg : Config} {s s' s'' : Kernel} {h : Nat} {cur : Int} {gone gone' : Int → Prop}

/-! ## Writes that leave the console alone -/

/-- Ring and clock are as before, and so is the registered reader unless it is `gone`. -/
def ConsoleKept (gone : Int → Prop) (s s' : Kernel) : Prop :=
  s'.rx = s.rx ∧ s'.ticks = s.ticks ∧
    (s'.stdinWaiter = s.stdinWaiter ∨ (s'.stdinWaiter = -1 ∧ gone s.stdinWaiter))

theorem ConsoleKept.of_eq (hrx : s'.rx = s.rx) (htick : s'.ticks = s.ticks)
    (hw : s'.stdinWaiter = s.stdinWaiter) : ConsoleKept gone s s' :=
  ⟨hrx, htick, .inl hw⟩

theorem ConsoleKept.refl (s : Kernel) : ConsoleKept gone s s := .of_eq rfl rfl rfl

theorem ConsoleKept.trans (h₁ : ConsoleKept gone s s') (h₂ : ConsoleKept gone s' s'') :
    ConsoleKept gone s s'' := by
  refine ⟨h₂.1.trans h₁.1, h₂.2.1.trans h₁.2.1, ?_⟩
  rcases h₁.2.2 with heq | ⟨hneg, hgone⟩
  · rw [← heq]
    exact h₂.2.2
  · -- once it is cleared nothing registers a reader again
    rcases h₂.2.2 with heq | ⟨hneg', -⟩
    · exact .inr ⟨heq.trans hneg, hgone⟩
    · exact .inr ⟨hneg', hgone⟩

theorem ConsoleKept.imp (hk : ConsoleKept gone s s') (hi : ∀ w, gone w → gone' w) :
    ConsoleKept gone' s s' :=
  ⟨hk.1, hk.2.1, hk.2.2.imp_right fun hg => ⟨hg.1, hi _ hg.2⟩⟩

theorem SchedOnly.consoleKept (ho : SchedOnly s s') : ConsoleKept gone s s' :=
  .of_eq ho.rx ho.ticks ho.stdinWaiter

theorem recycleThread_consoleKept {t : Int} (ht : gone t) :
    ConsoleKept gone s (recycleThread cfg s t) := by
  by_cases hr : t ≤ 0 ∨ (cfg.threadMax : Int) ≤ t
  · unfold recycleThread
    rw [if_pos hr]
    exact .refl s
  · rw [recycleThread_eq (by omega) (by omega)]
    refine ⟨rfl, rfl, ?_⟩
    show (if s.stdinWaiter = t then -1 else s.stdinWaiter) = s.stdinWaiter ∨ _
    by_cases hw : s.stdinWaiter = t
    · refine .inr ⟨if_pos hw, ?_⟩
      rw [hw]
      exact ht
    · exact .inl (if_neg hw)

theorem consoleFrame : Frame cfg gone (ConsoleKept gone) where
  trans h₁ h₂ := h₁.trans h₂
  sched ho := ho.consoleKept
  setMem _ _ := .of_eq rfl rfl rfl
  recycle _ _ ht := recycleThread_consoleKept ht

/-! ## Actions other than reads and received characters -/

@[simp] theorem clocked_rx (a : Action) : (clocked s h a).rx = s.rx := by
  cases a with
  | timer =>
    rw [clocked]
    split <;> rfl
  | _ => rfl

@[simp] theorem clocked_stdinWaiter (a : Action) :
    (clocked s h a).stdinWaiter = s.stdinWaiter := by
  cases a with
  | timer =>
    rw [clocked]
    split <;> rfl
  | _ => rfl

theorem runAction_consoleKept {a : Action} (ha : a.usesConsole = false)
    (hs : runAction cfg s h cur a = .ok s') :
    ConsoleKept (MayRecycle cfg s h a) (clocked s h a) s' :=
  consoleFrame.runAction ha (fun _ hm => hm) hs

theorem MayRecycle.of_saveRegs {a : Action} {t : Int} {regs : Trapframe}
    (hm : MayRecycle cfg (saveRegs s h regs) h a t) : MayRecycle cfg s h a t := by
  unfold MayRecycle at hm ⊢
  rw [terminated_saveRegs, collected_saveRegs] at hm
  exact hm

/-- A trap that neither reads nor receives leaves the console alone. -/
theorem trap_consoleKept {regs : Trapframe} {io : TrapInput} (hb : Basic cfg s)
    (hg : Allowed cfg s (.trap h regs io)) (hs : step cfg s (.trap h regs io) = .ok s')
    (ha : (trapAction cfg regs io).usesConsole = false) :
    ConsoleKept (MayRecycle cfg s h (trapAction cfg regs io))
      (clocked s h (trapAction cfg regs io)) s' := by
  obtain ⟨hrun, -⟩ := trap_runAction hb hg hs
  have hk := (runAction_consoleKept ha hrun).imp fun w hm => hm.of_saveRegs
  have hsame : clocked (saveRegs s h regs) h (trapAction cfg regs io) =
      saveRegs (clocked s h (trapAction cfg regs io)) h regs := by
    cases trapAction cfg regs io with
    | timer =>
      rw [clocked, clocked]
      show (if (s.cpus h).hartid = s.bootHartid then _ else _) = _
      split <;> rfl
    | _ => rfl
  rw [hsame] at hk
  exact hk

/-! ## Suspended threads -/

section Suspended

variable {rq rq' : RunQueues} {next : Int} (hs : Scheduled cfg h s rq next rq' s')
  (hidle : (s.cpus h).currentTid ≠ (s.cpus h).idleTid)
  (hst : (s.threads (s.cpus h).currentTid).state = .sleeping ∨
    (s.threads (s.cpus h).currentTid).state = .waiting ∨
    (s.threads (s.cpus h).currentTid).state = .blocked)

include hidle hst

theorem leftKernel_suspended :
    (leftKernel cfg s h rq).threads (s.cpus h).currentTid =
      threadMarkNotRunning (s.threads (s.cpus h).currentTid) := by
  have hrun : (s.threads (s.cpus h).currentTid).state ≠ .running := by
    rcases hst with hst | hst | hst <;> rw [hst] <;> decide
  have hz : ¬ Reclaims cfg (s.threads (s.cpus h).currentTid) := by
    intro hz
    rcases hst with hst | hst | hst <;> rw [hz.1] at hst <;> cases hst
  rw [leftKernel_threads, if_pos rfl, leftThread_kept hidle hrun hz]

include hs

/-- `schedule` runs the idle thread or a `RUNNABLE` one, not one that suspended itself. -/
theorem Scheduled.next_ne_suspended : (s.cpus h).currentTid ≠ next := by
  intro heq
  rcases hs.picked.next with ⟨hn, -⟩ | ⟨-, hn, -⟩
  · exact hidle (heq.trans hn)
  · rw [← heq, leftKernel_suspended hidle hst, threadMarkNotRunning_state] at hn
    rcases hst with hst | hst | hst <;> rw [hn] at hst <;> cases hst

/-- `schedule` leaves a thread that suspended itself as it is, but for the hart it ran on. -/
theorem Scheduled.left_suspended :
    s'.threads (s.cpus h).currentTid =
      threadMarkNotRunning (s.threads (s.cpus h).currentTid) := by
  rw [hs.threads, if_neg (hs.next_ne_suspended hidle hst), leftKernel_suspended hidle hst]

end Suspended

/-! ## Reads -/

/-- A read that finds nothing changes nothing. -/
theorem consoleReadLoop_none {buf : UInt64} {k : Nat} {m : Mem} {r : RxRing}
    (hn : (consoleReadLoop buf k 0 m r).1 = 0) : consoleReadLoop buf k 0 m r = (0, m, r) := by
  cases k with
  | zero => rfl
  | succ k =>
    rw [consoleReadLoop] at hn ⊢
    split at hn
    · rename_i he
      rw [if_pos he]
    · have hpos := consoleReadLoop_count buf k (0 + 1)
        (fun a => if a = buf + UInt64.ofNat 0 then r.buf r.tail else m a)
        { r with tail := (r.tail + 1) % consoleRbufSize }
      omega

theorem drained_none {buf len : UInt64} (hn : (consoleReadNonblock s buf len).1 = 0) :
    drained s buf len = s := by
  have hloop : consoleReadLoop buf len.toNat 0 s.mem s.rx = (0, s.mem, s.rx) :=
    consoleReadLoop_none hn
  unfold drained consoleReadNonblock
  rw [hloop]

/-- What a read of stdin does: it fails, takes characters out of the ring, or blocks its thread and
registers it. -/
theorem trap_read {regs : Trapframe} {io : TrapInput} {fd : Int} {buf len : UInt64}
    (hb : Basic cfg s) (hg : Allowed cfg s (.trap h regs io))
    (hs : step cfg s (.trap h regs io) = .ok s') (ha : trapAction cfg regs io = .read fd buf len) :
    (fd ≠ 0 ∧ ∃ v, s' = (saveRegs s h regs).setA0 (s.cpus h).currentTid v) ∨
    (fd = 0 ∧ 0 < (consoleReadNonblock s buf len).1 ∧
      s' = (drained (saveRegs s h regs) buf len).setA0 (s.cpus h).currentTid
        (UInt64.ofNat (consoleReadNonblock s buf len).1)) ∨
    (fd = 0 ∧ (consoleReadNonblock s buf len).1 = 0 ∧ s'.rx = s.rx ∧ s'.mem = s.mem ∧
      s'.ticks = s.ticks ∧ s'.stdinWaiter = (s.cpus h).currentTid ∧
      s'.threads (s.cpus h).currentTid = threadMarkNotRunning
        ((((s.threads (s.cpus h).currentTid).setTf (trapFrame regs)).setPendingRead buf
          len).setState
          .blocked)) := by
  obtain ⟨hrun, huser⟩ := trap_runAction hb hg hs
  rw [ha] at hrun huser
  have hpos := cfg.maxHarts_pos
  obtain ⟨hlo, hhi⟩ := huser rfl
  rcases sysRead_cases hrun with ⟨v, hv, hfd⟩ | ⟨hfd, hn, hv⟩ | ⟨hfd, hn, hsch⟩
  · exact .inl ⟨hfd, v, hv⟩
  · exact .inr (.inl ⟨hfd, hn, hv⟩)
  · right
    -- the ring is empty: the thread blocks and the hart switches away from it
    right
    rw [drained_none hn] at hsch
    have hidle : (s.cpus h).currentTid ≠ (s.cpus h).idleTid := by
      rw [hg.1.2.2.2.1]
      have := hg.1.1
      omega
    have hcur :
        ((blockCur (saveRegs s h regs) h buf len).cpus h).currentTid = (s.cpus h).currentTid :=
      rfl
    have hok : ((blockCur (saveRegs s h regs) h buf len).cpus h).currentTid ≠
        ((blockCur (saveRegs s h regs) h buf len).cpus h).idleTid →
        0 < ((blockCur (saveRegs s h regs) h buf len).cpus h).currentTid ∧
          ((blockCur (saveRegs s h regs) h buf len).cpus h).currentTid < cfg.threadMax := by
      rw [hcur]
      omega
    obtain ⟨rq, next, rq', hsched⟩ := schedule_cases hok hsch
    have hblocked : (blockCur (saveRegs s h regs) h buf len).threads (s.cpus h).currentTid =
        (((s.threads (s.cpus h).currentTid).setTf (trapFrame regs)).setPendingRead buf len).setState
          .blocked := by
      unfold blockCur saveRegs
      simp
    have hstate : ((blockCur (saveRegs s h regs) h buf len).threads
        ((blockCur (saveRegs s h regs) h buf len).cpus h).currentTid).state = .blocked := by
      rw [hcur, hblocked]
      rfl
    have hleft := hsched.left_suspended hidle (.inr (.inr hstate))
    -- `g_stdin_waiter` is set to the `id` field, which names the slot
    have hreader :
        (blockCur (saveRegs s h regs) h buf len).stdinWaiter = (s.cpus h).currentTid := by
      show ((((saveRegs s h regs).modThread (s.cpus h).currentTid
        (Thread.setPendingRead · buf len)).threads (s.cpus h).currentTid)).id = _
      rw [Kernel.modThread_threads, if_pos rfl]
      show ((saveRegs s h regs).threads (s.cpus h).currentTid).id = _
      rw [saveRegs_id, hb.ident _ (by omega) hhi]
    refine ⟨hfd, hn, ?_, ?_, ?_, ?_, ?_⟩
    · rw [hsched.rest]
      rfl
    · rw [hsched.rest]
      rfl
    · rw [hsched.rest]
      rfl
    · rw [hsched.stdinWaiter_eq]
      unfold leftWaiter
      -- only recycling would clear the registration, and a `BLOCKED` thread is not recycled
      have hno : ¬ Reclaims cfg ((blockCur (saveRegs s h regs) h buf len).threads
          (s.cpus h).currentTid) := by
        rw [hblocked]
        rintro ⟨hz, -⟩
        cases hz
      have hcond : ¬ ((s.cpus h).currentTid ≠ (s.cpus h).idleTid ∧
          Reclaims cfg ((blockCur (saveRegs s h regs) h buf len).threads (s.cpus h).currentTid) ∧
          (blockCur (saveRegs s h regs) h buf len).stdinWaiter = (s.cpus h).currentTid) :=
        fun hc => hno hc.2.1
      exact (if_neg hcond).trans hreader
    · have hshow : s'.threads (s.cpus h).currentTid =
          threadMarkNotRunning ((blockCur (saveRegs s h regs) h buf len).threads
            (s.cpus h).currentTid) := hleft
      rw [hshow, hblocked]

/-! ## Received characters -/

/-- After a received character nobody is registered. -/
theorem char_stdinWaiter {ch : UInt8} (hs : consoleOnCharFromIrq cfg s h ch = .ok s') :
    s'.stdinWaiter < 0 := by
  rcases consoleOnCharFromIrq_cases hs with ⟨hneg, rfl⟩ | ⟨-, s₁, -, rfl⟩
  · exact hneg
  · show (-1 : Int) < 0
    decide

theorem uart_stdinWaiter {rx : List UInt8} (hs : uart16550IrqHandler cfg s h rx = .ok s')
    (hrx : rx ≠ []) : s'.stdinWaiter < 0 := by
  cases rx with
  | nil => exact absurd rfl hrx
  | cons ch rx =>
    unfold uart16550IrqHandler at hs
    rw [List.foldlM_cons, bind_eq_ok] at hs
    obtain ⟨s₁, hch, hs⟩ := hs
    exact foldlM_keeps (fun s => s.stdinWaiter < 0) (fun _ _ _ _ _ hstep => char_stdinWaiter hstep)
      (char_stdinWaiter hch) hs

theorem threadWake_schedOnly {t : Int} (hs : threadWake cfg s h t = .ok s') : SchedOnly s s' := by
  rcases threadWake_cases hs with ⟨rfl, -⟩ | ⟨-, -, -, hmake⟩
  · exact .refl _
  · exact threadMakeRunnable_schedOnly hmake

theorem char_ticks {ch : UInt8} (hs : consoleOnCharFromIrq cfg s h ch = .ok s') :
    s'.ticks = s.ticks := by
  rcases consoleOnCharFromIrq_cases hs with ⟨-, rfl⟩ | ⟨-, s₁, hread, rfl⟩
  · rfl
  · show s₁.ticks = s.ticks
    rcases threadReadFromStdin_cases hread with ⟨-, hwake⟩ | ⟨-, ⟨-, rfl⟩ | ⟨-, hwake⟩⟩
    · have hk := (threadWake_schedOnly hwake).ticks
      exact hk
    · rfl
    · have hk := (threadWake_schedOnly hwake).ticks
      exact hk

/-- Only the timer of the boot hart moves the clock. -/
theorem trap_ticks {regs : Trapframe} {io : TrapInput} (hb : Basic cfg s)
    (hg : Allowed cfg s (.trap h regs io)) (hs : step cfg s (.trap h regs io) = .ok s') :
    s'.ticks = (clocked s h (trapAction cfg regs io)).ticks := by
  by_cases huse : (trapAction cfg regs io).usesConsole = false
  · exact (trap_consoleKept hb hg hs huse).2.1
  · cases ha : trapAction cfg regs io with
    | read fd buf len =>
      rcases trap_read hb hg hs ha with ⟨-, v, rfl⟩ | ⟨-, -, rfl⟩ | ⟨-, -, -, -, htick, -⟩
      · rfl
      · rfl
      · exact htick
    | external claims =>
      obtain ⟨hrun, -⟩ := trap_runAction hb hg hs
      rw [ha] at hrun
      obtain ⟨s₁, ops, irqs, huart, rfl, -⟩ := platformHandleSExternal_cases hrun
      show s₁.ticks = s.ticks
      refine foldlM_keeps (fun k => k.ticks = s.ticks) ?_ ?_ huart
      · intro ch _ k k' hk hstep
        exact (char_ticks hstep).trans hk
      · rfl
    | _ =>
      rw [ha] at huse
      exact absurd rfl huse

end Ccos
