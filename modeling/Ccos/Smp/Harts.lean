import Mathlib.Tactic
import Ccos.Console.Reader
import Ccos.Join.Exact

/-!
# The threads that other harts execute

A trap on one hart leaves the thread that another hart executes alone: it is not what the action is
about, and no wake-up or reclaim reaches it.  The one thing that needs an invariant of its own is
the registered reader of stdin, which a received character writes to.
-/

namespace Ccos

open Reasoning

variable {cfg : Config} {s s' : Kernel} {h : Nat} {q : Nat → List Int}

/-! ## The registered reader is never current -/

/-- The registered reader is blocked, or was killed while it was. -/
def ReaderOff (cfg : Config) (s : Kernel) : Prop :=
  0 ≤ s.stdinWaiter → s.stdinWaiter < cfg.threadMax ∧
    ((s.threads s.stdinWaiter).state = .blocked ∨ (s.threads s.stdinWaiter).state = .zombie)

/-- The victim of a kill is dead or its slot is recycled, and then it is no longer registered. -/
theorem kill_reader {t cur : Int} (hhit : KillHits cfg s h t)
    (hself : (s.threads t).joinWaiter ≠ t) (hs : threadSysKill cfg s h cur t = .ok s') :
    s'.stdinWaiter ≠ t ∨ (s'.threads t).state = .zombie := by
  rcases threadSysKill_cases hs with ⟨hno, -⟩ | ⟨-, hkill⟩
  · exact absurd hhit hno
  obtain ⟨rq, s₁, -, hrel, rfl⟩ := killThread_cases hkill
  have hvictim : (killed cfg s h t rq).threads t = (s.threads t).kill := by
    rw [killed_threads, if_pos rfl]
  have ha0 : ((s₁.setA0 cur 0).threads t).state = (s₁.threads t).state :=
    ((Quiet.setA0 h s₁ cur 0).threads t).state
  rw [ha0]
  show s₁.stdinWaiter ≠ t ∨ _
  rcases hrel with ⟨-, -, s₀, hmake, rfl⟩ | ⟨-, rfl⟩ | ⟨-, rfl⟩
  · split
    · exact .inl (recycleThread_unregisters hhit.1 hhit.2.1)
    · right
      rw [Kernel.modThread_threads, if_pos rfl, threadMakeRunnable_threads hmake hself.symm,
        deliver_other hself.symm, hvictim]
      rfl
  · split
    · exact .inl (recycleThread_unregisters hhit.1 hhit.2.1)
    · right
      rw [Kernel.modThread_threads, if_pos rfl, hvictim]
      rfl
  · right
    rw [hvictim]
    rfl

/-- A collected thread is no longer registered. -/
theorem collected_unregisters {a : Action} {t cur : Int} (ht : collected cfg s h a = some t)
    (hs : runAction cfg s h cur a = .ok s') : s'.stdinWaiter ≠ t := by
  cases a with
  | join u p =>
    rw [collected] at ht
    split at ht
    · rename_i hacc
      obtain rfl := Option.some.inj ht
      rcases threadSysJoin_cases hs with ⟨hno, -⟩ | ⟨-, -, rfl⟩ | ⟨-, hz, -⟩
      · exact absurd hacc.1 hno
      · exact recycleThread_unregisters hacc.1.1 hacc.1.2.1
      · exact absurd hacc.2 hz
    · cases ht
  | detach u =>
    rw [collected] at ht
    split at ht
    · rename_i hacc
      have hpos := cfg.maxHarts_pos
      have hlo := hacc.1.1
      obtain rfl := Option.some.inj ht
      rw [runAction, Except.ok.injEq] at hs
      rcases threadSysDetach_cases hs with ⟨hno, -⟩ | ⟨-, rfl⟩
      · exact absurd hacc.1 hno
      · rw [if_pos hacc.2]
        exact recycleThread_unregisters (by omega) hacc.1.2.1
    · cases ht
  | _ => cases ht

/-- A dead thread that stays registered stays dead. -/
theorem zombie_reader {regs : Trapframe} {io : TrapInput} (hset : Settled cfg s)
    (hg : Allowed cfg s (.trap h regs io)) (hc : NoStrayKill cfg s (.trap h regs io))
    (hstep : step cfg s (.trap h regs io) = .ok s')
    (huse : (trapAction cfg regs io).usesConsole = false) (h0 : 0 ≤ s.stdinWaiter)
    (hz : (s.threads s.stdinWaiter).state = .zombie) (hsame : s'.stdinWaiter = s.stdinWaiter) :
    (s'.threads s.stdinWaiter).state = .zombie := by
  obtain ⟨q, hs⟩ := hset.sched
  have hb := hset.basic
  have he := hg.1
  have hcur : s.stdinWaiter ≠ (s.cpus h).currentTid := by
    intro heq
    rcases (hs.cur h he (by simp)).1 with hrun | ⟨hdead, -⟩
    · rw [← heq, hz] at hrun
      cases hrun
    · exact hdead
  -- a dead thread is neither killed nor woken, and a collected one is not registered any more
  have hby : Bystands cfg s h (trapAction cfg regs io) s.stdinWaiter := by
    refine ⟨h0, ?_, hcur, ?_, ?_, ?_, ?_, ?_⟩
    · rw [hz]
      decide
    · intro ht
      rcases terminated_cases ht with ⟨code, -, heq⟩ | ⟨-, hhit⟩
      · exact hcur heq
      · exact hhit.2.2.2.2.2 hz
    · rintro ⟨t, ht, hj⟩
      have hwait := (joiner_of_terminated hs hset.exact.toJoinersWait he (NoStrayKill.safe hc) ht
        (hj ▸ h0)).2.1
      rw [← hj, hz] at hwait
      cases hwait
    · intro hcoll
      obtain ⟨hrun, -⟩ := trap_runAction hb hg hstep
      have hcoll' : collected cfg (saveRegs s h regs) h (trapAction cfg regs io) =
          some s.stdinWaiter :=
        (collected_saveRegs _).trans hcoll
      exact collected_unregisters hcoll' hrun hsame
    · rintro - - ⟨hsl, -⟩
      rw [hz] at hsl
      cases hsl
    · intro claims ha
      rw [ha] at huse
      cases huse
  rcases trap_bystander hb hg hstep hby with hmark | ⟨-, -, hidle | hrun⟩
  · rw [hmark, marked_state]
    exact hz
  · have hh := he.1
    rcases (hb.idle s.stdinWaiter h0 (by omega)).1 with hst | hst <;> rw [hz] at hst <;> cases hst
  · rw [hz] at hrun
    cases hrun

/-- A blocked thread that stays registered is blocked or dead after the trap. -/
theorem blocked_reader {regs : Trapframe} {io : TrapInput} (hset : Settled cfg s)
    (hg : Allowed cfg s (.trap h regs io)) (hc : NoStrayKill cfg s (.trap h regs io))
    (hstep : step cfg s (.trap h regs io) = .ok s')
    (huse : (trapAction cfg regs io).usesConsole = false) (h0 : 0 ≤ s.stdinWaiter)
    (hbl : (s.threads s.stdinWaiter).state = .blocked) (hsame : s'.stdinWaiter = s.stdinWaiter) :
    (s'.threads s.stdinWaiter).state = .blocked ∨ (s'.threads s.stdinWaiter).state = .zombie := by
  obtain ⟨q, hs⟩ := hset.sched
  have hb := hset.basic
  have hsus : (s.threads s.stdinWaiter).state.suspended = true := by
    rw [hbl]
    rfl
  by_cases hv : victim cfg s h (trapAction cfg regs io) = some s.stdinWaiter
  · obtain ⟨ha, hhit⟩ := victim_cases hv
    obtain ⟨hrun, -⟩ := trap_runAction hb hg hstep
    rw [ha] at hrun
    have hself : ((saveRegs s h regs).threads s.stdinWaiter).joinWaiter ≠ s.stdinWaiter := by
      rw [saveRegs_joinWaiter]
      exact hb.joinSelf _ h0
    rcases kill_reader (killHits_saveRegs.mpr hhit) hself hrun with hun | hz
    · exact absurd hsame hun
    · exact .inr hz
  · left
    have hby : Bystands cfg s h (trapAction cfg regs io) s.stdinWaiter := by
      refine hs.bystands hg.1 h0 hsus hv ?_ ?_ ?_
      · rintro ⟨t, ht, hj⟩
        have hwait :=
          (joiner_of_terminated hs hset.exact.toJoinersWait hg.1 (NoStrayKill.safe hc) ht
          (hj ▸ h0)).2.1
        rw [← hj, hbl] at hwait
        cases hwait
      · rintro - - ⟨hsl, -⟩
        rw [hbl] at hsl
        cases hsl
      · intro claims ha
        rw [ha] at huse
        cases huse
    rw [hby.suspended hb hg hstep hsus, marked_state]
    exact hbl

theorem readerOff_trap {regs : Trapframe} {io : TrapInput} (hset : Settled cfg s)
    (hro : ReaderOff cfg s) (hg : Allowed cfg s (.trap h regs io))
    (hc : NoStrayKill cfg s (.trap h regs io))
    (hstep : step cfg s (.trap h regs io) = .ok s') : ReaderOff cfg s' := by
  have hb := hset.basic
  obtain ⟨hrun, huser⟩ := trap_runAction hb hg hstep
  have hkeep : ∀ s₁ : Kernel, s₁.stdinWaiter = s.stdinWaiter →
      (∀ t, (s₁.threads t).state = (s.threads t).state) → ReaderOff cfg s₁ := by
    intro s₁ h1 h2
    unfold ReaderOff
    rw [h1, h2]
    exact hro
  cases huse : (trapAction cfg regs io).usesConsole with
  | false =>
    -- the cell keeps its value or is cleared, and a registered reader stays where it is
    obtain ⟨-, -, hreg⟩ := trap_consoleKept hb hg hstep huse
    rw [clocked_stdinWaiter] at hreg
    intro h0
    rcases hreg with hsame | ⟨hneg, -⟩
    · rw [hsame] at h0 ⊢
      obtain ⟨hlt, hst⟩ := hro h0
      refine ⟨hlt, ?_⟩
      rcases hst with hbl | hz
      · exact blocked_reader hset hg hc hstep huse h0 hbl hsame
      · exact .inr (zombie_reader hset hg hc hstep huse h0 hz hsame)
    · omega
  | true =>
    cases ha : trapAction cfg regs io with
    | read fd buf len =>
      have hstate : ∀ (k : Kernel) (t u : Int) (v : UInt64),
          ((k.setA0 t v).threads u).state = (k.threads u).state := fun k t u v =>
        ((Quiet.setA0 h k t v).threads u).state
      rcases trap_read hb hg hstep ha with ⟨-, v, rfl⟩ | ⟨-, -, rfl⟩ | ⟨-, -, -, -, -, hreg, hth⟩
      · refine hkeep _ rfl fun t => ?_
        rw [hstate, saveRegs_state]
      · refine hkeep _ rfl fun t => ?_
        rw [hstate]
        exact saveRegs_state s h regs t
      · -- the caller blocks and becomes the registered reader
        intro _
        rw [ha] at huser
        rw [hreg, hth]
        exact ⟨(huser rfl).2, .inl rfl⟩
    | external claims =>
      rw [ha] at hrun
      obtain ⟨s₁, ops, irqs, huart, rfl, -⟩ := platformHandleSExternal_cases hrun
      by_cases hrx : received (saveRegs s h regs) claims = []
      · rw [hrx] at huart
        cases huart
        exact hkeep _ rfl fun t => saveRegs_state s h regs t
      · -- a received character clears the cell
        intro h0
        have hneg : s₁.stdinWaiter < 0 := uart_stdinWaiter huart hrx
        have h0' : 0 ≤ s₁.stdinWaiter := h0
        omega
    | _ =>
      rw [ha] at huse
      cases huse

theorem readerOff_step {e : Event} (hset : Settled cfg s) (hro : ReaderOff cfg s)
    (hg : Allowed cfg s e) (hc : NoStrayKill cfg s e) (hstep : step cfg s e = .ok s') :
    ReaderOff cfg s' := by
  cases e with
  | cpuInit h =>
    obtain ⟨-, c, -, -, -, -, -, rfl⟩ := cpuInit_cases hstep
    exact hro
  | enterIdle h =>
    obtain ⟨-, -, -, -, hreg, -, -, -, -, -, hth, -⟩ := enterIdle_cases hstep
    unfold ReaderOff
    rw [hreg, hth]
    intro h0
    obtain ⟨hlt, hst⟩ := hro h0
    have hne : s.stdinWaiter ≠ h := by
      intro heq
      have hh := hg.1
      rcases (hset.basic.idle s.stdinWaiter h0 (by omega)).1 with hi | hi <;>
        rcases hst with hst | hst <;> rw [hst] at hi <;> cases hi
    rw [if_neg hne]
    exact ⟨hlt, hst⟩
  | trap h regs io => exact readerOff_trap hset hro hg hc hstep

theorem readerOff_reachable (hr : Reachable ((kernelSystem cfg).restrict (NoStrayKill cfg)) s) :
    ReaderOff cfg s := by
  have hboth : Settled cfg s ∧ ReaderOff cfg s := by
    refine hr.invariant (fun s => Settled cfg s ∧ ReaderOff cfg s) (fun s₁ hi => ?_) ?_
    · refine ⟨settled_init hi, fun h0 => ?_⟩
      rw [init_stdinWaiter hi] at h0
      omega
    · intro s₁ e s₂ hP hg hs
      exact ⟨hP.1.next hg.1 hg.2 hs, readerOff_step hP.1 hP.2 hg.1 hg.2 hs⟩
  exact hboth.2

/-! ## Other harts' threads are bystanders -/

/-- The thread that hart `k` executes is none of those a trap on another hart is about. -/
theorem Settled.current_bystands {regs : Trapframe} {io : TrapInput} {k : Nat}
    (hset : Settled cfg s)
    (hro : ReaderOff cfg s) (hg : Allowed cfg s (.trap h regs io))
    (hc : NoStrayKill cfg s (.trap h regs io)) (hk : Entered cfg s k) (hkh : k ≠ h) :
    Bystands cfg s h (trapAction cfg regs io) (s.cpus k).currentTid := by
  obtain ⟨q, hs⟩ := hset.sched
  have hrange := Sched.cur_range hset.basic.harts hk
  have hrun : (s.threads (s.cpus k).currentTid).state = .running := by
    rcases (hs.cur k hk (by simp)).1 with hrun | ⟨hdead, -⟩
    · exact hrun
    · exact hdead.elim
  have hother : (s.cpus k).currentTid ≠ (s.cpus h).currentTid :=
    fun heq => hkh (hs.curInj k h hk hg.1 heq)
  refine ⟨hrange.1, ?_, hother, ?_, ?_, ?_, ?_, ?_⟩
  · rw [hrun]
    decide
  · intro ht
    rcases terminated_cases ht with ⟨code, -, heq⟩ | ⟨ha, hhit⟩
    · exact hother heq
    · exact (hc _ (ha ▸ mem_victim hhit)).2 k hk.1 hkh hk rfl
  · rintro ⟨t, ht, hj⟩
    have hwait := (joiner_of_terminated hs hset.exact.toJoinersWait hg.1 (NoStrayKill.safe hc) ht
      (hj ▸ hrange.1)).2.1
    rw [← hj, hrun] at hwait
    cases hwait
  · intro hcoll
    obtain ⟨-, -, hz, -⟩ := collected_cases hcoll
    rw [hrun] at hz
    cases hz
  · rintro - - ⟨hsl, -⟩
    rw [hrun] at hsl
    cases hsl
  · intro claims _ heq
    have h0 : 0 ≤ s.stdinWaiter := heq ▸ hrange.1
    rcases (hro h0).2 with hst | hst <;> rw [heq, hrun] at hst <;> cases hst

/-- Its record changes only by the mark of a `join`. -/
theorem Settled.current_tf {regs : Trapframe} {io : TrapInput} {k : Nat} (hset : Settled cfg s)
    (hro : ReaderOff cfg s) (hg : Allowed cfg s (.trap h regs io))
    (hc : NoStrayKill cfg s (.trap h regs io)) (hstep : step cfg s (.trap h regs io) = .ok s')
    (hk : Entered cfg s k) (hkh : k ≠ h) :
    (s'.threads (s.cpus k).currentTid).tf = (s.threads (s.cpus k).currentTid).tf := by
  have hby := hset.current_bystands hro hg hc hk hkh
  obtain ⟨w, d, hmarked⟩ := marked_eq cfg s h (s.cpus k).currentTid (trapAction cfg regs io)
  rcases trap_bystander hset.basic hg hstep hby with hsame | ⟨hsame, -⟩
  · rw [hsame, hmarked]
  · rw [hsame, hmarked]
    rfl

end Ccos
