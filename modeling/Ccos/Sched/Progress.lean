import Mathlib.Tactic
import Ccos.Sched.Consistent
import Ccos.Platform.IrqStats
import Ccos.RunQueue.Refine

/-!
# Every trap returns

The kernel halts on a trap it cannot handle.  Apart from those, `trap_entry_c` could fail in three
places: an `ASSERT` of `schedule`, the panic of `rq_push_tail` on a thread that is queued already,
and the two loops over a run queue.  None of the first two fires in any run, and the pick loop of
`schedule` ends on whatever links it finds, because every pop clears one.  Only the walk of
`rq_remove` needs the queues to be lists.

Outside of the model are faults of a handler on a pointer of a system call (see `Mem`) and the wait
of `uart16550_putc` for the device.
-/

namespace Ccos

open Reasoning

variable {cfg : Config} {s s' : Kernel} {h : Nat} {tf : Int}

/-! ## The pick loop ends -/

/-- The queueable slots whose `rq_next` leads somewhere. -/
def liveLinks (cfg : Config) (r : RunQueues) : Finset Nat :=
  (Finset.range cfg.threadMax).filter fun t => cfg.maxHarts ≤ t ∧ 0 ≤ r.rqNext t

theorem liveLinks_card_lt (r : RunQueues) : (liveLinks cfg r).card < cfg.threadMax := by
  have hpos := cfg.maxHarts_pos
  have hlt := cfg.maxHarts_lt
  -- slot 0 is an idle thread's
  have hsub : liveLinks cfg r ⊂ Finset.range cfg.threadMax := by
    refine (Finset.ssubset_iff_of_subset (Finset.filter_subset _ _)).mpr
      ⟨0, Finset.mem_range.mpr (by omega), ?_⟩
    simp only [Finset.mem_filter]
    omega
  have hcard := Finset.card_lt_card hsub
  rw [Finset.card_range] at hcard
  exact hcard

/-- A pop that leaves a head behind uses up the link of the node it took. -/
theorem rqPopHead_liveLinks {r : RunQueues} {h : Nat} (hl : LinksIn cfg r) (hh : h < cfg.maxHarts)
    (h0 : 0 ≤ (r.queues h).head) :
    ((rqPopHead cfg r h).2.queues h).head < 0 ∨
      (liveLinks cfg (rqPopHead cfg r h).2).card < (liveLinks cfg r).card := by
  have hnot : ¬ cfg.maxHarts ≤ h := by omega
  have hpos : ¬ (r.queues h).head < 0 := by omega
  by_cases hend : r.rqNext (r.queues h).head < 0
  · left
    simp [rqPopHead, hnot, hpos, RunQueues.unlink, hend]
  right
  obtain ⟨n, hn⟩ := Int.eq_ofNat_of_zero_le h0
  have hrange : cfg.maxHarts ≤ n ∧ n < cfg.threadMax := by
    rcases hl.head h hh with hneg | hin <;> omega
  apply Finset.card_lt_card
  rw [Finset.ssubset_iff_of_subset]
  · refine ⟨n, ?_, ?_⟩
    · simp only [liveLinks, Finset.mem_filter, Finset.mem_range, ← hn]
      exact ⟨hrange.2, hrange.1, by omega⟩
    · have hn0 : ¬ ((n : Int) < 0) := by omega
      simp [liveLinks, rqPopHead, hnot, hn0, RunQueues.unlink, hn]
  · intro u hu
    simp only [liveLinks, Finset.mem_filter, Finset.mem_range, rqPopHead, hnot, hpos, if_false,
      RunQueues.unlink, RunQueues.setNext_rqNext, RunQueues.setOnRq_rqNext,
      RunQueues.modQueue_rqNext] at hu ⊢
    refine ⟨hu.1, hu.2.1, ?_⟩
    have hne := hu.2.2
    split at hne
    · omega
    · exact hne

/-- The loop pops at most one node for each live link, one without a link, and the end. -/
theorem schedulePick_returns {threads : Int → Thread} {h : Nat} {idle : Int} {fuel : Nat}
    {r : RunQueues} (hl : LinksIn cfg r)
    (hfuel : ((r.queues h).head < 0 ∧ 0 < fuel) ∨ (liveLinks cfg r).card + 1 < fuel) :
    ∃ out, schedulePick cfg threads h idle fuel r = .ok out := by
  induction fuel generalizing r with
  | zero => omega
  | succ fuel ih =>
    unfold schedulePick
    dsimp only
    obtain ⟨hpop, -⟩ | ⟨hh, h0, hpop, -, hlinks⟩ := @rqPopHead_cases cfg r h
    · rw [hpop]
      exact ⟨_, rfl⟩
    · have hnot : ¬ (rqPopHead cfg r h).1 < 0 := by omega
      rw [if_neg hnot]
      split
      · exact ⟨_, rfl⟩
      · -- a stale node: the measure went down, or the queue is empty now
        apply ih (hlinks hl)
        rcases rqPopHead_liveLinks hl hh h0 with hempty | hless
        · exact .inl ⟨hempty, by omega⟩
        · exact .inr (by omega)

/-! ## What a pick takes off the queues -/

/-- Popping marks nobody as queued, and the thread it returns as not queued. -/
theorem rqPopHead_onRq (r : RunQueues) (h : Nat) (u : Int) :
    ((rqPopHead cfg r h).2.onRq u = true → r.onRq u = true) ∧
      (0 ≤ (rqPopHead cfg r h).1 → (rqPopHead cfg r h).2.onRq (rqPopHead cfg r h).1 = false) := by
  unfold rqPopHead
  dsimp only
  by_cases hout : cfg.maxHarts ≤ h
  · rw [if_pos hout]
    exact ⟨id, fun h0 => by omega⟩
  rw [if_neg hout]
  by_cases hempty : (r.queues h).head < 0
  · rw [if_pos hempty]
    exact ⟨id, fun h0 => by omega⟩
  · rw [if_neg hempty]
    refine ⟨fun hu => ?_, fun _ => by simp [RunQueues.unlink]⟩
    simp only [RunQueues.unlink, RunQueues.setNext_onRq, RunQueues.setOnRq_onRq,
      RunQueues.modQueue_onRq] at hu
    split at hu
    · cases hu
    · exact hu

theorem schedulePick_onRq {threads : Int → Thread} {h : Nat} {idle next : Int} {fuel : Nat}
    {r r' : RunQueues} (hp : schedulePick cfg threads h idle fuel r = .ok (next, r')) :
    (∀ u, r'.onRq u = true → r.onRq u = true) ∧ (next = idle ∨ r'.onRq next = false) := by
  induction fuel generalizing r with
  | zero => cases hp
  | succ fuel ih =>
    unfold schedulePick at hp
    dsimp only at hp
    split_ifs at hp with hneg hrun
    · simp only [Except.ok.injEq, Prod.mk.injEq] at hp
      obtain ⟨rfl, rfl⟩ := hp
      exact ⟨fun u => (rqPopHead_onRq r h u).1, .inl rfl⟩
    · simp only [Except.ok.injEq, Prod.mk.injEq] at hp
      obtain ⟨rfl, rfl⟩ := hp
      exact ⟨fun u => (rqPopHead_onRq r h u).1, .inr ((rqPopHead_onRq r h 0).2 (by omega))⟩
    · obtain ⟨hmono, hnext⟩ := ih hp
      exact ⟨fun u hu => (rqPopHead_onRq r h u).1 (hmono u hu), hnext⟩

/-- A push queues its thread and leaves the others as they were. -/
theorem rqPushTail_onRq {r r' : RunQueues} {h : Nat} {t u : Int}
    (hp : rqPushTail cfg r h t = .ok r') (hu : r'.onRq u = true) : u = t ∨ r.onRq u = true := by
  unfold rqPushTail at hp
  split_ifs at hp
  · cases hp
    exact .inr hu
  · cases hp
    exact .inr hu
  · cases hp
    exact .inr hu
  · cases hp
    by_cases hut : u = t
    · exact .inl hut
    · right
      split_ifs at hu <;> simpa [hut] using hu

theorem unlink_onRq_le {r : RunQueues} {t u : Int} (hu : (r.unlink t).onRq u = true) :
    r.onRq u = true := by
  simp only [RunQueues.unlink, RunQueues.setNext_onRq, RunQueues.setOnRq_onRq] at hu
  split at hu
  · cases hu
  · exact hu

/-! ## Nobody runs while queued -/

/-- A `RUNNING` thread is in no queue. -/
def RunsUnqueued (cfg : Config) (s : Kernel) : Prop :=
  ∀ t, (cfg.maxHarts : Int) ≤ t → t < cfg.threadMax → (s.threads t).state = .running →
    s.rq.onRq t = false

/-- Writes that set no `on_rq` and make nobody `RUNNING`. -/
theorem RunsUnqueued.of_le (hu : RunsUnqueued cfg s)
    (hst : ∀ t, (s'.threads t).state = .running → (s.threads t).state = .running)
    (hrq : ∀ t, s'.rq.onRq t = true → s.rq.onRq t = true) : RunsUnqueued cfg s' := by
  intro t h1 h2 hrun
  by_contra hon
  rw [Bool.not_eq_false] at hon
  have hoff := hu t h1 h2 (hst t hrun)
  rw [hrq t hon] at hoff
  cases hoff

theorem RunsUnqueued.modThread (hu : RunsUnqueued cfg s) {t : Int} {f : Thread → Thread}
    (hf : (f (s.threads t)).state = .running → (s.threads t).state = .running) :
    RunsUnqueued cfg (s.modThread t f) := by
  refine hu.of_le (fun u hrun => ?_) fun _ hon => hon
  rw [Kernel.modThread_threads] at hrun
  split at hrun
  · rename_i heq
    subst heq
    exact hf hrun
  · exact hrun

theorem RunsUnqueued.unlink (hu : RunsUnqueued cfg s) (t : Int) :
    RunsUnqueued cfg (s.setRq (s.rq.unlink t)) :=
  hu.of_le (fun _ hrun => hrun) fun _ hon => unlink_onRq_le hon

theorem RunsUnqueued.wake (hu : RunsUnqueued cfg s) {t : Int} {p : Nat}
    (hw : threadMakeRunnable cfg s h t p = .ok s') : RunsUnqueued cfg s' := by
  rcases threadMakeRunnable_cases hw with ⟨rfl, -⟩ | ⟨rq, hw⟩
  · exact hu
  intro u h1 h2 hrun
  rw [hw.threads] at hrun
  split at hrun
  · -- the woken thread is `RUNNABLE`
    cases hrun
  · rename_i hne
    by_contra hon
    rw [Bool.not_eq_false, hw.rq_eq] at hon
    rcases rqPushTail_onRq hw.push hon with heq | hold
    · exact hne heq
    · have hoff := hu u h1 h2 hrun
      rw [hold] at hoff
      cases hoff

theorem RunsUnqueued.recycle (hu : RunsUnqueued cfg s) (t : Int) :
    RunsUnqueued cfg (recycleThread cfg s t) := by
  by_cases hr : t ≤ 0 ∨ (cfg.threadMax : Int) ≤ t
  · unfold recycleThread
    rw [if_pos hr]
    exact hu
  · rw [recycleThread_eq (by omega) (by omega)]
    have hreset : RunsUnqueued cfg ((s.setStdinWaiter
        (if s.stdinWaiter = t then -1 else s.stdinWaiter)).modThread t Thread.recycled) :=
      RunsUnqueued.modThread (s := s.setStdinWaiter _) hu nofun
    exact hreset.unlink t

theorem rqRemoveLoop_onRq {h : Nat} {t : Int} {fuel : Nat} {prev cur ret : Int} {r r' : RunQueues}
    (hp : rqRemoveLoop h t fuel r prev cur = .ok (ret, r')) {u : Int} (hu : r'.onRq u = true) :
    r.onRq u = true := by
  induction fuel generalizing prev cur with
  | zero => cases hp
  | succ fuel ih =>
    unfold rqRemoveLoop at hp
    split_ifs at hp
    · cases hp
      exact hu
    · cases hp
      have hold := unlink_onRq_le hu
      exact hold
    · cases hp
      have hold := unlink_onRq_le hu
      exact hold
    · exact ih hp

theorem rqRemove_onRq {h : Nat} {t ret : Int} {r r' : RunQueues}
    (hp : rqRemove cfg r h t = .ok (ret, r')) {u : Int} (hu : r'.onRq u = true) :
    r.onRq u = true := by
  unfold rqRemove at hp
  split_ifs at hp
  · cases hp
    exact hu
  · cases hp
    exact hu
  · exact rqRemoveLoop_onRq hp hu

/-- Removing a thread queues nobody. -/
theorem rqRemoveAny_onRq {t ret : Int} {r r' : RunQueues} (hp : rqRemoveAny cfg r t = .ok (ret, r'))
    {u : Int} (hu : r'.onRq u = true) : r.onRq u = true := by
  have hloop : ∀ (n k : Nat) (r : RunQueues), rqRemoveAnyLoop cfg t n k r = .ok (ret, r') →
      r.onRq u = true := by
    intro n
    induction n with
    | zero =>
      intro k r hp
      simp only [rqRemoveAnyLoop, Except.ok.injEq, Prod.mk.injEq] at hp
      exact hp.2 ▸ hu
    | succ n ih =>
      intro k r hp
      simp only [rqRemoveAnyLoop, bind_eq_ok] at hp
      obtain ⟨⟨ret₁, r₁⟩, hrem, hp⟩ := hp
      dsimp only at hp
      split at hp
      · simp only [Except.ok.injEq, Prod.mk.injEq] at hp
        exact rqRemove_onRq hrem (hp.2 ▸ hu)
      · exact rqRemove_onRq hrem (ih _ _ hp)
  unfold rqRemoveAny at hp
  split_ifs at hp
  · cases hp
    exact hu
  · exact hloop _ _ _ hp

theorem RunsUnqueued.act {s₀ : Kernel} {a : Action} (hu : RunsUnqueued cfg s)
    (ha : Act cfg h s₀ a s s') : RunsUnqueued cfg s' := by
  cases ha with
  | quiet hq =>
    refine hu.of_le (fun t hrun => ?_) fun t hon => hq.rq ▸ hon
    rw [(hq.threads t).state] at hrun
    exact hrun
  | slice _ _ => exact hu
  | wakeSleeper _ _ hw => exact hu.wake hw
  | wakeReader _ _ hw => exact hu.wake hw
  | wakeJoiner _ _ _ _ _ hw => exact hu.wake hw
  | clearReader _ => exact hu
  | create _ _ _ _ _ hw => exact (hu.modThread (by simp)).wake hw
  -- the thread that suspends or dies is taken out of `RUNNING`
  | sleep _ _ _ => exact RunsUnqueued.unlink (hu.modThread (by simp)) _
  | exit _ _ => exact RunsUnqueued.unlink (hu.modThread (by simp)) _
  | wait _ _ _ => exact (hu.modThread (by simp)).modThread id
  | @block buf len _ _ _ =>
    have hpend : RunsUnqueued cfg
        (s.modThread (s.cpus h).currentTid (Thread.setPendingRead · buf len)) := hu.modThread id
    unfold blockCur
    have hreg : RunsUnqueued cfg ((s.modThread (s.cpus h).currentTid
        (Thread.setPendingRead · buf len)).setStdinWaiter
          ((s.modThread (s.cpus h).currentTid (Thread.setPendingRead · buf len)).threads
            (s.cpus h).currentTid).id) := hpend
    refine hreg.modThread fun hrun => ?_
    cases hrun
  | @kill t rq _ _ _ hunq =>
    have hdead : RunsUnqueued cfg (s.modThread t Thread.kill) := hu.modThread (by simp)
    refine hdead.of_le (fun _ hrun => hrun) fun u hon => ?_
    rcases hunq with ⟨-, ret, hrem⟩ | ⟨-, rfl⟩
    · exact rqRemoveAny_onRq hrem hon
    · exact hon
  | @deliver w code _ _ _ =>
    refine hu.of_le (fun t hrun => ?_) fun t hon => ?_
    · rw [(deliver_state w code t).1] at hrun
      exact hrun
    · rw [(deliver_rest w code).1] at hon
      exact hon
  | joinWaiter _ _ => exact hu.modThread id
  | detach _ _ _ => exact hu.modThread id
  | reclaim _ _ _ _ _ => exact hu.recycle _
  | collect _ _ _ _ _ => exact hu.recycle _

/-- The thread that `schedule` picks has just been popped; the one it leaves is not `RUNNING`. -/
theorem RunsUnqueued.schedule {rq rq' : RunQueues} {next : Int} (hu : RunsUnqueued cfg s)
    (he : Entered cfg s h) (hs : Scheduled cfg h s rq next rq' s') : RunsUnqueued cfg s' := by
  intro t h1 h2 hrun
  obtain ⟨hmono, hnext⟩ := schedulePick_onRq hs.pick
  rw [hs.rq_eq]
  rw [hs.threads] at hrun
  by_cases hn : t = next
  · rcases hnext with hidle | hoff
    · have hh := he.1
      rw [he.2.2.2.1] at hidle
      omega
    · exact hn ▸ hoff
  rw [if_neg hn, leftKernel_threads] at hrun
  by_cases hcur : t = (s.cpus h).currentTid
  · rw [if_pos hcur] at hrun
    exact absurd hrun (leftThread_not_running _ _)
  rw [if_neg hcur] at hrun
  by_contra hon
  rw [Bool.not_eq_false] at hon
  -- before the pick only the thread left behind can have been queued
  have hleft : s.rq.onRq t = true := by
    have hmid := hmono t hon
    have hl := hs.left
    unfold leftRq at hl
    dsimp only at hl
    split_ifs at hl
    · exact (rqPushTail_onRq hl hmid).resolve_left hcur
    · rw [Except.ok.injEq] at hl
      exact unlink_onRq_le (hl ▸ hmid)
    · rw [Except.ok.injEq] at hl
      exact hl ▸ hmid
  have hoff := hu t h1 h2 hrun
  rw [hleft] at hoff
  cases hoff

theorem runsUnqueued_step {e : Event} (hb : Basic cfg s) (hu : RunsUnqueued cfg s)
    (hg : Allowed cfg s e) (hs : step cfg s e = .ok s') : RunsUnqueued cfg s' := by
  cases e with
  | cpuInit h =>
    obtain ⟨-, c, -, -, -, -, -, rfl⟩ := cpuInit_cases hs
    exact hu
  | enterIdle h =>
    obtain ⟨hrq, -, -, -, -, -, -, -, -, -, hthreads, -⟩ := enterIdle_cases hs
    intro t h1 h2 hrun
    have hne : t ≠ h := by
      have hh := hg.1
      omega
    rw [hthreads, if_neg hne] at hrun
    rw [hrq]
    exact hu t h1 h2 hrun
  | trap h regs io =>
    obtain ⟨s₁, hran⟩ := trap_ran (RunsUnqueued cfg) hb hg hs hu
      fun _ _ _ _ _ hu₁ hact => hu₁.act hact
    rcases hran.last with ⟨-, rq, next, rq', hsch⟩ | ⟨-, rfl⟩
    · exact hran.kept.schedule hran.entered hsch
    · exact hran.kept

theorem runsUnqueued_reachable (hr : Reachable (kernelSystem cfg) s) : RunsUnqueued cfg s := by
  have hboth : Basic cfg s ∧ RunsUnqueued cfg s := by
    refine hr.invariant (fun s => Basic cfg s ∧ RunsUnqueued cfg s) (fun s₁ hi => ?_) ?_
    · obtain ⟨q, hsched⟩ := @sched_init cfg False s₁ hi
      refine ⟨basic_init hi, fun t _ _ hrun => hsched.onRq_false ?_⟩
      rw [hrun]
      decide
    · intro s₁ e s₂ hP hg hs
      exact ⟨basic_step hP.1 hg hs, runsUnqueued_step hP.1 hP.2 hg hs⟩
  exact hboth.2

/-! ## `schedule` returns -/

/-- What `schedule` on hart `h` relies on when it is called with `&g_threads[tf].tf`. -/
structure CanSchedule (cfg : Config) (s : Kernel) (h : Nat) (tf : Int) : Prop where
  curTf : (s.cpus h).curTf = .thread tf
  range : (s.cpus h).currentTid ≠ (s.cpus h).idleTid →
    0 < (s.cpus h).currentTid ∧ (s.cpus h).currentTid < cfg.threadMax
  links : LinksIn cfg s.rq
  off : (s.cpus h).currentTid ≠ (s.cpus h).idleTid →
    (s.threads (s.cpus h).currentTid).state = .running → s.rq.onRq (s.cpus h).currentTid = false

theorem CanSchedule.returns (hc : CanSchedule cfg s h tf) : ∃ s', schedule cfg s h tf = .ok s' := by
  have hpush : ∃ rq, leftRq cfg s h = .ok rq := by
    unfold leftRq
    dsimp only
    split_ifs with hrun
    · unfold rqPushTail
      have hoff := hc.off hrun.1 hrun.2
      simp only [hoff, Bool.false_eq_true, if_false]
      split_ifs <;> exact ⟨_, rfl⟩
    · exact ⟨_, rfl⟩
    · exact ⟨_, rfl⟩
  obtain ⟨rq, hrq⟩ := hpush
  have hfuel := @liveLinks_card_lt cfg rq
  obtain ⟨out, hpick⟩ := @schedulePick_returns cfg (leftKernel cfg s h rq).threads
    (s.cpus h).hartid (s.cpus h).idleTid (cfg.threadMax + 1) rq (leftRq_links hc.links hrq)
    (.inr (by omega))
  have hassert : assertOk cfg (TfPtr.thread tf = (s.cpus h).curTf)
      "ASSERT failed: tf == cpu_this()->cur_tf" = .ok () := by
    unfold assertOk
    rw [if_pos (.inl hc.curTf.symm)]
  unfold schedule
  dsimp only
  rw [hassert, ok_bind, scheduleLeave_eq hc.range, hrq]
  show ∃ s', (schedulePick cfg (leftKernel cfg s h rq).threads (s.cpus h).hartid
    (s.cpus h).idleTid (cfg.threadMax + 1) rq >>= _) = .ok s'
  rw [hpick]
  exact ⟨_, rfl⟩

theorem Basic.canSchedule (hb : Basic cfg s) (he : Entered cfg s h) (hu : RunsUnqueued cfg s) :
    CanSchedule cfg s h (s.cpus h).currentTid where
  curTf := hb.harts.curTf h he
  range := hb.cur_ok he
  links := hb.links
  off hne hrun := by
    have hc := hb.harts.cur_pos he hne
    exact hu _ hc.1 hc.2 hrun

/-- `schedule` may still be called after writes that leave `cpu_t` alone, put no link out of range
and queue nobody who runs. -/
theorem CanSchedule.of_same (hc : CanSchedule cfg s h tf) (hcpu : SameCpu (s.cpus h) (s'.cpus h))
    (hl : LinksIn cfg s'.rq)
    (hoff : (s.cpus h).currentTid ≠ (s.cpus h).idleTid →
      (s'.threads (s.cpus h).currentTid).state = .running →
      s'.rq.onRq (s.cpus h).currentTid = false) : CanSchedule cfg s' h tf := by
  obtain ⟨htf, -, -, hcur, hidle⟩ := hcpu
  refine ⟨htf.trans hc.curTf, ?_, hl, ?_⟩
  · rw [hcur, hidle]
    exact hc.range
  · rw [hcur, hidle]
    exact hoff

theorem CanSchedule.wake (hc : CanSchedule cfg s h tf) {t : Int} {p : Nat}
    (hw : threadMakeRunnable cfg s h t p = .ok s') : CanSchedule cfg s' h tf := by
  rcases threadMakeRunnable_cases hw with ⟨rfl, -⟩ | ⟨rq, hw⟩
  · exact hc
  refine hc.of_same (hw.sameHarts.sameCpu h) ?_ fun hne hrun => ?_
  · rw [hw.rq_eq]
    exact rqPushTail_links hc.links hw.push
  · rw [hw.threads] at hrun
    split at hrun
    · cases hrun
    · rename_i hother
      by_contra hon
      rw [Bool.not_eq_false, hw.rq_eq] at hon
      have hold := (rqPushTail_onRq hw.push hon).resolve_left hother
      rw [hc.off hne hrun] at hold
      cases hold

/-- A thread that has just left `RUNNING` can be switched away from. -/
theorem CanSchedule.leaving (hc : CanSchedule cfg s h tf) (hcpu : SameCpu (s.cpus h) (s'.cpus h))
    (hl : LinksIn cfg s'.rq) (hst : (s'.threads (s.cpus h).currentTid).state ≠ .running) :
    CanSchedule cfg s' h tf :=
  hc.of_same hcpu hl fun _ hrun => absurd hrun hst

/-! ## The handlers return -/

theorem threadsTick_returns (hc : CanSchedule cfg s h tf) :
    ∃ s', threadsTick cfg s h = .ok s' ∧ CanSchedule cfg s' h tf := by
  have hstep : ∀ (s : Kernel) (i : Nat), ∃ s', threadsTickStep cfg h s i = .ok s' := by
    intro s i
    unfold threadsTickStep
    split
    · exact threadMakeRunnable_returns _ _
    · exact ⟨_, rfl⟩
  obtain ⟨s', hs'⟩ :=
    foldlM_returns hstep (List.range cfg.threadMax) { s with ticks := s.ticks + 1 }
  refine ⟨s', hs', ?_⟩
  refine foldlM_keeps (CanSchedule cfg · h tf) ?_ ?_ hs'
  · intro i _ s₁ s₂ hc₁ hs₁
    unfold threadsTickStep at hs₁
    split at hs₁
    · have hclear : CanSchedule cfg (s₁.modThread i Thread.clearWakeup) h tf := by
        refine hc₁.of_same (.refl _) hc₁.links fun hne hrun => hc₁.off hne ?_
        rw [Kernel.modThread_threads] at hrun
        split at hrun <;> exact hrun
      exact hclear.wake hs₁
    · cases hs₁
      exact hc₁
  · exact hc.of_same (.refl _) hc.links hc.off

theorem timer_returns (hc : CanSchedule cfg s h tf) :
    ∃ s', schedOnTimerIrq cfg s h tf = .ok s' := by
  have hsame : ∀ (s : Kernel) (f : Cpu → Cpu), (∀ c, SameCpu c (f c)) →
      SameCpu (s.cpus h) ((s.modCpu h f).cpus h) := by
    intro s f hf
    rw [Kernel.modCpu_cpus, if_pos rfl]
    exact hf _
  have hcount : CanSchedule cfg (countTimer s h) h tf :=
    hc.of_same (hsame s _ fun _ => ⟨rfl, rfl, rfl, rfl, rfl⟩) hc.links hc.off
  have hslice : ∀ s : Kernel, CanSchedule cfg s h tf → ∃ s', sliceTick cfg s h tf = .ok s' := by
    intro s hs
    unfold sliceTick
    dsimp only
    split
    · refine CanSchedule.returns (hs.of_same ?_ hs.links hs.off)
      refine (hsame s _ ?_).trans (hsame _ _ ?_) <;> exact fun _ => ⟨rfl, rfl, rfl, rfl, rfl⟩
    · exact ⟨_, rfl⟩
  obtain ⟨s₁, htick, hs₁⟩ := threadsTick_returns hcount
  unfold schedOnTimerIrq
  dsimp only
  split
  · show ∃ s', (threadsTick cfg (countTimer s h) h >>= fun s => sliceTick cfg s h tf) = .ok s'
    rw [htick]
    exact hslice s₁ hs₁
  · exact hslice _ hcount

theorem sleep_returns {ticks : UInt64} (hc : CanSchedule cfg s h tf) :
    ∃ s', threadSysSleep cfg s h tf ticks = .ok s' := by
  unfold threadSysSleep
  dsimp only
  split
  · exact hc.returns
  · refine CanSchedule.returns (hc.leaving (.refl _) (hc.links.unlink _) ?_)
    simp

theorem join_returns {t : Int} {p : UInt64} (hc : CanSchedule cfg s h tf) :
    ∃ s', threadSysJoin cfg s h tf t p = .ok s' := by
  unfold threadSysJoin
  dsimp only
  split_ifs with _ hself
  · exact ⟨_, rfl⟩
  · exact ⟨_, rfl⟩
  · exact ⟨_, rfl⟩
  · exact ⟨_, rfl⟩
  · exact ⟨_, rfl⟩
  · exact ⟨_, rfl⟩
  · exact ⟨_, rfl⟩
  · refine CanSchedule.returns (hc.leaving (.refl _) hc.links ?_)
    simp [Ne.symm hself]

theorem read_returns {fd : Int} {buf len : UInt64} (hc : CanSchedule cfg s h tf) :
    ∃ s', sysRead cfg s h tf fd buf len = .ok s' := by
  unfold sysRead
  dsimp only
  split_ifs
  · exact ⟨_, rfl⟩
  · exact ⟨_, rfl⟩
  · have hcpus : (consoleReadNonblock s buf len).2.cpus = s.cpus := rfl
    refine CanSchedule.returns (hc.leaving (.refl _) hc.links ?_)
    simp [hcpus]

theorem create_returns (entry arg name sstatus : UInt64) :
    ∃ s', threadSysCreate cfg s h tf entry arg name sstatus = .ok s' := by
  unfold threadSysCreate threadCreateUser
  dsimp only
  split
  · exact ⟨_, rfl⟩
  · simp only [cpuCurrentHartid, Kernel.modThread_cpus]
    obtain ⟨s₁, hs₁⟩ := @threadMakeRunnable_returns cfg
      (s.modThread (allocThreadSlot cfg s) fun t => initUserThread t
        (threadStack cfg (allocThreadSlot cfg s)) entry arg
        (if name = 0 then none else some (.user name)) sstatus) h (allocThreadSlot cfg s)
      (s.cpus h).hartid
    rw [hs₁]
    exact ⟨_, rfl⟩

theorem CanSchedule.modThread (hc : CanSchedule cfg s h tf) (t : Int) {f : Thread → Thread}
    (hf : ∀ x, (f x).state = x.state) : CanSchedule cfg (s.modThread t f) h tf := by
  refine hc.of_same (.refl _) hc.links fun hne hrun => hc.off hne ?_
  rw [Kernel.modThread_threads] at hrun
  split at hrun
  · rw [hf] at hrun
    exact hrun
  · exact hrun

theorem CanSchedule.deliver (hc : CanSchedule cfg s h tf) (w code : Int) :
    CanSchedule cfg (deliver s w code) h tf := by
  have hcpu : SameCpu (s.cpus h) ((Ccos.deliver s w code).cpus h) := by
    rw [deliver_cpus]
    exact .refl _
  refine hc.of_same hcpu ?_ fun hne hrun => ?_
  · rw [(deliver_rest w code).1]
    exact hc.links
  · rw [(deliver_state w code _).1] at hrun
    rw [(deliver_rest w code).1]
    exact hc.off hne hrun

theorem CanSchedule.recycle (hc : CanSchedule cfg s h tf) (t : Int) :
    CanSchedule cfg (recycleThread cfg s t) h tf := by
  by_cases hr : t ≤ 0 ∨ (cfg.threadMax : Int) ≤ t
  · unfold recycleThread
    rw [if_pos hr]
    exact hc
  · rw [recycleThread_eq (by omega) (by omega)]
    refine hc.of_same (.refl _) (hc.links.unlink t) fun hne hrun => ?_
    by_contra hon
    rw [Bool.not_eq_false] at hon
    have hold := unlink_onRq_le hon
    simp only [Kernel.setRq_threads, Kernel.modThread_threads, Kernel.setStdinWaiter_threads]
      at hrun
    split at hrun
    · cases hrun
    · rw [hc.off hne hrun] at hold
      cases hold

theorem exit_returns {code : Int} (hc : CanSchedule cfg s h tf) :
    ∃ s', threadSysExit cfg s h tf code = .ok s' := by
  have hdead : CanSchedule cfg (exitCur s h tf code) h tf := by
    refine hc.leaving (.refl _) (hc.links.unlink _) ?_
    simp [exitCur]
  unfold threadSysExit
  dsimp only
  split
  · obtain ⟨s₀, hs₀⟩ := @threadMakeRunnable_returns cfg
      (deliver (exitCur s h tf code) (s.threads (s.cpus h).currentTid).joinWaiter code) h
      (s.threads (s.cpus h).currentTid).joinWaiter (cpuCurrentHartid s h)
    have hrel : releaseJoiner cfg (exitCur s h tf code) h
        (s.threads (s.cpus h).currentTid).joinWaiter code = .ok s₀ := by
      rw [releaseJoiner_eq]
      exact hs₀
    show ∃ s', (releaseJoiner cfg (exitCur s h tf code) h
      (s.threads (s.cpus h).currentTid).joinWaiter code >>= _) = .ok s'
    rw [hrel]
    have hwoken := (hdead.deliver _ _).wake hs₀
    have hend : CanSchedule cfg ((recycleThread cfg s₀ (s.cpus h).currentTid).modThread
        (s.cpus h).currentTid (Thread.setJoinWaiter · (-1))) h tf :=
      (hwoken.recycle _).modThread _ fun _ => rfl
    exact hend.returns
  · have hend : CanSchedule cfg ((exitCur s h tf code).modThread
        (s.cpus h).currentTid (Thread.setJoinWaiter · (-1))) h tf := hdead.modThread _ fun _ => rfl
    exact hend.returns

/-! ## `kill` -/

theorem rqRemove_error {r : RunQueues} {h : Nat} {t : Int} {e : Halt}
    (hp : rqRemove cfg r h t = .error e) : e = .spin := by
  have hwalk : ∀ (fuel : Nat) (prev cur : Int),
      rqRemoveLoop h t fuel r prev cur = .error e → e = .spin := by
    intro fuel
    induction fuel with
    | zero => exact fun _ _ hp => (Except.error.inj hp).symm
    | succ fuel ih =>
      intro prev cur hp
      unfold rqRemoveLoop at hp
      split_ifs at hp
      exact ih _ _ hp
  unfold rqRemove at hp
  split_ifs at hp
  exact hwalk _ _ _ hp

/-- A walk over the run queues that fails is one that never ends. -/
theorem rqRemoveAny_error {r : RunQueues} {t : Int} {e : Halt}
    (hp : rqRemoveAny cfg r t = .error e) :
    e = .spin := by
  have hloop :
      ∀ (n k : Nat) (r : RunQueues), rqRemoveAnyLoop cfg t n k r = .error e → e = .spin := by
    intro n
    induction n with
    | zero => exact fun _ _ hp => nomatch hp
    | succ n ih =>
      intro k r hp
      unfold rqRemoveAnyLoop at hp
      cases hrem : rqRemove cfg r k t with
      | error e₁ =>
        rw [hrem] at hp
        obtain rfl : e₁ = e := Except.error.inj hp
        exact rqRemove_error hrem
      | ok out =>
        rw [hrem, ok_bind] at hp
        dsimp only at hp
        split at hp
        · cases hp
        · exact ih _ _ hp
  unfold rqRemoveAny at hp
  split_ifs at hp
  exact hloop _ _ _ hp

theorem killRelease_returns (t w : Int) : ∃ s', killRelease cfg s h t w = .ok s' := by
  obtain ⟨s₀, hs₀⟩ := @threadMakeRunnable_returns cfg (deliver s w (s.threads t).exitCode) h w
    (cpuCurrentHartid s h)
  unfold killRelease
  dsimp only
  rw [releaseJoiner_eq, hs₀]
  simp only [ok_bind]
  split_ifs <;> exact ⟨_, rfl⟩

/-- The only thing a kill can fail at is to find the victim in its queue. -/
theorem kill_returns (t : Int) :
    (∃ s', threadSysKill cfg s h tf t = .ok s') ∨
      (s.rq.onRq t = true ∧ rqRemoveAny cfg s.rq t = .error .spin ∧
        threadSysKill cfg s h tf t = .error .spin) := by
  unfold threadSysKill
  dsimp only
  -- the checks return an error code, or 0 for a victim that is dead already
  iterate 6
    split
    · exact .inl ⟨_, rfl⟩
  unfold killThread
  dsimp only
  have hrest : ∀ s₀ : Kernel, killUnqueue cfg (s.modThread t Thread.kill) t = .ok s₀ →
      ∃ s', (killUnqueue cfg (s.modThread t Thread.kill) t >>= fun s₁ =>
        killRelease cfg (kickVictim cfg s₁ h t) h t (s.threads t).joinWaiter >>= fun s₂ =>
          .ok (s₂.setA0 tf 0)) = .ok s' := by
    intro s₀ hs₀
    obtain ⟨s₁, hs₁⟩ :=
      @killRelease_returns cfg (kickVictim cfg s₀ h t) h t (s.threads t).joinWaiter
    rw [hs₀, ok_bind, hs₁]
    exact ⟨_, rfl⟩
  by_cases hon : s.rq.onRq t = true
  · cases hrem : rqRemoveAny cfg s.rq t with
    | ok out =>
      left
      apply hrest ((s.modThread t Thread.kill).setRq out.2)
      unfold killUnqueue
      rw [Kernel.modThread_rq, if_pos hon, hrem]
      rfl
    | error e =>
      obtain rfl := rqRemoveAny_error hrem
      refine .inr ⟨hon, rfl, ?_⟩
      unfold killUnqueue
      rw [Kernel.modThread_rq, if_pos hon, hrem]
      rfl
  · left
    apply hrest (s.modThread t Thread.kill)
    unfold killUnqueue
    rw [Kernel.modThread_rq, if_neg hon]

/-! ## Traps -/

/-- Every action returns, except for a halt and for a kill whose victim is looked up in a queue that
is no list. -/
theorem runAction_returns {a : Action} (hc : CanSchedule cfg s h tf) :
    (∃ s', runAction cfg s h tf a = .ok s') ∨ (∃ msg, a = .halt msg) ∨
      ∃ t, a = .kill t ∧ s.rq.onRq t = true ∧ rqRemoveAny cfg s.rq t = .error .spin ∧
        runAction cfg s h tf a = .error .spin := by
  cases a with
  | ipi =>
    refine .inl (CanSchedule.returns (hc.of_same ?_ hc.links hc.off))
    rw [Kernel.modCpu_cpus, if_pos rfl]
    exact ⟨rfl, rfl, rfl, rfl, rfl⟩
  | timer => exact .inl (timer_returns hc)
  | external claims => exact .inl (platformHandleSExternal_returns claims)
  | sleep ticks => exact .inl (sleep_returns hc)
  | exit code => exact .inl (exit_returns hc)
  | join t p => exact .inl (join_returns hc)
  | create entry arg name sstatus => exact .inl (create_returns entry arg name sstatus)
  | kill t =>
    rcases @kill_returns cfg s h tf t with hok | ⟨hon, hspin, hkill⟩
    · exact .inl hok
    · exact .inr (.inr ⟨t, rfl, hon, hspin, hkill⟩)
  | detach t => exact .inl ⟨_, rfl⟩
  | read fd buf len => exact .inl (read_returns hc)
  | query call io => exact .inl ⟨_, rfl⟩
  | skip => exact .inl ⟨_, rfl⟩
  | halt msg => exact .inr (.inl ⟨msg, rfl⟩)

theorem boot_returns (hb : Basic cfg s) : (∀ h, Allowed cfg s (.cpuInit h) →
      ∃ s', step cfg s (.cpuInit h) = .ok s') ∧
    ∀ h, Allowed cfg s (.enterIdle h) → ∃ s', step cfg s (.enterIdle h) = .ok s' := by
  constructor
  · intro h hg
    have hlt : ¬ cfg.maxHarts ≤ h := by
      have hh := hg.1
      omega
    show ∃ s', cpuInitThisHart cfg s h = .ok s'
    unfold cpuInitThisHart
    rw [if_neg hlt]
    exact ⟨_, rfl⟩
  · intro h hg
    have hid := (hb.hartid h hg.1 hg.2.1).1
    show ∃ s', cpuEnterIdle cfg s h = .ok s'
    unfold cpuEnterIdle assertOk
    rw [if_pos (.inl hg.1), if_pos (.inl hid)]
    exact ⟨_, rfl⟩

/-- When the queues are lists, a queued victim is found. -/
theorem Sched.rqRemoveAny_ok {dead : Prop} {mid : Option Nat} {q : Nat → List Int}
    (hs : Sched cfg dead mid s q) {t : Int} (hon : s.rq.onRq t = true) :
    rqRemoveAny cfg s.rq t ≠ .error .spin := by
  obtain ⟨k, hk, hmem⟩ := (hs.repr.onRq t).mp hon
  obtain ⟨r', hrem, -⟩ := rqRemoveAny_spec hs.repr hk hmem
  rw [hrem]
  nofun

/-- In every reachable state every step that may happen returns, or is a trap the kernel answers
with the panic of that trap, or a kill of a queued thread that never finds it.  No `ASSERT` fails,
no trap finds `cur_tf` unset, nobody is queued twice and the pick loop ends; and without kills that
hit a thread another hart executes, every kill returns too. -/
theorem step_returns_or_panics (cfg : Config) {s : Kernel} {e : Event}
    (hr : Reachable (kernelSystem cfg) s) (hg : Allowed cfg s e) :
    (∃ s', step cfg s e = .ok s') ∨
    (∃ h regs io msg, e = .trap h regs io ∧ trapAction cfg regs io = .halt msg ∧
      step cfg s e = .error (.panic msg)) ∨
    ((∃ h regs io t, e = .trap h regs io ∧ trapAction cfg regs io = .kill t ∧
      s.rq.onRq t = true ∧ step cfg s e = .error .spin) ∧
      ¬ Reachable ((kernelSystem cfg).restrict (NoRemoteKill cfg)) s) := by
  have hb := basic_reachable hr
  cases e with
  | cpuInit h => exact .inl ((boot_returns hb).1 h hg)
  | enterIdle h => exact .inl ((boot_returns hb).2 h hg)
  | trap h regs io =>
    have he := hg.1
    have hstep : step cfg s (.trap h regs io) =
        runAction cfg (saveRegs s h regs) h (s.cpus h).currentTid (trapAction cfg regs io) :=
      trapEntry_eq (hb.harts.curTf h he)
    have hc : CanSchedule cfg (saveRegs s h regs) h (s.cpus h).currentTid :=
      (hb.canSchedule he (runsUnqueued_reachable hr)).modThread _ fun _ => rfl
    rw [hstep]
    rcases runAction_returns (a := trapAction cfg regs io) hc with hok | ⟨msg, hmsg⟩ | hspin
    · exact .inl hok
    · refine .inr (.inl ⟨h, regs, io, msg, rfl, hmsg, ?_⟩)
      rw [hmsg]
      rfl
    · obtain ⟨t, ht, hon, hrem, hkill⟩ := hspin
      refine .inr (.inr ⟨⟨h, regs, io, t, rfl, ht, hon, hkill⟩, fun hquiet => ?_⟩)
      have hsafe : ∀ s h regs io, Allowed cfg s (.trap h regs io) →
          NoRemoteKill cfg s (.trap h regs io) → Safe cfg False s h (trapAction cfg regs io) :=
        fun _ _ _ _ hg hc => NoRemoteKill.safe hg.1.1 hc
      obtain ⟨q, hsched⟩ := sched_reachable hsafe hquiet
      exact hsched.rqRemoveAny_ok hon hrem

theorem step_returns_or_panics_example : ∃ s e,
    Reachable (kernelSystem twoHarts) s ∧ Allowed twoHarts s e ∧ e = sysKill 0 3 ∧
    ((∃ s', step twoHarts s e = .ok s') ∨
    (∃ h regs io msg, e = .trap h regs io ∧ trapAction twoHarts regs io = .halt msg ∧
      step twoHarts s e = .error (.panic msg)) ∨
    ((∃ h regs io t, e = .trap h regs io ∧ trapAction twoHarts regs io = .kill t ∧
      s.rq.onRq t = true ∧ step twoHarts s e = .error .spin) ∧
      ¬ Reachable ((kernelSystem twoHarts).restrict (NoRemoteKill twoHarts)) s)) := by
  obtain ⟨s, hr, hs⟩ := exists_reachable twoHarts anyStep bootOnHart0 (startBoth ++ [sysCreate 0])
    (fun s => decide (Allowed twoHarts s (sysKill 0 3))) (by decide +kernel)
  exact ⟨s, _, hr.unrestrict, of_decide_eq_true hs, rfl,
    step_returns_or_panics twoHarts hr.unrestrict (of_decide_eq_true hs)⟩

-- the queue of hart 0 turns into a cycle: thread 4 is killed on hart 1, collected and created again
-- while hart 1 still executes it, and queued a second time when the sleep of its first life ends
example : endsWith (fun s => match step twoHarts s (sysKill 0 3) with
      | .error .spin => true
      | _ => false)
    (runEvents twoHarts anyStep bootOnHart0 (startBoth ++
      [sysCreate 0, sysCreate 0, ipiIrq 1, sysCreate 0, sysKill 0 3, sysKill 0 4, sysJoin 0 4 0,
        sysCreate 0, sysSleep 1 1, sysJoin 0 3 0, sysCreate 0, timerIrq 0])) = true := by
  decide +kernel

end Ccos
