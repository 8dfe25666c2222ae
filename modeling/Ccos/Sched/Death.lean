import Mathlib.Tactic
import Ccos.Sched.Basic
import Ccos.Kernel.Trace

/-!
# Dead threads

Which traps can move a `ZOMBIE` to anything but `UNUSED`: those in which a dead thread that is still
executing suspends itself, and those that release a dead joiner.  In every run without them death is
final.
-/

namespace Ccos

open Reasoning

variable {cfg : Config} {s s' : Kernel} {h : Nat}

/-- The threads of `Z` are dead or reclaimed. -/
def Dead (Z : Int → Prop) (s : Kernel) : Prop :=
  ∀ t, Z t → (s.threads t).state = .zombie ∨ (s.threads t).state = .unused

theorem Dead.ne {Z : Int → Prop} (hd : Dead Z s) {t : Int} {st : ThreadState} (ht : Z t)
    (h1 : st ≠ .zombie) (h2 : st ≠ .unused) : (s.threads t).state ≠ st := by
  intro heq
  rcases hd t ht with hz | hu
  · exact h1 (heq.symm.trans hz)
  · exact h2 (heq.symm.trans hu)

/-- Dead threads are not idle threads. -/
theorem Dead.not_idle {Z : Int → Prop} (hb : Basic cfg s) (hd : Dead Z s) {t : Int} (ht : Z t) :
    ¬ (0 ≤ t ∧ t < cfg.maxHarts) := by
  rintro ⟨h1, h2⟩
  rcases (hb.idle t h1 h2).1 with hst | hst
  · exact hd.ne ht (by decide) (by decide) hst
  · exact hd.ne ht (by decide) (by decide) hst

theorem Dead.modThread {Z : Int → Prop} (hd : Dead Z s) {t : Int} {f : Thread → Thread}
    (hf : Z t → (f (s.threads t)).state = .zombie ∨ (f (s.threads t)).state = .unused) :
    Dead Z (s.modThread t f) := by
  intro u hu
  rw [Kernel.modThread_threads]
  by_cases hut : u = t
  · subst hut
    rw [if_pos rfl]
    exact hf hu
  · rw [if_neg hut]
    exact hd u hu

theorem Dead.wake {Z : Int → Prop} (hd : Dead Z s) {t : Int} {p : Nat}
    (hw : threadMakeRunnable cfg s h t p = .ok s') (ht : 0 ≤ t → ¬ Z t) : Dead Z s' := by
  rcases threadMakeRunnable_cases hw with ⟨rfl, -⟩ | ⟨rq, hw⟩
  · exact hd
  · intro u hu
    have hne : u ≠ t := by
      rintro rfl
      have hlow := hw.lower
      exact ht (by omega) hu
    rw [hw.threads, if_neg hne]
    exact hd u hu

/-- `schedule` runs only `RUNNABLE` threads and keeps or reclaims a dead one it leaves. -/
theorem Dead.schedule {Z : Int → Prop} {rq rq' : RunQueues} {next : Int} (hb : Basic cfg s)
    (he : Entered cfg s h) (hd : Dead Z s) (hs : Scheduled cfg h s rq next rq' s') : Dead Z s' := by
  have hleft : Dead Z (leftKernel cfg s h rq) := by
    refine Dead.modThread hd fun hz => ?_
    have hidle : ¬ (s.cpus h).currentTid = (s.cpus h).idleTid := by
      intro heq
      have hh := he.1
      rw [he.2.2.2.1] at heq
      exact hd.not_idle hb hz (by omega)
    have hrun : (s.threads (s.cpus h).currentTid).state ≠ .running :=
      hd.ne hz (by decide) (by decide)
    by_cases hrec : Reclaims cfg (s.threads (s.cpus h).currentTid)
    · exact .inr (congrArg Thread.state (leftThread_reclaimed hidle hrec))
    · have hkept := congrArg Thread.state (@leftThread_kept cfg _ _ _ hidle hrun hrec)
      rcases hd _ hz with hst | hst
      · exact .inl (hkept.trans hst)
      · exact .inr (hkept.trans hst)
  intro u hu
  have hne : u ≠ next := by
    rintro rfl
    rcases hs.picked.next with ⟨hn, -⟩ | ⟨-, hn, -⟩
    · have hh := he.1
      rw [he.2.2.2.1] at hn
      exact hd.not_idle hb hu (by omega)
    · exact hleft.ne hu (by decide) (by decide) hn
  rw [hs.threads, if_neg hne]
  exact hleft u hu

theorem Dead.recycle {Z : Int → Prop} (hd : Dead Z s) (t : Int) :
    Dead Z (recycleThread cfg s t) := by
  intro u hu
  unfold recycleThread
  split
  · exact hd u hu
  · have hgoal : Dead Z (s.modThread t Thread.recycled) := hd.modThread fun _ => .inr rfl
    have := hgoal u hu
    split <;> exact this

theorem Dead.act {Z : Int → Prop} {s₀ : Kernel} {a : Action} (hd : Dead Z s)
    (hcur : (s.cpus h).currentTid = (s₀.cpus h).currentTid)
    (hZ : ∀ t, Z t → (s₀.threads t).state ≠ .unused)
    (hJ : ∀ w, Joiner cfg s₀ h a w → 0 ≤ w → ¬ Z w)
    (hS : Suspends cfg s₀ h a → ¬ Z (s₀.cpus h).currentTid)
    (ha : Act cfg h s₀ a s s') : Dead Z s' := by
  rw [← hcur] at hS
  cases ha with
  | quiet hq =>
    intro t ht
    rw [(hq.threads t).state]
    exact hd t ht
  | slice _ _ => exact hd
  -- a woken sleeper or reader was `SLEEPING` or `BLOCKED`, not dead
  | wakeSleeper _ hst hw =>
    exact hd.wake hw fun _ ht => hd.ne ht (by decide) (by decide) hst
  | wakeReader _ hst hw =>
    exact hd.wake hw fun _ ht => hd.ne ht (by decide) (by decide) hst
  | clearReader _ => exact hd
  | @create _ t _ _ _ _ _ _ _ hu _ hw =>
    have hnot : ¬ Z t := fun ht => hZ t ht hu
    exact Dead.wake (hd.modThread fun ht => absurd ht hnot) hw fun _ => hnot
  -- a dead thread can still be current after a kill by another hart; `hS` keeps it from suspending
  | @sleep ticks _ hsus _ =>
    have hsleep : Dead Z (s.modThread (s.cpus h).currentTid
        (Thread.sleepUntil · (s.ticks + ticks))) := hd.modThread fun ht => absurd ht (hS hsus)
    exact hsleep
  | wait _ hsus _ =>
    refine Dead.modThread (Dead.modThread hd fun ht => absurd ht (hS hsus)) fun ht => ?_
    exact Dead.modThread hd (fun ht => absurd ht (hS hsus)) _ ht
  | @block buf len _ hsus _ =>
    have hpend : Dead Z (s.modThread (s.cpus h).currentTid (Thread.setPendingRead · buf len)) :=
      hd.modThread fun ht => absurd ht (hS hsus)
    have hblock : Dead Z ((s.modThread (s.cpus h).currentTid
        (Thread.setPendingRead · buf len)).modThread (s.cpus h).currentTid
        (Thread.setState · .blocked)) := hpend.modThread fun ht => absurd ht (hS hsus)
    exact hblock
  | @exit code _ _ =>
    have hdead : Dead Z (s.modThread (s.cpus h).currentTid
        (Thread.exit · (s.threads (s.cpus h).currentTid).tf code)) := hd.modThread fun _ => .inl rfl
    exact hdead
  | @kill t _ _ _ _ _ =>
    have hdead : Dead Z (s.modThread t Thread.kill) := hd.modThread fun _ => .inl rfl
    exact hdead
  | deliver _ _ _ =>
    intro t ht
    rw [(deliver_state _ _ _).1]
    exact hd t ht
  -- the joiner is woken whatever its state: that it is not dead is `hJ`
  | wakeJoiner hj h0 _ _ _ hw => exact hd.wake hw fun _ => hJ _ hj h0
  | joinWaiter _ _ => exact hd.modThread fun ht => hd _ ht
  | detach _ _ _ => exact hd.modThread fun ht => hd _ ht
  | reclaim _ _ _ _ _ => exact hd.recycle _
  | collect _ _ _ _ _ => exact hd.recycle _

/-- No dead thread suspends itself, and no terminated thread has a dead joiner. -/
def NoDeadWake (cfg : Config) (s : Kernel) : Event → Prop
  | .trap h regs io =>
    (Suspends cfg s h (trapAction cfg regs io) →
      (s.threads (s.cpus h).currentTid).state ≠ .zombie) ∧
    ∀ t, terminated cfg s h (trapAction cfg regs io) = some t → 0 ≤ (s.threads t).joinWaiter →
      (s.threads (s.threads t).joinWaiter).state ≠ .zombie
  | _ => True

instance (s : Kernel) : (e : Event) → Decidable (NoDeadWake cfg s e)
  | .trap h regs io =>
    match hterm : terminated cfg s h (trapAction cfg regs io) with
    | none => decidable_of_iff (Suspends cfg s h (trapAction cfg regs io) →
        (s.threads (s.cpus h).currentTid).state ≠ .zombie) (by simp [NoDeadWake, hterm])
    | some t => decidable_of_iff ((Suspends cfg s h (trapAction cfg regs io) →
        (s.threads (s.cpus h).currentTid).state ≠ .zombie) ∧ (0 ≤ (s.threads t).joinWaiter →
        (s.threads (s.threads t).joinWaiter).state ≠ .zombie)) (by simp [NoDeadWake, hterm])
  | .cpuInit _ => inferInstanceAs (Decidable True)
  | .enterIdle _ => inferInstanceAs (Decidable True)

/-- The step lemma: a dead thread stays dead or is reclaimed. -/
theorem step_zombie {e : Event} (hb : Basic cfg s) (hg : Allowed cfg s e)
    (hc : NoDeadWake cfg s e) (hs : step cfg s e = .ok s') {t : Int}
    (ht : (s.threads t).state = .zombie) :
    (s'.threads t).state = .zombie ∨ (s'.threads t).state = .unused := by
  cases e with
  | cpuInit h =>
    obtain ⟨-, c, -, -, -, -, -, rfl⟩ := cpuInit_cases hs
    exact .inl ht
  | enterIdle h =>
    obtain ⟨-, -, -, -, -, -, -, -, -, -, hthreads, -⟩ := enterIdle_cases hs
    have hne : t ≠ h := by
      rintro rfl
      rcases (hb.idle h (by omega) (by have := hg.1; omega)).1 with hst | hst <;>
        rw [hst] at ht <;> cases ht
    rw [hthreads, if_neg hne]
    exact .inl ht
  | trap h regs io =>
    obtain ⟨s₁, hran⟩ := trap_ran (Dead fun t => (s.threads t).state = .zombie) hb hg hs
      (fun _ hz => .inl hz) fun s₁ s₂ _ _ hc₁ hd₁ hact => by
        refine Dead.act hd₁ (hc₁ h).2.2.2.1 ?_ ?_ hc.1 hact
        · intro u hu hun
          rw [hu] at hun
          cases hun
        · rintro w ⟨u, hterm, rfl⟩ h0
          exact hc.2 u hterm h0
    rcases hran.last with ⟨-, rq, next, rq', hsch⟩ | ⟨-, rfl⟩
    · exact Dead.schedule hran.basic hran.entered hran.kept hsch t ht
    · exact hran.kept t ht

/-- In every run without such traps, a thread that is dead stays a `ZOMBIE` until its slot has been
recycled. -/
theorem zombie_until_recycled (cfg : Config) {s s' : Kernel} {vs : List (Event × Kernel)} {t : Int}
    (hr : Reachable ((kernelSystem cfg).restrict (NoDeadWake cfg)) s)
    (hp : Path ((kernelSystem cfg).restrict (NoDeadWake cfg)) s vs s')
    (ht : (s.threads t).state = .zombie) :
    (s'.threads t).state = .zombie ∨ ∃ v ∈ vs, (v.2.threads t).state = .unused := by
  induction hp with
  | refl => exact .inl ht
  | @step vs s₁ s₂ e hp hg hs ih =>
    rcases ih with hz | ⟨v, hv, hu⟩
    · have hb := basic_reachable (hr.path hp).unrestrict
      rcases step_zombie hb hg.1 hg.2 hs hz with hz | hu
      · exact .inl hz
      · exact .inr ⟨(e, s₂), List.mem_cons_self, hu⟩
    · exact .inr ⟨v, List.mem_cons_of_mem _ hv, hu⟩

/-- `user_main` kills the thread it created and takes a timer interrupt: the victim stays dead. -/
theorem zombie_until_recycled_example :
    ∃ s s', Reachable ((kernelSystem oneHart).restrict (NoDeadWake oneHart)) s ∧
      Path ((kernelSystem oneHart).restrict (NoDeadWake oneHart)) s [(timerIrq 0, s')] s' ∧
      (s.threads 2).state = .zombie ∧
      ((s'.threads 2).state = .zombie ∨
        ∃ v ∈ [(timerIrq 0, s')], (v.2.threads 2).state = .unused) := by
  obtain ⟨s, hr, hs⟩ := exists_reachable oneHart (NoDeadWake oneHart) bootOnHart0
    (startMain ++ [sysCreate 0, sysKill 0 2])
    (fun s => decide ((s.threads 2).state = .zombie) &&
      (decide (NoDeadWake oneHart s (timerIrq 0)) && stepTo oneHart s (timerIrq 0) fun _ => true))
    (by decide +kernel)
  simp only [Bool.and_eq_true, decide_eq_true_eq] at hs
  obtain ⟨hz, hc, hstep⟩ := hs
  obtain ⟨s', hg, hs', -⟩ := exists_step hstep
  have hp : Path ((kernelSystem oneHart).restrict (NoDeadWake oneHart)) s [(timerIrq 0, s')] s' :=
    .step .refl ⟨hg, hc⟩ hs'
  exact ⟨s, s', hr, hp, hz, zombie_until_recycled oneHart hr hp hz⟩

/-- `user_main` (1) waits for 2 and is killed by 3; then 2 exits and makes its joiner runnable. -/
theorem killed_joiner_runs_again :
    ∃ s s', Reachable (kernelSystem oneHart) s ∧ Allowed oneHart s (sysExit 0 7) ∧
      step oneHart s (sysExit 0 7) = .ok s' ∧
      (s.threads 1).state = .zombie ∧ (s'.threads 1).state = .runnable := by
  obtain ⟨s, hr, hs⟩ := exists_reachable oneHart anyStep bootOnHart0
    (startMain ++ [sysCreate 0, sysCreate 0, sysJoin 0 2 0, sysYield 0, sysKill 0 1, sysYield 0])
    (fun s => decide ((s.threads 1).state = .zombie) &&
      stepTo oneHart s (sysExit 0 7) fun s' => decide ((s'.threads 1).state = .runnable))
    (by decide +kernel)
  rw [Bool.and_eq_true, decide_eq_true_eq] at hs
  obtain ⟨s', hg, hs', hrun⟩ := exists_step hs.2
  exact ⟨s, s', hr.unrestrict, hg, hs', hs.1, of_decide_eq_true hrun⟩

end Ccos
