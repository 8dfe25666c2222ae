import Mathlib.Tactic
import Ccos.Sched.Consistent

/-!
# Round robin

A queued thread at position `p` of a hart with `slice_left` ticks to go is
`SCHED_SLICE_TICKS * p + slice_left` timer interrupts away from running.  No event moves it further
away, and every timer interrupt and every `schedule` of the hart brings it closer.
-/

namespace Ccos

open Reasoning

variable {cfg : Config} {dead : Prop} {s s' : Kernel} {h : Nat} {q : Nat → List Int}

/-! ## Slices -/

/-- The slice counters of the harts that are up. -/
def SliceOk (s : Kernel) : Prop :=
  ∀ k, (s.cpus k).online = true → 1 ≤ (s.cpus k).sliceLeft ∧ (s.cpus k).sliceLeft ≤ schedSliceTicks

def Event.isTimer (h : Nat) : Event → Bool
  | .trap k regs _ => k == h && trapKind regs.scause == .timerS
  | _ => false

/-- The event runs `schedule` on hart `h`. -/
def RunsSchedule (cfg : Config) (s : Kernel) (h : Nat) : Event → Prop
  | .trap k regs io => k = h ∧ Reschedules cfg s h (trapAction cfg regs io)
  | _ => False

/-- A timer interrupt inside the slice uses up one tick. -/
theorem timer_sliceLeft {tf : Int} (hslice : ¬ (s.cpus h).sliceLeft ≤ 1)
    (hs : schedOnTimerIrq cfg s h tf = .ok s') :
    (s'.cpus h).sliceLeft = (s.cpus h).sliceLeft - 1 := by
  obtain ⟨s₁, hs, htick⟩ := schedOnTimerIrq_cases hs
  have hleft := timer_slice htick
  rcases sliceTick_cases hs with ⟨hle, -⟩ | ⟨-, rfl⟩
  · omega
  · rw [← hleft]
    simp [useTick]

/-- `slice_left` of every hart after a trap. -/
theorem trap_sliceLeft {regs : Trapframe} {io : TrapInput} (hb : Basic cfg s)
    (hg : Allowed cfg s (.trap h regs io)) (hstep : step cfg s (.trap h regs io) = .ok s')
    (k : Nat) : (s'.cpus k).sliceLeft =
      if k = h then
        if Reschedules cfg s h (trapAction cfg regs io) then schedSliceTicks
        else if trapKind regs.scause = .timerS then (s.cpus h).sliceLeft - 1
        else (s.cpus h).sliceLeft
      else (s.cpus k).sliceLeft := by
  obtain ⟨s₁, hran⟩ := trap_ran (fun s₁ => ∀ k, trapAction cfg regs io ≠ .timer ∨ k ≠ h →
    (s₁.cpus k).sliceLeft = (s.cpus k).sliceLeft) hb hg hstep (fun _ _ => rfl)
    fun _ _ _ _ _ hP hact k hk => (hact.sliceLeft hk).trans (hP k hk)
  rcases hran.last with ⟨hR, rq, next, rq', hsch⟩ | ⟨hR, rfl⟩
  · by_cases hk : k = h
    · rw [if_pos hk, if_pos hR, hk, hsch.cpus_self]
    · rw [if_neg hk, hsch.cpus_ne hk]
      exact hran.kept k (.inr hk)
  · by_cases hk : k = h
    · rw [if_pos hk, if_neg hR, hk]
      split
      · rename_i htimer
        have ha := (@trapAction_timer cfg regs io).mpr htimer
        have hrun : runAction cfg (saveRegs s h regs) h (s.cpus h).currentTid
            (trapAction cfg regs io) = .ok s' := by
          rw [← trapEntry_eq (hb.harts.curTf h hg.1)]
          exact hstep
        rw [ha] at hrun hR
        exact @timer_sliceLeft cfg (saveRegs s h regs) s' h _ hR hrun
      · rename_i htimer
        exact hran.kept h (.inl fun ha => htimer (trapAction_timer.mp ha))
    · rw [if_neg hk]
      exact hran.kept k (.inr hk)

theorem sliceOk_step {e : Event} (hok : SliceOk s) (hb : Basic cfg s) (hg : Allowed cfg s e)
    (hstep : step cfg s e = .ok s') : SliceOk s' := by
  cases e with
  | cpuInit h =>
    obtain ⟨-, c, -, -, -, -, hc, rfl⟩ := cpuInit_cases hstep
    intro k hk
    rw [Kernel.modCpu_cpus] at hk ⊢
    split
    · rw [hc]
      decide
    · rename_i hkh
      rw [if_neg hkh] at hk
      exact hok k hk
  | enterIdle h =>
    obtain ⟨-, -, -, -, -, -, -, -, -, hcpus, -⟩ := enterIdle_cases hstep
    have hsame : ∀ k, (s'.cpus k).online = (s.cpus k).online ∧
        (s'.cpus k).sliceLeft = (s.cpus k).sliceLeft := by
      intro k
      rw [hcpus k]
      split <;> exact ⟨rfl, rfl⟩
    intro k hk
    rw [(hsame k).1] at hk
    rw [(hsame k).2]
    exact hok k hk
  | trap h regs io =>
    obtain ⟨s₁, hran⟩ := trap_ran (fun _ => True) hb hg hstep trivial fun _ _ _ _ _ _ _ => trivial
    have honline : ∀ k, (s'.cpus k).online = (s.cpus k).online := by
      intro k
      rcases hran.last with ⟨-, rq, next, rq', hsch⟩ | ⟨-, rfl⟩
      · by_cases hk : k = h
        · rw [hk, hsch.cpus_self]
          exact (hran.sameCpu h).2.2.1
        · rw [hsch.cpus_ne hk]
          exact (hran.sameCpu k).2.2.1
      · exact (hran.sameCpu k).2.2.1
    intro k hk
    rw [honline k] at hk
    have hbound := hok k hk
    rw [trap_sliceLeft hb hg hstep k]
    split
    · rename_i hkh
      subst hkh
      split
      · decide
      · rename_i hR
        split
        · rename_i htimer
          -- inside the slice at least one tick is left
          have hmore : ¬ (s.cpus k).sliceLeft ≤ 1 := by
            rw [(@trapAction_timer cfg regs io).mpr htimer] at hR
            exact hR
          omega
        · exact hbound
    · exact hbound

/-- The slice counters are in bounds in every run. -/
theorem sliceOk_reachable {cond : Kernel → Event → Prop}
    (hr : Reachable ((kernelSystem cfg).restrict cond) s) : SliceOk s := by
  refine kernel_invariant SliceOk ?_ (fun _ _ _ hb hok hg _ hs => sliceOk_step hok hb hg hs) hr
  intro s₁ hi
  obtain ⟨s₀, s₂, tid, entry, arg, name, sstatus, hboot, hcreate, rfl⟩ := init_cases hi
  have hcpus : SameHarts s₀ s₂ := by
    rcases threadCreateUser_cases hcreate with ⟨-, rfl⟩ | ⟨-, -, -, hmake⟩
    · exact .refl _
    · have hmod : SameHarts s₀ (s₀.modThread tid fun t =>
          initUserThread t (threadStack cfg tid) entry arg name sstatus) := .of_eq rfl
      exact hmod.trans (threadMakeRunnable_sameHarts hmake)
  intro k hk
  change (s₂.cpus k).online = true at hk
  change 1 ≤ (s₂.cpus k).sliceLeft ∧ (s₂.cpus k).sliceLeft ≤ schedSliceTicks
  rw [hcpus.online] at hk
  rw [hcpus.sliceLeft]
  rcases hboot.cpus k with hc | ⟨-, -, -, -, -, hc⟩
  · rw [hc] at hk
    cases hk
  · rw [hc]
    decide

/-! ## Any event from a consistent state -/

/-- The event kills thread `t`. -/
def Kills (cfg : Config) (s : Kernel) (t : Int) : Event → Prop
  | .trap h regs io => victim cfg s h (trapAction cfg regs io) = some t
  | _ => False

theorem Sched.weaken (hs : Sched cfg False none s q) : Sched cfg True none s q :=
  { hs with
    cur := fun h he hm => by
      have hc := hs.cur h he hm
      exact ⟨.inl (hc.1.resolve_right fun hd => hd.1), hc.2⟩ }

/-- No hart executes a `ZOMBIE`, so whatever the trap does is safe. -/
theorem Sched.safe (hs : Sched cfg False none s q) (a : Action) : Safe cfg True s h a := by
  have hdead : ∀ t : Int, 0 ≤ t → t < cfg.threadMax → (s.threads t).state = .zombie →
      (s.threads t).runningHart < 0 := by
    intro t h1 h2 hz
    by_contra hrh
    obtain ⟨k, hk, hc, -⟩ := hs.runningHart t h1 h2 (by omega)
    have hst := (hs.cur k hk (by simp)).1.resolve_right fun hd => hd.1
    rw [hc, hz] at hst
    cases hst
  refine ⟨.inl trivial, fun _ w _ h0 hlt hz => hdead w h0 hlt hz, fun _ t ht => ?_⟩
  obtain ⟨h1, h2, hz, -⟩ := collected_cases ht
  exact hdead t (by omega) h2 hz

/-- Thread `t` is current on hart `h` in `s'`, or queued there no further away than position `p`
was in `s`, and closer if `adv` holds. -/
def Nearer (s s' : Kernel) (h : Nat) (t : Int) (p : Nat) (q' : Nat → List Int) (adv : Prop) :
    Prop :=
  (s'.cpus h).currentTid = t ∨ ∃ p', (q' h)[p']? = some t ∧
    schedSliceTicks * p' + (s'.cpus h).sliceLeft ≤ schedSliceTicks * p + (s.cpus h).sliceLeft ∧
    (adv → schedSliceTicks * p' + (s'.cpus h).sliceLeft <
      schedSliceTicks * p + (s.cpus h).sliceLeft)

/-- Putting the current thread back leaves the others where they are. -/
theorem requeued_position {t : Int} {p : Nat} (hp : (q h)[p]? = some t) :
    (requeued s h q)[p]? = some t := by
  unfold requeued
  dsimp only
  split
  · obtain ⟨hlt, -⟩ := List.getElem?_eq_some_iff.mp hp
    rw [List.getElem?_append_left hlt]
    exact hp
  · exact hp

theorem nearer_trap {regs : Trapframe} {io : TrapInput} {k p : Nat} {t : Int}
    (hs : Sched cfg False none s q) (hb : Basic cfg s) (hok : SliceOk s) (hh : h < cfg.maxHarts)
    (hp : (q h)[p]? = some t) (hg : Allowed cfg s (.trap k regs io))
    (hkill : ¬ Kills cfg s t (.trap k regs io)) (hstep : step cfg s (.trap k regs io) = .ok s') :
    ∃ q', RqRepr cfg s'.rq q' ∧ Nearer s s' h t p q'
      (Event.isTimer h (.trap k regs io) = true ∨ RunsSchedule cfg s h (.trap k regs io)) := by
  have hmem : t ∈ q h := List.mem_of_getElem? hp
  have hon : s.rq.onRq t = true := (hs.repr.onRq t).mpr ⟨h, hh, hmem⟩
  have hterm : terminated cfg s k (trapAction cfg regs io) ≠ some t := by
    intro hterm
    rcases terminated_cases hterm with ⟨code, -, rfl⟩ | ⟨ha, hhit⟩
    · rw [hs.cur_onRq hg.1] at hon
      cases hon
    · refine hkill ?_
      change victim cfg s k (trapAction cfg regs io) = some t
      rw [ha]
      exact if_pos hhit
  obtain ⟨s₁, hran⟩ := hs.weaken.trap hb (hs.safe _) hg hstep
  obtain ⟨q₁, hreach⟩ := hran.kept
  obtain ⟨p₁, hle, hp₁⟩ := hreach.keeps t hterm h p hp
  have hslice := trap_sliceLeft hb hg hstep h
  rcases hran.last with ⟨hR, rq, next, rq', hsch⟩ | ⟨hR, rfl⟩
  · have hs' := hreach.mid.schedule hran.entered hsch
    refine ⟨_, hs'.repr, ?_⟩
    by_cases hkh : h = k
    · -- the own hart reschedules: the queue moves up by one
      subst hkh
      have hpos := hok h hg.1.2.1
      have hreq := @requeued_position s₁ h q₁ t p₁ hp₁
      rw [if_pos rfl, if_pos hR] at hslice
      cases p₁ with
      | zero =>
        -- it was at the head, so it is the one that is picked
        left
        rw [hsch.cpus_self, (hreach.mid.taken hran.entered hsch).head]
        cases hcons : requeued s₁ h q₁ with
        | nil =>
          rw [hcons] at hreq
          cases hreq
        | cons x xs =>
          rw [hcons] at hreq
          simpa using hreq
      | succ p₂ =>
        have htail : (requeued s₁ h q₁).tail[p₂]? = some t := by
          rw [List.getElem?_tail]
          exact hreq
        refine .inr ⟨p₂, by rw [setQueue_self]; exact htail, ?_, fun _ => ?_⟩
        · rw [hslice]
          unfold schedSliceTicks at hpos ⊢
          omega
        · rw [hslice]
          unfold schedSliceTicks at hpos ⊢
          omega
    · -- another hart reschedules: the queue and the slice of this one stay
      rw [if_neg hkh] at hslice
      refine .inr ⟨p₁, by rw [setQueue_ne _ _ hkh]; exact hp₁, ?_, ?_⟩
      · rw [hslice]
        exact Nat.add_le_add_right (Nat.mul_le_mul_left _ hle) _
      · rintro (htimer | hrun)
        · simp [Event.isTimer, Ne.symm hkh] at htimer
        · exact absurd hrun.1.symm hkh
  · -- nobody reschedules: a slice never grows on the way
    refine ⟨q₁, (hreach.done hR).repr, .inr ⟨p₁, hp₁, ?_, ?_⟩⟩
    · have hle' : (s'.cpus h).sliceLeft ≤ (s.cpus h).sliceLeft := by
        rw [hslice]
        split_ifs with hkh <;> first | contradiction | (subst hkh; omega) | omega
      exact Nat.add_le_add (Nat.mul_le_mul_left _ hle) hle'
    · rintro (htimer | hrun)
      · -- a tick of the slice is used up
        simp only [Event.isTimer, Bool.and_eq_true, beq_iff_eq] at htimer
        obtain ⟨rfl, htimer⟩ := htimer
        have hpos := hok k hg.1.2.1
        rw [if_pos rfl, if_neg hR, if_pos htimer] at hslice
        rw [hslice]
        unfold schedSliceTicks
        omega
      · obtain ⟨rfl, hrun⟩ := hrun
        exact absurd hrun hR

theorem nearer_step {e : Event} {p : Nat} {t : Int} (hs : Sched cfg False none s q)
    (hb : Basic cfg s) (hok : SliceOk s) (hh : h < cfg.maxHarts) (hp : (q h)[p]? = some t)
    (hg : Allowed cfg s e) (hkill : ¬ Kills cfg s t e) (hstep : step cfg s e = .ok s') :
    ∃ q', RqRepr cfg s'.rq q' ∧
      Nearer s s' h t p q' (e.isTimer h = true ∨ RunsSchedule cfg s h e) := by
  cases e with
  | cpuInit k =>
    have hkh : h ≠ k := by
      rintro rfl
      rw [hs.offline h hh hg.2] at hp
      cases hp
    have hsame : s'.cpus h = s.cpus h := by
      obtain ⟨-, c, -, -, -, -, -, rfl⟩ := cpuInit_cases hstep
      rw [Kernel.modCpu_cpus, if_neg hkh]
    refine ⟨q, (hs.cpuInit hg hstep).repr, .inr ⟨p, hp, by rw [hsame], ?_⟩⟩
    rintro (htimer | hrun)
    · cases htimer
    · cases hrun
  | enterIdle k =>
    have hsame : (s'.cpus h).sliceLeft = (s.cpus h).sliceLeft := by
      obtain ⟨-, -, -, -, -, -, -, -, -, hcpus, -⟩ := enterIdle_cases hstep
      rw [hcpus h]
      split <;> rfl
    refine ⟨q, (hs.enterIdle hb hg hstep).repr, .inr ⟨p, hp, by rw [hsame], ?_⟩⟩
    rintro (htimer | hrun)
    · cases htimer
    · cases hrun
  | trap k regs io => exact nearer_trap hs hb hok hh hp hg hkill hstep

/-! ## Any number of events -/

/-- The timer interrupts of hart `h` on a path. -/
def timers (h : Nat) (vs : List (Event × Kernel)) : Nat :=
  vs.countP fun v => v.1.isTimer h

/-- As long as `t` has not run, the timer interrupts so far and its distance fit in the distance it
started from. -/
theorem nearer_path {p : Nat} {t : Int} {vs : List (Event × Kernel)}
    (hs : Sched cfg False none s q) (hb : Basic cfg s) (hok : SliceOk s) (hh : h < cfg.maxHarts)
    (hp : (q h)[p]? = some t)
    (hpath : Path ((kernelSystem cfg).restrict fun s e => ¬ Kills cfg s t e) s vs s')
    (hinv : ∀ v ∈ vs, ∃ q', Sched cfg False none v.2 q')
    (hnot : ∀ v ∈ vs, (v.2.cpus h).currentTid ≠ t) :
    Basic cfg s' ∧ SliceOk s' ∧ ∃ q' p', Sched cfg False none s' q' ∧ (q' h)[p']? = some t ∧
      timers h vs + (schedSliceTicks * p' + (s'.cpus h).sliceLeft) ≤
        schedSliceTicks * p + (s.cpus h).sliceLeft := by
  induction hpath with
  | refl => exact ⟨hb, hok, q, p, hs, hp, by simp [timers]⟩
  | @step vs s₁ s₂ e hpath hg hstep ih =>
    obtain ⟨hb₁, hok₁, q₁, p₁, hs₁, hp₁, hle⟩ :=
      ih (fun v hv => hinv v (List.mem_cons_of_mem _ hv)) fun v hv =>
        hnot v (List.mem_cons_of_mem _ hv)
    obtain ⟨q₂, hs₂⟩ := hinv (e, s₂) List.mem_cons_self
    obtain ⟨q', hrepr, hnear⟩ := nearer_step hs₁ hb₁ hok₁ hh hp₁ hg.1 hg.2 hstep
    have hq : q' h = q₂ h := hrepr.unique hs₂.repr hh
    rcases hnear with hcur | ⟨p₂, hp₂, hle₂, hlt⟩
    · exact absurd hcur (hnot (e, s₂) List.mem_cons_self)
    · refine ⟨basic_step hb₁ hg.1 hstep, sliceOk_step hok₁ hb₁ hg.1 hstep, q₂, p₂, hs₂,
        hq ▸ hp₂, ?_⟩
      unfold timers at hle ⊢
      rw [List.countP_cons]
      split
      · rename_i htimer
        have := hlt (.inl htimer)
        omega
      · omega

/-- One event, and any number of them: a queued thread that is not killed moves towards the head,
and runs after at most `SCHED_SLICE_TICKS * p + slice_left` timer interrupts of its hart. -/
theorem round_robin (cfg : Config) {s : Kernel} {q : Nat → List Int} {h p : Nat} {t : Int}
    (hs : Sched cfg False none s q) (hb : Basic cfg s) (hok : SliceOk s) (hh : h < cfg.maxHarts)
    (hp : (q h)[p]? = some t) :
    (∀ e s', Allowed cfg s e → ¬ Kills cfg s t e → step cfg s e = .ok s' →
      SliceOk s' ∧ ∃ q', RqRepr cfg s'.rq q' ∧
        Nearer s s' h t p q' (e.isTimer h = true ∨ RunsSchedule cfg s h e)) ∧
    ∀ vs s', Path ((kernelSystem cfg).restrict fun s e => ¬ Kills cfg s t e) s vs s' →
      (∀ v ∈ vs, ∃ q', Sched cfg False none v.2 q') →
      schedSliceTicks * p + (s.cpus h).sliceLeft ≤ timers h vs →
      ∃ v ∈ vs, (v.2.cpus h).currentTid = t := by
  refine ⟨fun e s' hg hkill hstep => ?_, fun vs s' hpath hinv hmany => ?_⟩
  · exact ⟨sliceOk_step hok hb hg hstep, nearer_step hs hb hok hh hp hg hkill hstep⟩
  · by_contra hnone
    have hnot : ∀ v ∈ vs, (v.2.cpus h).currentTid ≠ t := fun v hv hc => hnone ⟨v, hv, hc⟩
    obtain ⟨-, hok', q', p', hs', hp', hle⟩ := nearer_path hs hb hok hh hp hpath hinv hnot
    -- the slice is never used up, so the distance is never zero
    have honline : (s'.cpus h).online = true := by
      by_contra hoff
      rw [Bool.not_eq_true] at hoff
      rw [hs'.offline h hh hoff] at hp'
      cases hp'
    have hpos := (hok' h honline).1
    omega

instance (s : Kernel) (t : Int) : (e : Event) → Decidable (Kills cfg s t e)
  | .trap _ _ _ => inferInstanceAs (Decidable (_ = _))
  | .cpuInit _ => inferInstanceAs (Decidable False)
  | .enterIdle _ => inferInstanceAs (Decidable False)

/-- No kill reaches thread 2 or a thread on another hart. -/
def KeepsTwo (s : Kernel) (e : Event) : Prop := NoRemoteKill oneHart s e ∧ ¬ Kills oneHart s 2 e

instance (s : Kernel) (e : Event) : Decidable (KeepsTwo s e) :=
  inferInstanceAs (Decidable (_ ∧ _))

/-- Thread 2 is at the head of the queue while `user_main` has its slice; a timer interrupt leaves
it closer, and five of them give it the processor. -/
theorem round_robin_example :
    ∃ s s', ∃ q : Nat → List Int, Reachable (kernelSystem oneHart) s ∧
      step oneHart s (timerIrq 0) = .ok s' ∧ (q 0)[0]? = some 2 ∧
      (SliceOk s' ∧ ∃ q', RqRepr oneHart s'.rq q' ∧
        Nearer s s' 0 2 0 q' ((timerIrq 0).isTimer 0 = true ∨
          RunsSchedule oneHart s 0 (timerIrq 0))) ∧
      ∃ vs s'', Path ((kernelSystem oneHart).restrict fun s e => ¬ Kills oneHart s 2 e) s vs s'' ∧
        vs.map (fun v => v.1.isTimer 0) = List.replicate 5 true ∧
        ∃ v ∈ vs, (v.2.cpus 0).currentTid = 2 := by
  obtain ⟨s, hr, hs⟩ := exists_reachable oneHart KeepsTwo bootOnHart0 (startMain ++ [sysCreate 0])
    (fun s => decide ((s.rq.queues 0).head = 2 ∧ (s.cpus 0).sliceLeft = 5 ∧
        ¬ Kills oneHart s 2 (timerIrq 0)) && stepTo oneHart s (timerIrq 0) (fun _ => true) &&
      (runFrom oneHart KeepsTwo s (List.replicate 5 (timerIrq 0))).isSome)
    (by decide +kernel)
  rw [Bool.and_eq_true, Bool.and_eq_true, decide_eq_true_eq] at hs
  obtain ⟨⟨⟨hhead, hslice, hkill⟩, hone⟩, hfive⟩ := hs
  obtain ⟨s', hg, hs', -⟩ := exists_step hone
  obtain ⟨s'', hrun⟩ := Option.isSome_iff_exists.mp hfive
  obtain ⟨vs, hpath, hevents⟩ := runFrom_path hrun
  have hsched : ∀ {s}, Reachable ((kernelSystem oneHart).restrict KeepsTwo) s →
      ∃ q, Sched oneHart False none s q :=
    fun hr => sched_reachable (fun _ _ _ _ hg hc => NoRemoteKill.safe hg.1.1 hc.1) hr
  obtain ⟨q, hq⟩ := hsched hr
  have hp : (q 0)[0]? = some 2 := by
    have hseg := hq.repr.seg 0 (by decide)
    rw [hhead] at hseg
    cases hq : q 0 with
    | nil =>
      rw [hq] at hseg
      cases hseg
    | cons x xs =>
      rw [hq] at hseg
      simp [hseg.1]
  have htimers : vs.map (fun v => v.1.isTimer 0) = List.replicate 5 true := by
    have hmap : (vs.map Prod.fst).map (Event.isTimer 0) = List.replicate 5 true := by
      rw [hevents]
      rfl
    rwa [List.map_map] at hmap
  have hmany : schedSliceTicks * 0 + (s.cpus 0).sliceLeft ≤ timers 0 vs := by
    have hcount : timers 0 vs = (vs.map fun v => v.1.isTimer 0).countP id := by
      rw [List.countP_map]
      rfl
    rw [hcount, htimers, hslice]
    decide
  obtain ⟨hstep, hbound⟩ := round_robin oneHart hq (basic_reachable hr.unrestrict)
    (sliceOk_reachable hr) (by decide) hp
  have hway := hpath.weaken fun _ _ hc => hc.2
  exact ⟨s, s', q, hr.unrestrict, hs', hp, hstep (timerIrq 0) s' hg hkill hs', vs, s'', hway,
    htimers, hbound vs s'' hway (fun v hv => hsched (hpath.reachable hr hv)) hmany⟩

end Ccos
