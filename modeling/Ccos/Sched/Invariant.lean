import Mathlib.Tactic
import Ccos.Sched.Basic
import Ccos.RunQueue.Repr

/-!
# The scheduler invariant

`Sched cfg dead mid s q` ties thread states, run queues and the harts' current threads together,
with the queues given as lists.

* `mid = some h` is the invariant in the middle of a trap of hart `h`, where the current thread may
  already have left `RUNNING` but `schedule` has not run yet; `mid = none` is the invariant between
  steps.
* `dead` says whether a current thread may be a `ZOMBIE`.  The victim of a kill keeps running on its
  hart until that hart takes the IPI; without such kills `dead` is `False`.
-/

namespace Ccos

open Reasoning

/-! ## The invariant -/

structure Sched (cfg : Config) (dead : Prop) (mid : Option Nat) (s : Kernel)
    (q : Nat → List Int) : Prop where
  repr : RqRepr cfg s.rq q
  harts : Harts cfg s
  offline : ∀ k, k < cfg.maxHarts → (s.cpus k).online = false → q k = []
  curInj : ∀ h k, Entered cfg s h → Entered cfg s k →
    (s.cpus h).currentTid = (s.cpus k).currentTid → h = k
  runnable : ∀ t, (cfg.maxHarts : Int) ≤ t → t < cfg.threadMax →
    ((s.threads t).state = .runnable ↔ s.rq.onRq t = true)
  running : ∀ t : Int, 0 ≤ t → t < cfg.threadMax → (s.threads t).state = .running →
    ∃ h, Entered cfg s h ∧ (s.cpus h).currentTid = t
  cur : ∀ h, Entered cfg s h → mid ≠ some h →
    ((s.threads (s.cpus h).currentTid).state = .running ∨
      (dead ∧ (s.threads (s.cpus h).currentTid).state = .zombie)) ∧
    (s.threads (s.cpus h).currentTid).runningHart = h
  curMid : ∀ h, Entered cfg s h → (cfg.maxHarts : Int) ≤ (s.cpus h).currentTid →
    (s.threads (s.cpus h).currentTid).state ≠ .runnable
  runningHart : ∀ t : Int, 0 ≤ t → t < cfg.threadMax → 0 ≤ (s.threads t).runningHart →
    ∃ h, Entered cfg s h ∧ (s.cpus h).currentTid = t ∧ (s.threads t).runningHart = h

namespace Sched

variable {cfg : Config} {dead : Prop} {mid : Option Nat} {s s' : Kernel} {q : Nat → List Int}

/-- No current thread is queued. -/
theorem cur_onRq (hs : Sched cfg dead mid s q) {h : Nat} (he : Entered cfg s h) :
    s.rq.onRq (s.cpus h).currentTid = false := by
  by_contra hon
  rw [Bool.not_eq_false] at hon
  obtain ⟨k, hk, hmem⟩ := (hs.repr.onRq _).mp hon
  have hr := hs.repr.range k hk _ hmem
  exact hs.curMid h he hr.1 ((hs.runnable _ hr.1 hr.2).mpr hon)

/-- Only `RUNNABLE` threads are queued. -/
theorem onRq_false (hs : Sched cfg dead mid s q) {t : Int}
    (ht : (s.threads t).state ≠ .runnable) : s.rq.onRq t = false := by
  by_contra hon
  rw [Bool.not_eq_false] at hon
  obtain ⟨k, hk, hmem⟩ := (hs.repr.onRq _).mp hon
  have hr := hs.repr.range k hk _ hmem
  exact ht ((hs.runnable _ hr.1 hr.2).mpr hon)

theorem cur_range (hs : Harts cfg s) {h : Nat} (he : Entered cfg s h) :
    0 ≤ (s.cpus h).currentTid ∧ (s.cpus h).currentTid < cfg.threadMax := by
  have hlt := cfg.maxHarts_lt
  have hh := he.1
  rcases hs.curRange h he with hc | hc <;> omega

/-- Writes that touch neither states, `running_hart`, queues nor the harts. -/
theorem frame (hs : Sched cfg dead mid s q) (hrq : s'.rq = s.rq)
    (hsame : ∀ k, SameCpu (s.cpus k) (s'.cpus k))
    (hst : ∀ t, (s'.threads t).state = (s.threads t).state)
    (hrh : ∀ t, (s'.threads t).runningHart = (s.threads t).runningHart) :
    Sched cfg dead mid s' q where
  repr := hrq ▸ hs.repr
  harts := SameCpu.harts hsame hs.harts
  offline k hk hoff := hs.offline k hk ((hsame k).2.2.1 ▸ hoff)
  curInj h k he hk := by
    rw [(hsame h).2.2.2.1, (hsame k).2.2.2.1]
    exact hs.curInj h k ((SameCpu.entered hsame h).mp he) ((SameCpu.entered hsame k).mp hk)
  runnable t h1 h2 := by
    rw [hst, hrq]
    exact hs.runnable t h1 h2
  running t h1 h2 ht := by
    rw [hst] at ht
    obtain ⟨h, he, hc⟩ := hs.running t h1 h2 ht
    exact ⟨h, (SameCpu.entered hsame h).mpr he, by rw [(hsame h).2.2.2.1, hc]⟩
  cur h he hm := by
    rw [(hsame h).2.2.2.1, hst, hrh]
    exact hs.cur h ((SameCpu.entered hsame h).mp he) hm
  curMid h he := by
    rw [(hsame h).2.2.2.1, hst]
    exact hs.curMid h ((SameCpu.entered hsame h).mp he)
  runningHart t h1 h2 ht := by
    rw [hrh] at ht ⊢
    obtain ⟨h, he, hc, hr⟩ := hs.runningHart t h1 h2 ht
    exact ⟨h, (SameCpu.entered hsame h).mpr he, by rw [(hsame h).2.2.2.1, hc], hr⟩

/-- One thread changes its state to something other than `RUNNING`, in step with its queue. -/
theorem update (hs : Sched cfg dead mid s q) {t : Int} {q' : Nat → List Int}
    (hrepr : RqRepr cfg s'.rq q') (hsame : ∀ k, SameCpu (s.cpus k) (s'.cpus k))
    (hoff : ∀ k, k < cfg.maxHarts → (s.cpus k).online = false → q' k = [])
    (hon : ∀ u, u ≠ t → s'.rq.onRq u = s.rq.onRq u)
    (hst : ∀ u, u ≠ t → (s'.threads u).state = (s.threads u).state)
    (hrh : ∀ u, u ≠ t → (s'.threads u).runningHart = (s.threads u).runningHart)
    (hrunnable : (s'.threads t).state = .runnable ↔ s'.rq.onRq t = true)
    (hrunning : (s'.threads t).state ≠ .running)
    (hcur : ∀ h, Entered cfg s h → (s.cpus h).currentTid = t →
      (s'.threads t).state ≠ .runnable ∧ (mid = some h ∨ (dead ∧ (s'.threads t).state = .zombie ∧
        (s'.threads t).runningHart = (s.threads t).runningHart)))
    (hrht : (s'.threads t).runningHart = (s.threads t).runningHart ∨
      (s'.threads t).runningHart < 0) :
    Sched cfg dead mid s' q' where
  repr := hrepr
  harts := SameCpu.harts hsame hs.harts
  offline k hk hon := hoff k hk ((hsame k).2.2.1 ▸ hon)
  curInj h k he hk := by
    rw [(hsame h).2.2.2.1, (hsame k).2.2.2.1]
    exact hs.curInj h k ((SameCpu.entered hsame h).mp he) ((SameCpu.entered hsame k).mp hk)
  runnable u hu1 hu2 := by
    by_cases hu : u = t
    · rw [hu]
      exact hrunnable
    · rw [hst u hu, hon u hu]
      exact hs.runnable u hu1 hu2
  running u hu1 hu2 hu := by
    by_cases hut : u = t
    · rw [hut] at hu
      exact absurd hu hrunning
    · rw [hst u hut] at hu
      obtain ⟨h, he, hc⟩ := hs.running u hu1 hu2 hu
      exact ⟨h, (SameCpu.entered hsame h).mpr he, by rw [(hsame h).2.2.2.1, hc]⟩
  cur h he hm := by
    have he' := (SameCpu.entered hsame h).mp he
    have hold := hs.cur h he' hm
    rw [(hsame h).2.2.2.1]
    by_cases hct : (s.cpus h).currentTid = t
    · -- a current thread that changes its state is being switched away from, or was killed
      obtain ⟨-, hmid | ⟨hd, hz, hr⟩⟩ := hcur h he' hct
      · exact absurd hmid hm
      · rw [hct] at hold ⊢
        rw [hr]
        exact ⟨.inr ⟨hd, hz⟩, hold.2⟩
    · rw [hst _ hct, hrh _ hct]
      exact hold
  curMid h he hc := by
    have he' := (SameCpu.entered hsame h).mp he
    rw [(hsame h).2.2.2.1] at hc ⊢
    by_cases hct : (s.cpus h).currentTid = t
    · rw [hct]
      exact (hcur h he' hct).1
    · rw [hst _ hct]
      exact hs.curMid h he' hc
  runningHart u hu1 hu2 hu := by
    -- a `running_hart` that is set is an old one
    have hr : (s'.threads u).runningHart = (s.threads u).runningHart := by
      by_cases hut : u = t
      · subst hut
        rcases hrht with hr | hr
        · exact hr
        · omega
      · exact hrh u hut
    rw [hr] at hu ⊢
    obtain ⟨h, he, hc, hr'⟩ := hs.runningHart u hu1 hu2 hu
    exact ⟨h, (SameCpu.entered hsame h).mpr he, by rw [(hsame h).2.2.2.1, hc], hr'⟩

end Sched

end Ccos
