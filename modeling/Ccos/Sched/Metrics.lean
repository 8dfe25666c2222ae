import Mathlib.Tactic
import Ccos.Kernel.Trace
import Ccos.Sched.Consistent

/-!
# Scheduling metrics

`runs`, `migrations`, `last_hart` and `running_hart` of a thread against the history of its
dispatches.  The four fields change in two ways only, `thread_mark_running` and
`thread_mark_not_running`, and `recycle_thread` resets them; the rest of a trap carries them along.
-/

namespace Ccos

open Reasoning

/-! ## The counters of one thread -/

structure Counts where
  runs : UInt64
  migrations : UInt32
  lastHart : Int
  runningHart : Int

def Thread.counts (t : Thread) : Counts :=
  ⟨t.runs, t.migrations, t.lastHart, t.runningHart⟩

/-- The harts a thread was dispatched on, newest first; a migration is a change of hart. -/
def switches (hs : List Nat) : Nat :=
  (hs.zip hs.tail).countP fun p => p.1 ≠ p.2

def lastOf (hs : List Nat) : Int :=
  (hs.head?.map Int.ofNat).getD (-1)

theorem switches_cons (k : Nat) (hs : List Nat) :
    switches (k :: hs) =
      if 0 ≤ lastOf hs ∧ lastOf hs ≠ k then switches hs + 1 else switches hs := by
  cases hs with
  | nil => rfl
  | cons j hs =>
    have hlast : lastOf (j :: hs) = j := rfl
    unfold switches
    rw [hlast, List.tail_cons, List.zip_cons_cons, List.countP_cons, List.tail_cons]
    by_cases hjk : k = j
    · rw [hjk]
      simp
    · have hne : (j : Int) ≠ k := by omega
      simp [hjk, hne]

namespace Counts

/-- The totals of a dispatch history. -/
structure Totals (c : Counts) (hs : List Nat) : Prop where
  runs : c.runs = UInt64.ofNat hs.length
  migrations : c.migrations = UInt32.ofNat (switches hs)

/-- The thread is on no hart. -/
structure Away (c : Counts) (hs : List Nat) : Prop extends c.Totals hs where
  runningHart : c.runningHart = -1
  lastHart : c.lastHart = lastOf hs

/-- The thread is on the hart of its last dispatch. -/
structure On (c : Counts) (hs : List Nat) : Prop extends c.Totals hs where
  runningHart : ∃ k : Nat, hs.head? = some k ∧ c.runningHart = k

theorem away_fresh : Away ⟨0, 0, -1, -1⟩ [] :=
  ⟨⟨rfl, rfl⟩, rfl, rfl⟩

end Counts

theorem Counts.Away.markRunning {t : Thread} {hs : List Nat} (ht : t.counts.Away hs) (k : Nat) :
    (threadMarkRunning t k).counts.On (k :: hs) where
  runs := by
    have hruns : t.runs = UInt64.ofNat hs.length := ht.runs
    show t.runs + 1 = _
    rw [hruns, List.length_cons, UInt64.ofNat_add]
    rfl
  migrations := by
    have hmigr : t.migrations = UInt32.ofNat (switches hs) := ht.migrations
    have hlast : t.lastHart = lastOf hs := ht.lastHart
    show (if 0 ≤ t.lastHart ∧ t.lastHart ≠ k then t.migrations + 1 else t.migrations) = _
    rw [hlast, hmigr, switches_cons]
    split
    · rw [UInt32.ofNat_add]
      rfl
    · rfl
  runningHart := ⟨k, rfl, rfl⟩

theorem Counts.On.markNotRunning {t : Thread} {hs : List Nat} (ht : t.counts.On hs) :
    (threadMarkNotRunning t).counts.Away hs := by
  obtain ⟨htotals, k, hhead, hk⟩ := ht
  have hrunning : t.runningHart = k := hk
  refine ⟨⟨htotals.runs, htotals.migrations⟩, rfl, ?_⟩
  show (if 0 ≤ t.runningHart then t.runningHart else t.lastHart) = lastOf hs
  rw [hrunning, if_pos (by omega), lastOf, hhead]
  rfl

theorem Counts.Away.markNotRunning {t : Thread} {hs : List Nat} (ht : t.counts.Away hs) :
    (threadMarkNotRunning t).counts.Away hs := by
  have hrunning : t.runningHart = -1 := ht.runningHart
  refine ⟨⟨ht.runs, ht.migrations⟩, rfl, ?_⟩
  show (if 0 ≤ t.runningHart then t.runningHart else t.lastHart) = lastOf hs
  rw [hrunning, if_neg (by omega)]
  exact ht.lastHart

/-! ## What a trap does before `schedule` -/

variable {cfg : Config} {s s' s₁ : Kernel} {h : Nat} {q : Nat → List Int}

/-- The counters of slot `u` are carried along, or the slot was recycled. -/
inductive Carried (cfg : Config) (u : Int) (t t' : Thread) : Prop
  | kept : t'.counts = t.counts → (t.state ≠ .unused → t'.state ≠ .unused) → Carried cfg u t t'
  | recycled : (cfg.maxHarts : Int) ≤ u → t.state ≠ .unused → t'.state = .unused →
      t'.counts = ⟨0, 0, -1, -1⟩ → Carried cfg u t t'

theorem Carried.refl (u : Int) (t : Thread) : Carried cfg u t t :=
  .kept rfl id

/-- A write that touches neither the counters nor the state. -/
theorem Carried.frame {u : Int} {t t' t'' : Thread} (hc : Carried cfg u t t')
    (hcounts : t''.counts = t'.counts) (hst : t''.state = t'.state) : Carried cfg u t t'' := by
  cases hc with
  | kept hk hu =>
    refine .kept (hcounts.trans hk) fun ht => ?_
    rw [hst]
    exact hu ht
  | recycled h1 h2 h3 h4 => exact .recycled h1 h2 (hst.trans h3) (hcounts.trans h4)

theorem Carried.same {u : Int} {t t' t'' : Thread} (hc : Carried cfg u t t')
    (hs : SameThread t' t'') : Carried cfg u t t'' := by
  refine hc.frame ?_ hs.state
  rw [hs]
  rfl

/-- A write that may wake or stop a thread whose slot was not recycled. -/
theorem Carried.alive {u : Int} {t t' t'' : Thread} (hc : Carried cfg u t t')
    (hnot : t'.state = .unused → t.state = .unused) (hcounts : t''.counts = t'.counts)
    (hst : t''.state ≠ .unused) : Carried cfg u t t'' := by
  cases hc with
  | kept hk hu => exact .kept (hcounts.trans hk) fun _ => hst
  | recycled h1 h2 h3 h4 => exact absurd (hnot h3) h2

/-- Every slot is carried, and only a dead thread that the action collects gets free. -/
def CarriedAll (cfg : Config) (s : Kernel) (h : Nat) (a : Action) (s₁ : Kernel) : Prop :=
  ∀ u, Carried cfg u (s.threads u) (s₁.threads u) ∧
    ((s₁.threads u).state = .unused → (s.threads u).state = .unused ∨ collected cfg s h a = some u)

namespace CarriedAll

variable {a : Action} {s₂ : Kernel} (hp : CarriedAll cfg s h a s₁)

include hp

/-- Counters stay, and a state that changes is not made `UNUSED`. -/
theorem update (hcounts : ∀ u, (s₂.threads u).counts = (s₁.threads u).counts)
    (hst : ∀ u, (s₂.threads u).state = (s₁.threads u).state ∨ ((s₂.threads u).state ≠ .unused ∧
      ((s₁.threads u).state = .unused → (s.threads u).state = .unused))) :
    CarriedAll cfg s h a s₂ := by
  intro u
  rcases hst u with hsame | ⟨hne, hnot⟩
  · refine ⟨(hp u).1.frame (hcounts u) hsame, fun hu => ?_⟩
    rw [hsame] at hu
    exact (hp u).2 hu
  · exact ⟨(hp u).1.alive hnot (hcounts u) hne, fun hu => absurd hu hne⟩

theorem wake {t : Int} {p : Nat}
    (ht : (s₁.threads t).state = .unused → (s.threads t).state = .unused)
    (hw : threadMakeRunnable cfg s₁ h t p = .ok s₂) : CarriedAll cfg s h a s₂ := by
  rcases threadMakeRunnable_cases hw with ⟨rfl, -⟩ | ⟨rq, hw⟩
  · exact hp
  refine hp.update (fun u => ?_) fun u => ?_
  · rw [hw.threads]
    split <;> rfl
  · rw [hw.threads]
    split
    · rename_i hu
      exact .inr ⟨by simp, hu ▸ ht⟩
    · exact .inl rfl

/-- A thread that suspends itself collects nothing. -/
theorem unused_of_suspends (hsus : Suspends cfg s h a) {u : Int}
    (hu : (s₁.threads u).state = .unused) : (s.threads u).state = .unused := by
  refine ((hp u).2 hu).resolve_right fun hcol => ?_
  have hnone := leaves_of_collected hcol
  rw [leaves_of_suspends hsus] at hnone
  cases hnone

theorem collect {t : Int} (hcol : collected cfg s h a = some t) (hge : (cfg.maxHarts : Int) ≤ t)
    (hlt : t < cfg.threadMax) : CarriedAll cfg s h a (recycleThread cfg s₁ t) := by
  have hpos := cfg.maxHarts_pos
  have hz := (collected_cases hcol).2.2.1
  intro u
  rw [recycleThread_eq (by omega) hlt, Kernel.setRq_threads, Kernel.modThread_threads]
  split
  · rename_i hu
    subst hu
    refine ⟨.recycled hge (by rw [hz]; decide) rfl rfl, fun _ => .inr hcol⟩
  · exact hp u

/-- Every act of a trap that terminates nobody. -/
theorem act (hterm : terminated cfg s h a = none) (hact : Act cfg h s a s₁ s₂) :
    CarriedAll cfg s h a s₂ := by
  have hnobody : ∀ {t : Int}, terminated cfg s h a ≠ some t := by
    intro t ht
    rw [hterm] at ht
    cases ht
  cases hact with
  | quiet hq =>
    refine hp.update (fun u => ?_) fun u => .inl (hq.threads u).state
    rw [hq.threads u]
    rfl
  | slice _ _ => exact hp.update (fun _ => rfl) fun _ => .inl rfl
  | wakeSleeper _ hst hw =>
    refine hp.wake (fun hun => ?_) hw
    rw [hst] at hun
    cases hun
  | wakeReader _ hst hw =>
    refine hp.wake (fun hun => ?_) hw
    rw [hst] at hun
    cases hun
  | clearReader _ => exact hp.update (fun _ => rfl) fun _ => .inl rfl
  -- `thread_create_user` leaves the counters of the `UNUSED` slot as they are
  | create _ _ _ hu _ hw =>
    refine wake (hp.update (fun u => ?_) fun u => ?_) (fun _ => hu) hw
    · rw [Kernel.modThread_threads]
      split <;> rfl
    · rw [Kernel.modThread_threads]
      split
      · rename_i heq
        exact .inr ⟨by simp, fun _ => heq ▸ hu⟩
      · exact .inl rfl
  -- the three ways to suspend write `state` and the wait fields, no counter
  | sleep _ hsus _ =>
    refine hp.update (fun u => ?_) fun u => ?_
    · simp only [sleepCur, Kernel.setRq_threads, Kernel.modThread_threads]
      split <;> rfl
    · simp only [sleepCur, Kernel.setRq_threads, Kernel.modThread_threads]
      split
      · exact .inr ⟨by simp, hp.unused_of_suspends hsus⟩
      · exact .inl rfl
  | wait _ hsus _ =>
    refine hp.update (fun u => ?_) fun u => ?_
    · simp only [waitCur, Kernel.modThread_threads]
      split_ifs <;> rfl
    · simp only [waitCur, Kernel.modThread_threads]
      split_ifs
      · exact .inr ⟨by simp, hp.unused_of_suspends hsus⟩
      · exact .inl rfl
      · exact .inr ⟨by simp, hp.unused_of_suspends hsus⟩
      · exact .inl rfl
  | block _ hsus _ =>
    refine hp.update (fun u => ?_) fun u => ?_
    · simp only [blockCur, Kernel.modThread_threads, Kernel.setStdinWaiter_threads]
      split_ifs <;> rfl
    · simp only [blockCur, Kernel.modThread_threads, Kernel.setStdinWaiter_threads]
      split_ifs
      · exact .inr ⟨by simp, hp.unused_of_suspends hsus⟩
      · exact .inl rfl
  -- `exit`, a kill that hits and what follows them terminate somebody
  | exit ha _ =>
    subst ha
    exact absurd rfl hnobody
  | kill ha hhit _ _ =>
    subst ha
    exact absurd (if_pos hhit) hnobody
  | deliver hj _ _ =>
    obtain ⟨t, ht, -⟩ := hj
    exact absurd ht hnobody
  | wakeJoiner hj _ _ _ _ _ =>
    obtain ⟨t, ht, -⟩ := hj
    exact absurd ht hnobody
  | joinWaiter ht _ => exact absurd ht hnobody
  | detach _ _ _ _ =>
    refine hp.update (fun u => ?_) fun u => .inl ?_
    · rw [Kernel.modThread_threads]
      split <;> rfl
    · rw [Kernel.modThread_threads]
      split <;> rfl
  | reclaim ht _ _ _ _ => exact absurd ht hnobody
  | collect hcol hge hlt _ _ => exact hp.collect hcol hge hlt

/-- The exit code is handed to the joiner, which is woken. -/
theorem release {w code : Int} {p : Nat} (hcol : collected cfg s h a = none)
    (hw : threadMakeRunnable cfg (deliver s₁ w code) h w p = .ok s₂) : CarriedAll cfg s h a s₂ := by
  have hdeliver : CarriedAll cfg s h a (deliver s₁ w code) := by
    refine hp.update (fun u => ?_) fun u => .inl (deliver_state w code u).1
    rcases @deliver_threads s₁ w code u with hu | ⟨-, hu⟩
    · rw [hu]
      rfl
    · rw [hu]
      rfl
  refine hdeliver.wake (fun hun => ((hdeliver w).2 hun).resolve_right ?_) hw
  rw [hcol]
  nofun

end CarriedAll

/-- The slot of a thread that dies is recycled in the same trap. -/
theorem Carried.reclaim {t : Int} (hge : (cfg.maxHarts : Int) ≤ t) (hlt : t < cfg.threadMax)
    (ht : (s.threads t).state ≠ .unused)
    (hp : ∀ u, Carried cfg u (s.threads u) (s₁.threads u)) (u : Int) :
    Carried cfg u (s.threads u) ((recycleThread cfg s₁ t).threads u) := by
  have hpos := cfg.maxHarts_pos
  rw [recycleThread_eq (by omega) hlt, Kernel.setRq_threads, Kernel.modThread_threads]
  split
  · rename_i hu
    subst hu
    exact .recycled hge ht rfl rfl
  · exact hp u

theorem Carried.setJoinWaiter (t w : Int)
    (hp : ∀ u, Carried cfg u (s.threads u) (s₁.threads u)) (u : Int) :
    Carried cfg u (s.threads u) ((s₁.modThread t (Thread.setJoinWaiter · w)).threads u) := by
  rw [Kernel.modThread_threads]
  split
  · exact (hp u).frame rfl rfl
  · exact hp u

theorem CarriedAll.refl (s : Kernel) (h : Nat) (a : Action) : CarriedAll cfg s h a s :=
  fun u => ⟨.refl u _, .inl⟩

theorem CarriedAll.saveRegs (s : Kernel) (h : Nat) (a : Action) (regs : Trapframe) :
    CarriedAll cfg s h a (saveRegs s h regs) := by
  refine (CarriedAll.refl s h a).update (fun u => ?_) fun u => .inl (saveRegs_state _ _ _ _)
  rw [(saveRegs_quiet s h regs).threads u]
  rfl

/-- A trap up to its `schedule`, and the `schedule` if there is one. -/
structure Carries (cfg : Config) (s : Kernel) (h : Nat) (a : Action) (s₁ s' : Kernel) : Prop where
  carried : ∀ u, Carried cfg u (s.threads u) (s₁.threads u)
  last : (Reschedules cfg s h a ∧ (∀ k, SameCpu (s.cpus k) (s₁.cpus k)) ∧
      ∃ rq next rq', Scheduled cfg h s₁ rq next rq' s') ∨
    (¬ Reschedules cfg s h a ∧ s' = s₁)

theorem exit_carries {code : Int} {regs : Trapframe}
    (hcur : (cfg.maxHarts : Int) ≤ (s.cpus h).currentTid ∧ (s.cpus h).currentTid < cfg.threadMax)
    (halive : (s.threads (s.cpus h).currentTid).state ≠ .unused)
    (hs : threadSysExit cfg (saveRegs s h regs) h (s.cpus h).currentTid code = .ok s') :
    ∃ s₁, Carries cfg s h (.exit code) s₁ s' := by
  have hpos := cfg.maxHarts_pos
  obtain ⟨s₁, hrel, hsch⟩ := threadSysExit_cases hs
  have hdie : CarriedAll cfg s h (.exit code)
      (exitCur (saveRegs s h regs) h (s.cpus h).currentTid code) := by
    refine (CarriedAll.saveRegs s h (.exit code) regs).update (fun u => ?_) fun u => ?_
    · simp only [exitCur, Kernel.setRq_threads, Kernel.modThread_threads]
      split <;> rfl
    · simp only [exitCur, Kernel.setRq_threads, Kernel.modThread_threads]
      split
      · exact .inr ⟨by simp, fun hu => by rwa [saveRegs_state] at hu⟩
      · exact .inl rfl
  have hreleased : (∀ u, Carried cfg u (s.threads u) (s₁.threads u)) ∧
      ∀ k, SameCpu (s.cpus k) (s₁.cpus k) := by
    rcases hrel with ⟨-, -, s₀, hmake, rfl⟩ | ⟨-, rfl⟩
    · refine ⟨Carried.reclaim hcur.1 hcur.2 halive fun u => (hdie.release rfl hmake u).1,
        fun k => ?_⟩
      rw [recycleThread_cpus]
      have hsame := (threadMakeRunnable_sameHarts hmake).sameCpu k
      rw [deliver_cpus] at hsame
      exact hsame
    · exact ⟨fun u => (hdie u).1, fun _ => .refl _⟩
  have hscheduled := schedule_cases (fun _ => ?_) hsch
  · exact ⟨_, Carried.setJoinWaiter _ (-1) hreleased.1, .inl ⟨trivial, hreleased.2, hscheduled⟩⟩
  · rw [Kernel.modThread_cpus, (hreleased.2 h).2.2.2.1]
    omega

theorem kill_carries {t : Int} {regs : Trapframe} (hb : Basic cfg s)
    (hs : threadSysKill cfg (saveRegs s h regs) h (s.cpus h).currentTid t = .ok s') :
    ∀ u, Carried cfg u (s.threads u) (s'.threads u) := by
  have hsave := @CarriedAll.saveRegs cfg s h (.kill t) regs
  have hret : ∀ {s₁ : Kernel} {tf : Int} {v : UInt64},
      (∀ u, Carried cfg u (s.threads u) (s₁.threads u)) →
      ∀ u, Carried cfg u (s.threads u) ((s₁.setA0 tf v).threads u) :=
    fun hp u => (hp u).same ((Quiet.setA0 h _ _ _).threads u)
  rcases threadSysKill_cases hs with ⟨-, v, rfl⟩ | ⟨hhit, hkill⟩
  · exact hret fun u => (hsave u).1
  obtain ⟨rq, s₁, -, hrel, rfl⟩ := killThread_cases hkill
  have hhit' := killHits_saveRegs.mp hhit
  -- nobody kills an idle thread
  have hge : (cfg.maxHarts : Int) ≤ t := by
    by_contra hlt
    have hidle := (hb.idle t (by have := hhit'.1; omega) (by omega)).2
    rw [hhit'.2.2.2.1] at hidle
    cases hidle
  have hreclaim := fun {s₁ : Kernel} => @Carried.reclaim cfg s s₁ t hge hhit'.2.1 hhit'.2.2.2.2.1
  have hdie : CarriedAll cfg s h (.kill t) (killed cfg (saveRegs s h regs) h t rq) := by
    refine hsave.update (fun u => ?_) fun u => ?_
    · rw [killed, kickVictim_threads, Kernel.setRq_threads, Kernel.modThread_threads]
      split <;> rfl
    · rw [killed, kickVictim_threads, Kernel.setRq_threads, Kernel.modThread_threads]
      split
      · exact .inr ⟨by simp, fun hu => by rwa [saveRegs_state] at hu⟩
      · exact .inl rfl
  refine hret ?_
  rcases hrel with ⟨-, -, s₀, hmake, rfl⟩ | ⟨-, rfl⟩ | ⟨-, rfl⟩
  · have hwake := fun u => (hdie.release rfl hmake u).1
    split
    · exact hreclaim hwake
    · exact Carried.setJoinWaiter t _ hwake
  · have hclear := @Carried.setJoinWaiter cfg s _ t (-1) fun u => (hdie u).1
    split
    · exact hreclaim hclear
    · exact hclear
  · exact fun u => (hdie u).1

theorem trap_carries {regs : Trapframe} {io : TrapInput} (hs : Sched cfg False none s q)
    (hb : Basic cfg s) (hg : Allowed cfg s (.trap h regs io))
    (hstep : step cfg s (.trap h regs io) = .ok s') :
    ∃ s₁, Carries cfg s h (trapAction cfg regs io) s₁ s' := by
  obtain ⟨hrun, huser⟩ := trap_runAction hb hg hstep
  cases hterm : terminated cfg s h (trapAction cfg regs io) with
  | none =>
    obtain ⟨s₁, hran⟩ := trap_ran (CarriedAll cfg s h (trapAction cfg regs io)) hb hg hstep
      (.refl s h _) fun _ _ _ _ _ hp hact => hp.act hterm hact
    refine ⟨s₁, fun u => (hran.kept u).1, ?_⟩
    rcases hran.last with ⟨hR, hsch⟩ | hdone
    · exact .inl ⟨hR, hran.sameCpu, hsch⟩
    · exact .inr hdone
  | some t =>
    rcases terminated_cases hterm with ⟨code, ha, -⟩ | ⟨ha, -⟩
    · rw [ha] at hrun huser ⊢
      refine exit_carries (huser rfl) ?_ hrun
      rcases (hs.cur h hg.1 (by simp)).1 with hst | ⟨-, hst⟩ <;> rw [hst] <;> decide
    · rw [ha] at hrun ⊢
      exact ⟨s', kill_carries hb hrun, .inr ⟨not_false, rfl⟩⟩

/-! ## The history of dispatches -/

/-- The hart on which a step made `t` current. -/
def dispatch (cfg : Config) (t : Int) : Kernel × Event × Kernel → Option Nat
  | (_, .cpuInit _, _) => none
  | (_, .enterIdle h, _) => if (h : Int) = t then some h else none
  | (s, .trap h regs io, s') =>
    if Reschedules cfg s h (trapAction cfg regs io) ∧ (s'.cpus h).currentTid = t then some h
    else none

/-- A step gave the slot of `t` back. -/
def Recycles (t : Int) (st : Kernel × Event × Kernel) : Prop :=
  (st.1.threads t).state ≠ .unused ∧ (st.2.2.threads t).state = .unused

instance (t : Int) (st : Kernel × Event × Kernel) : Decidable (Recycles t st) :=
  inferInstanceAs (Decidable (_ ∧ _))

/-- The harts that dispatched `t` since its slot was last recycled, newest first. -/
def dispatches (cfg : Config) (t : Int) : List (Kernel × Event × Kernel) → List Nat
  | [] => []
  | st :: past => if Recycles t st then [] else (dispatch cfg t st).toList ++ dispatches cfg t past

/-- A thread that some hart executes. -/
def Current (cfg : Config) (s : Kernel) (t : Int) : Prop :=
  ∃ k, Entered cfg s k ∧ (s.cpus k).currentTid = t

/-- The metrics of slot `t` are those of the dispatch history `hs`. -/
structure MetricsExact (cfg : Config) (s : Kernel) (t : Int) (hs : List Nat) : Prop where
  runs : (s.threads t).runs.toNat = hs.length % 2 ^ 64
  migrations : (s.threads t).migrations.toNat = switches hs % 2 ^ 32
  current : Current cfg s t → ∃ k : Nat, hs.head? = some k ∧ (s.threads t).runningHart = k
  away : ¬ Current cfg s t → (s.threads t).runningHart = -1 ∧ (s.threads t).lastHart = lastOf hs

/-- The invariant of the counters; `Sched` says which of the two cases it is. -/
def Tracks (t : Thread) (hs : List Nat) : Prop :=
  t.counts.Away hs ∨ t.counts.On hs

theorem Tracks.away {t : Thread} {hs : List Nat} (ht : Tracks t hs) (hneg : t.runningHart < 0) :
    t.counts.Away hs := by
  rcases ht with haway | ⟨-, k, -, hk⟩
  · exact haway
  · have hrh : t.runningHart = k := hk
    omega

theorem Tracks.on {t : Thread} {hs : List Nat} (ht : Tracks t hs) (hnonneg : 0 ≤ t.runningHart) :
    t.counts.On hs := by
  rcases ht with haway | hon
  · have hrh : t.runningHart = -1 := haway.runningHart
    omega
  · exact hon

theorem Tracks.congr {t t' : Thread} {hs : List Nat} (ht : Tracks t hs)
    (hc : t'.counts = t.counts) :
    Tracks t' hs := by
  unfold Tracks
  rw [hc]
  exact ht

theorem Tracks.exact {t : Int} {hs : List Nat} (hsched : Sched cfg False none s q)
    (h1 : 0 ≤ t) (h2 : t < cfg.threadMax) (ht : Tracks (s.threads t) hs) :
    MetricsExact cfg s t hs := by
  have htotals : (s.threads t).counts.Totals hs := by
    rcases ht with haway | hon
    · exact haway.toTotals
    · exact hon.toTotals
  refine ⟨?_, ?_, fun hcur => ?_, fun hnot => ?_⟩
  · have hruns : (s.threads t).runs = UInt64.ofNat hs.length := htotals.runs
    rw [hruns, UInt64.toNat_ofNat']
  · have hmigr : (s.threads t).migrations = UInt32.ofNat (switches hs) := htotals.migrations
    rw [hmigr, UInt32.toNat_ofNat']
  · obtain ⟨k, hk, rfl⟩ := hcur
    have hrh := (hsched.cur k hk (by simp)).2
    exact (ht.on (by omega)).runningHart
  · have hneg : (s.threads t).runningHart < 0 := by
      by_contra hge
      obtain ⟨k, hk, hc, -⟩ := hsched.runningHart t h1 h2 (by omega)
      exact hnot ⟨k, hk, hc⟩
    have haway := ht.away hneg
    exact ⟨haway.runningHart, haway.lastHart⟩

/-! ## One step -/

/-- What `schedule` leaves of a slot: the slot was recycled, or its thread is on no hart if
`schedule` switched away from it, or nothing happened to it. -/
inductive Left (cfg : Config) (u : Int) (cur : Prop) (hs : List Nat) (t t' : Thread) : Prop
  | recycled : (cfg.maxHarts : Int) ≤ u → t.state ≠ .unused → t'.state = .unused →
      t'.counts.Away [] → Left cfg u cur hs t t'
  | left : cur → (t.state ≠ .unused → t'.state ≠ .unused) → t'.counts.Away hs →
    Left cfg u cur hs t t'
  | other : ¬ cur → (t.state ≠ .unused → t'.state ≠ .unused) → t'.counts = t.counts →
      Left cfg u cur hs t t'

/-- `schedule` switches away from a thread that was on the hart. -/
theorem leftThread_left {u : Int} {isIdle : Prop} [Decidable isIdle] {t t' : Thread} {hs : List Nat}
    (hc : Carried cfg u t t') (halive : t.state ≠ .unused) (hon : t.counts.On hs)
    (hidle : isIdle ↔ u < cfg.maxHarts) : Left cfg u True hs t (leftThread cfg isIdle t') := by
  have haway : t'.counts = t.counts → (threadMarkNotRunning t').counts.Away hs := by
    intro hk
    refine Counts.On.markNotRunning ?_
    rw [hk]
    exact hon
  unfold leftThread
  split_ifs with hput hdead
  · cases hc with
    | kept hk hu => exact .left trivial (fun _ => nofun) (haway hk)
    | recycled hge _ hun _ =>
      -- the slot of a dead thread is neither an idle thread's nor runs
      rcases hput with hi | hrun
      · have hlt := hidle.mp hi
        omega
      · rw [hun] at hrun
        cases hrun
  · refine .recycled ?_ halive rfl Counts.away_fresh
    by_contra hlt
    exact hput (.inl (hidle.mpr (by omega)))
  · cases hc with
    | kept hk hu => exact .left trivial hu (haway hk)
    | recycled hge hne hun hk =>
      refine .recycled hge hne hun (Counts.Away.markNotRunning ?_)
      rw [hk]
      exact Counts.away_fresh

theorem left_of_carried {u : Int} {rq : RunQueues} {hs : List Nat}
    (hsched : Sched cfg False none s q) (he : Entered cfg s h)
    (hc : Carried cfg u (s.threads u) (s₁.threads u)) (hcpu : SameCpu (s.cpus h) (s₁.cpus h))
    (ht : Tracks (s.threads u) hs) :
    Left cfg u (u = (s.cpus h).currentTid) hs (s.threads u)
      ((leftKernel cfg s₁ h rq).threads u) := by
  have hhlt := he.1
  obtain ⟨-, -, -, hcur, hidle⟩ := hcpu
  rw [leftKernel_threads, hcur, hidle]
  by_cases hu : u = (s.cpus h).currentTid
  · obtain ⟨hst, hrh⟩ := hsched.cur h he (by simp)
    have halive : (s.threads u).state ≠ .unused := by
      rw [hu]
      rcases hst with hst | ⟨-, hst⟩ <;> rw [hst] <;> decide
    have hiff : (s.cpus h).currentTid = (s.cpus h).idleTid ↔ u < cfg.maxHarts := by
      rw [hu, he.2.2.2.1]
      rcases hsched.harts.curRange h he with hc | hc <;> omega
    have hon : (s.threads u).counts.On hs := by
      rw [← hu] at hrh
      exact ht.on (by omega)
    rw [if_pos hu, eq_true hu]
    exact leftThread_left hc halive hon hiff
  · rw [if_neg hu]
    cases hc with
    | kept hk hun => exact .other hu hun hk
    | recycled hge hne hun hk =>
      refine .recycled hge hne hun ?_
      rw [hk]
      exact Counts.away_fresh

section Step

variable {t : Int} {past : List (Kernel × Event × Kernel)} (hsched : Sched cfg False none s q)
  (h1 : 0 ≤ t) (h2 : t < cfg.threadMax) (ht : Tracks (s.threads t) (dispatches cfg t past))

include hsched h1 h2 ht

omit ht in
/-- The thread that `schedule` picks was on no other hart. -/
theorem picked_away {rq rq' : RunQueues} {hs : List Nat} {q' : Nat → List Int}
    (hsched' : Sched cfg False none s' q') (he : Entered cfg s h)
    (hcpu : ∀ k, SameCpu (s.cpus k) (s₁.cpus k)) (hsch : Scheduled cfg h s₁ rq t rq' s')
    (ht : Tracks (s.threads t) hs)
    (hleft : Left cfg t (t = (s.cpus h).currentTid) hs (s.threads t)
      ((leftKernel cfg s₁ h rq).threads t)) :
    ((leftKernel cfg s₁ h rq).threads t).counts.Away hs := by
  have hhlt := he.1
  cases hleft with
  | recycled hge hne hun _ =>
    -- a free slot is not picked
    rcases hsch.picked.next with ⟨hidle, -⟩ | ⟨-, hst, -⟩
    · rw [(hcpu h).2.2.2.2, he.2.2.2.1] at hidle
      omega
    · rw [hun] at hst
      cases hst
  | left _ _ haway => exact haway
  | other hne _ hk =>
    rw [hk]
    refine ht.away ?_
    by_contra hge
    obtain ⟨k, hk, hc, -⟩ := hsched.runningHart t h1 h2 (by omega)
    have hkh : k ≠ h := by
      rintro rfl
      exact hne hc.symm
    -- it would be current on two harts afterwards
    have he₁ : Entered cfg s₁ h := (SameCpu.entered hcpu h).mpr he
    have hk' := (hsch.entered he₁ k).mpr ((SameCpu.entered hcpu k).mpr hk)
    have hh' := (hsch.entered he₁ h).mpr he₁
    refine hkh (hsched'.curInj k h hk' hh' ?_)
    rw [hsch.cpus_ne hkh, hsch.cpus_self, (hcpu k).2.2.2.1, hc]

theorem tracks_schedule {regs : Trapframe} {io : TrapInput} {rq rq' : RunQueues} {next : Int}
    {q' : Nat → List Int} (hsched' : Sched cfg False none s' q') (he : Entered cfg s h)
    (hR : Reschedules cfg s h (trapAction cfg regs io))
    (hcarried : Carried cfg t (s.threads t) (s₁.threads t))
    (hcpu : ∀ k, SameCpu (s.cpus k) (s₁.cpus k)) (hsch : Scheduled cfg h s₁ rq next rq' s') :
    Tracks (s'.threads t) (dispatches cfg t ((s, .trap h regs io, s') :: past)) := by
  have hleft := @left_of_carried _ _ _ _ _ t rq _ hsched he hcarried (hcpu h) ht
  have hcur' : (s'.cpus h).currentTid = next := by rw [hsch.cpus_self]
  by_cases hn : t = next
  · subst hn
    -- picked: the history gets one entry, and `thread_mark_running` counts it
    have haway := picked_away hsched h1 h2 hsched' he hcpu hsch ht hleft
    have hself : s'.threads t =
        threadMarkRunning (((leftKernel cfg s₁ h rq).threads t).setState .running) h := by
      rw [hsch.threads, if_pos rfl, (hcpu h).2.1, he.2.2.1]
    have hsome : dispatch cfg t (s, .trap h regs io, s') = some h := if_pos ⟨hR, hcur'⟩
    have hnot : ¬ Recycles t (s, .trap h regs io, s') := by
      rintro ⟨-, hun⟩
      dsimp only at hun
      rw [hself] at hun
      cases hun
    rw [dispatches, if_neg hnot, hsome, hself]
    exact .inr (Counts.Away.markRunning haway h)
  · have hself : s'.threads t = (leftKernel cfg s₁ h rq).threads t := by
      rw [hsch.threads, if_neg hn]
    have hnone : dispatch cfg t (s, .trap h regs io, s') = none := by
      refine if_neg fun hd => hn ?_
      rw [← hd.2, hcur']
    rw [dispatches, hnone, hself]
    -- not picked: the history is the old one, or empty after a recycling
    cases hleft with
    | recycled _ hne hun haway =>
      have hrec : Recycles t (s, .trap h regs io, s') := ⟨hne, hself ▸ hun⟩
      rw [if_pos hrec]
      exact .inl haway
    | left _ hu haway =>
      rw [if_neg fun hrec => hu hrec.1 (hself ▸ hrec.2)]
      exact .inl haway
    | other _ hu hk =>
      rw [if_neg fun hrec => hu hrec.1 (hself ▸ hrec.2)]
      exact ht.congr hk

theorem tracks_trap {regs : Trapframe} {io : TrapInput} {q' : Nat → List Int} (hb : Basic cfg s)
    (hsched' : Sched cfg False none s' q') (hg : Allowed cfg s (.trap h regs io))
    (hstep : step cfg s (.trap h regs io) = .ok s') :
    Tracks (s'.threads t) (dispatches cfg t ((s, .trap h regs io, s') :: past)) := by
  obtain ⟨s₁, hcarried, hlast⟩ := trap_carries hsched hb hg hstep
  rcases hlast with ⟨hR, hcpu, rq, next, rq', hsch⟩ | ⟨hR, rfl⟩
  · exact tracks_schedule hsched h1 h2 ht hsched' hg.1 hR (hcarried t) hcpu hsch
  · have hnone : dispatch cfg t (s, .trap h regs io, s') = none := if_neg fun hd => hR hd.1
    rw [dispatches, hnone]
    cases hcarried t with
    | kept hk hu =>
      rw [if_neg fun hrec => hu hrec.1 hrec.2]
      exact ht.congr hk
    | recycled _ hne hun hk =>
      rw [if_pos ⟨hne, hun⟩]
      refine .inl ?_
      rw [hk]
      exact Counts.away_fresh

theorem tracks_enterIdle (hg : Allowed cfg s (.enterIdle h))
    (hstep : step cfg s (.enterIdle h) = .ok s') :
    Tracks (s'.threads t) (dispatches cfg t ((s, .enterIdle h, s') :: past)) := by
  have hthreads := (enterIdle_cases hstep).2.2.2.2.2.2.2.2.2.2.1
  have hhlt := hg.1
  by_cases hth : t = h
  · -- a hart enters its idle thread once, so no hart was executing it
    have haway : (s.threads t).counts.Away (dispatches cfg t past) := by
      refine ht.away ?_
      by_contra hge
      obtain ⟨k, hk, hc, -⟩ := hsched.runningHart t h1 h2 (by omega)
      have hkh : k = h := by
        rcases hsched.harts.curRange k hk with hr | hr <;> omega
      obtain ⟨-, -, -, -, hnull, hstrap⟩ := hk
      rw [hkh] at hnull hstrap
      exact hg.2.2.elim hnull hstrap
    have hself : s'.threads t = threadMarkRunning ((s.threads t).setState .running) h := by
      rw [hthreads, if_pos hth]
    have hsome : dispatch cfg t (s, .enterIdle h, s') = some h := if_pos hth.symm
    have hnot : ¬ Recycles t (s, .enterIdle h, s') := by
      rintro ⟨-, hun⟩
      dsimp only at hun
      rw [hself] at hun
      cases hun
    rw [dispatches, if_neg hnot, hsome, hself]
    exact .inr (Counts.Away.markRunning haway h)
  · have hself : s'.threads t = s.threads t := by rw [hthreads, if_neg hth]
    have hnone : dispatch cfg t (s, .enterIdle h, s') = none := if_neg (Ne.symm hth)
    rw [dispatches, if_neg fun hrec => hrec.1 (hself ▸ hrec.2), hnone, hself]
    exact ht

end Step

/-! ## Runs -/

theorem create_counts {entry arg : UInt64} {name : Option ThreadName} {sstatus : UInt64} {tid : Int}
    (hs : threadCreateUser cfg s h entry arg name sstatus = .ok (tid, s')) (t : Int) :
    (s'.threads t).counts = (s.threads t).counts := by
  rcases threadCreateUser_cases hs with ⟨-, rfl⟩ | ⟨-, -, -, hmake⟩
  · rfl
  rcases threadMakeRunnable_cases hmake with ⟨rfl, -⟩ | ⟨rq, hw⟩
  · rw [Kernel.modThread_threads]
    split <;> rfl
  · rw [hw.threads, Kernel.modThread_threads]
    split_ifs <;> rfl

theorem init_counts (hi : (kernelSystem cfg).init s) {t : Int} (h1 : 0 ≤ t)
    (h2 : t < cfg.threadMax) : (s.threads t).counts = ⟨0, 0, -1, -1⟩ := by
  obtain ⟨a, hs⟩ := hi
  unfold primaryMain at hs
  simp only [bind_eq_ok] at hs
  obtain ⟨s₁, -, s₂, -, s₃, hinit, hs⟩ := hs
  obtain ⟨tid, hcreate⟩ := threadsInit_cases hinit
  cases hs
  show (s₃.threads t).counts = _
  -- every slot of the table starts from `initThread`
  rw [create_counts hcreate]
  simp only [if_pos (And.intro h1 h2)]
  split <;> rfl

theorem run_tracks {tr : List (Kernel × Event)}
    (hrun : Run ((kernelSystem cfg).restrict (NoRemoteKill cfg)) tr s) {t : Int} (h1 : 0 ≤ t)
    (h2 : t < cfg.threadMax) : Tracks (s.threads t) (dispatches cfg t (steps tr s)) := by
  have hsched : ∀ {s : Kernel}, Reachable ((kernelSystem cfg).restrict (NoRemoteKill cfg)) s →
      ∃ q, Sched cfg False none s q :=
    sched_reachable fun _ _ _ _ hg hc => NoRemoteKill.safe hg.1.1 hc
  induction hrun with
  | start hi =>
    refine .inl ?_
    rw [init_counts hi h1 h2]
    exact Counts.away_fresh
  | @step tr s s' e hrun hg hs ih =>
    have hr : Reachable ((kernelSystem cfg).restrict (NoRemoteKill cfg)) s := ⟨tr, hrun⟩
    obtain ⟨q, hq⟩ := hsched hr
    obtain ⟨q', hq'⟩ := hsched (hr.next hg hs)
    show Tracks (s'.threads t) (dispatches cfg t ((s, e, s') :: steps tr s))
    cases e with
    | cpuInit h =>
      obtain ⟨-, c, -, -, -, -, -, rfl⟩ := cpuInit_cases hs
      rw [dispatches, if_neg fun hrec => hrec.1 hrec.2]
      exact ih
    | enterIdle h => exact tracks_enterIdle hq h1 h2 ih hg.1 hs
    | trap h regs io =>
      exact tracks_trap hq h1 h2 ih (basic_reachable hr.unrestrict) hq' hg.1 hs

/-- In every run in which no kill hits a thread that another hart executes, the metrics of every
slot are exact. -/
theorem scheduling_metrics_exact (cfg : Config) {tr : List (Kernel × Event)} {s : Kernel}
    (hrun : Run ((kernelSystem cfg).restrict (NoRemoteKill cfg)) tr s) (t : Int) (h1 : 0 ≤ t)
    (h2 : t < cfg.threadMax) : MetricsExact cfg s t (dispatches cfg t (steps tr s)) := by
  obtain ⟨q, hq⟩ := sched_reachable (fun _ _ _ _ hg hc => NoRemoteKill.safe hg.1.1 hc) ⟨tr, hrun⟩
  exact Tracks.exact hq h1 h2 (run_tracks hrun h1 h2)

/-- Thread 3 runs on hart 0, sleeps, and is woken on hart 1. -/
theorem scheduling_metrics_exact_migrated :
    ∃ tr s, Run ((kernelSystem twoHarts).restrict (NoRemoteKill twoHarts)) tr s ∧
      (s.cpus 1).currentTid = 3 ∧ (s.threads 3).runs = 2 ∧ (s.threads 3).migrations = 1 ∧
      MetricsExact twoHarts s 3 (dispatches twoHarts 3 (steps tr s)) := by
  obtain ⟨s, ⟨tr, hrun⟩, hs⟩ := exists_reachable twoHarts (NoRemoteKill twoHarts) bootOnHart0
    (startBoth ++ [sysCreate 0, sysYield 0, sysSleep 0 1, sysCreate 0, timerIrq 0, ipiIrq 1])
    (fun s => decide ((s.cpus 1).currentTid = 3 ∧ (s.threads 3).runs = 2 ∧
      (s.threads 3).migrations = 1)) (by decide +kernel)
  obtain ⟨hcur, hruns, hmigr⟩ := of_decide_eq_true hs
  exact ⟨tr, s, hrun, hcur, hruns, hmigr,
    scheduling_metrics_exact twoHarts hrun 3 (by decide) (by decide)⟩

end Ccos
