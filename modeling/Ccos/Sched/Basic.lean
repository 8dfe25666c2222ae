import Mathlib.Tactic
import Ccos.Kernel.Acts
import Ccos.Sched.Boot

/-!
# Facts of every run

`Basic` holds in every reachable state, whatever the threads do to each other: the harts' `cpu_t`
records, the range of the run-queue links, and that nobody stops an idle thread.
-/

namespace Ccos

open Reasoning

structure Basic (cfg : Config) (s : Kernel) : Prop where
  harts : Harts cfg s
  hartid : ∀ h, h < cfg.maxHarts → (s.cpus h).online = true → (s.cpus h).hartid = h ∧
    (s.cpus h).idleTid = h
  links : LinksIn cfg s.rq
  idle : ∀ t : Int, 0 ≤ t → t < cfg.maxHarts →
    ((s.threads t).state = .runnable ∨ (s.threads t).state = .running) ∧
    (s.threads t).canBeKilled = false
  joinSelf : ∀ t : Int, 0 ≤ t → (s.threads t).joinWaiter ≠ t
  ident : ∀ t : Int, 0 ≤ t → t < cfg.threadMax → (s.threads t).id = t
  boot : s.bootHartid < cfg.maxHarts ∧ (s.cpus s.bootHartid).online = true
  seie : ∀ k, (s.sie k).seie = true → k = s.bootHartid

variable {cfg : Config} {s s' : Kernel} {h : Nat}

theorem Basic.ready (hb : Basic cfg s) : TrapReady cfg s where
  idleZombie t h1 h2 := by
    rcases (hb.idle t h1 h2).1 with hst | hst <;> rw [hst] <;> decide
  idleKill t h1 h2 := (hb.idle t h1 h2).2
  joinSelf := hb.joinSelf

/-- The current thread of a hart is its idle thread or a slot that may be queued. -/
theorem Harts.cur_pos (hh : Harts cfg s) (he : Entered cfg s h)
    (hne : (s.cpus h).currentTid ≠ (s.cpus h).idleTid) :
    (cfg.maxHarts : Int) ≤ (s.cpus h).currentTid ∧ (s.cpus h).currentTid < cfg.threadMax := by
  rcases hh.curRange h he with hc | hc
  · rw [he.2.2.2.1] at hne
    exact absurd hc hne
  · exact hc

theorem SameCpu.entered (hc : ∀ k, SameCpu (s.cpus k) (s'.cpus k)) (k : Nat) :
    Entered cfg s' k ↔ Entered cfg s k := by
  obtain ⟨h1, h2, h3, -, h5⟩ := hc k
  unfold Entered
  rw [h1, h2, h3, h5]

theorem SameCpu.harts (hc : ∀ k, SameCpu (s.cpus k) (s'.cpus k)) (hs : Harts cfg s) :
    Harts cfg s' where
  curTf k he := by
    rw [(hc k).1, (hc k).2.2.2.1]
    exact hs.curTf k ((SameCpu.entered hc k).mp he)
  curRange k he := by
    rw [(hc k).2.2.2.1]
    exact hs.curRange k ((SameCpu.entered hc k).mp he)

theorem SameHarts.sameCpu (hh : SameHarts s s') (k : Nat) : SameCpu (s.cpus k) (s'.cpus k) :=
  ⟨hh.curTf k, hh.hartid k, hh.online k, hh.currentTid k, hh.idleTid k⟩

/-! ## One act -/

/-- What an act may change and `Basic` survives. -/
theorem Basic.of_same (hb : Basic cfg s) (hcpus : ∀ k, SameCpu (s.cpus k) (s'.cpus k))
    (hlinks : LinksIn cfg s'.rq)
    (hidle : ∀ t : Int, 0 ≤ t → t < cfg.maxHarts →
      ((s'.threads t).state = .runnable ∨ (s'.threads t).state = .running) ∧
      (s'.threads t).canBeKilled = false)
    (hjoin : ∀ t : Int, 0 ≤ t → (s'.threads t).joinWaiter ≠ t)
    (hid : ∀ t, (s'.threads t).id = (s.threads t).id)
    (hboot : s'.bootHartid = s.bootHartid) (hsie : s'.sie = s.sie) : Basic cfg s' where
  harts := SameCpu.harts hcpus hb.harts
  hartid k hk hon := by
    obtain ⟨-, h2, h3, -, h5⟩ := hcpus k
    rw [h3] at hon
    rw [h2, h5]
    exact hb.hartid k hk hon
  links := hlinks
  idle := hidle
  joinSelf := hjoin
  ident t h1 h2 := by
    rw [hid]
    exact hb.ident t h1 h2
  boot := by
    rw [hboot, (hcpus _).2.2.1]
    exact hb.boot
  seie k hk := by
    rw [hsie] at hk
    rw [hboot]
    exact hb.seie k hk

theorem Basic.quiet (hb : Basic cfg s) (hq : Quiet h s s') : Basic cfg s' := by
  refine hb.of_same hq.cpus (hq.rq ▸ hb.links) ?_ ?_ (fun t => (hq.threads t).id) hq.bootHartid
    hq.sie
  · intro t h1 h2
    rw [(hq.threads t).state, (hq.threads t).canBeKilled]
    exact hb.idle t h1 h2
  · intro t h1
    rw [(hq.threads t).joinWaiter]
    exact hb.joinSelf t h1

theorem Basic.modThread (hb : Basic cfg s) {t : Int} {f : Thread → Thread}
    (hid : ∀ x, (f x).id = x.id)
    (hidle : 0 ≤ t → t < cfg.maxHarts → ((f (s.threads t)).state = .runnable ∨
      (f (s.threads t)).state = .running) ∧ (f (s.threads t)).canBeKilled = false)
    (hjoin : 0 ≤ t → (f (s.threads t)).joinWaiter ≠ t) : Basic cfg (s.modThread t f) := by
  refine hb.of_same (fun _ => .refl _) hb.links ?_ ?_ ?_ rfl rfl
  · intro u h1 h2
    rw [Kernel.modThread_threads]
    by_cases hu : u = t
    · subst hu
      rw [if_pos rfl]
      exact hidle h1 h2
    · rw [if_neg hu]
      exact hb.idle u h1 h2
  · intro u h1
    rw [Kernel.modThread_threads]
    by_cases hu : u = t
    · subst hu
      rw [if_pos rfl]
      exact hjoin h1
    · rw [if_neg hu]
      exact hb.joinSelf u h1
  · intro u
    rw [Kernel.modThread_threads]
    split
    · exact hid _
    · rfl

theorem Basic.setRq (hb : Basic cfg s) {rq : RunQueues} (hl : LinksIn cfg rq) :
    Basic cfg (s.setRq rq) :=
  hb.of_same (fun _ => .refl _) hl hb.idle hb.joinSelf (fun _ => rfl) rfl rfl

theorem Basic.setStdinWaiter (hb : Basic cfg s) (w : Int) : Basic cfg (s.setStdinWaiter w) :=
  hb.of_same (fun _ => .refl _) hb.links hb.idle hb.joinSelf (fun _ => rfl) rfl rfl

theorem Basic.recycle (hb : Basic cfg s) {t : Int} (ht : (cfg.maxHarts : Int) ≤ t) :
    Basic cfg (recycleThread cfg s t) := by
  by_cases hlt : t < cfg.threadMax
  · have hpos := cfg.maxHarts_pos
    rw [recycleThread_eq (by omega) hlt]
    have hmod :=
      (hb.setStdinWaiter (if s.stdinWaiter = t then -1 else s.stdinWaiter)).modThread (t := t)
        (f := Thread.recycled) (fun _ => rfl)
      (fun h1 h2 => by omega) (fun h1 => by simp only [Thread.recycled_joinWaiter]; omega)
    exact hmod.setRq (hb.links.unlink t)
  · have hout : t ≤ 0 ∨ (cfg.threadMax : Int) ≤ t := by omega
    unfold recycleThread
    rw [if_pos hout]
    exact hb

theorem Basic.wake (hb : Basic cfg s) {t : Int} {p : Nat}
    (hw : threadMakeRunnable cfg s h t p = .ok s') : Basic cfg s' := by
  rcases threadMakeRunnable_cases hw with ⟨rfl, -⟩ | ⟨rq, hw⟩
  · exact hb
  · have ho := hw.schedOnly
    refine hb.of_same (fun k => hw.sameHarts.sameCpu k) ?_ ?_ ?_ ?_ ho.bootHartid ho.sie
    · rw [hw.rq_eq]
      exact rqPushTail_links hb.links hw.push
    · intro u h1 h2
      have hu : u ≠ t := by
        have := hw.lower
        omega
      rw [hw.threads, if_neg hu]
      exact hb.idle u h1 h2
    · intro u h1
      rw [hw.threads]
      split <;> exact hb.joinSelf u h1
    · intro u
      rw [hw.threads]
      split <;> rfl

/-- The threads between the two halves of `schedule`. -/
theorem leftKernel_threads (rq : RunQueues) (u : Int) :
    (leftKernel cfg s h rq).threads u =
      if u = (s.cpus h).currentTid then
        leftThread cfg ((s.cpus h).currentTid = (s.cpus h).idleTid) (s.threads u)
      else s.threads u := rfl

theorem leftThread_id (isIdle : Prop) [Decidable isIdle] (t : Thread) :
    (leftThread cfg isIdle t).id = t.id := by
  unfold leftThread
  split_ifs <;> rfl

theorem leftThread_canBeKilled (isIdle : Prop) [Decidable isIdle] {t : Thread}
    (ht : t.canBeKilled = false) : (leftThread cfg isIdle t).canBeKilled = false := by
  unfold leftThread
  split_ifs
  · exact ht
  · rfl
  · exact ht

theorem leftThread_joinWaiter (isIdle : Prop) [Decidable isIdle] (t : Thread) :
    (leftThread cfg isIdle t).joinWaiter = t.joinWaiter ∨
      (leftThread cfg isIdle t).joinWaiter = -1 := by
  unfold leftThread
  split_ifs
  · exact .inl rfl
  · exact .inr rfl
  · exact .inl rfl

/-- A thread that is `RUNNABLE` or `RUNNING` is `RUNNABLE` after `schedule` left it. -/
theorem leftThread_alive (isIdle : Prop) [Decidable isIdle] {t : Thread}
    (ht : t.state = .runnable ∨ t.state = .running) :
    (leftThread cfg isIdle t).state = .runnable := by
  unfold leftThread
  split_ifs with h1 h2
  · rfl
  · rcases ht with ht | ht <;> rw [h2.1] at ht <;> cases ht
  · rcases ht with ht | ht
    · exact ht
    · exact absurd (.inr ht) h1

theorem leftRq_links (hl : LinksIn cfg s.rq) {rq : RunQueues} (hrq : leftRq cfg s h = .ok rq) :
    LinksIn cfg rq := by
  unfold leftRq at hrq
  dsimp only at hrq
  split_ifs at hrq
  · exact rqPushTail_links hl hrq
  · exact Except.ok.inj hrq ▸ hl.unlink _
  · exact Except.ok.inj hrq ▸ hl

section Schedule

variable {rq rq' : RunQueues} {next : Int}

/-- `schedule` picks the idle thread of the hart or a slot that may be queued. -/
theorem Scheduled.next_range (hb : Basic cfg s) (he : Entered cfg s h)
    (hs : Scheduled cfg h s rq next rq' s') :
    next = h ∨ ((cfg.maxHarts : Int) ≤ next ∧ next < cfg.threadMax) := by
  rcases hs.picked.next with ⟨hn, -⟩ | ⟨hn, -, hlink⟩
  · exact .inl (hn.trans he.2.2.2.1)
  · rcases hlink (leftRq_links hb.links hs.left) with hl | hl
    · omega
    · exact .inr hl

/-- `schedule` goes idle only when the hart's queue is empty. -/
theorem Scheduled.idle_empty (hb : Basic cfg s) (he : Entered cfg s h)
    (hs : Scheduled cfg h s rq next rq' s') (hn : next = h) : (s'.rq.queues h).head < 0 := by
  have hh := he.1
  rw [hs.rq_eq]
  rcases hs.picked.next with ⟨-, hempty⟩ | ⟨h0, -, hlink⟩
  · rw [he.2.2.1] at hempty
    exact hempty hh
  · rcases hlink (leftRq_links hb.links hs.left) with hl | hl <;> omega

theorem Scheduled.entered (he : Entered cfg s h) (hs : Scheduled cfg h s rq next rq' s')
    (k : Nat) : Entered cfg s' k ↔ Entered cfg s k := by
  by_cases hk : k = h
  · subst hk
    unfold Entered
    rw [hs.cpus_self]
    constructor
    · exact fun _ => he
    · exact fun _ => ⟨he.1, he.2.1, he.2.2.1, he.2.2.2.1, by simp, by simp⟩
  · unfold Entered
    rw [hs.cpus_ne hk]

theorem Basic.schedule (hb : Basic cfg s) (he : Entered cfg s h)
    (hs : Scheduled cfg h s rq next rq' s') : Basic cfg s' where
  harts := by
    have hnext := hs.next_range hb he
    refine ⟨fun k hk => ?_, fun k hk => ?_⟩
    · by_cases hkh : k = h
      · rw [hkh, hs.cpus_self]
      · rw [hs.cpus_ne hkh]
        exact hb.harts.curTf k ((hs.entered he k).mp hk)
    · by_cases hkh : k = h
      · rw [hkh, hs.cpus_self]
        exact hnext
      · rw [hs.cpus_ne hkh]
        exact hb.harts.curRange k ((hs.entered he k).mp hk)
  hartid k hk hon := by
    by_cases hkh : k = h
    · subst hkh
      rw [hs.cpus_self]
      exact ⟨he.2.2.1, he.2.2.2.1⟩
    · rw [hs.cpus_ne hkh] at hon ⊢
      exact hb.hartid k hk hon
  links := by
    rw [hs.rq_eq]
    exact hs.picked.links (leftRq_links hb.links hs.left)
  idle t h1 h2 := by
    have hold := hb.idle t h1 h2
    -- leaving makes a `RUNNING` idle thread `RUNNABLE`; picking it makes it `RUNNING`
    have hleft : (((leftKernel cfg s h rq).threads t).state = .runnable ∨
        ((leftKernel cfg s h rq).threads t).state = .running) ∧
        ((leftKernel cfg s h rq).threads t).canBeKilled = false := by
      rw [leftKernel_threads]
      split
      · exact ⟨.inl (leftThread_alive _ hold.1), leftThread_canBeKilled _ hold.2⟩
      · exact hold
    rw [hs.threads]
    split
    · exact ⟨.inr rfl, hleft.2⟩
    · exact hleft
  joinSelf t h1 := by
    have hold := hb.joinSelf t h1
    -- `join_waiter` changes only when the slot is recycled, to -1
    have hleft : ((leftKernel cfg s h rq).threads t).joinWaiter ≠ t := by
      rw [leftKernel_threads]
      split
      · rcases @leftThread_joinWaiter cfg ((s.cpus h).currentTid = (s.cpus h).idleTid) _
          (s.threads t) with hj | hj
        · rw [hj]
          exact hold
        · rw [hj]
          omega
      · exact hold
    rw [hs.threads]
    split <;> exact hleft
  ident t h1 h2 := by
    have hleft : ((leftKernel cfg s h rq).threads t).id = t := by
      rw [leftKernel_threads]
      split
      · rw [leftThread_id]
        exact hb.ident t h1 h2
      · exact hb.ident t h1 h2
    rw [hs.threads]
    split <;> exact hleft
  boot := by
    have hboot : s'.bootHartid = s.bootHartid := by rw [hs.rest]
    refine ⟨hboot ▸ hb.boot.1, ?_⟩
    rw [hboot]
    by_cases hk : s.bootHartid = h
    · rw [hk, hs.cpus_self]
      exact he.2.1
    · rw [hs.cpus_ne hk]
      exact hb.boot.2
  seie k hk := by
    have hsie : s'.sie = s.sie := by rw [hs.rest]
    have hboot : s'.bootHartid = s.bootHartid := by rw [hs.rest]
    rw [hsie] at hk
    rw [hboot]
    exact hb.seie k hk

end Schedule

/-- The guard of `schedule_cases` in a state with the basic facts. -/
theorem Basic.cur_ok (hb : Basic cfg s) (he : Entered cfg s h) :
    (s.cpus h).currentTid ≠ (s.cpus h).idleTid →
      0 < (s.cpus h).currentTid ∧ (s.cpus h).currentTid < cfg.threadMax := by
  intro hne
  have hpos := cfg.maxHarts_pos
  have hc := hb.harts.cur_pos he hne
  omega

/-- The joiner's wait is over; nothing the basic facts speak about changes. -/
theorem Basic.deliver (hb : Basic cfg s) (w code : Int) : Basic cfg (deliver s w code) := by
  have hsame : ∀ u, ((Ccos.deliver s w code).threads u).id = (s.threads u).id ∧
      ((Ccos.deliver s w code).threads u).state = (s.threads u).state ∧
      ((Ccos.deliver s w code).threads u).canBeKilled = (s.threads u).canBeKilled ∧
      ((Ccos.deliver s w code).threads u).joinWaiter = (s.threads u).joinWaiter := by
    intro u
    rcases @deliver_threads s w code u with hu | ⟨-, hu⟩
    · exact ⟨hu.id, hu.state, hu.canBeKilled, hu.joinWaiter⟩
    · exact ⟨hu.id, hu.state, hu.canBeKilled, hu.joinWaiter⟩
  have hrest : SchedOnly s ((Ccos.deliver s w code).setMem s.mem) := by
    unfold Ccos.deliver storeStatus
    split <;> rfl
  refine hb.of_same (fun k => ?_) ?_ ?_ ?_ (fun u => (hsame u).1) hrest.bootHartid hrest.sie
  · rw [deliver_cpus]
    exact .refl _
  · have hrq : (Ccos.deliver s w code).rq = s.rq := by
      unfold Ccos.deliver storeStatus
      split <;> rfl
    exact hrq ▸ hb.links
  · intro u h1 h2
    rw [(hsame u).2.1, (hsame u).2.2.1]
    exact hb.idle u h1 h2
  · intro u h1
    rw [(hsame u).2.2.2]
    exact hb.joinSelf u h1

/-- Every act keeps the basic facts. -/
theorem Basic.act {s₀ : Kernel} {a : Action} (hb₀ : Basic cfg s₀)
    (hcur : (s.cpus h).currentTid = (s₀.cpus h).currentTid) (hb : Basic cfg s)
    (ha : Act cfg h s₀ a s s') : Basic cfg s' := by
  have hpos := cfg.maxHarts_pos
  cases ha with
  | quiet hq => exact hb.quiet hq
  | @slice f _ hf =>
    refine hb.of_same (fun k => ?_) hb.links hb.idle hb.joinSelf (fun _ => rfl) rfl rfl
    rw [Kernel.modCpu_cpus]
    split
    · exact hf _
    · exact .refl _
  | wakeSleeper _ _ hw => exact hb.wake hw
  | wakeReader _ _ hw => exact hb.wake hw
  | clearReader _ => exact hb.setStdinWaiter (-1)
  | @create _ t _ _ _ _ _ h1 h2 hu _ hw =>
    -- an unused slot is not an idle thread's
    have hge : (cfg.maxHarts : Int) ≤ t := by
      by_contra hlt
      rcases (hb₀.idle t (by omega) (by omega)).1 with hst | hst <;> rw [hst] at hu <;> cases hu
    refine Basic.wake (hb.modThread ?_ (fun _ hlt => by omega) (fun h0 => hb.joinSelf t h0)) hw
    exact fun x => rfl
  | sleep _ _ hle =>
    refine Basic.setRq (hb.modThread ?_ (fun _ hlt => by omega) (fun h0 => hb.joinSelf _ h0))
      (hb.links.unlink _)
    exact fun x => rfl
  | @wait t p ha hsus hle =>
    subst ha
    have hne := hsus.1.2.2.1
    rw [← hcur] at hne
    have hwait : Basic cfg (s.modThread (s.cpus h).currentTid (Thread.waitFor · t p)) := by
      refine hb.modThread ?_ (fun _ hlt => by omega) (fun h0 => hb.joinSelf _ h0)
      exact fun x => rfl
    refine hwait.modThread ?_ (fun h1 h2 => hwait.idle t h1 h2) (fun _ => Ne.symm hne)
    exact fun x => rfl
  | @block buf len _ _ hle =>
    have hpend :
        Basic cfg (s.modThread (s.cpus h).currentTid (Thread.setPendingRead · buf len)) := by
      refine hb.modThread ?_ (fun _ hlt => by omega) (fun h0 => hb.joinSelf _ h0)
      exact fun x => rfl
    unfold blockCur
    dsimp only
    refine (hpend.setStdinWaiter _).modThread ?_ (fun _ hlt => by omega) (fun h0 => ?_)
    · exact fun x => rfl
    · exact hpend.joinSelf _ h0
  | exit _ hle =>
    refine Basic.setRq (hb.modThread ?_ (fun _ hlt => by omega) (fun h0 => hb.joinSelf _ h0))
      (hb.links.unlink _)
    exact fun x => rfl
  | @kill t rq _ _ hle hunq =>
    refine Basic.setRq (hb.modThread ?_ (fun _ hlt => by omega) (fun h0 => hb.joinSelf _ h0)) ?_
    · exact fun x => rfl
    · rcases hunq with ⟨-, ret, hrem⟩ | ⟨-, rfl⟩
      · exact (rqRemoveAny_links hb.links hrem).1
      · exact hb.links
  | deliver _ _ _ => exact hb.deliver _ _
  | wakeJoiner _ _ _ _ _ hw => exact hb.wake hw
  | @joinWaiter t w _ hw =>
    refine hb.modThread ?_ (fun h1 h2 => hb.idle t h1 h2) (fun h0 => ?_)
    · exact fun x => rfl
    · rw [Thread.setJoinWaiter_joinWaiter]
      rcases hw with hneg | ⟨rfl, -⟩
      · omega
      · exact hb₀.joinSelf t h0
  | @detach t _ _ _ =>
    refine hb.modThread ?_ (fun h1 h2 => hb.idle t h1 h2) (fun h0 => hb.joinSelf t h0)
    exact fun x => rfl
  | reclaim _ hle _ _ _ => exact hb.recycle hle
  | collect _ hle _ _ _ => exact hb.recycle hle

/-- No act changes the fields that `Entered` and the current threads are read from. -/
theorem Act.sameCpu {s₀ : Kernel} {a : Action} (ha : Act cfg h s₀ a s s') (k : Nat) :
    SameCpu (s.cpus k) (s'.cpus k) := by
  cases ha with
  | quiet hq => exact hq.cpus k
  | slice _ hf =>
    rw [Kernel.modCpu_cpus]
    split
    · exact hf _
    · exact .refl _
  | wakeSleeper _ _ hw => exact (threadMakeRunnable_sameHarts hw).sameCpu k
  | wakeReader _ _ hw => exact (threadMakeRunnable_sameHarts hw).sameCpu k
  | wakeJoiner _ _ _ _ _ hw => exact (threadMakeRunnable_sameHarts hw).sameCpu k
  | create _ _ _ _ _ hw => exact (threadMakeRunnable_sameHarts hw).sameCpu k
  | deliver _ _ _ =>
    rw [deliver_cpus]
    exact .refl _
  | reclaim _ _ _ _ _ =>
    rw [recycleThread_cpus]
    exact .refl _
  | collect _ _ _ _ _ =>
    rw [recycleThread_cpus]
    exact .refl _
  | _ => exact .refl _

/-- Only `schedule` and the timer write `slice_left`. -/
theorem Act.sliceLeft {s₀ : Kernel} {a : Action} (ha : Act cfg h s₀ a s s') {k : Nat}
    (hk : a ≠ .timer ∨ k ≠ h) : (s'.cpus k).sliceLeft = (s.cpus k).sliceLeft := by
  cases ha with
  | quiet hq => exact hq.slice k
  | slice ht _ =>
    rw [Kernel.modCpu_cpus, if_neg (hk.resolve_left (not_not.mpr ht))]
  | wakeSleeper _ _ hw => exact (threadMakeRunnable_sameHarts hw).sliceLeft k
  | wakeReader _ _ hw => exact (threadMakeRunnable_sameHarts hw).sliceLeft k
  | wakeJoiner _ _ _ _ _ hw => exact (threadMakeRunnable_sameHarts hw).sliceLeft k
  | create _ _ _ _ _ hw => exact (threadMakeRunnable_sameHarts hw).sliceLeft k
  | deliver _ _ _ => rw [deliver_cpus]
  | reclaim _ _ _ _ _ => rw [recycleThread_cpus]
  | collect _ _ _ _ _ => rw [recycleThread_cpus]
  | _ => rfl

theorem deliver_rest (w code : Int) : (deliver s w code).rq = s.rq ∧
    (deliver s w code).stdinWaiter = s.stdinWaiter ∧ (deliver s w code).ssip = s.ssip ∧
    (deliver s w code).bootHartid = s.bootHartid ∧
    (deliver s w code).smpBootDone = s.smpBootDone := by
  unfold deliver storeStatus
  split <;> exact ⟨rfl, rfl, rfl, rfl, rfl⟩

theorem Act.bootHartid {s₀ : Kernel} {a : Action} (ha : Act cfg h s₀ a s s') :
    s'.bootHartid = s.bootHartid := by
  cases ha with
  | quiet hq => exact hq.bootHartid
  | wakeSleeper _ _ hw => exact (threadMakeRunnable_schedOnly hw).bootHartid
  | wakeReader _ _ hw => exact (threadMakeRunnable_schedOnly hw).bootHartid
  | wakeJoiner _ _ _ _ _ hw => exact (threadMakeRunnable_schedOnly hw).bootHartid
  | create _ _ _ _ _ hw => exact (threadMakeRunnable_schedOnly hw).bootHartid
  | deliver _ _ _ => exact (deliver_rest _ _).2.2.2.1
  | reclaim _ _ _ _ _ =>
    unfold recycleThread
    split_ifs <;> rfl
  | collect _ _ _ _ _ =>
    unfold recycleThread
    split_ifs <;> rfl
  | _ => rfl

theorem SameCpu.trans {c c' c'' : Cpu} (h₁ : SameCpu c c') (h₂ : SameCpu c' c'') :
    SameCpu c c'' :=
  ⟨h₂.1.trans h₁.1, h₂.2.1.trans h₁.2.1, h₂.2.2.1.trans h₁.2.2.1, h₂.2.2.2.1.trans h₁.2.2.2.1,
    h₂.2.2.2.2.trans h₁.2.2.2.2⟩

/-! ## One step -/

/-- A trap up to its `schedule`, and the `schedule` if there is one.  `P` is anything the acts
keep. -/
structure TrapRan (cfg : Config) (s : Kernel) (h : Nat) (a : Action) (P : Kernel → Prop)
    (s₁ s' : Kernel) : Prop where
  basic : Basic cfg s₁
  entered : Entered cfg s₁ h
  sameCpu : ∀ k, SameCpu (s.cpus k) (s₁.cpus k)
  kept : P s₁
  last : (Reschedules cfg s h a ∧ ∃ rq next rq', Scheduled cfg h s₁ rq next rq' s') ∨
    (¬ Reschedules cfg s h a ∧ s' = s₁)

/-- A trap saves the registers of the current thread and does its action; only user threads ask for
system calls. -/
theorem trap_runAction {regs : Trapframe} {io : TrapInput} (hb : Basic cfg s)
    (hg : Allowed cfg s (.trap h regs io)) (hs : step cfg s (.trap h regs io) = .ok s') :
    runAction cfg (saveRegs s h regs) h (s.cpus h).currentTid (trapAction cfg regs io) = .ok s' ∧
    ((trapAction cfg regs io).isSyscall = true →
      (cfg.maxHarts : Int) ≤ (s.cpus h).currentTid ∧ (s.cpus h).currentTid < cfg.threadMax) := by
  obtain ⟨he, hexc⟩ := hg
  constructor
  · rw [← trapEntry_eq (hb.harts.curTf h he)]
    exact hs
  · intro hsys
    refine hb.harts.cur_pos he (hexc ?_)
    unfold trapAction at hsys
    cases hk : trapKind regs.scause <;> rw [hk] at hsys <;> first | rfl | cases hsys

/-- The rule for traps: what every act keeps holds when `schedule` starts, or at the end if the trap
does not reschedule. -/
theorem trap_ran (P : Kernel → Prop) {regs : Trapframe} {io : TrapInput} (hb : Basic cfg s)
    (hg : Allowed cfg s (.trap h regs io)) (hs : step cfg s (.trap h regs io) = .ok s') (hP : P s)
    (hact : ∀ s₁ s₂, Basic cfg s₁ → Entered cfg s₁ h → (∀ k, SameCpu (s.cpus k) (s₁.cpus k)) →
      P s₁ → Act cfg h s (trapAction cfg regs io) s₁ s₂ → P s₂) :
    ∃ s₁, TrapRan cfg s h (trapAction cfg regs io) P s₁ s' := by
  obtain ⟨hrun, huser⟩ := trap_runAction hb hg hs
  have he := hg.1
  obtain ⟨s₁, hacts, hlast⟩ := runAction_acts hb.ready rfl huser hrun
  have hkeep : Basic cfg s₁ ∧ Entered cfg s₁ h ∧ (∀ k, SameCpu (s.cpus k) (s₁.cpus k)) ∧ P s₁ := by
    clear hlast
    induction hacts with
    | refl => exact ⟨hb, he, fun _ => .refl _, hP⟩
    | tail _ hnext ih =>
      obtain ⟨hb₁, he₁, hc₁, hP₁⟩ := ih
      exact ⟨hb.act (hc₁ h).2.2.2.1 hb₁ hnext, (SameCpu.entered hnext.sameCpu h).mpr he₁,
        fun k => (hc₁ k).trans (hnext.sameCpu k), hact _ _ hb₁ he₁ hc₁ hP₁ hnext⟩
  obtain ⟨hb₁, he₁, hc₁, hP₁⟩ := hkeep
  refine ⟨s₁, hb₁, he₁, hc₁, hP₁, ?_⟩
  rcases hlast with ⟨hR, hsch⟩ | hdone
  · exact .inl ⟨hR, schedule_cases (hb₁.cur_ok he₁) hsch⟩
  · exact .inr hdone

theorem Kernel.modCpu_const (s : Kernel) (h : Nat) (f : Cpu → Cpu) :
    s.modCpu h f = s.modCpu h fun _ => f (s.cpus h) := by
  unfold Kernel.modCpu
  congr 1
  funext k
  by_cases hk : k = h
  · rw [if_pos hk, if_pos hk, hk]
  · rw [if_neg hk, if_neg hk]

/-- The kernel after `cpu_init_this_hart`. -/
theorem cpuInit_cases (hs : step cfg s (.cpuInit h) = .ok s') :
    h < cfg.maxHarts ∧ ∃ c : Cpu, c.online = true ∧ c.hartid = h ∧ c.idleTid = h ∧
      c.curTf = .null ∧ c.sliceLeft = schedSliceTicks ∧ s' = s.modCpu h fun _ => c := by
  change cpuInitThisHart cfg s h = .ok s' at hs
  unfold cpuInitThisHart at hs
  split at hs
  · cases hs
  · rename_i hlt
    rw [Except.ok.injEq] at hs
    subst hs
    refine ⟨by omega, _, ?_, ?_, ?_, ?_, ?_, Kernel.modCpu_const s h _⟩ <;> rfl

/-- A hart that is not entered before or after its `cpu_t` is reset. -/
theorem cpuInit_entered {c : Cpu} (hc : c.curTf = .null) (hoff : (s.cpus h).online = false)
    (k : Nat) : Entered cfg (s.modCpu h fun _ => c) k ↔ Entered cfg s k := by
  unfold Entered
  rw [Kernel.modCpu_cpus]
  by_cases hk : k = h
  · subst hk
    simp [hc, hoff]
  · rw [if_neg hk]

theorem Basic.cpuInit (hb : Basic cfg s) (hg : Allowed cfg s (.cpuInit h))
    (hs : step cfg s (.cpuInit h) = .ok s') : Basic cfg s' := by
  obtain ⟨-, c, hon, hid, hidle, htf, -, rfl⟩ := cpuInit_cases hs
  have hent := fun k => @cpuInit_entered cfg s h c htf hg.2 k
  have hne : ∀ k, Entered cfg s k → k ≠ h := by
    intro k he hk
    subst hk
    have hoff := hg.2
    rw [he.2.1] at hoff
    cases hoff
  refine ⟨⟨fun k he => ?_, fun k he => ?_⟩, fun k hk hok => ?_, hb.links, hb.idle, hb.joinSelf,
    hb.ident, ⟨hb.boot.1, ?_⟩, hb.seie⟩
  · have he' := (hent k).mp he
    rw [Kernel.modCpu_cpus, if_neg (hne k he')]
    exact hb.harts.curTf k he'
  · have he' := (hent k).mp he
    rw [Kernel.modCpu_cpus, if_neg (hne k he')]
    exact hb.harts.curRange k he'
  · rw [Kernel.modCpu_cpus] at hok ⊢
    by_cases hkh : k = h
    · rw [if_pos hkh, hkh]
      exact ⟨hid, hidle⟩
    · rw [if_neg hkh] at hok ⊢
      exact hb.hartid k hk hok
  · rw [Kernel.modCpu_cpus]
    split
    · exact hon
    · exact hb.boot.2

/-- The kernel after `cpu_enter_idle`. -/
theorem enterIdle_cases (hs : step cfg s (.enterIdle h) = .ok s') :
    s'.rq = s.rq ∧ s'.ssip = s.ssip ∧ s'.bootHartid = s.bootHartid ∧
      s'.smpBootDone = s.smpBootDone ∧ s'.stdinWaiter = s.stdinWaiter ∧ s'.rx = s.rx ∧
      s'.mem = s.mem ∧ s'.ticks = s.ticks ∧ s'.irqs = s.irqs ∧
      (∀ k, s'.cpus k = if k = h then
        { s.cpus k with idleTid := h, currentTid := h, curTf := .thread h } else s.cpus k) ∧
      (∀ t, s'.threads t = if t = h then
        threadMarkRunning ((s.threads t).setState .running) h else s.threads t) ∧
      (∀ k, (s'.sie k).seie = true → (s.sie k).seie = true ∨ (k = h ∧ h = s.bootHartid)) := by
  change cpuEnterIdle cfg s h = .ok s' at hs
  unfold cpuEnterIdle at hs
  simp only [bind_eq_ok, Except.ok.injEq] at hs
  obtain ⟨-, -, -, -, rfl⟩ := hs
  refine ⟨rfl, rfl, rfl, rfl, rfl, rfl, rfl, rfl, rfl, fun k => rfl, fun t => rfl, fun k hk => ?_⟩
  dsimp only at hk
  split at hk
  · rename_i hkh
    simp only [Bool.or_eq_true, decide_eq_true_eq] at hk
    rcases hk with hk | hk
    · exact .inr ⟨hkh, hk⟩
    · exact .inl hk
  · exact .inl hk

theorem enterIdle_entered (hb : Basic cfg s) (hg : Allowed cfg s (.enterIdle h))
    (hs : step cfg s (.enterIdle h) = .ok s') (k : Nat) :
    Entered cfg s' k ↔ k = h ∨ Entered cfg s k := by
  obtain ⟨-, -, -, -, -, -, -, -, -, hcpus, -⟩ := enterIdle_cases hs
  unfold Entered
  rw [hcpus k]
  by_cases hk : k = h
  · subst hk
    have hid := hb.hartid k hg.1 hg.2.1
    simp [hg.1, hg.2.1, hid.1]
  · rw [if_neg hk]
    simp [hk]

theorem Basic.enterIdle (hb : Basic cfg s) (hg : Allowed cfg s (.enterIdle h))
    (hs : step cfg s (.enterIdle h) = .ok s') : Basic cfg s' := by
  have hent := enterIdle_entered hb hg hs
  obtain ⟨hrq, -, hboot, -, -, -, -, -, -, hcpus, hthreads, hsie⟩ := enterIdle_cases hs
  refine ⟨⟨fun k he => ?_, fun k he => ?_⟩, fun k hk hok => ?_, hrq ▸ hb.links, fun t h1 h2 => ?_,
    fun t h1 => ?_, fun t h1 h2 => ?_, ⟨hboot ▸ hb.boot.1, ?_⟩, fun k hk => ?_⟩
  · rw [hcpus k]
    by_cases hk : k = h
    · rw [if_pos hk]
    · rw [if_neg hk]
      exact hb.harts.curTf k (((hent k).mp he).resolve_left hk)
  · rw [hcpus k]
    by_cases hk : k = h
    · rw [if_pos hk, hk]
      exact .inl rfl
    · rw [if_neg hk]
      exact hb.harts.curRange k (((hent k).mp he).resolve_left hk)
  · rw [hcpus k] at hok ⊢
    by_cases hkh : k = h
    · rw [if_pos hkh] at hok ⊢
      subst hkh
      exact ⟨(hb.hartid k hk hok).1, rfl⟩
    · rw [if_neg hkh] at hok ⊢
      exact hb.hartid k hk hok
  · -- the idle thread of the hart becomes `RUNNING`
    rw [hthreads t]
    split
    · exact ⟨.inr rfl, (hb.idle t h1 h2).2⟩
    · exact hb.idle t h1 h2
  · rw [hthreads t]
    split <;> exact hb.joinSelf t h1
  · rw [hthreads t]
    split <;> exact hb.ident t h1 h2
  · rw [hboot, hcpus]
    split <;> exact hb.boot.2
  · rw [hboot]
    rcases hsie k hk with hk | ⟨rfl, hk⟩
    · exact hb.seie k hk
    · exact hk

/-! ## Every run -/

theorem CpuBoot.not_entered {k : Nat} (hc : CpuBoot cfg k (s.cpus k)) : ¬ Entered cfg s k := by
  rintro ⟨-, hon, -, -, hnull, hboot⟩
  rcases hc with hc | ⟨-, -, -, -, hc | hc, -⟩
  · rw [hc] at hon
    cases hon
  · exact hnull hc
  · exact hboot hc

theorem BootState.basic (hs : BootState cfg s) : Basic cfg s where
  harts := ⟨fun k he => absurd he (hs.cpus k).not_entered,
    fun k he => absurd he (hs.cpus k).not_entered⟩
  hartid k _ hon := by
    rcases hs.cpus k with hc | ⟨-, -, hid, hidle, -⟩
    · rw [hc] at hon
      cases hon
    · exact ⟨hid, hidle⟩
  links := hs.links
  idle t h1 h2 := by
    have hlt := cfg.maxHarts_lt
    obtain ⟨-, hst, hkill, -⟩ := hs.slots t h1 (by omega)
    rw [if_pos h2] at hst
    exact ⟨.inl hst, hkill⟩
  joinSelf t h1 := by
    by_cases ht : t < cfg.threadMax
    · rw [(hs.slots t h1 ht).2.2.2.2.2.1]
      omega
    · have hpos := cfg.maxHarts_lt
      rw [hs.outside t (by omega)]
      change (0 : Int) ≠ t
      omega
  ident t h1 h2 := (hs.slots t h1 h2).1
  boot := ⟨hs.boot.1, hs.boot.2.1⟩
  seie k hk := by
    rw [hs.sie] at hk
    cases hk

theorem basic_init (hs : (kernelSystem cfg).init s) : Basic cfg s := by
  obtain ⟨s₀, s₁, tid, entry, arg, name, sstatus, hboot, hcreate, rfl⟩ := init_cases hs
  have hb := hboot.basic
  have hb₁ : Basic cfg s₁ := by
    rcases threadCreateUser_cases hcreate with ⟨-, rfl⟩ | ⟨h1, h2, hu, hmake⟩
    · exact hb
    · refine Basic.wake (hb.modThread ?_ (fun h0 hlt => ?_) (fun h0 => ?_)) hmake
      · exact fun x => rfl
      · have hst := (hboot.slots tid h0 h2).2.1
        rw [if_pos hlt, hu] at hst
        cases hst
      · exact hb.joinSelf tid h0
  exact hb₁.of_same (fun _ => .refl _) hb₁.links hb₁.idle hb₁.joinSelf (fun _ => rfl) rfl rfl

theorem basic_step {e : Event} (hb : Basic cfg s) (hg : Allowed cfg s e)
    (hs : step cfg s e = .ok s') : Basic cfg s' := by
  cases e with
  | cpuInit h => exact hb.cpuInit hg hs
  | enterIdle h => exact hb.enterIdle hg hs
  | trap h regs io =>
    obtain ⟨s₁, hran⟩ := trap_ran (fun _ => True) hb hg hs trivial fun _ _ _ _ _ _ _ => trivial
    rcases hran.last with ⟨-, rq, next, rq', hsch⟩ | ⟨-, rfl⟩
    · exact hran.basic.schedule hran.entered hsch
    · exact hran.basic

/-- The basic facts hold in every reachable state. -/
theorem basic_reachable (hr : Reachable (kernelSystem cfg) s) : Basic cfg s :=
  hr.invariant (Basic cfg) (fun _ => basic_init) fun _ _ _ hb hg hs => basic_step hb hg hs

/-- The invariant rule with the basic facts at hand. -/
theorem kernel_invariant {cond : Kernel → Event → Prop} (P : Kernel → Prop)
    (hinit : ∀ s, (kernelSystem cfg).init s → P s)
    (hstep : ∀ s e s', Basic cfg s → P s → Allowed cfg s e → cond s e → step cfg s e = .ok s' →
      P s')
    (hr : Reachable ((kernelSystem cfg).restrict cond) s) : P s := by
  have hboth : Basic cfg s ∧ P s := by
    refine Reachable.invariant (fun s => Basic cfg s ∧ P s) ?_ ?_ hr
    · exact fun s₁ hs => ⟨basic_init hs, hinit s₁ hs⟩
    · intro s₁ e s₂ hP hg hs
      exact ⟨basic_step hP.1 hg.1 hs, hstep s₁ e s₂ hP.1 hP.2 hg.1 hg.2 hs⟩
  exact hboth.2

end Ccos
