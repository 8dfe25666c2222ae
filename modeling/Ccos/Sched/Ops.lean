import Mathlib.Tactic
import Ccos.Sched.Invariant
import Ccos.Sched.Wakeup

/-!
# The scheduler invariant through each kernel function

Every function of `thread.c` returns when the invariant holds, and the invariant holds afterwards,
with the queues it leaves written out.
-/

namespace Ccos

open Reasoning

/-! ## Positions in the queues -/

/-- Thread `x` stays in its queue and moves at most forward. -/
def Keeps (x : Int) (q q' : Nat → List Int) : Prop :=
  ∀ k p : Nat, (q k)[p]? = some x → ∃ p', p' ≤ p ∧ (q' k)[p']? = some x

theorem Keeps.refl (x : Int) (q : Nat → List Int) : Keeps x q q :=
  fun _ p hp => ⟨p, le_refl p, hp⟩

theorem Keeps.trans {x : Int} {q q' q'' : Nat → List Int} (h₁ : Keeps x q q')
    (h₂ : Keeps x q' q'') : Keeps x q q'' := by
  intro k p hp
  obtain ⟨p', hle, hp'⟩ := h₁ k p hp
  obtain ⟨p'', hle', hp''⟩ := h₂ k p' hp'
  exact ⟨p'', by omega, hp''⟩

theorem Keeps.push (x : Int) (q : Nat → List Int) (h : Nat) (t : Int) :
    Keeps x q (setQueue q h (q h ++ [t])) := by
  intro k p hp
  refine ⟨p, le_refl p, ?_⟩
  by_cases hk : k = h
  · subst hk
    rw [setQueue_self]
    obtain ⟨hlt, -⟩ := List.getElem?_eq_some_iff.mp hp
    rw [List.getElem?_append_left hlt]
    exact hp
  · rw [setQueue_ne q _ hk]
    exact hp

theorem erase_position {x t : Int} (hne : x ≠ t) {xs : List Int} {p : Nat}
    (hp : xs[p]? = some x) : ∃ p', p' ≤ p ∧ (xs.erase t)[p']? = some x := by
  induction xs generalizing p with
  | nil => simp at hp
  | cons y ys ih =>
    rw [List.erase_cons]
    cases p with
    | zero =>
      -- the head is `x`, so it is not the erased element
      have hy : y = x := by simpa using hp
      have hyt : ¬ (y == t) = true := by simpa [hy] using hne
      rw [if_neg hyt]
      exact ⟨0, le_refl 0, hp⟩
    | succ p =>
      rw [List.getElem?_cons_succ] at hp
      split
      · exact ⟨p, by omega, hp⟩
      · obtain ⟨p', hle, hp'⟩ := ih hp
        exact ⟨p' + 1, by omega, by rw [List.getElem?_cons_succ]; exact hp'⟩

theorem Keeps.erase {x t : Int} (hne : x ≠ t) (q : Nat → List Int) (h : Nat) :
    Keeps x q (setQueue q h ((q h).erase t)) := by
  intro k p hp
  by_cases hk : k = h
  · subst hk
    rw [setQueue_self]
    exact erase_position hne hp
  · rw [setQueue_ne q _ hk]
    exact ⟨p, le_refl p, hp⟩

/-! ## Acts -/

variable {cfg : Config} {dead : Prop} {mid : Option Nat} {s s' : Kernel} {h : Nat}
  {q q' : Nat → List Int}

/-- A thread that no hart executes is pushed to an online hart. -/
theorem Sched.woken {s₁ : Kernel} {t : Int} {target : Nat} {rq : RunQueues}
    (hs : Sched cfg dead mid s q) (hrq : s₁.rq = s.rq) (hcpus : s₁.cpus = s.cpus)
    (hthreads : ∀ u, u ≠ t → s₁.threads u = s.threads u)
    (hrh : (s₁.threads t).runningHart = (s.threads t).runningHart)
    (hcur : ∀ k, Entered cfg s k → (s.cpus k).currentTid ≠ t)
    (hlt : target < cfg.maxHarts) (hon : (s.cpus target).online = true)
    (hw : Woken cfg h s₁ t target rq s') :
    Sched cfg dead mid s' (setQueue q target (q target ++ [t])) := by
  have hoff := hw.onRq
  have hpush := hw.push
  rw [hrq] at hoff hpush
  obtain ⟨rq', hpush', hrepr, honrq⟩ := rqPushTail_spec hs.repr hlt hw.lower hw.upper hoff
  obtain rfl : rq' = rq := by
    rw [hpush] at hpush'
    exact (Except.ok.inj hpush').symm
  have hstate : (s'.threads t).state = .runnable := by
    rw [hw.threads, if_pos rfl]
    rfl
  refine hs.update (t := t) (hw.rq_eq ▸ hrepr) (fun k => ?_) (fun k hk hoff => ?_) (fun u hu => ?_)
    (fun u hu => ?_) (fun u hu => ?_) ?_ ?_ (fun k he hk => absurd hk (hcur k he)) (.inl ?_)
  · rw [← hcpus]
    exact hw.sameHarts.sameCpu k
  · have hne : k ≠ target := by
      rintro rfl
      rw [hon] at hoff
      cases hoff
    rw [setQueue_ne q _ hne]
    exact hs.offline k hk hoff
  · rw [hw.rq_eq, honrq, if_neg hu]
  · rw [hw.threads, if_neg hu, hthreads u hu]
  · rw [hw.threads, if_neg hu, hthreads u hu]
  · rw [hw.rq_eq, honrq, if_pos rfl, hstate]
    simp
  · rw [hstate]
    decide
  · rw [hw.threads, if_pos rfl]
    exact hrh

/-- `thread_make_runnable` of a thread that no hart executes, unless it is running. -/
theorem Sched.wake {t : Int} {p : Nat} (hs : Sched cfg dead mid s q) (hp : p < cfg.maxHarts)
    (hon : (s.cpus p).online = true)
    (hcur : ∀ k, Entered cfg s k → (s.cpus k).currentTid = t → (s.threads t).state = .running)
    (hw : threadMakeRunnable cfg s h t p = .ok s') :
    ∃ q', Sched cfg dead mid s' q' ∧ ∀ x, Keeps x q q' := by
  rcases threadMakeRunnable_cases hw with ⟨rfl, -⟩ | ⟨rq, hw⟩
  · exact ⟨q, hs, fun x => .refl x q⟩
  · obtain ⟨hlt, honline⟩ := schedPickTargetHart_online hp hon
    have hnot : ∀ k, Entered cfg s k → (s.cpus k).currentTid ≠ t :=
      fun k he hk => hw.state (hcur k he hk)
    exact ⟨_, hs.woken rfl rfl (fun _ _ => rfl) rfl hnot hlt honline hw, fun x => .push x q _ t⟩

/-- A new thread is pushed in the same step as its slot leaves `UNUSED`. -/
theorem Sched.create {t : Int} {p : Nat} {f : Thread → Thread} (hs : Sched cfg dead none s q)
    (hp : p < cfg.maxHarts) (hon : (s.cpus p).online = true) (h1 : (cfg.maxHarts : Int) ≤ t)
    (h2 : t < cfg.threadMax) (hu : (s.threads t).state = .unused)
    (hf : ∀ x, (f x).state = .runnable ∧ (f x).runningHart = x.runningHart)
    (hw : threadMakeRunnable cfg (s.modThread t f) h t p = .ok s') :
    ∃ q', Sched cfg dead none s' q' ∧ ∀ x, Keeps x q q' := by
  have hoff : s.rq.onRq t = false := hs.onRq_false (by rw [hu]; decide)
  have hcur : ∀ k, Entered cfg s k → (s.cpus k).currentTid ≠ t := by
    rintro k he rfl
    rcases (hs.cur k he (by simp)).1 with hst | ⟨-, hst⟩ <;> rw [hu] at hst <;> cases hst
  rcases threadMakeRunnable_cases hw with ⟨-, hno⟩ | ⟨rq, hw⟩
  · exfalso
    rcases hno with hlt | hge | hq | hst
    · omega
    · omega
    · rw [Kernel.modThread_rq, hoff] at hq
      cases hq
    · rw [Kernel.modThread_threads, if_pos rfl, (hf _).1] at hst
      cases hst
  · obtain ⟨hlt, honline⟩ := @schedPickTargetHart_online cfg (s.modThread t f) p hp hon
    have hother : ∀ u, u ≠ t → (s.modThread t f).threads u = s.threads u := by
      intro u hu
      rw [Kernel.modThread_threads, if_neg hu]
    have hself : ((s.modThread t f).threads t).runningHart = (s.threads t).runningHart := by
      rw [Kernel.modThread_threads, if_pos rfl, (hf _).2]
    have hrq : (s.modThread t f).rq = s.rq := rfl
    have hwoken := hs.woken hrq rfl hother hself hcur hlt honline hw
    exact ⟨_, hwoken, fun x => .push x q _ t⟩

theorem unlink_onRq {r : RunQueues} {t : Int} (hon : r.onRq t = false) (u : Int) :
    (r.unlink t).onRq u = r.onRq u := by
  by_cases hu : u = t
  · subst hu
    simp [RunQueues.unlink, hon]
  · simp [RunQueues.unlink, hu]

/-- The current thread of the trapping hart leaves `RUNNING`. -/
theorem Sched.stop (hs : Sched cfg dead (some h) s q) (he : Entered cfg s h)
    (hrepr : RqRepr cfg s'.rq q) (hcpus : s'.cpus = s.cpus)
    (hon : ∀ u, s'.rq.onRq u = s.rq.onRq u)
    (hst : ∀ u, u ≠ (s.cpus h).currentTid → (s'.threads u).state = (s.threads u).state)
    (hrh : ∀ u, (s'.threads u).runningHart = (s.threads u).runningHart)
    (hcur : (s'.threads (s.cpus h).currentTid).state ≠ .runnable ∧
      (s'.threads (s.cpus h).currentTid).state ≠ .running) :
    Sched cfg dead (some h) s' q := by
  refine hs.update (t := (s.cpus h).currentTid) hrepr (fun k => ?_) hs.offline
    (fun u _ => hon u) hst
    (fun u _ => hrh u) ?_ hcur.2 (fun k hk heq => ?_) (.inl (hrh _))
  · rw [hcpus]
    exact .refl _
  · rw [hon, hs.cur_onRq he]
    simp [hcur.1]
  · have hkh := hs.curInj k h hk he heq
    exact ⟨hcur.1, .inl (congrArg some hkh.symm)⟩

/-- A slot that no hart executes and no queue holds is recycled. -/
theorem Sched.recycle {t : Int} (hs : Sched cfg dead mid s q) (h1 : (cfg.maxHarts : Int) ≤ t)
    (h2 : t < cfg.threadMax) (hst : (s.threads t).state ≠ .runnable)
    (hcur : ∀ k, Entered cfg s k → (s.cpus k).currentTid = t → mid = some k) :
    Sched cfg dead mid (recycleThread cfg s t) q := by
  have hpos := cfg.maxHarts_pos
  have hon := hs.onRq_false hst
  rw [recycleThread_eq (by omega) h2]
  refine hs.update (t := t) (hs.repr.unlink hon) (fun _ => .refl _) hs.offline (fun u _ => ?_)
    (fun u hu => ?_) (fun u hu => ?_) ?_ ?_ (fun k he hk => ⟨by simp, .inl (hcur k he hk)⟩)
    (.inr ?_)
  · exact unlink_onRq hon u
  · simp [hu]
  · simp [hu]
  · simp [RunQueues.unlink]
  · simp
  · simp

/-- The victim of a kill leaves its queue. -/
theorem Sched.kill {t : Int} {rq : RunQueues} (hs : Sched cfg dead none s q)
    (hunq : KillUnqueued cfg s t rq)
    (hcur : dead ∨ ∀ k, Entered cfg s k → (s.cpus k).currentTid ≠ t) :
    ∃ q', Sched cfg dead none ((s.modThread t Thread.kill).setRq rq) q' ∧
      ∀ x, x ≠ t → Keeps x q q' := by
  -- the queues without the victim
  have hrq : ∃ q', RqRepr cfg rq q' ∧ (∀ u, rq.onRq u = if u = t then false else s.rq.onRq u) ∧
      (∀ k, k < cfg.maxHarts → (s.cpus k).online = false → q' k = []) ∧
      ∀ x, x ≠ t → Keeps x q q' := by
    rcases hunq with ⟨hon, ret, hrem⟩ | ⟨hoff, rfl⟩
    · obtain ⟨k, hk, hmem⟩ := (hs.repr.onRq t).mp hon
      obtain ⟨rq', hrem', hrepr, honrq⟩ := rqRemoveAny_spec hs.repr hk hmem
      rw [hrem, Except.ok.injEq, Prod.mk.injEq] at hrem'
      obtain ⟨-, rfl⟩ := hrem'
      refine ⟨_, hrepr, honrq, fun j hj hoff => ?_, fun x hx => .erase hx q k⟩
      have hempty := hs.offline j hj hoff
      by_cases hjk : j = k
      · subst hjk
        rw [setQueue_self, hempty]
        rfl
      · rw [setQueue_ne q _ hjk, hempty]
    · refine ⟨q, hs.repr, fun u => ?_, hs.offline, fun x _ => .refl x q⟩
      split
      · rename_i hu
        rw [hu, hoff]
      · rfl
  obtain ⟨q', hrepr, honrq, hoffline, hkeeps⟩ := hrq
  refine ⟨q', ?_, hkeeps⟩
  refine hs.update (t := t) hrepr (fun _ => .refl _) hoffline (fun u hu => ?_) (fun u hu => ?_)
    (fun u hu => ?_) ?_ ?_ (fun k he hk => ?_) (.inl ?_)
  · rw [Kernel.setRq_rq, honrq, if_neg hu]
  · simp [hu]
  · simp [hu]
  · rw [Kernel.setRq_rq, honrq, if_pos rfl]
    simp
  · simp
  · rcases hcur with hd | hnot
    · exact ⟨by simp, .inr ⟨hd, by simp, by simp⟩⟩
    · exact absurd hk (hnot k he)
  · simp

/-- What the trap must not do to threads that other harts execute.  Without `dead` no kill hits one
of them; with `dead` one that was killed is neither collected nor released. -/
structure Safe (cfg : Config) (dead : Prop) (s : Kernel) (h : Nat) (a : Action) : Prop where
  kill : dead ∨ ∀ t, a = .kill t → KillHits cfg s h t →
    ∀ k, Entered cfg s k → (s.cpus k).currentTid ≠ t
  joiner : dead → ∀ w, Joiner cfg s h a w → 0 ≤ w → w < cfg.threadMax →
    (s.threads w).state = .zombie → (s.threads w).runningHart < 0
  collect : dead → ∀ t, collected cfg s h a = some t → (s.threads t).runningHart < 0

/-- Writes to one thread that leave its state and `running_hart` alone. -/
theorem Sched.modThread (hs : Sched cfg dead mid s q) (t : Int) {f : Thread → Thread}
    (hf : ∀ x, (f x).state = x.state ∧ (f x).runningHart = x.runningHart) :
    Sched cfg dead mid (s.modThread t f) q := by
  refine hs.frame rfl (fun _ => .refl _) (fun u => ?_) (fun u => ?_)
  · rw [Kernel.modThread_threads]
    split
    · exact (hf _).1
    · rfl
  · rw [Kernel.modThread_threads]
    split
    · exact (hf _).2
    · rfl

/-- A `ZOMBIE` that no hart executes is not the current thread of any. -/
theorem Sched.not_current {t : Int} (hs : Sched cfg dead none s q)
    (hz : (s.threads t).state = .zombie) (hrh : dead → (s.threads t).runningHart < 0) :
    ∀ k, Entered cfg s k → (s.cpus k).currentTid ≠ t := by
  rintro k he rfl
  obtain ⟨hst | ⟨hd, -⟩, hr⟩ := hs.cur k he (by simp)
  · rw [hz] at hst
    cases hst
  · have hneg := hrh hd
    omega

/-- The joiner that a dying thread releases is not executing, unless it is `RUNNING`. -/
theorem Sched.joiner_current {s₀ : Kernel} {a : Action} {w : Int} (hb₀ : Basic cfg s₀)
    (hsafe : Safe cfg dead s₀ h a) (hcur : (s.cpus h).currentTid = (s₀.cpus h).currentTid)
    (hs : Sched cfg dead (leaves cfg s₀ h a) s q) (hj : Joiner cfg s₀ h a w) (h0 : 0 ≤ w)
    (hlt : w < cfg.threadMax) (hst : (s.threads w).state = (s₀.threads w).state)
    (hrh : (s.threads w).runningHart = (s₀.threads w).runningHart) :
    ∀ k, Entered cfg s k → (s.cpus k).currentTid = w → (s.threads w).state = .running := by
  intro k he hk
  have hmid : leaves cfg s₀ h a ≠ some k := by
    intro hl
    obtain ⟨rfl, hsus | ⟨code, rfl⟩⟩ := leaves_eq_some hl
    · -- a suspending system call terminates nobody
      obtain ⟨t, hterm, -⟩ := hj
      rcases terminated_cases hterm with ⟨code, rfl, -⟩ | ⟨rfl, -⟩ <;> cases hsus
    · -- the exiting thread is not its own joiner
      obtain ⟨t, hterm, rfl⟩ := hj
      obtain rfl : (s₀.cpus k).currentTid = t := Option.some.inj hterm
      rw [hcur] at hk
      exact hb₀.joinSelf (s₀.cpus k).currentTid (by omega) hk.symm
  obtain ⟨hrun | ⟨hd, hz⟩, hr⟩ := hs.cur k he hmid
  · rw [hk] at hrun
    exact hrun
  · rw [hk] at hz hr
    have hneg := hsafe.joiner hd w hj h0 hlt (hst ▸ hz)
    rw [← hrh, hr] at hneg
    omega

theorem Sched.act {s₀ : Kernel} {a : Action} (hb₀ : Basic cfg s₀) (hsafe : Safe cfg dead s₀ h a)
    (hb : Basic cfg s) (he : Entered cfg s h) (hc : ∀ k, SameCpu (s₀.cpus k) (s.cpus k))
    (hs : Sched cfg dead (leaves cfg s₀ h a) s q) (ha : Act cfg h s₀ a s s') :
    ∃ q', Sched cfg dead (leaves cfg s₀ h a) s' q' ∧
      ∀ x, terminated cfg s₀ h a ≠ some x → Keeps x q q' := by
  have hpos := cfg.maxHarts_pos
  have hcur : (s.cpus h).currentTid = (s₀.cpus h).currentTid := (hc h).2.2.2.1
  have hself : (s.cpus h).hartid < cfg.maxHarts ∧ (s.cpus (s.cpus h).hartid).online = true := by
    rw [he.2.2.1]
    exact ⟨he.1, he.2.1⟩
  have hsame : ∀ {s₁ : Kernel}, Sched cfg dead (leaves cfg s₀ h a) s₁ q →
      ∃ q', Sched cfg dead (leaves cfg s₀ h a) s₁ q' ∧
        ∀ x, terminated cfg s₀ h a ≠ some x → Keeps x q q' :=
    fun hs₁ => ⟨q, hs₁, fun x _ => .refl x q⟩
  have hall : ∀ {s₁ : Kernel}, (∃ q', Sched cfg dead (leaves cfg s₀ h a) s₁ q' ∧
      ∀ x, Keeps x q q') → ∃ q', Sched cfg dead (leaves cfg s₀ h a) s₁ q' ∧
        ∀ x, terminated cfg s₀ h a ≠ some x → Keeps x q q' :=
    fun ⟨q', hs₁, hk⟩ => ⟨q', hs₁, fun x _ => hk x⟩
  -- a sleeping or blocked thread is not current when its wake-up comes
  have hasleep : ∀ {t : Int}, leaves cfg s₀ h a = none → (s.threads t).state ≠ .running →
      (s.threads t).state ≠ .zombie →
      ∀ k, Entered cfg s k → (s.cpus k).currentTid = t → (s.threads t).state = .running := by
    rintro t hl h1 h2 k hk rfl
    rcases (hs.cur k hk (by simp [hl])).1 with hst | ⟨-, hst⟩
    · exact hst
    · exact absurd hst h2
  cases ha with
  | quiet hq =>
    exact hsame (hs.frame hq.rq hq.cpus (fun t => (hq.threads t).state)
      fun t => (hq.threads t).runningHart)
  | @slice f ht hf =>
    have hact : Act cfg h s₀ a s (s.modCpu h f) := .slice ht hf
    exact hsame (hs.frame rfl hact.sameCpu (fun _ => rfl) fun _ => rfl)
  | wakeSleeper ht hst hw =>
    subst ht
    exact hall (hs.wake hb.boot.1 hb.boot.2
      (hasleep rfl (by rw [hst]; decide) (by rw [hst]; decide)) hw)
  | wakeReader ht hst hw =>
    subst ht
    exact hall (hs.wake hself.1 hself.2
      (hasleep rfl (by rw [hst]; decide) (by rw [hst]; decide)) hw)
  | clearReader _ => exact hsame (hs.frame rfl (fun _ => .refl _) (fun _ => rfl) fun _ => rfl)
  | @create _ t _ _ _ _ ht h1 h2 hu₀ hu hw =>
    subst ht
    have hge : (cfg.maxHarts : Int) ≤ t := by
      by_contra hlt
      rcases (hb₀.idle t (by omega) (by omega)).1 with hst | hst <;> rw [hst] at hu₀ <;> cases hu₀
    refine hall (Sched.create hs hself.1 hself.2 hge h2 hu ?_ hw)
    exact fun x => ⟨rfl, rfl⟩
  | sleep _ hsus _ =>
    rw [leaves_of_suspends hsus] at hs ⊢
    have hoff := hs.cur_onRq he
    refine ⟨q, hs.stop he (hs.repr.unlink hoff) rfl (unlink_onRq hoff) (fun u hu => ?_)
      (fun u => ?_) ?_, fun x _ => .refl x q⟩
    · simp [sleepCur, hu]
    · simp only [sleepCur, Kernel.setRq_threads, Kernel.modThread_threads]
      split <;> rfl
    · simp [sleepCur]
  | @wait t p ht hsus _ =>
    subst ht
    have hne := hsus.1.2.2.1
    rw [← hcur] at hne
    rw [leaves_of_suspends hsus] at hs ⊢
    refine ⟨q, hs.stop he hs.repr rfl (fun _ => rfl) (fun u hu => ?_) (fun u => ?_) ?_,
      fun x _ => .refl x q⟩
    · simp only [waitCur, Kernel.modThread_threads, hu, if_false]
      split <;> rfl
    · simp only [waitCur, Kernel.modThread_threads]
      split_ifs <;> rfl
    · simp [waitCur, Ne.symm hne]
  | @block buf len _ hsus _ =>
    rw [leaves_of_suspends hsus] at hs ⊢
    refine ⟨q, hs.stop he hs.repr rfl (fun _ => rfl) (fun u hu => ?_) (fun u => ?_) ?_,
      fun x _ => .refl x q⟩
    · simp [blockCur, hu]
    · simp only [blockCur, Kernel.modThread_threads, Kernel.setStdinWaiter_threads]
      split_ifs <;> rfl
    · simp [blockCur]
  | @exit code ht _ =>
    subst ht
    have hoff := hs.cur_onRq he
    refine hsame (Sched.stop hs he (hs.repr.unlink hoff) rfl (unlink_onRq hoff) (fun u hu => ?_)
      (fun u => ?_) ?_)
    · simp [exitCur, hu]
    · simp only [exitCur, Kernel.setRq_threads, Kernel.modThread_threads]
      split <;> rfl
    · simp [exitCur]
  | @kill t rq ht hhit _ hunq =>
    subst ht
    have hnot : dead ∨ ∀ k, Entered cfg s k → (s.cpus k).currentTid ≠ t := by
      refine hsafe.kill.imp id fun hk k hek => ?_
      rw [(hc k).2.2.2.1]
      exact hk t rfl hhit k ((SameCpu.entered hc k).mp hek)
    obtain ⟨q', hs', hk⟩ := Sched.kill hs hunq hnot
    refine ⟨q', hs', fun x hx => hk x ?_⟩
    rintro rfl
    exact hx (if_pos hhit)
  | @deliver w code _ _ _ =>
    refine hsame (hs.frame (deliver_rest _ _).1 (fun k => ?_) (fun t => (deliver_state _ _ t).1)
      fun t => (deliver_state _ _ t).2)
    rw [deliver_cpus]
    exact .refl _
  | wakeJoiner hj h0 hlt hst hrh hw =>
    exact hall (hs.wake hself.1 hself.2 (hs.joiner_current hb₀ hsafe hcur hj h0 hlt hst hrh) hw)
  | joinWaiter _ _ =>
    refine hsame (hs.modThread _ ?_)
    exact fun x => ⟨rfl, rfl⟩
  | detach _ _ _ =>
    refine hsame (hs.modThread _ ?_)
    exact fun x => ⟨rfl, rfl⟩
  | @reclaim t hterm h1 h2 hz hrun =>
    refine hsame (hs.recycle h1 h2 (by rw [hz]; decide) fun k hk heq => ?_)
    by_contra hl
    rcases hrun with hcur' | hneg
    · -- only the exiting thread is recycled while it is current
      have hkh := hs.curInj k h hk he (heq.trans hcur')
      subst hkh
      rcases terminated_cases hterm with ⟨code, rfl, -⟩ | ⟨rfl, hhit⟩
      · exact hl rfl
      · exact hhit.2.2.1 (hcur'.trans hcur)
    · have hr := (hs.cur k hk hl).2
      rw [heq] at hr
      omega
  | @collect t hcol h1 h2 hz hrh =>
    rw [leaves_of_collected hcol] at hs ⊢
    have hdead : dead → (s.threads t).runningHart < 0 := by
      intro hd
      rw [hrh]
      exact hsafe.collect hd t hcol
    refine ⟨q, hs.recycle h1 h2 (by rw [hz]; decide) fun k hk heq => ?_, fun x _ => .refl x q⟩
    exact absurd heq (hs.not_current hz hdead k hk)

/-! ## `schedule` -/

/-- The queue of hart `h` after its current thread was put back. -/
def requeued (s : Kernel) (h : Nat) (q : Nat → List Int) : List Int :=
  let cur := (s.cpus h).currentTid
  if cur ≠ (s.cpus h).idleTid ∧ (s.threads cur).state = .running then q h ++ [cur] else q h

theorem leftThread_runningHart (isIdle : Prop) [Decidable isIdle] (t : Thread) :
    (leftThread cfg isIdle t).runningHart = -1 := by
  unfold leftThread
  split_ifs <;> rfl

theorem leftThread_not_running (isIdle : Prop) [Decidable isIdle] (t : Thread) :
    (leftThread cfg isIdle t).state ≠ .running := by
  unfold leftThread
  split_ifs with h1 h2
  · simp
  · simp
  · simpa using (not_or.mp h1).2

theorem leftThread_runnable {t : Thread} (isIdle : Prop) [Decidable isIdle] (hi : ¬ isIdle)
    (ht : t.state ≠ .runnable) :
    (leftThread cfg isIdle t).state = .runnable ↔ t.state = .running := by
  unfold leftThread
  split_ifs with h1 h2
  · simpa using h1.resolve_left hi
  · simp [h2.1]
  · simpa [(not_or.mp h1).2] using ht

/-- The first half of `schedule` appends the current thread if it is still running. -/
theorem Sched.leftRq (hs : Sched cfg dead (some h) s q) (he : Entered cfg s h) :
    ∃ rq, Ccos.leftRq cfg s h = .ok rq ∧ RqRepr cfg rq (setQueue q h (requeued s h q)) := by
  have hid : (s.cpus h).hartid = h := he.2.2.1
  have hoff := hs.cur_onRq he
  unfold Ccos.leftRq requeued
  dsimp only
  by_cases hrun : (s.cpus h).currentTid ≠ (s.cpus h).idleTid ∧
      (s.threads (s.cpus h).currentTid).state = .running
  · rw [if_pos hrun, if_pos hrun, hid]
    have hc := hs.harts.cur_pos he hrun.1
    obtain ⟨rq, hpush, hrepr, -⟩ := rqPushTail_spec hs.repr he.1 hc.1 hc.2 hoff
    exact ⟨rq, hpush, hrepr⟩
  · rw [if_neg hrun, if_neg hrun]
    have hq : setQueue q h (q h) = q := by
      funext k
      by_cases hk : k = h
      · rw [hk, setQueue_self]
      · rw [setQueue_ne q _ hk]
    rw [hq]
    split
    · exact ⟨_, rfl, hs.repr.unlink hoff⟩
    · exact ⟨_, rfl, hs.repr⟩

/-- Everything in the queue is `RUNNABLE` when the pick loop starts. -/
theorem Sched.requeued_runnable (hs : Sched cfg dead (some h) s q) (he : Entered cfg s h)
    (rq : RunQueues) {t : Int} (ht : t ∈ requeued s h q) :
    ((leftKernel cfg s h rq).threads t).state = .runnable := by
  have hin : t ∈ q h → ((leftKernel cfg s h rq).threads t).state = .runnable := by
    intro hmem
    have hr := hs.repr.range h he.1 t hmem
    have hon := (hs.repr.onRq t).mpr ⟨h, he.1, hmem⟩
    have hne : t ≠ (s.cpus h).currentTid := by
      rintro rfl
      rw [hs.cur_onRq he] at hon
      cases hon
    rw [leftKernel_threads, if_neg hne]
    exact (hs.runnable t hr.1 hr.2).mpr hon
  unfold requeued at ht
  dsimp only at ht
  split at ht
  · rename_i hrun
    rcases List.mem_append.mp ht with hmem | hmem
    · exact hin hmem
    · rw [List.mem_singleton.mp hmem, leftKernel_threads, if_pos rfl,
        leftThread_requeued (.inr hrun.2)]
      rfl
  · exact hin ht

/-- The pick loop takes the head of the queue, or the idle thread if there is none. -/
theorem schedulePick_spec {threads : Int → Thread} {r : RunQueues} (hr : RqRepr cfg r q)
    (hh : h < cfg.maxHarts) (hall : ∀ t ∈ q h, (threads t).state = .runnable) {idle : Int}
    (hidle : idle < cfg.maxHarts) (fuel : Nat) :
    ∃ r', schedulePick cfg threads h idle (fuel + 1) r = .ok ((q h).headD idle, r') ∧
      RqRepr cfg r' (setQueue q h (q h).tail) ∧
      (∀ u, u ≠ (q h).headD idle → r'.onRq u = r.onRq u) ∧
      ((cfg.maxHarts : Int) ≤ (q h).headD idle → r'.onRq ((q h).headD idle) = false) := by
  cases hq : q h with
  | nil =>
    have hset : setQueue q h [] = q := by
      funext k
      by_cases hk : k = h
      · rw [hk, setQueue_self, hq]
      · rw [setQueue_ne q _ hk]
    refine ⟨r, ?_, ?_, fun _ _ => rfl, fun hle => ?_⟩
    · unfold schedulePick
      rw [rqPopHead_nil hr hh hq]
      rfl
    · rw [List.tail_nil, hset]
      exact hr
    · rw [List.headD_nil] at hle
      omega
  | cons t ts =>
    obtain ⟨r', hpop, hrepr, hon⟩ := rqPopHead_cons hr hh hq
    have hmem : t ∈ q h := by
      rw [hq]
      exact List.mem_cons_self
    have hrange := hr.range h hh t hmem
    have hneg : ¬ t < 0 := by omega
    refine ⟨r', ?_, hrepr, fun u hu => ?_, fun _ => ?_⟩
    · unfold schedulePick
      rw [hpop]
      simp only [if_neg hneg, if_pos (hall t hmem), List.headD_cons]
    · rw [List.headD_cons] at hu
      rw [hon, if_neg hu]
    · rw [List.headD_cons, hon, if_pos rfl]

section Schedule

variable {rq rq' : RunQueues} {next : Int}

/-- What `schedule` does to the queues: the head of the own queue is taken, after the current thread
was appended if it still runs. -/
structure Taken (cfg : Config) (s : Kernel) (h : Nat) (q : Nat → List Int) (rq : RunQueues)
    (next : Int) (rq' : RunQueues) : Prop where
  left : RqRepr cfg rq (setQueue q h (requeued s h q))
  head : next = (requeued s h q).headD h
  repr : RqRepr cfg rq' (setQueue q h (requeued s h q).tail)
  others : ∀ u, u ≠ next → rq'.onRq u = rq.onRq u
  self : (cfg.maxHarts : Int) ≤ next → rq'.onRq next = false

theorem Sched.taken (hs : Sched cfg dead (some h) s q) (he : Entered cfg s h)
    (hsch : Scheduled cfg h s rq next rq' s') : Taken cfg s h q rq next rq' := by
  have hh := he.1
  obtain ⟨rq₁, hleft, hrepr⟩ := hs.leftRq he
  obtain rfl : rq₁ = rq := by
    have heq := hsch.left
    rw [hleft] at heq
    exact Except.ok.inj heq
  have hall : ∀ t ∈ setQueue q h (requeued s h q) h,
      ((leftKernel cfg s h rq₁).threads t).state = .runnable := by
    intro t ht
    rw [setQueue_self] at ht
    exact hs.requeued_runnable he rq₁ ht
  obtain ⟨r', hpick, hrepr', hothers, hself⟩ :=
    schedulePick_spec hrepr hh hall (show (h : Int) < cfg.maxHarts by omega) cfg.threadMax
  have hpick' := hsch.pick
  rw [he.2.2.1, he.2.2.2.1, hpick, Except.ok.injEq, Prod.mk.injEq] at hpick'
  obtain ⟨rfl, rfl⟩ := hpick'
  rw [setQueue_self] at hrepr' hothers hself ⊢
  have hset : setQueue (setQueue q h (requeued s h q)) h (requeued s h q).tail =
      setQueue q h (requeued s h q).tail := by
    funext k
    by_cases hk : k = h
    · rw [hk, setQueue_self, setQueue_self]
    · rw [setQueue_ne _ _ hk, setQueue_ne _ _ hk, setQueue_ne _ _ hk]
  exact ⟨hrepr, rfl, hset ▸ hrepr', hothers, hself⟩

/-- Between the two halves of `schedule`, a thread is `RUNNABLE` exactly if it is queued. -/
theorem Sched.left_runnable (hs : Sched cfg dead (some h) s q) (he : Entered cfg s h)
    (hrepr : RqRepr cfg rq (setQueue q h (requeued s h q))) {t : Int}
    (h1 : (cfg.maxHarts : Int) ≤ t) (h2 : t < cfg.threadMax) :
    ((leftKernel cfg s h rq).threads t).state = .runnable ↔ rq.onRq t = true := by
  have hh := he.1
  have hq : rq.onRq t = true ↔ t ∈ requeued s h q ∨ ∃ k, k < cfg.maxHarts ∧ k ≠ h ∧ t ∈ q k := by
    rw [hrepr.onRq, exists_mem_setQueue he.1]
  have hold : s.rq.onRq t = true ↔ t ∈ q h ∨ ∃ k, k < cfg.maxHarts ∧ k ≠ h ∧ t ∈ q k := by
    rw [hs.repr.onRq, exists_mem_split he.1]
  rw [hq, leftKernel_threads]
  by_cases hcur : t = (s.cpus h).currentTid
  · -- the thread that is switched away from: queued exactly if it still runs
    subst hcur
    have hidle : ¬ (s.cpus h).currentTid = (s.cpus h).idleTid := by
      rw [he.2.2.2.1]
      omega
    have hnot : ¬ ((s.cpus h).currentTid ∈ q h ∨
        ∃ k, k < cfg.maxHarts ∧ k ≠ h ∧ (s.cpus h).currentTid ∈ q k) := by
      rw [← hold, hs.cur_onRq he]
      simp
    rw [if_pos rfl, leftThread_runnable _ hidle (hs.curMid h he h1)]
    unfold requeued
    dsimp only
    split
    · rename_i hrun
      simp [hrun.2]
    · rename_i hrun
      have hst : (s.threads (s.cpus h).currentTid).state ≠ .running := fun hst => hrun ⟨hidle, hst⟩
      simp only [hst, hnot]
  · rw [if_neg hcur, hs.runnable t h1 h2, hold]
    have hmem : t ∈ requeued s h q ↔ t ∈ q h := by
      unfold requeued
      dsimp only
      split
      · simp [hcur]
      · rfl
    rw [hmem]

/-- The thread that `schedule` picks is current on no other hart. -/
theorem Sched.next_fresh (hs : Sched cfg dead (some h) s q) (he : Entered cfg s h)
    (ht : Taken cfg s h q rq next rq') {k : Nat} (hk : Entered cfg s k) (hkh : k ≠ h) :
    (s.cpus k).currentTid ≠ next := by
  have hklt := hk.1
  have hhlt := he.1
  intro heq
  rw [ht.head] at heq
  cases hreq : requeued s h q with
  | nil =>
    -- the idle thread of `h`
    rw [hreq, List.headD_nil] at heq
    rcases hs.harts.curRange k hk with hc | hc <;> omega
  | cons t ts =>
    rw [hreq, List.headD_cons] at heq
    have hmem : (s.cpus k).currentTid ∈ requeued s h q := by
      rw [heq, hreq]
      exact List.mem_cons_self
    have hqueued : ¬ (s.cpus k).currentTid ∈ q h := by
      intro hin
      have hon := (hs.repr.onRq _).mpr ⟨h, he.1, hin⟩
      rw [hs.cur_onRq hk] at hon
      cases hon
    unfold requeued at hmem
    dsimp only at hmem
    split at hmem
    · rcases List.mem_append.mp hmem with hin | hin
      · exact hqueued hin
      · exact hkh (hs.curInj k h hk he (List.mem_singleton.mp hin))
    · exact hqueued hmem

/-- `schedule` restores the invariant: the head of the queue runs. -/
theorem Sched.schedule (hs : Sched cfg dead (some h) s q) (he : Entered cfg s h)
    (hsch : Scheduled cfg h s rq next rq' s') :
    Sched cfg dead none s' (setQueue q h (requeued s h q).tail) := by
  have ht := hs.taken he hsch
  have hhlt := he.1
  have hpos := cfg.maxHarts_lt
  have hent := hsch.entered he
  have hfresh : ∀ k, Entered cfg s k → k ≠ h → (s.cpus k).currentTid ≠ next :=
    fun k hk hkh => hs.next_fresh he ht hk hkh
  have hleft : ∀ k, Entered cfg s k → k ≠ h →
      s'.threads (s.cpus k).currentTid = s.threads (s.cpus k).currentTid := by
    intro k hk hkh
    have hcur : (s.cpus k).currentTid ≠ (s.cpus h).currentTid :=
      fun heq => hkh (hs.curInj k h hk he heq)
    rw [hsch.threads, if_neg (hfresh k hk hkh), leftKernel_threads, if_neg hcur]
  have hnextRange : next = h ∨ ((cfg.maxHarts : Int) ≤ next ∧ next < cfg.threadMax) := by
    rw [ht.head]
    cases hreq : requeued s h q with
    | nil => exact .inl rfl
    | cons t ts =>
      refine .inr (ht.left.range h hhlt t ?_)
      rw [setQueue_self, hreq]
      exact List.mem_cons_self
  have hnext : (s'.threads next).state = .running ∧ (s'.threads next).runningHart = h := by
    rw [hsch.threads, if_pos rfl, he.2.2.1]
    exact ⟨rfl, rfl⟩
  refine ⟨hsch.rq_eq ▸ ht.repr, ⟨fun k hk => ?_, fun k hk => ?_⟩, fun k hk hoff => ?_,
    fun k j hk hj heq => ?_, fun t h1 h2 => ?_, fun t h1 h2 hrun => ?_, fun k hk _ => ?_,
    fun k hk hc => ?_, fun t h1 h2 hrh => ?_⟩
  · by_cases hkh : k = h
    · rw [hkh, hsch.cpus_self]
    · rw [hsch.cpus_ne hkh]
      exact hs.harts.curTf k ((hent k).mp hk)
  · -- the queue holds user threads only, so what is picked is one of them or the idle thread
    by_cases hkh : k = h
    · rw [hkh, hsch.cpus_self]
      exact hnextRange
    · rw [hsch.cpus_ne hkh]
      exact hs.harts.curRange k ((hent k).mp hk)
  · have hkh : k ≠ h := by
      rintro rfl
      rw [hsch.cpus_self] at hoff
      exact absurd (he.2.1.symm.trans hoff) (by simp)
    rw [setQueue_ne q _ hkh]
    rw [hsch.cpus_ne hkh] at hoff
    exact hs.offline k hk hoff
  · -- no hart runs the picked thread, since a queued thread is nobody's current one
    by_cases hkh : k = h
    · by_cases hjh : j = h
      · rw [hkh, hjh]
      · subst hkh
        rw [hsch.cpus_self, hsch.cpus_ne hjh] at heq
        exact absurd heq.symm (hfresh j ((hent j).mp hj) hjh)
    · by_cases hjh : j = h
      · subst hjh
        rw [hsch.cpus_self, hsch.cpus_ne hkh] at heq
        exact absurd heq (hfresh k ((hent k).mp hk) hkh)
      · rw [hsch.cpus_ne hkh, hsch.cpus_ne hjh] at heq
        exact hs.curInj k j ((hent k).mp hk) ((hent j).mp hj) heq
  · -- popping the head turns one `RUNNABLE` thread into the running one
    rw [hsch.rq_eq]
    by_cases htn : t = next
    · subst htn
      rw [hnext.1, ht.self h1]
      simp
    · rw [hsch.threads, if_neg htn, ht.others t htn]
      exact hs.left_runnable he ht.left h1 h2
  · -- a running thread is the picked one or was running already; the one that is left is not
    by_cases htn : t = next
    · subst htn
      exact ⟨h, (hent h).mpr he, by rw [hsch.cpus_self]⟩
    · rw [hsch.threads, if_neg htn, leftKernel_threads] at hrun
      by_cases hcur : t = (s.cpus h).currentTid
      · rw [if_pos hcur] at hrun
        exact absurd hrun (leftThread_not_running _ _)
      · rw [if_neg hcur] at hrun
        obtain ⟨k, hk, hkc⟩ := hs.running t h1 h2 hrun
        have hkh : k ≠ h := by
          rintro rfl
          exact hcur hkc.symm
        exact ⟨k, (hent k).mpr hk, by rw [hsch.cpus_ne hkh, hkc]⟩
  · by_cases hkh : k = h
    · rw [hkh, hsch.cpus_self]
      exact ⟨.inl hnext.1, hnext.2⟩
    · have hk' := (hent k).mp hk
      rw [hsch.cpus_ne hkh, hleft k hk' hkh]
      exact hs.cur k hk' (by simpa using Ne.symm hkh)
  · by_cases hkh : k = h
    · rw [hkh, hsch.cpus_self, hnext.1]
      decide
    · have hk' := (hent k).mp hk
      rw [hsch.cpus_ne hkh] at hc ⊢
      rw [hleft k hk' hkh]
      exact hs.curMid k hk' hc
  · -- `running_hart` is set for the picked thread and -1 for the one that is left
    by_cases htn : t = next
    · subst htn
      exact ⟨h, (hent h).mpr he, by rw [hsch.cpus_self], hnext.2⟩
    · rw [hsch.threads, if_neg htn, leftKernel_threads] at hrh ⊢
      by_cases hcur : t = (s.cpus h).currentTid
      · rw [if_pos hcur, leftThread_runningHart] at hrh
        omega
      · rw [if_neg hcur] at hrh ⊢
        obtain ⟨k, hk, hkc, hr⟩ := hs.runningHart t h1 h2 hrh
        have hkh : k ≠ h := by
          rintro rfl
          exact hcur hkc.symm
        exact ⟨k, (hent k).mpr hk, by rw [hsch.cpus_ne hkh, hkc], hr⟩

end Schedule

end Ccos
