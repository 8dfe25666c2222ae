import Mathlib.Tactic
import Ccos.Sched.Wakeup

/-!
# Placement

`sched_pick_target_hart` scans the harts for a shorter queue.  The scan starts from the waking hart,
which may be offline itself, so the flag that says whether the candidate counts travels through the
loop.
-/

namespace Ccos

open Reasoning

variable {cfg : Config} {s s' : Kernel} {h : Nat}

/-! ## The scan -/

/-- The candidate after the harts below `n`: the waking hart `w` as long as nothing beats it, else
the first online hart of least length. -/
structure Scanned (cfg : Config) (s : Kernel) (w n : Nat) (best : Nat × Nat × Bool) : Prop where
  len : best.2.1 = rqLen cfg s.rq best.1
  online : best.2.2 = (s.cpus best.1).online
  none : best.2.2 = false → ∀ k, k < n → (s.cpus k).online = false
  waker : (s.cpus w).online = true → best.2.2 = true ∧ rqLen cfg s.rq best.1 ≤ rqLen cfg s.rq w
  least : best.2.2 = true → ∀ k, k < n → (s.cpus k).online = true →
    rqLen cfg s.rq best.1 ≤ rqLen cfg s.rq k
  lowest : best.1 = w ∨ (best.1 < n ∧
    ((s.cpus w).online = true → rqLen cfg s.rq best.1 < rqLen cfg s.rq w) ∧
    ∀ k, k < best.1 → (s.cpus k).online = true → rqLen cfg s.rq best.1 < rqLen cfg s.rq k)

variable {w n : Nat} {best : Nat × Nat × Bool}

theorem scanned_start (w : Nat) :
    Scanned cfg s w 0 (w, rqLen cfg s.rq w, (s.cpus w).online) where
  len := rfl
  online := rfl
  none _ k hk := absurd hk (Nat.not_lt_zero k)
  waker hw := ⟨hw, le_refl _⟩
  least _ k hk := absurd hk (Nat.not_lt_zero k)
  lowest := .inl rfl

/-- An offline hart is passed over. -/
theorem Scanned.skip (hs : Scanned cfg s w n best) (hoff : (s.cpus n).online = false) :
    Scanned cfg s w (n + 1) best where
  len := hs.len
  online := hs.online
  none hb k hk := by
    by_cases hkn : k = n
    · rw [hkn]
      exact hoff
    · exact hs.none hb k (by omega)
  waker := hs.waker
  least hb k hk hon := by
    by_cases hkn : k = n
    · rw [hkn, hoff] at hon
      cases hon
    · exact hs.least hb k (by omega) hon
  lowest := by
    rcases hs.lowest with heq | ⟨hlt, hrest⟩
    · exact .inl heq
    · exact .inr ⟨by omega, hrest⟩

/-- An online hart that is no shorter leaves the candidate. -/
theorem Scanned.keep (hs : Scanned cfg s w n best) (hb : best.2.2 = true)
    (hlen : rqLen cfg s.rq best.1 ≤ rqLen cfg s.rq n) : Scanned cfg s w (n + 1) best where
  len := hs.len
  online := hs.online
  none hfalse := by
    rw [hb] at hfalse
    cases hfalse
  waker := hs.waker
  least _ k hk hon := by
    by_cases hkn : k = n
    · rw [hkn]
      exact hlen
    · exact hs.least hb k (by omega) hon
  lowest := by
    rcases hs.lowest with heq | ⟨hlt, hrest⟩
    · exact .inl heq
    · exact .inr ⟨by omega, hrest⟩

/-- The first online hart, or a strictly shorter one, becomes the candidate. -/
theorem Scanned.take (hs : Scanned cfg s w n best) (hon : (s.cpus n).online = true)
    (hlen : best.2.2 = true → rqLen cfg s.rq n < rqLen cfg s.rq best.1) :
    Scanned cfg s w (n + 1) (n, rqLen cfg s.rq n, true) where
  len := rfl
  online := hon.symm
  none hfalse := by cases hfalse
  waker hw := by
    have hbest := hs.waker hw
    have hlt := hlen hbest.1
    exact ⟨rfl, by show rqLen cfg s.rq n ≤ rqLen cfg s.rq w; omega⟩
  least _ k hk hkon := by
    show rqLen cfg s.rq n ≤ rqLen cfg s.rq k
    by_cases hkn : k = n
    · rw [hkn]
    · have hk' : k < n := by omega
      cases hb : best.2.2 with
      | false =>
        rw [hs.none hb k hk'] at hkon
        cases hkon
      | true =>
        have hle := hs.least hb k hk' hkon
        have hlt := hlen hb
        omega
  lowest := by
    refine .inr ⟨by show n < n + 1; omega, fun hw => ?_, fun k hk hkon => ?_⟩
    · have hbest := hs.waker hw
      have hlt := hlen hbest.1
      show rqLen cfg s.rq n < rqLen cfg s.rq w
      omega
    · -- a lower online hart was scanned before, so the old candidate counted
      show rqLen cfg s.rq n < rqLen cfg s.rq k
      change k < n at hk
      cases hb : best.2.2 with
      | false =>
        rw [hs.none hb k hk] at hkon
        cases hkon
      | true =>
        have hle := hs.least hb k hk hkon
        have hlt := hlen hb
        omega

theorem Scanned.step (hs : Scanned cfg s w n best) :
    Scanned cfg s w (n + 1) (schedPickStep cfg s best n) := by
  unfold schedPickStep
  cases hon : (s.cpus n).online with
  | false => exact hs.skip hon
  | true =>
    rw [if_pos rfl]
    dsimp only
    rw [hs.len]
    cases hb : best.2.2 with
    | false =>
      rw [if_pos (by rfl)]
      apply hs.take hon
      intro hb'
      rw [hb] at hb'
      cases hb'
    | true =>
      by_cases hlt : rqLen cfg s.rq n < rqLen cfg s.rq best.1
      · rw [if_pos (by simpa using hlt)]
        exact hs.take hon fun _ => hlt
      · rw [if_neg (by simpa using hlt)]
        exact hs.keep hb (by omega)

theorem scanned_range (w n : Nat) : Scanned cfg s w n ((List.range n).foldl (schedPickStep cfg s)
    (w, rqLen cfg s.rq w, (s.cpus w).online)) := by
  induction n with
  | zero => exact scanned_start w
  | succ n ih =>
    rw [List.range_succ, List.foldl_append]
    exact ih.step

/-- Hart `b` is online and no online queue is shorter than its own. -/
def LeastLoaded (cfg : Config) (s : Kernel) (b : Nat) : Prop :=
  b < cfg.maxHarts ∧ (s.cpus b).online = true ∧
    ∀ k, k < cfg.maxHarts → (s.cpus k).online = true → rqLen cfg s.rq b ≤ rqLen cfg s.rq k

theorem schedPickTargetHart_least (hw : w < cfg.maxHarts)
    (hon : ∃ k, k < cfg.maxHarts ∧ (s.cpus k).online = true) :
    LeastLoaded cfg s (schedPickTargetHart cfg s w) := by
  have hs := @scanned_range cfg s w cfg.maxHarts
  obtain ⟨k, hk, hkon⟩ := hon
  have hbest : ((List.range cfg.maxHarts).foldl (schedPickStep cfg s)
      (w, rqLen cfg s.rq w, (s.cpus w).online)).2.2 = true := by
    by_contra hb
    rw [Bool.not_eq_true] at hb
    rw [hs.none hb k hk] at hkon
    cases hkon
  refine ⟨?_, hs.online ▸ hbest, hs.least hbest⟩
  rcases hs.lowest with heq | ⟨hlt, -⟩
  · show ((List.range cfg.maxHarts).foldl (schedPickStep cfg s) _).1 < cfg.maxHarts
    rw [heq]
    exact hw
  · exact hlt

/-- The waking hart keeps the thread if it is itself least loaded. -/
theorem schedPickTargetHart_waker (hw : LeastLoaded cfg s w) : schedPickTargetHart cfg s w = w := by
  have hs := @scanned_range cfg s w cfg.maxHarts
  obtain ⟨hlt, hon, hleast⟩ := hw
  rcases hs.lowest with heq | ⟨hb, hshorter, -⟩
  · exact heq
  · exfalso
    have hless := hshorter hon
    have hbest := (hs.waker hon).1
    have hle := hleast _ hb (hs.online ▸ hbest)
    omega

/-- Otherwise the thread goes to the lowest-numbered hart of least length. -/
theorem schedPickTargetHart_lowest (hw : w < cfg.maxHarts)
    (hon : ∃ k, k < cfg.maxHarts ∧ (s.cpus k).online = true) (hno : ¬ LeastLoaded cfg s w) {k : Nat}
    (hk : LeastLoaded cfg s k) : schedPickTargetHart cfg s w ≤ k := by
  have hs := @scanned_range cfg s w cfg.maxHarts
  have hbest := schedPickTargetHart_least (s := s) hw hon
  rcases hs.lowest with heq | ⟨hb, -, hlow⟩
  · have hpick : schedPickTargetHart cfg s w = w := heq
    rw [hpick] at hbest
    exact absurd hbest hno
  · by_contra hgt
    have hbelow : k < schedPickTargetHart cfg s w := by omega
    have hlt : rqLen cfg s.rq (schedPickTargetHart cfg s w) < rqLen cfg s.rq k :=
      hlow k hbelow hk.2.1
    have hle := hk.2.2 _ hbest.1 hbest.2.1
    omega

/-! ## Queues of offline harts -/

/-- Nothing is queued on a hart that is not online. -/
def OfflineEmpty (cfg : Config) (s : Kernel) : Prop :=
  ∀ k, k < cfg.maxHarts → (s.cpus k).online = false →
    s.rq.queues k = { head := -1, tail := -1, len := 0 }

/-- The harts stay as they are and no offline queue changes. -/
theorem OfflineEmpty.of_same (ho : OfflineEmpty cfg s)
    (hc : ∀ k, (s'.cpus k).online = false → (s.cpus k).online = false)
    (hq : ∀ k, k < cfg.maxHarts → (s.cpus k).online = false → (s.rq.queues k).head < 0 →
      s'.rq.queues k = s.rq.queues k) : OfflineEmpty cfg s' := by
  intro k hk hoff
  have hold := ho k hk (hc k hoff)
  rw [hq k hk (hc k hoff) (by rw [hold]; decide)]
  exact hold

theorem OfflineEmpty.wake (ho : OfflineEmpty cfg s) {t : Int} {p : Nat} (hp : p < cfg.maxHarts)
    (hon : (s.cpus p).online = true) (hw : threadMakeRunnable cfg s h t p = .ok s') :
    OfflineEmpty cfg s' := by
  rcases threadMakeRunnable_cases hw with ⟨rfl, -⟩ | ⟨rq, hw⟩
  · exact ho
  apply ho.of_same
  · intro k hoff
    rw [(hw.sameHarts.sameCpu k).2.2.1] at hoff
    exact hoff
  · -- the target is online
    intro k hk hoff _
    have htarget := (schedPickTargetHart_online hp hon).2
    have hne : k ≠ schedPickTargetHart cfg s p := by
      intro heq
      rw [heq, htarget] at hoff
      cases hoff
    rw [hw.rq_eq]
    exact rqPushTail_queues_ne hw.push hne

theorem OfflineEmpty.recycle (ho : OfflineEmpty cfg s) (t : Int) :
    OfflineEmpty cfg (recycleThread cfg s t) := by
  unfold recycleThread
  split_ifs <;> exact ho

theorem OfflineEmpty.act {s₀ : Kernel} {a : Action} (hb : Basic cfg s) (he : Entered cfg s h)
    (ho : OfflineEmpty cfg s) (ha : Act cfg h s₀ a s s') : OfflineEmpty cfg s' := by
  have hsame : ∀ k, (s'.cpus k).online = false → (s.cpus k).online = false := by
    intro k hoff
    rw [(ha.sameCpu k).2.2.1] at hoff
    exact hoff
  have hself : (s.cpus h).hartid < cfg.maxHarts ∧ (s.cpus (s.cpus h).hartid).online = true := by
    rw [he.2.2.1]
    exact ⟨he.1, he.2.1⟩
  cases ha with
  | quiet hq => exact ho.of_same hsame fun k _ _ _ => by rw [hq.rq]
  | slice ht hf => exact ho.of_same hsame fun _ _ _ _ => rfl
  | wakeSleeper _ _ hw => exact ho.wake hb.boot.1 hb.boot.2 hw
  | wakeReader _ _ hw => exact ho.wake hself.1 hself.2 hw
  | wakeJoiner _ _ _ _ _ hw => exact ho.wake hself.1 hself.2 hw
  | @create _ t entry arg name sstatus _ _ _ _ _ hw =>
    have hmod : OfflineEmpty cfg (s.modThread t fun x => initUserThread x (threadStack cfg t)
        entry arg (if name = 0 then none else some (.user name)) sstatus) := ho
    exact hmod.wake hself.1 hself.2 hw
  | @kill t rq _ _ _ hunq =>
    apply ho.of_same hsame
    intro k hk _ hhead
    rcases hunq with ⟨-, ret, hrem⟩ | ⟨-, rfl⟩
    · exact (rqRemoveAny_links hb.links hrem).2 k hk hhead
    · rfl
  | @deliver w code _ _ _ =>
    have hrq := (@deliver_rest s w code).1
    exact ho.of_same hsame fun k _ _ _ => by rw [hrq]
  | reclaim _ _ _ _ _ => exact ho.recycle _
  | collect _ _ _ _ _ => exact ho.recycle _
  | _ => exact ho

theorem OfflineEmpty.schedule {rq rq' : RunQueues} {next : Int} (he : Entered cfg s h)
    (ho : OfflineEmpty cfg s) (hs : Scheduled cfg h s rq next rq' s') : OfflineEmpty cfg s' := by
  have hcpu : ∀ k, (s'.cpus k).online = (s.cpus k).online := by
    intro k
    by_cases hk : k = h
    · rw [hk, hs.cpus_self]
    · rw [hs.cpus_ne hk]
  apply ho.of_same
  · exact fun k hoff => hcpu k ▸ hoff
  · intro k _ hoff _
    have hne : k ≠ (s.cpus h).hartid := by
      intro heq
      rw [heq, he.2.2.1, he.2.1] at hoff
      cases hoff
    rw [hs.rq_eq, hs.picked.queues_ne k hne, leftRq_queues_ne hs.left hne]

theorem offlineEmpty_step {e : Event} (hb : Basic cfg s) (ho : OfflineEmpty cfg s)
    (hg : Allowed cfg s e) (hs : step cfg s e = .ok s') : OfflineEmpty cfg s' := by
  cases e with
  | cpuInit h =>
    obtain ⟨-, c, hon, -, -, -, -, rfl⟩ := cpuInit_cases hs
    apply ho.of_same
    · intro k hoff
      rw [Kernel.modCpu_cpus] at hoff
      split at hoff
      · rw [hon] at hoff
        cases hoff
      · exact hoff
    · exact fun k _ _ _ => rfl
  | enterIdle h =>
    obtain ⟨hrq, -, -, -, -, -, -, -, -, hcpus, -, -⟩ := enterIdle_cases hs
    apply ho.of_same
    · intro k hoff
      rw [hcpus] at hoff
      split at hoff <;> exact hoff
    · exact fun k _ _ _ => by rw [hrq]
  | trap h regs io =>
    obtain ⟨s₁, hran⟩ := trap_ran (OfflineEmpty cfg) hb hg hs ho
      fun s₁ s₂ hb₁ he₁ _ ho₁ hact => ho₁.act hb₁ he₁ hact
    rcases hran.last with ⟨-, rq, next, rq', hsch⟩ | ⟨-, rfl⟩
    · exact hran.kept.schedule hran.entered hsch
    · exact hran.kept

theorem offlineEmpty_init (hs : (kernelSystem cfg).init s) : OfflineEmpty cfg s := by
  obtain ⟨s₀, s₁, tid, entry, arg, name, sstatus, hboot, hcreate, rfl⟩ := init_cases hs
  have hempty : OfflineEmpty cfg s₀ := by
    intro k hk _
    have hhead : (s₀.rq.queues k).head = -1 := segment_nil.mp (hboot.queues.seg k hk)
    have htail : (s₀.rq.queues k).tail = -1 := hboot.queues.tail k hk
    have hlen : (s₀.rq.queues k).len = 0 := hboot.queues.len k hk
    rw [← hhead, ← hlen]
    nth_rewrite 2 [hhead]
    rw [← htail]
  show OfflineEmpty cfg s₁
  rcases threadCreateUser_cases hcreate with ⟨-, rfl⟩ | ⟨-, -, -, hmake⟩
  · exact hempty
  · -- `user_main` is placed by the boot hart, which is online
    have hmod : OfflineEmpty cfg (s₀.modThread tid fun t =>
        initUserThread t (threadStack cfg tid) entry arg name sstatus) := hempty
    have hid : cpuCurrentHartid s₀ s₀.bootHartid = s₀.bootHartid := hboot.boot.2.2
    rw [hid] at hmake
    exact hmod.wake hboot.boot.1 hboot.boot.2.1 hmake

theorem offlineEmpty_reachable (hr : Reachable (kernelSystem cfg) s) : OfflineEmpty cfg s := by
  have hboth : Basic cfg s ∧ OfflineEmpty cfg s := by
    apply hr.invariant fun s => Basic cfg s ∧ OfflineEmpty cfg s
    · exact fun s₁ hi => ⟨basic_init hi, offlineEmpty_init hi⟩
    · intro s₁ e s₂ hP hg hs
      exact ⟨basic_step hP.1 hg hs, offlineEmpty_step hP.1 hP.2 hg hs⟩
  exact hboth.2

/-- Whatever the lengths and the online harts are, a thread is placed on a least-loaded online hart:
the waking hart if it is one, else the lowest-numbered one.  In no run is a thread queued on a hart
that is not online. -/
theorem placement_least_loaded (cfg : Config) :
    (∀ (s : Kernel) (w : Nat), w < cfg.maxHarts →
      (∃ k, k < cfg.maxHarts ∧ (s.cpus k).online = true) →
      LeastLoaded cfg s (schedPickTargetHart cfg s w) ∧
      (LeastLoaded cfg s w → schedPickTargetHart cfg s w = w) ∧
      (¬ LeastLoaded cfg s w → ∀ k, LeastLoaded cfg s k → schedPickTargetHart cfg s w ≤ k)) ∧
    ∀ s : Kernel, Reachable (kernelSystem cfg) s → ∀ k, k < cfg.maxHarts →
      (s.cpus k).online = false → s.rq.queues k = { head := -1, tail := -1, len := 0 } := by
  refine ⟨fun s w hw hon => ⟨?_, ?_, ?_⟩, fun s hr => offlineEmpty_reachable hr⟩
  · exact schedPickTargetHart_least hw hon
  · exact schedPickTargetHart_waker
  · exact fun hno k hk => schedPickTargetHart_lowest hw hon hno hk

/-- Hart 1 never came up: what `user_main` creates on hart 0 stays there. -/
theorem placement_least_loaded_example :
    ∃ s, Reachable (kernelSystem twoHarts) s ∧ (s.cpus 1).online = false ∧
      (s.rq.queues 0).len = 2 ∧ LeastLoaded twoHarts s (schedPickTargetHart twoHarts s 1) ∧
      s.rq.queues 1 = { head := -1, tail := -1, len := 0 } := by
  obtain ⟨s, hr, hs⟩ := exists_reachable twoHarts anyStep bootOnHart0
    (startMain ++ [sysCreate 0, sysCreate 0])
    (fun s => decide ((s.cpus 0).online = true ∧ (s.cpus 1).online = false ∧
      (s.rq.queues 0).len = 2))
    (by decide +kernel)
  obtain ⟨h0, h1, hlen⟩ := of_decide_eq_true hs
  have hplace := placement_least_loaded twoHarts
  have hpick := (hplace.1 s 1 (by decide) ⟨0, by decide, h0⟩).1
  exact ⟨s, hr.unrestrict, h1, hlen, hpick, hplace.2 s hr.unrestrict 1 (by decide) h1⟩

end Ccos
