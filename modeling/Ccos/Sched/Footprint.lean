import Mathlib.Tactic
import Ccos.Kernel.Memory
import Ccos.Sched.Context

/-!
# The memory the kernel writes

User memory has no owner the kernel could check: a system call passes a pointer and the kernel
writes through it, at once or when the call completes much later.  Over a whole run it writes only
inside the buffers that system calls of that run have passed.
-/

namespace Ccos

open Reasoning

/-! ## Buffers -/

/-- A pointer and the number of bytes at it. -/
abbrev Buffer := UInt64 × Nat

def Buffer.Holds (b : Buffer) (x : UInt64) : Prop :=
  (x - b.1).toNat < b.2

instance (b : Buffer) (x : UInt64) : Decidable (b.Holds x) :=
  inferInstanceAs (Decidable (_ < _))

/-- `m'` is `m` outside the buffer. -/
def OnlyIn (b : Buffer) (m m' : Mem) : Prop :=
  ∀ x, ¬ b.Holds x → m' x = m x

namespace OnlyIn

variable {b : Buffer} {m m' m'' : Mem}

theorem refl : OnlyIn b m m := fun _ _ => rfl

theorem trans (h₁ : OnlyIn b m m') (h₂ : OnlyIn b m' m'') : OnlyIn b m m'' :=
  fun x hx => (h₂ x hx).trans (h₁ x hx)

/-- A part of a buffer is inside it, also where the addresses wrap around. -/
theorem sub {p : UInt64} {k n size : Nat} (h : OnlyIn (p + UInt64.ofNat k, n) m m')
    (hk : k + n ≤ size) : OnlyIn (p, size) m m' := by
  intro x hx
  apply h
  intro hin
  apply hx
  unfold Buffer.Holds at hin ⊢
  dsimp only at hin ⊢
  have hsplit : x - p = x - (p + UInt64.ofNat k) + UInt64.ofNat k := by
    rw [UInt64.sub_eq_add_neg, UInt64.sub_eq_add_neg, UInt64.neg_add, UInt64.add_assoc,
      UInt64.sub_add_cancel]
  have hle := Nat.mod_le (k : Nat) (2 ^ 64)
  have hmod := Nat.mod_le ((x - (p + UInt64.ofNat k)).toNat + k % 2 ^ 64) (2 ^ 64)
  rw [hsplit, UInt64.toNat_add, UInt64.toNat_ofNat']
  omega

theorem store {p : UInt64} {bs : List UInt8} {n : Nat} (hn : bs.length ≤ n) :
    OnlyIn (p, n) m (storeBytes m p bs) := by
  intro x hx
  unfold storeBytes
  apply if_neg
  intro hlt
  apply hx
  unfold Buffer.Holds
  dsimp only
  omega

theorem foldl {α : Type} {f : Mem → α → Mem} {xs : List α}
    (hf : ∀ x ∈ xs, ∀ m, OnlyIn b m (f m x)) : OnlyIn b m (xs.foldl f m) := by
  induction xs generalizing m with
  | nil => exact refl
  | cons x xs ih =>
    rw [List.foldl_cons]
    exact (hf x List.mem_cons_self m).trans
      (ih fun y hy => hf y (List.mem_cons_of_mem x hy))

end OnlyIn

theorem length_intBytes (v : Int) : (intBytes v).length = 4 :=
  length_leBytes 4 _

theorem length_cstring (m : Mem) (p : UInt64) (n : Nat) : (cstring m p n).length ≤ n := by
  induction n generalizing p with
  | zero => exact Nat.le_refl 0
  | succ n ih =>
    unfold cstring
    split
    · exact Nat.zero_le _
    · have hlen := ih (p + 1)
      rw [List.length_cons]
      omega

theorem length_nameBytes (m : Mem) (max : Nat) (name : Option ThreadName) :
    (nameBytes m max name).length ≤ max := by
  unfold nameBytes
  split
  · exact Nat.zero_le _
  · rw [List.length_take]
    exact Nat.min_le_left _ _
  · exact length_cstring m _ max

/-! ## What each report writes -/

theorem storeThreadInfo_onlyIn (m : Mem) (dst : UInt64) (t : Thread) :
    OnlyIn (dst, 72) m (storeThreadInfo m dst t) := by
  have hat : ∀ (m : Mem) (k : Nat) (bs : List UInt8), k + bs.length ≤ 72 →
      OnlyIn (dst, 72) m (storeBytes m (dst + UInt64.ofNat k) bs) :=
    fun m k bs hk => OnlyIn.sub (OnlyIn.store (Nat.le_refl _)) hk
  unfold storeThreadInfo
  dsimp only
  refine OnlyIn.trans (OnlyIn.trans (OnlyIn.trans ?_ (hat _ 48 _ ?_)) (hat _ 64 _ ?_))
    (hat _ 16 _ ?_)
  · apply OnlyIn.store
    simp only [List.length_append, length_intBytes]
    omega
  · simp only [List.length_append, length_intBytes, length_leBytes]
    omega
  · rw [length_leBytes]
  · have hname := @length_nameBytes
    rw [List.length_append, List.length_singleton]
    exact Nat.add_le_add_left (Nat.add_le_add_right (hname _ 31 _) 1) 16 |>.trans (by omega)

theorem threadSysList_onlyIn (cfg : Config) (s : Kernel) (ubuf : UInt64) (max : Int) :
    OnlyIn (ubuf, 72 * max.toNat) s.mem (threadSysList cfg s ubuf max).2.mem := by
  unfold threadSysList
  split
  · exact OnlyIn.refl
  · apply OnlyIn.foldl
    rintro ⟨i, k⟩ hmem m
    have hk := (List.mem_zipIdx hmem).2.1
    rw [List.length_take] at hk
    apply OnlyIn.sub (storeThreadInfo_onlyIn m _ _)
    omega

theorem copyToUserTimespec_onlyIn (s : Kernel) (uts : UInt64) (ts : UInt64 × UInt32) :
    OnlyIn (uts, 12) s.mem (copyToUserTimespec s uts ts).2.mem := by
  unfold copyToUserTimespec
  split
  · exact OnlyIn.refl
  · apply OnlyIn.store
    rw [List.length_append, length_leBytes, length_leBytes]

theorem storeIrqStat_onlyIn (m : Mem) (dst : UInt64) (stack : Nat → UInt8) (irq : Nat)
    (l : IrqLine) : OnlyIn (dst, 56) m (storeIrqStat m dst stack irq l) := by
  have hname := length_nameBytes m 15 (l.name.map .lit)
  apply OnlyIn.store
  simp only [List.length_append, List.length_map, List.length_range', length_leBytes,
    List.length_singleton]
  omega

theorem sysIrqGetStats_onlyIn (s : Kernel) (stack : Nat → Nat → UInt8) (ubuf n : UInt64) :
    OnlyIn (ubuf, 56 * n.toNat) s.mem (sysIrqGetStats s stack ubuf n).2.mem := by
  unfold sysIrqGetStats
  split
  · exact OnlyIn.refl
  · apply OnlyIn.foldl
    intro i hi m
    rw [List.mem_range] at hi
    apply OnlyIn.sub (storeIrqStat_onlyIn m _ _ _ _)
    omega

theorem length_rqWalk (r : RunQueues) (n : Nat) (cur : Int) : (rqWalk r n cur).length ≤ n := by
  induction n generalizing cur with
  | zero => exact Nat.le_refl 0
  | succ n ih =>
    unfold rqWalk
    split
    · exact Nat.zero_le _
    · have hlen := ih (r.rqNext cur)
      rw [List.length_cons]
      omega

theorem length_rqSnapshot (cfg : Config) (r : RunQueues) (h max : Nat) :
    (rqSnapshot cfg r h max).2.length ≤ max := by
  have hwalk := length_rqWalk r max (r.queues h).head
  unfold rqSnapshot
  split_ifs with h1 h2
  · exact Nat.zero_le _
  · exact Nat.zero_le _
  · dsimp only
    split_ifs with h3
    · rw [List.length_append, List.length_singleton]
      omega
    · exact hwalk

theorem length_rqStateBytes (cfg : Config) (s : Kernel) (h : Nat) :
    (rqStateBytes cfg s h).length = 8 + 4 * cfg.threadMax := by
  have hlen := length_rqSnapshot cfg s.rq h cfg.threadMax
  have hints : ∀ l : List Int, (l.flatMap intBytes).length = 4 * l.length := by
    intro l
    induction l with
    | nil => rfl
    | cons v l ih =>
      rw [List.flatMap_cons, List.length_append, length_intBytes, ih, List.length_cons]
      omega
  unfold rqStateBytes
  dsimp only
  rw [List.length_append, List.length_append, length_leBytes, length_leBytes, hints,
    List.length_append, List.length_replicate]
  omega

theorem sysRunqueueSnapshot_onlyIn (cfg : Config) (s : Kernel) (ubuf n : UInt64) :
    OnlyIn (ubuf, (8 + 4 * cfg.threadMax) * n.toNat) s.mem
      (sysRunqueueSnapshot cfg s ubuf n).2.mem := by
  unfold sysRunqueueSnapshot
  split
  · exact OnlyIn.refl
  · apply OnlyIn.foldl
    rintro ⟨h, k⟩ hmem m
    have hk := (List.mem_zipIdx hmem).2.1
    rw [List.length_take] at hk
    have hsize : (8 + 4 * cfg.threadMax) * k + (8 + 4 * cfg.threadMax) ≤
        (8 + 4 * cfg.threadMax) * n.toNat := by
      rw [← Nat.mul_succ]
      apply Nat.mul_le_mul_left
      omega
    apply OnlyIn.sub (OnlyIn.store (Nat.le_refl _))
    rw [length_rqStateBytes]
    exact hsize

/-! ## Console reads -/

theorem consoleReadLoop_onlyIn (buf : UInt64) (k n : Nat) (m : Mem) (r : RxRing) :
    OnlyIn (buf, n + k) m (consoleReadLoop buf k n m r).2.1 := by
  induction k generalizing n m r with
  | zero => exact OnlyIn.refl
  | succ k ih =>
    unfold consoleReadLoop
    split
    · exact OnlyIn.refl
    · have hrest := ih (n + 1) (fun a => if a = buf + UInt64.ofNat n then r.buf r.tail else m a)
        { r with tail := (r.tail + 1) % consoleRbufSize }
      rw [Nat.add_right_comm] at hrest
      refine OnlyIn.trans ?_ hrest
      -- one byte at `buf + n`
      have hbyte : (fun a => if a = buf + UInt64.ofNat n then r.buf r.tail else m a) =
          storeBytes m (buf + UInt64.ofNat n) [r.buf r.tail] := by
        funext x
        unfold storeBytes
        have hiff : x = buf + UInt64.ofNat n ↔
            (x - (buf + UInt64.ofNat n)).toNat < [r.buf r.tail].length := by
          rw [List.length_singleton, Nat.lt_one_iff]
          constructor
          · rintro rfl
            rw [UInt64.sub_self]
            rfl
          · intro hz
            have hzero : x - (buf + UInt64.ofNat n) = 0 := UInt64.toNat_inj.mp hz
            rw [UInt64.sub_eq_iff_eq_add, UInt64.zero_add] at hzero
            exact hzero
        by_cases hx : x = buf + UInt64.ofNat n
        · rw [if_pos hx, if_pos (hiff.mp hx), hx, UInt64.sub_self]
          rfl
        · rw [if_neg hx, if_neg fun hlt => hx (hiff.mpr hlt)]
      rw [hbyte]
      exact OnlyIn.sub (OnlyIn.store (Nat.le_refl _)) (by rw [List.length_singleton]; omega)

theorem drained_onlyIn (s : Kernel) (buf len : UInt64) :
    OnlyIn (buf, len.toNat) s.mem (drained s buf len).mem := by
  have hloop := consoleReadLoop_onlyIn buf len.toNat 0 s.mem s.rx
  rw [Nat.zero_add] at hloop
  exact hloop

/-! ## The buffers of a run -/

/-- The buffers a system call passes to the kernel. -/
def Action.buffers (cfg : Config) : Action → List Buffer
  | .join _ p => [(p, 4)]
  | .read _ buf len => [(buf, len.toNat)]
  | .query (.threadList ubuf max) _ => [(ubuf, 72 * max.toNat)]
  | .query (.clockGettime _ uts) _ => [(uts, 12)]
  | .query (.irqGetStats ubuf n) _ => [(ubuf, 56 * n.toNat)]
  | .query (.runqueueSnapshot ubuf n) _ => [(ubuf, (8 + 4 * cfg.threadMax) * n.toNat)]
  | _ => []

def Event.buffers (cfg : Config) : Event → List Buffer
  | .trap _ regs io => (trapAction cfg regs io).buffers cfg
  | _ => []

variable {cfg : Config} {s s' : Kernel} {h : Nat} {G : Buffer → Prop}

/-- The pointers the kernel has kept for later are among the buffers in `G`. -/
def Kept (G : Buffer → Prop) (s : Kernel) : Prop :=
  ∀ t, ((s.threads t).joinStatusPtr ≠ 0 → G ((s.threads t).joinStatusPtr, 4)) ∧
    ((s.threads t).pendingReadLen ≠ 0 →
      G ((s.threads t).pendingReadBuf, (s.threads t).pendingReadLen.toNat))

/-- No byte outside the buffers in `G` is written. -/
def WritesIn (G : Buffer → Prop) (m m' : Mem) : Prop :=
  ∀ x, (∀ b, G b → ¬ b.Holds x) → m' x = m x

theorem OnlyIn.writesIn {b : Buffer} {m m' : Mem} (ho : OnlyIn b m m') (hb : G b) :
    WritesIn G m m' :=
  fun x hx => ho x (hx b hb)

/-- A report goes to the buffer of its system call. -/
theorem runQuery_writesIn (io : TrapInput) (call : Syscall)
    (hG : ∀ b ∈ (Action.query call io).buffers cfg, G b) :
    WritesIn G s.mem (runQuery cfg s h io call).2.mem := by
  cases call with
  | threadList ubuf max =>
    exact (threadSysList_onlyIn cfg s ubuf max).writesIn (hG _ List.mem_cons_self)
  | clockGettime id uts =>
    refine OnlyIn.writesIn (b := (uts, 12)) ?_ (hG _ List.mem_cons_self)
    show OnlyIn _ _ (sysClockGettime s io.time id uts).2.mem
    unfold sysClockGettime
    split_ifs
    · exact copyToUserTimespec_onlyIn s uts _
    · exact copyToUserTimespec_onlyIn s uts _
    · exact OnlyIn.refl
  | irqGetStats ubuf n =>
    exact (sysIrqGetStats_onlyIn s io.stack ubuf n).writesIn (hG _ List.mem_cons_self)
  | runqueueSnapshot ubuf n =>
    exact (sysRunqueueSnapshot_onlyIn cfg s ubuf n).writesIn (hG _ List.mem_cons_self)
  | _ => exact fun _ _ => rfl

theorem Write.keeps_buffers {s₀ : Kernel} {a : Action} (hw : Write cfg s₀ h a s s')
    (hG : ∀ b ∈ a.buffers cfg, G b) (hk : Kept G s) :
    Kept G s' ∧ WritesIn G s.mem s'.mem := by
  have hmod : ∀ (t : Int) (f : Thread → Thread),
      (((f (s.threads t)).joinStatusPtr ≠ 0 → G ((f (s.threads t)).joinStatusPtr, 4)) ∧
        ((f (s.threads t)).pendingReadLen ≠ 0 →
          G ((f (s.threads t)).pendingReadBuf, (f (s.threads t)).pendingReadLen.toNat))) →
      Kept G (s.modThread t f) ∧ WritesIn G s.mem (s.modThread t f).mem := by
    intro t f hf
    refine ⟨fun u => ?_, fun _ _ => rfl⟩
    rw [Kernel.modThread_threads]
    by_cases hu : u = t
    · rw [if_pos hu, hu]
      exact hf
    · rw [if_neg hu]
      exact hk u
  -- the pointers of the thread stay
  have hsame : ∀ (t : Int) (f : Thread → Thread), SameBuffers (s.threads t) (f (s.threads t)) →
      Kept G (s.modThread t f) ∧ WritesIn G s.mem (s.modThread t f).mem := by
    intro t f hf
    apply hmod
    rw [hf.1, hf.2.1, hf.2.2]
    exact hk t
  have hstatus : ∀ (p : UInt64) (v : Int), (p ≠ 0 → G (p, 4)) →
      Kept G (storeStatus s p v) ∧ WritesIn G s.mem (storeStatus s p v).mem := by
    intro p v hp
    unfold storeStatus
    split
    · rename_i hne
      have hbytes : OnlyIn (p, 4) s.mem (storeBytes s.mem p (intBytes v)) :=
        OnlyIn.store (by rw [length_intBytes])
      exact ⟨hk, hbytes.writesIn (hp hne)⟩
    · exact ⟨hk, fun _ _ => rfl⟩
  cases hw with
  | other hth hm _ =>
    unfold Kept
    rw [hth, hm]
    exact ⟨hk, fun _ _ => rfl⟩
  | thread t f hf => exact hsame t f hf.2.1
  | setA0 t v _ => exact hsame t _ ⟨rfl, rfl, rfl⟩
  | clearWait w => exact hmod w _ ⟨fun hne => absurd rfl hne, (hk w).2⟩
  | die t f _ hf => exact hsame t f hf.2
  | recycle t _ => exact hmod t _ ⟨fun hne => absurd rfl hne, (hk t).2⟩
  | create t stack entry arg name sstatus _ => exact hsame t _ ⟨rfl, rfl, rfl⟩
  | wait t p ha =>
    refine hmod _ _ ⟨fun _ => hG _ ?_, (hk _).2⟩
    rw [ha]
    exact List.mem_cons_self
  | pend buf len ha =>
    refine hmod _ _ ⟨(hk _).1, fun _ => hG _ ?_⟩
    rw [ha]
    exact List.mem_cons_self
  | status t p v ha =>
    refine hstatus p v fun _ => hG _ ?_
    rw [ha]
    exact List.mem_cons_self
  | deliver w v => exact hstatus _ v (hk w).1
  | take buf len ha =>
    refine ⟨hk, (drained_onlyIn s buf len).writesIn (hG _ ?_)⟩
    rw [ha]
    exact List.mem_cons_self
  | feed =>
    have hread := drained_onlyIn s (s.threads s.stdinWaiter).pendingReadBuf
      (s.threads s.stdinWaiter).pendingReadLen
    refine ⟨hk, ?_⟩
    by_cases hlen : (s.threads s.stdinWaiter).pendingReadLen = 0
    · -- a read of no bytes writes nothing
      intro x _
      apply hread
      unfold Buffer.Holds
      rw [hlen]
      exact Nat.not_lt_zero _
    · exact hread.writesIn ((hk s.stdinWaiter).2 hlen)
  | served v claims _ => exact hmod _ _ ⟨(hk _).1, fun hne => absurd rfl hne⟩
  | query call io ha =>
    have hmem := runQuery_writesIn (s := s) (h := h) io call (ha ▸ hG)
    refine ⟨?_, hmem⟩
    rw [runQuery_mem]
    exact hk

/-! ## Whole runs -/

theorem Kept.mono {G' : Buffer → Prop} (hk : Kept G s) (hsub : ∀ b, G b → G' b) : Kept G' s :=
  fun t => ⟨fun hne => hsub _ ((hk t).1 hne), fun hne => hsub _ ((hk t).2 hne)⟩

theorem Writes.keeps_buffers {s₀ : Kernel} {a : Action} (hw : Writes cfg s₀ h a s s')
    (hG : ∀ b ∈ a.buffers cfg, G b) (hk : Kept G s) :
    Kept G s' ∧ WritesIn G s.mem s'.mem := by
  induction hw with
  | refl => exact ⟨hk, fun _ _ => rfl⟩
  | tail _ hlast ih =>
    obtain ⟨hk₁, hm₁⟩ := ih
    obtain ⟨hk₂, hm₂⟩ := hlast.keeps_buffers hG hk₁
    exact ⟨hk₂, fun x hx => (hm₂ x hx).trans (hm₁ x hx)⟩

theorem bootTable_buffers (a : BootArgs) (i : Int) : (bootTable cfg a i).joinStatusPtr = 0 ∧
    (bootTable cfg a i).pendingReadLen = 0 := by
  unfold bootTable
  dsimp only
  split_ifs <;> exact ⟨rfl, rfl⟩

/-- At boot no thread has passed a pointer. -/
theorem kept_init (hs : (kernelSystem cfg).init s) : Kept G s := by
  obtain ⟨a, hs⟩ := hs
  unfold primaryMain at hs
  simp only [bind_eq_ok] at hs
  obtain ⟨s₁, hearly, s₂, hboot, s₃, hinit, hs⟩ := hs
  have he₂ := (cpuInit_early (early_fold hearly) hboot).1
  obtain ⟨tid, hcreate⟩ := threadsInit_cases hinit
  rw [Except.ok.injEq] at hs
  subst hs
  have hzero : ∀ k : Kernel, (∀ i, (k.threads i).joinStatusPtr = 0 ∧
      (k.threads i).pendingReadLen = 0) → Kept G k :=
    fun k hz i => ⟨fun hne => absurd (hz i).1 hne, fun hne => absurd (hz i).2 hne⟩
  rw [he₂.1] at hcreate
  rcases threadCreateUser_cases hcreate with ⟨-, rfl⟩ | ⟨-, -, hu, hmake⟩
  · exact hzero _ (bootTable_buffers a)
  · have hwake : Writes cfg s₃ a.bootHart .ipi _ s₃ := Writes.makeRunnable hmake
    have hw := (Writes.one (.create _ tid _ _ _ _ _ hu)).trans hwake
    exact (Writes.keeps_buffers hw nofun (hzero _ (bootTable_buffers a))).1

/-- The buffers that the steps of a run have passed. -/
def Passed (cfg : Config) (tr : List (Kernel × Event)) (b : Buffer) : Prop :=
  ∃ q ∈ tr, b ∈ q.2.buffers cfg

theorem Passed.cons {tr : List (Kernel × Event)} {q : Kernel × Event} {b : Buffer}
    (hb : Passed cfg tr b) : Passed cfg (q :: tr) b := by
  obtain ⟨p, hp, hbuf⟩ := hb
  exact ⟨p, List.mem_cons_of_mem q hp, hbuf⟩

theorem kept_step {e : Event} (hb : Basic cfg s) (hg : Allowed cfg s e)
    (hs : step cfg s e = .ok s') (hG : ∀ b ∈ e.buffers cfg, G b) (hk : Kept G s) :
    Kept G s' ∧ WritesIn G s.mem s'.mem := by
  cases e with
  | cpuInit k =>
    obtain ⟨-, c, -, -, -, -, -, rfl⟩ := cpuInit_cases hs
    exact ⟨hk, fun _ _ => rfl⟩
  | enterIdle k =>
    obtain ⟨-, -, -, -, -, -, hm, -, -, -, hth, -⟩ := enterIdle_cases hs
    rw [hm]
    refine ⟨fun t => ?_, fun _ _ => rfl⟩
    rw [hth]
    by_cases ht : t = k
    · rw [if_pos ht]
      exact hk t
    · rw [if_neg ht]
      exact hk t
  | trap h regs io =>
    have hsaved : Kept G (saveRegs s h regs) := by
      intro t
      unfold saveRegs
      rw [Kernel.modThread_threads]
      by_cases ht : t = (s.cpus h).currentTid
      · rw [if_pos ht]
        exact hk t
      · rw [if_neg ht]
        exact hk t
    exact (trap_writes hb hg hs).keeps_buffers hG hsaved

/-- Every byte that differs from what it was earlier in the run lies in a buffer that a system call
of the run has passed. -/
theorem kernel_writes_passed_buffers {tr : List (Kernel × Event)}
    (hr : Run (kernelSystem cfg) tr s) {q : Kernel × Event} (hq : q ∈ tr) {x : UInt64}
    (hx : s.mem x ≠ q.1.mem x) : ∃ b, Passed cfg tr b ∧ b.Holds x := by
  have hall : Kept (Passed cfg tr) s ∧ ∀ q ∈ tr, WritesIn (Passed cfg tr) q.1.mem s.mem := by
    clear hx hq
    induction hr with
    | start hi => exact ⟨kept_init hi, fun q hq => by cases hq⟩
    | @step tr s s' e hrun hg hs ih =>
      obtain ⟨hk, hpast⟩ := ih
      have hb := basic_reachable ⟨tr, hrun⟩
      have hG : ∀ b ∈ e.buffers cfg, Passed cfg ((s, e) :: tr) b :=
        fun b hb => ⟨(s, e), List.mem_cons_self, hb⟩
      obtain ⟨hk', hm⟩ := kept_step hb hg hs hG (hk.mono fun b hb => hb.cons)
      refine ⟨hk', fun q hq => ?_⟩
      rcases List.mem_cons.mp hq with rfl | hq
      · exact hm
      · intro x hx
        rw [hm x hx]
        exact hpast q hq x fun b hb => hx b hb.cons
  by_contra hno
  refine hx (hall.2 q hq x fun b hb hin => hno ⟨b, hb, hin⟩)

/-- A character arrives for the read that `user_main` blocked in earlier. -/
theorem kernel_writes_passed_buffers_example : ∃ tr s s',
    Run (kernelSystem oneHart) ((s, uartIrq 0 [65]) :: tr) s' ∧ s.mem 0x5000 = 0 ∧
    s'.mem 0x5000 = 65 ∧
    ∃ b, Passed oneHart ((s, uartIrq 0 [65]) :: tr) b ∧ b.Holds 0x5000 := by
  obtain ⟨s, hr, hs⟩ := exists_reachable oneHart anyStep bootOnHart0
    (startMain ++ [sysReadStdin 0 0x5000 8])
    (fun s => decide (s.mem 0x5000 = 0) &&
      stepTo oneHart s (uartIrq 0 [65]) fun s' => decide (s'.mem 0x5000 = 65))
    (by decide +kernel)
  simp only [Bool.and_eq_true, decide_eq_true_eq] at hs
  obtain ⟨hold, hstep⟩ := hs
  obtain ⟨s', hg, hs', hnew⟩ := exists_step hstep
  have hnew' := of_decide_eq_true hnew
  obtain ⟨tr, hrun⟩ := hr.unrestrict
  have hrun' := hrun.step (e := uartIrq 0 [65]) hg hs'
  refine ⟨tr, s, s', hrun', hold, hnew', ?_⟩
  apply kernel_writes_passed_buffers hrun' List.mem_cons_self
  rw [hnew', hold]
  decide

end Ccos
