import Mathlib.Tactic
import Ccos.Kernel.Effects
import Ccos.Kernel.Syscalls
import Ccos.RunQueue.Repr

/-!
# The state a run starts from

`BootState` is the kernel inside `threads_init`, after the thread table and the queues are set up
and before `user_main` is created.  `init_cases` reduces a start state to one of these.
-/

namespace Ccos

open Reasoning

/-- A hart is still off, or has run `cpu_init_this_hart` and not entered idle. -/
def CpuBoot (cfg : Config) (k : Nat) (c : Cpu) : Prop :=
  c = {} ∨ (k < cfg.maxHarts ∧ c.online = true ∧ c.hartid = k ∧ c.idleTid = k ∧
    (c.curTf = .null ∨ c.curTf = .bootstrap) ∧ c.sliceLeft = schedSliceTicks)

/-- A thread slot after the loops of `threads_init`. -/
def SlotBoot (cfg : Config) (i : Int) (t : Thread) : Prop :=
  t.id = i ∧ t.state = (if i < cfg.maxHarts then .runnable else .unused) ∧
    t.canBeKilled = false ∧ t.detached = false ∧ t.runningHart = -1 ∧ t.joinWaiter = -1 ∧
    t.waitingFor = -1 ∧ t.pendingReadBuf = 0 ∧ t.pendingReadLen = 0 ∧ t.lastHart = -1

structure BootState (cfg : Config) (s : Kernel) : Prop where
  cpus : ∀ k, CpuBoot cfg k (s.cpus k)
  boot : s.bootHartid < cfg.maxHarts ∧ (s.cpus s.bootHartid).online = true ∧
    (s.cpus s.bootHartid).hartid = s.bootHartid
  slots : ∀ i : Int, 0 ≤ i → i < cfg.threadMax → SlotBoot cfg i (s.threads i)
  outside : ∀ i : Int, ¬ (0 ≤ i ∧ i < cfg.threadMax) → s.threads i = {}
  queues : RqRepr cfg s.rq fun _ => []
  links : LinksIn cfg s.rq
  ssip : ∀ k, s.ssip k = false
  sie : ∀ k, s.sie k = {}
  stdinWaiter : s.stdinWaiter = -1
  rx : s.rx = { buf := fun _ => 0, head := 0, tail := 0 }

variable {cfg : Config} {s s' : Kernel}

/-! ## The harts -/

/-- What `cpu_init_this_hart` calls before `threads_init` keep: only `g_cpus` is written. -/
def EarlyBoot (cfg : Config) (a : BootArgs) (s : Kernel) : Prop :=
  s = { bssKernel a with cpus := s.cpus } ∧ ∀ k, CpuBoot cfg k (s.cpus k)

theorem cpuInit_early {a : BootArgs} {h : Nat} (hs : EarlyBoot cfg a s)
    (hi : cpuInitThisHart cfg s h = .ok s') :
    EarlyBoot cfg a s' ∧ h < cfg.maxHarts ∧ (s'.cpus h).online = true ∧ (s'.cpus h).hartid = h := by
  unfold cpuInitThisHart at hi
  split at hi
  · cases hi
  rename_i hlt
  rw [Except.ok.injEq] at hi
  subst hi
  refine ⟨⟨?_, fun k => ?_⟩, by omega, by simp, by simp⟩
  · conv_lhs => rw [hs.1]
    rfl
  · rw [Kernel.modCpu_cpus]
    by_cases hk : k = h
    · rw [if_pos hk]
      exact .inr ⟨by omega, rfl, hk.symm, congrArg Int.ofNat hk.symm, .inl rfl, rfl⟩
    · rw [if_neg hk]
      exact hs.2 k

theorem early_fold {a : BootArgs} {hs : List Nat}
    (hf : hs.foldlM (cpuInitThisHart cfg) (bssKernel a) = .ok s) : EarlyBoot cfg a s := by
  refine foldlM_keeps (EarlyBoot cfg a) ?_ ⟨rfl, fun _ => .inl rfl⟩ hf
  exact fun h _ s₁ s₂ hearly hi => (cpuInit_early hearly hi).1

/-! ## The queues -/

theorem rqInitAll_queues {r : RunQueues} (k : Nat) :
    (rqInitAll cfg r).queues k =
      if k < cfg.maxHarts then { head := -1, tail := -1, len := 0 } else r.queues k := by
  have hfold : ∀ n, n ≤ cfg.maxHarts →
      ((List.range n).foldl (rqInit cfg) r).queues k =
        if k < n then { head := -1, tail := -1, len := 0 } else r.queues k := by
    intro n
    induction n with
    | zero => intro _; rfl
    | succ n ih =>
      intro hn
      have hnot : ¬ cfg.maxHarts ≤ n := by omega
      rw [List.range_succ, List.foldl_append, List.foldl_cons, List.foldl_nil, rqInit,
        if_neg hnot, RunQueues.modQueue_queues, ih (by omega)]
      by_cases hk : k = n
      · rw [if_pos hk, if_pos (by omega)]
      · rw [if_neg hk]
        have hiff : k < n ↔ k < n + 1 := by omega
        simp only [hiff]
  exact hfold cfg.maxHarts (le_refl _)

theorem rqInitAll_links {r : RunQueues} :
    (rqInitAll cfg r).rqNext = r.rqNext ∧ (rqInitAll cfg r).onRq = r.onRq := by
  unfold rqInitAll
  generalize List.range cfg.maxHarts = hs
  induction hs generalizing r with
  | nil => exact ⟨rfl, rfl⟩
  | cons h hs ih =>
    have hone : (rqInit cfg r h).rqNext = r.rqNext ∧ (rqInit cfg r h).onRq = r.onRq := by
      unfold rqInit
      split <;> exact ⟨rfl, rfl⟩
    rw [List.foldl_cons, ih.1, ih.2, hone.1, hone.2]
    exact ⟨rfl, rfl⟩

theorem rqInitAll_repr {r : RunQueues} (hon : ∀ t, r.onRq t = false) :
    RqRepr cfg (rqInitAll cfg r) fun _ => [] where
  seg h hh := by
    rw [rqInitAll_queues, if_pos hh]
    rfl
  tail h hh := by
    rw [rqInitAll_queues, if_pos hh]
    rfl
  len h hh := by
    rw [rqInitAll_queues, if_pos hh]
    rfl
  range h _ t ht := by cases ht
  nodup h _ := List.nodup_nil
  disjoint h k _ _ t ht := by cases ht
  onRq t := by
    rw [rqInitAll_links.2, hon]
    simp

/-! ## The thread table -/

/-- The thread table between the two loops of `threads_init` and `thread_create_user`. -/
def bootTable (cfg : Config) (a : BootArgs) (i : Int) : Thread :=
  let t : Thread := if 0 ≤ i ∧ i < cfg.threadMax then initThread i {} else {}
  if 0 ≤ i ∧ i < cfg.maxHarts then initIdleThread cfg i a.idleMain a.sstatus t else t

theorem bootTable_slot {a : BootArgs} {i : Int} (h1 : 0 ≤ i) (h2 : i < cfg.threadMax) :
    SlotBoot cfg i (bootTable cfg a i) := by
  have hin : 0 ≤ i ∧ i < (cfg.threadMax : Int) := ⟨h1, h2⟩
  unfold bootTable
  dsimp only
  rw [@if_pos (0 ≤ i ∧ i < (cfg.threadMax : Int)) _ hin]
  by_cases hi : i < cfg.maxHarts
  · rw [if_pos ⟨h1, hi⟩]
    exact ⟨rfl, by simp [hi, initIdleThread], rfl, rfl, rfl, rfl, rfl, rfl, rfl, rfl⟩
  · have hnot : ¬ (0 ≤ i ∧ i < (cfg.maxHarts : Int)) := by omega
    rw [if_neg hnot]
    exact ⟨rfl, by simp [hi, initThread], rfl, rfl, rfl, rfl, rfl, rfl, rfl, rfl⟩

theorem bootTable_outside {a : BootArgs} {i : Int} (hi : ¬ (0 ≤ i ∧ i < cfg.threadMax)) :
    bootTable cfg a i = {} := by
  have hlt := cfg.maxHarts_lt
  have hi' : ¬ (0 ≤ i ∧ i < cfg.maxHarts) := by omega
  unfold bootTable
  simp only [hi, hi', if_false]

theorem threadsInit_cases {a : BootArgs} {h : Nat} (hs : threadsInit cfg s h a = .ok s') :
    ∃ tid, threadCreateUser cfg
      { s with
        ticks := 0
        threads := fun i =>
          let t := if 0 ≤ i ∧ i < cfg.threadMax then initThread i (s.threads i) else s.threads i
          if 0 ≤ i ∧ i < cfg.maxHarts then initIdleThread cfg i a.idleMain a.sstatus t else t
        rq := rqInitAll cfg
          { s.rq with
            rqNext := fun i => if 0 ≤ i ∧ i < cfg.threadMax then -1 else s.rq.rqNext i
            onRq := fun i => if 0 ≤ i ∧ i < cfg.threadMax then false else s.rq.onRq i } }
      h a.userMain 0 (some (.lit "user_main")) a.sstatus = .ok (tid, s') := by
  unfold threadsInit at hs
  simp only [bind_eq_ok] at hs
  obtain ⟨⟨tid, s₁⟩, hcreate, -, -, hs⟩ := hs
  rw [Except.ok.injEq] at hs
  subst hs
  exact ⟨tid, hcreate⟩

/-- The run starts with `user_main`, if there was a slot for it, on the queue of an online hart. -/
theorem init_cases (hs : (kernelSystem cfg).init s) :
    ∃ s₀ s₁ tid entry arg name sstatus, BootState cfg s₀ ∧
      threadCreateUser cfg s₀ s₀.bootHartid entry arg name sstatus = .ok (tid, s₁) ∧
      s = { s₁ with smpBootDone := true } := by
  obtain ⟨a, hs⟩ := hs
  unfold primaryMain at hs
  simp only [bind_eq_ok] at hs
  obtain ⟨s₁, hearly, s₂, hboot, s₃, hinit, hs⟩ := hs
  have he₁ := early_fold hearly
  obtain ⟨he₂, hlt, hon, hid⟩ := cpuInit_early he₁ hboot
  obtain ⟨tid, hcreate⟩ := threadsInit_cases hinit
  rw [Except.ok.injEq] at hs
  have hcpus := he₂.2
  rw [he₂.1] at hcreate
  refine ⟨_, s₃, tid, a.userMain, 0, _, a.sstatus, ?_, hcreate, hs.symm⟩
  refine ⟨fun k => ?_, ⟨hlt, ?_, ?_⟩, fun i h1 h2 => bootTable_slot h1 h2,
    fun i hi => bootTable_outside hi, ?_, ?_, fun _ => rfl, fun _ => rfl, rfl, rfl⟩
  · simp only [Kernel.modCpu_cpus]
    by_cases hk : k = a.bootHart
    · rw [if_pos hk]
      rcases hcpus k with hoff | ⟨h1, h2, h3, h4, -, h6⟩
      · rw [hk] at hoff
        rw [hoff] at hon
        cases hon
      · exact .inr ⟨h1, h2, h3, h4, .inr rfl, h6⟩
    · rw [if_neg hk]
      exact hcpus k
  · exact (congrArg Cpu.online (if_pos rfl)).trans hon
  · exact (congrArg Cpu.hartid (if_pos rfl)).trans hid
  · exact rqInitAll_repr fun t => ite_self _
  · refine ⟨fun k hk => .inl ?_, fun t h1 h2 => .inl ?_⟩
    · rw [rqInitAll_queues, if_pos hk]
      decide
    · rw [rqInitAll_links.1]
      have hin : 0 ≤ t ∧ t < (cfg.threadMax : Int) := ⟨by omega, h2⟩
      simp [hin]

end Ccos
