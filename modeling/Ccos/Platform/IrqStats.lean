import Mathlib.Tactic
import Mathlib.Data.List.TakeWhile
import Ccos.Console.Devices
import Ccos.Kernel.Trace
import Ccos.Platform.IrqRecord

/-!
# Interrupt accounting over runs

Only external interrupts touch the irq statistics and the PLIC.  The statistics of a line are the
fold of `IrqLine.record` over the times the PLIC handed its irq out at, in all external interrupts
of the run; whether they are the figures one wants is a question about that fold.
-/

namespace Ccos

open Reasoning

variable {cfg : Config} {s s' s'' : Kernel} {h : Nat} {cur : Int}

/-! ## The report -/

/-- `platform_irq_stat_t` -/
structure PlatformIrqStat where
  irq : UInt32
  count : UInt64
  firstTick : UInt64
  lastTick : UInt64
  maxDelta : UInt64
  name : Option String

/-- The entries `platform_irq_get_stats` writes to `out`; it returns their number. -/
def platformIrqGetStats (s : Kernel) (out : UInt64) (max : Nat) : List PlatformIrqStat :=
  if out = 0 then []
  else
    (List.range (if max < maxIrq then max else maxIrq)).map fun i =>
      { irq := UInt32.ofNat i
        count := (s.irqs i).count
        firstTick := (s.irqs i).firstTick
        lastTick := (s.irqs i).lastTick
        maxDelta := (s.irqs i).maxDelta
        name := (s.irqs i).name }

/-! ## Everything but an external interrupt -/

/-- Statistics and PLIC are as before. -/
def IrqKept (s s' : Kernel) : Prop :=
  s'.irqs = s.irqs ∧ s'.plicOps = s.plicOps

theorem IrqKept.trans (h₁ : IrqKept s s') (h₂ : IrqKept s' s'') : IrqKept s s'' :=
  ⟨h₂.1.trans h₁.1, h₂.2.trans h₁.2⟩

theorem SchedOnly.irqKept (ho : SchedOnly s s') : IrqKept s s' :=
  ⟨ho.irqs, by rw [ho]⟩

theorem recycleThread_irqKept (t : Int) : IrqKept s (recycleThread cfg s t) := by
  by_cases hr : t ≤ 0 ∨ (cfg.threadMax : Int) ≤ t
  · unfold recycleThread
    rw [if_pos hr]
    exact ⟨rfl, rfl⟩
  · rw [recycleThread_eq (by omega) (by omega)]
    exact ⟨rfl, rfl⟩

theorem irqFrame : Frame cfg (fun _ => True) IrqKept where
  trans h₁ h₂ := h₁.trans h₂
  sched ho := ho.irqKept
  setMem _ _ := ⟨rfl, rfl⟩
  recycle _ t _ := recycleThread_irqKept t

theorem clocked_irqKept (a : Action) : IrqKept s (clocked s h a) := by
  cases a with
  | timer =>
    rw [clocked]
    split <;> exact ⟨rfl, rfl⟩
  | _ => exact ⟨rfl, rfl⟩

theorem runAction_irqKept {a : Action} (ha : ∀ claims, a ≠ .external claims)
    (hs : runAction cfg s h cur a = .ok s') : IrqKept s s' := by
  by_cases huse : a.usesConsole = false
  · exact (clocked_irqKept a).trans (irqFrame.runAction huse (fun _ _ => trivial) hs)
  cases a with
  | external claims => exact absurd rfl (ha claims)
  | read fd buf len =>
    rcases sysRead_cases hs with ⟨v, rfl, -⟩ | ⟨-, -, rfl⟩ | ⟨-, -, hsch⟩
    · exact ⟨rfl, rfl⟩
    · exact ⟨rfl, rfl⟩
    · have hk : IrqKept s (blockCur (drained s buf len) h buf len) := ⟨rfl, rfl⟩
      exact hk.trans (irqFrame.schedule trivial hsch)
  | _ => exact absurd rfl huse

/-! ## An external interrupt -/

theorem threadWake_irqKept {t : Int} (hs : threadWake cfg s h t = .ok s') : IrqKept s s' :=
  (threadWake_schedOnly hs).irqKept

theorem uart_irqKept {rx : List UInt8} (hs : uart16550IrqHandler cfg s h rx = .ok s') :
    IrqKept s s' := by
  refine foldlM_keeps (IrqKept s) ?_ ⟨rfl, rfl⟩ hs
  intro ch _ s₁ s₂ hk hchar
  refine hk.trans ?_
  rcases consoleOnCharFromIrq_cases hchar with ⟨-, rfl⟩ | ⟨-, s₃, hread, rfl⟩
  · exact ⟨rfl, rfl⟩
  · rcases threadReadFromStdin_cases hread with ⟨-, hwake⟩ | ⟨-, ⟨-, rfl⟩ | ⟨-, hwake⟩⟩
    · have hw := threadWake_irqKept hwake
      exact hw
    · exact ⟨rfl, rfl⟩
    · have hw := threadWake_irqKept hwake
      exact hw

/-- The statistics after one claim. -/
def recordClaim (irqs : Nat → IrqLine) (c : PlicClaim) : Nat → IrqLine := fun i =>
  if i = c.irq ∧ c.irq < maxIrq then (irqs i).record c.now else irqs i

theorem plicRound_books {c : PlicClaim} (hs : plicRound cfg h s c = .ok s') :
    s'.irqs = recordClaim s.irqs c ∧ s'.plicOps = s.plicOps ++ [.claim c.irq, .complete c.irq] := by
  have hround : ∀ s₁ : Kernel, s₁.plicOps = s.plicOps ++ [.claim c.irq] →
      s₁.irqs = recordClaim s.irqs c →
      (uart16550IrqHandler cfg s₁ h (claimRx s₁ c) >>= fun s =>
        .ok { s with plicOps := s.plicOps ++ [.complete c.irq] }) = .ok s' →
      s'.irqs = recordClaim s.irqs c ∧
        s'.plicOps = s.plicOps ++ [.claim c.irq, .complete c.irq] := by
    intro s₁ hops hirqs hs
    rw [bind_eq_ok] at hs
    obtain ⟨s₂, huart, hs⟩ := hs
    have hk := uart_irqKept huart
    cases hs
    refine ⟨hk.1.trans hirqs, ?_⟩
    show s₂.plicOps ++ _ = _
    rw [hk.2, hops, List.append_assoc]
    rfl
  unfold plicRound at hs
  dsimp only at hs
  split at hs
  · rename_i hlt
    refine hround _ rfl ?_ hs
    funext i
    simp only [recordClaim, hlt, and_true]
  · rename_i hge
    refine hround _ rfl ?_ hs
    funext i
    simp only [recordClaim, hge, and_false, if_false]

/-- The claims an external interrupt handles. -/
def handled (claims : List PlicClaim) : List PlicClaim :=
  claims.takeWhile fun c => c.irq ≠ 0

/-- Its traffic with the PLIC: every claim is completed before the next, and the last returns 0. -/
def handledOps (claims : List PlicClaim) : List PlicOp :=
  (handled claims).flatMap (fun c => [.claim c.irq, .complete c.irq]) ++ [.claim 0]

theorem platformHandleSExternal_books {claims : List PlicClaim}
    (hs : platformHandleSExternal cfg s h claims = .ok s') :
    s'.irqs = (handled claims).foldl recordClaim s.irqs ∧
      s'.plicOps = s.plicOps ++ handledOps claims := by
  have hfold : ∀ (cs : List PlicClaim) (s s' : Kernel), cs.foldlM (plicRound cfg h) s = .ok s' →
      s'.irqs = cs.foldl recordClaim s.irqs ∧
        s'.plicOps = s.plicOps ++ cs.flatMap fun c => [.claim c.irq, .complete c.irq] := by
    intro cs
    induction cs with
    | nil =>
      intro s s' hs
      rw [List.foldlM_nil, pure_eq_ok] at hs
      subst hs
      exact ⟨rfl, (List.append_nil _).symm⟩
    | cons c cs ih =>
      intro s s' hs
      rw [List.foldlM_cons, bind_eq_ok] at hs
      obtain ⟨s₁, hround, hs⟩ := hs
      obtain ⟨hirqs, hops⟩ := plicRound_books hround
      obtain ⟨hirqs', hops'⟩ := ih _ _ hs
      rw [hirqs', hops', hirqs, hops, List.foldl_cons, List.flatMap_cons, List.append_assoc]
      exact ⟨rfl, rfl⟩
  unfold platformHandleSExternal at hs
  rw [bind_eq_ok] at hs
  obtain ⟨s₁, hloop, hs⟩ := hs
  obtain ⟨hirqs, hops⟩ := hfold _ _ _ hloop
  cases hs
  refine ⟨hirqs, ?_⟩
  show s₁.plicOps ++ _ = _
  rw [hops, List.append_assoc]
  rfl

/-! ## It always returns -/

theorem threadMakeRunnable_returns (t : Int) (p : Nat) :
    ∃ s', threadMakeRunnable cfg s h t p = .ok s' := by
  unfold threadMakeRunnable
  split_ifs with hrange hidle hon
  · exact ⟨_, rfl⟩
  · exact ⟨_, rfl⟩
  · exact ⟨_, rfl⟩
  · -- a thread that is on no queue can be pushed
    have hpush : ∃ rq, rqPushTail cfg s.rq (schedPickTargetHart cfg s p) t = .ok rq := by
      unfold rqPushTail
      rw [if_neg hrange, if_neg hidle, if_neg (fun hq => hon (.inl hq))]
      split
      · exact ⟨_, rfl⟩
      · exact ⟨_, rfl⟩
    obtain ⟨rq, hpush⟩ := hpush
    dsimp only
    rw [Kernel.modThread_rq, hpush, ok_bind]
    split
    · exact ⟨_, rfl⟩
    · exact ⟨_, rfl⟩

theorem threadWake_returns (t : Int) : ∃ s', threadWake cfg s h t = .ok s' := by
  unfold threadWake
  split_ifs
  · exact ⟨_, rfl⟩
  · exact threadMakeRunnable_returns t _
  · exact ⟨_, rfl⟩

theorem consoleOnCharFromIrq_returns (ch : UInt8) :
    ∃ s', consoleOnCharFromIrq cfg s h ch = .ok s' := by
  have hread : ∀ s : Kernel, ∃ s', threadReadFromStdin cfg s h = .ok s' := by
    intro s
    unfold threadReadFromStdin
    dsimp only
    split_ifs
    · exact threadWake_returns _
    · exact ⟨_, rfl⟩
    · exact threadWake_returns _
  unfold consoleOnCharFromIrq
  dsimp only
  split_ifs
  · exact ⟨_, rfl⟩
  · obtain ⟨s₁, hs₁⟩ := hread { s with rx := s.rx.put ch }
    rw [hs₁]
    exact ⟨_, rfl⟩

theorem foldlM_returns {ε σ α : Type} {f : σ → α → Except ε σ} (hf : ∀ s a, ∃ s', f s a = .ok s')
    (xs : List α) (s : σ) : ∃ s', xs.foldlM f s = .ok s' := by
  induction xs generalizing s with
  | nil => exact ⟨s, rfl⟩
  | cons a xs ih =>
    obtain ⟨s₁, hs₁⟩ := hf s a
    rw [List.foldlM_cons, hs₁]
    exact ih s₁

theorem platformHandleSExternal_returns (claims : List PlicClaim) :
    ∃ s', platformHandleSExternal cfg s h claims = .ok s' := by
  have huart : ∀ (s : Kernel) (rx : List UInt8), ∃ s', uart16550IrqHandler cfg s h rx = .ok s' :=
    fun s rx => foldlM_returns (fun _ _ => consoleOnCharFromIrq_returns _) rx s
  have hround : ∀ (s : Kernel) (c : PlicClaim), ∃ s', plicRound cfg h s c = .ok s' := by
    intro s c
    unfold plicRound
    dsimp only
    split
    · obtain ⟨s₁, hs₁⟩ := huart _ _
      rw [hs₁]
      exact ⟨_, rfl⟩
    · obtain ⟨s₁, hs₁⟩ := huart _ _
      rw [hs₁]
      exact ⟨_, rfl⟩
  unfold platformHandleSExternal
  obtain ⟨s₁, hs₁⟩ := foldlM_returns hround (claims.takeWhile fun c => c.irq ≠ 0) s
  rw [hs₁]
  exact ⟨_, rfl⟩

/-! ## Runs -/

/-- The irqs an action claims, and its traffic with the PLIC. -/
def Action.claims : Action → List PlicClaim
  | .external claims => handled claims
  | _ => []

def Action.plicOps : Action → List PlicOp
  | .external claims => handledOps claims
  | _ => []

def stepClaims (cfg : Config) : Event → List PlicClaim
  | .trap _ regs io => (trapAction cfg regs io).claims
  | _ => []

def stepOps (cfg : Config) : Event → List PlicOp
  | .trap _ regs io => (trapAction cfg regs io).plicOps
  | _ => []

/-- The same for a whole run, oldest first. -/
def runClaims (cfg : Config) : List (Kernel × Event) → List PlicClaim
  | [] => []
  | (_, e) :: tr => runClaims cfg tr ++ stepClaims cfg e

def runOps (cfg : Config) : List (Kernel × Event) → List PlicOp
  | [] => []
  | (_, e) :: tr => runOps cfg tr ++ stepOps cfg e

/-- The times an irq was claimed at. -/
def irqTimes (irq : Nat) (claims : List PlicClaim) : List UInt64 :=
  (claims.filter fun c => c.irq = irq).map PlicClaim.now

theorem foldl_recordClaim (irqs : Nat → IrqLine) (claims : List PlicClaim) {i : Nat}
    (hi : i < maxIrq) :
    claims.foldl recordClaim irqs i = (irqTimes i claims).foldl IrqLine.record (irqs i) := by
  induction claims generalizing irqs with
  | nil => rfl
  | cons c claims ih =>
    rw [List.foldl_cons, ih]
    unfold irqTimes
    by_cases hc : c.irq = i
    · rw [List.filter_cons_of_pos (by simpa using hc), List.map_cons, List.foldl_cons]
      unfold recordClaim
      rw [if_pos ⟨hc.symm, hc ▸ hi⟩]
    · rw [List.filter_cons_of_neg (by simpa using hc)]
      unfold recordClaim
      rw [if_neg fun heq => hc heq.1.symm]

theorem runAction_books {a : Action} (hs : runAction cfg s h cur a = .ok s') :
    s'.irqs = a.claims.foldl recordClaim s.irqs ∧ s'.plicOps = s.plicOps ++ a.plicOps := by
  by_cases hext : ∃ claims, a = .external claims
  · obtain ⟨claims, rfl⟩ := hext
    exact platformHandleSExternal_books hs
  · have hk := runAction_irqKept (fun claims ha => hext ⟨claims, ha⟩) hs
    have hnone : a.claims = [] ∧ a.plicOps = [] := by
      cases a with
      | external claims => exact absurd ⟨claims, rfl⟩ hext
      | _ => exact ⟨rfl, rfl⟩
    rw [hnone.1, hnone.2, List.append_nil]
    exact hk

theorem step_books {e : Event} (hb : Basic cfg s) (hg : Allowed cfg s e)
    (hs : step cfg s e = .ok s') :
    s'.irqs = (stepClaims cfg e).foldl recordClaim s.irqs ∧
      s'.plicOps = s.plicOps ++ stepOps cfg e := by
  cases e with
  | cpuInit h =>
    obtain ⟨-, c, -, -, -, -, -, rfl⟩ := cpuInit_cases hs
    exact ⟨rfl, (List.append_nil _).symm⟩
  | enterIdle h =>
    change cpuEnterIdle cfg s h = .ok s' at hs
    unfold cpuEnterIdle at hs
    simp only [bind_eq_ok, Except.ok.injEq] at hs
    obtain ⟨-, -, -, -, rfl⟩ := hs
    exact ⟨rfl, (List.append_nil _).symm⟩
  | trap h regs io =>
    obtain ⟨hrun, -⟩ := trap_runAction hb hg hs
    show s'.irqs = (trapAction cfg regs io).claims.foldl recordClaim s.irqs ∧
      s'.plicOps = s.plicOps ++ (trapAction cfg regs io).plicOps
    have hbooks := runAction_books hrun
    exact hbooks

theorem init_books (hs : (kernelSystem cfg).init s) : (∀ i, (s.irqs i).Fresh) ∧ s.plicOps = [] := by
  obtain ⟨a, hs⟩ := hs
  unfold primaryMain at hs
  simp only [bind_eq_ok] at hs
  obtain ⟨s₁, hearly, s₂, hboot, s₃, hinit, hs⟩ := hs
  have hcpu : ∀ (s s' : Kernel) (h : Nat), cpuInitThisHart cfg s h = .ok s' → IrqKept s s' := by
    intro s s' h hs
    unfold cpuInitThisHart at hs
    split at hs
    · cases hs
    · cases hs
      exact ⟨rfl, rfl⟩
  have hstart : IrqKept (bssKernel a) s₂ := by
    refine IrqKept.trans ?_ (hcpu _ _ _ hboot)
    exact foldlM_keeps (IrqKept (bssKernel a))
      (fun h _ s s' hk hstep => hk.trans (hcpu s s' h hstep))
      ⟨rfl, rfl⟩ hearly
  obtain ⟨tid, hcreate⟩ := threadsInit_cases hinit
  have hcreated := irqFrame.create hcreate
  cases hs
  refine ⟨fun i => ?_, hcreated.2.trans hstart.2⟩
  show (s₃.irqs i).Fresh
  rw [hcreated.1]
  show (if i = a.uartIrq ∧ i < maxIrq then
    { s₂.irqs i with handler := some .uart16550, name := some "uart0" } else s₂.irqs i).Fresh
  rw [hstart.1]
  split <;> exact ⟨rfl, rfl⟩

/-- The books of a whole run. -/
theorem run_books {tr : List (Kernel × Event)} (hrun : Run (kernelSystem cfg) tr s) :
    s.plicOps = runOps cfg tr ∧ ∃ irqs₀ : Nat → IrqLine, (∀ i, (irqs₀ i).Fresh) ∧
      s.irqs = (runClaims cfg tr).foldl recordClaim irqs₀ := by
  induction hrun with
  | start hinit =>
    obtain ⟨hfresh, hops⟩ := init_books hinit
    exact ⟨hops, _, hfresh, rfl⟩
  | step hrun hg hs ih =>
    obtain ⟨hops, irqs₀, hfresh, hirqs⟩ := ih
    have hstep := step_books (basic_reachable ⟨_, hrun⟩) hg hs
    refine ⟨?_, irqs₀, hfresh, ?_⟩
    · rw [hstep.2, hops]
      rfl
    · rw [hstep.1, hirqs, runClaims, List.foldl_append]

/-- What interrupt accounting is for.  Every external interrupt returns, having completed each
claimed irq before the next claim; the report gives the exact figures of every irq below `MAX_IRQ`;
claims of other irqs change no statistics. -/
structure AccountingExact (cfg : Config) (tr : List (Kernel × Event)) (s : Kernel) : Prop where
  returns : ∀ h claims, ∃ s', platformHandleSExternal cfg s h claims = .ok s'
  completed : s.plicOps = runOps cfg tr
  figures : ∀ out ≠ 0, ∀ max irq, irq < max → irq < maxIrq →
    ∃ st, (platformIrqGetStats s out max)[irq]? = some st ∧ st.irq.toNat = irq ∧
      FiguresExact (irqTimes irq (runClaims cfg tr)) st.count st.firstTick st.lastTick st.maxDelta
  outside : ∀ h c s', maxIrq ≤ c.irq → plicRound cfg h s c = .ok s' → s'.irqs = s.irqs

theorem platformIrqGetStats_getElem {out : UInt64} (hout : out ≠ 0) {max irq : Nat}
    (hmax : irq < max)
    (hirq : irq < maxIrq) :
    (platformIrqGetStats s out max)[irq]? =
      some ⟨UInt32.ofNat irq, (s.irqs irq).count, (s.irqs irq).firstTick, (s.irqs irq).lastTick,
        (s.irqs irq).maxDelta, (s.irqs irq).name⟩ := by
  unfold platformIrqGetStats
  have hlt : irq < if max < maxIrq then max else maxIrq := by
    split <;> assumption
  rw [if_neg hout, List.getElem?_map, List.getElem?_range hlt]
  rfl

section Exact

variable {tr : List (Kernel × Event)} (hrun : Run (kernelSystem cfg) tr s)
  (htimes : ((runClaims cfg tr).map PlicClaim.now).Pairwise (· ≤ ·))

include hrun

theorem run_line {irq : Nat} (hirq : irq < maxIrq) :
    ∃ l : IrqLine, l.Fresh ∧
      s.irqs irq = (irqTimes irq (runClaims cfg tr)).foldl IrqLine.record l := by
  obtain ⟨-, irqs₀, hfresh, hirqs⟩ := run_books hrun
  exact ⟨irqs₀ irq, hfresh irq, by rw [hirqs, foldl_recordClaim _ _ hirq]⟩

include htimes

omit hrun in
theorem irqTimes_sorted (irq : Nat) : (irqTimes irq (runClaims cfg tr)).Pairwise (· ≤ ·) :=
  htimes.sublist (List.filter_sublist.map _)

theorem AccountingExact.restartsUnseen (hexact : AccountingExact cfg tr s) {irq : Nat}
    (hirq : irq < maxIrq) : RestartsUnseen (irqTimes irq (runClaims cfg tr)) := by
  obtain ⟨l, hfresh, hline⟩ := run_line hrun hirq
  obtain ⟨st, hst, -, hfig⟩ := hexact.figures 1 (by decide) maxIrq irq hirq hirq
  rw [platformIrqGetStats_getElem (by decide) hirq hirq, Option.some.injEq] at hst
  subst hst
  dsimp only at hfig
  rw [hline] at hfig
  exact (figuresExact_iff hfresh (irqTimes_sorted htimes irq)).mp hfig

theorem accountingExact_of_unseen
    (hunseen : ∀ irq < maxIrq, RestartsUnseen (irqTimes irq (runClaims cfg tr))) :
    AccountingExact cfg tr s := by
  refine ⟨fun h claims => platformHandleSExternal_returns claims, (run_books hrun).1, ?_, ?_⟩
  · intro out hout max irq hmax hirq
    obtain ⟨l, hfresh, hline⟩ := run_line hrun hirq
    have hfig := (figuresExact_iff hfresh (irqTimes_sorted htimes irq)).mpr (hunseen irq hirq)
    rw [← hline] at hfig
    refine ⟨_, platformIrqGetStats_getElem hout hmax hirq, ?_, hfig⟩
    unfold maxIrq at hirq
    exact UInt32.toNat_ofNat_of_lt' (by show irq < 2 ^ 32; omega)
  · intro h c s' hge hround
    rw [(plicRound_books hround).1]
    funext i
    unfold recordClaim
    rw [if_neg fun heq => absurd heq.2 (not_lt.mpr hge)]

/-- In every run, interrupt accounting is exact if and only if no line's counter has wrapped around
between two different times. -/
theorem irq_accounting_exact_iff :
    AccountingExact cfg tr s ↔ ∀ irq < maxIrq, RestartsUnseen (irqTimes irq (runClaims cfg tr)) :=
  ⟨fun hexact _ hirq => hexact.restartsUnseen hrun htimes hirq,
    accountingExact_of_unseen hrun htimes⟩

end Exact

/-- An external interrupt on hart 0. -/
def externalIrq (claims : List PlicClaim) : Event :=
  .trap 0 { scause := 0x8000000000000009 } { claims := claims }

/-- Hart 0 enters idle and takes one external interrupt. -/
theorem exists_run_externalIrq (claims : List PlicClaim) :
    ∃ tr s, Run (kernelSystem oneHart) tr s ∧ runClaims oneHart tr = handled claims := by
  have hboot : endsWith (fun s => stepTo oneHart s (.enterIdle 0) fun s =>
      decide (Allowed oneHart s (externalIrq []))) (primaryMain oneHart bootOnHart0).toOption =
        true := by
    decide +kernel
  cases hmain : primaryMain oneHart bootOnHart0 with
  | error e =>
    rw [hmain] at hboot
    cases hboot
  | ok s₀ =>
    rw [hmain] at hboot
    obtain ⟨s₁, hg, hs, hallowed⟩ := exists_step hboot
    have hinit : (kernelSystem oneHart).init s₀ := ⟨bootOnHart0, hmain⟩
    have hrun : Run (kernelSystem oneHart) [(s₀, .enterIdle 0)] s₁ := (Run.start hinit).step hg hs
    have hg₁ : Allowed oneHart s₁ (externalIrq claims) := of_decide_eq_true hallowed
    have hb := basic_reachable ⟨_, hrun⟩
    obtain ⟨s₂, hs₂⟩ := @platformHandleSExternal_returns oneHart
      (saveRegs s₁ 0 { scause := 0x8000000000000009 }) 0 claims
    have hstep : step oneHart s₁ (externalIrq claims) = .ok s₂ := by
      show trapEntry oneHart s₁ 0 _ _ = _
      rw [trapEntry_eq (hb.harts.curTf 0 hg₁.1)]
      exact hs₂
    have hrun₂ : Run (kernelSystem oneHart) [(s₁, externalIrq claims), (s₀, .enterIdle 0)] s₂ :=
      hrun.step hg₁ hstep
    exact ⟨_, s₂, hrun₂, List.nil_append _⟩

theorem irq_accounting_exact_uart :
    ∃ tr s, runClaims oneHart tr = [⟨10, 7, [0x6c, 0x73]⟩, ⟨5, 8, []⟩, ⟨10, 9, [0x0d]⟩] ∧
      AccountingExact oneHart tr s := by
  obtain ⟨tr, s, hrun, hclaims⟩ :=
    exists_run_externalIrq [⟨10, 7, [0x6c, 0x73]⟩, ⟨5, 8, []⟩, ⟨10, 9, [0x0d]⟩]
  have htimes : ((runClaims oneHart tr).map PlicClaim.now).Pairwise (· ≤ ·) := by
    rw [hclaims]
    decide
  refine ⟨tr, s, hclaims, (irq_accounting_exact_iff hrun htimes).mpr fun irq _ => ?_⟩
  apply restartsUnseen_of_length_le
  rw [hclaims, irqTimes, List.length_map]
  exact (List.length_filter_le _ _).trans (by decide)

/-- `n` occurrences of irq 5 at time 0 and one more at time 1. -/
def lateClaims (n : Nat) : List PlicClaim :=
  List.replicate n ⟨5, 0, []⟩ ++ [⟨5, 1, []⟩]

theorem handled_lateClaims (n : Nat) : handled (lateClaims n) = lateClaims n := by
  unfold handled
  rw [List.takeWhile_eq_self_iff]
  intro c hc
  rcases List.mem_append.mp hc with hc | hc
  · rw [List.eq_of_mem_replicate hc]
    decide
  · rw [List.mem_singleton.mp hc]
    decide

theorem irqTimes_lateClaims (n : Nat) : irqTimes 5 (lateClaims n) = List.replicate n 0 ++ [1] := by
  unfold irqTimes lateClaims
  rw [List.filter_append, List.filter_replicate, if_pos (by decide), List.map_append,
    List.map_replicate]
  rfl

theorem lateClaims_sorted (n : Nat) : ((lateClaims n).map PlicClaim.now).Pairwise (· ≤ ·) := by
  unfold lateClaims
  rw [List.map_append, List.map_replicate, List.pairwise_append]
  refine ⟨?_, List.pairwise_singleton _ _, ?_⟩
  · rw [List.pairwise_replicate]
    exact .inr (UInt64.le_refl _)
  · intro a ha b hb
    rw [List.eq_of_mem_replicate ha]
    exact UInt64.zero_le

/-- A restart of the counter shows as soon as the clock has moved. -/
theorem not_restartsUnseen_late {n : Nat} (hpos : 0 < n) (hdvd : 2 ^ 64 ∣ n) :
    ¬ RestartsUnseen (List.replicate n 0 ++ [1]) := by
  intro hunseen
  unfold RestartsUnseen at hunseen
  have hhead : (List.replicate n (0 : UInt64) ++ [1]).headD 0 = 0 := by
    obtain ⟨m, rfl⟩ := Nat.exists_eq_succ_of_ne_zero hpos.ne'
    rfl
  rw [List.length_append, List.length_replicate, List.length_singleton, lastRestart_succ,
    if_pos hdvd, hhead, List.getD_append_right _ _ _ _ (by rw [List.length_replicate]),
    List.length_replicate, Nat.sub_self] at hunseen
  exact absurd hunseen (by decide)

/-- After 2^64 interrupts at time 0 the counter is back at 0: the next one, at time 1, is taken for
the first. -/
theorem irq_accounting_restarts_late :
    ∃ tr s, Run (kernelSystem oneHart) tr s ∧ runClaims oneHart tr = lateClaims (2 ^ 64) ∧
      ((runClaims oneHart tr).map PlicClaim.now).Pairwise (· ≤ ·) ∧
      ¬ AccountingExact oneHart tr s := by
  obtain ⟨tr, s, hrun, hclaims⟩ := exists_run_externalIrq (lateClaims (2 ^ 64))
  rw [handled_lateClaims] at hclaims
  have htimes : ((runClaims oneHart tr).map PlicClaim.now).Pairwise (· ≤ ·) := by
    rw [hclaims]
    exact lateClaims_sorted _
  refine ⟨tr, s, hrun, hclaims, htimes, fun hexact => ?_⟩
  have hunseen := @AccountingExact.restartsUnseen _ _ _ hrun htimes hexact 5 (by decide)
  rw [hclaims, irqTimes_lateClaims] at hunseen
  exact not_restartsUnseen_late (Nat.two_pow_pos 64) (dvd_refl _) hunseen

end Ccos
