import Mathlib.Tactic
import Ccos.Kernel.Syscalls

/-!
# External interrupts

The rounds of `platform_handle_s_external` hand characters to the console and keep irq statistics.
The console never looks at the statistics, so an external interrupt is the received characters one
after the other, with the bookkeeping put on top.
-/

namespace Ccos

open Reasoning

variable {cfg : Config} {s s' : Kernel} {h : Nat}

/-- The characters an external interrupt feeds to the console, in arrival order. -/
def received (s : Kernel) (claims : List PlicClaim) : List UInt8 :=
  (claims.takeWhile fun c => c.irq ≠ 0).flatMap (claimRx s)

/-- The irq bookkeeping of `platform_handle_s_external`. -/
@[simps]
def Kernel.setIrq (s : Kernel) (ops : List PlicOp) (irqs : Nat → IrqLine) : Kernel :=
  { s with plicOps := ops, irqs := irqs }

section SetIrq

variable (ops : List PlicOp) (irqs : Nat → IrqLine)

theorem smpKickHart_setIrq (k : Nat) :
    smpKickHart cfg (s.setIrq ops irqs) k = (smpKickHart cfg s k).setIrq ops irqs := by
  unfold smpKickHart
  simp only [Kernel.setIrq_smpBootDone, Kernel.setIrq_cpus]
  split_ifs <;> rfl

theorem threadMakeRunnable_setIrq {t : Int} {p : Nat} :
    threadMakeRunnable cfg (s.setIrq ops irqs) h t p =
      (threadMakeRunnable cfg s h t p).map (Kernel.setIrq · ops irqs) := by
  have hpick : schedPickTargetHart cfg (s.setIrq ops irqs) p = schedPickTargetHart cfg s p := rfl
  unfold threadMakeRunnable
  simp only [hpick, Kernel.setIrq_rq, Kernel.setIrq_threads]
  generalize schedPickTargetHart cfg s p = target
  split_ifs
  · rfl
  · rfl
  · rfl
  · simp only [Kernel.modThread_rq, Kernel.setIrq_rq]
    cases rqPushTail cfg s.rq target t with
    | error e => rfl
    | ok rq =>
      have hset : ((s.setIrq ops irqs).modThread t Thread.makeRunnable).setRq rq =
          ((s.modThread t Thread.makeRunnable).setRq rq).setIrq ops irqs := rfl
      have hid :
          cpuCurrentHartid (((s.modThread t Thread.makeRunnable).setRq rq).setIrq ops irqs) h =
          cpuCurrentHartid ((s.modThread t Thread.makeRunnable).setRq rq) h := rfl
      simp only [ok_bind, hset, hid, smpKickHart_setIrq]
      split_ifs <;> rfl

theorem threadWake_setIrq {t : Int} :
    threadWake cfg (s.setIrq ops irqs) h t =
      (threadWake cfg s h t).map (Kernel.setIrq · ops irqs) := by
  have hid : cpuCurrentHartid (s.setIrq ops irqs) h = cpuCurrentHartid s h := rfl
  unfold threadWake
  simp only [Kernel.setIrq_threads, hid, threadMakeRunnable_setIrq]
  split_ifs <;> rfl

theorem consoleOnCharFromIrq_setIrq {ch : UInt8} :
    consoleOnCharFromIrq cfg (s.setIrq ops irqs) h ch =
      (consoleOnCharFromIrq cfg s h ch).map (Kernel.setIrq · ops irqs) := by
  have hread : ∀ s : Kernel, threadReadFromStdin cfg (s.setIrq ops irqs) h =
      (threadReadFromStdin cfg s h).map (Kernel.setIrq · ops irqs) := by
    intro s
    have hcount : ∀ buf len, (consoleReadNonblock (s.setIrq ops irqs) buf len).1 =
        (consoleReadNonblock s buf len).1 := fun _ _ => rfl
    have hdrain : ∀ buf len, (consoleReadNonblock (s.setIrq ops irqs) buf len).2 =
        (consoleReadNonblock s buf len).2.setIrq ops irqs := fun _ _ => rfl
    have hmod : ∀ (s : Kernel) (t : Int) (f : Thread → Thread),
        (s.setIrq ops irqs).modThread t f = (s.modThread t f).setIrq ops irqs := fun _ _ _ => rfl
    unfold threadReadFromStdin
    simp only [Kernel.setIrq_stdinWaiter, Kernel.setIrq_threads, hcount, hdrain, hmod,
      threadWake_setIrq]
    split_ifs <;> rfl
  unfold consoleOnCharFromIrq
  change (if s.stdinWaiter < 0 then .ok (Kernel.setIrq { s with rx := s.rx.put ch } ops irqs)
    else threadReadFromStdin cfg (Kernel.setIrq { s with rx := s.rx.put ch } ops irqs) h >>=
      fun s => .ok (s.setStdinWaiter (-1))) = _
  rw [hread]
  dsimp only
  split_ifs
  · rfl
  · cases threadReadFromStdin cfg { s with rx := s.rx.put ch } h <;> rfl

end SetIrq

/-- The characters of a claim do not depend on the statistics recorded so far. -/
theorem claimRx_congr {c : PlicClaim}
    (hirq : ∀ i, (s'.irqs i).handler = (s.irqs i).handler) : claimRx s' c = claimRx s c := by
  unfold claimRx
  rw [hirq]

theorem uart16550IrqHandler_setIrq {rx : List UInt8} (ops : List PlicOp) (irqs : Nat → IrqLine) :
    uart16550IrqHandler cfg (s.setIrq ops irqs) h rx =
      (uart16550IrqHandler cfg s h rx).map (Kernel.setIrq · ops irqs) := by
  induction rx generalizing s with
  | nil => rfl
  | cons ch rx ih =>
    unfold uart16550IrqHandler at ih ⊢
    rw [List.foldlM_cons, List.foldlM_cons, consoleOnCharFromIrq_setIrq]
    cases consoleOnCharFromIrq cfg s h ch with
    | error e => rfl
    | ok s₁ => exact ih

theorem IrqLine.record_handler (l : IrqLine) (now : UInt64) :
    (l.record now).handler = l.handler := by
  unfold IrqLine.record
  split_ifs <;> rfl

/-- One claim feeds its characters; the rest is bookkeeping. -/
theorem plicRound_cases {c : PlicClaim} (hs : plicRound cfg h s c = .ok s') :
    ∃ s₁ ops irqs, uart16550IrqHandler cfg s h (claimRx s c) = .ok s₁ ∧ s' = s₁.setIrq ops irqs ∧
      ∀ i, (irqs i).handler = (s.irqs i).handler := by
  have hround : ∀ irqs : Nat → IrqLine, (∀ i, (irqs i).handler = (s.irqs i).handler) →
      (uart16550IrqHandler cfg (s.setIrq (s.plicOps ++ [.claim c.irq]) irqs) h
        (claimRx (s.setIrq (s.plicOps ++ [.claim c.irq]) irqs) c) >>= fun s =>
          .ok { s with plicOps := s.plicOps ++ [.complete c.irq] }) = .ok s' →
      ∃ s₁ ops irqs, uart16550IrqHandler cfg s h (claimRx s c) = .ok s₁ ∧ s' = s₁.setIrq ops irqs ∧
        ∀ i, (irqs i).handler = (s.irqs i).handler := by
    intro irqs hirqs hs
    rw [bind_eq_ok] at hs
    obtain ⟨s₂, hfeed, hs⟩ := hs
    have hrx : claimRx (s.setIrq (s.plicOps ++ [.claim c.irq]) irqs) c = claimRx s c :=
      claimRx_congr hirqs
    rw [hrx, uart16550IrqHandler_setIrq] at hfeed
    cases hf : uart16550IrqHandler cfg s h (claimRx s c) with
    | error e =>
      rw [hf] at hfeed
      cases hfeed
    | ok s₁ =>
      rw [hf] at hfeed
      obtain rfl : s₁.setIrq (s.plicOps ++ [PlicOp.claim c.irq]) irqs = s₂ := Except.ok.inj hfeed
      exact ⟨s₁, _, irqs, rfl, (Except.ok.inj hs).symm, hirqs⟩
  unfold plicRound at hs
  dsimp only at hs
  split at hs
  · refine hround _ (fun i => ?_) hs
    split
    · exact IrqLine.record_handler _ _
    · rfl
  · exact hround s.irqs (fun _ => rfl) hs

/-- The rounds of an external interrupt feed the characters of their claims in turn. -/
theorem plicRounds_cases {cs : List PlicClaim} (hs : cs.foldlM (plicRound cfg h) s = .ok s') :
    ∃ s₁ ops irqs, uart16550IrqHandler cfg s h (cs.flatMap (claimRx s)) = .ok s₁ ∧
      s' = s₁.setIrq ops irqs ∧ ∀ i, (irqs i).handler = (s.irqs i).handler := by
  induction cs generalizing s s' with
  | nil =>
    rw [List.foldlM_nil, pure_eq_ok] at hs
    exact ⟨s, s.plicOps, s.irqs, rfl, hs.symm, fun _ => rfl⟩
  | cons c cs ih =>
    rw [List.foldlM_cons, bind_eq_ok] at hs
    obtain ⟨s₂, hround, hs⟩ := hs
    obtain ⟨s₁, ops, irqs, hfeed, rfl, hirqs⟩ := plicRound_cases hround
    obtain ⟨s₃, ops', irqs', hfeed', rfl, hirqs'⟩ := ih hs
    -- the later rounds see the handlers of the first state, so they receive the same
    have hrx : ∀ c : PlicClaim, claimRx (s₁.setIrq ops irqs) c = claimRx s c :=
      fun c => claimRx_congr hirqs
    rw [funext hrx, uart16550IrqHandler_setIrq] at hfeed'
    cases hf : uart16550IrqHandler cfg s₁ h (cs.flatMap (claimRx s)) with
    | error e =>
      rw [hf] at hfeed'
      cases hfeed'
    | ok s₄ =>
      rw [hf] at hfeed'
      obtain rfl : s₄.setIrq ops irqs = s₃ := Except.ok.inj hfeed'
      refine ⟨s₄, ops', irqs', ?_, rfl, fun i => (hirqs' i).trans (hirqs i)⟩
      unfold uart16550IrqHandler at hfeed hf ⊢
      rw [List.flatMap_cons, List.foldlM_append, hfeed]
      exact hf

/-- An external interrupt feeds the characters it received; the rest is bookkeeping. -/
theorem platformHandleSExternal_cases {claims : List PlicClaim}
    (hs : platformHandleSExternal cfg s h claims = .ok s') :
    ∃ s₁ ops irqs, uart16550IrqHandler cfg s h (received s claims) = .ok s₁ ∧
      s' = s₁.setIrq ops irqs ∧
      ∀ i, (irqs i).handler = (s.irqs i).handler := by
  unfold platformHandleSExternal at hs
  rw [bind_eq_ok] at hs
  obtain ⟨s₂, hloop, hs⟩ := hs
  rw [Except.ok.injEq] at hs
  obtain ⟨s₁, ops, irqs, hfeed, rfl, hirqs⟩ := plicRounds_cases hloop
  exact ⟨s₁, _, irqs, hfeed, hs.symm, hirqs⟩

end Ccos
