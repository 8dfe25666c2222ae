import Mathlib.Tactic
import Ccos.Console.Read

/-!
# Standard input as a stream

The characters that arrive, less those that find 1023 unread ones, are what the reads deliver and
the ring still holds, in order.  What a read delivers is read back from the user's memory: the first
`a0` bytes of its buffer when it completes.
-/

namespace Ccos

open Reasoning

variable {cfg : Config} {s s' v v' : Kernel} {h : Nat} {t : Int}

/-! ## What a step accepts and delivers -/

/-- A character is dropped if 1023 characters are unread when it arrives. -/
def acceptedChar (v : Kernel) (ch : UInt8) : List UInt8 :=
  if v.rx.unread.length = 1023 then [] else [ch]

/-- The bytes that the registered reader finds in its buffer, as many as its `a0` says. -/
def handed (v v' : Kernel) : List UInt8 :=
  if 0 ≤ v.stdinWaiter then
    loadBytes v'.mem (v.threads v.stdinWaiter).pendingReadBuf
      (v'.threads v.stdinWaiter).tf.a0.toNat
  else []

/-- The characters of an interrupt that are accepted. -/
def irqAccepted (cfg : Config) (h : Nat) (v : Kernel) : List UInt8 → List UInt8
  | [] => []
  | ch :: rest => acceptedChar v ch ++
    match consoleOnCharFromIrq cfg v h ch with
    | .ok v' => irqAccepted cfg h v' rest
    | .error _ => []

/-- The bytes that the characters of an interrupt make the kernel deliver. -/
def irqDelivered (cfg : Config) (h : Nat) (v : Kernel) : List UInt8 → List UInt8
  | [] => []
  | ch :: rest =>
    match consoleOnCharFromIrq cfg v h ch with
    | .ok v' => handed v v' ++ irqDelivered cfg h v' rest
    | .error _ => []

def accepted (cfg : Config) (s : Kernel) : Event → List UInt8
  | .trap h regs io =>
    match trapAction cfg regs io with
    | .external claims => irqAccepted cfg h (saveRegs s h regs) (received s claims)
    | _ => []
  | _ => []

/-- A read of stdin delivers at once unless it blocks; an interrupt delivers to a blocked one. -/
def delivered (cfg : Config) (s : Kernel) : Event → List UInt8
  | .trap h regs io =>
    match trapAction cfg regs io with
    | .external claims => irqDelivered cfg h (saveRegs s h regs) (received s claims)
    | .read fd buf _ =>
      match step cfg s (.trap h regs io) with
      | .ok s' =>
        if fd = 0 ∧ (s'.threads (s.cpus h).currentTid).state ≠ .blocked then
          loadBytes s'.mem buf (s'.threads (s.cpus h).currentTid).tf.a0.toNat
        else []
      | .error _ => []
    | _ => []
  | _ => []

/-- The characters accepted in a run, in arrival order. -/
def acceptedIn (cfg : Config) : List (Kernel × Event) → List UInt8
  | [] => []
  | (s, e) :: tr => acceptedIn cfg tr ++ accepted cfg s e

/-- The bytes delivered in a run, in completion order. -/
def deliveredIn (cfg : Config) : List (Kernel × Event) → List UInt8
  | [] => []
  | (s, e) :: tr => deliveredIn cfg tr ++ delivered cfg s e

/-! ## One character -/

/-- The registered reader waits for a character that it has room for. -/
structure Expects (cfg : Config) (v : Kernel) : Prop where
  basic : Basic cfg v
  range : v.stdinWaiter < cfg.threadMax
  blocked : (v.threads v.stdinWaiter).state = .blocked
  unqueued : v.rq.onRq v.stdinWaiter = false
  pending : (v.threads v.stdinWaiter).pendingReadBuf ≠ 0 ∧
    (v.threads v.stdinWaiter).pendingReadLen ≠ 0

/-- The read of `buf` returns `n` bytes: `a0` says so, they are at `buf`, and they are the
oldest. -/
structure ReadReturns (m m' : Mem) (a0 buf len : UInt64) (unread : List UInt8) (n : Nat) :
    Prop where
  count : a0 = UInt64.ofNat n
  some : 1 ≤ n
  asked : n ≤ len.toNat
  there : n ≤ unread.length
  stored : m' = storeBytes m buf (unread.take n)

theorem ReadReturns.loaded {m m' : Mem} {a0 buf len : UInt64} {unread : List UInt8} {n : Nat}
    (hr : ReadReturns m m' a0 buf len unread n) (hlen : unread.length < 1024) :
    loadBytes m' buf a0.toNat = unread.take n := by
  have hthere := hr.there
  have hnat : a0.toNat = n := by
    rw [hr.count, UInt64.toNat_ofNat']
    omega
  have htake : (unread.take n).length = n := by
    rw [List.length_take]
    omega
  have hback := loadBytes_storeBytes_self m buf (unread.take n) (by omega)
  rw [htake] at hback
  rw [hnat, hr.stored]
  exact hback

theorem RxRing.unread_lt (r : RxRing) : r.unread.length < 1024 := by
  rw [r.length_unread]
  exact r.count_lt

/-- What the interrupt stores for the registered reader. -/
theorem ReaderServed.returns {ch : UInt8} (hs : ReaderServed v ch v') (hwf : v.rx.WF) :
    ∃ n, ReadReturns v.mem v'.mem (v'.threads v.stdinWaiter).tf.a0
        (v.threads v.stdinWaiter).pendingReadBuf (v.threads v.stdinWaiter).pendingReadLen
        (v.rx.put ch).unread n ∧ v'.rx.WF ∧ v'.rx.unread = (v.rx.put ch).unread.drop n := by
  obtain ⟨n, hpos, ha0, hloop⟩ := hs.stored
  obtain ⟨h1, h2, h3, h4⟩ := consoleReadLoop_eq (v.threads v.stdinWaiter).pendingReadBuf
    (v.threads v.stdinWaiter).pendingReadLen.toNat 0 v.mem (RxRing.put_wf hwf ch)
  rw [← hloop] at h1 h2 h3 h4
  have hn :
      n = 0 + min (v.threads v.stdinWaiter).pendingReadLen.toNat (v.rx.put ch).unread.length :=
    h1
  have hzero : (v.threads v.stdinWaiter).pendingReadBuf + UInt64.ofNat 0 =
      (v.threads v.stdinWaiter).pendingReadBuf := UInt64.add_zero _
  rw [hzero] at h2
  have hmem : v'.mem = storeBytes v.mem (v.threads v.stdinWaiter).pendingReadBuf
      ((v.rx.put ch).unread.take n) := by
    rw [hn, Nat.zero_add, ← List.take_eq_take_min]
    exact h2
  refine ⟨n, ⟨ha0, hpos, by omega, by omega, hmem⟩, h3, ?_⟩
  have hdrop : v'.rx.unread =
      (v.rx.put ch).unread.drop (v.threads v.stdinWaiter).pendingReadLen.toNat := h4
  rw [hdrop]
  rcases Nat.le_total (v.threads v.stdinWaiter).pendingReadLen.toNat (v.rx.put ch).unread.length
    with hle | hle
  · rw [hn, Nat.zero_add, Nat.min_eq_left hle]
  · rw [hn, Nat.zero_add, Nat.min_eq_right hle, List.drop_length, List.drop_of_length_le hle]

theorem put_unread_accepted (hwf : v.rx.WF) (ch : UInt8) :
    (v.rx.put ch).unread = v.rx.unread ++ acceptedChar v ch := by
  rw [RxRing.put_unread hwf]
  unfold acceptedChar
  split
  · rw [List.append_nil]
  · rfl

theorem Expects.served {ch : UInt8} (he : Expects cfg v) (h0 : 0 ≤ v.stdinWaiter)
    (hs : consoleOnCharFromIrq cfg v h ch = .ok v') : ReaderServed v ch v' :=
  char_completes he.basic h0 he.range he.blocked he.unqueued he.pending.1 he.pending.2 hs

/-- A character joins the stream at its end, and what the reader gets leaves it at its front. -/
theorem char_fifo {ch : UInt8} (hwf : v.rx.WF) (he : 0 ≤ v.stdinWaiter → Expects cfg v)
    (hs : consoleOnCharFromIrq cfg v h ch = .ok v') :
    v.rx.unread ++ acceptedChar v ch = handed v v' ++ v'.rx.unread ∧ v'.rx.WF := by
  by_cases h0 : 0 ≤ v.stdinWaiter
  · obtain ⟨n, hret, hwf', hrest⟩ := ((he h0).served h0 hs).returns hwf
    unfold handed
    rw [if_pos h0, hret.loaded (RxRing.unread_lt _), hrest, List.take_append_drop,
      put_unread_accepted hwf]
    exact ⟨rfl, hwf'⟩
  · rcases consoleOnCharFromIrq_cases hs with ⟨-, rfl⟩ | ⟨hge, -⟩
    · unfold handed
      rw [if_neg h0]
      exact ⟨(put_unread_accepted hwf ch).symm, RxRing.put_wf hwf ch⟩
    · exact absurd hge h0

/-- The characters of one interrupt. -/
theorem uart_fifo {rx : List UInt8} (hwf : v.rx.WF) (he : 0 ≤ v.stdinWaiter → Expects cfg v)
    (hs : uart16550IrqHandler cfg v h rx = .ok v') :
    v.rx.unread ++ irqAccepted cfg h v rx = irqDelivered cfg h v rx ++ v'.rx.unread := by
  -- by induction on the characters; after the first of them nobody is registered
  induction rx generalizing v with
  | nil =>
    cases hs
    rw [irqAccepted, irqDelivered, List.append_nil, List.nil_append]
  | cons ch rest ih =>
    unfold uart16550IrqHandler at hs
    rw [List.foldlM_cons, bind_eq_ok] at hs
    obtain ⟨v₁, hch, hrest⟩ := hs
    obtain ⟨hone, hwf₁⟩ := char_fifo hwf he hch
    have hneg := char_stdinWaiter hch
    have hmore := ih hwf₁ (fun h0 => absurd h0 (by omega)) hrest
    rw [irqAccepted, irqDelivered, hch]
    calc v.rx.unread ++ (acceptedChar v ch ++ irqAccepted cfg h v₁ rest)
        = handed v v₁ ++ (v₁.rx.unread ++ irqAccepted cfg h v₁ rest) := by
          rw [← List.append_assoc, hone, List.append_assoc]
      _ = handed v v₁ ++ (irqDelivered cfg h v₁ rest ++ v'.rx.unread) := by rw [hmore]
      _ = handed v v₁ ++ irqDelivered cfg h v₁ rest ++ v'.rx.unread := by rw [List.append_assoc]

/-! ## One step -/

/-- Reads of stdin ask for at least one byte, and have a buffer if they have to block. -/
def ReadsWithRoom (cfg : Config) (s : Kernel) : Event → Prop
  | .trap _ regs io =>
    match trapAction cfg regs io with
    | .read fd buf len => fd = 0 → len ≠ 0 ∧ (s.rx.isEmpty = true → buf ≠ 0)
    | _ => True
  | _ => True

instance (s : Kernel) : (e : Event) → Decidable (ReadsWithRoom cfg s e)
  | .trap _ regs io =>
    show Decidable (match trapAction cfg regs io with
      | .read fd buf len => fd = 0 → len ≠ 0 ∧ (s.rx.isEmpty = true → buf ≠ 0)
      | _ => True) from
    match trapAction cfg regs io with
    | .ipi | .timer | .external _ | .sleep _ | .exit _ | .join _ _ | .create _ _ _ _
    | .kill _ | .detach _ | .query _ _ | .skip | .halt _ => isTrue trivial
    | .read _ _ _ => inferInstanceAs (Decidable (_ → _))
  | .cpuInit _ => inferInstanceAs (Decidable True)
  | .enterIdle _ => inferInstanceAs (Decidable True)

/-- No kill, one reader at a time, and reads with room for what they ask for. -/
def StdinReads (cfg : Config) (s : Kernel) (e : Event) : Prop :=
  SingleReader cfg s e ∧ ReadsWithRoom cfg s e

instance (s : Kernel) (e : Event) : Decidable (StdinReads cfg s e) :=
  inferInstanceAs (Decidable (_ ∧ _))

theorem StdinReads.read {regs : Trapframe} {io : TrapInput} {buf len : UInt64}
    (hc : StdinReads cfg s (.trap h regs io)) (ha : trapAction cfg regs io = .read 0 buf len) :
    len ≠ 0 ∧ (s.rx.isEmpty = true → buf ≠ 0) := by
  have hread := hc.2
  unfold ReadsWithRoom at hread
  dsimp only at hread
  rw [ha] at hread
  exact hread rfl

/-- Every blocked thread is in a read that a character can complete. -/
def BlockedReads (cfg : Config) (s : Kernel) : Prop :=
  ∀ t : Int, 0 ≤ t → t < cfg.threadMax → (s.threads t).state = .blocked →
    ∃ buf len, buf ≠ 0 ∧ len ≠ 0 ∧ Awaits s t buf len

/-- A read of stdin returns at once, or blocks. -/
theorem read_now_or_blocks {regs : Trapframe} {io : TrapInput} {buf len : UInt64}
    (hb : Basic cfg s) (ho : Orderly cfg s) (hwf : s.rx.WF) (hg : Allowed cfg s (.trap h regs io))
    (hs : step cfg s (.trap h regs io) = .ok s') (ha : trapAction cfg regs io = .read 0 buf len)
    (hlen : len ≠ 0) :
    ((s'.threads (s.cpus h).currentTid).state ≠ .blocked ∧
      ∃ n, ReadReturns s.mem s'.mem (s'.threads (s.cpus h).currentTid).tf.a0 buf len s.rx.unread n ∧
        s'.rx.unread = s.rx.unread.drop n) ∨
    (s'.rx = s.rx ∧ Awaits s' (s.cpus h).currentTid buf len) := by
  rcases trap_read hb hg hs ha with ⟨hfd, -⟩ | ⟨-, hn, rfl⟩ | ⟨-, hn, hrx, -, -, hreg, hth⟩
  · exact absurd rfl hfd
  · left
    obtain ⟨hcount, hmem, hrest⟩ := drained_eq buf len hwf
    refine ⟨?_, (consoleReadNonblock s buf len).1, ⟨?_, hn, by omega, by omega, hmem⟩, hrest⟩
    · intro hbl
      have hrunning := ho.running_of_onHart ⟨h, hg.1, rfl⟩
      have hold : ((saveRegs s h regs).threads (s.cpus h).currentTid).state = .blocked :=
        modThread_leaves (s := drained (saveRegs s h regs) buf len) (.inl rfl) hbl
      rw [saveRegs_state, hrunning] at hold
      cases hold
    · unfold Kernel.setA0
      rw [Kernel.modThread_threads, if_pos rfl]
      rfl
  · refine .inr ⟨hrx, hreg, ?_, ?_, ?_⟩
    · rw [hth]
      rfl
    · rw [hth]
      exact ⟨rfl, rfl⟩
    · rw [hrx]
      exact ((consoleReadNonblock_eq_zero _ _ _).mp hn).resolve_left hlen

theorem blockedReads_step {e : Event} (hb : Basic cfg s) (ho : Orderly cfg s) (hwf : s.rx.WF)
    (hw : BlockedReads cfg s) (hg : Allowed cfg s e) (hc : StdinReads cfg s e)
    (hs : step cfg s e = .ok s') : BlockedReads cfg s' := by
  intro t h0 h1 hbl'
  by_cases hbl : (s.threads t).state = .blocked
  · obtain ⟨buf, len, hbuf, hlen, ht⟩ := hw t h0 h1 hbl
    rcases awaits_step hb ho hwf hg hc.1 hs h0 h1 hbuf hlen ht with ht' | ⟨hrun, -⟩
    · exact ⟨buf, len, hbuf, hlen, ht'⟩
    · rw [hrun] at hbl'
      cases hbl'
  · cases e with
    | cpuInit h =>
      obtain ⟨-, c, -, -, -, -, -, rfl⟩ := cpuInit_cases hs
      exact absurd hbl' hbl
    | enterIdle h =>
      obtain ⟨-, -, -, -, -, -, -, -, -, -, hth, -⟩ := enterIdle_cases hs
      rw [hth] at hbl'
      split at hbl'
      · cases hbl'
      · exact absurd hbl' hbl
    | trap h regs io =>
      rcases trap_paused (.inr rfl) hb hg hs hbl' with hold | ⟨hcur, ⟨hno, -⟩ | ⟨-, p, n, ha⟩⟩
      · exact absurd hold hbl
      · cases hno
      · obtain ⟨hlen, hbuf⟩ := hc.read ha
        rw [hcur] at hbl' ⊢
        rcases read_now_or_blocks hb ho hwf hg hs ha hlen with ⟨hno, -⟩ | ⟨hrx, hwait⟩
        · exact absurd hbl' hno
        · exact ⟨p, n, hbuf (hrx ▸ hwait.empty), hlen, hwait⟩

/-- The registered reader, as the interrupt finds it. -/
theorem BlockedReads.expects (hw : BlockedReads cfg s) (hb : Basic cfg s) (ho : Orderly cfg s)
    (he : Entered cfg s h) (regs : Trapframe) (h0 : 0 ≤ (saveRegs s h regs).stdinWaiter) :
    Expects cfg (saveRegs s h regs) := by
  rw [saveRegs_stdinWaiter] at h0
  obtain ⟨⟨q, hsched⟩, -⟩ := ho.joins
  obtain ⟨hhi, hbl⟩ := ho.reader h0
  obtain ⟨buf, len, hbuf, hlen, hwait⟩ := hw s.stdinWaiter h0 hhi hbl
  have hsus : (s.threads s.stdinWaiter).state.suspended = true := by
    rw [hbl]
    rfl
  have hcur : s.stdinWaiter ≠ (s.cpus h).currentTid := by
    intro heq
    rw [heq, hsched.cur_not_suspended he] at hsus
    cases hsus
  refine ⟨hb.quiet (saveRegs_quiet s h regs), hhi, ?_, (hsched.suspended_off h0 hhi hsus).2, ?_⟩
  · rw [saveRegs_stdinWaiter, saveRegs_state]
    exact hbl
  · rw [saveRegs_stdinWaiter, saveRegs_other regs hcur, hwait.pending.1, hwait.pending.2]
    exact ⟨hbuf, hlen⟩

/-- What a step accepts goes to the end of the stream, what it delivers leaves the front. -/
theorem stdin_step {e : Event} (hb : Basic cfg s) (ho : Orderly cfg s) (hwf : s.rx.WF)
    (hw : BlockedReads cfg s) (hg : Allowed cfg s e) (hc : StdinReads cfg s e)
    (hs : step cfg s e = .ok s') :
    s.rx.unread ++ accepted cfg s e = delivered cfg s e ++ s'.rx.unread := by
  have hquiet : ∀ k : Kernel, k.rx = s.rx → s.rx.unread ++ [] = [] ++ k.rx.unread := by
    intro k hk
    rw [hk, List.append_nil, List.nil_append]
  cases e with
  | cpuInit h =>
    obtain ⟨-, c, -, -, -, -, -, rfl⟩ := cpuInit_cases hs
    exact hquiet _ rfl
  | enterIdle h => exact hquiet _ (enterIdle_cases hs).2.2.2.2.2.1
  | trap h regs io =>
    rw [accepted, delivered]
    cases ha : trapAction cfg regs io with
    | external claims =>
      obtain ⟨hrun, -⟩ := trap_runAction hb hg hs
      rw [ha] at hrun
      obtain ⟨s₁, ops, irqs, huart, rfl, -⟩ := platformHandleSExternal_cases hrun
      have hfifo := uart_fifo (v := saveRegs s h regs) hwf (hw.expects hb ho hg.1 regs) huart
      exact hfifo
    | read fd buf len =>
      dsimp only
      rw [hs]
      dsimp only
      -- a read that returns takes the front of the stream; one that blocks found it empty
      by_cases hfd : fd = 0
      · subst hfd
        rcases read_now_or_blocks hb ho hwf hg hs ha (hc.read ha).1 with
          ⟨hno, n, hret, hrest⟩ | ⟨hrx, hwait⟩
        · have hcond : (0 : Int) = 0 ∧ (s'.threads (s.cpus h).currentTid).state ≠ .blocked :=
            ⟨rfl, hno⟩
          rw [if_pos hcond, hret.loaded s.rx.unread_lt, hrest, List.take_append_drop,
            List.append_nil]
        · have hcond : ¬ ((0 : Int) = 0 ∧ (s'.threads (s.cpus h).currentTid).state ≠ .blocked) :=
            fun hand => hand.2 hwait.blocked
          rw [if_neg hcond]
          exact hquiet s' hrx
      · have hcond : ¬ (fd = 0 ∧ (s'.threads (s.cpus h).currentTid).state ≠ .blocked) :=
          fun hand => hfd hand.1
        rw [if_neg hcond]
        rcases trap_read hb hg hs ha with ⟨-, w, rfl⟩ | ⟨h0, -⟩ | ⟨h0, -⟩
        · exact hquiet _ rfl
        · exact absurd h0 hfd
        · exact absurd h0 hfd
    | _ =>
      have huse : (trapAction cfg regs io).usesConsole = false := by
        rw [ha]
        rfl
      have hrx := (trap_consoleKept hb hg hs huse).1
      rw [clocked_rx] at hrx
      exact hquiet s' hrx

/-! ## Runs -/

theorem blockedReads_reachable (hr : Reachable ((kernelSystem cfg).restrict (StdinReads cfg)) s) :
    Orderly cfg s ∧ s.rx.WF ∧ BlockedReads cfg s := by
  refine kernel_invariant (fun s => Orderly cfg s ∧ s.rx.WF ∧ BlockedReads cfg s) ?_ ?_ hr
  · intro s₀ hi
    refine ⟨⟨joins_init hi, readerWaits_init hi⟩, ring_wf_reachable (.start hi), ?_⟩
    intro t h0 h1 hbl
    exact absurd hbl (init_not_paused (.inr rfl) hi h0 h1)
  · rintro s₁ e s₂ hb ⟨ho, hwf, hw⟩ hg hc hs
    exact ⟨orderly_step hb ho hg hc.1.killFree hs, step_ring_wf hb hg hs hwf,
      blockedReads_step hb ho hwf hw hg hc hs⟩

theorem stdin_run {tr : List (Kernel × Event)}
    (hrun : Run ((kernelSystem cfg).restrict (StdinReads cfg)) tr s) :
    deliveredIn cfg tr ++ s.rx.unread = acceptedIn cfg tr := by
  induction hrun with
  | @start s₀ hi =>
    have hrx := init_rx hi
    rw [deliveredIn, acceptedIn, List.nil_append, hrx]
    rfl
  | @step tr s₁ s₂ e hrun hg hs ih =>
    obtain ⟨ho, hwf, hw⟩ := blockedReads_reachable ⟨tr, hrun⟩
    have hb := basic_reachable (Reachable.unrestrict ⟨tr, hrun⟩)
    have hone := stdin_step hb ho hwf hw hg.1 hg.2 hs
    rw [deliveredIn, acceptedIn, ← ih, List.append_assoc, List.append_assoc, hone]

/-- In every kill-free run in which no read of stdin starts while a thread is blocked in one, each
read asks for at least one byte and those that block have a buffer: what the reads delivered, in
completion order, and then the ring's content are the accepted characters in arrival order; while a
thread is blocked the ring is empty; a read that returns at once, and one that an interrupt
completes, has in `a0` the number of bytes it stored, at least 1 and at most `len`, the oldest
unread ones. -/
theorem stdin_lossless_fifo (cfg : Config) {tr : List (Kernel × Event)} {s : Kernel}
    (hrun : Run ((kernelSystem cfg).restrict (StdinReads cfg)) tr s) :
    deliveredIn cfg tr ++ s.rx.unread = acceptedIn cfg tr ∧
    (∀ t : Int, 0 ≤ t → t < cfg.threadMax → (s.threads t).state = .blocked → s.rx.unread = []) ∧
    (∀ h regs io buf len s', Allowed cfg s (.trap h regs io) → StdinReads cfg s (.trap h regs io) →
      trapAction cfg regs io = .read 0 buf len → step cfg s (.trap h regs io) = .ok s' →
      (s'.threads (s.cpus h).currentTid).state ≠ .blocked →
      ∃ n, ReadReturns s.mem s'.mem
        (s'.threads (s.cpus h).currentTid).tf.a0 buf len s.rx.unread n) ∧
    (∀ h regs io claims before ch after v v', Allowed cfg s (.trap h regs io) →
      trapAction cfg regs io = .external claims → received s claims = before ++ ch :: after →
      uart16550IrqHandler cfg (saveRegs s h regs) h before = .ok v →
      consoleOnCharFromIrq cfg v h ch = .ok v' → 0 ≤ v.stdinWaiter →
      (v'.threads v.stdinWaiter).state = .runnable ∧
      ∃ n, ReadReturns v.mem v'.mem (v'.threads v.stdinWaiter).tf.a0
        (v.threads v.stdinWaiter).pendingReadBuf (v.threads v.stdinWaiter).pendingReadLen
        (v.rx.put ch).unread n) := by
  obtain ⟨ho, hwf, hw⟩ := blockedReads_reachable ⟨tr, hrun⟩
  have hb := basic_reachable (Reachable.unrestrict ⟨tr, hrun⟩)
  refine ⟨stdin_run hrun, ?_, ?_, ?_⟩
  · intro t h0 h1 hbl
    obtain ⟨buf, len, -, -, hwait⟩ := hw t h0 h1 hbl
    exact (RxRing.isEmpty_iff_unread hwf).mp hwait.empty
  · intro h regs io buf len s' hg hc ha hs hno
    rcases read_now_or_blocks hb ho hwf hg hs ha (hc.read ha).1 with ⟨-, n, hret, -⟩ | ⟨-, hwait⟩
    · exact ⟨n, hret⟩
    · exact absurd hwait.blocked hno
  · intro h regs io claims before ch after v v' hg ha hrec hbefore hch h0
    -- only the first character of an interrupt can find a registered reader
    have hnil : before = [] := by
      by_contra hne
      have hneg := uart_stdinWaiter hbefore hne
      omega
    subst hnil
    cases hbefore
    have hserved := (hw.expects hb ho hg.1 regs h0).served h0 hch
    obtain ⟨n, hret, -⟩ := hserved.returns hwf
    exact ⟨hserved.runnable, n, hret⟩

/-- Two characters arrive and `user_main` (1) reads them. -/
theorem stdin_lossless_fifo_example :
    ∃ tr s s₁, Run ((kernelSystem oneHart).restrict (StdinReads oneHart)) tr s ∧
      step oneHart s (sysReadStdin 0 0x5000 8) = .ok s₁ ∧
      deliveredIn oneHart tr ++ [65, 66] = acceptedIn oneHart tr ∧
      ∃ n, ReadReturns s.mem s₁.mem (s₁.threads 1).tf.a0 0x5000 8 [65, 66] n := by
  obtain ⟨s, ⟨tr, hrun⟩, hs⟩ := exists_reachable oneHart (StdinReads oneHart) bootOnHart0
    (startMain ++ [uartIrq 0 [65, 66]])
    (fun s => decide (StdinReads oneHart s (sysReadStdin 0 0x5000 8) ∧ (s.cpus 0).currentTid = 1 ∧
      s.rx.unread = [65, 66]) &&
      stepTo oneHart s (sysReadStdin 0 0x5000 8) fun s₁ => decide ((s₁.threads 1).state ≠ .blocked))
    (by decide +kernel)
  rw [Bool.and_eq_true, decide_eq_true_eq] at hs
  obtain ⟨⟨hc, hcur, hrx⟩, hread⟩ := hs
  obtain ⟨s₁, hg, hs₁, hno⟩ := exists_step hread
  obtain ⟨hstream, -, hnow, -⟩ := stdin_lossless_fifo oneHart hrun
  have hret := hnow 0 _ _ 0x5000 8 s₁ hg hc rfl hs₁ (by
    rw [hcur]
    exact of_decide_eq_true hno)
  rw [hrx] at hstream
  rw [hcur, hrx] at hret
  exact ⟨tr, s, s₁, hrun, hs₁, hstream, hret⟩

/-- `user_main` (1) blocks in `read(0, NULL, 1)` and `'A'` arrives: the thread resumes with the
number of `SYS_READ` in `a0`, more than it asked for, and `'A'` is still unread. -/
theorem null_read_returns_syscall_number :
    ∃ s s₁ s₂ s₃, Reachable ((kernelSystem oneHart).restrict (SingleReader oneHart)) s ∧
      SingleReader oneHart s (sysReadStdin 0 0 1) ∧ step oneHart s (sysReadStdin 0 0 1) = .ok s₁ ∧
      (s₁.threads 1).state = .blocked ∧
      SingleReader oneHart s₁ (uartIrq 0 [65]) ∧ step oneHart s₁ (uartIrq 0 [65]) = .ok s₂ ∧
      SingleReader oneHart s₂ (sysYield 0) ∧ step oneHart s₂ (sysYield 0) = .ok s₃ ∧
      OnHart oneHart s₃ 1 ∧ (s₃.threads 1).tf.a0 = 6 ∧ ¬ (s₃.threads 1).tf.a0 ≤ 1 ∧
      s₃.rx.unread = [65] := by
  obtain ⟨s, hr, hs⟩ := exists_reachable oneHart (SingleReader oneHart) bootOnHart0
    (startMain ++ [sysCreate 0])
    (fun s => decide (SingleReader oneHart s (sysReadStdin 0 0 1)) &&
      stepTo oneHart s (sysReadStdin 0 0 1) fun s₁ =>
        decide ((s₁.threads 1).state = .blocked ∧ SingleReader oneHart s₁ (uartIrq 0 [65])) &&
        stepTo oneHart s₁ (uartIrq 0 [65]) fun s₂ =>
          decide (SingleReader oneHart s₂ (sysYield 0)) &&
          stepTo oneHart s₂ (sysYield 0) fun s₃ =>
            decide (OnHart oneHart s₃ 1 ∧ (s₃.threads 1).tf.a0 = 6 ∧ s₃.rx.unread = [65]))
    (by decide +kernel)
  rw [Bool.and_eq_true, decide_eq_true_eq] at hs
  obtain ⟨hc, hread⟩ := hs
  obtain ⟨s₁, -, hs₁, hnext⟩ := exists_step hread
  rw [Bool.and_eq_true, decide_eq_true_eq] at hnext
  obtain ⟨⟨hbl, hc₁⟩, hirq⟩ := hnext
  obtain ⟨s₂, -, hs₂, hnext⟩ := exists_step hirq
  rw [Bool.and_eq_true, decide_eq_true_eq] at hnext
  obtain ⟨hc₂, hyield⟩ := hnext
  obtain ⟨s₃, -, hs₃, hend⟩ := exists_step hyield
  obtain ⟨hexec, ha0, hrx⟩ := of_decide_eq_true hend
  refine ⟨s, s₁, s₂, s₃, hr, hc, hs₁, hbl, hc₁, hs₂, hc₂, hs₃, hexec, ha0, ?_, hrx⟩
  rw [ha0]
  decide

end Ccos
