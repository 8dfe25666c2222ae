import Mathlib.Tactic
import Ccos.Console.Reader
import Ccos.Console.Ring

/-!
# The return value of `read`

`a0` holds the system call number when a read starts.  The immediate path overwrites it with the
number of bytes, a blocked read gets it from the interrupt that completes it.
-/

namespace Ccos

open Reasoning

variable {cfg : Config} {s s' : Kernel} {h : Nat} {t : Int} {buf len : UInt64}

/-! ## The ring in every run -/

/-- A character goes to the ring; a reader may then empty it. -/
theorem char_rx {ch : UInt8} (hs : consoleOnCharFromIrq cfg s h ch = .ok s') :
    s'.rx = s.rx.put ch ∨
      ∃ p k m, s'.rx = (consoleReadLoop p k 0 m (s.rx.put ch)).2.2 := by
  rcases consoleOnCharFromIrq_cases hs with ⟨-, rfl⟩ | ⟨-, s₁, hread, rfl⟩
  · exact .inl rfl
  rcases threadReadFromStdin_cases hread with ⟨-, hwake⟩ | ⟨-, ⟨-, rfl⟩ | ⟨-, hwake⟩⟩
  · have hk := (threadWake_schedOnly hwake).rx
    exact .inl hk
  · exact .inr ⟨_, _, s.mem, rfl⟩
  · have hk := (threadWake_schedOnly hwake).rx
    exact .inr ⟨_, _, s.mem, hk⟩

theorem trap_ring_wf {regs : Trapframe} {io : TrapInput} (hb : Basic cfg s)
    (hg : Allowed cfg s (.trap h regs io)) (hs : step cfg s (.trap h regs io) = .ok s')
    (hwf : s.rx.WF) : s'.rx.WF := by
  by_cases huse : (trapAction cfg regs io).usesConsole = false
  · rw [(trap_consoleKept hb hg hs huse).1, clocked_rx]
    exact hwf
  · cases ha : trapAction cfg regs io with
    | read fd p n =>
      rcases trap_read hb hg hs ha with ⟨-, v, rfl⟩ | ⟨-, -, rfl⟩ | ⟨-, -, hrx, -⟩
      · exact hwf
      · exact (consoleReadLoop_eq p n.toNat 0 s.mem hwf).2.2.1
      · rw [hrx]
        exact hwf
    | external claims =>
      obtain ⟨hrun, -⟩ := trap_runAction hb hg hs
      rw [ha] at hrun
      obtain ⟨s₁, ops, irqs, huart, rfl, -⟩ := platformHandleSExternal_cases hrun
      show s₁.rx.WF
      refine foldlM_keeps (fun k => k.rx.WF) ?_ ?_ huart
      · intro ch _ k k' hk hstep
        rcases char_rx hstep with hrx | ⟨p, n, m, hrx⟩
        · rw [hrx]
          exact RxRing.put_wf hk ch
        · rw [hrx]
          exact (consoleReadLoop_eq p n 0 m (RxRing.put_wf hk ch)).2.2.1
      · exact hwf
    | _ =>
      rw [ha] at huse
      exact absurd rfl huse

theorem init_rx (hi : (kernelSystem cfg).init s) :
    s.rx = { buf := fun _ => 0, head := 0, tail := 0 } := by
  obtain ⟨s₀, s₁, tid, entry, arg, name, sstatus, hboot, hcreate, rfl⟩ := init_cases hi
  show s₁.rx = _
  rcases threadCreateUser_cases hcreate with ⟨-, rfl⟩ | ⟨-, -, -, hmake⟩
  · exact hboot.rx
  · have ho := (threadMakeRunnable_schedOnly hmake).rx
    exact ho.trans hboot.rx

theorem step_ring_wf {e : Event} (hb : Basic cfg s) (hg : Allowed cfg s e)
    (hs : step cfg s e = .ok s') (hwf : s.rx.WF) : s'.rx.WF := by
  cases e with
  | cpuInit h =>
    obtain ⟨-, c, -, -, -, -, -, rfl⟩ := cpuInit_cases hs
    exact hwf
  | enterIdle h =>
    rw [(enterIdle_cases hs).2.2.2.2.2.1]
    exact hwf
  | trap h regs io => exact trap_ring_wf hb hg hs hwf

/-- The indices of the ring are inside the array in every reachable state. -/
theorem ring_wf_reachable (hr : Reachable (kernelSystem cfg) s) : s.rx.WF := by
  have hboth : Basic cfg s ∧ s.rx.WF := by
    refine hr.invariant (fun s => Basic cfg s ∧ s.rx.WF) (fun s hi => ⟨basic_init hi, ?_⟩) ?_
    · rw [init_rx hi]
      exact ⟨by decide, by decide⟩
    · rintro s e s' ⟨hb, hwf⟩ hg hs
      exact ⟨basic_step hb hg hs, step_ring_wf hb hg hs hwf⟩
  exact hboth.2

/-! ## One reader at a time -/

/-- No read of stdin starts while a thread is blocked in one. -/
def ReadsAlone (cfg : Config) (s : Kernel) : Event → Prop
  | .trap _ regs io =>
    match trapAction cfg regs io with
    | .read fd _ _ => fd = 0 → ∀ u ∈ List.range cfg.threadMax, (s.threads u).state ≠ .blocked
    | _ => True
  | _ => True

instance (s : Kernel) : (e : Event) → Decidable (ReadsAlone cfg s e)
  | .trap _ regs io =>
    show Decidable (match trapAction cfg regs io with
      | .read fd _ _ => fd = 0 → ∀ u ∈ List.range cfg.threadMax, (s.threads u).state ≠ .blocked
      | _ => True) from
    match trapAction cfg regs io with
    | .read _ _ _ => inferInstanceAs (Decidable (_ → _))
    | .ipi | .timer | .external _ | .sleep _ | .exit _ | .join _ _ | .create _ _ _ _
    | .kill _ | .detach _ | .query _ _ | .skip | .halt _ => isTrue trivial
  | .cpuInit _ => inferInstanceAs (Decidable True)
  | .enterIdle _ => inferInstanceAs (Decidable True)

theorem ReadsAlone.none_blocked {regs : Trapframe} {io : TrapInput} {p n : UInt64}
    (hc : ReadsAlone cfg s (.trap h regs io)) (ha : trapAction cfg regs io = .read 0 p n) {u : Int}
    (h0 : 0 ≤ u) (h1 : u < cfg.threadMax) : (s.threads u).state ≠ .blocked := by
  unfold ReadsAlone at hc
  dsimp only at hc
  rw [ha] at hc
  obtain ⟨i, rfl⟩ := Int.eq_ofNat_of_zero_le h0
  exact hc rfl i (List.mem_range.mpr (by omega))

/-- No kill, and no read of stdin while a thread is blocked in one. -/
def SingleReader (cfg : Config) (s : Kernel) (e : Event) : Prop :=
  KillFree cfg s e ∧ ReadsAlone cfg s e

instance (s : Kernel) (e : Event) : Decidable (SingleReader cfg s e) :=
  inferInstanceAs (Decidable (_ ∧ _))

theorem SingleReader.killFree {s : Kernel} {e : Event} (hc : SingleReader cfg s e) :
    KillFree cfg s e :=
  hc.1

/-! ## A blocked read -/

/-- Thread `t` is blocked in `read(0, buf, len)`, and nothing is unread. -/
structure Awaits (s : Kernel) (t : Int) (buf len : UInt64) : Prop where
  registered : s.stdinWaiter = t
  blocked : (s.threads t).state = .blocked
  pending : (s.threads t).pendingReadBuf = buf ∧ (s.threads t).pendingReadLen = len
  empty : s.rx.isEmpty = true

/-- The event is an interrupt whose first character `ch` is stored at `buf`. -/
structure CompletedBy (cfg : Config) (s : Kernel) (buf : UInt64) (e : Event) (ch : UInt8) :
    Prop where
  interrupt : ∃ h regs io claims rest v, e = .trap h regs io ∧
    trapAction cfg regs io = .external claims ∧ received s claims = ch :: rest ∧
    consoleOnCharFromIrq cfg (saveRegs s h regs) h ch = .ok v ∧ v.mem = storeBytes s.mem buf [ch]

/-- The ring is empty, so the read takes exactly the character that completes it. -/
theorem ReaderServed.single {ch : UInt8} (hserved : ReaderServed s ch s') (hwf : s.rx.WF)
    (hempty : s.rx.isEmpty = true) :
    (s'.threads s.stdinWaiter).tf.a0 = 1 ∧
      s'.mem = storeBytes s.mem (s.threads s.stdinWaiter).pendingReadBuf [ch] := by
  obtain ⟨n, -, ha0, hloop⟩ := hserved.stored
  obtain ⟨h1, h2, -, -⟩ := consoleReadLoop_eq (s.threads s.stdinWaiter).pendingReadBuf
    (s.threads s.stdinWaiter).pendingReadLen.toNat 0 s.mem (RxRing.put_wf hwf ch)
  have hone : (s.rx.put ch).unread = [ch] := by
    rw [RxRing.put_unread hwf, (RxRing.isEmpty_iff_unread hwf).mp hempty]
    rfl
  have hpos : 0 < (s.threads s.stdinWaiter).pendingReadLen.toNat := by
    rw [Nat.pos_iff_ne_zero]
    exact fun h0 => hserved.pending.2 (UInt64.toNat_inj.mp h0)
  rw [hone] at h1 h2
  rw [← hloop] at h1 h2
  have hzero : ∀ p : UInt64, p + UInt64.ofNat 0 = p := fun p => UInt64.add_zero p
  have hn : n = 1 := by
    have h1' : n = 0 + min (s.threads s.stdinWaiter).pendingReadLen.toNat [ch].length := h1
    rw [List.length_singleton] at h1'
    omega
  refine ⟨by rw [ha0, hn]; rfl, ?_⟩
  have h2' : s'.mem = storeBytes s.mem ((s.threads s.stdinWaiter).pendingReadBuf + UInt64.ofNat 0)
    ([ch].take (s.threads s.stdinWaiter).pendingReadLen.toNat) := h2
  rw [h2', hzero, List.take_of_length_le (by rw [List.length_singleton]; omega)]

/-- A blocked thread is current on no hart and its slot is not recycled. -/
theorem Orderly.blocked_kept {regs : Trapframe} {io : TrapInput} (ho : Orderly cfg s)
    (he : Entered cfg s h) (hc : KillFree cfg s (.trap h regs io))
    (hst : (s.threads t).state = .blocked) :
    ¬ MayRecycle cfg s h (trapAction cfg regs io) t := by
  obtain ⟨⟨q, hs⟩, -⟩ := ho.joins
  have hcur : t ≠ (s.cpus h).currentTid := by
    rintro rfl
    have hnot := hs.cur_not_suspended he
    rw [hst] at hnot
    cases hnot
  rintro (heq | hterm | hcoll)
  · exact hcur heq
  · rcases terminated_cases hterm with ⟨code, -, heq⟩ | ⟨ha, hhit⟩
    · exact hcur heq
    · have hnone : victim cfg s h (trapAction cfg regs io) = none := hc
      rw [ha, victim, if_pos hhit] at hnone
      cases hnone
  · obtain ⟨-, -, hz, -⟩ := collected_cases hcoll
    rw [hst] at hz
    cases hz

/-- The external interrupt: the first character completes the read, the others go to the ring. -/
theorem awaits_external {regs : Trapframe} {io : TrapInput} {claims : List PlicClaim}
    (hb : Basic cfg s) (ho : Orderly cfg s) (hwf : s.rx.WF) (hg : Allowed cfg s (.trap h regs io))
    (hs : step cfg s (.trap h regs io) = .ok s') (h0 : 0 ≤ t) (h1 : t < cfg.threadMax)
    (hbuf : buf ≠ 0) (hlen : len ≠ 0) (hw : Awaits s t buf len)
    (ha : trapAction cfg regs io = .external claims) :
    Awaits s' t buf len ∨ ((s'.threads t).state = .runnable ∧ (s'.threads t).tf.a0 = 1 ∧
      ∃ ch, CompletedBy cfg s buf (.trap h regs io) ch) := by
  obtain ⟨⟨q, hsched⟩, -⟩ := ho.joins
  have hsus : (s.threads t).state.suspended = true := by
    rw [hw.blocked]
    rfl
  have hcur : t ≠ (s.cpus h).currentTid := by
    rintro rfl
    rw [hsched.cur_not_suspended hg.1] at hsus
    cases hsus
  have hsave : (saveRegs s h regs).threads t = s.threads t := saveRegs_other regs hcur
  obtain ⟨hrun, -⟩ := trap_runAction hb hg hs
  rw [ha] at hrun
  obtain ⟨s₁, ops, irqs, huart, rfl, -⟩ := platformHandleSExternal_cases hrun
  have hrx : received (saveRegs s h regs) claims = received s claims := rfl
  rw [hrx] at huart
  cases hrec : received s claims with
  -- an interrupt that receives nothing, as a claim of another source
  | nil =>
    left
    rw [hrec] at huart
    cases huart
    refine ⟨hw.registered, ?_, ?_, hw.empty⟩
    · show ((saveRegs s h regs).threads t).state = .blocked
      rw [hsave]
      exact hw.blocked
    · show ((saveRegs s h regs).threads t).pendingReadBuf = buf ∧
        ((saveRegs s h regs).threads t).pendingReadLen = len
      rw [hsave]
      exact hw.pending
  | cons ch rest =>
    right
    rw [hrec] at huart
    unfold uart16550IrqHandler at huart
    rw [List.foldlM_cons, bind_eq_ok] at huart
    obtain ⟨v, hch, hrest⟩ := huart
    have hreg : (saveRegs s h regs).stdinWaiter = t := hw.registered
    have hserved : ReaderServed (saveRegs s h regs) ch v := by
      refine char_completes (hb.quiet (saveRegs_quiet s h regs)) ?_ ?_ ?_ ?_ ?_ ?_ hch
      all_goals rw [hreg]
      · exact h0
      · exact h1
      · rw [hsave]
        exact hw.blocked
      · exact (hsched.suspended_off h0 h1 hsus).2
      · rw [hsave, hw.pending.1]
        exact hbuf
      · rw [hsave, hw.pending.2]
        exact hlen
    obtain ⟨ha0, hmem⟩ := hserved.single hwf hw.empty
    rw [hreg] at ha0 hmem
    rw [hsave, hw.pending.1] at hmem
    have hstate := hserved.runnable
    rw [hreg] at hstate
    -- nobody is registered for the characters after the first
    have hneg := char_stdinWaiter hch
    obtain ⟨hsame, -⟩ := uart_bystander (u := t) hrest h0 (by omega)
    refine ⟨?_, ?_, ch, ⟨h, regs, io, claims, rest, v, rfl, ha, hrec, hch, hmem⟩⟩
    · show (s₁.threads t).state = .runnable
      rw [hsame]
      exact hstate
    · show (s₁.threads t).tf.a0 = 1
      rw [hsame]
      exact ha0

/-- A blocked read stays as it is until a character completes it. -/
theorem awaits_step {e : Event} (hb : Basic cfg s) (ho : Orderly cfg s) (hwf : s.rx.WF)
    (hg : Allowed cfg s e) (hc : SingleReader cfg s e) (hs : step cfg s e = .ok s') (h0 : 0 ≤ t)
    (h1 : t < cfg.threadMax) (hbuf : buf ≠ 0) (hlen : len ≠ 0) (hw : Awaits s t buf len) :
    Awaits s' t buf len ∨ ((s'.threads t).state = .runnable ∧ (s'.threads t).tf.a0 = 1 ∧
      ∃ ch, CompletedBy cfg s buf e ch) := by
  cases e with
  | cpuInit h =>
    obtain ⟨-, c, -, -, -, -, -, rfl⟩ := cpuInit_cases hs
    exact .inl ⟨hw.registered, hw.blocked, hw.pending, hw.empty⟩
  | enterIdle h =>
    obtain ⟨-, -, -, -, hreg, hrx, -, -, -, -, hth, -⟩ := enterIdle_cases hs
    -- an idle thread is never `BLOCKED`
    have hne : t ≠ h := by
      intro heq
      have hh := hg.1
      rcases (hb.idle t h0 (by omega)).1 with hi | hi <;> rw [hw.blocked] at hi <;> cases hi
    have hsame : s'.threads t = s.threads t := by
      rw [hth, if_neg hne]
    refine .inl ⟨hreg.trans hw.registered, ?_, ?_, ?_⟩
    · rw [hsame]
      exact hw.blocked
    · rw [hsame]
      exact hw.pending
    · rw [hrx]
      exact hw.empty
  | trap h regs io =>
    by_cases hext : ∃ claims, trapAction cfg regs io = .external claims
    · obtain ⟨claims, ha⟩ := hext
      exact awaits_external hb ho hwf hg hs h0 h1 hbuf hlen hw ha
    · left
      have hsus : (s.threads t).state.suspended = true := by
        rw [hw.blocked]
        rfl
      have hby : Bystands cfg s h (trapAction cfg regs io) t := by
        refine ho.bystands hg.1 hc.killFree h0 (.inr hw.blocked) ?_ ?_
        · rintro - - ⟨hsl, -⟩
          rw [hw.blocked] at hsl
          cases hsl
        · intro claims ha
          exact absurd ⟨claims, ha⟩ hext
      obtain ⟨w, d, hm⟩ := marked_eq cfg s h t (trapAction cfg regs io)
      have hth := hby.suspended hb hg hs hsus
      rw [hm] at hth
      -- ring and registration: only a read of stdin and an external interrupt touch them
      have hcons : s'.rx = s.rx ∧ s'.stdinWaiter = s.stdinWaiter := by
        by_cases huse : (trapAction cfg regs io).usesConsole = false
        · obtain ⟨hrx, -, hreg⟩ := trap_consoleKept hb hg hs huse
          rw [clocked_rx] at hrx
          rw [clocked_stdinWaiter] at hreg
          refine ⟨hrx, hreg.resolve_right ?_⟩
          rintro ⟨-, hgone⟩
          rw [hw.registered] at hgone
          exact ho.blocked_kept hg.1 hc.killFree hw.blocked hgone
        · cases ha : trapAction cfg regs io with
          | read fd p n =>
            -- a second reader of stdin is what `SingleReader` excludes
            have hfd : fd ≠ 0 := by
              rintro rfl
              exact hc.2.none_blocked ha h0 h1 hw.blocked
            rcases trap_read hb hg hs ha with ⟨-, v, rfl⟩ | ⟨h0', -⟩ | ⟨h0', -⟩
            · exact ⟨rfl, rfl⟩
            · exact absurd h0' hfd
            · exact absurd h0' hfd
          | external claims => exact absurd ⟨claims, ha⟩ hext
          | _ =>
            rw [ha] at huse
            exact absurd rfl huse
      refine ⟨hcons.2.trans hw.registered, ?_, ?_, ?_⟩
      · rw [hth]
        exact hw.blocked
      · rw [hth]
        exact hw.pending
      · rw [hcons.1]
        exact hw.empty

/-! ## Until the thread resumes -/

/-- A hart executes thread `t`. -/
def OnHart (cfg : Config) (s : Kernel) (t : Int) : Prop :=
  ∃ k, Entered cfg s k ∧ (s.cpus k).currentTid = t

instance (s : Kernel) (t : Int) : Decidable (OnHart cfg s t) :=
  decidable_of_iff (∃ k ∈ List.range cfg.maxHarts, Entered cfg s k ∧ (s.cpus k).currentTid = t)
    ⟨fun ⟨k, _, hk⟩ => ⟨k, hk⟩, fun ⟨k, hk⟩ => ⟨k, List.mem_range.mpr hk.1.1, hk⟩⟩

theorem Orderly.running_of_onHart (ho : Orderly cfg s) (he : OnHart cfg s t) :
    (s.threads t).state = .running := by
  obtain ⟨⟨q, hs⟩, -⟩ := ho.joins
  obtain ⟨k, hk, rfl⟩ := he
  rcases (hs.cur k hk (by simp)).1 with hst | ⟨hno, -⟩
  · exact hst
  · exact hno.elim

/-- A `RUNNABLE` thread keeps its saved registers until a hart executes it. -/
theorem ready_step {e : Event} (hb : Basic cfg s) (ho : Orderly cfg s) (hg : Allowed cfg s e)
    (hc : KillFree cfg s e) (hs : step cfg s e = .ok s') (hlo : (cfg.maxHarts : Int) ≤ t)
    (hst : (s.threads t).state = .runnable) :
    (s'.threads t).tf = (s.threads t).tf ∧
      ((s'.threads t).state = .runnable ∨ (s'.threads t).state = .running) := by
  have hpos := cfg.maxHarts_pos
  cases e with
  | cpuInit h =>
    obtain ⟨-, c, -, -, -, -, -, rfl⟩ := cpuInit_cases hs
    exact ⟨rfl, .inl hst⟩
  | enterIdle h =>
    obtain ⟨-, -, -, -, -, -, -, -, -, -, hth, -⟩ := enterIdle_cases hs
    have hne : t ≠ h := by
      have hh := hg.1
      omega
    rw [hth, if_neg hne]
    exact ⟨rfl, .inl hst⟩
  | trap h regs io =>
    obtain ⟨⟨q, hsched⟩, hj⟩ := ho.joins
    -- a hart never executes a `RUNNABLE` user thread
    have hother : t ≠ (s.cpus h).currentTid := by
      rintro rfl
      exact hsched.curMid h hg.1 hlo hst
    have hby : Bystands cfg s h (trapAction cfg regs io) t := by
      -- not terminated, not released, not collected, not woken from sleep, not the served reader
      refine ⟨by omega, by rw [hst]; decide, hother, ?_, ?_, ?_, ?_, ?_⟩
      · intro hterm
        rcases terminated_cases hterm with ⟨code, -, heq⟩ | ⟨ha, hhit⟩
        · exact hother heq
        · have hnone : victim cfg s h (trapAction cfg regs io) = none := hc
          rw [ha, victim, if_pos hhit] at hnone
          cases hnone
      · rintro ⟨u, hu, rfl⟩
        have hwait := (joiner_of_terminated hsched hj hg.1 hc.safe hu (by omega)).2.1
        rw [hst] at hwait
        cases hwait
      · intro hcoll
        obtain ⟨-, -, hz, -⟩ := collected_cases hcoll
        rw [hst] at hz
        cases hz
      · rintro - - ⟨hsl, -⟩
        rw [hst] at hsl
        cases hsl
      · rintro claims - hw
        have hbl := (ho.reader (by omega)).2
        rw [hw, hst] at hbl
        cases hbl
    obtain ⟨w, d, hm⟩ := marked_eq cfg s h t (trapAction cfg regs io)
    rcases trap_bystander hb hg hs hby with hsame | ⟨hrun, -, -⟩
    · rw [hsame, hm]
      exact ⟨rfl, .inl hst⟩
    · rw [hrun, hm]
      exact ⟨rfl, .inr rfl⟩

/-- Somewhere along the continuation `vs` of a run from `s` an interrupt completed the read. -/
def CompletedIn (cfg : Config) (s : Kernel) (t : Int) (buf len : UInt64)
    (vs : List (Event × Kernel)) : Prop :=
  ∃ later e w' earlier w ch, vs = later ++ (e, w') :: earlier ∧
    Path ((kernelSystem cfg).restrict (SingleReader cfg)) s earlier w ∧
    step cfg w e = .ok w' ∧ Awaits w t buf len ∧ CompletedBy cfg w buf e ch

theorem CompletedIn.cons {vs : List (Event × Kernel)} {v : Event × Kernel}
    (hc : CompletedIn cfg s t buf len vs) : CompletedIn cfg s t buf len (v :: vs) := by
  obtain ⟨later, e, w', earlier, w, ch, rfl, hrest⟩ := hc
  exact ⟨v :: later, e, w', earlier, w, ch, rfl, hrest⟩

/-- A blocked read, or one that is completed and whose thread is not executed yet. -/
def ReadUnderway (cfg : Config) (s : Kernel) (t : Int) (buf len : UInt64)
    (vs : List (Event × Kernel)) (w : Kernel) : Prop :=
  Awaits w t buf len ∨ ((w.threads t).state = .runnable ∧ (w.threads t).tf.a0 = 1 ∧
    CompletedIn cfg s t buf len vs)

/-- Until a hart executes the thread again its read is pending or completed. -/
theorem readUnderway_path {vs : List (Event × Kernel)}
    (hr : Reachable ((kernelSystem cfg).restrict (SingleReader cfg)) s)
    (hlo : (cfg.maxHarts : Int) ≤ t) (h1 : t < cfg.threadMax) (hbuf : buf ≠ 0) (hlen : len ≠ 0)
    (hw : Awaits s t buf len)
    (hp : Path ((kernelSystem cfg).restrict (SingleReader cfg)) s vs s')
    (hoff : ∀ v ∈ vs, ¬ OnHart cfg v.2 t) : ReadUnderway cfg s t buf len vs s' := by
  have hpos := cfg.maxHarts_pos
  induction hp with
  | refl => exact .inl hw
  | @step vs s₁ s₂ e hp hg hs ih =>
    have hr₁ := hr.path hp
    have hb := basic_reachable hr₁.unrestrict
    have ho := orderly_reachable (fun _ _ hc => hc.killFree) hr₁
    have hr₂ := hr₁.next hg hs
    have ho₂ := orderly_reachable (fun _ _ hc => hc.killFree) hr₂
    rcases ih fun v hv => hoff v (List.mem_cons_of_mem _ hv) with hw₁ | ⟨hst, ha0, hdone⟩
    · rcases awaits_step hb ho (ring_wf_reachable hr₁.unrestrict) hg.1 hg.2 hs
        (by omega) h1 hbuf hlen
        hw₁ with hw₂ | ⟨hst, ha0, ch, hcomp⟩
      · exact .inl hw₂
      · exact .inr ⟨hst, ha0, [], e, s₂, vs, s₁, ch, rfl, hp, hs, hw₁, hcomp⟩
    · obtain ⟨htf, hst₂⟩ := ready_step hb ho hg.1 hg.2.killFree hs hlo hst
      rcases hst₂ with hst₂ | hst₂
      · exact .inr ⟨hst₂, by rw [htf]; exact ha0, hdone.cons⟩
      · -- a running thread is executed
        obtain ⟨⟨q, hsched⟩, -⟩ := ho₂.joins
        exact absurd (hsched.running t (by omega) h1 hst₂) (hoff (e, s₂) List.mem_cons_self)

/-- What the immediate path stores: the oldest unread characters, as many as the ring has and the
caller asked for. -/
theorem drained_eq (buf len : UInt64) (hwf : s.rx.WF) :
    (consoleReadNonblock s buf len).1 = min len.toNat s.rx.unread.length ∧
    (drained s buf len).mem =
      storeBytes s.mem buf (s.rx.unread.take (consoleReadNonblock s buf len).1) ∧
    (drained s buf len).rx.unread = s.rx.unread.drop (consoleReadNonblock s buf len).1 := by
  obtain ⟨h1, h2, -, h4⟩ := consoleReadLoop_eq buf len.toNat 0 s.mem hwf
  have hn : (consoleReadNonblock s buf len).1 = min len.toNat s.rx.unread.length := by
    have h1' : (consoleReadNonblock s buf len).1 = 0 + min len.toNat s.rx.unread.length := h1
    omega
  have hzero : buf + UInt64.ofNat 0 = buf := UInt64.add_zero buf
  rw [hzero] at h2
  refine ⟨hn, ?_, ?_⟩
  · rw [hn, List.take_eq_take_min.symm]
    exact h2
  · rw [hn]
    have h4' : (drained s buf len).rx.unread = s.rx.unread.drop len.toNat := h4
    rw [h4']
    rcases Nat.le_total len.toNat s.rx.unread.length with hle | hle
    · rw [Nat.min_eq_left hle]
    · rw [Nat.min_eq_right hle, List.drop_length, List.drop_of_length_le hle]

/-- In every kill-free run in which no read of stdin starts while a thread is blocked in one, a
`read(0, buf, len)` with `len > 0` that returns at once has the number of bytes it stored in `a0`,
and these are the oldest unread characters; one that blocks resumes with 1 in `a0`, after an
interrupt stored the first character received since. -/
theorem read_returns_stored_bytes (cfg : Config) {s s₁ : Kernel} {h : Nat} {regs : Trapframe}
    {io : TrapInput} {buf len : UInt64}
    (hr : Reachable ((kernelSystem cfg).restrict (SingleReader cfg)) s)
    (hg : Allowed cfg s (.trap h regs io)) (hc : SingleReader cfg s (.trap h regs io))
    (hstep : step cfg s (.trap h regs io) = .ok s₁) (ha : trapAction cfg regs io = .read 0 buf len)
    (hbuf : buf ≠ 0) (hlen : len ≠ 0) :
    (OnHart cfg s₁ (s.cpus h).currentTid →
      ∃ n : Nat, 1 ≤ n ∧ n ≤ len.toNat ∧ n ≤ s.rx.unread.length ∧
        (s₁.threads (s.cpus h).currentTid).tf.a0 = UInt64.ofNat n ∧
        s₁.mem = storeBytes s.mem buf (s.rx.unread.take n) ∧
        loadBytes s₁.mem buf n = s.rx.unread.take n ∧ s₁.rx.unread = s.rx.unread.drop n) ∧
    (∀ us w e s₂, ¬ OnHart cfg s₁ (s.cpus h).currentTid →
      Path ((kernelSystem cfg).restrict (SingleReader cfg)) s₁ us w →
      (∀ v ∈ us, ¬ OnHart cfg v.2 (s.cpus h).currentTid) → Allowed cfg w e →
      SingleReader cfg w e → step cfg w e = .ok s₂ → OnHart cfg s₂ (s.cpus h).currentTid →
      (s₂.threads (s.cpus h).currentTid).tf.a0 = 1 ∧
        CompletedIn cfg s₁ (s.cpus h).currentTid buf len us) := by
  have hb := basic_reachable hr.unrestrict
  have hwf := ring_wf_reachable hr.unrestrict
  have hpos := cfg.maxHarts_pos
  have hr₁ : Reachable ((kernelSystem cfg).restrict (SingleReader cfg)) s₁ :=
    hr.next (e := .trap h regs io) ⟨hg, hc⟩ hstep
  have ho₁ := orderly_reachable (fun _ _ hc => hc.killFree) hr₁
  obtain ⟨hlo, hhi⟩ := (trap_runAction hb hg hstep).2 (by rw [ha]; rfl)
  rcases trap_read hb hg hstep ha with ⟨hfd, -⟩ | ⟨-, hn, hs₁⟩ | ⟨-, hn, hrx, -, -, hreg, hth⟩
  · exact absurd rfl hfd
  · -- characters were there: the thread goes on
    have hexec : OnHart cfg s₁ (s.cpus h).currentTid := by
      rw [hs₁]
      exact ⟨h, hg.1, rfl⟩
    refine ⟨fun _ => ?_, fun us w e s₂ hno => absurd hexec hno⟩
    obtain ⟨hcount, hmem, hrest⟩ := drained_eq buf len hwf
    have hlt := s.rx.count_lt
    rw [← s.rx.length_unread] at hlt
    unfold consoleRbufSize at hlt
    have htake : (s.rx.unread.take (consoleReadNonblock s buf len).1).length =
        (consoleReadNonblock s buf len).1 := by
      rw [List.length_take]
      omega
    have hmem₁ :
        s₁.mem = storeBytes s.mem buf (s.rx.unread.take (consoleReadNonblock s buf len).1) := by
      rw [hs₁]
      exact hmem
    -- no more than were asked for, and no more than the ring held
    refine ⟨(consoleReadNonblock s buf len).1, hn, by omega, by omega, ?_, hmem₁, ?_, ?_⟩
    · rw [hs₁]
      unfold Kernel.setA0
      rw [Kernel.modThread_threads, if_pos rfl]
      rfl
    · have hback := loadBytes_storeBytes_self s.mem buf
        (s.rx.unread.take (consoleReadNonblock s buf len).1) (by omega)
      rw [htake] at hback
      rw [hmem₁]
      exact hback
    · rw [hs₁]
      exact hrest
  · -- the ring was empty: the thread waits until an interrupt completes its read
    have hblocked : (s₁.threads (s.cpus h).currentTid).state = .blocked := by
      rw [hth]
      rfl
    have hoff : ¬ OnHart cfg s₁ (s.cpus h).currentTid := by
      intro hexec
      rw [ho₁.running_of_onHart hexec] at hblocked
      cases hblocked
    refine ⟨fun hexec => absurd hexec hoff, ?_⟩
    intro us w e s₂ _ hp hus hg₂ hc₂ hs₂ hexec
    have hw : Awaits s₁ (s.cpus h).currentTid buf len := by
      refine ⟨hreg, hblocked, ?_, ?_⟩
      · rw [hth]
        exact ⟨rfl, rfl⟩
      · rw [hrx]
        exact ((consoleReadNonblock_eq_zero _ _ _).mp hn).resolve_left hlen
    have hrw := hr₁.path hp
    have hbw := basic_reachable hrw.unrestrict
    have how := orderly_reachable (fun _ _ hc => hc.killFree) hrw
    have hr₂ : Reachable ((kernelSystem cfg).restrict (SingleReader cfg)) s₂ :=
      hrw.next ⟨hg₂, hc₂⟩ hs₂
    have hrun := (orderly_reachable (fun _ _ hc => hc.killFree) hr₂).running_of_onHart hexec
    rcases readUnderway_path hr₁ hlo hhi hbuf hlen hw hp hus with hww | ⟨hst, ha0, hdone⟩
    · -- a blocked read is not resumed by the step that completes it
      exfalso
      rcases awaits_step hbw how (ring_wf_reachable hrw.unrestrict) hg₂ hc₂ hs₂
        (by omega) hhi hbuf hlen
        hww with hww₂ | ⟨hst, -⟩
      · rw [hww₂.blocked] at hrun
        cases hrun
      · rw [hst] at hrun
        cases hrun
    · -- completed earlier: the step that resumes the thread leaves its frame alone
      obtain ⟨htf, -⟩ := ready_step hbw how hg₂ hc₂.killFree hs₂ hlo hst
      exact ⟨by rw [htf]; exact ha0, hdone⟩

/-- `user_main` (1) blocks in a read of 8 bytes, `'A'` arrives, and thread 2 yields to it. -/
theorem read_returns_stored_bytes_example :
    ∃ s s₁ s₂ s₃, Reachable ((kernelSystem oneHart).restrict (SingleReader oneHart)) s ∧
      step oneHart s (sysReadStdin 0 0x5000 8) = .ok s₁ ∧
      step oneHart s₁ (uartIrq 0 [65]) = .ok s₂ ∧
      step oneHart s₂ (sysYield 0) = .ok s₃ ∧ OnHart oneHart s₃ 1 ∧ (s₃.threads 1).tf.a0 = 1 ∧
      CompletedIn oneHart s₁ 1 0x5000 8 [(uartIrq 0 [65], s₂)] := by
  obtain ⟨s, hr, hs⟩ := exists_reachable oneHart (SingleReader oneHart) bootOnHart0
    (startMain ++ [sysCreate 0])
    (fun s =>
      decide (SingleReader oneHart s (sysReadStdin 0 0x5000 8) ∧ (s.cpus 0).currentTid = 1) &&
      stepTo oneHart s (sysReadStdin 0 0x5000 8) fun s₁ =>
        decide (¬ OnHart oneHart s₁ 1 ∧ SingleReader oneHart s₁ (uartIrq 0 [65])) &&
        stepTo oneHart s₁ (uartIrq 0 [65]) fun s₂ =>
          decide (¬ OnHart oneHart s₂ 1 ∧ SingleReader oneHart s₂ (sysYield 0)) &&
          stepTo oneHart s₂ (sysYield 0) fun s₃ => decide (OnHart oneHart s₃ 1))
    (by decide +kernel)
  rw [Bool.and_eq_true, decide_eq_true_eq] at hs
  obtain ⟨⟨hc, hcur⟩, hread⟩ := hs
  obtain ⟨s₁, hg, hs₁, hnext⟩ := exists_step hread
  rw [Bool.and_eq_true, decide_eq_true_eq] at hnext
  obtain ⟨⟨hoff₁, hc₁⟩, hirq⟩ := hnext
  obtain ⟨s₂, hg₁, hs₂, hnext⟩ := exists_step hirq
  rw [Bool.and_eq_true, decide_eq_true_eq] at hnext
  obtain ⟨⟨hoff₂, hc₂⟩, hyield⟩ := hnext
  obtain ⟨s₃, hg₂, hs₃, hexec⟩ := exists_step hyield
  have hexec₃ := of_decide_eq_true hexec
  have hp :
      Path ((kernelSystem oneHart).restrict (SingleReader oneHart)) s₁ [(uartIrq 0 [65], s₂)] s₂ :=
    .step .refl ⟨hg₁, hc₁⟩ hs₂
  have hread := read_returns_stored_bytes oneHart hr hg hc hs₁ rfl (by decide) (by decide)
  rw [hcur] at hread
  have hus : ∀ v ∈ [(uartIrq 0 [65], s₂)], ¬ OnHart oneHart v.2 1 := by
    intro v hv
    rw [List.mem_singleton] at hv
    rw [hv]
    exact hoff₂
  obtain ⟨ha0, hdone⟩ := hread.2 _ _ _ _ hoff₁ hp hus hg₂ hc₂ hs₃ hexec₃
  exact ⟨s, s₁, s₂, s₃, hr, hs₁, hs₂, hs₃, hexec₃, ha0, hdone⟩

/-- With `len = 0` the same run resumes `user_main` with the number of `SYS_READ` in `a0`, and `'A'`
stays unread: nothing was stored. -/
theorem empty_read_returns_syscall_number :
    ∃ s s₁ s₂ s₃, Reachable ((kernelSystem oneHart).restrict (SingleReader oneHart)) s ∧
      (s.cpus 0).currentTid = 1 ∧ SingleReader oneHart s (sysReadStdin 0 0x5000 0) ∧
      step oneHart s (sysReadStdin 0 0x5000 0) = .ok s₁ ∧ ¬ OnHart oneHart s₁ 1 ∧
      SingleReader oneHart s₁ (uartIrq 0 [65]) ∧ step oneHart s₁ (uartIrq 0 [65]) = .ok s₂ ∧
      ¬ OnHart oneHart s₂ 1 ∧
      SingleReader oneHart s₂ (sysYield 0) ∧ step oneHart s₂ (sysYield 0) = .ok s₃ ∧
      OnHart oneHart s₃ 1 ∧ (s₃.threads 1).tf.a0 = 6 ∧ ¬ (s₃.threads 1).tf.a0 ≤ 0 ∧
      s₃.rx.unread = [65] := by
  obtain ⟨s, hr, hs⟩ := exists_reachable oneHart (SingleReader oneHart) bootOnHart0
    (startMain ++ [sysCreate 0])
    (fun s =>
      decide ((s.cpus 0).currentTid = 1 ∧ SingleReader oneHart s (sysReadStdin 0 0x5000 0)) &&
      stepTo oneHart s (sysReadStdin 0 0x5000 0) fun s₁ =>
        decide (¬ OnHart oneHart s₁ 1 ∧ SingleReader oneHart s₁ (uartIrq 0 [65])) &&
        stepTo oneHart s₁ (uartIrq 0 [65]) fun s₂ =>
          decide (¬ OnHart oneHart s₂ 1 ∧ SingleReader oneHart s₂ (sysYield 0)) &&
          stepTo oneHart s₂ (sysYield 0) fun s₃ =>
            decide (OnHart oneHart s₃ 1 ∧ (s₃.threads 1).tf.a0 = 6 ∧ s₃.rx.unread = [65]))
    (by decide +kernel)
  rw [Bool.and_eq_true, decide_eq_true_eq] at hs
  obtain ⟨⟨hcur, hc⟩, hread⟩ := hs
  obtain ⟨s₁, -, hs₁, hnext⟩ := exists_step hread
  rw [Bool.and_eq_true, decide_eq_true_eq] at hnext
  obtain ⟨⟨hoff₁, hc₁⟩, hirq⟩ := hnext
  obtain ⟨s₂, -, hs₂, hnext⟩ := exists_step hirq
  rw [Bool.and_eq_true, decide_eq_true_eq] at hnext
  obtain ⟨⟨hoff₂, hc₂⟩, hyield⟩ := hnext
  obtain ⟨s₃, -, hs₃, hend⟩ := exists_step hyield
  obtain ⟨hexec, ha0, hrx⟩ := of_decide_eq_true hend
  refine ⟨s, s₁, s₂, s₃, hr, hcur, hc, hs₁, hoff₁, hc₁, hs₂, hoff₂, hc₂, hs₃, hexec, ha0, ?_, hrx⟩
  rw [ha0]
  decide

end Ccos
