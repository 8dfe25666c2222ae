import Mathlib.Tactic
import Ccos.Smp.Frames
import Ccos.Smp.Harts

/-!
# `g_kernel_lock` and the order of traps

A trap is not one step of the machine.  `trap_entry` saves the registers of its hart in `cur_tf`,
`kernel_lock` spins until `amoswap` finds the lock free, the handler runs, `kernel_unlock` frees the
lock, and only then are the registers restored from the frame the handler left in `cur_tf`.  Other
harts do any of this in between.  `smpSystem` has these steps; its runs are runs of `kernelSystem`,
where a trap is one step taken when its handler runs.
-/

namespace Ccos

open Reasoning

/-! ## Harts between the instructions of a trap -/

/-- Where a hart is in `trap_entry`. -/
inductive TrapPhase
  /-- boot code, a thread, or the idle loop -/
  | outside
  /-- registers saved in `g_threads[tf].tf`, in the loop of `spin_lock` -/
  | spinning (tf : Int)
  /-- `g_kernel_lock` is taken, `trap_entry_c` has not dispatched yet -/
  | locked (tf : Int)
  /-- the trap is handled and `ret = cpu_this()->cur_tf` is read -/
  | unlocking (ret : TfPtr)
  /-- back in `trap.S`, or in `arch_first_switch`: the registers of `ret` are still to be loaded -/
  | returning (ret : TfPtr)
  deriving DecidableEq

structure Smp where
  kernel : Kernel
  /-- `g_kernel_lock.locked` -/
  lock : Bool
  phase : Nat → TrapPhase
  /-- the registers each hart was last resumed with -/
  resumed : Nat → Trapframe

inductive SmpEvent
  | cpuInit (h : Nat)
  /-- `cpu_enter_idle` up to `arch_first_switch` -/
  | enterIdle (h : Nat)
  /-- `trap_entry` up to the call of `trap_entry_c` -/
  | save (h : Nat) (regs : Trapframe)
  /-- one `amoswap` of `spin_lock` -/
  | swap (h : Nat)
  /-- `trap_entry_c` between `kernel_lock` and `kernel_unlock` -/
  | handle (h : Nat) (io : TrapInput)
  /-- the `amoswap` of `spin_unlock` -/
  | unlock (h : Nat)
  /-- the rest of `trap_entry`: `cpu->cur_tf = ret`, load the registers and `sret` -/
  | restore (h : Nat)

def Smp.setPhase (S : Smp) (h : Nat) (p : TrapPhase) : Smp :=
  { S with phase := fun k => if k = h then p else S.phase k }

variable (cfg : Config)

def smpStep (S : Smp) : SmpEvent → Except Halt Smp
  | .cpuInit h => do
    let k ← cpuInitThisHart cfg S.kernel h
    .ok { S with kernel := k }
  | .enterIdle h => do
    let k ← cpuEnterIdle cfg S.kernel h
    .ok (Smp.setPhase { S with kernel := k } h (.returning (.thread h)))
  | .save h regs =>
    match (S.kernel.cpus h).curTf with
    | .thread tf =>
      .ok (Smp.setPhase { S with kernel := S.kernel.modThread tf (Thread.setTf · regs) } h
        (.spinning tf))
    | _ => .error .noTf
  | .swap h =>
    match S.phase h with
    | .spinning tf =>
      -- 1 is written in any case; the loop ends when the old value was 0
      if S.lock then .ok S else .ok (Smp.setPhase { S with lock := true } h (.locked tf))
    | _ => .ok S
  | .handle h io =>
    match S.phase h with
    | .locked tf => do
      let k ← trapEntryC cfg S.kernel h tf io
      .ok (Smp.setPhase { S with kernel := k } h (.unlocking (k.cpus h).curTf))
    | _ => .ok S
  | .unlock h =>
    match S.phase h with
    | .unlocking ret => .ok (Smp.setPhase { S with lock := false } h (.returning ret))
    | _ => .ok S
  | .restore h =>
    match S.phase h with
    | .returning (.thread t) =>
      .ok (Smp.setPhase
        { S with
          kernel := S.kernel.modCpu h fun c => { c with curTf := .thread t }
          resumed := fun k => if k = h then (S.kernel.threads t).tf else S.resumed k } h .outside)
    | _ => .error .noTf

/-- A hart boots and traps outside of a trap, and goes through `trap_entry` in its order. -/
def SmpAllowed (S : Smp) : SmpEvent → Prop
  | .cpuInit h => S.phase h = .outside ∧ Allowed cfg S.kernel (.cpuInit h)
  | .enterIdle h => S.phase h = .outside ∧ Allowed cfg S.kernel (.enterIdle h)
  | .save h regs => S.phase h = .outside ∧ Allowed cfg S.kernel (.trap h regs {})
  | .swap h => ∃ tf, S.phase h = .spinning tf
  | .handle h _ => ∃ tf, S.phase h = .locked tf
  | .unlock h => ∃ ret, S.phase h = .unlocking ret
  | .restore h => ∃ ret, S.phase h = .returning ret

def smpSystem : System Halt Smp SmpEvent where
  init S := (kernelSystem cfg).init S.kernel ∧ S.lock = false ∧ ∀ h, S.phase h = .outside
  guard := SmpAllowed cfg
  step := smpStep cfg

/-- The step of the kernel that a step of the harts is: a trap happens when it is handled. -/
def smpLabel (S : Smp) : SmpEvent → Option Event
  | .cpuInit h => some (.cpuInit h)
  | .enterIdle h => some (.enterIdle h)
  | .handle h io =>
    match S.phase h with
    | .locked tf => some (.trap h (S.kernel.threads tf).tf io)
    | _ => none
  | _ => none

/-- No kill hits a thread that waits in `join` or that another hart executes. -/
def SmpNoStrayKill (S : Smp) (e : SmpEvent) : Prop :=
  ∀ e', smpLabel S e = some e' → NoStrayKill cfg S.kernel e'

/-! ## The relation between the two -/

/-- Hart `h` has saved its registers in the frame of `t` and has not been served yet. -/
def Smp.Pending (S : Smp) (h : Nat) (t : Int) : Prop :=
  S.phase h = .spinning t ∨ S.phase h = .locked t

def TrapPhase.holds : TrapPhase → Bool
  | .locked _ | .unlocking _ => true
  | _ => false

/-- The kernel of `S` is `s`, but for the registers that harts have saved and the handler has not
seen yet; one hart at most has the lock; and every hart was resumed with the frame of its current
thread. -/
structure Linearized (cfg : Config) (S : Smp) (s : Kernel) : Prop where
  rest : S.kernel = { s with threads := S.kernel.threads }
  frame : ∀ t, S.kernel.threads t = (s.threads t).setTf (S.kernel.threads t).tf
  saved : ∀ t, (∀ h, ¬ S.Pending h t) → S.kernel.threads t = s.threads t
  own : ∀ h t, S.Pending h t → (s.cpus h).currentTid = t ∧
    ∀ io, Allowed cfg s (.trap h (S.kernel.threads t).tf io)
  lock : S.lock = true ↔ ∃ h, (S.phase h).holds = true
  excl : ∀ h k, (S.phase h).holds = true → (S.phase k).holds = true → h = k
  ret : ∀ h r, S.phase h = .unlocking r ∨ S.phase h = .returning r →
    Entered cfg s h ∧ r = .thread (s.cpus h).currentTid
  resumed : ∀ h, Entered cfg s h → S.phase h = .outside →
    S.resumed h = (s.threads (s.cpus h).currentTid).tf

variable {cfg} {S S' : Smp} {s s' : Kernel} {h : Nat}

/-- A hart that has saved its registers is not entering or leaving, and has one frame. -/
theorem Smp.Pending.unique {t u : Int} (ht : S.Pending h t) (hu : S.Pending h u) : t = u := by
  rcases ht with ht | ht <;> rcases hu with hu | hu <;> rw [ht] at hu
  · exact TrapPhase.spinning.inj hu
  · cases hu
  · cases hu
  · exact TrapPhase.locked.inj hu

theorem Linearized.cpus (hl : Linearized cfg S s) : S.kernel.cpus = s.cpus := by
  rw [hl.rest]

/-- Guards read no frame. -/
theorem Linearized.allowed (hl : Linearized cfg S s) (e : Event) :
    Allowed cfg S.kernel e ↔ Allowed cfg s e := by
  cases e <;> simp only [Allowed, Entered, hl.cpus]

theorem Linearized.noStrayKill (hl : Linearized cfg S s) (e : Event) :
    NoStrayKill cfg S.kernel e ↔ NoStrayKill cfg s e := by
  have hstate : ∀ t, (S.kernel.threads t).state = (s.threads t).state := by
    intro t
    rw [hl.frame t]
    rfl
  have hkill : ∀ t, (S.kernel.threads t).canBeKilled = (s.threads t).canBeKilled := by
    intro t
    rw [hl.frame t]
    rfl
  cases e with
  | trap h regs io =>
    have hvictim : victim cfg S.kernel h (trapAction cfg regs io) =
        victim cfg s h (trapAction cfg regs io) := by
      cases trapAction cfg regs io with
      | kill t =>
        have hhit : KillHits cfg S.kernel h t ↔ KillHits cfg s h t := by
          simp only [KillHits, hstate, hkill, hl.cpus]
        simp only [victim, hhit]
      | _ => rfl
    simp only [NoStrayKill, hvictim, hstate, Entered, hl.cpus]
  | _ => rfl

/-! ## One step of one hart -/

/-- Hart `h` moved to the phase `p` and left the kernel `k` and the lock `lk`. -/
structure SmpMoved (S S' : Smp) (h : Nat) (k : Kernel) (lk : Bool) (p : TrapPhase) : Prop where
  kernel : S'.kernel = k
  lock : S'.lock = lk
  self : S'.phase h = p
  other : ∀ j, j ≠ h → S'.phase j = S.phase j
  resumed : ∀ j, j ≠ h → S'.resumed j = S.resumed j

theorem setPhase_moved (S : Smp) (h : Nat) (k : Kernel) (lk : Bool) (p : TrapPhase)
    (res : Nat → Trapframe) (hres : ∀ j, j ≠ h → res j = S.resumed j) :
    SmpMoved S (Smp.setPhase { S with kernel := k, lock := lk, resumed := res } h p) h k lk p :=
  ⟨rfl, rfl, if_pos rfl, fun _ hj => if_neg hj, hres⟩

/-- The lock changes hands only between the instructions that set and clear it. -/
inductive LockMove (S : Smp) (h : Nat) : Bool → TrapPhase → Prop
  | same {p : TrapPhase} : p.holds = (S.phase h).holds → LockMove S h S.lock p
  | take {p : TrapPhase} : S.lock = false → p.holds = true → LockMove S h true p
  | free {p : TrapPhase} : (S.phase h).holds = true → p.holds = false → LockMove S h false p

section Moved

variable {k : Kernel} {lk : Bool} {p : TrapPhase} (hm : SmpMoved S S' h k lk p)

include hm

theorem SmpMoved.pending_ne {j : Nat} (hj : j ≠ h) (t : Int) : S'.Pending j t ↔ S.Pending j t := by
  unfold Smp.Pending
  rw [hm.other j hj]

theorem SmpMoved.lock_iff (hlm : LockMove S h lk p)
    (hlock : S.lock = true ↔ ∃ j, (S.phase j).holds = true)
    (hexcl : ∀ i j, (S.phase i).holds = true → (S.phase j).holds = true → i = j) :
    (S'.lock = true ↔ ∃ j, (S'.phase j).holds = true) ∧
      ∀ i j, (S'.phase i).holds = true → (S'.phase j).holds = true → i = j := by
  cases hlm with
  | same hp =>
    have hholds : ∀ j, (S'.phase j).holds = (S.phase j).holds := by
      intro j
      by_cases hj : j = h
      · rw [hj, hm.self, hp]
      · rw [hm.other j hj]
    simp only [hm.lock, hholds]
    exact ⟨hlock, hexcl⟩
  | take hfree hp =>
    -- nobody had the lock
    have hnone : ∀ j, (S'.phase j).holds = true → j = h := by
      intro j hj
      by_contra hne
      rw [hm.other j hne] at hj
      rw [hlock.mpr ⟨j, hj⟩] at hfree
      cases hfree
    refine ⟨?_, fun i j hi hj => (hnone i hi).trans (hnone j hj).symm⟩
    rw [hm.lock]
    refine ⟨fun _ => ⟨h, ?_⟩, fun _ => rfl⟩
    rw [hm.self, hp]
  | free hp hp' =>
    have hnone : ∀ j, ¬ (S'.phase j).holds = true := by
      intro j hj
      by_cases hne : j = h
      · rw [hne, hm.self, hp'] at hj
        cases hj
      · rw [hm.other j hne] at hj
        exact hne (hexcl j h hj hp)
    refine ⟨?_, fun i _ hi => absurd hi (hnone i)⟩
    rw [hm.lock]
    refine ⟨fun hfalse => ?_, fun ⟨j, hj⟩ => absurd hj (hnone j)⟩
    cases hfalse

/-- The relation after a move of hart `h`, from what concerns `h` and what the others see. -/
theorem Linearized.moved (hl : Linearized cfg S s) (hlm : LockMove S h lk p)
    (hrest : k = { s' with threads := k.threads })
    (hframe : ∀ t, k.threads t = (s'.threads t).setTf (k.threads t).tf)
    (hsaved : ∀ t, (∀ j, ¬ S'.Pending j t) → k.threads t = s'.threads t)
    (hown : ∀ t, S'.Pending h t → (s'.cpus h).currentTid = t ∧
      ∀ io, Allowed cfg s' (.trap h (k.threads t).tf io))
    (hkeep : ∀ j t, j ≠ h → S.Pending j t → (k.threads t).tf = (S.kernel.threads t).tf)
    (hcpu : ∀ j, j ≠ h → (Entered cfg s' j ↔ Entered cfg s j) ∧
      (s'.cpus j).currentTid = (s.cpus j).currentTid ∧ (s'.cpus j).idleTid = (s.cpus j).idleTid)
    (hret : ∀ r, p = .unlocking r ∨ p = .returning r →
      Entered cfg s' h ∧ r = .thread (s'.cpus h).currentTid)
    (hself : Entered cfg s' h → p = .outside →
      S'.resumed h = (s'.threads (s'.cpus h).currentTid).tf)
    (htf : ∀ j, j ≠ h → Entered cfg s j →
      (s'.threads (s.cpus j).currentTid).tf = (s.threads (s.cpus j).currentTid).tf) :
    Linearized cfg S' s' := by
  obtain ⟨hlock, hexcl⟩ := hm.lock_iff hlm hl.lock hl.excl
  refine ⟨hm.kernel ▸ hrest, hm.kernel ▸ hframe, hm.kernel ▸ hsaved, ?_, hlock, hexcl, ?_, ?_⟩
  · -- another hart that has saved its registers still runs the same thread
    intro j t hp
    rw [hm.kernel]
    by_cases hj : j = h
    · subst hj
      exact hown t hp
    · rw [hm.pending_ne hj] at hp
      obtain ⟨hcur, hallow⟩ := hl.own j t hp
      obtain ⟨hent, hcur', hidle'⟩ := hcpu j hj
      refine ⟨hcur'.trans hcur, fun io => ⟨hent.mpr (hallow io).1, ?_⟩⟩
      rw [hkeep j t hj hp, hcur', hidle']
      exact (hallow io).2
  · intro j r hr
    by_cases hj : j = h
    · subst hj
      rw [hm.self] at hr
      exact hret r hr
    · rw [hm.other j hj] at hr
      obtain ⟨he, hr'⟩ := hl.ret j r hr
      obtain ⟨hent, hcur', -⟩ := hcpu j hj
      exact ⟨hent.mpr he, hcur'.symm ▸ hr'⟩
  · intro j he hout
    by_cases hj : j = h
    · subst hj
      rw [hm.self] at hout
      exact hself he hout
    · rw [hm.other j hj] at hout
      obtain ⟨hent, hcur', -⟩ := hcpu j hj
      rw [hm.resumed j hj, hl.resumed j (hent.mp he) hout, hcur', htf j hj (hent.mp he)]

end Moved

/-! ## Steps outside the handler -/

theorem not_pending {p : TrapPhase} (hp : S.phase h = p) (h1 : ∀ t, p ≠ .spinning t)
    (h2 : ∀ t, p ≠ .locked t) (t : Int) : ¬ S.Pending h t := by
  rintro (hq | hq) <;> rw [hp] at hq
  · exact h1 t hq
  · exact h2 t hq

section Silent

variable (hl : Linearized cfg S s) (hset : Settled cfg s)

include hl hset

theorem Linearized.curTf (he : Entered cfg s h) :
    (S.kernel.cpus h).curTf = .thread (s.cpus h).currentTid := by
  rw [hl.cpus]
  exact hset.basic.harts.curTf h he

/-- The frame of a hart's current thread belongs to that hart. -/
theorem Linearized.pending_cur {k : Nat} (he : Entered cfg s h)
    (hp : S.Pending k (s.cpus h).currentTid) : k = h := by
  obtain ⟨q, hs⟩ := hset.sched
  obtain ⟨hcur, hg⟩ := hl.own k _ hp
  exact hs.curInj k h (hg {}).1 he hcur

theorem Linearized.save {regs : Trapframe} (hg : SmpAllowed cfg S (.save h regs))
    (hs : smpStep cfg S (.save h regs) = .ok S') : Linearized cfg S' s := by
  obtain ⟨hout, hallow⟩ := hg
  rw [hl.allowed] at hallow
  have he : Entered cfg s h := hallow.1
  have hnot := not_pending hout nofun nofun
  have hm : SmpMoved S S' h (S.kernel.modThread (s.cpus h).currentTid (Thread.setTf · regs)) S.lock
      (.spinning (s.cpus h).currentTid) := by
    simp only [smpStep, hl.curTf hset he, Except.ok.injEq] at hs
    subst hs
    exact setPhase_moved S h _ _ _ S.resumed fun _ _ => rfl
  have hself : S'.Pending h (s.cpus h).currentTid := .inl hm.self
  refine hl.moved hm (.same ?_) ?_ ?_ ?_ ?_ ?_ (fun _ _ => ⟨Iff.rfl, rfl, rfl⟩) ?_ nofun
    (fun _ _ _ => rfl)
  · rw [hout]
    rfl
  · unfold Kernel.modThread
    rw [hl.rest]
  · intro t
    rw [Kernel.modThread_threads]
    split
    · rw [hl.frame t]
      rfl
    · exact hl.frame t
  · intro t hno
    have hne : t ≠ (s.cpus h).currentTid := fun heq => hno h (heq ▸ hself)
    rw [Kernel.modThread_threads, if_neg hne]
    refine hl.saved t fun j hp => ?_
    by_cases hj : j = h
    · exact hnot t (hj ▸ hp)
    · exact hno j ((hm.pending_ne hj t).mpr hp)
  · intro t hp
    obtain rfl := hp.unique hself
    refine ⟨rfl, fun io => ?_⟩
    rw [Kernel.modThread_threads, if_pos rfl]
    exact hallow
  · intro j t hj hp
    have hne : t ≠ (s.cpus h).currentTid := by
      rintro rfl
      exact hj (hl.pending_cur hset he hp)
    rw [Kernel.modThread_threads, if_neg hne]
  · intro r hr
    rcases hr with hr | hr <;> cases hr

omit hset in
theorem Linearized.swap (hg : SmpAllowed cfg S (.swap h))
    (hs : smpStep cfg S (.swap h) = .ok S') : Linearized cfg S' s := by
  obtain ⟨tf, hspin⟩ := hg
  simp only [smpStep, hspin] at hs
  split at hs
  · cases hs
    exact hl
  · rename_i hfree
    have hm : SmpMoved S S' h S.kernel true (.locked tf) := by
      cases hs
      exact setPhase_moved S h _ _ _ S.resumed fun _ _ => rfl
    have hpend : ∀ j t, S'.Pending j t ↔ S.Pending j t := by
      intro j t
      by_cases hj : j = h
      · subst hj
        unfold Smp.Pending
        rw [hm.self, hspin]
        simp
      · exact hm.pending_ne hj t
    refine hl.moved hm (.take (by simpa using hfree) rfl) hl.rest hl.frame ?_ ?_
      (fun _ _ _ _ => rfl)
      (fun _ _ => ⟨Iff.rfl, rfl, rfl⟩) ?_ nofun (fun _ _ _ => rfl)
    · intro t hno
      exact hl.saved t fun j hp => hno j ((hpend j t).mpr hp)
    · intro t hp
      exact hl.own h t ((hpend h t).mp hp)
    · intro r hr
      rcases hr with hr | hr <;> cases hr

omit hset in
theorem Linearized.unlock (hg : SmpAllowed cfg S (.unlock h))
    (hs : smpStep cfg S (.unlock h) = .ok S') : Linearized cfg S' s := by
  obtain ⟨ret, hun⟩ := hg
  have hm : SmpMoved S S' h S.kernel false (.returning ret) := by
    simp only [smpStep, hun, Except.ok.injEq] at hs
    subst hs
    exact setPhase_moved S h _ _ _ S.resumed fun _ _ => rfl
  have hnot := not_pending hun nofun nofun
  have hnot' := not_pending hm.self nofun nofun
  refine hl.moved hm (.free ?_ rfl) hl.rest hl.frame ?_ (fun t hp => absurd hp (hnot' t))
    (fun _ _ _ _ => rfl) (fun _ _ => ⟨Iff.rfl, rfl, rfl⟩) ?_ nofun (fun _ _ _ => rfl)
  · rw [hun]
    rfl
  · intro t hno
    refine hl.saved t fun j hp => ?_
    by_cases hj : j = h
    · exact hnot t (hj ▸ hp)
    · exact hno j ((hm.pending_ne hj t).mpr hp)
  · intro r hr
    rcases hr with hr | hr
    · cases hr
    · exact hl.ret h r (.inl (hun.trans (TrapPhase.returning.inj hr ▸ rfl)))

/-- The registers are loaded from the frame of the current thread, which nobody has touched since
the handler left it. -/
theorem Linearized.restore (hg : SmpAllowed cfg S (.restore h))
    (hs : smpStep cfg S (.restore h) = .ok S') : Linearized cfg S' s := by
  obtain ⟨ret, hret⟩ := hg
  obtain ⟨he, rfl⟩ := hl.ret h ret (.inr hret)
  have hnot := not_pending hret nofun nofun
  have hcur : S.kernel.modCpu h (fun c => { c with curTf := .thread (s.cpus h).currentTid }) =
      S.kernel := by
    unfold Kernel.modCpu
    have hcpus : (fun j => if j = h then { S.kernel.cpus j with
        curTf := .thread (s.cpus h).currentTid } else S.kernel.cpus j) = S.kernel.cpus := by
      funext j
      by_cases hj : j = h
      · subst hj
        rw [if_pos rfl, ← hl.curTf hset he]
      · rw [if_neg hj]
    rw [hcpus]
  simp only [smpStep, hret, Except.ok.injEq] at hs
  have hm : SmpMoved S S' h S.kernel S.lock .outside := by
    subst hs
    rw [hcur]
    exact setPhase_moved S h _ _ _ _ fun _ hj => if_neg hj
  have hnot' := not_pending hm.self nofun nofun
  have hno : ∀ t, (∀ j, ¬ S'.Pending j t) → ∀ j, ¬ S.Pending j t := by
    intro t hno j hp
    by_cases hj : j = h
    · exact hnot t (hj ▸ hp)
    · exact hno j ((hm.pending_ne hj t).mpr hp)
  refine hl.moved hm (.same ?_) hl.rest hl.frame (fun t hn => hl.saved t (hno t hn))
    (fun t hp => absurd hp (hnot' t)) (fun _ _ _ _ => rfl) (fun _ _ => ⟨Iff.rfl, rfl, rfl⟩) ?_ ?_
    (fun _ _ _ => rfl)
  · rw [hret]
    rfl
  · intro r hr
    rcases hr with hr | hr <;> cases hr
  · intro _ _
    have hres : S'.resumed h = (S.kernel.threads (s.cpus h).currentTid).tf := by
      subst hs
      exact if_pos rfl
    rw [hres, hl.saved (s.cpus h).currentTid fun j hp => ?_]
    obtain rfl := hl.pending_cur hset he hp
    exact hnot _ hp

end Silent

/-! ## Steps of the kernel -/

open Classical in
/-- The registers that harts other than `h` have saved and the handler has not seen. -/
noncomputable def Smp.saves (S : Smp) (h : Nat) (t : Int) : Option Trapframe :=
  if ∃ j, j ≠ h ∧ S.Pending j t then some (S.kernel.threads t).tf else none

theorem saves_pending {j : Nat} {t : Int} (hj : j ≠ h) (hp : S.Pending j t) :
    S.saves h t = some (S.kernel.threads t).tf := if_pos ⟨j, hj, hp⟩

theorem saves_none {t : Int} (hno : ∀ j, j ≠ h → ¬ S.Pending j t) : S.saves h t = none := by
  refine if_neg ?_
  rintro ⟨j, hj, hp⟩
  exact hno j hj hp

theorem saves_isSome {t : Int} (ht : S.saves h t ≠ none) : ∃ j, j ≠ h ∧ S.Pending j t := by
  by_contra hno
  exact ht (if_neg hno)

theorem Linearized.thread_eq (hl : Linearized cfg S s) {t : Int} (hnot : ¬ S.Pending h t) :
    S.kernel.threads t = (s.withFrames (S.saves h)).threads t := by
  show _ = (S.saves h t).elim (s.threads t) (s.threads t).setTf
  by_cases hp : ∃ j, j ≠ h ∧ S.Pending j t
  · obtain ⟨j, hj, hp⟩ := hp
    rw [saves_pending hj hp]
    exact hl.frame t
  · rw [saves_none fun j hj hq => hp ⟨j, hj, hq⟩]
    refine hl.saved t fun j hq => ?_
    by_cases hj : j = h
    · exact hnot (hj ▸ hq)
    · exact hp ⟨j, hj, hq⟩

/-- Outside of a trap of its own, a hart finds the kernel with the other harts' saves. -/
theorem Linearized.kernel_eq (hl : Linearized cfg S s) (hnot : ∀ t, ¬ S.Pending h t) :
    S.kernel = s.withFrames (S.saves h) := by
  have hthreads : S.kernel.threads = (s.withFrames (S.saves h)).threads :=
    funext fun t => hl.thread_eq (hnot t)
  rw [hl.rest, hthreads]
  rfl

/-- With the lock taken it finds its own save on top. -/
theorem Linearized.kernel_locked (hl : Linearized cfg S s) (hset : Settled cfg s) {t₀ : Int}
    (hp₀ : S.Pending h t₀) : S.saves h t₀ = none ∧
    S.kernel =
      (s.withFrames (S.saves h)).modThread t₀ (Thread.setTf · (S.kernel.threads t₀).tf) := by
  obtain ⟨hcur, hg⟩ := hl.own h t₀ hp₀
  have hnone : S.saves h t₀ = none := by
    refine saves_none fun j hj hp => hj ?_
    subst hcur
    exact hl.pending_cur hset (hg {}).1 hp
  have hthreads : S.kernel.threads = ((s.withFrames (S.saves h)).modThread t₀
      (Thread.setTf · (S.kernel.threads t₀).tf)).threads := by
    funext t
    rw [Kernel.modThread_threads]
    by_cases ht : t = t₀
    · subst ht
      rw [if_pos rfl, withFrames_none hnone]
      exact hl.frame t
    · rw [if_neg ht]
      exact hl.thread_eq fun hp => ht (hp.unique hp₀)
  refine ⟨hnone, ?_⟩
  conv_lhs => rw [hl.rest, hthreads]
  rfl

/-- The relation after a step of the kernel on hart `h`, which carried the other harts' saves
along. -/
theorem Linearized.stepped {p : TrapPhase} (hl : Linearized cfg S s)
    (hm : SmpMoved S S' h (s'.withFrames (S.saves h)) S.lock p)
    (hholds : p.holds = (S.phase h).holds) (h1 : ∀ t, p ≠ .spinning t) (h2 : ∀ t, p ≠ .locked t)
    (hcpu : ∀ j, j ≠ h → (Entered cfg s' j ↔ Entered cfg s j) ∧
      (s'.cpus j).currentTid = (s.cpus j).currentTid ∧ (s'.cpus j).idleTid = (s.cpus j).idleTid)
    (hret : ∀ r, p = .unlocking r ∨ p = .returning r →
      Entered cfg s' h ∧ r = .thread (s'.cpus h).currentTid)
    (hself : p = .outside → ¬ Entered cfg s' h)
    (htf : ∀ j, j ≠ h → Entered cfg s j →
      (s'.threads (s.cpus j).currentTid).tf = (s.threads (s.cpus j).currentTid).tf) :
    Linearized cfg S' s' := by
  have hnot' := not_pending hm.self h1 h2
  refine hl.moved hm (.same hholds) rfl ?_ ?_ (fun t hp => absurd hp (hnot' t)) ?_ hcpu hret
    (fun he hp => absurd he (hself hp)) htf
  · intro t
    show (S.saves h t).elim (s'.threads t) (s'.threads t).setTf = (s'.threads t).setTf
      ((S.saves h t).elim (s'.threads t) (s'.threads t).setTf).tf
    cases S.saves h t <;> rfl
  · intro t hno
    exact withFrames_none (saves_none fun j hj hp => hno j ((hm.pending_ne hj t).mpr hp))
  · intro j t hj hp
    show ((S.saves h t).elim (s'.threads t) (s'.threads t).setTf).tf = _
    rw [saves_pending hj hp]
    rfl

theorem Linearized.cpuInit (hl : Linearized cfg S s) (hg : SmpAllowed cfg S (.cpuInit h))
    (hs : smpStep cfg S (.cpuInit h) = .ok S') :
    ∃ s', step cfg s (.cpuInit h) = .ok s' ∧ Linearized cfg S' s' := by
  obtain ⟨hout, hallow⟩ := hg
  rw [hl.allowed] at hallow
  have hnot := not_pending hout nofun nofun
  have hlt : ¬ cfg.maxHarts ≤ h := by
    have hh := hallow.1
    omega
  simp only [smpStep, bind_eq_ok, Except.ok.injEq] at hs
  obtain ⟨k, hk, rfl⟩ := hs
  rw [hl.kernel_eq hnot] at hk
  have hok : ∃ s', cpuInitThisHart cfg s h = .ok s' ∧ k = s'.withFrames (S.saves h) := by
    unfold cpuInitThisHart at hk ⊢
    rw [if_neg hlt] at hk ⊢
    exact ⟨_, rfl, (Except.ok.inj hk).symm⟩
  obtain ⟨s', hs', rfl⟩ := hok
  refine ⟨s', hs', ?_⟩
  obtain ⟨-, c, -, -, -, hnull, -, rfl⟩ := cpuInit_cases hs'
  have hent : ∀ j, Entered cfg (s.modCpu h fun _ => c) j ↔ Entered cfg s j :=
    cpuInit_entered hnull hallow.2
  refine hl.stepped (h := h) (p := .outside)
    ⟨rfl, rfl, hout, fun _ _ => rfl, fun _ _ => rfl⟩ ?_ nofun
    nofun ?_ ?_ ?_ (fun _ _ _ => rfl)
  · rw [hout]
  · intro j hj
    refine ⟨hent j, ?_, ?_⟩ <;> rw [Kernel.modCpu_cpus, if_neg hj]
  · intro r hr
    rcases hr with hr | hr <;> cases hr
  · intro _ he
    have hon := ((hent h).mp he).2.1
    rw [hallow.2] at hon
    cases hon

theorem Linearized.enterIdle (hl : Linearized cfg S s) (hset : Settled cfg s)
    (hg : SmpAllowed cfg S (.enterIdle h)) (hs : smpStep cfg S (.enterIdle h) = .ok S') :
    ∃ s', step cfg s (.enterIdle h) = .ok s' ∧ Linearized cfg S' s' := by
  obtain ⟨hout, hallow⟩ := hg
  rw [hl.allowed] at hallow
  have hnot := not_pending hout nofun nofun
  simp only [smpStep, bind_eq_ok, Except.ok.injEq] at hs
  obtain ⟨k, hk, hS'⟩ := hs
  rw [hl.kernel_eq hnot, cpuEnterIdle_withFrames] at hk
  cases hs' : cpuEnterIdle cfg s h with
  | error e =>
    rw [hs'] at hk
    cases hk
  | ok s' =>
    rw [hs'] at hk
    obtain rfl : s'.withFrames (S.saves h) = k := Except.ok.inj hk
    have hm : SmpMoved S S' h (s'.withFrames (S.saves h)) S.lock (.returning (.thread h)) := by
      subst hS'
      exact setPhase_moved S h _ _ _ S.resumed fun _ _ => rfl
    refine ⟨s', hs', ?_⟩
    obtain ⟨-, -, -, -, -, -, -, -, -, hcpus, hthreads, -⟩ := enterIdle_cases hs'
    have hent := enterIdle_entered hset.basic hallow hs'
    refine hl.stepped hm ?_ nofun nofun ?_ ?_ nofun ?_
    · rw [hout]
      rfl
    · intro j hj
      rw [hent, hcpus, if_neg hj]
      simp [hj]
    · intro r hr
      rcases hr with hr | hr
      · cases hr
      · rw [hcpus, if_pos rfl]
        exact ⟨(hent h).mpr (.inl rfl), (TrapPhase.returning.inj hr).symm⟩
    · intro j _ _
      rw [hthreads]
      split
      · rfl
      · rfl

theorem trap_harts {regs : Trapframe} {io : TrapInput} (hb : Basic cfg s)
    (hg : Allowed cfg s (.trap h regs io)) (hs : step cfg s (.trap h regs io) = .ok s') :
    (∀ j, Entered cfg s' j ↔ Entered cfg s j) ∧ ∀ j, j ≠ h →
      (s'.cpus j).currentTid = (s.cpus j).currentTid ∧
      (s'.cpus j).idleTid = (s.cpus j).idleTid := by
  obtain ⟨s₁, hran⟩ := trap_ran (fun _ => True) hb hg hs trivial fun _ _ _ _ _ _ _ => trivial
  have hsame := hran.sameCpu
  rcases hran.last with ⟨-, rq, next, rq', hsch⟩ | ⟨-, rfl⟩
  · refine ⟨fun j => ?_, fun j hj => ?_⟩
    · rw [hsch.entered hran.entered]
      exact SameCpu.entered hsame j
    · rw [hsch.cpus_ne hj]
      exact ⟨(hsame j).2.2.2.1, (hsame j).2.2.2.2⟩
  · exact ⟨SameCpu.entered hsame, fun j _ => ⟨(hsame j).2.2.2.1, (hsame j).2.2.2.2⟩⟩

/-- A handled trap is the trap of the kernel with the registers its hart had saved. -/
theorem Linearized.handle {io : TrapInput} {tf : Int} (hl : Linearized cfg S s)
    (hset : Settled cfg s) (hro : ReaderOff cfg s) (hp : S.phase h = .locked tf)
    (hc : NoStrayKill cfg s (.trap h (S.kernel.threads tf).tf io))
    (hs : smpStep cfg S (.handle h io) = .ok S') :
    Allowed cfg s (.trap h (S.kernel.threads tf).tf io) ∧
      ∃ s', step cfg s (.trap h (S.kernel.threads tf).tf io) = .ok s' ∧ Linearized cfg S' s' := by
  have hpend : S.Pending h tf := .inr hp
  obtain ⟨hcur, hallow⟩ := hl.own h tf hpend
  have hg := hallow io
  have he := hg.1
  obtain ⟨hnone, hkernel⟩ := hl.kernel_locked hset hpend
  have hb := hset.basic
  have hcurTf := hb.harts.curTf h he
  refine ⟨hg, ?_⟩
  simp only [smpStep, hp, bind_eq_ok, Except.ok.injEq] at hs
  obtain ⟨k, hk, hS'⟩ := hs
  -- the handler runs on the saves of the other harts, which commute with it
  have hentry : trapEntryC cfg S.kernel h tf io =
      trapEntry cfg (s.withFrames (S.saves h)) h (S.kernel.threads tf).tf io := by
    unfold trapEntry
    rw [withFrames_cpus, hcurTf, hcur]
    dsimp only
    rw [← hkernel]
  have hown : OwnThread cfg (S.saves h) s h := ⟨hcur.symm ▸ hnone, hb.cur_ok he⟩
  have hby : ∀ u, S.saves h u ≠ none →
      Bystands cfg s h (trapAction cfg (S.kernel.threads tf).tf io) u := by
    intro u hu
    obtain ⟨j, hj, hpj⟩ := saves_isSome hu
    obtain ⟨hcurj, hallowj⟩ := hl.own j u hpj
    rw [← hcurj]
    exact hset.current_bystands hro hg hc (hallowj {}).1 hj
  rw [hentry, trapEntry_withFrames hown hcurTf hby] at hk
  cases hs' : trapEntry cfg s h (S.kernel.threads tf).tf io with
  | error e =>
    rw [hs'] at hk
    cases hk
  | ok s' =>
    rw [hs'] at hk
    obtain rfl : s'.withFrames (S.saves h) = k := Except.ok.inj hk
    have hstep : step cfg s (.trap h (S.kernel.threads tf).tf io) = .ok s' := hs'
    obtain ⟨hent, hother⟩ := trap_harts hb hg hstep
    have hcurTf' := (basic_step hb hg hstep).harts.curTf h ((hent h).mpr he)
    have hm : SmpMoved S S' h (s'.withFrames (S.saves h)) S.lock
        (.unlocking (.thread (s'.cpus h).currentTid)) := by
      subst hS'
      rw [withFrames_cpus, hcurTf']
      exact setPhase_moved S h _ _ _ S.resumed fun _ _ => rfl
    refine ⟨s', hstep, hl.stepped hm ?_ nofun nofun ?_ ?_ nofun ?_⟩
    · rw [hp]
      rfl
    · exact fun j hj => ⟨hent j, (hother j hj).1, (hother j hj).2⟩
    · intro r hr
      rcases hr with hr | hr
      · exact ⟨(hent h).mpr he, (TrapPhase.unlocking.inj hr).symm⟩
      · cases hr
    · exact fun j hj hej => hset.current_tf hro hg hc hstep hej hj

/-! ## Runs -/

/-- No hart has entered idle when the run starts. -/
theorem init_not_entered (hi : (kernelSystem cfg).init s) (j : Nat) : ¬ Entered cfg s j := by
  obtain ⟨s₀, s₁, tid, entry, arg, name, sstatus, hboot, hcreate, rfl⟩ := init_cases hi
  have hsame : SameHarts s₀ s₁ := by
    rcases threadCreateUser_cases hcreate with ⟨-, rfl⟩ | ⟨-, -, -, hmake⟩
    · exact .refl _
    · have hwake := threadMakeRunnable_sameHarts hmake
      exact hwake
  have hent : Entered cfg s₁ j ↔ Entered cfg s₀ j := hsame.entered j cfg
  exact fun he => (hboot.cpus j).not_entered (hent.mp he)

theorem smp_simulation (cfg : Config) :
    Simulation ((smpSystem cfg).restrict (SmpNoStrayKill cfg))
      ((kernelSystem cfg).restrict (NoStrayKill cfg)) smpLabel (Linearized cfg) where
  init S := by
    rintro ⟨hinit, hfree, hout⟩
    have hnot : ∀ j t, ¬ S.Pending j t := fun j => not_pending (hout j) nofun nofun
    have hoff := init_not_entered hinit
    refine ⟨S.kernel, hinit, rfl, fun _ => rfl, fun _ _ => rfl, fun j t hp => absurd hp (hnot j t),
      ?_, ?_, ?_, fun j he => absurd he (hoff j)⟩
    · rw [hfree]
      refine ⟨nofun, fun ⟨j, hj⟩ => ?_⟩
      rw [hout j] at hj
      cases hj
    · intro j k hj
      rw [hout j] at hj
      cases hj
    · intro j r hr
      rw [hout j] at hr
      rcases hr with hr | hr <;> cases hr
  -- around the handler a hart changes its phase, the lock and its own frame only
  silent S e S' s hr hl hg hs hlabel := by
    have hset := settled_reachable hr
    cases e with
    | cpuInit h => cases hlabel
    | enterIdle h => cases hlabel
    | save h regs => exact hl.save hset hg.1 hs
    | swap h => exact hl.swap hg.1 hs
    | handle h io =>
      obtain ⟨tf, hp⟩ := hg.1
      simp only [smpLabel, hp] at hlabel
      cases hlabel
    | unlock h => exact hl.unlock hg.1 hs
    | restore h => exact hl.restore hset hg.1 hs
  -- a trap takes effect when its handler runs, with the registers saved in the frame
  visible S e S' s e' hr hl hg hs hlabel := by
    have hset := settled_reachable hr
    have hc : NoStrayKill cfg s e' := (hl.noStrayKill e').mp (hg.2 e' hlabel)
    cases e with
    | cpuInit h =>
      obtain rfl := Option.some.inj hlabel
      obtain ⟨s', hs', hl'⟩ := hl.cpuInit hg.1 hs
      exact ⟨s', ⟨(hl.allowed _).mp hg.1.2, hc⟩, hs', hl'⟩
    | enterIdle h =>
      obtain rfl := Option.some.inj hlabel
      obtain ⟨s', hs', hl'⟩ := hl.enterIdle hset hg.1 hs
      exact ⟨s', ⟨(hl.allowed _).mp hg.1.2, hc⟩, hs', hl'⟩
    | handle h io =>
      obtain ⟨tf, hp⟩ := hg.1
      simp only [smpLabel, hp, Option.some.injEq] at hlabel
      subst hlabel
      obtain ⟨hallow, s', hs', hl'⟩ := hl.handle hset (readerOff_reachable hr) hp hc hs
      exact ⟨s', ⟨hallow, hc⟩, hs', hl'⟩
    | save h regs => cases hlabel
    | swap h => cases hlabel
    | unlock h => cases hlabel
    | restore h => cases hlabel

instance (S : Smp) : (e : SmpEvent) → Decidable (SmpAllowed cfg S e)
  | .cpuInit _ => inferInstanceAs (Decidable (_ ∧ _))
  | .enterIdle _ => inferInstanceAs (Decidable (_ ∧ _))
  | .save _ _ => inferInstanceAs (Decidable (_ ∧ _))
  | .swap h =>
    match hp : S.phase h with
    | .spinning tf => isTrue ⟨tf, hp⟩
    | .outside | .locked _ | .unlocking _ | .returning _ =>
      isFalse fun ⟨tf, ht⟩ => by rw [hp] at ht; cases ht
  | .handle h _ =>
    match hp : S.phase h with
    | .locked tf => isTrue ⟨tf, hp⟩
    | .outside | .spinning _ | .unlocking _ | .returning _ =>
      isFalse fun ⟨tf, ht⟩ => by rw [hp] at ht; cases ht
  | .unlock h =>
    match hp : S.phase h with
    | .unlocking ret => isTrue ⟨ret, hp⟩
    | .outside | .spinning _ | .locked _ | .returning _ =>
      isFalse fun ⟨tf, ht⟩ => by rw [hp] at ht; cases ht
  | .restore h =>
    match hp : S.phase h with
    | .returning ret => isTrue ⟨ret, hp⟩
    | .outside | .spinning _ | .locked _ | .unlocking _ =>
      isFalse fun ⟨tf, ht⟩ => by rw [hp] at ht; cases ht

instance (S : Smp) (e : SmpEvent) : Decidable (SmpNoStrayKill cfg S e) :=
  match hl : smpLabel S e with
  | none => isTrue fun _ he => by rw [hl] at he; cases he
  | some e' => decidable_of_iff (NoStrayKill cfg S.kernel e')
      ⟨fun hc _ he => by rw [hl] at he; exact Option.some.inj he ▸ hc, fun hc => hc e' hl⟩

instance (S : Smp) (e : SmpEvent) :
    Decidable (((smpSystem cfg).restrict (SmpNoStrayKill cfg)).guard S e) :=
  inferInstanceAs (Decidable (SmpAllowed cfg S e ∧ SmpNoStrayKill cfg S e))

/-- Both harts trap at the same time; hart 1 finds the lock taken while hart 0 is served. -/
def bothTrap : List SmpEvent :=
  [.enterIdle 0, .cpuInit 1, .restore 0, .enterIdle 1, .restore 1,
    .save 0 { scause := 0x8000000000000001 }, .save 1 { scause := 0x8000000000000001, a0 := 7 },
    .swap 0, .swap 1, .handle 0 {}]

end Ccos
