import Mathlib.Tactic
import Ccos.Join.Table
import Ccos.Sched.Consistent

/-!
# The kernel refines the join protocol

`Kernel.slots` forgets everything about a thread but its part in `join`.  Seen through it, a trap is
one event of the protocol, `joinEvent`, followed by what `schedule` does to the thread it leaves.
-/

namespace Ccos

open Reasoning

/-! ## The abstraction -/

def ThreadState.phase : ThreadState → Phase
  | .unused => .unused
  | .waiting => .waiting
  | .zombie => .zombie
  | _ => .alive

@[simps]
def Thread.slot (t : Thread) : Slot where
  phase := t.state.phase
  joinWaiter := t.joinWaiter
  waitingFor := t.waitingFor
  statusPtr := t.joinStatusPtr
  detached := t.detached
  exitCode := t.exitCode

def Kernel.slots (s : Kernel) : Table := fun t => (s.threads t).slot

variable {cfg : Config} {dead : Prop} {s s' : Kernel} {h : Nat} {q : Nat → List Int}

theorem phase_eq_unused {st : ThreadState} : st.phase = .unused ↔ st = .unused := by
  cases st <;> simp [ThreadState.phase]

theorem phase_eq_waiting {st : ThreadState} : st.phase = .waiting ↔ st = .waiting := by
  cases st <;> simp [ThreadState.phase]

theorem phase_eq_zombie {st : ThreadState} : st.phase = .zombie ↔ st = .zombie := by
  cases st <;> simp [ThreadState.phase]

theorem SameThread.slot {t t' : Thread} (hs : SameThread t t') : t'.slot = t.slot := by
  rw [hs]
  rfl

theorem Quiet.slots (hq : Quiet h s s') : s'.slots = s.slots := by
  funext t
  exact (hq.threads t).slot

theorem Kernel.slots_modThread (s : Kernel) (t : Int) (f : Thread → Thread) :
    (s.modThread t f).slots = s.slots.set t (f (s.threads t)).slot := by
  funext u
  unfold Kernel.slots Table.set
  rw [Kernel.modThread_threads]
  by_cases hu : u = t
  · rw [if_pos hu, if_pos hu, hu]
  · rw [if_neg hu, if_neg hu]

theorem slots_eq_of_threads (hth : s'.threads = s.threads) : s'.slots = s.slots := by
  unfold Kernel.slots
  rw [hth]

@[simp] theorem Table.set_same (V : Table) (t : Int) : V.set t (V t) = V := by
  funext u
  by_cases hu : u = t
  · rw [hu, Table.set_self]
  · rw [Table.set_ne V _ hu]

@[simp] theorem Table.set_set (V : Table) (t : Int) (x y : Slot) :
    (V.set t x).set t y = V.set t y := by
  funext u
  by_cases hu : u = t
  · rw [hu, Table.set_self, Table.set_self]
  · rw [Table.set_ne _ _ hu, Table.set_ne _ _ hu, Table.set_ne _ _ hu]

/-! ## Kernel functions -/

/-- Waking a thread that lives changes nothing. -/
theorem threadMakeRunnable_slots {t : Int} {p : Nat}
    (hw : threadMakeRunnable cfg s h t p = .ok s') (ht : (s.threads t).state.phase = .alive) :
    s'.slots = s.slots := by
  rcases threadMakeRunnable_cases hw with ⟨rfl, -⟩ | ⟨rq, hw⟩
  · rfl
  · funext u
    show (s'.threads u).slot = (s.threads u).slot
    rw [hw.threads]
    split
    · rename_i hu
      subst hu
      unfold Thread.slot
      rw [ht]
      rfl
    · rfl

/-- Waking the thread that waits. -/
theorem threadMakeRunnable_slots_waiting {t : Int} {p : Nat}
    (hw : threadMakeRunnable cfg s h t p = .ok s') (hst : (s.threads t).state = .waiting)
    (h1 : (cfg.maxHarts : Int) ≤ t) (h2 : t < cfg.threadMax) (hoff : s.rq.onRq t = false) :
    s'.slots = s.slots.set t (s.slots t).suspend := by
  rcases threadMakeRunnable_cases hw with ⟨-, hno⟩ | ⟨rq, hw⟩
  · exfalso
    rcases hno with hlt | hge | hon | hrun
    · omega
    · omega
    · rw [hoff] at hon
      cases hon
    · rw [hst] at hrun
      cases hrun
  · funext u
    show (s'.threads u).slot = _
    rw [hw.threads]
    by_cases hu : u = t
    · subst hu
      rw [if_pos rfl, Table.set_self]
      rfl
    · rw [if_neg hu, Table.set_ne _ _ hu]
      rfl

theorem recycleThread_slots {t : Int} (h1 : 0 < t) (h2 : t < cfg.threadMax) :
    (recycleThread cfg s t).slots = s.slots.recycle t := by
  rw [recycleThread_eq h1 h2]
  show ((s.setStdinWaiter _).modThread t Thread.recycled).slots = _
  rw [Kernel.slots_modThread]
  rfl

/-- `schedule` reclaims the thread it leaves or changes nothing. -/
theorem Scheduled.slots {rq rq' : RunQueues} {next : Int} (hs : Scheduled cfg h s rq next rq' s')
    (hidle : (s.threads (s.cpus h).idleTid).state.phase = .alive) :
    s'.slots = s.slots.reclaim cfg.threadMax (s.cpus h).currentTid := by
  -- first the thread that is left
  have hleft : (leftKernel cfg s h rq).slots =
      s.slots.reclaim cfg.threadMax (s.cpus h).currentTid := by
    have hmod : (leftKernel cfg s h rq).slots = s.slots.set (s.cpus h).currentTid
        (leftThread cfg ((s.cpus h).currentTid = (s.cpus h).idleTid)
          (s.threads (s.cpus h).currentTid)).slot :=
      Kernel.slots_modThread ((s.setRq rq).setStdinWaiter (leftWaiter cfg s h)) _ _
    have hrec : Reclaims cfg (s.threads (s.cpus h).currentTid) ↔
        ((s.slots (s.cpus h).currentTid).phase = .zombie ∧
          ((0 ≤ (s.slots (s.cpus h).currentTid).joinWaiter ∧
            (s.slots (s.cpus h).currentTid).joinWaiter < cfg.threadMax) ∨
          (s.slots (s.cpus h).currentTid).detached = true)) := by
      show _ ↔ ((s.threads (s.cpus h).currentTid).state.phase = .zombie ∧ _)
      rw [phase_eq_zombie]
      rfl
    rw [hmod]
    unfold Table.reclaim
    by_cases hz : Reclaims cfg (s.threads (s.cpus h).currentTid)
    · have hne : ¬ (s.cpus h).currentTid = (s.cpus h).idleTid := by
        intro heq
        have hst := hz.1
        rw [heq] at hst
        rw [hst] at hidle
        cases hidle
      rw [if_pos (hrec.mp hz), leftThread_reclaimed hne hz]
      rfl
    · rw [if_neg fun hcond => hz (hrec.mpr hcond)]
      have hsame : (leftThread cfg ((s.cpus h).currentTid = (s.cpus h).idleTid)
          (s.threads (s.cpus h).currentTid)).slot = s.slots (s.cpus h).currentTid := by
        by_cases hrun : (s.cpus h).currentTid = (s.cpus h).idleTid ∨
            (s.threads (s.cpus h).currentTid).state = .running
        · rw [leftThread_requeued hrun]
          have halive : (s.threads (s.cpus h).currentTid).state.phase = .alive := by
            rcases hrun with heq | hst
            · rw [heq]
              exact hidle
            · rw [hst]
              rfl
          show _ = (s.threads (s.cpus h).currentTid).slot
          unfold Thread.slot
          rw [halive]
          rfl
        · rw [leftThread_kept (not_or.mp hrun).1 (not_or.mp hrun).2 hz]
          rfl
      rw [hsame, Table.set_same]
  -- then the thread that runs next, which lived before
  rw [← hleft]
  funext u
  show (s'.threads u).slot = ((leftKernel cfg s h rq).threads u).slot
  rw [hs.threads]
  split
  · rename_i hu
    subst hu
    have halive : ((leftKernel cfg s h rq).threads u).state.phase = .alive := by
      rcases hs.picked.next with ⟨hn, -⟩ | ⟨-, hn, -⟩
      · subst hn
        rw [leftKernel_threads]
        split
        · rename_i heq
          rw [leftThread_requeued (.inl heq.symm)]
          rfl
        · exact hidle
      · rw [hn]
        rfl
    show Slot.mk _ _ _ _ _ _ = _
    unfold Thread.slot
    rw [halive]
    rfl
  · rfl

/-! ## Handlers -/

/-- The event of the protocol that an action is, read off the state it starts from. -/
def joinEvent (cfg : Config) (s : Kernel) (h : Nat) : Action → JoinEvent
  | .exit code => .terminate (s.cpus h).currentTid code true
  | .kill t =>
    if KillHits cfg s h t then
      .terminate t exitcodeSigkill (decide ((s.threads t).runningHart < 0))
    else .skip
  | .join t p =>
    if JoinAccepts cfg s h t then
      if (s.threads t).state = .zombie then .collect t else .wait (s.cpus h).currentTid t p
    else .skip
  | .detach t =>
    if DetachAccepts cfg s t then
      if (s.threads t).state = .zombie then .collect t else .detach t
    else .skip
  | .create _ _ _ _ =>
    if allocThreadSlot cfg s < 0 then .skip else .create (allocThreadSlot cfg s)
  | .sleep ticks => if ticks ≠ 0 then .suspend (s.cpus h).currentTid else .skip
  | .read fd _ len =>
    if fd = 0 ∧ (len = 0 ∨ s.rx.isEmpty = true) then .suspend (s.cpus h).currentTid else .skip
  | _ => .skip

theorem joinEvent_saveRegs {regs : Trapframe} (a : Action) :
    joinEvent cfg (saveRegs s h regs) h a = joinEvent cfg s h a := by
  have halloc : allocThreadSlot cfg (saveRegs s h regs) = allocThreadSlot cfg s := by
    unfold allocThreadSlot
    simp only [saveRegs_state]
  cases a with
  | read fd buf len => rfl
  | _ => simp only [joinEvent, saveRegs_cpus, killHits_saveRegs, joinAccepts_saveRegs,
      detachAccepts_saveRegs, saveRegs_state, saveRegs_runningHart, halloc]

/-- Before `schedule`, the idle thread of the hart lives; after it, the thread it left may be
gone. -/
theorem schedule_slots {s₁ : Kernel} {cur : Int} {V : Table}
    (hsch : schedule cfg s₁ h cur = .ok s') (hV : s₁.slots = V)
    (hb : Basic cfg s) (he : Entered cfg s h) (hcpus : SameCpu (s.cpus h) (s₁.cpus h))
    (hidle : (V h).phase = .alive) :
    s'.slots = V.reclaim cfg.threadMax (s.cpus h).currentTid := by
  obtain ⟨-, -, -, hcur, hid⟩ := hcpus
  have hidle₁ : (s₁.threads (s₁.cpus h).idleTid).state.phase = .alive := by
    rw [hid, he.2.2.2.1]
    rw [← hV] at hidle
    exact hidle
  have hok : (s₁.cpus h).currentTid ≠ (s₁.cpus h).idleTid →
      0 < (s₁.cpus h).currentTid ∧ (s₁.cpus h).currentTid < cfg.threadMax := by
    rw [hcur, hid]
    exact hb.cur_ok he
  obtain ⟨rq, next, rq', hsched⟩ := schedule_cases hok hsch
  rw [hsched.slots hidle₁, hcur, hV]

/-- Idle threads live. -/
theorem Basic.idle_alive (hb : Basic cfg s) {t : Int} (h1 : 0 ≤ t) (h2 : t < cfg.maxHarts) :
    (s.slots t).phase = .alive := by
  show (s.threads t).state.phase = .alive
  rcases (hb.idle t h1 h2).1 with hst | hst <;> rw [hst] <;> rfl

theorem sleepCur_slots (ticks : UInt64) :
    (sleepCur s h ticks).slots =
      s.slots.set (s.cpus h).currentTid (s.slots (s.cpus h).currentTid).suspend :=
  Kernel.slots_modThread s (s.cpus h).currentTid (Thread.sleepUntil · (s.ticks + ticks))

theorem blockCur_slots (buf len : UInt64) :
    (blockCur s h buf len).slots =
      s.slots.set (s.cpus h).currentTid (s.slots (s.cpus h).currentTid).suspend := by
  have hpend : (s.modThread (s.cpus h).currentTid (Thread.setPendingRead · buf len)).slots =
      s.slots := Quiet.slots (Quiet.modThread h s _ fun x => rfl)
  have hblock := Kernel.slots_modThread
    ((s.modThread (s.cpus h).currentTid (Thread.setPendingRead · buf len)).setStdinWaiter
      ((s.modThread (s.cpus h).currentTid (Thread.setPendingRead · buf len)).threads
        (s.cpus h).currentTid).id) (s.cpus h).currentTid (Thread.setState · .blocked)
  have hslot : (((s.modThread (s.cpus h).currentTid (Thread.setPendingRead · buf len)).threads
      (s.cpus h).currentTid).setState .blocked).slot =
      (s.slots (s.cpus h).currentTid).suspend := by
    simp only [Kernel.modThread_threads, if_true]
    rfl
  have hset : (blockCur s h buf len).slots =
      (s.modThread (s.cpus h).currentTid (Thread.setPendingRead · buf len)).slots.set
        (s.cpus h).currentTid
        (((s.modThread (s.cpus h).currentTid (Thread.setPendingRead · buf len)).threads
          (s.cpus h).currentTid).setState .blocked).slot := hblock
  rw [hset, hslot, hpend]

theorem waitCur_slots {t : Int} {p : UInt64} :
    (waitCur s h t p).slots = s.slots.wait (s.cpus h).currentTid t p := by
  unfold waitCur
  rw [Kernel.slots_modThread, Kernel.slots_modThread]
  unfold Table.wait
  have hslot : (((s.modThread (s.cpus h).currentTid (Thread.waitFor · t p)).threads t).setJoinWaiter
      (s.cpus h).currentTid).slot =
      (s.slots.set (s.cpus h).currentTid ((s.slots (s.cpus h).currentTid).wait t p) t).setJoinWaiter
        (s.cpus h).currentTid := by
    rw [Kernel.modThread_threads]
    unfold Table.set
    split
    · rename_i ht
      rw [ht]
      rfl
    · rfl
  rw [hslot]
  rfl

/-! ### Termination -/

/-- The joiner of a dying thread, if one is recorded, waits. -/
def JoinerWaiting (cfg : Config) (s : Kernel) (t : Int) : Prop :=
  0 ≤ (s.threads t).joinWaiter → (s.threads t).joinWaiter < cfg.threadMax ∧
    (s.threads (s.threads t).joinWaiter).state = .waiting

theorem Basic.waiting_user (hb : Basic cfg s) {w : Int} (h0 : 0 ≤ w)
    (hw : (s.threads w).state = .waiting) : (cfg.maxHarts : Int) ≤ w := by
  by_contra hlt
  rcases (hb.idle w h0 (by omega)).1 with hst | hst <;> rw [hw] at hst <;> cases hst

theorem deliver_slots (w code : Int) :
    (deliver s w code).slots =
      s.slots.set w { s.slots w with waitingFor := -1, statusPtr := 0 } := by
  have hquiet : ((storeStatus s (s.threads w).joinStatusPtr code).setA0 w 0).slots = s.slots :=
    (Quiet.slots (Quiet.setA0 0 _ w 0)).trans (Quiet.slots (Quiet.storeStatus 0 s _ code))
  unfold deliver
  rw [Kernel.slots_modThread, hquiet]
  congr 1
  have hslot : (((storeStatus s (s.threads w).joinStatusPtr code).setA0 w 0).threads w).slot =
      s.slots w := congrFun hquiet w
  show Slot.mk _ _ _ _ _ _ = _
  rw [← hslot]
  rfl

/-- The joiner gets its exit code and wakes up. -/
theorem release_slots {w code : Int} {p : Nat} {s₀ : Kernel} (h1 : (cfg.maxHarts : Int) ≤ w)
    (hlt : w < cfg.threadMax) (hst : (s.threads w).state = .waiting) (hoff : s.rq.onRq w = false)
    (hw : threadMakeRunnable cfg (deliver s w code) h w p = .ok s₀) :
    s₀.slots = s.slots.release w := by
  have hst' : ((deliver s w code).threads w).state = .waiting := by
    rw [(deliver_state w code w).1]
    exact hst
  have hoff' : (deliver s w code).rq.onRq w = false := by
    rw [(deliver_rest w code).1]
    exact hoff
  rw [threadMakeRunnable_slots_waiting hw hst' h1 hlt hoff', deliver_slots, Table.set_self,
    Table.set_set]
  unfold Table.release
  rw [if_pos (by omega)]
  rfl

theorem exitCur_slots (tf code : Int) :
    (exitCur s h tf code).slots = s.slots.set (s.cpus h).currentTid
      { s.slots (s.cpus h).currentTid with phase := .zombie, exitCode := code } :=
  Kernel.slots_modThread s (s.cpus h).currentTid (Thread.exit · (s.threads tf).tf code)

theorem Table.release_ne (V : Table) {w u : Int} (hu : u ≠ w) : V.release w u = V u := by
  unfold Table.release
  split
  · exact Table.set_ne _ _ hu
  · rfl

/-- A thread with a joiner dies. -/
theorem Table.terminate_joined {V : Table} {t w code : Int} (now : Bool)
    (hw : (V t).joinWaiter = w) (h0 : 0 ≤ w) :
    V.terminate t code now =
      if now then ((V.set t { V t with phase := .zombie, exitCode := code }).release w).recycle t
      else (V.set t { V t with phase := .zombie, exitCode := code }).release w := by
  have hdie : (V t).die code = { V t with phase := .zombie, exitCode := code } := by
    unfold Slot.die
    rw [hw, if_pos h0]
    congr 1
    exact hw.symm
  unfold Table.terminate
  rw [hw, hdie]
  simp only [h0, true_or, and_true]

/-- A thread without a joiner dies. -/
theorem Table.terminate_unjoined {V : Table} {t code : Int} (now : Bool)
    (hw : (V t).joinWaiter < 0) :
    V.terminate t code now =
      if now ∧ (V t).detached = true then (V.set t ((V t).die code)).recycle t
      else V.set t ((V t).die code) := by
  have hneg : ¬ 0 ≤ (V t).joinWaiter := by omega
  unfold Table.terminate Table.release
  simp only [hneg, if_false, false_or]

/-- The slots when `thread_sys_exit` calls `schedule`: the dying thread is freed if it was joined,
and otherwise dead. -/
theorem exitRelease_slots {tf code cur : Int} {s₁ : Kernel} (hb : Basic cfg s)
    (hcur : (s.cpus h).currentTid = cur) (hle : (cfg.maxHarts : Int) ≤ cur)
    (hlt : cur < cfg.threadMax) (hon : s.rq.onRq cur = false)
    (hoff : ∀ w, (s.threads w).state = .waiting → s.rq.onRq w = false)
    (hw : JoinerWaiting cfg s cur) (hx : ExitRelease cfg s h tf code s₁) :
    (s₁.modThread cur (Thread.setJoinWaiter · (-1))).slots.reclaim cfg.threadMax cur =
      (s.slots.terminate cur code true).reclaim cfg.threadMax cur := by
  have hself : (s.threads cur).joinWaiter ≠ cur := hb.joinSelf cur (by omega)
  have hpos := cfg.maxHarts_pos
  unfold ExitRelease at hx
  unfold JoinerWaiting at hw
  simp only [hcur] at hx
  obtain ⟨w, hjw⟩ : ∃ w, (s.threads cur).joinWaiter = w := ⟨_, rfl⟩
  rw [hjw] at hself hw hx
  rw [Kernel.slots_modThread]
  rcases hx with ⟨h0, hwlt, s₀, hs₀, rfl⟩ | ⟨hneg, rfl⟩
  · -- the joiner takes the exit code and the slot is freed at once
    have hwait : (s.threads w).state = .waiting := (hw h0).2
    have hwait' : ((exitCur s h tf code).threads w).state = .waiting := by
      unfold exitCur
      simp only [Kernel.setRq_threads, Kernel.modThread_threads, hcur]
      rw [if_neg hself]
      exact hwait
    have hoff' : (exitCur s h tf code).rq.onRq w = false := by
      show (s.rq.unlink (s.cpus h).currentTid).onRq w = false
      rw [hcur, unlink_onRq hon]
      exact hoff w hwait
    have hslots := release_slots (hb.waiting_user h0 hwait) hwlt hwait' hoff' hs₀
    rw [exitCur_slots, hcur] at hslots
    have hfree : (((recycleThread cfg s₀ cur).threads cur).setJoinWaiter (-1)).slot = .free := by
      have hslot : (recycleThread cfg s₀ cur).slots cur = .free := by
        rw [recycleThread_slots (by omega) hlt, Table.recycle, Table.set_self]
      show { (recycleThread cfg s₀ cur).slots cur with joinWaiter := -1 } = Slot.free
      rw [hslot]
      rfl
    rw [Table.terminate_joined true hjw h0, if_pos rfl, ← hslots, hfree,
      recycleThread_slots (by omega) hlt, Table.recycle, Table.set_set]
  · -- nobody waits: the thread stays dead, unless it is detached and `schedule` frees it
    have hneg' : (s.slots cur).joinWaiter < 0 := by
      show (s.threads cur).joinWaiter < 0
      rw [hjw]
      rcases hneg with hneg | hge
      · exact hneg
      · by_contra h0
        have := (hw (by omega)).1
        omega
    have hdie : (((exitCur s h tf code).threads cur).setJoinWaiter (-1)).slot =
        (s.slots cur).die code := by
      unfold exitCur Slot.die
      simp only [Kernel.setRq_threads, Kernel.modThread_threads, hcur, if_true]
      rw [if_neg (by omega : ¬ 0 ≤ (s.slots cur).joinWaiter)]
      rfl
    rw [hdie, exitCur_slots, hcur, Table.set_set, Table.terminate_unjoined true hneg']
    by_cases hd : (s.slots cur).detached = true
    · rw [if_pos ⟨rfl, hd⟩]
      unfold Table.reclaim
      rw [Table.set_self, if_pos ⟨rfl, .inr hd⟩, if_neg]
      rw [Table.recycle, Table.set_self]
      rintro ⟨hph, -⟩
      cases hph
    · rw [if_neg fun hc => hd hc.2]

/-- A wake-up queues nobody else. -/
theorem threadMakeRunnable_onRq {t u : Int} {p : Nat}
    (hw : threadMakeRunnable cfg s h t p = .ok s') (hu : u ≠ t) : s'.rq.onRq u = s.rq.onRq u := by
  rcases threadMakeRunnable_cases hw with ⟨rfl, -⟩ | ⟨rq, hw⟩
  · rfl
  · rw [hw.rq_eq]
    have hpush := hw.push
    by_cases hk : schedPickTargetHart cfg s p < cfg.maxHarts
    · rw [rqPushTail_eq hk hw.lower hw.upper hw.onRq, Except.ok.injEq] at hpush
      rw [← hpush, pushed_onRq, if_neg hu]
    · unfold rqPushTail at hpush
      rw [if_pos (by omega), Except.ok.injEq] at hpush
      rw [hpush]

theorem killed_slots {t : Int} {rq : RunQueues} :
    (killed cfg s h t rq).slots =
      s.slots.set t { s.slots t with phase := .zombie, exitCode := exitcodeSigkill } := by
  have hthreads : (killed cfg s h t rq).slots = (s.modThread t Thread.kill).slots :=
    slots_eq_of_threads (kickVictim_threads t)
  rw [hthreads, Kernel.slots_modThread]
  rfl

/-- A kill terminates its victim; the slot is freed unless a hart still executes it. -/
theorem kill_slots {t : Int} {rq : RunQueues} {s₁ : Kernel} (hb : Basic cfg s)
    (h1 : 0 < t) (h2 : t < cfg.threadMax) (hon : rq.onRq t = false)
    (hsame : ∀ u, u ≠ t → rq.onRq u = s.rq.onRq u)
    (hoff : ∀ w, (s.threads w).state = .waiting → s.rq.onRq w = false)
    (hw : JoinerWaiting cfg s t)
    (hx : KillRelease cfg (killed cfg s h t rq) h t (s.threads t).joinWaiter s₁) :
    s₁.slots = s.slots.terminate t exitcodeSigkill (decide ((s.threads t).runningHart < 0)) := by
  have hself : (s.threads t).joinWaiter ≠ t := hb.joinSelf t h1.le
  have hrq : (killed cfg s h t rq).rq = rq := kickVictim_rq t
  have hrun : ((killed cfg s h t rq).threads t).runningHart = (s.threads t).runningHart := by
    rw [killed_threads, if_pos rfl]
    rfl
  unfold JoinerWaiting at hw
  obtain ⟨w, hjw⟩ : ∃ w, (s.threads t).joinWaiter = w := ⟨_, rfl⟩
  rw [hjw] at hself hw hx
  rcases hx with ⟨h0, hwlt, s₀, hs₀, rfl⟩ | ⟨hneg, rfl⟩ | ⟨hge, rfl⟩
  · -- the joiner is released before the slot may be freed
    have hwait : (s.threads w).state = .waiting := (hw h0).2
    have hwait' : ((killed cfg s h t rq).threads w).state = .waiting := by
      rw [killed_threads, if_neg hself]
      exact hwait
    have hoff' : (killed cfg s h t rq).rq.onRq w = false := by
      rw [hrq, hsame w hself]
      exact hoff w hwait
    have hslots := release_slots (hb.waiting_user h0 hwait) hwlt hwait' hoff' hs₀
    rw [killed_slots] at hslots
    have hrun₀ : (s₀.threads t).runningHart = (s.threads t).runningHart := by
      rw [threadMakeRunnable_threads hs₀ hself.symm, (deliver_state w _ t).2, hrun]
    have hon₀ : s₀.rq.onRq t = false := by
      rw [threadMakeRunnable_onRq hs₀ hself.symm, (deliver_rest w _).1, hrq]
      exact hon
    rw [Table.terminate_joined _ hjw h0, ← hslots]
    simp only [hrun₀, hon₀, and_true, decide_eq_true_eq]
    by_cases hr : (s.threads t).runningHart < 0
    · rw [if_pos hr, if_pos hr, recycleThread_slots h1 h2]
    · rw [if_neg hr, if_neg hr, Kernel.slots_modThread]
      have hsame' : ((s₀.threads t).setJoinWaiter w).slot = s₀.slots t := by
        have hjw₀ : (s₀.slots t).joinWaiter = w := by
          rw [hslots, Table.release_ne _ hself.symm, Table.set_self]
          exact hjw
        show { s₀.slots t with joinWaiter := w } = s₀.slots t
        rw [← hjw₀]
      rw [hsame', Table.set_same]
  · -- nobody waits: the slot is freed if the victim is detached and no hart executes it
    have hneg' : (s.slots t).joinWaiter < 0 := by
      show (s.threads t).joinWaiter < 0
      rw [hjw]
      exact hneg
    have hslots : ((killed cfg s h t rq).modThread t (Thread.setJoinWaiter · (-1))).slots =
        s.slots.set t ((s.slots t).die exitcodeSigkill) := by
      rw [Kernel.slots_modThread, killed_slots, Table.set_set]
      congr 1
      rw [killed_threads, if_pos rfl]
      unfold Slot.die
      rw [if_neg (by omega : ¬ 0 ≤ (s.slots t).joinWaiter)]
      rfl
    have hdet : ((killed cfg s h t rq).threads t).detached = (s.slots t).detached := by
      rw [killed_threads, if_pos rfl]
      rfl
    rw [Table.terminate_unjoined _ hneg', hdet, hrun, hrq]
    simp only [hon, and_true, decide_eq_true_eq]
    by_cases hc : (s.threads t).runningHart < 0 ∧ (s.slots t).detached = true
    · rw [if_pos hc.symm, if_pos hc, recycleThread_slots h1 h2, hslots]
    · rw [if_neg fun h => hc h.symm, if_neg hc, hslots]
  · -- a recorded joiner waits, so its id is in range
    exfalso
    have hlt := (hw (by omega)).1
    omega

/-- The victim of a kill is off its queue, everybody else stays. -/
theorem KillUnqueued.onRq {t : Int} {rq : RunQueues} (hr : RqRepr cfg s.rq q)
    (hunq : KillUnqueued cfg s t rq) (u : Int) :
    rq.onRq u = if u = t then false else s.rq.onRq u := by
  rcases hunq with ⟨hon, ret, hrem⟩ | ⟨hoff, rfl⟩
  · obtain ⟨k, hk, hmem⟩ := (hr.onRq t).mp hon
    obtain ⟨rq', hrem', -, honrq⟩ := rqRemoveAny_spec hr hk hmem
    rw [hrem, Except.ok.injEq, Prod.mk.injEq] at hrem'
    rw [hrem'.2]
    exact honrq u
  · split
    · rename_i hu
      rw [hu, hoff]
    · rfl

/-! ## Traps -/

/-- Interrupts wake sleepers and readers, which are no part of the protocol. -/
theorem Act.slots {a : Action} {s₀ : Kernel}
    (ha : a = .ipi ∨ a = .timer ∨ ∃ claims, a = .external claims)
    (hact : Act cfg h s₀ a s s') : s'.slots = s.slots := by
  have hcall : ∀ {b : Action}, a = b → b.isSyscall ≠ true := by
    rintro b rfl
    rcases ha with rfl | rfl | ⟨claims, rfl⟩ <;> exact Bool.false_ne_true
  have hterm : terminated cfg s₀ h a = none := by
    rcases ha with rfl | rfl | ⟨claims, rfl⟩ <;> rfl
  have hcoll : collected cfg s₀ h a = none := by
    rcases ha with rfl | rfl | ⟨claims, rfl⟩ <;> rfl
  have halive : ∀ {t : Int} {st : ThreadState}, (s.threads t).state = st → st.phase = .alive →
      (s.threads t).state.phase = .alive := fun h1 h2 => h1 ▸ h2
  cases hact with
  | quiet hq => exact hq.slots
  | slice _ _ => rfl
  | wakeSleeper _ hst hw => exact threadMakeRunnable_slots hw (halive hst rfl)
  | wakeReader _ hst hw => exact threadMakeRunnable_slots hw (halive hst rfl)
  | clearReader _ => rfl
  | create hc => exact absurd rfl (hcall hc)
  | sleep hc => exact absurd rfl (hcall hc)
  | wait hc => exact absurd rfl (hcall hc)
  | block hc => exact absurd rfl (hcall hc)
  | exit hc => exact absurd rfl (hcall hc)
  | kill hc => exact absurd rfl (hcall hc)
  | detach hc => exact absurd rfl (hcall hc)
  | deliver hj =>
    obtain ⟨t, ht, -⟩ := hj
    rw [hterm] at ht
    cases ht
  | wakeJoiner hj =>
    obtain ⟨t, ht, -⟩ := hj
    rw [hterm] at ht
    cases ht
  | joinWaiter ht =>
    rw [hterm] at ht
    cases ht
  | reclaim ht =>
    rw [hterm] at ht
    cases ht
  | collect ht =>
    rw [hcoll] at ht
    cases ht

/-- The slots after a trap with the action `a`, in terms of those before. -/
def trapSlots (cfg : Config) (s : Kernel) (h : Nat) (a : Action) : Table :=
  if Reschedules cfg s h a then
    (s.slots.apply (joinEvent cfg s h a)).reclaim cfg.threadMax (s.cpus h).currentTid
  else s.slots.apply (joinEvent cfg s h a)

theorem trapSlots_scheduled {a : Action} (hR : Reschedules cfg s h a) :
    trapSlots cfg s h a =
      (s.slots.apply (joinEvent cfg s h a)).reclaim cfg.threadMax (s.cpus h).currentTid :=
  if_pos hR

theorem trapSlots_kept {a : Action} (hR : ¬ Reschedules cfg s h a) :
    trapSlots cfg s h a = s.slots.apply (joinEvent cfg s h a) :=
  if_neg hR

theorem interrupt_slots {regs : Trapframe} {io : TrapInput} (hb : Basic cfg s)
    (hg : Allowed cfg s (.trap h regs io)) (hstep : step cfg s (.trap h regs io) = .ok s')
    (ha : trapAction cfg regs io = .ipi ∨ trapAction cfg regs io = .timer ∨
      ∃ claims, trapAction cfg regs io = .external claims) :
    s'.slots = trapSlots cfg s h (trapAction cfg regs io) := by
  obtain ⟨s₁, hran⟩ := trap_ran (fun s₁ => s₁.slots = s.slots) hb hg hstep rfl
    fun s₁ s₂ _ _ _ hP hact => (hact.slots ha).trans hP
  have hskip : joinEvent cfg s h (trapAction cfg regs io) = .skip := by
    rcases ha with ha | ha | ⟨claims, ha⟩ <;> rw [ha] <;> rfl
  rcases hran.last with ⟨hR, rq, next, rq', hsch⟩ | ⟨hR, rfl⟩
  · have hid : (s₁.cpus h).idleTid = h := hran.entered.2.2.2.1
    have hidle : (s₁.threads (s₁.cpus h).idleTid).state.phase = .alive := by
      rw [hid]
      exact hran.basic.idle_alive (by omega) (by exact_mod_cast hran.entered.1)
    rw [trapSlots_scheduled hR, hskip, hsch.slots hidle, hran.kept, (hran.sameCpu h).2.2.2.1]
    rfl
  · rw [trapSlots_kept hR, hskip, hran.kept]
    rfl

theorem Table.reclaim_ne (V : Table) (n : Nat) {t u : Int} (hu : u ≠ t) :
    V.reclaim n t u = V u := by
  unfold Table.reclaim
  split
  · exact Table.set_ne _ _ hu
  · rfl

theorem Table.terminate_ne (V : Table) {t u : Int} (code : Int) (now : Bool) (hu : u ≠ t)
    (hw : u ≠ (V t).joinWaiter) : V.terminate t code now u = V u := by
  unfold Table.terminate
  split
  · rw [Table.recycle, Table.set_ne _ _ hu, Table.release_ne _ hw, Table.set_ne _ _ hu]
  · rw [Table.release_ne _ hw, Table.set_ne _ _ hu]

/-- The scheduler facts that the handlers below use. -/
structure Executing (cfg : Config) (s : Kernel) (h : Nat) (cur : Int) : Prop where
  basic : Basic cfg s
  entered : Entered cfg s h
  current : (s.cpus h).currentTid = cur
  user : (cfg.maxHarts : Int) ≤ cur
  table : cur < cfg.threadMax
  repr : ∃ q, RqRepr cfg s.rq q
  unqueued : s.rq.onRq cur = false
  waiting : ∀ w, (s.threads w).state = .waiting → s.rq.onRq w = false

variable {cur : Int}

/-- `schedule` at the end of a handler. -/
theorem Executing.schedule_slots {s₁ : Kernel} {V : Table} (hx : Executing cfg s h cur)
    (hsch : schedule cfg s₁ h cur = .ok s') (hV : s₁.slots = V)
    (hcpus : SameCpu (s.cpus h) (s₁.cpus h))
    (hidle : (V h).phase = (s.slots h).phase) : s'.slots = V.reclaim cfg.threadMax cur := by
  have halive : (V h).phase = .alive := by
    rw [hidle]
    exact hx.basic.idle_alive (by omega) (by exact_mod_cast hx.entered.1)
  rw [Ccos.schedule_slots hsch hV hx.basic hx.entered hcpus halive, hx.current]

theorem Executing.idle_ne (hx : Executing cfg s h cur) : (h : Int) ≠ cur := by
  have hlt : (h : Int) < cfg.maxHarts := by exact_mod_cast hx.entered.1
  have hle := hx.user
  omega

theorem exit_trapSlots {code : Int} (hx : Executing cfg s h cur) (hw : JoinerWaiting cfg s cur)
    (hs : threadSysExit cfg s h cur code = .ok s') :
    s'.slots = trapSlots cfg s h (.exit code) := by
  obtain ⟨s₁, hrel, hsch⟩ := threadSysExit_cases hs
  have hlt : (h : Int) < cfg.maxHarts := by exact_mod_cast hx.entered.1
  rw [hx.current] at hsch
  have hslots :=
    exitRelease_slots hx.basic hx.current hx.user hx.table hx.unqueued hx.waiting hw hrel
  have hhw : (h : Int) ≠ (s.slots cur).joinWaiter := by
    intro heq
    have h0 : 0 ≤ (s.threads cur).joinWaiter := by
      show 0 ≤ (s.slots cur).joinWaiter
      omega
    have hge : (cfg.maxHarts : Int) ≤ (s.slots cur).joinWaiter :=
      hx.basic.waiting_user h0 (hw h0).2
    omega
  have hidle : (s₁.modThread cur (Thread.setJoinWaiter · (-1))).slots h = s.slots h := by
    have hat := congrFun hslots h
    rw [Table.reclaim_ne _ _ hx.idle_ne, Table.reclaim_ne _ _ hx.idle_ne,
      Table.terminate_ne _ _ _ hx.idle_ne hhw] at hat
    exact hat
  have hcpus : SameCpu (s.cpus h) ((s₁.modThread cur (Thread.setJoinWaiter · (-1))).cpus h) := by
    show SameCpu (s.cpus h) (s₁.cpus h)
    rcases hrel with ⟨-, -, s₀, hs₀, rfl⟩ | ⟨-, rfl⟩
    · rw [recycleThread_cpus]
      have hsame := (threadMakeRunnable_sameHarts hs₀).sameCpu h
      rw [deliver_cpus] at hsame
      exact hsame
    · exact .refl _
  have hR : Reschedules cfg s h (.exit code) := trivial
  rw [hx.schedule_slots hsch rfl hcpus (congrArg Slot.phase hidle), hslots, trapSlots_scheduled hR]
  show _ = (s.slots.terminate (s.cpus h).currentTid code true).reclaim cfg.threadMax
    (s.cpus h).currentTid
  rw [hx.current]

theorem kill_trapSlots {t : Int} (hx : Executing cfg s h cur)
    (hw : KillHits cfg s h t → JoinerWaiting cfg s t) (hs : threadSysKill cfg s h cur t = .ok s') :
    s'.slots = trapSlots cfg s h (.kill t) := by
  obtain ⟨q, hr⟩ := hx.repr
  have hR : ¬ Reschedules cfg s h (.kill t) := not_false
  rw [trapSlots_kept hR, joinEvent]
  rcases threadSysKill_cases hs with ⟨hno, v, rfl⟩ | ⟨hhit, hkill⟩
  · rw [if_neg hno]
    exact Quiet.slots (Quiet.setA0 h s cur v)
  · obtain ⟨rq, s₁, hunq, hrel, rfl⟩ := killThread_cases hkill
    have honrq := hunq.onRq hr
    rw [if_pos hhit, Quiet.slots (Quiet.setA0 h s₁ cur 0)]
    exact kill_slots hx.basic hhit.1 hhit.2.1 ((honrq t).trans (if_pos rfl))
      (fun u hu => (honrq u).trans (if_neg hu)) hx.waiting (hw hhit) hrel

theorem storeStatus_slots (p : UInt64) (v : Int) : (storeStatus s p v).slots = s.slots :=
  Quiet.slots (Quiet.storeStatus 0 s p v)

theorem join_trapSlots {t : Int} {p : UInt64} (hx : Executing cfg s h cur)
    (hs : threadSysJoin cfg s h cur t p = .ok s') :
    s'.slots = trapSlots cfg s h (.join t p) := by
  rcases threadSysJoin_cases hs with ⟨hno, v, -, rfl⟩ | ⟨hacc, hz, rfl⟩ | ⟨hacc, hz, hsch⟩
  · have hR : ¬ Reschedules cfg s h (.join t p) := fun hc => hno hc.1
    rw [trapSlots_kept hR, joinEvent, if_neg hno]
    exact Quiet.slots (Quiet.setA0 h s cur v)
  · have hR : ¬ Reschedules cfg s h (.join t p) := fun hc => hc.2 hz
    rw [trapSlots_kept hR, joinEvent, if_pos hacc, if_pos hz, Quiet.slots (Quiet.setA0 h _ cur 0),
      recycleThread_slots hacc.1 hacc.2.1, storeStatus_slots]
    rfl
  · have hR : Reschedules cfg s h (.join t p) := ⟨hacc, hz⟩
    rw [trapSlots_scheduled hR, joinEvent, if_pos hacc, if_neg hz]
    -- the target may be the idle thread of the hart; it lives on
    have hidle : (s.slots.wait (s.cpus h).currentTid t p h).phase = (s.slots h).phase := by
      have hne := hx.idle_ne
      rw [hx.current]
      unfold Table.wait
      by_cases ht : (h : Int) = t
      · rw [ht, Table.set_self]
        show (s.slots.set cur _ t).phase = _
        rw [Table.set_ne _ _ (ht ▸ hne)]
      · rw [Table.set_ne _ _ ht, Table.set_ne _ _ hne]
    rw [hx.schedule_slots hsch waitCur_slots (.refl _) hidle, hx.current]
    rfl

theorem sleep_trapSlots {ticks : UInt64} (hx : Executing cfg s h cur)
    (hs : threadSysSleep cfg s h cur ticks = .ok s') :
    s'.slots = trapSlots cfg s h (.sleep ticks) := by
  have hR : Reschedules cfg s h (.sleep ticks) := trivial
  rw [trapSlots_scheduled hR, joinEvent]
  rcases threadSysSleep_cases hs with ⟨h0, hsch⟩ | ⟨h0, hsch⟩
  · rw [if_neg fun hne => hne h0, hx.schedule_slots hsch rfl (.refl _) rfl, hx.current]
    rfl
  · have hidle : ((s.slots.set cur (s.slots cur).suspend) h).phase = (s.slots h).phase := by
      rw [Table.set_ne _ _ hx.idle_ne]
    have hV := sleepCur_slots (s := s) (h := h) ticks
    rw [hx.current] at hV
    rw [if_pos h0, hx.schedule_slots hsch hV (.refl _) hidle, hx.current]
    rfl

theorem read_trapSlots {fd : Int} {buf len : UInt64} (hx : Executing cfg s h cur)
    (hs : sysRead cfg s h cur fd buf len = .ok s') :
    s'.slots = trapSlots cfg s h (.read fd buf len) := by
  have hdrained : (drained s buf len).slots = s.slots :=
    Quiet.slots (h := h) (drained_quiet buf len)
  rcases sysRead_cases hs with ⟨v, rfl, hfd⟩ | ⟨hfd, hn, rfl⟩ | ⟨hfd, hn, hsch⟩
  · have hR : ¬ Reschedules cfg s h (.read fd buf len) := fun hc => hfd hc.1
    rw [trapSlots_kept hR, joinEvent, if_neg fun hc => hfd hc.1]
    exact Quiet.slots (Quiet.setA0 h s cur v)
  · have hno : ¬ (len = 0 ∨ s.rx.isEmpty = true) := by
      rw [← consoleReadNonblock_eq_zero s buf len]
      omega
    have hR : ¬ Reschedules cfg s h (.read fd buf len) := fun hc => hno hc.2
    rw [trapSlots_kept hR, joinEvent, if_neg fun hc => hno hc.2,
      Quiet.slots (Quiet.setA0 h _ cur _), hdrained]
    rfl
  · have hblock : fd = 0 ∧ (len = 0 ∨ s.rx.isEmpty = true) :=
      ⟨hfd, (consoleReadNonblock_eq_zero s buf len).mp hn⟩
    have hR : Reschedules cfg s h (.read fd buf len) := hblock
    have hidle : ((s.slots.set cur (s.slots cur).suspend) h).phase = (s.slots h).phase := by
      rw [Table.set_ne _ _ hx.idle_ne]
    have hV : (blockCur (drained s buf len) h buf len).slots =
        s.slots.set cur (s.slots cur).suspend := by
      rw [blockCur_slots, hdrained]
      show s.slots.set (s.cpus h).currentTid (s.slots (s.cpus h).currentTid).suspend = _
      rw [hx.current]
    rw [trapSlots_scheduled hR, joinEvent, if_pos hblock, hx.schedule_slots hsch hV (.refl _) hidle,
      hx.current]
    rfl

theorem detach_trapSlots {t : Int} :
    (threadSysDetach cfg s cur t).slots = trapSlots cfg s h (.detach t) := by
  have hpos := cfg.maxHarts_pos
  have hR : ¬ Reschedules cfg s h (.detach t) := not_false
  rw [trapSlots_kept hR, joinEvent]
  obtain ⟨s', hs'⟩ : ∃ s', threadSysDetach cfg s cur t = s' := ⟨_, rfl⟩
  rw [hs']
  rcases threadSysDetach_cases hs' with ⟨hno, v, hs⟩ | ⟨hacc, hs⟩
  · rw [hs, if_neg hno]
    exact Quiet.slots (Quiet.setA0 h s cur v)
  · rw [hs, if_pos hacc, Quiet.slots (Quiet.setA0 h _ cur 0)]
    split
    · rw [recycleThread_detach (by have := hacc.1; omega) hacc.2.1,
        recycleThread_slots (by have := hacc.1; omega) hacc.2.1]
      rfl
    · rw [Kernel.slots_modThread]
      rfl

theorem create_trapSlots {entry arg name sstatus : UInt64}
    (hs : threadSysCreate cfg s h cur entry arg name sstatus = .ok s') :
    s'.slots = trapSlots cfg s h (.create entry arg name sstatus) := by
  have hR : ¬ Reschedules cfg s h (.create entry arg name sstatus) := not_false
  obtain ⟨tid, s₁, hcreate, rfl⟩ := threadSysCreate_cases hs
  rw [trapSlots_kept hR, joinEvent, Quiet.slots (Quiet.setA0 h s₁ cur _)]
  unfold threadCreateUser at hcreate
  dsimp only at hcreate
  split at hcreate
  · rename_i hneg
    rw [Except.ok.injEq, Prod.mk.injEq] at hcreate
    rw [if_pos hneg, ← hcreate.2]
    rfl
  · rename_i hpos
    simp only [bind_eq_ok, Except.ok.injEq, Prod.mk.injEq] at hcreate
    obtain ⟨s₂, hmake, -, rfl⟩ := hcreate
    have halive : (((s.modThread (allocThreadSlot cfg s) fun t => initUserThread t
        (threadStack cfg (allocThreadSlot cfg s)) entry arg
        (if name = 0 then none else some (.user name)) sstatus).threads
        (allocThreadSlot cfg s)).state.phase) = .alive := by
      rw [Kernel.modThread_threads, if_pos rfl]
      rfl
    rw [if_neg hpos, threadMakeRunnable_slots hmake halive, Kernel.slots_modThread]
    rfl

/-- Traps refine the protocol: a trap is one event of it and what `schedule` does to the thread it
leaves. -/
theorem runAction_slots {a : Action} (hx : Executing cfg s h cur) (ha : a.isSyscall = true)
    (hw : ∀ t, terminated cfg s h a = some t → JoinerWaiting cfg s t)
    (hs : runAction cfg s h cur a = .ok s') : s'.slots = trapSlots cfg s h a := by
  cases a with
  | ipi => cases ha
  | timer => cases ha
  | external claims => cases ha
  | halt msg => cases ha
  | sleep ticks => exact sleep_trapSlots hx hs
  | exit code => exact exit_trapSlots hx (hw cur (congrArg some hx.current)) hs
  | join t p => exact join_trapSlots hx hs
  | create entry arg name sstatus => exact create_trapSlots hs
  | kill t =>
    refine kill_trapSlots hx (fun hhit => hw t ?_) hs
    show (if KillHits cfg s h t then some t else none) = some t
    rw [if_pos hhit]
  | detach t =>
    cases hs
    exact detach_trapSlots
  | read fd buf len => exact read_trapSlots hx hs
  | query call io =>
    simp only [runAction, Except.ok.injEq] at hs
    rw [← hs, runQuery_mem, Quiet.slots (Quiet.setA0 h _ cur _)]
    exact Quiet.slots (Quiet.setMem h s _)
  | skip =>
    cases hs
    rfl

theorem trapSlots_saveRegs (regs : Trapframe) (a : Action) :
    trapSlots cfg (saveRegs s h regs) h a = trapSlots cfg s h a := by
  have hslots : (saveRegs s h regs).slots = s.slots := (saveRegs_quiet s h regs).slots
  unfold trapSlots
  simp only [reschedules_saveRegs, joinEvent_saveRegs, hslots, saveRegs_cpus]

/-- The current thread of a hart that makes a system call, with its registers saved. -/
theorem Sched.executing {regs : Trapframe} (hsched : Sched cfg dead none s q) (hb : Basic cfg s)
    (he : Entered cfg s h) (hle : (cfg.maxHarts : Int) ≤ (s.cpus h).currentTid)
    (hlt : (s.cpus h).currentTid < cfg.threadMax) :
    Executing cfg (saveRegs s h regs) h (s.cpus h).currentTid where
  basic := hb.quiet (saveRegs_quiet s h regs)
  entered := he
  current := rfl
  user := hle
  table := hlt
  repr := ⟨q, hsched.repr⟩
  unqueued := hsched.cur_onRq he
  waiting w hw := by
    rw [saveRegs_state] at hw
    exact hsched.onRq_false (by rw [hw]; decide)

theorem trap_slots {regs : Trapframe} {io : TrapInput} (hb : Basic cfg s)
    (hsched : Sched cfg dead none s q) (hg : Allowed cfg s (.trap h regs io))
    (hstep : step cfg s (.trap h regs io) = .ok s')
    (hw : ∀ t, terminated cfg s h (trapAction cfg regs io) = some t → JoinerWaiting cfg s t) :
    s'.slots = trapSlots cfg s h (trapAction cfg regs io) := by
  obtain ⟨hrun, huser⟩ := trap_runAction hb hg hstep
  by_cases hsys : (trapAction cfg regs io).isSyscall = true
  · obtain ⟨hle, hlt⟩ := huser hsys
    rw [← trapSlots_saveRegs regs]
    refine runAction_slots (hsched.executing hb hg.1 hle hlt) hsys (fun t ht => ?_) hrun
    rw [terminated_saveRegs] at ht
    intro h0
    rw [saveRegs_joinWaiter] at h0 ⊢
    rw [saveRegs_state]
    exact hw t ht h0
  · apply interrupt_slots hb hg hstep
    cases ha : trapAction cfg regs io with
    | ipi => exact .inl rfl
    | timer => exact .inr (.inl rfl)
    | external claims => exact .inr (.inr ⟨claims, rfl⟩)
    | halt msg =>
      rw [ha] at hrun
      cases hrun
    | _ =>
      rw [ha] at hsys
      exact absurd rfl hsys

end Ccos
