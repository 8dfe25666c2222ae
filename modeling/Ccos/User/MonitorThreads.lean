import Mathlib.Tactic
import Ccos.Join.Free
import Ccos.User.Monitor

/-!
# Monitors as threads

`mon_start` takes a slot of `g_mons` and a slot of the thread table.  A monitor that counts down to
its end gives back the first one itself; what becomes of the second one is decided by the kernel
when the thread exits, and by the threads that join or detach it.
-/

namespace Ccos

open Reasoning

/-! ## The system -/

/-- The kernel, `g_mons`, and the threads inside `monitor_main` with the slot each was started
for. -/
structure Monitored where
  kernel : Kernel
  mons : Mons
  live : List (Int × Nat)

inductive MonEvent
  /-- a step of the kernel that is none of the following -/
  | kernel (e : Event)
  /-- a thread calls `mon_start(period, count)` on hart `h` -/
  | start (h : Nat) (regs : Trapframe) (io : TrapInput) (period : UInt32) (count : Int)
  /-- the monitor on hart `h` completes a turn of its loop and goes on -/
  | turn (h idx : Nat)
  /-- the monitor on hart `h` completes its last turn and calls `thread_exit(0)` -/
  | finish (h : Nat) (regs : Trapframe) (io : TrapInput) (idx : Nat)

variable (cfg : Config) (infos : Nat → UInt64)

/-- The turn that monitor `idx` completes: `thread_list` is served by the kernel as it is. -/
def Monitored.turn (s : Monitored) (idx : Nat) : MonCtx × List MonOutput × Bool :=
  monitorTurn (s.mons idx) (threadSysList cfg s.kernel (infos idx) monThreadListMax).1

def Monitored.endTurn (s : Monitored) (idx : Nat) : Mons :=
  Function.update s.mons idx (s.turn cfg infos idx).1

/-- `thread_create` is called only if there is a slot of `g_mons`. -/
def monStep (s : Monitored) : MonEvent → Except Halt Monitored
  | .kernel e => do
    let k ← step cfg s.kernel e
    .ok { s with kernel := k }
  | .start h regs io period count =>
    match monAlloc s.mons with
    -- `g_mons` is full: `mon_start` returns before it enters the kernel
    | none => .ok s
    | some _ => do
      let k ← step cfg s.kernel (.trap h regs io)
      let (tid, mons, idx) := monStart s.mons period count (allocThreadSlot cfg s.kernel)
      .ok { kernel := k, mons := mons, live := (idx.map fun i => (tid, i)).toList ++ s.live }
  | .turn _ idx => .ok { s with mons := s.endTurn cfg infos idx }
  -- `m->used = 0` and the `thread_exit` that follows it are one step
  | .finish h regs io idx => do
    let k ← step cfg s.kernel (.trap h regs io)
    .ok { kernel := k, mons := s.endTurn cfg infos idx,
          live := s.live.erase ((s.kernel.cpus h).currentTid, idx) }

/-- No other thread is created or dies, and no thread that was dead in `s₀` is collected. -/
def JoinEvent.Unrelated (s₀ : Kernel) : JoinEvent → Prop
  | .create _ => False
  | .terminate _ _ _ => False
  | .collect t => (s₀.threads t).state ≠ .zombie
  | _ => True

def Action.isCreate : Action → Bool
  | .create _ _ _ _ => true
  | _ => false

def Action.isExit : Action → Bool
  | .exit code => code = 0
  | _ => false

/-- `s₀` is the state before the calls. -/
def MonAllowed (s₀ s : Monitored) : MonEvent → Prop
  | .kernel e => Allowed cfg s.kernel e ∧ (stepEvent cfg s.kernel e).Unrelated s₀.kernel
  | .start h regs io _ count =>
    Allowed cfg s.kernel (.trap h regs io) ∧ (trapAction cfg regs io).isCreate = true ∧ 1 ≤ count
  | .turn h idx =>
    Entered cfg s.kernel h ∧ ((s.kernel.cpus h).currentTid, idx) ∈ s.live ∧
      (s.turn cfg infos idx).2.2 = false
  | .finish h regs io idx =>
    Allowed cfg s.kernel (.trap h regs io) ∧ (trapAction cfg regs io).isExit = true ∧
      ((s.kernel.cpus h).currentTid, idx) ∈ s.live ∧ (s.turn cfg infos idx).2.2 = true

/-- Calls of `mon_start` from `s₀` on, and the monitors they start, in any order of steps. -/
def monSystem (s₀ : Monitored) : System Halt Monitored MonEvent where
  init s := s = s₀
  guard := MonAllowed cfg infos s₀
  step := monStep cfg infos

def unusedMons (mons : Mons) : Nat :=
  ((Finset.range monMax).filter fun i => (mons i).used = false).card

/-! ## Slots that are not given back -/

/-- The dead monitors whose slot of the thread table is still taken, from the steps of a run: nobody
waited for them when they exited, and nobody has joined or detached them since. -/
def leaked : List (Monitored × MonEvent) → List Int
  | [] => []
  | (s, .kernel e) :: tr =>
    match stepEvent cfg s.kernel e with
    | .collect t => (leaked tr).filter (· != t)
    | _ => leaked tr
  | (s, .finish h _ _ _) :: tr =>
    if WaitedFor s.kernel (s.kernel.cpus h).currentTid then leaked tr
    else (s.kernel.cpus h).currentTid :: leaked tr
  | (_, .start _ _ _ _ _) :: tr => leaked tr
  | (_, .turn _ _) :: tr => leaked tr

/-- A step in which the dead thread `t` is joined or detached. -/
def Collects (t : Int) : Monitored × MonEvent → Prop
  | (s, .kernel e) => stepEvent cfg s.kernel e = .collect t
  | _ => False

/-- Monitor `t` exits, and nobody waits for it. -/
def Abandons (t : Int) : Monitored × MonEvent → Prop
  | (s, .finish h _ _ _) => (s.kernel.cpus h).currentTid = t ∧ ¬ WaitedFor s.kernel t
  | _ => False

/-- Every monitor that exited was waited for or detached, or has been joined or detached since. -/
def AllReaped (tr : List (Monitored × MonEvent)) : Prop :=
  ∀ later earlier st t, tr = later ++ st :: earlier → Abandons t st →
  ∃ st' ∈ later, Collects cfg t st'

variable {cfg infos}

theorem mem_leaked_cons {st : Monitored × MonEvent} {tr : List (Monitored × MonEvent)} {t : Int} :
    t ∈ leaked cfg (st :: tr) ↔ Abandons t st ∨ (t ∈ leaked cfg tr ∧ ¬ Collects cfg t st) := by
  obtain ⟨s, e⟩ := st
  cases e with
  | kernel e =>
    simp only [leaked, Abandons, Collects, false_or]
    split
    · rename_i u hu
      rw [List.mem_filter, hu, bne_iff_ne, JoinEvent.collect.injEq, ne_comm]
    · rename_i hno
      have hnot : ¬ stepEvent cfg s.kernel e = .collect t := fun heq => hno t heq
      simp [hnot]
  | start => simp [leaked, Abandons, Collects]
  | turn => simp [leaked, Abandons, Collects]
  | finish h regs io idx =>
    simp only [leaked, Abandons, Collects, not_false_eq_true, and_true]
    split
    · rename_i hw
      constructor
      · exact .inr
      · rintro (⟨rfl, hnot⟩ | hmem)
        · exact absurd hw hnot
        · exact hmem
    · rename_i hw
      rw [List.mem_cons]
      constructor
      · rintro (rfl | hmem)
        · exact .inl ⟨rfl, hw⟩
        · exact .inr hmem
      · rintro (⟨rfl, -⟩ | hmem)
        · exact .inl rfl
        · exact .inr hmem

theorem mem_leaked_iff {tr : List (Monitored × MonEvent)} {t : Int} :
    t ∈ leaked cfg tr ↔ ∃ later earlier st, tr = later ++ st :: earlier ∧ Abandons t st ∧
      ∀ st' ∈ later, ¬ Collects cfg t st' := by
  induction tr with
  | nil => simp [leaked]
  | cons st tr ih =>
    rw [mem_leaked_cons, ih]
    constructor
    · rintro (hst | ⟨⟨later, earlier, st', rfl, hst', hlater⟩, hno⟩)
      · exact ⟨[], tr, st, rfl, hst, fun _ hmem => absurd hmem List.not_mem_nil⟩
      · refine ⟨st :: later, earlier, st', rfl, hst', ?_⟩
        intro x hx
        rcases List.mem_cons.mp hx with rfl | hx
        · exact hno
        · exact hlater x hx
    · rintro ⟨later, earlier, st', htr, hst', hlater⟩
      cases later with
      | nil =>
        cases htr
        exact .inl hst'
      | cons st'' later =>
        cases htr
        refine .inr ⟨⟨later, earlier, st', rfl, hst', fun x hx => ?_⟩, ?_⟩
        · exact hlater x (List.mem_cons_of_mem _ hx)
        · exact hlater st List.mem_cons_self

theorem leaked_eq_nil {tr : List (Monitored × MonEvent)} :
    leaked cfg tr = [] ↔ AllReaped cfg tr := by
  rw [List.eq_nil_iff_forall_not_mem]
  constructor
  · intro hnone later earlier st t htr hst
    by_contra hno
    refine hnone t (mem_leaked_iff.mpr ⟨later, earlier, st, htr, hst, fun st' hmem hcol => ?_⟩)
    exact hno ⟨st', hmem, hcol⟩
  · intro hall t hmem
    obtain ⟨later, earlier, st, htr, hst, hno⟩ := mem_leaked_iff.mp hmem
    obtain ⟨st', hmem', hcol⟩ := hall later earlier st t htr hst
    exact hno st' hmem' hcol

/-! ## The thread table -/

section Table

variable {s₀ s s' : Kernel} {n : Nat} {dead : List Int} {e : Event}

/-- The slots that are in use on top of those of `s₀`: `n` by live monitors, the others by `dead`
ones. -/
structure TableInv (cfg : Config) (s₀ s : Kernel) (n : Nat) (dead : List Int) : Prop where
  settled : Settled cfg s
  isDead : ∀ t ∈ dead, (s.threads t).state = .zombie
  zombies : ∀ t : Int, 0 ≤ t → t < cfg.threadMax → (s.threads t).state = .zombie →
    (s₀.threads t).state = .zombie ∨ t ∈ dead
  once : dead.Nodup
  count : unusedThreads cfg s₀ = unusedThreads cfg s + n + dead.length

/-- A run without deaths is a run without kills. -/
theorem noStrayKill_of_alive (hno : ∀ t code now, stepEvent cfg s e ≠ .terminate t code now) :
    NoStrayKill cfg s e := by
  cases e with
  | cpuInit h => trivial
  | enterIdle h => trivial
  | trap h regs io =>
    intro t ht
    exfalso
    cases ha : trapAction cfg regs io with
    | kill u =>
      rw [ha, victim] at ht
      split at ht
      · rename_i hhit
        refine hno u exitcodeSigkill (decide ((s.threads u).runningHart < 0)) ?_
        rw [stepEvent, ha, joinEvent, if_pos hhit]
      · cases ht
    | _ =>
      rw [ha] at ht
      cases ht

theorem stepEvent_collect_range {t : Int} (he : stepEvent cfg s e = .collect t) :
    0 ≤ t ∧ t < cfg.threadMax := by
  have hpos := cfg.maxHarts_pos
  cases e with
  | cpuInit h => cases he
  | enterIdle h => cases he
  | trap h regs io =>
    rw [stepEvent] at he
    cases ha : trapAction cfg regs io with
    | join u p =>
      rw [ha, joinEvent] at he
      split_ifs at he with hacc
      cases he
      exact ⟨hacc.1.le, hacc.2.1⟩
    | detach u =>
      rw [ha, joinEvent] at he
      split_ifs at he with hacc
      cases he
      have hge := hacc.1
      exact ⟨by omega, hacc.2.1⟩
    | kill u =>
      rw [ha, joinEvent] at he
      split_ifs at he
    | create =>
      rw [ha, joinEvent] at he
      split_ifs at he
    | sleep =>
      rw [ha, joinEvent] at he
      split_ifs at he
    | read =>
      rw [ha, joinEvent] at he
      split_ifs at he
    | _ =>
      rw [ha] at he
      cases he

namespace TableInv

variable (hinv : TableInv cfg s₀ s n dead) (hg : Allowed cfg s e) (hc : NoStrayKill cfg s e)
  (hstep : step cfg s e = .ok s')

include hinv hg hc hstep

theorem unrelated (he : (stepEvent cfg s e).slot = none) : TableInv cfg s₀ s' n dead := by
  have hs := hinv.settled
  have hz : ∀ t, (s'.threads t).state = .zombie ↔ (s.threads t).state = .zombie := by
    intro t
    refine hs.zombie_iff hg hc hstep ?_
    rw [he]
    nofun
  refine ⟨hs.next hg hc hstep, fun t ht => ?_, fun t h1 h2 ht => ?_, hinv.once, ?_⟩
  · exact (hz t).mpr (hinv.isDead t ht)
  · exact hinv.zombies t h1 h2 ((hz t).mp ht)
  · rw [hinv.count, hs.unused_kept hg hc hstep he]

/-- The slots other than the one of the event. -/
theorem zombie_ne {t u : Int} (he : (stepEvent cfg s e).slot = some t) (hu : u ≠ t) :
    (s'.threads u).state = .zombie ↔ (s.threads u).state = .zombie := by
  refine hinv.settled.zombie_iff hg hc hstep ?_
  rw [he]
  simpa using Ne.symm hu

theorem create {t : Int} (he : stepEvent cfg s e = .create t) :
    TableInv cfg s₀ s' (n + 1) dead := by
  have hs := hinv.settled
  have hslot : (stepEvent cfg s e).slot = some t := by
    rw [he]
    rfl
  obtain ⟨hcount, hnew⟩ := hs.created hg hc hstep he
  have hold : (s.threads t).state = .unused := by
    obtain ⟨hstrict, -⟩ := hs.event hg hc hstep
    rw [he] at hstrict
    exact phase_eq_unused.mp hstrict.2.2
  refine ⟨hs.next hg hc hstep, fun u hu => ?_, fun u h1 h2 hu => ?_, hinv.once, ?_⟩
  · have hz := hinv.isDead u hu
    have hne : u ≠ t := by
      rintro rfl
      rw [hold] at hz
      cases hz
    exact (hinv.zombie_ne hg hc hstep hslot hne).mpr hz
  · have hne : u ≠ t := by
      rintro rfl
      exact hnew hu
    exact hinv.zombies u h1 h2 ((hinv.zombie_ne hg hc hstep hslot hne).mp hu)
  · have hold := hinv.count
    omega

/-- A dead monitor is joined or detached. -/
theorem collect {t : Int} (he : stepEvent cfg s e = .collect t)
    (hnew : (s₀.threads t).state ≠ .zombie) : TableInv cfg s₀ s' n (dead.filter (· != t)) := by
  have hs := hinv.settled
  have hslot : (stepEvent cfg s e).slot = some t := by
    rw [he]
    rfl
  obtain ⟨h1, h2⟩ := stepEvent_collect_range he
  obtain ⟨hcount, hz, hfree⟩ := hs.collected hg hc hstep he h1 h2
  have hmem : t ∈ dead := (hinv.zombies t h1 h2 hz).resolve_left hnew
  rw [← hinv.once.erase_eq_filter t]
  refine ⟨hs.next hg hc hstep, fun u hu => ?_, fun u h1 h2 hu => ?_, hinv.once.erase t, ?_⟩
  · obtain ⟨hne, hmem⟩ := hinv.once.mem_erase_iff.mp hu
    exact (hinv.zombie_ne hg hc hstep hslot hne).mpr (hinv.isDead u hmem)
  · have hne : u ≠ t := by
      rintro rfl
      rw [hfree] at hu
      cases hu
    rcases hinv.zombies u h1 h2 ((hinv.zombie_ne hg hc hstep hslot hne).mp hu) with hold | hdead
    · exact .inl hold
    · exact .inr (hinv.once.mem_erase_iff.mpr ⟨hne, hdead⟩)
  · have hold := hinv.count
    have hlen := List.length_pos_of_mem hmem
    rw [List.length_erase_of_mem hmem]
    omega

/-- A monitor exits. -/
theorem terminate {t code : Int} (hn : 0 < n) (he : stepEvent cfg s e = .terminate t code true) :
    TableInv cfg s₀ s' (n - 1) (if WaitedFor s t then dead else t :: dead) := by
  have hs := hinv.settled
  have hslot : (stepEvent cfg s e).slot = some t := by
    rw [he]
    rfl
  obtain ⟨halive, hcases⟩ := hs.terminated hg hc hstep he
  have hnot : t ∉ dead := fun hmem => halive (hinv.isDead t hmem)
  have hold := hinv.count
  have hkeep : ∀ u ∈ dead, (s'.threads u).state = .zombie := by
    intro u hu
    have hne : u ≠ t := by
      rintro rfl
      exact hnot hu
    exact (hinv.zombie_ne hg hc hstep hslot hne).mpr (hinv.isDead u hu)
  have hback : ∀ u : Int, 0 ≤ u → u < cfg.threadMax → u ≠ t → (s'.threads u).state = .zombie →
      (s₀.threads u).state = .zombie ∨ u ∈ dead := by
    intro u h1 h2 hne hu
    exact hinv.zombies u h1 h2 ((hinv.zombie_ne hg hc hstep hslot hne).mp hu)
  -- with somebody waiting the slot is free again; otherwise it joins the dead ones
  rcases hcases with ⟨hw, hcount, hfree⟩ | ⟨hw, hcount, hdead⟩
  · rw [if_pos hw]
    refine ⟨hs.next hg hc hstep, hkeep, fun u h1 h2 hu => ?_, hinv.once, ?_⟩
    · refine hback u h1 h2 ?_ hu
      rintro rfl
      rw [hfree] at hu
      cases hu
    · omega
  · rw [if_neg hw]
    refine ⟨hs.next hg hc hstep, fun u hu => ?_, fun u h1 h2 hu => ?_, hinv.once.cons hnot, ?_⟩
    · rcases List.mem_cons.mp hu with rfl | hmem
      · exact hdead
      · exact hkeep u hmem
    · by_cases hne : u = t
      · exact .inr (List.mem_cons.mpr (.inl hne))
      · rcases hback u h1 h2 hne hu with hz | hmem
        · exact .inl hz
        · exact .inr (List.mem_cons_of_mem t hmem)
    · rw [List.length_cons]
      omega

end TableInv

end Table

/-! ## `g_mons` -/

section Mons

variable {mons mons' : Mons} {live : List (Int × Nat)} {m₀ : Nat}

/-- Every live monitor has a slot of its own and turns to go. -/
structure MonsInv (m₀ : Nat) (mons : Mons) (live : List (Int × Nat)) : Prop where
  slots : ∀ p ∈ live, p.2 < monMax ∧ (mons p.2).used = true ∧ 1 ≤ (mons p.2).remaining
  distinct : (live.map Prod.snd).Nodup
  count : m₀ = unusedMons mons + live.length

theorem unusedMons_congr (hused : ∀ i, (mons' i).used = (mons i).used) :
    unusedMons mons' = unusedMons mons := by
  unfold unusedMons
  simp only [hused]

/-- `mon_start` with a free slot. -/
theorem monStart_cases {period : UInt32} {count created : Int} (halloc : monAlloc mons ≠ none) :
    ∃ i mons', i < monMax ∧ (mons i).used = false ∧ (∀ j, j ≠ i → mons' j = mons j) ∧
      ((created < 0 ∧ (mons' i).used = false ∧
          monStart mons period count created = (created, mons', none)) ∨
        (0 ≤ created ∧ (mons' i).used = true ∧ (mons' i).remaining = count ∧
          monStart mons period count created = (created, mons', some i))) := by
  obtain ⟨⟨i, mons₁⟩, hsome⟩ := Option.ne_none_iff_exists'.mp halloc
  obtain ⟨j, hfind, hj⟩ := Option.map_eq_some_iff.mp hsome
  cases hj
  have hfree := List.find?_some hfind
  have hlt := List.mem_range.mp (List.mem_of_find?_eq_some hfind)
  rw [Bool.not_eq_true'] at hfree
  unfold monStart monStartEx
  simp only [hsome]
  by_cases hneg : created < 0
  · rw [if_pos hneg]
    refine ⟨i, _, hlt, hfree, fun j hj => ?_, .inl ⟨hneg, ?_, rfl⟩⟩
    · rw [Function.update_of_ne hj, Function.update_of_ne hj]
    · rw [Function.update_self]
  · rw [if_neg hneg]
    refine ⟨i, _, hlt, hfree, fun j hj => ?_, .inr ⟨by omega, ?_, ?_, rfl⟩⟩
    · rw [Function.update_of_ne hj, Function.update_of_ne hj]
    · rw [Function.update_self, Function.update_self]
    · rw [Function.update_self]

theorem MonsInv.failed (hinv : MonsInv m₀ mons live) {i : Nat} (hfree : (mons i).used = false)
    (hother : ∀ j, j ≠ i → mons' j = mons j) (hself : (mons' i).used = false) :
    MonsInv m₀ mons' live := by
  refine ⟨fun p hp => ?_, hinv.distinct, ?_⟩
  · obtain ⟨hlt, hused, hrem⟩ := hinv.slots p hp
    have hne : p.2 ≠ i := by
      rintro rfl
      rw [hfree] at hused
      cases hused
    rw [hother p.2 hne]
    exact ⟨hlt, hused, hrem⟩
  · rw [hinv.count, unusedMons_congr]
    intro j
    by_cases hj : j = i
    · rw [hj, hself, hfree]
    · rw [hother j hj]

theorem MonsInv.started (hinv : MonsInv m₀ mons live) {i : Nat} {tid count : Int} (hlt : i < monMax)
    (hfree : (mons i).used = false) (hother : ∀ j, j ≠ i → mons' j = mons j)
    (hself : (mons' i).used = true) (hrem : (mons' i).remaining = count) (hcount : 1 ≤ count) :
    MonsInv m₀ mons' ((tid, i) :: live) := by
  have hnew : ∀ p ∈ live, p.2 ≠ i := by
    rintro p hp rfl
    have hused := (hinv.slots p hp).2.1
    rw [hfree] at hused
    cases hused
  refine ⟨fun p hp => ?_, ?_, ?_⟩
  · rcases List.mem_cons.mp hp with rfl | hp
    · exact ⟨hlt, hself, hrem.symm ▸ hcount⟩
    · rw [hother p.2 (hnew p hp)]
      exact hinv.slots p hp
  · rw [List.map_cons, List.nodup_cons]
    refine ⟨fun hmem => ?_, hinv.distinct⟩
    obtain ⟨p, hp, hpi⟩ := List.mem_map.mp hmem
    exact hnew p hp hpi
  · have hsucc : unusedMons mons = unusedMons mons' + 1 := by
      refine card_filter_succ hlt ?_ hfree fun j hj => ?_
      · rw [hself]
        nofun
      · rw [hother j hj]
    rw [hinv.count, hsucc, List.length_cons]
    omega

section Turn

variable (hinv : MonsInv m₀ mons live) {t n : Int} {idx : Nat} (hmem : (t, idx) ∈ live) (hn : 0 ≤ n)

include hinv hmem hn

theorem MonsInv.turn (hgo : (monitorTurn (mons idx) n).2.2 = false) :
    MonsInv m₀ (Function.update mons idx (monitorTurn (mons idx) n).1) live := by
  obtain ⟨-, hused, hrem⟩ := hinv.slots _ hmem
  dsimp only at hused hrem
  have hne : (mons idx).remaining ≠ 1 := by
    intro hone
    rw [(monitorTurn_last hused hn hone).2] at hgo
    cases hgo
  obtain ⟨hkeep, hdown, -⟩ := monitorTurn_down hused hn (by omega) hne
  refine ⟨fun p hp => ?_, hinv.distinct, ?_⟩
  · obtain ⟨hlt, hu, hr⟩ := hinv.slots p hp
    by_cases hp2 : p.2 = idx
    · rw [hp2, Function.update_self]
      exact ⟨hp2 ▸ hlt, hkeep, by omega⟩
    · rw [Function.update_of_ne hp2]
      exact ⟨hlt, hu, hr⟩
  · rw [hinv.count, unusedMons_congr]
    intro j
    by_cases hj : j = idx
    · rw [hj, Function.update_self, hkeep, hused]
    · rw [Function.update_of_ne hj]

theorem MonsInv.finish (hexit : (monitorTurn (mons idx) n).2.2 = true) :
    MonsInv m₀ (Function.update mons idx (monitorTurn (mons idx) n).1) (live.erase (t, idx)) := by
  obtain ⟨hlt, hused, hrem⟩ := hinv.slots _ hmem
  have hone : (mons idx).remaining = 1 := by
    by_contra hne
    rw [(monitorTurn_down hused hn (by omega) hne).2.2] at hexit
    cases hexit
  have hfree := (monitorTurn_last hused hn hone).1
  have hnodup : live.Nodup := hinv.distinct.of_map _
  refine ⟨fun p hp => ?_, hinv.distinct.sublist (List.erase_sublist.map _), ?_⟩
  · -- no other live monitor uses the slot
    obtain ⟨hne, hp⟩ := hnodup.mem_erase_iff.mp hp
    have hp2 : p.2 ≠ idx := fun heq => hne (List.inj_on_of_nodup_map hinv.distinct hp hmem heq)
    rw [Function.update_of_ne hp2]
    exact hinv.slots p hp
  · have hsucc : unusedMons (Function.update mons idx (monitorTurn (mons idx) n).1) =
        unusedMons mons + 1 := by
      refine card_filter_succ hlt ?_ ?_ fun j hj => ?_
      · rw [hused]
        nofun
      · rw [Function.update_self]
        exact hfree
      · rw [Function.update_of_ne hj]
    have hlen := List.length_pos_of_mem hmem
    rw [hinv.count, hsucc, List.length_erase_of_mem hmem]
    omega

end Turn

end Mons

/-! ## Runs -/

section Run

variable {s₀ s s' : Monitored} {tr : List (Monitored × MonEvent)}

structure MonInv (cfg : Config) (s₀ : Monitored) (tr : List (Monitored × MonEvent))
    (s : Monitored) :
    Prop where
  table : TableInv cfg s₀.kernel s.kernel s.live.length (leaked cfg tr)
  mons : MonsInv (unusedMons s₀.mons) s.mons s.live

theorem MonInv.kernelStep {e : Event} (hinv : MonInv cfg s₀ tr s)
    (hg : MonAllowed cfg infos s₀ s (.kernel e)) (hs : monStep cfg infos s (.kernel e) = .ok s') :
    MonInv cfg s₀ ((s, .kernel e) :: tr) s' := by
  unfold monStep at hs
  simp only [bind_eq_ok] at hs
  obtain ⟨k, hk, hs⟩ := hs
  cases hs
  obtain ⟨hallowed, hun⟩ := hg
  refine ⟨?_, hinv.mons⟩
  have hc : NoStrayKill cfg s.kernel e := by
    refine noStrayKill_of_alive fun t code now he => ?_
    rw [he] at hun
    exact hun
  cases he : stepEvent cfg s.kernel e with
  | collect t =>
    rw [he] at hun
    simp only [leaked, he]
    exact hinv.table.collect hallowed hc hk he hun
  | create t =>
    rw [he] at hun
    exact hun.elim
  | terminate t code now =>
    rw [he] at hun
    exact hun.elim
  | _ =>
    simp only [leaked, he]
    refine hinv.table.unrelated hallowed hc hk ?_
    rw [he]
    rfl

theorem MonInv.startStep {h : Nat} {regs : Trapframe} {io : TrapInput} {period : UInt32}
    {count : Int}
    (hinv : MonInv cfg s₀ tr s) (hg : MonAllowed cfg infos s₀ s (.start h regs io period count))
    (hs : monStep cfg infos s (.start h regs io period count) = .ok s') :
    MonInv cfg s₀ ((s, .start h regs io period count) :: tr) s' := by
  obtain ⟨hallowed, hcreate, hcount⟩ := hg
  obtain ⟨entry, arg, name, sstatus, ha⟩ : ∃ entry arg name sstatus,
      trapAction cfg regs io = .create entry arg name sstatus := by
    cases ha : trapAction cfg regs io with
    | create entry arg name sstatus => exact ⟨entry, arg, name, sstatus, rfl⟩
    | _ =>
      rw [ha] at hcreate
      cases hcreate
  have hevent : stepEvent cfg s.kernel (.trap h regs io) =
      if allocThreadSlot cfg s.kernel < 0 then .skip
      else .create (allocThreadSlot cfg s.kernel) := by
    rw [stepEvent, ha]
    rfl
  have hc : NoStrayKill cfg s.kernel (.trap h regs io) := by
    refine noStrayKill_of_alive fun t code now he => ?_
    rw [hevent] at he
    split at he <;> cases he
  dsimp only [monStep] at hs
  split at hs
  · -- no slot of `g_mons`: the kernel is not called
    cases hs
    exact ⟨hinv.table, hinv.mons⟩
  rename_i halloc
  rw [bind_eq_ok] at hs
  obtain ⟨k, hk, hs⟩ := hs
  obtain ⟨i, mons', hlt, hfree, hother, hstart⟩ := @monStart_cases s.mons period count
    (allocThreadSlot cfg s.kernel) (by rw [halloc]; exact Option.some_ne_none _)
  rcases hstart with ⟨hneg, hself, heq⟩ | ⟨hpos, hself, hrem, heq⟩
  · -- no slot of the thread table: the slot of `g_mons` is put back
    rw [heq] at hs
    cases hs
    refine ⟨hinv.table.unrelated hallowed hc hk ?_, hinv.mons.failed hfree hother hself⟩
    rw [hevent, if_pos hneg]
    rfl
  · -- the monitor runs in the slot that the trap has allocated
    rw [heq] at hs
    cases hs
    have hcreated :
        stepEvent cfg s.kernel (.trap h regs io) = .create (allocThreadSlot cfg s.kernel) := by
      rw [hevent, if_neg (by omega)]
    exact ⟨hinv.table.create hallowed hc hk hcreated,
      hinv.mons.started hlt hfree hother hself hrem hcount⟩

theorem MonInv.turnStep {h idx : Nat} (hinfos : ∀ i, infos i ≠ 0) (hinv : MonInv cfg s₀ tr s)
    (hg : MonAllowed cfg infos s₀ s (.turn h idx))
    (hs : monStep cfg infos s (.turn h idx) = .ok s') :
    MonInv cfg s₀ ((s, .turn h idx) :: tr) s' := by
  obtain ⟨-, hmem, hgo⟩ := hg
  cases hs
  exact ⟨hinv.table, hinv.mons.turn hmem (threadSysList_nonneg cfg _ (hinfos idx)) hgo⟩

theorem MonInv.finishStep {h idx : Nat} {regs : Trapframe} {io : TrapInput}
    (hinfos : ∀ i, infos i ≠ 0) (hinv : MonInv cfg s₀ tr s)
    (hg : MonAllowed cfg infos s₀ s (.finish h regs io idx))
    (hs : monStep cfg infos s (.finish h regs io idx) = .ok s') :
    MonInv cfg s₀ ((s, .finish h regs io idx) :: tr) s' := by
  obtain ⟨hallowed, hexit, hmem, hlast⟩ := hg
  obtain ⟨code, ha⟩ : ∃ code, trapAction cfg regs io = .exit code := by
    cases ha : trapAction cfg regs io with
    | exit code => exact ⟨code, rfl⟩
    | _ =>
      rw [ha] at hexit
      cases hexit
  have hevent : stepEvent cfg s.kernel (.trap h regs io) =
      .terminate (s.kernel.cpus h).currentTid code true := by
    rw [stepEvent, ha]
    rfl
  have hc : NoStrayKill cfg s.kernel (.trap h regs io) := by
    intro t ht
    rw [ha] at ht
    cases ht
  unfold monStep at hs
  simp only [bind_eq_ok] at hs
  obtain ⟨k, hk, hs⟩ := hs
  cases hs
  refine ⟨?_, hinv.mons.finish hmem (threadSysList_nonneg cfg _ (hinfos idx)) hlast⟩
  show TableInv cfg s₀.kernel k (s.live.erase ((s.kernel.cpus h).currentTid, idx)).length _
  rw [List.length_erase_of_mem hmem]
  exact hinv.table.terminate hallowed hc hk (List.length_pos_of_mem hmem) hevent

theorem monInv_run (hinfos : ∀ i, infos i ≠ 0) (hs₀ : Settled cfg s₀.kernel) (hlive : s₀.live = [])
    (hrun : Run (monSystem cfg infos s₀) tr s) : MonInv cfg s₀ tr s := by
  induction hrun with
  | start hi =>
    cases hi
    refine ⟨⟨hs₀, fun _ hmem => absurd hmem List.not_mem_nil, fun t _ _ hz => .inl hz,
      List.nodup_nil, ?_⟩, ⟨?_, ?_, ?_⟩⟩
    · rw [hlive]
      rfl
    · rw [hlive]
      nofun
    · rw [hlive]
      exact List.nodup_nil
    · rw [hlive]
      rfl
  | @step tr s s' e hrun hg hs ih =>
    cases e with
    | kernel e => exact @MonInv.kernelStep cfg infos s₀ s s' tr e ih hg hs
    | start h regs io period count =>
      exact @MonInv.startStep cfg infos s₀ s s' tr h regs io period count ih hg hs
    | turn h idx => exact ih.turnStep hinfos hg hs
    | finish h regs io idx => exact ih.finishStep hinfos hg hs

end Run

/-- What is said of finished monitors: they leave the slots of the thread table and of `g_mons` as
they were, and do not make `thread_create` fail. -/
structure MonitorsFree (cfg : Config) (s₀ s : Monitored) : Prop where
  threads : unusedThreads cfg s.kernel = unusedThreads cfg s₀.kernel
  mons : unusedMons s.mons = unusedMons s₀.mons
  create : 0 ≤ allocThreadSlot cfg s₀.kernel → 0 ≤ allocThreadSlot cfg s.kernel

theorem MonInv.free_iff {s₀ s : Monitored} {tr : List (Monitored × MonEvent)}
    (hinv : MonInv cfg s₀ tr s) (hb : Basic cfg s₀.kernel) (hlive : s.live = []) :
    MonitorsFree cfg s₀ s ↔ AllReaped cfg tr := by
  have hthreads := hinv.table.count
  have hmons := hinv.mons.count
  rw [hlive, List.length_nil] at hthreads hmons
  rw [← leaked_eq_nil]
  constructor
  · intro hfree
    have heq := hfree.threads
    exact List.eq_nil_of_length_eq_zero (by omega)
  · intro hnone
    rw [hnone, List.length_nil] at hthreads
    refine ⟨by omega, by omega, fun hpos => ?_⟩
    rw [allocThreadSlot_nonneg hb] at hpos
    rw [allocThreadSlot_nonneg hinv.table.settled.basic]
    omega

/-- Any number of calls `mon_start(period, n)` with `n ≥ 1`, whose monitors have all ended: they
cost nothing if and only if every one of them was waited for, joined or detached. -/
theorem finished_monitors_free_iff (cfg : Config) {infos : Nat → UInt64} (hinfos : ∀ i, infos i ≠ 0)
    {s₀ s : Monitored} {tr : List (Monitored × MonEvent)}
    (hr : Reachable ((kernelSystem cfg).restrict (NoStrayKill cfg)) s₀.kernel)
    (hlive₀ : s₀.live = [])
    (hrun : Run (monSystem cfg infos s₀) tr s) (hlive : s.live = []) :
    MonitorsFree cfg s₀ s ↔ AllReaped cfg tr := by
  have hs₀ := settled_reachable hr
  exact (monInv_run hinfos hs₀ hlive₀ hrun).free_iff hs₀.basic hlive

/-! ## Concrete runs -/

instance (s₀ : Kernel) : (e : JoinEvent) → Decidable (e.Unrelated s₀)
  | .skip => inferInstanceAs (Decidable True)
  | .create _ => inferInstanceAs (Decidable False)
  | .suspend _ => inferInstanceAs (Decidable True)
  | .wait _ _ _ => inferInstanceAs (Decidable True)
  | .detach _ => inferInstanceAs (Decidable True)
  | .collect _ => inferInstanceAs (Decidable (_ ≠ _))
  | .terminate _ _ _ => inferInstanceAs (Decidable False)

instance (s₀ s : Monitored) : (e : MonEvent) → Decidable (MonAllowed cfg infos s₀ s e)
  | .kernel _ => inferInstanceAs (Decidable (_ ∧ _))
  | .start _ _ _ _ _ => inferInstanceAs (Decidable (_ ∧ _))
  | .turn _ _ => inferInstanceAs (Decidable (_ ∧ _))
  | .finish _ _ _ _ => inferInstanceAs (Decidable (_ ∧ _))

/-- Execute events, each subject to the guard. -/
def runMon (cfg : Config) (infos : Nat → UInt64) (s₀ : Monitored) :
    Monitored → List MonEvent → Option Monitored
  | s, [] => some s
  | s, e :: es =>
    if MonAllowed cfg infos s₀ s e then
      match monStep cfg infos s e with
      | .ok s' => runMon cfg infos s₀ s' es
      | .error _ => none
    else none

theorem runMon_run {s₀ s s' : Monitored} {tr : List (Monitored × MonEvent)} {es : List MonEvent}
    (hrun : Run (monSystem cfg infos s₀) tr s) (hs : runMon cfg infos s₀ s es = some s') :
    ∃ tr', Run (monSystem cfg infos s₀) tr' s' := by
  induction es generalizing s tr with
  | nil =>
    rw [runMon, Option.some.injEq] at hs
    exact ⟨tr, hs ▸ hrun⟩
  | cons e es ih =>
    unfold runMon at hs
    split at hs
    · rename_i hg
      split at hs
      · rename_i s₁ hstep
        exact ih (hrun.step hg hstep) hs
      · cases hs
    · cases hs

/-- Execute events from a kernel state without monitors, and a property of the state after them. -/
def monitorsTo (cfg : Config) (infos : Nat → UInt64) (es : List MonEvent) (Q : Monitored → Bool)
    (k : Kernel) : Bool :=
  match runMon cfg infos ⟨k, noMons, []⟩ ⟨k, noMons, []⟩ es with
  | some s => Q s
  | none => false

theorem exists_monitors {es : List MonEvent} {Q : Monitored → Bool} {k : Kernel}
    (hq : monitorsTo cfg infos es Q k = true) :
    ∃ tr s, Run (monSystem cfg infos ⟨k, noMons, []⟩) tr s ∧ Q s = true := by
  unfold monitorsTo at hq
  split at hq
  · rename_i s hs
    obtain ⟨tr, hrun⟩ := runMon_run (.start rfl) hs
    exact ⟨tr, s, hrun, hq⟩
  · cases hq

/-- The current thread of hart 0 calls `mon_start(1, 1)`. -/
def startOne : MonEvent := .start 0 { a0 := 4, a1 := 0x2000, scause := 8 } {} 1 1

/-- Monitor 0 on hart 0 ends. -/
def endOne : MonEvent := .finish 0 { a0 := 2, a1 := 0, scause := 8 } {} 0

/-- `mon_start(1, 1)`, and its monitor from its `sleep(1)` to its end. -/
def oneMonitor : List MonEvent :=
  [startOne, .kernel (sysYield 0), .kernel (sysSleep 0 1), .kernel (timerIrq 0),
    .kernel (sysYield 0),
    .kernel (ecall 0 7 0x8000 32 0), endOne]

/-- Three monitors that ended, each before the next was started, have used up the thread table. -/
theorem finished_monitors_fill_table :
    ∃ s₀ tr s, Reachable ((kernelSystem oneHart).restrict (NoStrayKill oneHart)) s₀.kernel ∧
      s₀.live = [] ∧ Run (monSystem oneHart (fun _ => 0x8000) s₀) tr s ∧ s.live = [] ∧
      unusedThreads oneHart s₀.kernel = 3 ∧ unusedThreads oneHart s.kernel = 0 ∧
      allocThreadSlot oneHart s.kernel = -1 ∧ ¬ MonitorsFree oneHart s₀ s := by
  obtain ⟨k, hr, hk⟩ := exists_reachable oneHart (NoStrayKill oneHart) bootOnHart0 startMain
    (fun k => decide (unusedThreads oneHart k = 3) &&
      monitorsTo oneHart (fun _ => 0x8000) (oneMonitor ++ oneMonitor ++ oneMonitor)
        (fun s => decide (s.live = [] ∧ unusedThreads oneHart s.kernel = 0 ∧
          allocThreadSlot oneHart s.kernel = -1)) k) (by decide +kernel)
  rw [Bool.and_eq_true, decide_eq_true_eq] at hk
  obtain ⟨tr, s, hrun, hs⟩ := exists_monitors hk.2
  obtain ⟨hlive, hunused, halloc⟩ := of_decide_eq_true hs
  refine ⟨_, tr, s, hr, rfl, hrun, hlive, hk.1, hunused, halloc, fun hfree => ?_⟩
  have heq := hfree.threads
  rw [hunused, hk.1] at heq
  cases heq

/-- `user_main` waits for the monitor it started. -/
theorem finished_monitors_free_joined :
    ∃ s₀ tr s, s₀.live = [] ∧ Run (monSystem oneHart (fun _ => 0x8000) s₀) tr s ∧ tr ≠ [] ∧
      s.live = [] ∧ MonitorsFree oneHart s₀ s ∧ AllReaped oneHart tr := by
  obtain ⟨k, hr, hk⟩ := exists_reachable oneHart (NoStrayKill oneHart) bootOnHart0 startMain
    (fun k => monitorsTo oneHart (fun _ => 0x8000)
      [startOne, .kernel (sysJoin 0 2 0), .kernel (sysSleep 0 1), .kernel (timerIrq 0),
        .kernel (ipiIrq 0), endOne]
      (fun s => decide (s.live = [] ∧ unusedThreads oneHart s.kernel = unusedThreads oneHart k ∧
        s.kernel.ticks ≠ k.ticks ∧ unusedMons s.mons = unusedMons noMons ∧
        0 ≤ allocThreadSlot oneHart s.kernel)) k) (by decide +kernel)
  obtain ⟨tr, s, hrun, hs⟩ := exists_monitors hk
  obtain ⟨hlive, hthreads, hticks, hmons, halloc⟩ := of_decide_eq_true hs
  have hfree : MonitorsFree oneHart ⟨k, noMons, []⟩ s := ⟨hthreads, hmons, fun _ => halloc⟩
  have hmoved : tr ≠ [] := by
    rintro rfl
    cases hrun with
    | start hi =>
      cases hi
      exact hticks rfl
  have hall := (finished_monitors_free_iff oneHart (fun _ => by decide) hr rfl hrun hlive).mp hfree
  exact ⟨_, tr, s, rfl, hrun, hmoved, hlive, hfree, hall⟩

end Ccos
