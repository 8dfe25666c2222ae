import Mathlib.Tactic
import Ccos.Kernel.Trace

/-!
# Monitors

`mon_start` and the loop of `monitor_main` (`user/monitor.c`).  The loop asks the kernel for its
threads, prints a report, and counts `remaining` down; the counter is also the mode, negative for a
monitor that never ends.  A start value of 0 is counted down to -1 before it is compared with 0, and
so becomes that mode.
-/

namespace Ccos

/-! ## The code -/

def monMax : Nat := 4
def monThreadListMax : Int := 32

/-- `mon_ctx_t` -/
structure MonCtx where
  used : Bool
  tid : Int
  seq : UInt32
  period : UInt32
  remaining : Int
  flags : UInt32

/-- What a monitor prints; a report is followed by the table of the threads. -/
inductive MonOutput where
  | report (tid : Int) (seq period flags : UInt32)
  | failed (tid rc : Int)
  deriving DecidableEq

/-- `g_mons` -/
abbrev Mons := Nat → MonCtx

/-- `for (i = 0; i < MON_MAX; ++i)`: the first free slot, in its initial state. -/
def monAlloc (mons : Mons) : Option (Nat × Mons) :=
  ((List.range monMax).find? fun i => !(mons i).used).map fun i =>
    (i, Function.update mons i
      { used := true, tid := -1, seq := 0, period := 10, remaining := -1, flags := 0 })

/-- The result, the slots, and the slot whose thread was created; `created` is the result of
`thread_create`. -/
def monStartEx (mons : Mons) (periodTicks : UInt32) (count : Int) (flags : UInt32) (created : Int) :
    Int × Mons × Option Nat :=
  let periodTicks := if periodTicks = 0 then 1 else periodTicks
  match monAlloc mons with
  | none => (-1, mons, none)
  | some (i, mons) =>
    let m := { mons i with period := periodTicks, remaining := count, flags := flags }
    if created < 0 then (created, Function.update mons i { m with used := false }, none)
    else (created, Function.update mons i { m with tid := created }, some i)

def monStart (mons : Mons) (periodTicks : UInt32) (count : Int) (created : Int) :
    Int × Mons × Option Nat :=
  monStartEx mons periodTicks count 0 created

/-- `if (m->remaining >= 0)` of `monitor_main`: the context and whether the thread exits. -/
def monCount (m : MonCtx) : MonCtx × Bool :=
  if 0 ≤ m.remaining then
    let m := { m with remaining := m.remaining - 1 }
    if m.remaining = 0 then ({ m with used := false }, true) else (m, false)
  else (m, false)

/-- One turn of the loop of `monitor_main`; `n` is what `thread_list` returns. -/
def monitorTurn (m : MonCtx) (n : Int) : MonCtx × List MonOutput × Bool :=
  if m.used then
    let out := if n < 0 then [MonOutput.failed m.tid n]
      else [MonOutput.report m.tid m.seq m.period m.flags]
    let m := if n < 0 then m else { m with seq := m.seq + 1 }
    ((monCount m).1, out, (monCount m).2)
  else (m, [], true)

/-- The monitor in slot `idx` for as many turns as there are kernel states: the state in which the
kernel serves the turn's `thread_list`. -/
def monitorMain (cfg : Config) (infos : Nat → UInt64) (idx : Nat) (mons : Mons) :
    List Kernel → Mons × List MonOutput × Bool
  | [] => (mons, [], false)
  | s :: ks =>
    let turn := monitorTurn (mons idx) (threadSysList cfg s (infos idx) monThreadListMax).1
    let mons := Function.update mons idx turn.1
    if turn.2.2 then (mons, turn.2.1, true)
    else
      let rest := monitorMain cfg infos idx mons ks
      (rest.1, turn.2.1 ++ rest.2.1, rest.2.2)

/-! ## One turn -/

/-- `thread_list` with a buffer never fails. -/
theorem threadSysList_nonneg (cfg : Config) (s : Kernel) {ubuf : UInt64} (hu : ubuf ≠ 0) :
    0 ≤ (threadSysList cfg s ubuf monThreadListMax).1 := by
  have hmax : ¬(ubuf = 0 ∨ monThreadListMax ≤ 0) := by
    rintro (h | h)
    · exact hu h
    · exact absurd h (by decide)
  unfold threadSysList
  rw [if_neg hmax]
  exact Int.natCast_nonneg _

def MonOutput.isReport : MonOutput → Bool
  | .report _ _ _ _ => true
  | .failed _ _ => false

section Turn

variable {m : MonCtx} {n : Int} (hused : m.used = true) (hn : 0 ≤ n)

include hused hn

theorem monitorTurn_eq :
    monitorTurn m n = ((monCount { m with seq := m.seq + 1 }).1,
      [.report m.tid m.seq m.period m.flags], (monCount { m with seq := m.seq + 1 }).2) := by
  unfold monitorTurn
  rw [if_pos hused, if_neg (Int.not_lt.mpr hn), if_neg (Int.not_lt.mpr hn)]

/-- The last report of a countdown: the slot is released and the thread exits. -/
theorem monitorTurn_last (hr : m.remaining = 1) :
    (monitorTurn m n).1.used = false ∧ (monitorTurn m n).2.2 = true := by
  rw [monitorTurn_eq hused hn]
  unfold monCount
  simp [hr]

/-- The counter goes down, from 0 to -1 too. -/
theorem monitorTurn_down (hr : 0 ≤ m.remaining) (hne : m.remaining ≠ 1) :
    (monitorTurn m n).1.used = true ∧ (monitorTurn m n).1.remaining = m.remaining - 1 ∧
      (monitorTurn m n).2.2 = false := by
  have hnext : m.remaining - 1 ≠ 0 := by omega
  rw [monitorTurn_eq hused hn]
  unfold monCount
  simp [hr, hnext, hused]

/-- Below 0 nothing is counted. -/
theorem monitorTurn_forever (hr : m.remaining < 0) :
    (monitorTurn m n).1.used = true ∧ (monitorTurn m n).1.remaining = m.remaining ∧
      (monitorTurn m n).2.2 = false := by
  rw [monitorTurn_eq hused hn]
  unfold monCount
  simp [Int.not_le.mpr hr, hused]

end Turn

/-! ## Whole runs -/

section Run

variable (cfg : Config) {infos : Nat → UInt64} {idx : Nat} (hinfos : infos idx ≠ 0)

include hinfos

/-- A monitor with `r + 1` turns to go prints `r + 1` reports, releases its slot and exits. -/
theorem monitorMain_countdown (r : Nat) {mons : Mons} (ks : List Kernel)
    (hused : (mons idx).used = true) (hr : (mons idx).remaining = r + 1) (hks : r + 1 ≤ ks.length) :
    (monitorMain cfg infos idx mons ks).2.2 = true ∧
      (monitorMain cfg infos idx mons ks).2.1.countP MonOutput.isReport = r + 1 ∧
      ((monitorMain cfg infos idx mons ks).1 idx).used = false ∧
      ∀ j, j ≠ idx → (monitorMain cfg infos idx mons ks).1 j = mons j := by
  induction r generalizing mons ks with
  -- the last turn finds `remaining` at 1: it reports, clears `used` and exits
  | zero =>
    obtain - | ⟨s, ks⟩ := ks
    · cases hks
    have hn := threadSysList_nonneg cfg s hinfos
    obtain ⟨hfree, hexit⟩ := monitorTurn_last hused hn (by rw [hr]; rfl)
    unfold monitorMain
    simp only [hexit, if_true]
    refine ⟨trivial, ?_, ?_, fun j hj => Function.update_of_ne hj _ _⟩
    · rw [monitorTurn_eq hused hn]
      rfl
    · rw [Function.update_self]
      exact hfree
  | succ r ih =>
    obtain - | ⟨s, ks⟩ := ks
    · cases hks
    have hn := threadSysList_nonneg cfg s hinfos
    have hge : 0 ≤ (mons idx).remaining := by omega
    have hne : (mons idx).remaining ≠ 1 := by omega
    obtain ⟨hkeep, hdown, hgo⟩ := monitorTurn_down hused hn hge hne
    unfold monitorMain
    simp only [hgo, Bool.false_eq_true, if_false]
    obtain ⟨hexit, hcount, hfree, hothers⟩ := @ih
      (Function.update mons idx (monitorTurn (mons idx)
        (threadSysList cfg s (infos idx) monThreadListMax).1).1) ks
      (by rw [Function.update_self]; exact hkeep)
      (by rw [Function.update_self, hdown, hr]; push_cast; omega)
      (Nat.le_of_succ_le_succ hks)
    refine ⟨hexit, ?_, hfree, fun j hj => ?_⟩
    · rw [List.countP_append, hcount, monitorTurn_eq hused hn]
      show 1 + (r + 1) = _
      omega
    · rw [hothers j hj]
      exact Function.update_of_ne hj _ _

/-- A monitor below 0 does not exit. -/
theorem monitorMain_forever {mons : Mons} (ks : List Kernel) (hused : (mons idx).used = true)
    (hr : (mons idx).remaining < 0) : (monitorMain cfg infos idx mons ks).2.2 = false := by
  induction ks generalizing mons with
  | nil => rfl
  | cons s ks ih =>
    have hn := threadSysList_nonneg cfg s hinfos
    obtain ⟨hkeep, hsame, hgo⟩ := monitorTurn_forever hused hn hr
    unfold monitorMain
    simp only [hgo, Bool.false_eq_true, if_false]
    apply ih
    · rw [Function.update_self]
      exact hkeep
    · rw [Function.update_self, hsame]
      exact hr

/-- Nor does one that starts at 0. -/
theorem monitorMain_zero {mons : Mons} (ks : List Kernel) (hused : (mons idx).used = true)
    (hr : (mons idx).remaining = 0) : (monitorMain cfg infos idx mons ks).2.2 = false := by
  cases ks with
  | nil => rfl
  | cons s ks =>
    have hn := threadSysList_nonneg cfg s hinfos
    obtain ⟨hkeep, hdown, hgo⟩ := monitorTurn_down hused hn (by omega) (by omega)
    unfold monitorMain
    simp only [hgo, Bool.false_eq_true, if_false]
    apply monitorMain_forever cfg hinfos
    · rw [Function.update_self]
      exact hkeep
    · rw [Function.update_self, hdown]
      omega

end Run

/-! ## Starting a monitor -/

/-- The slot of a monitor that was started. -/
theorem monStart_slot {mons mons' : Mons} {period : UInt32} {count created ret : Int} {idx : Nat}
    (h : monStart mons period count created = (ret, mons', some idx)) :
    (mons' idx).used = true ∧ (mons' idx).remaining = count := by
  unfold monStart monStartEx at h
  simp only at h
  split at h
  · cases h
  · next i mons₁ halloc =>
    split at h
    · cases h
    · cases h
      obtain ⟨j, -, hj⟩ := Option.map_eq_some_iff.mp halloc
      cases hj
      rw [Function.update_self, Function.update_self]
      exact ⟨rfl, rfl⟩

/-- The monitor in slot `idx`, left alone, prints `count` reports, then releases its slot and exits;
for a negative count it goes on. -/
def CountsDown (cfg : Config) (infos : Nat → UInt64) (idx : Nat) (mons : Mons) (count : Int) :
    Prop :=
  (0 ≤ count → ∃ turns, ∀ ks : List Kernel, turns ≤ ks.length →
    (monitorMain cfg infos idx mons ks).2.2 = true ∧
    ((monitorMain cfg infos idx mons ks).2.1.countP MonOutput.isReport : Int) = count ∧
    ((monitorMain cfg infos idx mons ks).1 idx).used = false ∧
    ∀ j, j ≠ idx → (monitorMain cfg infos idx mons ks).1 j = mons j) ∧
  (count < 0 → ∀ ks : List Kernel, (monitorMain cfg infos idx mons ks).2.2 = false)

theorem countsDown_iff (cfg : Config) {infos : Nat → UInt64} {mons : Mons} {count : Int} {idx : Nat}
    (hinfos : infos idx ≠ 0) (hused : (mons idx).used = true) (hr : (mons idx).remaining = count) :
    CountsDown cfg infos idx mons count ↔ count ≠ 0 := by
  constructor
  · rintro ⟨hdown, -⟩ hzero
    obtain ⟨turns, hexit⟩ := hdown (by omega)
    have hks := hexit (List.replicate turns (bssKernel bootOnHart0)) (by simp)
    rw [monitorMain_zero cfg hinfos _ hused (by omega)] at hks
    exact Bool.false_ne_true hks.1
  · intro hne
    constructor
    · intro hge
      obtain ⟨r, hcount⟩ : ∃ r : Nat, count = r + 1 := ⟨(count - 1).toNat, by omega⟩
      refine ⟨r + 1, fun ks hks => ?_⟩
      obtain ⟨hexit, hreports, hfree, hothers⟩ :=
        monitorMain_countdown cfg hinfos r ks hused (by omega) hks
      exact ⟨hexit, by rw [hreports, hcount]; push_cast; rfl, hfree, hothers⟩
    · intro hneg ks
      exact monitorMain_forever cfg hinfos ks hused (by omega)

/-- Every period, every count: a monitor that was started counts down, except from 0. -/
theorem monitor_counts_down (cfg : Config) (infos : Nat → UInt64) (hinfos : ∀ i, infos i ≠ 0)
    (mons mons' : Mons) (period : UInt32) (count created ret : Int) (idx : Nat)
    (hstart : monStart mons period count created = (ret, mons', some idx)) :
    CountsDown cfg infos idx mons' count ↔ count ≠ 0 := by
  obtain ⟨hused, hremaining⟩ := monStart_slot hstart
  exact countsDown_iff cfg (hinfos idx) hused hremaining

/-- No monitor is running. -/
def noMons : Mons := fun _ =>
  { used := false, tid := 0, seq := 0, period := 0, remaining := 0, flags := 0 }

/-- `mon start 10 3` -/
theorem monitor_counts_down_three :
    ∃ mons', monStart noMons 10 3 5 = (5, mons', some 0) ∧
      CountsDown oneHart (fun _ => 0x8000) 0 mons' 3 := by
  refine ⟨_, rfl, ?_⟩
  exact (monitor_counts_down oneHart (fun _ => 0x8000) (fun _ => by decide) noMons _ 10 3 5 5 0
    rfl).mpr (by decide)

/-- `mon start 10 0` never exits. -/
theorem monitor_from_zero_never_exits :
    ∃ mons', monStart noMons 10 0 5 = (5, mons', some 0) ∧
      (∀ ks, (monitorMain oneHart (fun _ => 0x8000) 0 mons' ks).2.2 = false) ∧
      ¬ CountsDown oneHart (fun _ => 0x8000) 0 mons' 0 := by
  refine ⟨_, rfl, fun ks => ?_, fun h => ?_⟩
  · exact monitorMain_zero oneHart (by decide) ks rfl rfl
  · exact (countsDown_iff oneHart (by decide) rfl rfl).mp h rfl

end Ccos
