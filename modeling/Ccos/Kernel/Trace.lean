import Mathlib.Tactic
import Ccos.Kernel.Action

/-!
# Runs given as event lists

`runEvents` executes a list of events from the boot state and stops at the first event that is not
allowed.  What it computes is reachable, so a concrete run is shown by evaluation.
-/

namespace Ccos

open Reasoning

variable {cfg : Config}

/-- Execute `es` from `s`, each event subject to the guard and to `cond`. -/
def runFrom (cfg : Config) (cond : Kernel → Event → Prop) [∀ s e, Decidable (cond s e)]
    (s : Kernel) : List Event → Option Kernel
  | [] => some s
  | e :: es =>
    if Allowed cfg s e ∧ cond s e then
      match step cfg s e with
      | .ok s' => runFrom cfg cond s' es
      | .error _ => none
    else none

def runEvents (cfg : Config) (cond : Kernel → Event → Prop) [∀ s e, Decidable (cond s e)]
    (a : BootArgs) (es : List Event) : Option Kernel :=
  match primaryMain cfg a with
  | .ok s => runFrom cfg cond s es
  | .error _ => none

theorem runFrom_reachable {cond : Kernel → Event → Prop} [∀ s e, Decidable (cond s e)]
    {s s' : Kernel} {es : List Event} (hr : Reachable ((kernelSystem cfg).restrict cond) s)
    (hrun : runFrom cfg cond s es = some s') :
    Reachable ((kernelSystem cfg).restrict cond) s' := by
  induction es generalizing s with
  | nil =>
    rw [runFrom, Option.some.injEq] at hrun
    exact hrun ▸ hr
  | cons e es ih =>
    unfold runFrom at hrun
    split at hrun
    · rename_i hg
      split at hrun
      · rename_i s₁ hstep
        exact ih (hr.next hg hstep) hrun
      · cases hrun
    · cases hrun

/-- The events of an executed list are a path. -/
theorem runFrom_path {cond : Kernel → Event → Prop} [∀ s e, Decidable (cond s e)]
    {s s' : Kernel} {es : List Event} (hrun : runFrom cfg cond s es = some s') :
    ∃ vs, Path ((kernelSystem cfg).restrict cond) s vs s' ∧ vs.map Prod.fst = es.reverse := by
  induction es generalizing s with
  | nil =>
    rw [runFrom, Option.some.injEq] at hrun
    exact ⟨[], hrun ▸ .refl, rfl⟩
  | cons e es ih =>
    unfold runFrom at hrun
    split at hrun
    · rename_i hg
      split at hrun
      · rename_i s₁ hstep
        obtain ⟨vs, hpath, hes⟩ := ih hrun
        exact ⟨vs ++ [(e, s₁)], hpath.cons hg hstep, by simp [hes]⟩
      · cases hrun
    · cases hrun

theorem runEvents_reachable {cond : Kernel → Event → Prop} [∀ s e, Decidable (cond s e)]
    {s : Kernel} {a : BootArgs} {es : List Event} (hrun : runEvents cfg cond a es = some s) :
    Reachable ((kernelSystem cfg).restrict cond) s := by
  unfold runEvents at hrun
  split at hrun
  · rename_i s₀ hboot
    exact runFrom_reachable (.start ⟨a, hboot⟩) hrun
  · cases hrun

/-- A property of the state a run ends in, evaluated. -/
def endsWith (P : Kernel → Bool) : Option Kernel → Bool
  | some s => P s
  | none => false

theorem exists_reachable (cfg : Config) (cond : Kernel → Event → Prop)
    [∀ s e, Decidable (cond s e)] (a : BootArgs) (es : List Event) (P : Kernel → Bool)
    (h : endsWith P (runEvents cfg cond a es) = true) :
    ∃ s, Reachable ((kernelSystem cfg).restrict cond) s ∧ P s = true := by
  cases hrun : runEvents cfg cond a es with
  | none =>
    rw [hrun] at h
    cases h
  | some s =>
    rw [hrun] at h
    exact ⟨s, runEvents_reachable hrun, h⟩

/-- One more step from `s`, and a property of the state after it. -/
def stepTo (cfg : Config) (s : Kernel) (e : Event) (Q : Kernel → Bool) : Bool :=
  decide (Allowed cfg s e) && match step cfg s e with
    | .ok s' => Q s'
    | .error _ => false

theorem exists_step {s : Kernel} {e : Event} {Q : Kernel → Bool} (h : stepTo cfg s e Q = true) :
    ∃ s', Allowed cfg s e ∧ step cfg s e = .ok s' ∧ Q s' = true := by
  unfold stepTo at h
  rw [Bool.and_eq_true, decide_eq_true_eq] at h
  cases hstep : step cfg s e with
  | error e =>
    rw [hstep] at h
    cases h.2
  | ok s' =>
    rw [hstep] at h
    exact ⟨s', h.1, rfl, h.2⟩

/-! ## Events of small runs -/

def oneHart : Config where
  maxHarts := 1
  threadMax := 5
  ndebug := false
  threadStacks := 0x80300000
  maxHarts_pos := by decide
  maxHarts_lt := by decide

def twoHarts : Config where
  maxHarts := 2
  threadMax := 6
  ndebug := false
  threadStacks := 0x80300000
  maxHarts_pos := by decide
  maxHarts_lt := by decide

/-- Any run. -/
def anyStep (_ : Kernel) (_ : Event) : Prop := True

instance (s : Kernel) (e : Event) : Decidable (anyStep s e) := inferInstanceAs (Decidable True)

/-- Boot arguments of a run on hart 0. -/
def bootOnHart0 : BootArgs where
  bootHart := 0
  early := []
  uartIrq := 10
  sstatus := 0
  idleMain := 0
  userMain := 0x1000
  timebaseHz := 10000000
  time := 0
  mem := fun _ => 0

def timerIrq (h : Nat) : Event := .trap h { scause := 0x8000000000000005 } {}

def ipiIrq (h : Nat) : Event := .trap h { scause := 0x8000000000000001 } {}

/-- A UART interrupt that delivers `rx`. -/
def uartIrq (h : Nat) (rx : List UInt8) : Event :=
  .trap h { scause := 0x8000000000000009 } { claims := [{ irq := 10, now := 0, rx := rx }] }

/-- System call `a0` of the current thread of hart `h`. -/
def ecall (h : Nat) (a0 a1 a2 a3 : UInt64) : Event :=
  .trap h { a0 := a0, a1 := a1, a2 := a2, a3 := a3, scause := 8 } {}

def sysSleep (h : Nat) (ticks : UInt64) : Event := ecall h 1 ticks 0 0

def sysExit (h : Nat) (code : UInt64) : Event := ecall h 2 code 0 0

def sysJoin (h : Nat) (tid p : UInt64) : Event := ecall h 3 tid p 0

def sysCreate (h : Nat) : Event := ecall h 4 0x2000 0 0

def sysReadStdin (h : Nat) (buf len : UInt64) : Event := ecall h 6 0 buf len

def sysKill (h : Nat) (tid : UInt64) : Event := ecall h 8 tid 0 0

def sysYield (h : Nat) : Event := ecall h 12 0 0 0

/-- Hart 0 enters idle and gives the processor to `user_main` after one slice. -/
def startMain : List Event := .enterIdle 0 :: List.replicate 5 (timerIrq 0)

/-- Both harts of `twoHarts` are up and hart 0 runs `user_main`. -/
def startBoth : List Event := .cpuInit 1 :: .enterIdle 1 :: startMain

end Ccos
