import Mathlib.Tactic
import Ccos.Kernel.Memory

/-!
# Straight-line RISC-V code

The instructions of assembly routines that move registers, CSRs and words of memory around.  `Instr`
is generic in how it names memory: machine code writes `off(base)`, while a proof about it names the
words of the objects in play.  When these words do not overlap, the machine does to memory what the
second reading does to a record (`run_sees`), and what is left to check is a finite table.
-/

namespace Ccos.Riscv

/-- The general registers; `x0` is never written here and left out. -/
inductive Reg
  | ra | sp | gp | tp | t0 | t1 | t2 | s0 | s1 | a0 | a1 | a2 | a3 | a4 | a5 | a6 | a7
  | s2 | s3 | s4 | s5 | s6 | s7 | s8 | s9 | s10 | s11 | t3 | t4 | t5 | t6
  deriving DecidableEq

inductive Csr
  | sscratch | sepc | sstatus | scause | stval
  deriving DecidableEq

/-- Instructions whose memory operands are of type `α`. -/
inductive Instr (α : Type)
  | ld (rd : Reg) (src : α)
  | sd (rs : Reg) (dst : α)
  | addi (rd rs : Reg) (imm : Int)
  | mv (rd rs : Reg)
  | csrr (rd : Reg) (csr : Csr)
  | csrw (csr : Csr) (rs : Reg)

/-- `off(base)` -/
structure Operand where
  off : Nat
  base : Reg

variable {α ι β γ : Type}

/-! ## The machine -/

structure Machine where
  regs : Reg → UInt64
  csrs : Csr → UInt64
  mem : Mem

def Machine.addr (m : Machine) (a : Operand) : UInt64 :=
  m.regs a.base + UInt64.ofNat a.off

def addImm (x : UInt64) (imm : Int) : UInt64 :=
  x + UInt64.ofInt imm

def exec (m : Machine) : Instr Operand → Machine
  | .ld rd src => { m with regs := Function.update m.regs rd (loadWord m.mem (m.addr src)) }
  | .sd rs dst => { m with mem := storeWord m.mem (m.addr dst) (m.regs rs) }
  | .addi rd rs imm => { m with regs := Function.update m.regs rd (addImm (m.regs rs) imm) }
  | .mv rd rs => { m with regs := Function.update m.regs rd (m.regs rs) }
  | .csrr rd csr => { m with regs := Function.update m.regs rd (m.csrs csr) }
  | .csrw csr rs => { m with csrs := Function.update m.csrs csr (m.regs rs) }

def run (m : Machine) (is : List (Instr Operand)) : Machine :=
  is.foldl exec m

theorem run_append (m : Machine) (is js : List (Instr Operand)) :
    run m (is ++ js) = run (run m is) js :=
  List.foldl_append

/-! ## The same code over named words -/

/-- Registers, CSRs and named words with values in `β`. -/
structure View (ι β : Type) where
  regs : Reg → β
  csrs : Csr → β
  words : ι → β

section View

variable [DecidableEq ι] (add : β → Int → β)

def View.exec (v : View ι β) : Instr ι → View ι β
  | .ld rd src => { v with regs := Function.update v.regs rd (v.words src) }
  | .sd rs dst => { v with words := Function.update v.words dst (v.regs rs) }
  | .addi rd rs imm => { v with regs := Function.update v.regs rd (add (v.regs rs) imm) }
  | .mv rd rs => { v with regs := Function.update v.regs rd (v.regs rs) }
  | .csrr rd csr => { v with regs := Function.update v.regs rd (v.csrs csr) }
  | .csrw csr rs => { v with csrs := Function.update v.csrs csr (v.regs rs) }

def View.run (v : View ι β) (is : List (Instr ι)) : View ι β :=
  is.foldl (View.exec add) v

theorem View.run_append (v : View ι β) (is js : List (Instr ι)) :
    v.run add (is ++ js) = (v.run add is).run add js :=
  List.foldl_append

end View

/-! ## Where values come from

The code only moves values, so it can be run once on their names. -/

/-- A value by where it was at the start. -/
inductive Source (ι : Type)
  | reg (r : Reg)
  | csr (c : Csr)
  | word (w : ι)
  | add (src : Source ι) (imm : Int)
  deriving DecidableEq

def Source.eval (v : View ι UInt64) : Source ι → UInt64
  | .reg r => v.regs r
  | .csr c => v.csrs c
  | .word w => v.words w
  | .add src imm => addImm (src.eval v) imm

/-- Every place holds its own value. -/
def Source.start : View ι (Source ι) := ⟨.reg, .csr, .word⟩

def View.map (g : β → γ) (v : View ι β) : View ι γ :=
  ⟨g ∘ v.regs, g ∘ v.csrs, g ∘ v.words⟩

@[simp] theorem View.map_regs (g : β → γ) (v : View ι β) (r : Reg) :
    (v.map g).regs r = g (v.regs r) := rfl

@[simp] theorem View.map_csrs (g : β → γ) (v : View ι β) (c : Csr) :
    (v.map g).csrs c = g (v.csrs c) := rfl

@[simp] theorem View.map_words (g : β → γ) (v : View ι β) (w : ι) :
    (v.map g).words w = g (v.words w) := rfl

section Flow

variable [DecidableEq ι] {add : β → Int → β} {add' : γ → Int → γ} {g : β → γ}
  (hadd : ∀ b imm, g (add b imm) = add' (g b) imm)

include hadd

theorem View.exec_map (v : View ι β) (i : Instr ι) :
    (v.map g).exec add' i = (v.exec add i).map g := by
  cases i with
  | addi rd rs imm =>
    unfold View.exec View.map
    dsimp only
    rw [Function.comp_update, hadd]
    rfl
  | _ =>
    unfold View.exec View.map
    dsimp only
    rw [Function.comp_update]
    rfl

theorem View.run_map (v : View ι β) (is : List (Instr ι)) :
    (v.map g).run add' is = (v.run add is).map g := by
  induction is generalizing v with
  | nil => rfl
  | cons i is ih =>
    show ((v.map g).exec add' i).run add' is = ((v.exec add i).run add is).map g
    rw [View.exec_map hadd, ih]

end Flow

/-- Running the code is looking up where it takes each value from. -/
theorem View.run_eq_eval [DecidableEq ι] (v : View ι UInt64) (is : List (Instr ι)) :
    v.run addImm is = (Source.start.run Source.add is).map (Source.eval v) :=
  View.run_map (g := Source.eval v) (fun _ _ => rfl) Source.start is

/-! ## The machine and its named words -/

def Instr.map (f : ι → α) : Instr ι → Instr α
  | .ld rd src => .ld rd (f src)
  | .sd rs dst => .sd rs (f dst)
  | .addi rd rs imm => .addi rd rs imm
  | .mv rd rs => .mv rd rs
  | .csrr rd csr => .csrr rd csr
  | .csrw csr rs => .csrw csr rs

/-- The memory operand and the written register of an instruction. -/
def Instr.operand : Instr α → Option α
  | .ld _ src => some src
  | .sd _ dst => some dst
  | _ => none

def Instr.dest : Instr α → Option Reg
  | .ld rd _ | .addi rd _ _ | .mv rd _ | .csrr rd _ => some rd
  | _ => none

theorem Instr.dest_map (i : Instr ι) (f : ι → α) : (i.map f).dest = i.dest := by
  cases i <;> rfl

/-- The words in use, at `addr`, do not overlap each other. -/
def Disjoint (used : ι → Bool) (addr : ι → UInt64) : Prop :=
  ∀ i j, used i → used j → i ≠ j → NoOverlap (addr i) 8 (addr j) 8

/-- The machine holds what the view says, with word `i` at `addr i`. -/
structure Sees (used : ι → Bool) (addr : ι → UInt64) (m : Machine) (v : View ι UInt64) : Prop where
  regs : m.regs = v.regs
  csrs : m.csrs = v.csrs
  words : ∀ i, used i → loadWord m.mem (addr i) = v.words i

/-- The view of a machine. -/
def Machine.view (m : Machine) (addr : ι → UInt64) : View ι UInt64 :=
  ⟨m.regs, m.csrs, fun i => loadWord m.mem (addr i)⟩

theorem Machine.sees_view (m : Machine) (used : ι → Bool) (addr : ι → UInt64) :
    Sees used addr m (m.view addr) :=
  ⟨rfl, rfl, fun _ _ => rfl⟩

section Sees

variable [DecidableEq ι] {used : ι → Bool} {addr : ι → UInt64} {operand : ι → Operand} {m : Machine}
  {v : View ι UInt64}

theorem exec_sees (hdisj : Disjoint used addr) (hs : Sees used addr m v) (i : Instr ι)
    (hused : ∀ w ∈ i.operand, used w) (haddr : ∀ w ∈ i.operand, m.addr (operand w) = addr w) :
    Sees used addr (exec m (i.map operand)) (v.exec addImm i) := by
  cases i with
  | ld rd src =>
    refine ⟨?_, hs.csrs, hs.words⟩
    show Function.update m.regs rd (loadWord m.mem (m.addr (operand src))) = _
    rw [haddr src rfl, hs.words src (hused src rfl), hs.regs]
    rfl
  | sd rs dst =>
    refine ⟨hs.regs, hs.csrs, fun j hj => ?_⟩
    show loadWord (storeWord m.mem (m.addr (operand dst)) (m.regs rs)) (addr j) =
      Function.update v.words dst (v.regs rs) j
    rw [haddr dst rfl]
    -- a store changes one word of the view, since operands in use do not overlap
    by_cases heq : j = dst
    · rw [heq, loadWord_storeWord, Function.update_self, hs.regs]
    · have hno := hdisj dst j (hused dst rfl) hj (Ne.symm heq)
      rw [loadWord_storeWord_ne _ _ hno, Function.update_of_ne heq, hs.words j hj]
  | csrw csr rs =>
    refine ⟨hs.regs, ?_, hs.words⟩
    show Function.update m.csrs csr (m.regs rs) = _
    rw [hs.regs, hs.csrs]
    rfl
  | csrr rd csr =>
    refine ⟨?_, hs.csrs, hs.words⟩
    show Function.update m.regs rd (m.csrs csr) = _
    rw [hs.regs, hs.csrs]
    rfl
  | addi rd rs imm =>
    refine ⟨?_, hs.csrs, hs.words⟩
    show Function.update m.regs rd (addImm (m.regs rs) imm) = _
    rw [hs.regs]
    rfl
  | mv rd rs =>
    refine ⟨?_, hs.csrs, hs.words⟩
    show Function.update m.regs rd (m.regs rs) = _
    rw [hs.regs]
    rfl

theorem exec_regs_of_ne {r : Reg} (i : Instr Operand) (hr : ∀ rd ∈ i.dest, rd ≠ r) :
    (exec m i).regs r = m.regs r := by
  cases i with
  | sd rs dst => rfl
  | csrw csr rs => rfl
  | _ => exact Function.update_of_ne (Ne.symm (hr _ rfl)) _ _

theorem run_regs_of_ne {r : Reg} (is : List (Instr Operand))
    (hr : ∀ i ∈ is, ∀ rd ∈ i.dest, rd ≠ r) : (run m is).regs r = m.regs r := by
  induction is generalizing m with
  | nil => rfl
  | cons i is ih =>
    show (run (exec m i) is).regs r = m.regs r
    rw [ih fun j hj => hr j (List.mem_cons_of_mem i hj),
      exec_regs_of_ne i (hr i List.mem_cons_self)]

/-- A block of code addresses the words in use through base registers it does not write. -/
structure Block (used : ι → Bool) (bases : List Reg) (operand : ι → Operand) (is : List (Instr ι)) :
    Prop where
  operands : ∀ i ∈ is, ∀ w ∈ i.operand, used w ∧ (operand w).base ∈ bases
  dests : ∀ i ∈ is, ∀ rd ∈ i.dest, rd ∉ bases

theorem run_sees (hdisj : Disjoint used addr) {bases : List Reg} (is : List (Instr ι))
    (hblock : Block used bases operand is) (hs : Sees used addr m v)
    (haddr : ∀ w, (operand w).base ∈ bases → m.addr (operand w) = addr w) :
    Sees used addr (run m (is.map (Instr.map operand))) (v.run addImm is) := by
  induction is generalizing m v with
  | nil => exact hs
  | cons i is ih =>
    have hhead := hblock.operands i List.mem_cons_self
    apply ih ⟨fun j hj => hblock.operands j (List.mem_cons_of_mem i hj),
      fun j hj => hblock.dests j (List.mem_cons_of_mem i hj)⟩
      (exec_sees hdisj hs i (fun w hw => (hhead w hw).1) fun w hw => haddr w (hhead w hw).2)
    intro w hw
    -- the base registers are as they were
    have hdest : ∀ rd ∈ (i.map operand).dest, rd ≠ (operand w).base := by
      intro rd hrd hne
      rw [Instr.dest_map] at hrd
      exact hblock.dests i List.mem_cons_self rd hrd (hne ▸ hw)
    unfold Machine.addr
    rw [exec_regs_of_ne _ hdest]
    exact haddr w hw

end Sees

theorem Block.run_base {used : ι → Bool} {operand : ι → Operand} {m : Machine} {bases : List Reg}
    {is : List (Instr ι)} (hblock : Block used bases operand is) {r : Reg} (hr : r ∈ bases) :
    (run m (is.map (Instr.map operand))).regs r = m.regs r := by
  apply run_regs_of_ne
  intro j hj rd hrd hne
  obtain ⟨i, hi, rfl⟩ := List.mem_map.mp hj
  rw [Instr.dest_map] at hrd
  exact hblock.dests i hi rd hrd (hne ▸ hr)

end Ccos.Riscv
