import Mathlib.Tactic
import Ccos.Arch.Riscv

/-!
# Saving and restoring a context

`trap_entry` (`arch/riscv/trap.S`) and `arch_first_switch` over `struct trapframe`.  In both files
an offset always comes with the same base register: `TF_*(t0)`, `SCR_*(sp)` and `CPU_*(tp)`, which
is what `Sym` names.
-/

namespace Ccos.Riscv

/-! ## `struct trapframe` -/

inductive TfField
  | ra | sp | gp | tp | t0 | t1 | t2 | s0 | s1 | a0 | a1 | a2 | a3 | a4 | a5 | a6 | a7
  | s2 | s3 | s4 | s5 | s6 | s7 | s8 | s9 | s10 | s11 | t3 | t4 | t5 | t6
  | sepc | sstatus | scause | stval
  deriving DecidableEq

/-- The members of `struct trapframe` in declaration order, all `uint64_t`; a word of padding
follows. -/
def structTrapframe : List TfField :=
  [.ra, .sp, .gp, .tp, .t0, .t1, .t2, .s0, .s1, .a0, .a1, .a2, .a3, .a4, .a5, .a6, .a7,
    .s2, .s3, .s4, .s5, .s6, .s7, .s8, .s9, .s10, .s11, .t3, .t4, .t5, .t6,
    .sepc, .sstatus, .scause, .stval]

def sizeofTrapframe : Nat := 8 * (structTrapframe.length + 1)

/-- `offsetof(struct trapframe, f)` -/
def offsetof (f : TfField) : Nat := 8 * structTrapframe.idxOf f

/-- The member with the name of a register. -/
def Reg.field : Reg → TfField
  | .ra => .ra | .sp => .sp | .gp => .gp | .tp => .tp | .t0 => .t0 | .t1 => .t1 | .t2 => .t2
  | .s0 => .s0 | .s1 => .s1 | .a0 => .a0 | .a1 => .a1 | .a2 => .a2 | .a3 => .a3 | .a4 => .a4
  | .a5 => .a5 | .a6 => .a6 | .a7 => .a7 | .s2 => .s2 | .s3 => .s3 | .s4 => .s4 | .s5 => .s5
  | .s6 => .s6 | .s7 => .s7 | .s8 => .s8 | .s9 => .s9 | .s10 => .s10 | .s11 => .s11
  | .t3 => .t3 | .t4 => .t4 | .t5 => .t5 | .t6 => .t6

/-- The member `f` of the trapframe at `tf`. -/
def frameAt (m : Mem) (tf : UInt64) (f : TfField) : UInt64 :=
  loadWord m (tf + UInt64.ofNat (offsetof f))

/-! ## The assembly -/

/-- `trapframe_offset.inc` -/
def tfOffset : TfField → Nat
  | .ra => 0
  | .sp => 8
  | .gp => 16
  | .tp => 24
  | .t0 => 32
  | .t1 => 40
  | .t2 => 48
  | .s0 => 56
  | .s1 => 64
  | .a0 => 72
  | .a1 => 80
  | .a2 => 88
  | .a3 => 96
  | .a4 => 104
  | .a5 => 112
  | .a6 => 120
  | .a7 => 128
  | .s2 => 136
  | .s3 => 144
  | .s4 => 152
  | .s5 => 160
  | .s6 => 168
  | .s7 => 176
  | .s8 => 184
  | .s9 => 192
  | .s10 => 200
  | .s11 => 208
  | .t3 => 216
  | .t4 => 224
  | .t5 => 232
  | .t6 => 240
  | .sepc => 248
  | .sstatus => 256
  | .scause => 264
  | .stval => 272

inductive Sym
  | tf (f : TfField)
  | scrT0 | scrT1 | scrT2 | scrT3
  | cpuKstackTop
  | cpuCurTf
  deriving DecidableEq

def Sym.operand : Sym → Operand
  | .tf f => ⟨tfOffset f, .t0⟩
  | .scrT0 => ⟨0, .sp⟩
  | .scrT1 => ⟨8, .sp⟩
  | .scrT2 => ⟨16, .sp⟩
  | .scrT3 => ⟨24, .sp⟩
  | .cpuKstackTop => ⟨0, .tp⟩
  | .cpuCurTf => ⟨8, .tp⟩

/-- `ENTRY_SCRATCH_SIZE` -/
def entryScratchSize : Nat := 32

/-- Steps 0 and 1 of `trap_entry`. -/
def trapEntryStack : List (Instr Sym) :=
  -- `tp` is the per-CPU pointer and no part of the context of a thread
  [.csrr .tp .sscratch,
    -- `sp` waits in `sscratch`, since no register is free yet
    .csrw .sscratch .sp,
    .ld .sp .cpuKstackTop,
    .addi .sp .sp (-entryScratchSize)]

/-- Steps 2 and 3. -/
def trapEntryScratch : List (Instr Sym) :=
  [.sd .t0 .scrT0,
    .sd .t1 .scrT1,
    .sd .t2 .scrT2,
    .sd .t3 .scrT3,
    .ld .t0 .cpuCurTf]

/-- Steps 4 to 9, up to the call of `trap_entry_c`. -/
def trapEntryStore : List (Instr Sym) :=
  [.sd .t4 (.tf .t4),
    -- `t4` is free from here on
    .ld .t4 .scrT0, .sd .t4 (.tf .t0),
    .ld .t4 .scrT1, .sd .t4 (.tf .t1),
    .ld .t4 .scrT2, .sd .t4 (.tf .t2),
    .ld .t4 .scrT3, .sd .t4 (.tf .t3),
    -- the interrupted `sp`, before `sscratch` holds the `cpu_t` again
    .csrr .t4 .sscratch, .sd .t4 (.tf .sp),
    .csrw .sscratch .tp,
    .sd .ra (.tf .ra), .sd .gp (.tf .gp), .sd .tp (.tf .tp),
    .sd .s0 (.tf .s0), .sd .s1 (.tf .s1), .sd .s2 (.tf .s2), .sd .s3 (.tf .s3),
    .sd .s4 (.tf .s4), .sd .s5 (.tf .s5), .sd .s6 (.tf .s6), .sd .s7 (.tf .s7),
    .sd .s8 (.tf .s8), .sd .s9 (.tf .s9), .sd .s10 (.tf .s10), .sd .s11 (.tf .s11),
    .sd .a0 (.tf .a0), .sd .a1 (.tf .a1), .sd .a2 (.tf .a2), .sd .a3 (.tf .a3),
    .sd .a4 (.tf .a4), .sd .a5 (.tf .a5), .sd .a6 (.tf .a6), .sd .a7 (.tf .a7),
    .sd .t5 (.tf .t5), .sd .t6 (.tf .t6),
    -- what the trap itself left
    .csrr .t4 .sepc, .sd .t4 (.tf .sepc),
    .csrr .t4 .sstatus, .sd .t4 (.tf .sstatus),
    .csrr .t4 .scause, .sd .t4 (.tf .scause),
    .csrr .t4 .stval, .sd .t4 (.tf .stval),
    .mv .a0 .t0]

/-- Step 10, after the call. -/
def trapEntryNext : List (Instr Sym) :=
  [.csrr .tp .sscratch,
    -- the frame `trap_entry_c` returned
    .sd .a0 .cpuCurTf,
    .mv .t0 .a0]

/-- Steps 11 and 12 but for their last instruction. -/
def trapEntryLoad : List (Instr Sym) :=
  [.ld .t4 (.tf .sstatus), .csrw .sstatus .t4,
    .ld .t4 (.tf .sepc), .csrw .sepc .t4,
    .ld .ra (.tf .ra), .ld .gp (.tf .gp),
    .ld .s0 (.tf .s0), .ld .s1 (.tf .s1), .ld .s2 (.tf .s2), .ld .s3 (.tf .s3),
    .ld .s4 (.tf .s4), .ld .s5 (.tf .s5), .ld .s6 (.tf .s6), .ld .s7 (.tf .s7),
    .ld .s8 (.tf .s8), .ld .s9 (.tf .s9), .ld .s10 (.tf .s10), .ld .s11 (.tf .s11),
    .ld .a0 (.tf .a0), .ld .a1 (.tf .a1), .ld .a2 (.tf .a2), .ld .a3 (.tf .a3),
    .ld .a4 (.tf .a4), .ld .a5 (.tf .a5), .ld .a6 (.tf .a6), .ld .a7 (.tf .a7),
    .ld .t1 (.tf .t1), .ld .t2 (.tf .t2), .ld .t3 (.tf .t3), .ld .t4 (.tf .t4),
    .ld .t5 (.tf .t5), .ld .t6 (.tf .t6),
    -- the kernel stack is left last
    .ld .sp (.tf .sp)]

/-- The last load of both routines takes its own base register. -/
def loadBase : Instr Sym := .ld .t0 (.tf .t0)

/-- The start of `arch_first_switch`. -/
def archFirstSwitchNext : List (Instr Sym) :=
  [.csrw .sscratch .tp,
    .sd .a0 .cpuCurTf,
    .mv .t0 .a0]

def archFirstSwitchLoad : List (Instr Sym) :=
  [.ld .t1 (.tf .sstatus), .csrw .sstatus .t1,
    .ld .t1 (.tf .sepc), .csrw .sepc .t1,
    .ld .ra (.tf .ra), .ld .gp (.tf .gp),
    .ld .t1 (.tf .t1), .ld .t2 (.tf .t2), .ld .s0 (.tf .s0), .ld .s1 (.tf .s1),
    .ld .a0 (.tf .a0), .ld .a1 (.tf .a1), .ld .a2 (.tf .a2), .ld .a3 (.tf .a3),
    .ld .a4 (.tf .a4), .ld .a5 (.tf .a5), .ld .a6 (.tf .a6), .ld .a7 (.tf .a7),
    .ld .s2 (.tf .s2), .ld .s3 (.tf .s3), .ld .s4 (.tf .s4), .ld .s5 (.tf .s5),
    .ld .s6 (.tf .s6), .ld .s7 (.tf .s7), .ld .s8 (.tf .s8), .ld .s9 (.tf .s9),
    .ld .s10 (.tf .s10), .ld .s11 (.tf .s11),
    .ld .t3 (.tf .t3), .ld .t4 (.tf .t4), .ld .t5 (.tf .t5), .ld .t6 (.tf .t6),
    .ld .sp (.tf .sp)]

def runAsm (m : Machine) (is : List (Instr Sym)) : Machine :=
  run m (is.map (Instr.map Sym.operand))

/-- `trap_entry` up to the call; `none` is `.Lno_tf`. -/
def trapEntrySave (m : Machine) : Option Machine :=
  let m := runAsm m (trapEntryStack ++ trapEntryScratch)
  if m.regs .t0 = 0 then none else some (runAsm m trapEntryStore)

/-- `trap_entry` after the call, up to `sret`. -/
def trapEntryRestore (m : Machine) : Machine :=
  runAsm m (trapEntryNext ++ trapEntryLoad ++ [loadBase])

/-- `arch_first_switch` up to `sret`. -/
def archFirstSwitch (m : Machine) : Machine :=
  runAsm m (archFirstSwitchNext ++ archFirstSwitchLoad ++ [loadBase])

/-! ## The words in play -/

theorem structTrapframe_complete (f : TfField) : f ∈ structTrapframe := by
  cases f <;> decide

/-- The assembly offsets are those of the C structure. -/
theorem tfOffset_eq (f : TfField) : tfOffset f = offsetof f := by
  cases f <;> rfl

theorem offsetof_le (f : TfField) : offsetof f + 8 ≤ 280 := by
  have hlt : structTrapframe.idxOf f < structTrapframe.length :=
    List.idxOf_lt_length_of_mem (structTrapframe_complete f)
  have hlen : structTrapframe.length = 35 := rfl
  unfold offsetof
  omega

theorem offsetof_disjoint {f g : TfField} (hne : f ≠ g) :
    offsetof f + 8 ≤ offsetof g ∨ offsetof g + 8 ≤ offsetof f := by
  have hidx : structTrapframe.idxOf f ≠ structTrapframe.idxOf g := fun heq =>
    hne ((List.idxOf_inj (structTrapframe_complete f)).mp heq)
  unfold offsetof
  omega

/-- The object a symbolic operand lies in, and the object's size. -/
inductive Object
  | trapframe | scratch | cpu
  deriving DecidableEq

def Object.size : Object → Nat
  | .trapframe => sizeofTrapframe
  | .scratch => entryScratchSize
  | .cpu => 16

def Sym.object : Sym → Object
  | .tf _ => .trapframe
  | .scrT0 | .scrT1 | .scrT2 | .scrT3 => .scratch
  | .cpuKstackTop | .cpuCurTf => .cpu

def Sym.addr (at_ : Object → UInt64) (w : Sym) : UInt64 :=
  at_ w.object + UInt64.ofNat w.operand.off

theorem Sym.inside (w : Sym) : w.operand.off + 8 ≤ w.object.size := by
  cases w with
  | tf f =>
    have hle := offsetof_le f
    show tfOffset f + 8 ≤ 288
    rw [tfOffset_eq]
    omega
  | _ => decide

theorem Sym.offsets_disjoint {w u : Sym} (hobj : w.object = u.object) (hne : w ≠ u) :
    w.operand.off + 8 ≤ u.operand.off ∨ u.operand.off + 8 ≤ w.operand.off := by
  cases w with
  -- two members of the frame; the other words stand at fixed offsets
  | tf f =>
    cases u with
    | tf g =>
      show tfOffset f + 8 ≤ tfOffset g ∨ tfOffset g + 8 ≤ tfOffset f
      rw [tfOffset_eq, tfOffset_eq]
      exact offsetof_disjoint fun heq => hne (heq ▸ rfl)
    | _ => cases hobj
  | _ =>
    cases u with
    | tf g => cases hobj
    | _ => first | exact absurd rfl hne | decide | cases hobj

/-- Words of objects that do not overlap. -/
theorem disjoint_addr {at_ : Object → UInt64} {used : Sym → Bool}
    (hobjs : ∀ w u : Sym, used w → used u → w.object ≠ u.object →
      NoOverlap (at_ w.object) w.object.size (at_ u.object) u.object.size) :
    Disjoint used (Sym.addr at_) := by
  intro w u hw hu hne
  have hsize : ∀ o : Object, o.size ≤ 2 ^ 64 := by
    intro o
    cases o <;> decide
  have hw' := (w.inside).trans (hsize w.object)
  have hu' := (u.inside).trans (hsize u.object)
  unfold Sym.addr
  by_cases hobj : w.object = u.object
  · rw [hobj]
    exact noOverlap_offsets _ hw' hu' (Sym.offsets_disjoint hobj hne)
  · exact (hobjs w u hw hu hobj).sub w.inside u.inside

/-! ## Saving -/

/-- A hart traps: `sscratch` holds its `cpu_t`, which points to the trapframe `tf`.  The scratch
area below the top of the kernel stack, the `cpu_t` and the trapframe are different objects. -/
structure Traps (m : Machine) (cpu scratch tf : UInt64) : Prop where
  sscratch : m.csrs .sscratch = cpu
  kstackTop : loadWord m.mem cpu = scratch + 32
  curTf : loadWord m.mem (cpu + 8) = tf
  notNull : tf ≠ 0
  scratch_tf : NoOverlap scratch 32 tf 288
  cpu_scratch : NoOverlap cpu 16 scratch 32
  cpu_tf : NoOverlap cpu 16 tf 288

/-- What `trap_entry` leaves for `trap_entry_c`. -/
structure Saved (m : Machine) (cpu tf : UInt64) (m' : Machine) : Prop where
  regs : ∀ r, frameAt m'.mem tf r.field = if r = .tp then cpu else m.regs r
  sepc : frameAt m'.mem tf .sepc = m.csrs .sepc
  sstatus : frameAt m'.mem tf .sstatus = m.csrs .sstatus
  scause : frameAt m'.mem tf .scause = m.csrs .scause
  stval : frameAt m'.mem tf .stval = m.csrs .stval
  sscratch : m'.csrs .sscratch = cpu
  arg : m'.regs .a0 = tf

section Save

variable {m : Machine} {cpu scratch tf : UInt64}

/-- Where the objects are. -/
def objects (cpu scratch tf : UInt64) : Object → UInt64
  | .trapframe => tf
  | .scratch => scratch
  | .cpu => cpu

theorem Traps.disjoint (ht : Traps m cpu scratch tf) :
    Disjoint (fun _ => true) (Sym.addr (objects cpu scratch tf)) := by
  apply disjoint_addr
  intro w u _ _ hne
  cases hw : w.object with
  | trapframe =>
    cases hu : u.object with
    | trapframe => exact absurd (hw.trans hu.symm) hne
    | scratch => exact ht.scratch_tf.symm
    | cpu => exact ht.cpu_tf.symm
  | scratch =>
    cases hu : u.object with
    | trapframe => exact ht.scratch_tf
    | scratch => exact absurd (hw.trans hu.symm) hne
    | cpu => exact ht.cpu_scratch.symm
  | cpu =>
    cases hu : u.object with
    | trapframe => exact ht.cpu_tf
    | scratch => exact ht.cpu_scratch
    | cpu => exact absurd (hw.trans hu.symm) hne

/-- On the kernel stack, nothing stored yet. -/
def onStack (m : Machine) (cpu scratch : UInt64) : Machine :=
  { m with
    regs := Function.update (Function.update m.regs .tp cpu) .sp scratch
    csrs := Function.update m.csrs .sscratch (m.regs .sp) }

theorem runAsm_stack (ht : Traps m cpu scratch tf) :
    runAsm m trapEntryStack = onStack m cpu scratch := by
  have htop : addImm (loadWord m.mem (m.csrs .sscratch + UInt64.ofNat 0)) (-32) = scratch := by
    have hzero : m.csrs .sscratch + UInt64.ofNat 0 = cpu := by
      rw [ht.sscratch]
      exact UInt64.add_zero cpu
    unfold addImm
    rw [hzero, ht.kstackTop, UInt64.add_assoc]
    exact UInt64.add_zero scratch
  show (⟨Function.update (Function.update (Function.update m.regs .tp (m.csrs .sscratch)) .sp _) .sp
    (addImm (loadWord m.mem (m.csrs .sscratch + UInt64.ofNat 0)) (-32)),
    Function.update m.csrs .sscratch (m.regs .sp), m.mem⟩ : Machine) = _
  rw [Function.update_idem, htop, ht.sscratch]
  rfl

theorem trapEntryScratch_block : Block (fun _ => true) [.tp, .sp] Sym.operand trapEntryScratch := by
  constructor <;> decide

theorem trapEntryStore_block : Block (fun _ => true) [.t0, .sp] Sym.operand trapEntryStore := by
  constructor <;> decide

/-- The view the stores start from. -/
def stackView (m : Machine) (cpu scratch tf : UInt64) : View Sym UInt64 :=
  (onStack m cpu scratch).view (Sym.addr (objects cpu scratch tf))

/-- Steps 2 and 3. -/
theorem sees_scratch (ht : Traps m cpu scratch tf) :
    Sees (fun _ => true) (Sym.addr (objects cpu scratch tf))
      (runAsm m (trapEntryStack ++ trapEntryScratch))
      ((stackView m cpu scratch tf).run addImm trapEntryScratch) := by
  unfold runAsm
  rw [List.map_append, run_append]
  have hstack := runAsm_stack ht
  unfold runAsm at hstack
  rw [hstack]
  refine run_sees ht.disjoint _ trapEntryScratch_block (Machine.sees_view _ _ _) ?_
  intro w hw
  cases w with
  | tf f => exact absurd hw (by decide : Reg.t0 ∉ [Reg.tp, Reg.sp])
  | _ => rfl

theorem scratch_t0 (ht : Traps m cpu scratch tf) :
    (runAsm m (trapEntryStack ++ trapEntryScratch)).regs .t0 = tf := by
  rw [(sees_scratch ht).regs]
  exact ht.curTf

/-- Steps 4 to 9. -/
theorem sees_store (ht : Traps m cpu scratch tf) :
    Sees (fun _ => true) (Sym.addr (objects cpu scratch tf))
      (runAsm (runAsm m (trapEntryStack ++ trapEntryScratch)) trapEntryStore)
      ((stackView m cpu scratch tf).run addImm (trapEntryScratch ++ trapEntryStore)) := by
  have hs := sees_scratch ht
  have hsp : (runAsm m (trapEntryStack ++ trapEntryScratch)).regs .sp = scratch := by
    rw [hs.regs]
    rfl
  rw [View.run_append]
  refine run_sees ht.disjoint _ trapEntryStore_block hs fun w hw => ?_
  unfold Machine.addr Sym.addr
  cases w with
  | tf f =>
    show (runAsm m (trapEntryStack ++ trapEntryScratch)).regs .t0 + _ = tf + _
    rw [scratch_t0 ht]
  | cpuKstackTop => exact absurd hw (by decide)
  | cpuCurTf => exact absurd hw (by decide)
  | _ =>
    show (runAsm m (trapEntryStack ++ trapEntryScratch)).regs .sp + _ = scratch + _
    rw [hsp]

theorem frameAt_of_sees {used : Sym → Bool} {v : View Sym UInt64}
    (hs : Sees used (Sym.addr (objects cpu scratch tf)) m v) {f : TfField} (hf : used (.tf f)) :
    frameAt m.mem tf f = v.words (.tf f) := by
  have hword := hs.words (.tf f) hf
  unfold Sym.addr at hword
  unfold frameAt
  rw [← tfOffset_eq]
  exact hword

/-- Where the stores take the members of the trapframe from. -/
def savedFrom : TfField → Source Sym
  | .sp => .csr .sscratch
  | .sepc => .csr .sepc
  | .sstatus => .csr .sstatus
  | .scause => .csr .scause
  | .stval => .csr .stval
  | .ra => .reg .ra | .gp => .reg .gp | .tp => .reg .tp
  | .t0 => .reg .t0 | .t1 => .reg .t1 | .t2 => .reg .t2 | .t3 => .reg .t3 | .t4 => .reg .t4
  | .t5 => .reg .t5 | .t6 => .reg .t6
  | .s0 => .reg .s0 | .s1 => .reg .s1 | .s2 => .reg .s2 | .s3 => .reg .s3 | .s4 => .reg .s4
  | .s5 => .reg .s5 | .s6 => .reg .s6 | .s7 => .reg .s7 | .s8 => .reg .s8 | .s9 => .reg .s9
  | .s10 => .reg .s10 | .s11 => .reg .s11
  | .a0 => .reg .a0 | .a1 => .reg .a1 | .a2 => .reg .a2 | .a3 => .reg .a3 | .a4 => .reg .a4
  | .a5 => .reg .a5 | .a6 => .reg .a6 | .a7 => .reg .a7

theorem store_flow (f : TfField) :
    (Source.start.run Source.add (trapEntryScratch ++ trapEntryStore)).words (.tf f) =
      savedFrom f := by
  cases f <;> decide +kernel

theorem store_flow_sscratch :
    (Source.start.run Source.add (trapEntryScratch ++ trapEntryStore)).csrs .sscratch =
      .reg .tp := by
  decide +kernel

theorem store_flow_a0 :
    (Source.start.run Source.add (trapEntryScratch ++ trapEntryStore)).regs .a0 =
      .word .cpuCurTf := by
  decide +kernel

theorem frameAt_stored (ht : Traps m cpu scratch tf) (f : TfField) :
    frameAt (runAsm (runAsm m (trapEntryStack ++ trapEntryScratch)) trapEntryStore).mem tf f =
      (savedFrom f).eval (stackView m cpu scratch tf) := by
  rw [frameAt_of_sees (sees_store ht) rfl, View.run_eq_eval, View.map_words, store_flow]

theorem trapEntrySave_eq (ht : Traps m cpu scratch tf) :
    trapEntrySave m =
      some (runAsm (runAsm m (trapEntryStack ++ trapEntryScratch)) trapEntryStore) := by
  have hnull : (runAsm m (trapEntryStack ++ trapEntryScratch)).regs .t0 ≠ 0 := by
    rw [scratch_t0 ht]
    exact ht.notNull
  unfold trapEntrySave
  dsimp only
  rw [if_neg hnull]

theorem stackView_eval (r : Reg) :
    (savedFrom r.field).eval (stackView m cpu scratch tf) = if r = .tp then cpu else m.regs r := by
  cases r <;> rfl

theorem trapEntrySave_saved (ht : Traps m cpu scratch tf) :
    ∃ m', trapEntrySave m = some m' ∧ Saved m cpu tf m' := by
  have hs := sees_store ht
  have hframe := frameAt_stored ht
  rw [trapEntrySave_eq ht]
  refine ⟨_, rfl, fun r => ?_, hframe .sepc, hframe .sstatus, hframe .scause, hframe .stval, ?_, ?_⟩
  · rw [hframe, stackView_eval]
  · rw [hs.csrs, View.run_eq_eval, View.map_csrs, store_flow_sscratch]
    rfl
  · rw [hs.regs, View.run_eq_eval, View.map_regs, store_flow_a0]
    exact ht.curTf

end Save

/-! ## Restoring -/

/-- The context of trapframe `tf` is loaded, and the hart's own state points to `cpu` and `tf`. -/
structure Restored (m : Machine) (cpu tf : UInt64) (m' : Machine) : Prop where
  regs : ∀ r ≠ .tp, m'.regs r = frameAt m.mem tf r.field
  sepc : m'.csrs .sepc = frameAt m.mem tf .sepc
  sstatus : m'.csrs .sstatus = frameAt m.mem tf .sstatus
  tp : m'.regs .tp = cpu
  sscratch : m'.csrs .sscratch = cpu
  curTf : loadWord m'.mem (cpu + 8) = tf

/-- A hart is about to return to the trapframe in `a0`.  Its `cpu_t` is another object. -/
structure ReturnsTo (m : Machine) (cpu tf : UInt64) : Prop where
  arg : m.regs .a0 = tf
  cpu_tf : NoOverlap cpu 16 tf 288

section Restore

variable {m : Machine} {cpu tf : UInt64}

/-- The words the restoring code uses. -/
def Sym.restores : Sym → Bool
  | .tf _ | .cpuCurTf => true
  | _ => false

theorem ReturnsTo.disjoint (hr : ReturnsTo m cpu tf) :
    Disjoint Sym.restores (Sym.addr (objects cpu 0 tf)) := by
  apply disjoint_addr
  intro w u hw hu hne
  cases w with
  | tf f =>
    cases u with
    | tf g => exact absurd rfl hne
    | cpuCurTf => exact hr.cpu_tf.symm
    | _ => cases hu
  | cpuCurTf =>
    cases u with
    | tf g => exact hr.cpu_tf
    | cpuCurTf => exact absurd rfl hne
    | _ => cases hu
  | _ => cases hw

/-- `cpu->cur_tf = t0 = a0` -/
def setCurTf : List (Instr Sym) :=
  [.sd .a0 .cpuCurTf, .mv .t0 .a0]

/-- What the two routines share after their first instruction. -/
def restoring (loads : List (Instr Sym)) : List (Instr Sym) :=
  setCurTf ++ loads ++ [loadBase]

theorem setCurTf_block : Block Sym.restores [.tp] Sym.operand setCurTf := by
  constructor <;> decide

variable {loads : List (Instr Sym)} (hblock : Block Sym.restores [.t0] Sym.operand loads)
  (hr : ReturnsTo m cpu tf) (htp : m.regs .tp = cpu)

include hblock hr htp

theorem sees_restoring :
    Sees Sym.restores (Sym.addr (objects cpu 0 tf)) (runAsm m (restoring loads))
      ((m.view (Sym.addr (objects cpu 0 tf))).run addImm (restoring loads)) := by
  unfold runAsm restoring
  rw [List.map_append, List.map_append, run_append, run_append, View.run_append, View.run_append]
  have hset := run_sees hr.disjoint _ setCurTf_block (Machine.sees_view m _ _) fun w hw => by
    unfold Machine.addr Sym.addr
    cases w with
    | cpuKstackTop =>
      show m.regs .tp + _ = cpu + _
      rw [htp]
    | cpuCurTf =>
      show m.regs .tp + _ = cpu + _
      rw [htp]
    | tf f => exact absurd hw (by decide : Reg.t0 ∉ [Reg.tp])
    | _ => exact absurd hw (by decide)
  have ht0 : (run m (setCurTf.map (Instr.map Sym.operand))).regs .t0 = tf := hr.arg
  have hloads := run_sees hr.disjoint _ hblock hset fun w hw => by
    unfold Machine.addr Sym.addr
    cases w with
    | tf f =>
      show (run m (setCurTf.map (Instr.map Sym.operand))).regs .t0 + _ = tf + _
      rw [ht0]
    | _ => exact absurd hw (by decide)
  -- the last load may overwrite its base register
  refine exec_sees hr.disjoint hloads loadBase (by decide) fun w hw => ?_
  cases hw
  unfold Machine.addr Sym.addr
  show (run _ (loads.map (Instr.map Sym.operand))).regs .t0 + _ = tf + _
  rw [hblock.run_base (List.mem_singleton.mpr rfl), ht0]

/-- The routine loads every register from the member of its name. -/
structure Loads (loads : List (Instr Sym)) : Prop where
  regs : ∀ r ≠ .tp, (Source.start.run Source.add (restoring loads)).regs r = .word (.tf r.field)
  sepc : (Source.start.run Source.add (restoring loads)).csrs .sepc = .word (.tf .sepc)
  sstatus : (Source.start.run Source.add (restoring loads)).csrs .sstatus = .word (.tf .sstatus)
  tp : (Source.start.run Source.add (restoring loads)).regs .tp = .reg .tp
  sscratch : (Source.start.run Source.add (restoring loads)).csrs .sscratch = .csr .sscratch
  curTf : (Source.start.run Source.add (restoring loads)).words .cpuCurTf = .reg .a0

theorem restoring_restored (hloads : Loads loads) (hscr : m.csrs .sscratch = cpu) :
    Restored m cpu tf (runAsm m (restoring loads)) := by
  have hs := sees_restoring hblock hr htp
  have hframe : ∀ f, frameAt m.mem tf f = (m.view (Sym.addr (objects cpu 0 tf))).words (.tf f) :=
    fun f => frameAt_of_sees (Machine.sees_view m Sym.restores _) rfl
  rw [View.run_eq_eval] at hs
  refine ⟨fun r hne => ?_, ?_, ?_, ?_, ?_, ?_⟩
  · rw [hs.regs, hframe, View.map_regs, hloads.regs r hne]
    rfl
  · rw [hs.csrs, hframe, View.map_csrs, hloads.sepc]
    rfl
  · rw [hs.csrs, hframe, View.map_csrs, hloads.sstatus]
    rfl
  · rw [hs.regs, View.map_regs, hloads.tp]
    exact htp
  · rw [hs.csrs, View.map_csrs, hloads.sscratch]
    exact hscr
  · have hword := hs.words .cpuCurTf rfl
    rw [View.map_words, hloads.curTf] at hword
    exact hword.trans hr.arg

end Restore

theorem trapEntryLoad_block : Block Sym.restores [.t0] Sym.operand trapEntryLoad := by
  constructor <;> decide

theorem archFirstSwitchLoad_block : Block Sym.restores [.t0] Sym.operand archFirstSwitchLoad := by
  constructor <;> decide

theorem trapEntryLoad_loads : Loads trapEntryLoad where
  regs r hr := by
    cases r with
    | tp => exact absurd rfl hr
    | _ => decide +kernel
  sepc := by decide +kernel
  sstatus := by decide +kernel
  tp := by decide +kernel
  sscratch := by decide +kernel
  curTf := by decide +kernel

theorem archFirstSwitchLoad_loads : Loads archFirstSwitchLoad where
  regs r hr := by
    cases r with
    | tp => exact absurd rfl hr
    | _ => decide +kernel
  sepc := by decide +kernel
  sstatus := by decide +kernel
  tp := by decide +kernel
  sscratch := by decide +kernel
  curTf := by decide +kernel

section Routines

variable {m : Machine} {cpu tf : UInt64} (hr : ReturnsTo m cpu tf)

include hr

theorem trapEntryRestore_restored (hscr : m.csrs .sscratch = cpu) :
    Restored m cpu tf (trapEntryRestore m) := by
  have htp : Function.update m.regs .tp (m.csrs .sscratch) .tp = cpu := by
    rw [Function.update_self, hscr]
  have hrest := @restoring_restored
    { m with regs := Function.update m.regs .tp (m.csrs .sscratch) } cpu tf trapEntryLoad
    trapEntryLoad_block ⟨hr.arg, hr.cpu_tf⟩ htp trapEntryLoad_loads hscr
  exact ⟨hrest.regs, hrest.sepc, hrest.sstatus, hrest.tp, hrest.sscratch, hrest.curTf⟩

theorem archFirstSwitch_restored (htp : m.regs .tp = cpu) :
    Restored m cpu tf (archFirstSwitch m) := by
  have hscr : Function.update m.csrs .sscratch (m.regs .tp) .sscratch = cpu := by
    rw [Function.update_self, htp]
  have hrest := @restoring_restored
    { m with csrs := Function.update m.csrs .sscratch (m.regs .tp) } cpu tf archFirstSwitchLoad
    archFirstSwitchLoad_block ⟨hr.arg, hr.cpu_tf⟩ htp archFirstSwitchLoad_loads hscr
  exact ⟨hrest.regs, hrest.sepc, hrest.sstatus, hrest.tp, hrest.sscratch, hrest.curTf⟩

end Routines

/-! ## The trapframe the kernel works on -/

/-- `*tf` as a value. -/
def readTrapframe (m : Mem) (tf : UInt64) : Trapframe where
  ra := frameAt m tf .ra
  sp := frameAt m tf .sp
  gp := frameAt m tf .gp
  tp := frameAt m tf .tp
  t0 := frameAt m tf .t0
  t1 := frameAt m tf .t1
  t2 := frameAt m tf .t2
  s0 := frameAt m tf .s0
  s1 := frameAt m tf .s1
  a0 := frameAt m tf .a0
  a1 := frameAt m tf .a1
  a2 := frameAt m tf .a2
  a3 := frameAt m tf .a3
  a4 := frameAt m tf .a4
  a5 := frameAt m tf .a5
  a6 := frameAt m tf .a6
  a7 := frameAt m tf .a7
  s2 := frameAt m tf .s2
  s3 := frameAt m tf .s3
  s4 := frameAt m tf .s4
  s5 := frameAt m tf .s5
  s6 := frameAt m tf .s6
  s7 := frameAt m tf .s7
  s8 := frameAt m tf .s8
  s9 := frameAt m tf .s9
  s10 := frameAt m tf .s10
  s11 := frameAt m tf .s11
  t3 := frameAt m tf .t3
  t4 := frameAt m tf .t4
  t5 := frameAt m tf .t5
  t6 := frameAt m tf .t6
  sepc := frameAt m tf .sepc
  sstatus := frameAt m tf .sstatus
  scause := frameAt m tf .scause
  stval := frameAt m tf .stval

/-- The registers of a trap. -/
def Machine.trapframe (m : Machine) (cpu : UInt64) : Trapframe where
  ra := m.regs .ra
  sp := m.regs .sp
  gp := m.regs .gp
  tp := cpu
  t0 := m.regs .t0
  t1 := m.regs .t1
  t2 := m.regs .t2
  s0 := m.regs .s0
  s1 := m.regs .s1
  a0 := m.regs .a0
  a1 := m.regs .a1
  a2 := m.regs .a2
  a3 := m.regs .a3
  a4 := m.regs .a4
  a5 := m.regs .a5
  a6 := m.regs .a6
  a7 := m.regs .a7
  s2 := m.regs .s2
  s3 := m.regs .s3
  s4 := m.regs .s4
  s5 := m.regs .s5
  s6 := m.regs .s6
  s7 := m.regs .s7
  s8 := m.regs .s8
  s9 := m.regs .s9
  s10 := m.regs .s10
  s11 := m.regs .s11
  t3 := m.regs .t3
  t4 := m.regs .t4
  t5 := m.regs .t5
  t6 := m.regs .t6
  sepc := m.csrs .sepc
  sstatus := m.csrs .sstatus
  scause := m.csrs .scause
  stval := m.csrs .stval

theorem Saved.readTrapframe_eq {m m' : Machine} {cpu tf : UInt64} (hsave : Saved m cpu tf m') :
    readTrapframe m'.mem tf = m.trapframe cpu := by
  unfold readTrapframe Machine.trapframe
  rw [Trapframe.mk.injEq]
  exact ⟨
    hsave.regs .ra, hsave.regs .sp, hsave.regs .gp, hsave.regs .tp, hsave.regs .t0, hsave.regs .t1,
    hsave.regs .t2, hsave.regs .s0, hsave.regs .s1, hsave.regs .a0, hsave.regs .a1, hsave.regs .a2,
    hsave.regs .a3, hsave.regs .a4, hsave.regs .a5, hsave.regs .a6, hsave.regs .a7, hsave.regs .s2,
    hsave.regs .s3, hsave.regs .s4, hsave.regs .s5, hsave.regs .s6, hsave.regs .s7, hsave.regs .s8,
    hsave.regs .s9, hsave.regs .s10, hsave.regs .s11, hsave.regs .t3, hsave.regs .t4,
    hsave.regs .t5, hsave.regs .t6, hsave.sepc, hsave.sstatus, hsave.scause, hsave.stval, rfl⟩

/-! ## A trap and the next dispatch -/

/-- The registers a thread sees, `tp` excepted, and where and how it resumes. -/
structure SameContext (m m' : Machine) : Prop where
  regs : ∀ r ≠ .tp, m'.regs r = m.regs r
  sepc : m'.csrs .sepc = m.csrs .sepc
  sstatus : m'.csrs .sstatus = m.csrs .sstatus

theorem Saved.restored {m m' n n' : Machine} {cpu cpu' tf : UInt64} (hsave : Saved m cpu tf m')
    (hrest : Restored n cpu' tf n') (hframe : ∀ f, frameAt n.mem tf f = frameAt m'.mem tf f) :
    SameContext m n' where
  regs r hr := by
    rw [hrest.regs r hr, hframe, hsave.regs, if_neg hr]
  sepc := by rw [hrest.sepc, hframe, hsave.sepc]
  sstatus := by rw [hrest.sstatus, hframe, hsave.sstatus]

/-- `trap_entry` saves every register under its own name (`tp` as the `cpu_t` pointer), so that
`trap_entry_c` finds the registers of the trap in `*tf`; both routines restore from there, and a
thread whose trapframe nobody touched in between finds the registers it trapped with, on whatever
hart it goes on. -/
theorem context_switch_transparent :
    (∀ m cpu scratch tf, Traps m cpu scratch tf →
      ∃ m', trapEntrySave m = some m' ∧ Saved m cpu tf m' ∧
        readTrapframe m'.mem tf = m.trapframe cpu) ∧
    (∀ m cpu tf, ReturnsTo m cpu tf → m.csrs .sscratch = cpu →
      Restored m cpu tf (trapEntryRestore m)) ∧
    (∀ m cpu tf, ReturnsTo m cpu tf → m.regs .tp = cpu → Restored m cpu tf (archFirstSwitch m)) ∧
    (∀ m m' n cpu cpu' scratch tf, Traps m cpu scratch tf → trapEntrySave m = some m' →
      ReturnsTo n cpu' tf → (∀ f, frameAt n.mem tf f = frameAt m'.mem tf f) →
      (n.csrs .sscratch = cpu' → SameContext m (trapEntryRestore n)) ∧
        (n.regs .tp = cpu' → SameContext m (archFirstSwitch n))) := by
  refine ⟨?_, fun m cpu tf => trapEntryRestore_restored,
    fun m cpu tf => archFirstSwitch_restored, ?_⟩
  · intro m cpu scratch tf ht
    obtain ⟨m', hm', hsaved⟩ := trapEntrySave_saved ht
    exact ⟨m', hm', hsaved, hsaved.readTrapframe_eq⟩
  intro m m' n cpu cpu' scratch tf ht hsave hr hframe
  obtain ⟨m'', hm'', hsaved⟩ := trapEntrySave_saved ht
  rw [hsave, Option.some.injEq] at hm''
  subst hm''
  exact ⟨fun hscr => hsaved.restored (trapEntryRestore_restored hr hscr) hframe,
    fun htp => hsaved.restored (archFirstSwitch_restored hr htp) hframe⟩

/-- A trap with `cpu_t` at `0x1000`, kernel stack below `0x2000` and trapframe at `0x3000`. -/
def exampleTrap : Machine where
  regs r := UInt64.ofNat (offsetof r.field)
  csrs
    | .sscratch => 0x1000
    | .sepc => 0x80000000
    | .sstatus => 0x20
    | .scause => 8
    | .stval => 0
  mem := storeWord (storeWord (fun _ => 0) 0x1000 0x2000) 0x1008 0x3000

theorem exampleTrap_traps : Traps exampleTrap 0x1000 0x1fe0 0x3000 where
  sscratch := rfl
  kstackTop := by
    have hno : NoOverlap 0x1008 8 0x1000 8 := noOverlap_of_toNat (by decide) (by decide) (by decide)
    unfold exampleTrap
    dsimp only
    rw [loadWord_storeWord_ne _ _ hno, loadWord_storeWord]
    rfl
  curTf := loadWord_storeWord _ _ _
  notNull := by decide
  scratch_tf := noOverlap_of_toNat (by decide) (by decide) (by decide)
  cpu_scratch := noOverlap_of_toNat (by decide) (by decide) (by decide)
  cpu_tf := noOverlap_of_toNat (by decide) (by decide) (by decide)

theorem context_switch_transparent_example :
    ∃ m', trapEntrySave exampleTrap = some m' ∧ SameContext exampleTrap (trapEntryRestore m') := by
  obtain ⟨hsave, -, -, htrip⟩ := context_switch_transparent
  obtain ⟨m', hm', hsaved, -⟩ := hsave _ _ _ _ exampleTrap_traps
  have hback := htrip _ m' m' _ 0x1000 _ _ exampleTrap_traps hm'
    ⟨hsaved.arg, exampleTrap_traps.cpu_tf⟩ fun _ => rfl
  exact ⟨m', hm', hback.1 hsaved.sscratch⟩

end Ccos.Riscv
