import Mathlib.Tactic
import Mathlib.Logic.Function.Basic

/-!
# The PLIC driver

`platform/qemu-virt-sbi/plic.c` over the registers of the interrupt controller.  Hart `h` owns two
contexts, `2h` in M-mode and `2h + 1` in S-mode, and the driver computes the registers of the S-mode
one from those of hart 0 with a stride per context.  The layout of the controller itself is stated
on its own below, so that the two can be compared.
-/

namespace Ccos

/-! ## The device tree -/

/-- The properties the driver reads of a PLIC node: the cells of `reg` and of `riscv,ndev`. -/
structure PlicNode where
  reg : Option (List UInt32)
  ndev : Option (List UInt32)

/-- What `fdt_node_offset_by_compatible` finds for the two compatible strings. -/
structure Dtb where
  riscvPlic0 : Option PlicNode
  sifivePlic100 : Option PlicNode

/-- The `base` of `fdt_find_reg_by_compat`: 64-bit address and size make four cells. -/
def fdtFindReg (node : PlicNode) : Option UInt64 :=
  match node.reg with
  | some (hi :: lo :: _ :: _ :: _) => some (hi.toUInt64 <<< 32 ||| lo.toUInt64)
  | _ => none

/-! ## The driver -/

/-- `plic_base` and `plic_num_sources`, and the words of the physical address space. -/
structure Plic where
  base : UInt64
  numSources : UInt32
  mmio : UInt64 → UInt32

def w32 (p : Plic) (off v : UInt32) : Plic :=
  { p with mmio := Function.update p.mmio (p.base + off.toUInt64) v }

def r32 (p : Plic) (off : UInt32) : UInt32 :=
  p.mmio (p.base + off.toUInt64)

def plicSenableHart0Offset : UInt32 := 0x002080
def plicSthresholdHart0Offset : UInt32 := 0x201000
def plicSclaimHart0Offset : UInt32 := 0x201004
def plicContextsPerHart : UInt32 := 2
def plicEnablePerContextStride : UInt32 := 0x80
def plicContextStride : UInt32 := 0x1000

/-- The register of a hart's S-mode context, from the one of hart 0. -/
def plicOffsetForHart (hart0 stride hartid : UInt32) : UInt32 :=
  let deltaCtx := hartid * plicContextsPerHart
  hart0 + deltaCtx * stride

def plicSenableOffsetForHart : UInt32 → UInt32 :=
  plicOffsetForHart plicSenableHart0Offset plicEnablePerContextStride

def plicSthresholdOffsetForHart : UInt32 → UInt32 :=
  plicOffsetForHart plicSthresholdHart0Offset plicContextStride

def plicSclaimOffsetForHart : UInt32 → UInt32 :=
  plicOffsetForHart plicSclaimHart0Offset plicContextStride

/-- The number of sources: 32, unless `riscv,ndev` says otherwise. -/
def plicNdev (node : PlicNode) : UInt32 :=
  match node.ndev with
  | some (n :: _) => if 0 < n then n else 32
  | _ => 32

def plicEnsureBase (dtb : Option Dtb) (p : Plic) : Plic :=
  -- found before
  if p.base ≠ 0 then p
  else
    match dtb with
    | none => p
    | some fdt =>
      -- the first compatible string with a node wins
      match fdt.riscvPlic0 <|> fdt.sifivePlic100 with
      | none => p
      | some node =>
        match fdtFindReg node with
        | none => p
        | some base => { p with base := base, numSources := plicNdev node }

section Driver

variable (dtb : Option Dtb) (hartid : UInt32)

def plicInitSMode (p : Plic) : Plic :=
  let p := plicEnsureBase dtb p
  if p.base = 0 then p
  else
    let thOff := plicSthresholdOffsetForHart hartid
    let enOff := plicSenableOffsetForHart hartid
    -- one word of the enable area, that of the sources 0 to 31
    w32 (w32 p thOff 0) enOff 0

/-- The common part of `plic_enable_irq` and `plic_disable_irq`: `f` makes the new enable word of
the old one and the mask of the source. -/
def plicModifyEnable (f : UInt32 → UInt32 → UInt32) (p : Plic) (irq : UInt32) : Plic :=
  -- source 0 does not exist
  if irq = 0 then p
  else
    let p := plicEnsureBase dtb p
    if p.base = 0 then p
    -- a source behind the last one is refused, where the last one is known
    else if p.numSources ≠ 0 ∧ p.numSources < irq then p
    else
      let enOff := plicSenableOffsetForHart hartid
      let wordOff := enOff + 4 * (irq / 32)
      let bit := irq % 32
      w32 p wordOff (f (r32 p wordOff) (1 <<< bit))

def plicEnableIrq (p : Plic) (irq : UInt32) : Plic :=
  plicModifyEnable dtb hartid (fun en mask => en ||| mask) p irq

def plicDisableIrq (p : Plic) (irq : UInt32) : Plic :=
  plicModifyEnable dtb hartid (fun en mask => en &&& ~~~mask) p irq

end Driver

/-! ## The layout of the controller -/

/-- Contexts and sources of a PLIC. -/
def plicContexts : Nat := 15872
def plicSources : Nat := 1024

/-- Byte offsets from the base, by context and by source. -/
def enableAt (ctx irq : Nat) : Nat := 0x2000 + 0x80 * ctx + 4 * (irq / 32)
def priorityAt (irq : Nat) : Nat := 4 * irq
def pendingAt (irq : Nat) : Nat := 0x1000 + 4 * (irq / 32)
def thresholdAt (ctx : Nat) : Nat := 0x200000 + 0x1000 * ctx
def claimAt (ctx : Nat) : Nat := 0x200004 + 0x1000 * ctx

/-- The register at byte offset `off`. -/
def Plic.word (p : Plic) (off : Nat) : UInt32 :=
  p.mmio (p.base + UInt64.ofNat off)

def Plic.setWord (p : Plic) (off : Nat) (v : UInt32) : Plic :=
  { p with mmio := Function.update p.mmio (p.base + UInt64.ofNat off) v }

def Plic.enabled (p : Plic) (ctx irq : Nat) : Bool :=
  (p.word (enableAt ctx irq)).toNat.testBit (irq % 32)

/-- The S-mode context of a hart. -/
def sContext (hartid : UInt32) : Nat := 2 * hartid.toNat + 1

/-! ## Bits of a word -/

/-- The mask of source `irq` in its word. -/
theorem testBit_mask (irq : UInt32) (i : Nat) :
    ((1 : UInt32) <<< (irq % 32)).toNat.testBit i = decide (i = irq.toNat % 32) := by
  have hmod : (irq % 32).toNat = irq.toNat % 32 := UInt32.toNat_mod irq 32
  have hlt : irq.toNat % 32 < 32 := Nat.mod_lt _ (by omega)
  have hpow : (2 : Nat) ^ (irq.toNat % 32) < 2 ^ 32 := Nat.pow_lt_pow_right (by omega) hlt
  rw [UInt32.toNat_shiftLeft, hmod, Nat.mod_eq_of_lt hlt]
  show (1 <<< (irq.toNat % 32) % 2 ^ 32).testBit i = _
  rw [Nat.shiftLeft_eq, one_mul, Nat.mod_eq_of_lt hpow, Nat.testBit_two_pow]
  exact decide_eq_decide.mpr eq_comm

/-- The enable word with the bit of one source switched on or off. -/
def switchBit (on : Bool) (en mask : UInt32) : UInt32 :=
  if on then en ||| mask else en &&& ~~~mask

theorem testBit_switchBit (on : Bool) (w irq : UInt32) (i : Nat) :
    (switchBit on w (1 <<< (irq % 32))).toNat.testBit i =
      if i = irq.toNat % 32 then on else w.toNat.testBit i := by
  have hmask := testBit_mask irq i
  cases on with
  | true =>
    show (w ||| 1 <<< (irq % 32)).toNat.testBit i = _
    rw [UInt32.toNat_or, Nat.testBit_or, hmask]
    split_ifs with hi
    · rw [decide_eq_true hi, Bool.or_true]
    · rw [decide_eq_false hi, Bool.or_false]
  | false =>
    show (w &&& ~~~(1 <<< (irq % 32))).toNat.testBit i = _
    rw [UInt32.toNat_and, Nat.testBit_and, UInt32.toNat_not]
    show (w.toNat.testBit i && (2 ^ 32 - 1 - _).testBit i) = _
    rw [Nat.sub_sub, add_comm 1, Nat.testBit_two_pow_sub_succ (UInt32.toNat_lt _), hmask]
    split_ifs with hi
    · rw [decide_eq_true hi, Bool.not_true, Bool.and_false, Bool.and_false]
    · rw [decide_eq_false hi, Bool.not_false, Bool.and_true]
      by_cases hlt : i < 32
      · rw [decide_eq_true hlt, Bool.and_true]
      · -- a word has no bits from 32 on
        have hpow : w.toNat < 2 ^ i :=
          w.toNat_lt.trans_le (Nat.pow_le_pow_right (by omega) (not_lt.mp hlt))
        rw [Nat.testBit_lt_two_pow hpow, Bool.false_and]

theorem word_ext {v w : UInt32} (hbits : ∀ i, v.toNat.testBit i = w.toNat.testBit i) : v = w :=
  UInt32.toNat_inj.mp (Nat.eq_of_testBit_eq hbits)

/-! ## Registers -/

section Registers

variable {p : Plic} {hartid irq : UInt32}

/-- Byte offsets below 4 GiB name different words. -/
theorem base_add_ne {base : UInt64} {off off' : Nat} (hoff : off < 2 ^ 32) (hoff' : off' < 2 ^ 32)
    (hne : off ≠ off') : base + UInt64.ofNat off ≠ base + UInt64.ofNat off' := by
  intro hadd
  have hnat := congrArg UInt64.toNat ((UInt64.add_right_inj base).mp hadd)
  rw [UInt64.toNat_ofNat', UInt64.toNat_ofNat'] at hnat
  omega

theorem Plic.setWord_word {off off' : Nat} (hoff : off < 2 ^ 32) (hoff' : off' < 2 ^ 32)
    (v : UInt32) :
    (p.setWord off v).word off' = if off' = off then v else p.word off' := by
  unfold Plic.word Plic.setWord
  dsimp only
  split_ifs with heq
  · rw [heq, Function.update_self]
  · exact Function.update_of_ne (base_add_ne hoff' hoff heq) _ _

theorem Plic.setWord_comm {off off' : Nat} (hoff : off < 2 ^ 32) (hoff' : off' < 2 ^ 32)
    (hne : off ≠ off') (v v' : UInt32) :
    (p.setWord off v).setWord off' v' = (p.setWord off' v').setWord off v := by
  unfold Plic.setWord
  dsimp only
  rw [Function.update_comm (base_add_ne hoff hoff' hne)]

theorem Plic.setWord_idem (off : Nat) (v v' : UInt32) :
    (p.setWord off v).setWord off v' = p.setWord off v' := by
  unfold Plic.setWord
  dsimp only
  rw [Function.update_idem]

theorem Plic.setWord_self (off : Nat) : p.setWord off (p.word off) = p := by
  unfold Plic.setWord Plic.word
  rw [Function.update_eq_self]

/-- The driver's offsets are those of the hart's S-mode context. -/
theorem enableAt_sContext (hh : sContext hartid < plicContexts) :
    (plicSenableOffsetForHart hartid + 4 * (irq / 32)).toNat =
      enableAt (sContext hartid) irq.toNat := by
  have hirq := irq.toNat_lt
  unfold sContext plicContexts at hh
  have hdiv : (4 * (irq / 32)).toNat = 4 * (irq.toNat / 32) := by
    rw [UInt32.toNat_mul, UInt32.toNat_div]
    show 4 * (irq.toNat / 32) % 2 ^ 32 = _
    omega
  rw [UInt32.toNat_add, hdiv]
  unfold plicSenableOffsetForHart plicOffsetForHart plicSenableHart0Offset
  dsimp only
  rw [UInt32.toNat_add, UInt32.toNat_mul, UInt32.toNat_mul]
  unfold plicEnablePerContextStride plicContextsPerHart enableAt sContext
  show ((0x2080 + hartid.toNat * 2 % 2 ^ 32 * 0x80 % 2 ^ 32) % 2 ^ 32 + _) % 2 ^ 32 = _
  omega

theorem thresholdAt_sContext (hh : sContext hartid < plicContexts) :
    (plicSthresholdOffsetForHart hartid).toNat = thresholdAt (sContext hartid) := by
  unfold sContext plicContexts at hh
  unfold plicSthresholdOffsetForHart plicOffsetForHart plicSthresholdHart0Offset
  dsimp only
  rw [UInt32.toNat_add, UInt32.toNat_mul, UInt32.toNat_mul]
  unfold plicContextStride plicContextsPerHart thresholdAt sContext
  show (0x201000 + hartid.toNat * 2 % 2 ^ 32 * 0x1000 % 2 ^ 32) % 2 ^ 32 = _
  omega

theorem claimAt_sContext (hh : sContext hartid < plicContexts) :
    (plicSclaimOffsetForHart hartid).toNat = claimAt (sContext hartid) := by
  unfold sContext plicContexts at hh
  unfold plicSclaimOffsetForHart plicOffsetForHart plicSclaimHart0Offset
  dsimp only
  rw [UInt32.toNat_add, UInt32.toNat_mul, UInt32.toNat_mul]
  unfold plicContextStride plicContextsPerHart claimAt sContext
  show (0x201004 + hartid.toNat * 2 % 2 ^ 32 * 0x1000 % 2 ^ 32) % 2 ^ 32 = _
  omega

theorem w32_eq (off v : UInt32) :
    w32 p off v = p.setWord off.toNat v := by
  unfold w32 Plic.setWord
  rw [UInt64.ofNat_uInt32ToNat]

theorem r32_eq (off : UInt32) : r32 p off = p.word off.toNat := by
  unfold r32 Plic.word
  rw [UInt64.ofNat_uInt32ToNat]

end Registers

/-! ## Enabling and disabling a source -/

section Enable

variable {dtb : Option Dtb} {p : Plic} {h h' irq irq' : UInt32}

theorem plicEnsureBase_of_base (hbase : p.base ≠ 0) : plicEnsureBase dtb p = p :=
  if_pos hbase

theorem plicEnsureBase_mmio : (plicEnsureBase dtb p).mmio = p.mmio := by
  unfold plicEnsureBase
  split_ifs
  · rfl
  · split
    · rfl
    · split
      · rfl
      · split <;> rfl

/-- The driver has found the PLIC, and `irq` is one of its sources. -/
structure HasSource (dtb : Option Dtb) (p : Plic) (irq : UInt32) : Prop where
  base : (plicEnsureBase dtb p).base ≠ 0
  pos : 1 ≤ irq
  le : irq ≤ (plicEnsureBase dtb p).numSources

/-- `plic_enable_irq` and `plic_disable_irq`. -/
def plicSwitchIrq (dtb : Option Dtb) (hartid : UInt32) (on : Bool) (p : Plic) (irq : UInt32) :
    Plic :=
  if on then plicEnableIrq dtb hartid p irq else plicDisableIrq dtb hartid p irq

/-- Both write one word of the hart's S-mode context. -/
theorem plicSwitchIrq_eq (on : Bool) (hsrc : HasSource dtb p irq) (hh : sContext h < plicContexts) :
    plicSwitchIrq dtb h on p irq =
      (plicEnsureBase dtb p).setWord (enableAt (sContext h) irq.toNat)
        (switchBit on ((plicEnsureBase dtb p).word (enableAt (sContext h) irq.toNat))
          (1 <<< (irq % 32))) := by
  have hirq : irq ≠ 0 := by
    rintro rfl
    exact absurd hsrc.pos (by decide)
  have hsources :
      ¬ ((plicEnsureBase dtb p).numSources ≠ 0 ∧ (plicEnsureBase dtb p).numSources < irq) :=
    fun hlt => UInt32.not_lt.mpr hsrc.le hlt.2
  have hmodify : plicSwitchIrq dtb h on p irq = plicModifyEnable dtb h (switchBit on) p irq := by
    cases on <;> rfl
  rw [hmodify]
  unfold plicModifyEnable
  dsimp only
  rw [if_neg hirq, if_neg hsrc.base, if_neg hsources, w32_eq, r32_eq, enableAt_sContext hh]

theorem HasSource.switch (on : Bool) (hsrc : HasSource dtb p irq) (hsrc' : HasSource dtb p irq')
    (hh : sContext h < plicContexts) : HasSource dtb (plicSwitchIrq dtb h on p irq) irq' := by
  rw [plicSwitchIrq_eq on hsrc hh]
  have hensure : ∀ off v, plicEnsureBase dtb ((plicEnsureBase dtb p).setWord off v) =
      (plicEnsureBase dtb p).setWord off v := fun _ _ => plicEnsureBase_of_base hsrc.base
  exact ⟨by rw [hensure]; exact hsrc'.base, hsrc'.pos, by rw [hensure]; exact hsrc'.le⟩

theorem plicEnsureBase_switch (on : Bool) (hsrc : HasSource dtb p irq)
    (hh : sContext h < plicContexts) :
    plicEnsureBase dtb (plicSwitchIrq dtb h on p irq) = plicSwitchIrq dtb h on p irq := by
  rw [plicSwitchIrq_eq on hsrc hh]
  exact plicEnsureBase_of_base hsrc.base

theorem enableAt_lt {ctx irq : Nat} (hctx : ctx < plicContexts) (hirq : irq < 2 ^ 32) :
    enableAt ctx irq < 2 ^ 32 := by
  unfold plicContexts at hctx
  unfold enableAt
  omega

/-- Source `irq` of context `ctx` is switched to `on`, and nothing else changes. -/
structure Switched (on : Bool) (ctx irq : Nat) (p p' : Plic) : Prop where
  base : p'.base = p.base
  numSources : p'.numSources = p.numSources
  bit : p'.enabled ctx irq = on
  others : ∀ ctx' < plicContexts, ∀ irq' < plicSources, (ctx', irq') ≠ (ctx, irq) →
    p'.enabled ctx' irq' = p.enabled ctx' irq'
  priority : ∀ i < plicSources, p'.word (priorityAt i) = p.word (priorityAt i)
  pending : ∀ i < plicSources, p'.word (pendingAt i) = p.word (pendingAt i)
  threshold : ∀ ctx' < plicContexts, p'.word (thresholdAt ctx') = p.word (thresholdAt ctx')
  claim : ∀ ctx' < plicContexts, p'.word (claimAt ctx') = p.word (claimAt ctx')

/-- A write to an enable word leaves every other kind of register alone. -/
theorem setWord_enableAt_word {ctx irq off : Nat} (hctx : ctx < plicContexts)
    (hirq : irq < plicSources)
    (hoff : off < 2 ^ 32) (hne : off ≠ enableAt ctx irq) (v : UInt32) :
    (p.setWord (enableAt ctx irq) v).word off = p.word off := by
  unfold plicSources at hirq
  rw [Plic.setWord_word (enableAt_lt hctx (by omega)) hoff, if_neg hne]

theorem setWord_switched (on : Bool) {ctx : Nat} (hctx : ctx < plicContexts)
    (hirq : irq.toNat < plicSources) :
    Switched on ctx irq.toNat p (p.setWord (enableAt ctx irq.toNat)
      (switchBit on (p.word (enableAt ctx irq.toNat)) (1 <<< (irq % 32)))) where
  base := rfl
  numSources := rfl
  bit := by
    have hlt := enableAt_lt hctx irq.toNat_lt
    unfold Plic.enabled
    rw [Plic.setWord_word hlt hlt, if_pos rfl, testBit_switchBit, if_pos rfl]
  others := by
    intro ctx' hctx' irq' hirq' hne
    -- the write reaches another source only through the word that the two share
    have hlt := enableAt_lt hctx irq.toNat_lt
    have hlt' : enableAt ctx' irq' < 2 ^ 32 := by
      unfold plicSources at hirq'
      exact enableAt_lt hctx' (by omega)
    unfold Plic.enabled
    rw [Plic.setWord_word hlt hlt']
    split_ifs with hword
    · -- the same word, so the same context: the bits differ
      rw [testBit_switchBit, if_neg, hword]
      intro hbit
      unfold plicSources at hirq hirq'
      unfold enableAt at hword
      apply hne
      rw [Prod.mk.injEq]
      omega
    · rfl
  -- the registers of the other kinds lie below or above all enable words
  priority := by
    intro i hi
    unfold plicSources at hi
    apply setWord_enableAt_word hctx hirq
    · unfold priorityAt
      omega
    · unfold priorityAt enableAt
      omega
  pending := by
    intro i hi
    unfold plicSources at hi
    apply setWord_enableAt_word hctx hirq
    · unfold pendingAt
      omega
    · unfold pendingAt enableAt
      omega
  threshold := by
    intro ctx' hctx'
    have hirq' := hirq
    have hctx₀ := hctx
    unfold plicContexts at hctx₀ hctx'
    unfold plicSources at hirq'
    apply setWord_enableAt_word hctx hirq
    · unfold thresholdAt
      omega
    · unfold thresholdAt enableAt
      omega
  claim := by
    intro ctx' hctx'
    have hirq' := hirq
    have hctx₀ := hctx
    unfold plicContexts at hctx₀ hctx'
    unfold plicSources at hirq'
    apply setWord_enableAt_word hctx hirq
    · unfold claimAt
      omega
    · unfold claimAt enableAt
      omega

/-- Writing a source's bit back gives the old word. -/
theorem switchBit_restore {w : UInt32} (hclear : w.toNat.testBit (irq.toNat % 32) = false) :
    switchBit false (switchBit true w (1 <<< (irq % 32))) (1 <<< (irq % 32)) = w := by
  apply word_ext
  intro i
  rw [testBit_switchBit, testBit_switchBit]
  split_ifs with hi
  · rw [hi, hclear]
  · rfl

theorem switchBit_comm (on on' : Bool) {w : UInt32} (hne : irq.toNat % 32 ≠ irq'.toNat % 32) :
    switchBit on (switchBit on' w (1 <<< (irq' % 32))) (1 <<< (irq % 32)) =
      switchBit on' (switchBit on w (1 <<< (irq % 32))) (1 <<< (irq' % 32)) := by
  apply word_ext
  intro i
  rw [testBit_switchBit, testBit_switchBit, testBit_switchBit, testBit_switchBit]
  split_ifs with hi hi'
  · exact absurd (hi.symm.trans hi') hne
  · rfl
  · rfl
  · rfl

theorem plicDisableIrq_enable (hsrc : HasSource dtb p irq) (hh : sContext h < plicContexts)
    (hclear : (plicEnsureBase dtb p).enabled (sContext h) irq.toNat = false) :
    plicDisableIrq dtb h (plicEnableIrq dtb h p irq) irq = plicEnsureBase dtb p := by
  have hlt := enableAt_lt hh irq.toNat_lt
  show plicSwitchIrq dtb h false (plicSwitchIrq dtb h true p irq) irq = _
  rw [plicSwitchIrq_eq false (hsrc.switch true hsrc hh) hh, plicEnsureBase_switch true hsrc hh,
    plicSwitchIrq_eq true hsrc hh, Plic.setWord_word hlt hlt, if_pos rfl, Plic.setWord_idem,
    switchBit_restore hclear, Plic.setWord_self]

theorem plicSwitchIrq_comm (on on' : Bool) (hsrc : HasSource dtb p irq)
    (hsrc' : HasSource dtb p irq')
    (hh : sContext h < plicContexts) (hh' : sContext h' < plicContexts)
    (hirq : irq.toNat < plicSources) (hirq' : irq'.toNat < plicSources)
    (hne : (h, irq) ≠ (h', irq')) :
    plicSwitchIrq dtb h on (plicSwitchIrq dtb h' on' p irq') irq =
      plicSwitchIrq dtb h' on' (plicSwitchIrq dtb h on p irq) irq' := by
  have hlt := enableAt_lt hh irq.toNat_lt
  have hlt' := enableAt_lt hh' irq'.toNat_lt
  rw [plicSwitchIrq_eq on (hsrc'.switch on' hsrc hh') hh, plicEnsureBase_switch on' hsrc' hh',
    plicSwitchIrq_eq on' (hsrc.switch on hsrc' hh) hh', plicEnsureBase_switch on hsrc hh,
    plicSwitchIrq_eq on hsrc hh, plicSwitchIrq_eq on' hsrc' hh', Plic.setWord_word hlt' hlt,
    Plic.setWord_word hlt hlt']
  by_cases hword : enableAt (sContext h) irq.toNat = enableAt (sContext h') irq'.toNat
  · have hbit : irq.toNat % 32 ≠ irq'.toNat % 32 := by
      intro hbit
      unfold plicSources at hirq hirq'
      unfold enableAt sContext at hword
      apply hne
      rw [Prod.mk.injEq, ← UInt32.toNat_inj, ← UInt32.toNat_inj]
      omega
    rw [if_pos hword, if_pos hword.symm, hword, Plic.setWord_idem, Plic.setWord_idem,
      switchBit_comm on on' hbit]
  · rw [if_neg hword, if_neg (Ne.symm hword), Plic.setWord_comm hlt' hlt (Ne.symm hword)]

end Enable

/-- On every register state, `plic_enable_irq` sets and `plic_disable_irq` clears the bit of source
`irq` in the S-mode context of the current hart and nothing else, the registers that `plic_claim`
and `plic_complete` access included; disabling undoes enabling, and the operations of different
harts or sources commute. -/
theorem plic_enable_bits_exact (maxHarts : Nat) (hmax : 2 * maxHarts ≤ plicContexts)
    (dtb : Option Dtb) (p : Plic) (h irq : UInt32) (hh : h.toNat < maxHarts) (hirq : irq.toNat < 64)
    (hsrc : HasSource dtb p irq) :
    (plicEnsureBase dtb p).mmio = p.mmio ∧
      Switched true (2 * h.toNat + 1) irq.toNat (plicEnsureBase dtb p) (plicEnableIrq dtb h p irq) ∧
      Switched false (2 * h.toNat + 1) irq.toNat (plicEnsureBase dtb p)
        (plicDisableIrq dtb h p irq) ∧
      ((plicEnsureBase dtb p).enabled (2 * h.toNat + 1) irq.toNat = false →
        (plicDisableIrq dtb h (plicEnableIrq dtb h p irq) irq).mmio = p.mmio) ∧
      (∀ h' : UInt32, h'.toNat < maxHarts → ∀ on,
        r32 (plicSwitchIrq dtb h on p irq) (plicSclaimOffsetForHart h') =
          r32 (plicEnsureBase dtb p) (plicSclaimOffsetForHart h')) ∧
      ∀ h' irq' : UInt32, h'.toNat < maxHarts → irq'.toNat < 64 → HasSource dtb p irq' →
        (h, irq) ≠ (h', irq') → ∀ on on' : Bool,
          plicSwitchIrq dtb h on (plicSwitchIrq dtb h' on' p irq') irq =
            plicSwitchIrq dtb h' on' (plicSwitchIrq dtb h on p irq) irq' := by
  have hctx : ∀ k : UInt32, k.toNat < maxHarts → sContext k < plicContexts := by
    intro k hk
    unfold sContext
    omega
  have hlt : ∀ i : UInt32, i.toNat < 64 → i.toNat < plicSources := fun i hi =>
    hi.trans (by decide)
  have hswitch : ∀ on, Switched on (sContext h) irq.toNat (plicEnsureBase dtb p)
      (plicSwitchIrq dtb h on p irq) := by
    intro on
    rw [plicSwitchIrq_eq on hsrc (hctx h hh)]
    exact setWord_switched on (hctx h hh) (hlt irq hirq)
  refine ⟨plicEnsureBase_mmio, hswitch true, hswitch false, ?_, ?_, ?_⟩
  · intro hclear
    rw [plicDisableIrq_enable hsrc (hctx h hh) hclear, plicEnsureBase_mmio]
  · intro h' hh' on
    rw [r32_eq, r32_eq, claimAt_sContext (hctx h' hh')]
    exact (hswitch on).claim _ (hctx h' hh')
  · intro h' irq' hh' hirq' hsrc' hne on on'
    exact plicSwitchIrq_comm on on' hsrc hsrc' (hctx h hh) (hctx h' hh') (hlt irq hirq)
      (hlt irq' hirq') hne

/-- The PLIC node of `qemu-system-riscv64 -M virt`. -/
def qemuVirtDtb : Dtb where
  riscvPlic0 := some ⟨some [0, 0x0c000000, 0, 0x600000], some [95]⟩
  sifivePlic100 := some ⟨some [0, 0x0c000000, 0, 0x600000], some [95]⟩

/-- The driver before its first call. -/
def bssPlic (mmio : UInt64 → UInt32) : Plic := ⟨0, 0, mmio⟩

theorem plic_enable_bits_exact_uart :
    Switched true 3 10 ⟨0x0c000000, 95, fun _ => 0⟩
      (plicEnableIrq (some qemuVirtDtb) 1 (bssPlic fun _ => 0) 10) :=
  (plic_enable_bits_exact 4 (by decide) (some qemuVirtDtb) (bssPlic fun _ => 0) 1 10
    (by decide) (by decide) ⟨by decide, by decide, by decide⟩).2.1

/-! ## Initialising a context -/

section Init

variable {dtb : Option Dtb} {p : Plic} {h : UInt32}

theorem plicInitSMode_eq (hbase : (plicEnsureBase dtb p).base ≠ 0)
    (hh : sContext h < plicContexts) :
    plicInitSMode dtb h p =
      ((plicEnsureBase dtb p).setWord (thresholdAt (sContext h)) 0).setWord
        (enableAt (sContext h) 0) 0 := by
  have henable : (plicSenableOffsetForHart h).toNat = enableAt (sContext h) 0 := by
    have hword := @enableAt_sContext h 0 hh
    have hzero : plicSenableOffsetForHart h + 4 * (0 / 32) = plicSenableOffsetForHart h :=
      UInt32.add_zero _
    rwa [hzero] at hword
  unfold plicInitSMode
  dsimp only
  rw [if_neg hbase, w32_eq, w32_eq, thresholdAt_sContext hh, henable]

theorem thresholdAt_lt {ctx : Nat} (hctx : ctx < plicContexts) : thresholdAt ctx < 2 ^ 32 := by
  unfold plicContexts at hctx
  unfold thresholdAt
  omega

theorem plicInitSMode_word (hbase : (plicEnsureBase dtb p).base ≠ 0)
    (hh : sContext h < plicContexts)
    {off : Nat} (hoff : off < 2 ^ 32) :
    (plicInitSMode dtb h p).word off =
      if off = enableAt (sContext h) 0 ∨ off = thresholdAt (sContext h) then 0
      else (plicEnsureBase dtb p).word off := by
  have henable : enableAt (sContext h) 0 < 2 ^ 32 := enableAt_lt hh (by omega)
  rw [plicInitSMode_eq hbase hh, Plic.setWord_word henable hoff,
    Plic.setWord_word (thresholdAt_lt hh) hoff]
  by_cases hen : off = enableAt (sContext h) 0
  · rw [if_pos hen, if_pos (Or.inl hen)]
  · rw [if_neg hen]
    by_cases hth : off = thresholdAt (sContext h)
    · rw [if_pos hth, if_pos (Or.inr hth)]
    · rw [if_neg hth, if_neg (not_or.mpr ⟨hen, hth⟩)]

/-- What `plic_init_s_mode` is for: nothing is enabled in the hart's S-mode context, its threshold
is 0, and the registers of the other contexts are as before. -/
structure InitDone (ctx : Nat) (p p' : Plic) : Prop where
  disabled : ∀ irq : UInt32, 1 ≤ irq → irq ≤ p.numSources → p'.enabled ctx irq.toNat = false
  threshold : p'.word (thresholdAt ctx) = 0
  others : ∀ ctx' < plicContexts, ctx' ≠ ctx →
    (∀ irq < plicSources, p'.word (enableAt ctx' irq) = p.word (enableAt ctx' irq)) ∧
      p'.word (thresholdAt ctx') = p.word (thresholdAt ctx') ∧
      p'.word (claimAt ctx') = p.word (claimAt ctx')

/-- No source from 32 on is enabled in the context.  (Enable words are counted on past the 1024
sources of a context here, as `plic_enable_irq` does; one of those is the context's threshold
register.) -/
def HighSourcesOff (ctx : Nat) (p : Plic) : Prop :=
  ∀ irq : UInt32, 32 ≤ irq → irq ≤ p.numSources → enableAt ctx irq.toNat ≠ thresholdAt ctx →
    p.enabled ctx irq.toNat = false

/-- The first enable word holds the sources below 32 and no others. -/
theorem enableAt_eq_zero_iff {ctx irq : Nat} : enableAt ctx irq = enableAt ctx 0 ↔ irq < 32 := by
  unfold enableAt
  omega

theorem plicInitSMode_enabled (hbase : (plicEnsureBase dtb p).base ≠ 0)
    (hh : sContext h < plicContexts)
    (irq : UInt32) :
    (plicInitSMode dtb h p).enabled (sContext h) irq.toNat =
      if irq.toNat < 32 ∨ enableAt (sContext h) irq.toNat = thresholdAt (sContext h) then false
      else (plicEnsureBase dtb p).enabled (sContext h) irq.toNat := by
  unfold Plic.enabled
  rw [plicInitSMode_word hbase hh (enableAt_lt hh irq.toNat_lt)]
  simp only [enableAt_eq_zero_iff]
  split_ifs
  · exact Nat.zero_testBit _
  · rfl

theorem plicInitSMode_others (hbase : (plicEnsureBase dtb p).base ≠ 0)
    (hh : sContext h < plicContexts)
    {ctx : Nat} (hctx : ctx < plicContexts) (hne : ctx ≠ sContext h) :
    (∀ irq < plicSources, (plicInitSMode dtb h p).word (enableAt ctx irq) =
        (plicEnsureBase dtb p).word (enableAt ctx irq)) ∧
      (plicInitSMode dtb h p).word (thresholdAt ctx) =
        (plicEnsureBase dtb p).word (thresholdAt ctx) ∧
      (plicInitSMode dtb h p).word (claimAt ctx) = (plicEnsureBase dtb p).word (claimAt ctx) := by
  have hctx' := hctx
  have hh' := hh
  unfold plicContexts at hctx' hh'
  refine ⟨?_, ?_, ?_⟩
  · intro irq hirq
    unfold plicSources at hirq
    rw [plicInitSMode_word hbase hh (enableAt_lt hctx (by omega)), if_neg]
    unfold enableAt thresholdAt
    omega
  · rw [plicInitSMode_word hbase hh (thresholdAt_lt hctx), if_neg]
    unfold enableAt thresholdAt
    omega
  · have hlt : claimAt ctx < 2 ^ 32 := by
      unfold claimAt
      omega
    rw [plicInitSMode_word hbase hh hlt, if_neg]
    unfold enableAt thresholdAt claimAt
    omega

theorem plicInitSMode_done_iff (hbase : (plicEnsureBase dtb p).base ≠ 0)
    (hh : sContext h < plicContexts) :
    InitDone (sContext h) (plicEnsureBase dtb p) (plicInitSMode dtb h p) ↔
      HighSourcesOff (sContext h) (plicEnsureBase dtb p) := by
  constructor
  · intro hdone irq hlow hle hne
    have hoff := hdone.disabled irq (UInt32.le_trans (by decide) hlow) hle
    rw [plicInitSMode_enabled hbase hh, if_neg] at hoff
    · exact hoff
    · rw [UInt32.le_iff_toNat_le] at hlow
      rintro (hlt | heq)
      · exact absurd hlt (not_lt.mpr hlow)
      · exact hne heq
  · intro hhigh
    refine ⟨?_, ?_, fun ctx' hctx' hne => plicInitSMode_others hbase hh hctx' hne⟩
    · intro irq _ hle
      rw [plicInitSMode_enabled hbase hh]
      split_ifs with hcleared
      · rfl
      · -- a source from 32 on keeps its old bit
        rw [not_or, not_lt] at hcleared
        exact hhigh irq (UInt32.le_iff_toNat_le.mpr hcleared.1) hle hcleared.2
    · rw [plicInitSMode_word hbase hh (thresholdAt_lt hh), if_pos (Or.inr rfl)]

end Init

/-- `plic_init_s_mode` writes the first enable word only: it does its job exactly when the sources
from 32 on were off before. -/
theorem plic_init_s_mode_done_iff (maxHarts : Nat) (hmax : 2 * maxHarts ≤ plicContexts)
    (dtb : Option Dtb) (p : Plic) (h : UInt32) (hh : h.toNat < maxHarts)
    (hbase : (plicEnsureBase dtb p).base ≠ 0) :
    InitDone (2 * h.toNat + 1) (plicEnsureBase dtb p) (plicInitSMode dtb h p) ↔
      HighSourcesOff (2 * h.toNat + 1) (plicEnsureBase dtb p) := by
  apply plicInitSMode_done_iff hbase
  unfold sContext
  omega

theorem plic_init_s_mode_done_cleared :
    InitDone 1 ⟨0x0c000000, 95, fun _ => 0⟩
      (plicInitSMode (some qemuVirtDtb) 0 (bssPlic fun _ => 0)) :=
  (plic_init_s_mode_done_iff 4 (by decide) (some qemuVirtDtb) (bssPlic fun _ => 0) 0
    (by decide) (by decide)).mpr (fun irq _ _ _ => Nat.zero_testBit _)

/-- Firmware left source 33 enabled for hart 0: it is still enabled after the initialisation. -/
theorem plic_init_s_mode_keeps_source_33 :
    ¬ InitDone 1
      (plicEnsureBase (some qemuVirtDtb) (bssPlic fun a => if a = 0x0c002084 then 2 else 0))
      (plicInitSMode (some qemuVirtDtb) 0 (bssPlic fun a => if a = 0x0c002084 then 2 else 0)) := by
  intro hdone
  have hoff := (plicInitSMode_done_iff (h := 0) (by decide) (by decide)).mp hdone 33 (by decide)
    (by decide) (by decide)
  exact absurd hoff (by decide)

end Ccos
