import Mathlib.Tactic
import Ccos.Fdt.Safe
import Ccos.Fdt.Path
import Ccos.Fdt.Flatten
import Ccos.Platform.Plic

/-!
# What the platform reads from the device tree

The lookups of `platform.c`, `uart_16550.c` and `plic.c` at boot, over the bytes of the tree.  They
return whatever these bytes are, and on a tree that is laid out as the format says they give what
stands in the tree.
-/

namespace Ccos

open Reasoning

/-! ## The drivers -/

/-- The `timebase-frequency` of `/cpus`, 0 if there is none. -/
def fdtTimebase (b : Blob) : Except Fault UInt32 := do
  let off ← fdtPathOffset b (cstr "/cpus")
  if off < 0 then .ok 0
  else return ((← fdtGetCell b off (cstr "timebase-frequency")).getD 0).toUInt32

/-- `platform_timebase_hz`; `cached` is `g_timebase_hz` and a `dtb` of `none` is NULL. -/
def platformTimebaseHz (dtb : Option Blob) (cached : UInt32) : Except Fault UInt32 :=
  if cached ≠ 0 then .ok cached
  else do
    let hz ← dtb.elim (.ok 0) fdtTimebase
    .ok (if hz = 0 then 10000000 else hz)

/-- The variables of the UART driver. -/
structure Uart where
  base : UInt64
  irq : UInt32
  regShift : UInt32
  regIoWidth : UInt32
  regOffset : UInt32

/-- The driver before it is initialised. -/
def bssUart : Uart where
  base := 0
  irq := 0
  regShift := 0
  regIoWidth := 1
  regOffset := 0

/-- Take over the cells that are there, and of the width only one the driver can access. -/
def Uart.setParams (u : Uart) (shift width offset : Option Nat) : Uart :=
  { u with
    regShift := match shift with
      | some x => x.toUInt32
      | none => u.regShift
    regIoWidth := match width with
      | some w => if w = 1 ∨ w = 2 ∨ w = 4 then w.toUInt32 else u.regIoWidth
      | none => u.regIoWidth
    regOffset := match offset with
      | some x => x.toUInt32
      | none => u.regOffset }

def uart16550ParseDtParams (b : Blob) (u : Uart) : Except Fault Uart := do
  let off ← fdtNodeOffsetByCompatible b (-1) (cstr "ns16550a")
  if off < 0 then .ok u
  else
    let shift ← fdtGetCell b off (cstr "reg-shift")
    let width ← fdtGetCell b off (cstr "reg-io-width")
    let offset ← fdtGetCell b off (cstr "reg-offset")
    .ok (u.setParams shift width offset)

/-- `uart16550_init` up to the first register access; `none` where it gives up. -/
def uart16550Init (b : Blob) (u : Uart) : Except Fault (Option Uart) := do
  match ← fdtFindRegByCompat b (cstr "ns16550a") with
  | none => .ok none
  | some (base, _) =>
    match ← fdtFindIrqByCompat b (cstr "ns16550a") with
    | none => .ok none
    | some irq =>
      return some (← uart16550ParseDtParams b { u with base := base, irq := irq.toUInt32 })

/-- The node of the PLIC, and the compatible string it is found by. -/
def plicFindNode (b : Blob) : Except Fault (Int × List UInt8) := do
  let off ← fdtNodeOffsetByCompatible b (-1) (cstr "riscv,plic0")
  if off < 0 then
    return (← fdtNodeOffsetByCompatible b (-1) (cstr "sifive,plic-1.0.0"), cstr "sifive,plic-1.0.0")
  else .ok (off, cstr "riscv,plic0")

/-- The end of `plic_ensure_base`, with the node at `off`. -/
def plicSetBase (b : Blob) (off : Int) (compat : List UInt8) (p : Plic) : Except Fault Plic := do
  match ← fdtFindRegByCompat b compat with
  | none => .ok p
  | some (base, _) =>
    let n := ((← fdtGetCell b off (cstr "riscv,ndev")).getD 0).toUInt32
    .ok { p with base := base, numSources := if 0 < n then n else 32 }

/-- `plic_ensure_base` on the bytes of the tree. -/
def plicProbe (dtb : Option Blob) (p : Plic) : Except Fault Plic :=
  if p.base ≠ 0 then .ok p
  else
    match dtb with
    | none => .ok p
    | some b => do
      let (off, compat) ← plicFindNode b
      if off < 0 then .ok p else plicSetBase b off compat p

/-! ## Any bytes -/

variable {b : Blob}

/-- `fdt_getprop` returns, and the value it points at lies in the tree. -/
def ReadsProps (b : Blob) (off : Int) : Prop :=
  ∀ name, ∃ r, fdtGetprop b off name = .ok r ∧
    ∀ p len, r = .ok (p, len) → 0 ≤ len ∧ (p : Int) + len ≤ b.totalsize

theorem platformTimebaseHz_returns (hb : b.totalsize < b.bytes.length) (cached : UInt32) :
    Returns (platformTimebaseHz (some b) cached) fun _ => True := by
  have hread : Returns (fdtTimebase b) fun _ => True := by
    unfold fdtTimebase
    apply Returns.bind (fdtPathOffset_returns hb _)
    rintro off ⟨hint, hr⟩
    apply Returns.ite
    · intro _
      exact Returns.ok trivial
    · intro hpos
      apply Returns.bind (fdtGetCell_returns (hr (by omega)) hint _)
      intro r _
      exact Returns.ok trivial
  unfold platformTimebaseHz
  apply Returns.ite
  · intro _
    exact Returns.ok trivial
  intro _
  apply Returns.bind hread
  intro hz _
  exact Returns.ok trivial

theorem uart16550ParseDtParams_returns (hb : b.totalsize < b.bytes.length) (u : Uart) :
    Returns (uart16550ParseDtParams b u) fun _ => True := by
  unfold uart16550ParseDtParams
  apply Returns.bind (fdtNodeOffsetByCompatible_returns hb (by decide) _)
  rintro off ⟨hint, hr⟩
  apply Returns.ite
  · intro _
    exact Returns.ok trivial
  intro hpos
  have hread : Readable b := hr (by omega)
  apply Returns.bind (fdtGetCell_returns hread hint _)
  intro shift _
  apply Returns.bind (fdtGetCell_returns hread hint _)
  intro width _
  apply Returns.bind (fdtGetCell_returns hread hint _)
  intro offset _
  exact Returns.ok trivial

theorem uart16550Init_returns (hb : b.totalsize < b.bytes.length) (u : Uart) :
    Returns (uart16550Init b u) fun _ => True := by
  unfold uart16550Init
  apply Returns.bind (fdtFindRegByCompat_returns hb _)
  intro reg _
  cases reg with
  | none => exact Returns.ok trivial
  | some reg =>
    apply Returns.bind (fdtFindIrqByCompat_returns hb _)
    intro irq _
    cases irq with
    | none => exact Returns.ok trivial
    | some irq =>
      apply Returns.bind (uart16550ParseDtParams_returns hb _)
      intro u' _
      exact Returns.ok trivial

theorem plicFindNode_returns (hb : b.totalsize < b.bytes.length) :
    Returns (plicFindNode b) fun r => r.1 < 0x80000000 ∧ (0 ≤ r.1 → Readable b) := by
  unfold plicFindNode
  apply Returns.bind (fdtNodeOffsetByCompatible_returns hb (by decide) _)
  intro off hoff
  apply Returns.ite
  · intro _
    apply Returns.bind (fdtNodeOffsetByCompatible_returns hb (by decide) _)
    intro off' hoff'
    exact Returns.ok hoff'
  · intro _
    exact Returns.ok hoff

theorem plicProbe_returns (hb : b.totalsize < b.bytes.length) (p : Plic) :
    Returns (plicProbe (some b) p) fun _ => True := by
  unfold plicProbe
  apply Returns.ite
  · intro _
    exact Returns.ok trivial
  intro _
  apply Returns.bind (plicFindNode_returns hb)
  rintro ⟨off, compat⟩ ⟨hint, hr⟩
  apply Returns.ite
  · intro _
    exact Returns.ok trivial
  intro hpos
  unfold plicSetBase
  apply Returns.bind (fdtFindRegByCompat_returns hb _)
  intro reg _
  cases reg with
  | none => exact Returns.ok trivial
  | some reg =>
    apply Returns.bind (fdtGetCell_returns (hr (by omega)) hint _)
    intro ndev _
    exact Returns.ok trivial

/-- Whatever the bytes of the tree are, every lookup of the boot code ends without a load behind the
tree and the byte after it, and every value it is given lies in the tree. -/
theorem device_tree_reads_safe (b : Blob) (hb : b.totalsize < b.bytes.length) :
    (∀ start < 2 ^ 31, ∀ compat, ∃ off, fdtNodeOffsetByCompatible b start compat = .ok off ∧
      (0 ≤ off → ReadsProps b off)) ∧
    (∀ path, ∃ off, fdtPathOffset b path = .ok off ∧ (0 ≤ off → ReadsProps b off)) ∧
    (∀ cached, ∃ hz, platformTimebaseHz (some b) cached = .ok hz) ∧
    (∀ u, ∃ u', uart16550Init b u = .ok u') ∧
    ∀ p, ∃ p', plicProbe (some b) p = .ok p' := by
  refine ⟨fun start hstart compat => ?_, fun path => ?_,
    fun c => (platformTimebaseHz_returns hb c).exists_ok,
    fun u => (uart16550Init_returns hb u).exists_ok, fun p => (plicProbe_returns hb p).exists_ok⟩
  · obtain ⟨off, hoff, hint, hr⟩ := fdtNodeOffsetByCompatible_returns hb hstart compat
    exact ⟨off, hoff, fun h0 name => fdtGetprop_returns (hr h0) hint name⟩
  · obtain ⟨off, hoff, hint, hr⟩ := fdtPathOffset_returns hb path
    exact ⟨off, hoff, fun h0 name => fdtGetprop_returns (hr h0) hint name⟩

/-- A tree that is cut off in the middle of a name. -/
def cutBlob : Blob where
  addr := 0x82200000
  bytes := headerBytes 8 0 ++ (List.replicate 16 0 ++ [0, 0, 0, 1, 0x61, 0x62, 0x63, 0x64, 0])
  header := by decide

theorem device_tree_reads_safe_example :
    cutBlob.totalsize < cutBlob.bytes.length ∧
      ∃ off, fdtPathOffset cutBlob (cstr "/cpus") = .ok off ∧ (0 ≤ off → ReadsProps cutBlob off) :=
  have hb : cutBlob.totalsize < cutBlob.bytes.length := by decide
  ⟨hb, (device_tree_reads_safe cutBlob hb).2.1 _⟩

/-- A tree that ends with the value of a `compatible` property without a NUL. -/
def endBlob : Blob where
  addr := 0x82200000
  bytes := beBytes fdtMagic ++ beBytes 73 ++ beBytes 52 ++ beBytes 40 ++ beBytes 40 ++ beBytes 17 ++
    beBytes 16 ++ beBytes 0 ++ beBytes 11 ++ beBytes 21 ++ cstr "compatible" ++ [0, 0] ++
    beBytes 1 ++ [0, 0, 0, 0] ++ beBytes 3 ++ beBytes 1 ++ beBytes 0 ++ cstr "a"
  header := by decide

-- the byte after the tree is loaded
example : fdtNodeOffsetByCompatible endBlob (-1) (cstr "a") = .error .outOfBounds := by
  decide +kernel

/-! ## Trees -/

/-- The big-endian cells of a value. -/
def cellsOf (value : List UInt8) : List UInt32 :=
  (List.range (value.length / 4)).map fun i => (be32 value (4 * i)).toUInt32

/-- What the PLIC driver looks for in the first compatible node. -/
def Forest.plicNode (f : Forest) (str : List UInt8) : Option PlicNode :=
  (f.preorder.find? (compatibleWith str)).map fun ps =>
    { reg := (propValue (cstr "reg") ps).map cellsOf
      ndev := (propValue (cstr "riscv,ndev") ps).map cellsOf }

def Forest.plicDtb (f : Forest) : Dtb where
  riscvPlic0 := f.plicNode (cstr "riscv,plic0")
  sifivePlic100 := f.plicNode (cstr "sifive,plic-1.0.0")

theorem cellsOf_nil {value : List UInt8} (h : value.length < 4) : cellsOf value = [] := by
  unfold cellsOf
  rw [Nat.div_eq_of_lt h]
  rfl

theorem cellsOf_getElem? (value : List UInt8) {i : Nat} (h : 4 * i + 4 ≤ value.length) :
    (cellsOf value)[i]? = some (be32 value (4 * i)).toUInt32 := by
  unfold cellsOf
  rw [List.getElem?_map, List.getElem?_range (by omega)]
  rfl

theorem be32_toUInt32_toUInt64 (value : List UInt8) (i : Nat) :
    (be32 value i).toUInt32.toUInt64 = (be32 value i).toUInt64 := by
  have hlt := be32_lt value i
  apply UInt64.toNat_inj.mp
  rw [UInt32.toNat_toUInt64, Nat.toUInt32_eq, Nat.toUInt64_eq, UInt32.toNat_ofNat',
    UInt64.toNat_ofNat',
    Nat.mod_eq_of_lt hlt, Nat.mod_eq_of_lt (by omega)]

/-- The base in the bytes of `reg` is the one in its cells. -/
theorem regOf_cells (value : Option (List UInt8)) (ndev : Option (List UInt32)) :
    (value.bind regOf).map (·.1) = fdtFindReg { reg := value.map cellsOf, ndev := ndev } := by
  cases value with
  | none => rfl
  | some value =>
    have hlen : (cellsOf value).length = value.length / 4 := by
      unfold cellsOf
      rw [List.length_map, List.length_range]
    rw [Option.bind_some, Option.map_some]
    unfold regOf fdtFindReg
    dsimp only
    by_cases hshort : value.length < 16
    · rw [if_pos hshort]
      split
      · rename_i hcells
        rw [Option.some.injEq] at hcells
        rw [hcells] at hlen
        simp only [List.length_cons] at hlen
        omega
      · rfl
    · have h₀ := cellsOf_getElem? value (i := 0) (by omega)
      have h₁ := cellsOf_getElem? value (i := 1) (by omega)
      match hcells : cellsOf value with
      | hi :: lo :: sizeHi :: sizeLo :: rest =>
        rw [hcells] at h₀ h₁
        cases h₀
        cases h₁
        rw [if_neg hshort, Option.map_some]
        dsimp only
        rw [be32_toUInt32_toUInt64, be32_toUInt32_toUInt64]
      | [] | [_] | [_, _] | [_, _, _] =>
        rw [hcells] at hlen
        simp only [List.length_cons, List.length_nil] at hlen
        omega

theorem cellOf_cells (reg : Option (List UInt32)) (value : Option (List UInt8)) :
    (if 0 < ((value.bind cellOf).getD 0).toUInt32 then
      ((value.bind cellOf).getD 0).toUInt32 else 32) =
      plicNdev { reg := reg, ndev := value.map cellsOf } := by
  cases value with
  | none => rfl
  | some value =>
    rw [Option.bind_some, Option.map_some]
    unfold cellOf plicNdev
    by_cases hshort : value.length < 4
    · rw [if_pos hshort, cellsOf_nil hshort]
      rfl
    · have h₀ := cellsOf_getElem? value (i := 0) (by omega)
      rw [if_neg hshort]
      cases hcells : cellsOf value with
      | nil =>
        rw [hcells] at h₀
        cases h₀
      | cons n rest =>
        rw [hcells] at h₀
        cases h₀
        rfl

/-- The first cell of a property of the node at a path. -/
def DtNode.cell (nd : DtNode) (path name : List UInt8) : Option Nat :=
  (nd.walk (pathComponents path)).bind fun nd' =>
    (propValue name (nd'.props.filterMap id)).bind cellOf

/-- The root of a tree. -/
def Forest.ofRoot (root : DtNode) (siblings : Forest) : Forest :=
  .node root.name root.props root.children siblings

theorem tokens_ofRoot (root : DtNode) (siblings : Forest) :
    (Forest.ofRoot root siblings).tokens = root.tokens ++ siblings.tokens := by
  simp only [Forest.ofRoot, Forest.tokens, DtNode.tokens, List.cons_append, List.append_assoc,
    List.nil_append]

/-- What the kernel does to read a cell at a path. -/
def fdtPathCell (b : Blob) (path name : List UInt8) : Except Fault (Option Nat) := do
  let off ← fdtPathOffset b path
  if off < 0 then .ok none else fdtGetCell b off name

theorem fdtPathCell_at {root : DtNode} {siblings : Forest} (hb : Holds b (.ofRoot root siblings))
    {path : List UInt8} (hpath : path.head? = some 0x2f) (name : List UInt8) :
    fdtPathCell b path name = .ok (root.cell path name) := by
  obtain ⟨hl, hts⟩ := hb
  rw [tokens_ofRoot] at hts
  obtain ⟨r, hoff, hr⟩ := fdtPathOffset_at hl hts hpath
  unfold fdtPathCell DtNode.cell
  rw [hoff, ok_bind]
  cases hwalk : root.walk (pathComponents path) with
  | none =>
    rw [hwalk] at hr
    subst hr
    rfl
  | some nd =>
    rw [hwalk] at hr
    obtain ⟨off, rest, rfl, hat⟩ := hr
    rw [if_neg (by omega), DtNode.fdtGetCell_at hl hat]
    rfl

variable {f : Forest}

/-- The cells of the node that `fdt_node_offset_by_compatible` finds are those of the tree. -/
theorem node_cells (hb : Holds b f) {str : List UInt8} (hstr : 0 ∉ str) :
    ∃ off, fdtNodeOffsetByCompatible b (-1) str = .ok off ∧
      (off < 0 ↔ f.preorder.find? (compatibleWith str) = none) ∧
      (0 ≤ off → ∀ name, fdtGetCell b off name = .ok (f.property str name cellOf)) := by
  obtain ⟨r, hnode, hr⟩ := fdtNodeOffsetByCompatible_at hb hstr
  refine ⟨r, hnode, ?_⟩
  unfold Forest.property
  cases hfind : f.preorder.find? (compatibleWith str) with
  | none =>
    rw [hfind] at hr
    subst hr
    exact ⟨iff_of_true (by decide) rfl, fun h => absurd h (by decide)⟩
  | some ps =>
    rw [hfind] at hr
    obtain ⟨off, nm, rest, rfl, hts, hc, rfl⟩ := hr
    exact ⟨iff_of_false (by omega) nofun, fun _ name => fdtGetCell_at hb.1 hts hc name⟩

/-- The UART as the tree describes it. -/
def Forest.uart (f : Forest) (u : Uart) : Option Uart :=
  let node := cstr "ns16550a"
  match f.property node (cstr "reg") regOf, f.property node (cstr "interrupts") cellOf with
  | some (base, _), some irq =>
    some (Uart.setParams { u with base := base, irq := irq.toUInt32 }
      (f.property node (cstr "reg-shift") cellOf) (f.property node (cstr "reg-io-width") cellOf)
      (f.property node (cstr "reg-offset") cellOf))
  | _, _ => none

theorem uart16550Init_at (hb : Holds b f) (u : Uart) :
    uart16550Init b u = .ok (f.uart u) := by
  have hstr : 0 ∉ cstr "ns16550a" := by decide
  obtain ⟨off, hoff, hnone, hcells⟩ := node_cells hb hstr
  unfold uart16550Init Forest.uart
  rw [fdtFindRegByCompat_at hb hstr, ok_bind, fdtFindIrqByCompat_at hb hstr]
  dsimp only
  cases hreg : f.property (cstr "ns16550a") (cstr "reg") regOf with
  | none => rfl
  | some reg =>
    obtain ⟨base, size⟩ := reg
    cases hirq : f.property (cstr "ns16550a") (cstr "interrupts") cellOf with
    | none => rfl
    | some irq =>
      -- the node was found, since its `reg` was
      have hpos : ¬ off < 0 := by
        intro hneg
        unfold Forest.property at hreg
        rw [hnone.mp hneg] at hreg
        cases hreg
      have hget := hcells (not_lt.mp hpos)
      have hparse : ∀ u', uart16550ParseDtParams b u' = .ok (Uart.setParams u'
          (f.property (cstr "ns16550a") (cstr "reg-shift") cellOf)
          (f.property (cstr "ns16550a") (cstr "reg-io-width") cellOf)
          (f.property (cstr "ns16550a") (cstr "reg-offset") cellOf)) := by
        intro u'
        unfold uart16550ParseDtParams
        rw [hoff, ok_bind, if_neg hpos, hget, hget, hget]
        rfl
      simp only [ok_bind, hparse]
      rfl

/-- Of the node it has found the driver reads the same properties as in the tree. -/
theorem plicSetBase_at (hb : Holds b f) {str : List UInt8} {off : Int} (hstr : 0 ∉ str)
    {ps : List DtProp} (hps : f.preorder.find? (compatibleWith str) = some ps)
    (hcells : ∀ name, fdtGetCell b off name = .ok (f.property str name cellOf)) {p : Plic}
    (hp : p.base = 0) {dtb : Dtb}
    (hdtb : (dtb.riscvPlic0 <|> dtb.sifivePlic100) = f.plicNode str) :
    plicSetBase b off str p = .ok (plicEnsureBase (some dtb) p) := by
  have hnode : f.plicNode str = some
      { reg := (propValue (cstr "reg") ps).map cellsOf
        ndev := (propValue (cstr "riscv,ndev") ps).map cellsOf } := by
    unfold Forest.plicNode
    rw [hps]
    rfl
  have hbase := regOf_cells (propValue (cstr "reg") ps)
    ((propValue (cstr "riscv,ndev") ps).map cellsOf)
  have hndev := cellOf_cells ((propValue (cstr "reg") ps).map cellsOf)
    (propValue (cstr "riscv,ndev") ps)
  unfold plicSetBase plicEnsureBase
  rw [if_neg (not_not.mpr hp), fdtFindRegByCompat_at hb hstr, hcells, ok_bind]
  dsimp only
  rw [hdtb, hnode]
  dsimp only
  rw [← hbase, ← hndev]
  unfold Forest.property
  rw [hps]
  dsimp only
  cases (propValue (cstr "reg") ps).bind regOf with
  | none => rfl
  | some reg => rfl

theorem plicProbe_at (hb : Holds b f) (p : Plic) :
    plicProbe (some b) p = .ok (plicEnsureBase (some f.plicDtb) p) := by
  by_cases hbase : p.base ≠ 0
  · unfold plicProbe plicEnsureBase
    rw [if_pos hbase, if_pos hbase]
  have hp : p.base = 0 := not_not.mp hbase
  have hstr : 0 ∉ cstr "riscv,plic0" := by decide
  have hstr' : 0 ∉ cstr "sifive,plic-1.0.0" := by decide
  obtain ⟨off, hoff, hnone, hcells⟩ := node_cells hb hstr
  obtain ⟨off', hoff', hnone', hcells'⟩ := node_cells hb hstr'
  unfold plicProbe plicFindNode
  rw [if_neg hbase]
  dsimp only
  rw [hoff, ok_bind]
  by_cases hneg : off < 0
  · -- without a `riscv,plic0` node the second compatible string decides
    have hskip : f.plicNode (cstr "riscv,plic0") = none := by
      unfold Forest.plicNode
      rw [hnone.mp hneg]
      rfl
    have hother : (f.plicDtb.riscvPlic0 <|> f.plicDtb.sifivePlic100) =
        f.plicNode (cstr "sifive,plic-1.0.0") := by
      show (f.plicNode _ <|> f.plicNode _) = _
      rw [hskip]
      rfl
    rw [if_pos hneg, hoff']
    show (if off' < 0 then Except.ok p else plicSetBase b off' _ p) = _
    by_cases hneg' : off' < 0
    · have hskip' : f.plicNode (cstr "sifive,plic-1.0.0") = none := by
        unfold Forest.plicNode
        rw [hnone'.mp hneg']
        rfl
      rw [if_pos hneg']
      unfold plicEnsureBase
      rw [if_neg hbase]
      dsimp only
      rw [hother, hskip']
    · obtain ⟨ps, hps⟩ := Option.ne_none_iff_exists'.mp fun h => hneg' (hnone'.mpr h)
      rw [if_neg hneg']
      exact plicSetBase_at hb hstr' hps (hcells' (not_lt.mp hneg')) hp hother
  · obtain ⟨ps, hps⟩ := Option.ne_none_iff_exists'.mp fun h => hneg (hnone.mpr h)
    have hthis : (f.plicDtb.riscvPlic0 <|> f.plicDtb.sifivePlic100) =
        f.plicNode (cstr "riscv,plic0") := by
      show (f.plicNode _ <|> f.plicNode _) = _
      unfold Forest.plicNode
      rw [hps]
      rfl
    rw [if_neg hneg]
    show (if off < 0 then Except.ok p else plicSetBase b off _ p) = _
    rw [if_neg hneg]
    exact plicSetBase_at hb hstr hps (hcells (not_lt.mp hneg)) hp hthis

/-- On a blob that holds a tree the lookups give what stands in the tree: in the first node, in the
order of the tree, that lists the compatible string, and in the node that a path leads to. -/
theorem device_tree_lookups {root : DtNode} {siblings : Forest}
    (hb : Holds b (.ofRoot root siblings)) :
    (∀ str, 0 ∉ str →
      fdtFindRegByCompat b str =
        .ok ((Forest.ofRoot root siblings).property str (cstr "reg") regOf) ∧
      fdtFindIrqByCompat b str =
        .ok ((Forest.ofRoot root siblings).property str (cstr "interrupts") cellOf)) ∧
    ∀ path name, path.head? = some 0x2f → fdtPathCell b path name = .ok (root.cell path name) :=
  ⟨fun _ hstr => ⟨fdtFindRegByCompat_at hb hstr, fdtFindIrqByCompat_at hb hstr⟩,
    fun _ name hpath => fdtPathCell_at hb hpath name⟩

/-- The drivers come up with the clock, the UART and the PLIC that the tree describes. -/
theorem drivers_read_tree {root : DtNode} {siblings : Forest}
    (hb : Holds b (.ofRoot root siblings)) :
    (∀ cached, platformTimebaseHz (some b) cached = .ok (if cached ≠ 0 then cached
      else
        let hz := ((root.cell (cstr "/cpus") (cstr "timebase-frequency")).getD 0).toUInt32
        if hz = 0 then 10000000 else hz)) ∧
    (∀ u, uart16550Init b u = .ok ((Forest.ofRoot root siblings).uart u)) ∧
    ∀ p, plicProbe (some b) p =
      .ok (plicEnsureBase (some (Forest.ofRoot root siblings).plicDtb) p) := by
  refine ⟨fun cached => ?_, uart16550Init_at hb, plicProbe_at hb⟩
  have hpath : (cstr "/cpus").head? = some 0x2f := by decide
  have hcell := fdtPathCell_at hb hpath (cstr "timebase-frequency")
  have hread : fdtTimebase b =
      .ok ((root.cell (cstr "/cpus") (cstr "timebase-frequency")).getD 0).toUInt32 := by
    unfold fdtPathCell at hcell
    unfold fdtTimebase
    rw [bind_eq_ok] at hcell
    obtain ⟨off, hoff, hcell⟩ := hcell
    rw [hoff, ok_bind]
    split at hcell
    · rename_i hneg
      rw [if_pos hneg, ← Except.ok.inj hcell]
      rfl
    · rename_i hpos
      rw [if_neg hpos, hcell]
      rfl
  unfold platformTimebaseHz
  by_cases hc : cached ≠ 0
  · rw [if_pos hc, if_pos hc]
  · rw [if_neg hc, if_neg hc, Option.elim_some, hread, ok_bind]

/-! ## The tree of the board -/

instance : (tok : Token) → Decidable tok.Named
  | .beginNode name => inferInstanceAs (Decidable (0 ∉ name))
  | .prop name _ => inferInstanceAs (Decidable (0 ∉ name))
  | .endNode => inferInstanceAs (Decidable True)
  | .nop => inferInstanceAs (Decidable True)

/-- A part of the tree of the QEMU virt machine. -/
def qemuVirtTree : DtNode where
  name := []
  props := [some (cstr "compatible", cstr "riscv-virtio" ++ [0])]
  children :=
    .node (cstr "cpus") [some (cstr "timebase-frequency", beBytes 10000000)] .nil <|
    .nop <|
    .node (cstr "soc") []
      (.node (cstr "serial@10000000")
        [some (cstr "interrupts", beBytes 10),
          some (cstr "reg", beBytes 0 ++ beBytes 0x10000000 ++ beBytes 0 ++ beBytes 0x100),
          none, some (cstr "compatible", cstr "ns16550a" ++ [0])] .nil <|
      .node (cstr "plic@c000000")
        [some (cstr "riscv,ndev", beBytes 95),
          some (cstr "reg", beBytes 0 ++ beBytes 0xc000000 ++ beBytes 0 ++ beBytes 0x600000),
          some (cstr "compatible", cstr "sifive,plic-1.0.0" ++ [0] ++ cstr "riscv,plic0" ++ [0])]
        .nil .nil)
      .nil

def qemuVirtBlob : Blob := (Forest.ofRoot qemuVirtTree .nil).flatten

theorem qemuVirtBlob_holds : Holds qemuVirtBlob (.ofRoot qemuVirtTree .nil) :=
  Forest.flatten_holds _ (by decide +kernel) (by decide +kernel)

theorem device_tree_lookups_example :
    fdtFindRegByCompat qemuVirtBlob (cstr "riscv,plic0") = .ok (some (0xc000000, 0x600000)) ∧
      fdtPathCell qemuVirtBlob (cstr "/cpus") (cstr "timebase-frequency") =
        .ok (some 10000000) := by
  have h := device_tree_lookups qemuVirtBlob_holds
  constructor
  · rw [(h.1 (cstr "riscv,plic0") (by decide)).1]
    decide +kernel
  · rw [h.2 (cstr "/cpus") (cstr "timebase-frequency") (by decide)]
    decide +kernel

theorem drivers_read_tree_example :
    platformTimebaseHz (some qemuVirtBlob) 0 = .ok 10000000 ∧
      ∃ u, uart16550Init qemuVirtBlob bssUart = .ok (some u) ∧ u.base = 0x10000000 ∧
        u.irq = 10 := by
  have h := drivers_read_tree qemuVirtBlob_holds
  constructor
  · rw [h.1]
    decide +kernel
  · rw [h.2.1]
    exact ⟨_, rfl, by decide +kernel, by decide +kernel⟩

end Ccos
