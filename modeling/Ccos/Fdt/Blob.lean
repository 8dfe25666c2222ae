import Mathlib.Tactic

/-!
# The flattened device tree

The read side of `lib/libfdt`, with the assumption mask 0 the kernel builds it with, over the bytes
the boot loader leaves at the address of the tree.  A pointer into the tree is an index from its
start; an index is checked against the bytes that are there when it is loaded from, not when it is
made.  A loop of the source that ends at a byte of the tree is a recursion on fuel, which a tree
cannot use up.
-/

namespace Ccos

/-- Why a function of the library would not return. -/
inductive Fault
  | outOfBounds
  | fuel
deriving DecidableEq, Repr

/-- The memory a device tree is in: its address and the bytes from there on.  Every function loads
the header first, so the header is readable. -/
structure Blob where
  addr : UInt64
  bytes : List UInt8
  header : 40 ≤ bytes.length

/-- The big-endian word at `i`. -/
def be32 (l : List UInt8) (i : Nat) : Nat :=
  ((l.drop i).take 4).foldl (fun word x => word * 0x100 + x.toNat) 0

namespace Blob

variable (b : Blob)

def magic : Nat := be32 b.bytes 0
def totalsize : Nat := be32 b.bytes 4
def offDtStruct : Nat := be32 b.bytes 8
def offDtStrings : Nat := be32 b.bytes 12
def version : Nat := be32 b.bytes 20
def lastCompVersion : Nat := be32 b.bytes 24
def sizeDtStrings : Nat := be32 b.bytes 32
def sizeDtStruct : Nat := be32 b.bytes 36

def ld8 (i : Nat) : Except Fault UInt8 :=
  match b.bytes[i]? with
  | some x => .ok x
  | none => .error .outOfBounds

/-- `fdt32_ld_` and `fdt32_to_cpu` of a loaded word. -/
def ld32 (i : Nat) : Except Fault Nat :=
  if i + 4 ≤ b.bytes.length then .ok (be32 b.bytes i) else .error .outOfBounds

/-! ## `lib/string.c` on the bytes of the tree -/

/-- The index of the first byte `c` among the `n` at `i`. -/
def memchr (c : UInt8) : Nat → Nat → Except Fault (Option Nat)
  | _, 0 => .ok none
  | i, n + 1 => do
    if (← b.ld8 i) = c then .ok (some i) else memchr c (i + 1) n

/-- `memcmp(…) == 0` of the bytes at `i` and those of `s`: it loads up to the first that differs. -/
def memeq : Nat → List UInt8 → Except Fault Bool
  | _, [] => .ok true
  | i, c :: s => do
    if (← b.ld8 i) = c then memeq (i + 1) s else .ok false

def strlenFrom : Nat → Nat → Except Fault Nat
  | 0, _ => .error .fuel
  | fuel + 1, i => do
    if (← b.ld8 i) = 0 then .ok 0 else return (← strlenFrom fuel (i + 1)) + 1

def strlen (i : Nat) : Except Fault Nat := b.strlenFrom (b.bytes.length + 1) i

/-- The last `c` of the string at `i`, `last` if there is none. -/
def strrchrFrom (c : UInt8) : Nat → Nat → Option Nat → Except Fault (Option Nat)
  | 0, _, _ => .error .fuel
  | fuel + 1, i, last => do
    let x ← b.ld8 i
    if x = 0 then .ok last
    else strrchrFrom c fuel (i + 1) (if x = c then some i else last)

def strrchr (c : UInt8) (i : Nat) : Except Fault (Option Nat) :=
  b.strrchrFrom c (b.bytes.length + 1) i none

end Blob

/-! ## Machine integers -/

/-- Conversion to `uint32_t`. -/
def u32 (x : Int) : Nat := (x % 0x100000000).toNat

/-- Conversion to `int`. -/
def i32 (x : Int) : Int :=
  if x % 0x100000000 < 0x80000000 then x % 0x100000000 else x % 0x100000000 - 0x100000000

/-! ## `fdt.c` -/

def fdtMagic : Nat := 0xd00dfeed
def fdtSwMagic : Nat := 0x2ff20112

/-- The codes of the errors the read functions give; each is returned negated. -/
inductive FdtErr
  | notfound
  | badoffset
  | badpath
  | badstate
  | truncated
  | badmagic
  | badversion
  | badstructure
  | internal
  | alignment
deriving DecidableEq, Repr

def FdtErr.code : FdtErr → Int
  | .notfound => 1
  | .badoffset => 4
  | .badpath => 5
  | .badstate => 7
  | .truncated => 8
  | .badmagic => 9
  | .badversion => 10
  | .badstructure => 11
  | .internal => 13
  | .alignment => 19

/-- A negative `int`. -/
def FdtErr.ret (e : FdtErr) : Int := -e.code

inductive FdtTag
  | beginNode
  | endNode
  | prop
  | nop
  | fin
deriving DecidableEq, Repr

def FdtTag.ofWord : Nat → Option FdtTag
  | 1 => some .beginNode
  | 2 => some .endNode
  | 3 => some .prop
  | 4 => some .nop
  | 9 => some .fin
  | _ => none

section Library

variable (b : Blob)

def fdtRoProbe : Int :=
  if b.addr &&& 7 ≠ 0 then FdtErr.alignment.ret
  else
    let size : Int := if b.totalsize < 0x7fffffff then b.totalsize else FdtErr.truncated.ret
    if b.magic = fdtMagic then
      if b.version < 0x02 then FdtErr.badversion.ret
      else if 0x11 < b.lastCompVersion then FdtErr.badversion.ret
      else size
    else if b.magic = fdtSwMagic then
      -- unfinished sequential-write blob
      if b.sizeDtStruct = 0 then FdtErr.badstate.ret else size
    else FdtErr.badmagic.ret

/-- `fdt_offset_ptr`: the place of `len` bytes at `offset` of the structure block. -/
def fdtOffsetPtr (offset : Int) (len : Nat) : Option Nat :=
  let uoffset := u32 offset
  let absoffset := u32 (offset + b.offDtStruct)
  if offset < 0 then none
  else if absoffset < uoffset ∨ u32 (absoffset + len) < absoffset ∨
      b.totalsize < u32 (absoffset + len) then none
  else if 0x11 ≤ b.version ∧
      (u32 (uoffset + len) < uoffset ∨ b.sizeDtStruct < u32 (offset + len)) then none
  else some (b.offDtStruct + offset.toNat)

/-- The loop of `fdt_next_tag` over a node's name; the offset after its NUL. -/
def skipName : Nat → Int → Except Fault (Option Int)
  | 0, _ => .error .fuel
  | fuel + 1, offset =>
    match fdtOffsetPtr b offset 1 with
    | none => .ok none
    | some p => do
      if (← b.ld8 p) = 0 then .ok (some (offset + 1)) else skipName fuel (offset + 1)

/-- The end of `fdt_next_tag`: all of the tag must lie in the structure block. -/
def fdtTagEnd (startoffset : Int) (tag : FdtTag) (offset : Int) : FdtTag × Int :=
  match fdtOffsetPtr b startoffset (u32 (offset - startoffset)) with
  | none => (.fin, FdtErr.badstructure.ret)
  | some _ => (tag, i32 ((offset + 3) / 4 * 4))

/-- The tag at an offset and the offset of the next, negative where the block ends too early. -/
def fdtNextTag (startoffset : Int) : Except Fault (FdtTag × Int) :=
  match fdtOffsetPtr b startoffset 4 with
  | none => .ok (.fin, FdtErr.truncated.ret)
  | some tagp => do
    let tag ← b.ld32 tagp
    let offset := startoffset + 4
    match FdtTag.ofWord tag with
    | some .beginNode =>
      match ← skipName b (b.totalsize + 2) offset with
      | none => .ok (.fin, FdtErr.badstructure.ret)
      | some offset => .ok (fdtTagEnd b startoffset .beginNode offset)
    | some .prop =>
      match fdtOffsetPtr b offset 4 with
      | none => .ok (.fin, FdtErr.badstructure.ret)
      | some lenp => do
        let len ← b.ld32 lenp
        let sum := u32 (len + offset)
        if 0x7fffffff ≤ sum ∨ sum < u32 offset then .ok (.fin, FdtErr.badstructure.ret)
        else
          -- skip name offset, length and value
          let offset := i32 (offset + 8 + len)
          -- before version 16 a value of 8 bytes or more is aligned to 8
          let offset :=
            if b.version < 0x10 ∧ 8 ≤ len ∧ u32 (offset - len) % 8 ≠ 0 then i32 (offset + 4)
            else offset
          .ok (fdtTagEnd b startoffset .prop offset)
    | some tag => .ok (fdtTagEnd b startoffset tag offset)
    | none => .ok (.fin, FdtErr.badstructure.ret)

/-- `fdt_check_node_offset_` and `fdt_check_prop_offset_`: `offset` is that of a tag of this
kind. -/
def fdtCheckOffset (tag : FdtTag) (offset : Int) : Except Fault Int :=
  if offset < 0 ∨ offset % 4 ≠ 0 then .ok FdtErr.badoffset.ret
  else do
    let (found, next) ← fdtNextTag b offset
    if found = tag then .ok next else .ok FdtErr.badoffset.ret

def fdtCheckNodeOffset : Int → Except Fault Int := fdtCheckOffset b .beginNode

def fdtCheckPropOffset : Int → Except Fault Int := fdtCheckOffset b .prop

/-- The loop of `fdt_next_node`; `depth` is `none` where the caller passes NULL. -/
def nextNodeLoop : Nat → Int → Option Int → Except Fault (Int × Option Int)
  | 0, _, _ => .error .fuel
  | fuel + 1, offset, depth => do
    let (tag, nextoffset) ← fdtNextTag b offset
    match tag with
    | .prop | .nop => nextNodeLoop fuel nextoffset depth
    | .beginNode => .ok (offset, depth.map (· + 1))
    | .endNode =>
      match depth with
      | none => nextNodeLoop fuel nextoffset none
      | some d =>
        if d - 1 < 0 then .ok (nextoffset, some (d - 1))
        else nextNodeLoop fuel nextoffset (some (d - 1))
    | .fin =>
      if 0 ≤ nextoffset ∨ (nextoffset = FdtErr.truncated.ret ∧ depth = none) then
        .ok (FdtErr.notfound.ret, depth)
      else .ok (nextoffset, depth)

def fdtNextNode (offset : Int) (depth : Option Int) : Except Fault (Int × Option Int) := do
  if 0 ≤ offset then
    let nextoffset ← fdtCheckNodeOffset b offset
    if nextoffset < 0 then .ok (nextoffset, depth)
    else nextNodeLoop b (b.totalsize + 2) nextoffset depth
  else nextNodeLoop b (b.totalsize + 2) 0 depth

/-! ## `fdt_ro.c` -/

/-- A pointer with the length behind it, or NULL with the error that is stored for the length. -/
abbrev FdtPtr := Except Int (Nat × Int)

def fdtGetString (stroffset : Int) : Except Fault FdtPtr :=
  let totalsize := fdtRoProbe b
  if totalsize < 0 then .ok (.error totalsize)
  else
    let absoffset := u32 (stroffset + b.offDtStrings)
    if totalsize ≤ absoffset then .ok (.error FdtErr.badoffset.ret)
    else
      let len := totalsize.toNat - absoffset
      -- how far the string may reach
      let bound : Except FdtErr Nat :=
        if b.magic = fdtMagic then
          if stroffset < 0 then .error .badoffset
          else if 17 ≤ b.version then
            if b.sizeDtStrings ≤ u32 stroffset then .error .badoffset
            else .ok (min len (b.sizeDtStrings - u32 stroffset))
          else .ok len
        else if b.magic = fdtSwMagic then
          if 0 ≤ stroffset ∨ b.sizeDtStrings < u32 (-stroffset) then .error .badoffset
          else .ok (min len (u32 (-stroffset)))
        else .error .internal
      match bound with
      | .error e => .ok (.error e.ret)
      | .ok len => do
        match ← b.memchr 0 absoffset len with
        | none => .ok (.error FdtErr.truncated.ret)
        | some n => .ok (.ok (absoffset, n - absoffset))

def fdtStringEq (stroffset : Int) (s : List UInt8) : Except Fault Bool := do
  match ← fdtGetString b stroffset with
  | .error _ => .ok false
  | .ok (p, slen) => if slen = s.length then b.memeq p s else .ok false

def fdtGetName (nodeoffset : Int) : Except Fault FdtPtr := do
  let err := fdtRoProbe b
  if err < 0 then .ok (.error err)
  else
    let err ← fdtCheckNodeOffset b nodeoffset
    if err < 0 then .ok (.error err)
    else
      let nameptr := b.offDtStruct + nodeoffset.toNat + 4
      if b.version < 0x10 then
        -- old versions store the full path: give the leaf
        match ← b.strrchr 0x2f nameptr with
        | none => .ok (.error FdtErr.badstructure.ret)
        | some leaf => return .ok (leaf + 1, (← b.strlen (leaf + 1) : Nat))
      else return .ok (nameptr, (← b.strlen nameptr : Nat))

def fdtNodenameEq (offset : Int) (s : List UInt8) : Except Fault Bool := do
  match ← fdtGetName b offset with
  | .error _ => .ok false
  | .ok (p, olen) =>
    if olen < s.length then .ok false
    else if ← b.memeq p s then do
      let c ← b.ld8 (p + s.length)
      if c = 0 then .ok true
      -- the unit address may be left out
      else .ok (decide (0x40 ∉ s ∧ c = 0x40))
    else .ok false

/-- `nextprop_`: the first property from `offset` on. -/
def nextprop : Nat → Int → Except Fault Int
  | 0, _ => .error .fuel
  | fuel + 1, offset => do
    let (tag, nextoffset) ← fdtNextTag b offset
    match tag with
    | .fin => if 0 ≤ nextoffset then .ok FdtErr.badstructure.ret else .ok nextoffset
    | .prop => .ok offset
    | .nop => nextprop fuel nextoffset
    | _ => .ok FdtErr.notfound.ret

def fdtFirstPropertyOffset (nodeoffset : Int) : Except Fault Int := do
  let offset ← fdtCheckNodeOffset b nodeoffset
  if offset < 0 then .ok offset else nextprop b (b.totalsize + 2) offset

def fdtNextPropertyOffset (offset : Int) : Except Fault Int := do
  let offset ← fdtCheckPropOffset b offset
  if offset < 0 then .ok offset else nextprop b (b.totalsize + 2) offset

/-- `fdt_get_property_by_offset_`: the place of the property and the length of its value. -/
def fdtGetPropertyByOffset (offset : Int) : Except Fault FdtPtr := do
  let err ← fdtCheckPropOffset b offset
  if err < 0 then .ok (.error err)
  else
    let prop := b.offDtStruct + offset.toNat
    return .ok (prop, i32 (← b.ld32 (prop + 4)))

/-- The loop of `fdt_get_property_namelen_`; it gives the offset of the property too. -/
def findProperty (name : List UInt8) : Nat → Int → Except Fault (Except Int (Nat × Int × Int))
  | 0, _ => .error .fuel
  | fuel + 1, offset =>
    if offset < 0 then .ok (.error offset)
    else do
      match ← fdtGetPropertyByOffset b offset with
      | .error _ => .ok (.error FdtErr.internal.ret)
      | .ok (prop, len) =>
        if ← fdtStringEq b (i32 (← b.ld32 (prop + 8))) name then .ok (.ok (prop, len, offset))
        else findProperty name fuel (← fdtNextPropertyOffset b offset)

def fdtGetPropertyNamelen (offset : Int) (name : List UInt8) :
    Except Fault (Except Int (Nat × Int × Int)) := do
  findProperty b name (b.totalsize + 2) (← fdtFirstPropertyOffset b offset)

/-- `fdt_getprop_namelen` and `fdt_getprop`: the value of a property of a node. -/
def fdtGetprop (nodeoffset : Int) (name : List UInt8) : Except Fault FdtPtr := do
  match ← fdtGetPropertyNamelen b nodeoffset name with
  | .error err => .ok (.error err)
  | .ok (prop, len, poffset) =>
    -- handle realignment
    if b.version < 0x10 ∧ (poffset + 12) % 8 ≠ 0 ∧ 8 ≤ (← b.ld32 (prop + 4)) then
      .ok (.ok (prop + 12 + 4, len))
    else .ok (.ok (prop + 12, len))

/-- The loop of `fdt_stringlist_contains` over the `listlen` bytes at `strlist`. -/
def stringlistLoop (str : List UInt8) : Nat → Nat → Int → Except Fault Bool
  | 0, _, _ => .error .fuel
  | fuel + 1, strlist, listlen =>
    if listlen < str.length then .ok false
    else do
      -- the NUL of `str` is compared as well
      if ← b.memeq strlist (str ++ [0]) then .ok true
      else
        match ← b.memchr 0 strlist listlen.toNat with
        | none => .ok false
        | some p => stringlistLoop str fuel (p + 1) (listlen - (p - strlist + 1))

def fdtStringlistContains (strlist : Nat) (listlen : Int) (str : List UInt8) :
    Except Fault Bool :=
  stringlistLoop b str (listlen.toNat + 1) strlist listlen

end Library

/-- The bytes of a C string literal. -/
def cstr (s : String) : List UInt8 := s.toList.map fun c => c.toNat.toUInt8

section Search

variable (b : Blob)

def fdtNodeCheckCompatible (nodeoffset : Int) (compatible : List UInt8) : Except Fault Int := do
  match ← fdtGetprop b nodeoffset (cstr "compatible") with
  | .error len => .ok len
  | .ok (prop, len) =>
    if ← fdtStringlistContains b prop len compatible then .ok 0 else .ok 1

/-- The loop of `fdt_node_offset_by_compatible`. -/
def compatibleLoop (compatible : List UInt8) : Nat → Int → Except Fault Int
  | 0, _ => .error .fuel
  | fuel + 1, offset =>
    if offset < 0 then .ok offset
    else do
      let err ← fdtNodeCheckCompatible b offset compatible
      if err < 0 ∧ err ≠ FdtErr.notfound.ret then .ok err
      else if err = 0 then .ok offset
      else compatibleLoop compatible fuel (← fdtNextNode b offset none).1

def fdtNodeOffsetByCompatible (startoffset : Int) (compatible : List UInt8) :
    Except Fault Int := do
  let totalsize := fdtRoProbe b
  if totalsize < 0 then .ok totalsize
  else compatibleLoop b compatible (b.totalsize + 2) (← fdtNextNode b startoffset none).1

/-- The loop of `fdt_subnode_offset_namelen`. -/
def subnodeLoop (name : List UInt8) : Nat → Int → Int → Except Fault Int
  | 0, _, _ => .error .fuel
  | fuel + 1, offset, depth =>
    if 0 ≤ offset ∧ 0 ≤ depth then do
      if ← (if depth = 1 then fdtNodenameEq b offset name else .ok false) then .ok offset
      else
        let (offset, depth') ← fdtNextNode b offset (some depth)
        subnodeLoop name fuel offset (depth'.getD depth)
    else if depth < 0 then .ok FdtErr.notfound.ret
    else .ok offset

def fdtSubnodeOffsetNamelen (offset : Int) (name : List UInt8) : Except Fault Int :=
  let totalsize := fdtRoProbe b
  if totalsize < 0 then .ok totalsize
  else subnodeLoop b name (b.totalsize + 2) offset 0

/-- The loop of `fdt_path_offset_namelen` over what is left of the path. -/
def pathLoop : Nat → Int → List UInt8 → Except Fault Int
  | 0, _, _ => .error .fuel
  | fuel + 1, offset, path =>
    if path = [] then .ok offset
    else
      let p := path.dropWhile (· = 0x2f)
      if p = [] then .ok offset
      else do
        let offset ← fdtSubnodeOffsetNamelen b offset (p.takeWhile (· ≠ 0x2f))
        if offset < 0 then .ok offset
        else pathLoop fuel offset (p.dropWhile (· ≠ 0x2f))

/-- `fdt_path_offset_namelen` where the path is empty or starts at the root. -/
def fdtRootPathOffset (path : List UInt8) : Except Fault Int :=
  let totalsize := fdtRoProbe b
  if totalsize < 0 then .ok totalsize
  else if path = [] then .ok FdtErr.badpath.ret
  else pathLoop b (path.length + 1) 0 path

/-- The place of the alias `name` under `/aliases`: a path from the root. -/
def fdtGetAliasNamelen (name : List UInt8) : Except Fault (Option Nat) := do
  let offset ← fdtRootPathOffset b (cstr "/aliases")
  if offset < 0 then .ok none
  else
    match ← fdtGetprop b offset name with
    | .error _ => .ok none
    | .ok (path, len) =>
      if 0 < len then do
        let last ← b.ld8 (path + (len.toNat - 1))
        let first ← b.ld8 path
        if last = 0 ∧ first = 0x2f then .ok (some path) else .ok none
      else .ok none

/-- `fdt_path_offset_namelen`.  An alias is a path from the root, so its own lookup has no alias. -/
def fdtPathOffset (path : List UInt8) : Except Fault Int :=
  let totalsize := fdtRoProbe b
  if totalsize < 0 then .ok totalsize
  else
    match path with
    | [] => .ok FdtErr.badpath.ret
    | c :: _ =>
      if c = 0x2f then fdtRootPathOffset b path
      else do
        match ← fdtGetAliasNamelen b (path.takeWhile (· ≠ 0x2f)) with
        | none => .ok FdtErr.badpath.ret
        | some p => do
          let len ← b.strlen p
          let offset ← fdtRootPathOffset b ((b.bytes.drop p).take len)
          pathLoop b (path.length + 1) offset (path.dropWhile (· ≠ 0x2f))

/-! ## `fdt_helper.c` -/

/-- The 64-bit base and size in the `reg` property of the first compatible node, or -1. -/
def fdtFindRegByCompat (compat : List UInt8) : Except Fault (Option (UInt64 × UInt64)) := do
  let offset ← fdtNodeOffsetByCompatible b (-1) compat
  if offset < 0 then .ok none
  else
    match ← fdtGetprop b offset (cstr "reg") with
    | .error _ => .ok none
    | .ok (reg, len) =>
      -- 64-bit address and 64-bit size
      if len < 16 then .ok none
      else do
        let addrHi ← b.ld32 reg
        let addrLo ← b.ld32 (reg + 4)
        let sizeHi ← b.ld32 (reg + 8)
        let sizeLo ← b.ld32 (reg + 12)
        .ok (some (addrHi.toUInt64 <<< 32 ||| addrLo.toUInt64,
          sizeHi.toUInt64 <<< 32 ||| sizeLo.toUInt64))

/-- `fdt_getprop` as the drivers use it: the first cell of a property that has one. -/
def fdtGetCell (offset : Int) (name : List UInt8) : Except Fault (Option Nat) := do
  match ← fdtGetprop b offset name with
  | .error _ => .ok none
  | .ok (p, len) => if len < 4 then .ok none else return some (← b.ld32 p)

/-- The interrupt number of the first compatible node, or -1. -/
def fdtFindIrqByCompat (compat : List UInt8) : Except Fault (Option Nat) := do
  let offset ← fdtNodeOffsetByCompatible b (-1) compat
  if offset < 0 then .ok none else fdtGetCell b offset (cstr "interrupts")

end Search

end Ccos
