import Mathlib.Tactic
import Ccos.Reasoning.Returns
import Ccos.Fdt.Blob

/-!
# Trees and their layout

A device tree as its writer sees it, and what it means for the bytes of a blob to hold it.  The
layout leaves open what the format leaves open: where the two blocks lie, in which order and how the
names of properties share the strings block.
-/

namespace Ccos

open Reasoning

/-! ## Trees -/

/-- A property: its name and its value. -/
abbrev DtProp := List UInt8 × List UInt8

/-- The nodes of one level.  A `FDT_NOP` may stand between two nodes and, as `none`, between two
properties. -/
inductive Forest
  | nil
  | nop (siblings : Forest)
  | node (name : List UInt8) (props : List (Option DtProp)) (children siblings : Forest)

/-- A tag of the structure block with what belongs to it. -/
inductive Token
  | beginNode (name : List UInt8)
  | prop (name value : List UInt8)
  | endNode
  | nop

def Token.tag : Token → FdtTag
  | .beginNode _ => .beginNode
  | .prop _ _ => .prop
  | .endNode => .endNode
  | .nop => .nop

def propToken : Option DtProp → Token
  | some (name, value) => .prop name value
  | none => .nop

def Forest.tokens : Forest → List Token
  | .nil => []
  | .nop siblings => .nop :: siblings.tokens
  | .node name props children siblings =>
    .beginNode name :: (props.map propToken ++ (children.tokens ++ .endNode :: siblings.tokens))

/-! ## Bytes -/

def beBytes (n : Nat) : List UInt8 :=
  [(n / 0x1000000).toUInt8, (n / 0x10000).toUInt8, (n / 0x100).toUInt8, n.toUInt8]

def align4 (n : Nat) : Nat := (n + 3) / 4 * 4

/-- `l` with zeros up to the next tag. -/
def pad4 (l : List UInt8) : List UInt8 := l ++ List.replicate (align4 l.length - l.length) 0

def Token.size : Token → Nat
  | .beginNode name => 4 + align4 (name.length + 1)
  | .prop _ value => 12 + align4 value.length
  | _ => 4

/-- The bytes `l` are at `i`. -/
def Blob.At (b : Blob) (i : Nat) (l : List UInt8) : Prop := l <+: b.bytes.drop i

/-- The name `s` is at `nameoff` of the strings block. -/
structure StringAt (b : Blob) (nameoff : Nat) (s : List UInt8) : Prop where
  noNul : 0 ∉ s
  bytes : b.At (b.offDtStrings + nameoff) (s ++ [0])
  block : nameoff + s.length < b.sizeDtStrings
  room : b.offDtStrings + nameoff + s.length < b.totalsize

/-- `len` bytes at `off` of the structure block. -/
structure Room (b : Blob) (off len : Nat) : Prop where
  total : b.offDtStruct + off + len ≤ b.totalsize
  block : 0x11 ≤ b.version → off + len ≤ b.sizeDtStruct
  aligned : off % 4 = 0

def TokenAt (b : Blob) (off : Nat) : Token → Prop
  | .beginNode name =>
    0 ∉ name ∧ b.At (b.offDtStruct + off) (beBytes 1 ++ pad4 (name ++ [0]))
  | .prop name value => ∃ nameoff, StringAt b nameoff name ∧
    b.At (b.offDtStruct + off)
      (beBytes 3 ++ (beBytes value.length ++ (beBytes nameoff ++ (pad4 value))))
  | .endNode => b.At (b.offDtStruct + off) (beBytes 2)
  | .nop => b.At (b.offDtStruct + off) (beBytes 4)

/-- The tags `ts` are at `off`, and `FDT_END` behind them. -/
def TokensAt (b : Blob) : Nat → List Token → Prop
  | off, [] => Room b off 4 ∧ b.At (b.offDtStruct + off) (beBytes 9)
  | off, tok :: ts => Room b off tok.size ∧ TokenAt b off tok ∧ TokensAt b (off + tok.size) ts

/-- A tree of version 16 or 17 that is all there. -/
structure Layout (b : Blob) : Prop where
  aligned : b.addr &&& 7 = 0
  magic : b.magic = fdtMagic
  version : 0x10 ≤ b.version
  lastComp : b.lastCompVersion ≤ 0x11
  size : b.totalsize < 0x7fffffff
  there : b.totalsize ≤ b.bytes.length

/-- The blob holds the tree `f`. -/
def Holds (b : Blob) (f : Forest) : Prop := Layout b ∧ TokensAt b 0 f.tokens

section Bytes

variable {b : Blob} {i n : Nat} {l : List UInt8}

theorem Blob.At.left {xs ys : List UInt8} (h : b.At i (xs ++ ys)) : b.At i xs :=
  (List.prefix_append xs ys).trans h

theorem Blob.At.right {xs ys : List UInt8} (h : b.At i (xs ++ ys)) : b.At (i + xs.length) ys := by
  obtain ⟨t, ht⟩ := h
  refine ⟨t, ?_⟩
  rw [← List.drop_drop, ← ht, List.append_assoc, List.drop_left]

theorem Blob.At.getElem? (h : b.At i l) {k : Nat} (hk : k < l.length) :
    b.bytes[i + k]? = l[k]? := by
  obtain ⟨t, ht⟩ := h
  rw [← List.getElem?_drop, ← ht, List.getElem?_append_left hk]

theorem Blob.At.length_le (h : b.At i l) (hl : l ≠ []) : i + l.length ≤ b.bytes.length := by
  have hle := List.IsPrefix.length_le h
  rw [List.length_drop] at hle
  have hpos := List.length_pos_iff.mpr hl
  omega

theorem Blob.At.ld8 {c : UInt8} (h : b.At i (c :: l)) : b.ld8 i = .ok c := by
  have hget := h.getElem? (k := 0) (by simp)
  rw [Nat.add_zero] at hget
  unfold Blob.ld8
  rw [hget]
  rfl

theorem Blob.At.tail {c : UInt8} (h : b.At i (c :: l)) : b.At (i + 1) l := by
  have hsplit : b.At i ([c] ++ l) := h
  exact hsplit.right

theorem be32_at (h : b.At i (beBytes n)) (hn : n < 0x100000000) : be32 b.bytes i = n := by
  obtain ⟨t, ht⟩ := h
  unfold be32
  rw [← ht]
  show (((0 * 0x100 + (n / 0x1000000).toUInt8.toNat) * 0x100 +
    (n / 0x10000).toUInt8.toNat) * 0x100 +
    (n / 0x100).toUInt8.toNat) * 0x100 + n.toUInt8.toNat = n
  simp only [Nat.toUInt8_eq, UInt8.toNat_ofNat']
  omega

theorem Blob.At.ld32 (h : b.At i (beBytes n)) (hn : n < 0x100000000) : b.ld32 i = .ok n := by
  have hlen : i + 4 ≤ b.bytes.length := h.length_le (List.cons_ne_nil _ _)
  unfold Blob.ld32
  rw [if_pos hlen, be32_at h hn]

end Bytes

end Ccos
