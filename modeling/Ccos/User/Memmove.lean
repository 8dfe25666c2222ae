import Mathlib.Tactic
import Ccos.Kernel.Types
import Ccos.Reasoning.Overlap

/-!
# `memmove` and `u_memmove`

The two string libraries (`lib/string.c`, `user/ulib_string.c`) move a block in place, one byte at a
time, upwards when the destination lies below the source and downwards otherwise.
-/

namespace Ccos

open Reasoning.Overlap

/-- `memmove` of `lib/string.c`: the memory behind the call and the pointer it returns. -/
def memmove (m : Mem) (dest src n : UInt64) : Mem × UInt64 :=
  let d := fun i => dest + UInt64.ofNat i
  let s := fun i => src + UInt64.ofNat i
  if dest = src ∨ n = 0 then (m, dest)
  else if dest < src then (copyUp d s m 0 n.toNat, dest)
  else (copyDown d s m n.toNat, dest)

/-- `u_memmove` of `user/ulib_string.c`. -/
def uMemmove (m : Mem) (dst src n : UInt64) : Mem × UInt64 :=
  let d := fun i => dst + UInt64.ofNat i
  let s := fun i => src + UInt64.ofNat i
  if dst = src ∨ n = 0 then (m, dst)
  else if dst < src then (copyUp d s m 0 n.toNat, dst)
  else (copyDown d s m n.toNat, dst)

/-- `m'` is `m` with the block at `src` moved to `dst`. -/
structure Moved (m m' : Mem) (dst src : UInt64) (n : Nat) : Prop where
  inside : ∀ i < n, m' (dst + UInt64.ofNat i) = m (src + UInt64.ofNat i)
  outside : ∀ a : UInt64, a.toNat < dst.toNat ∨ dst.toNat + n ≤ a.toNat → m' a = m a

/-- Only one memory holds the moved block. -/
theorem Moved.unique {m m₁ m₂ : Mem} {dst src : UInt64} {n : Nat} (h₁ : Moved m m₁ dst src n)
    (h₂ : Moved m m₂ dst src n) : m₁ = m₂ := by
  ext a
  by_cases ha : a.toNat < dst.toNat ∨ dst.toNat + n ≤ a.toNat
  · rw [h₁.outside a ha, h₂.outside a ha]
  · have hoff : a = dst + UInt64.ofNat (a.toNat - dst.toNat) := by
      apply UInt64.toNat_inj.mp
      have hlt := a.toNat_lt
      rw [UInt64.toNat_add, UInt64.toNat_ofNat']
      omega
    rw [hoff, h₁.inside _ (by omega), h₂.inside _ (by omega)]

section

variable {p q : UInt64} {n : Nat}

theorem toNat_add_ofNat (hp : p.toNat + n ≤ 2 ^ 64) {i : Nat} (hi : i < n) :
    (p + UInt64.ofNat i).toNat = p.toNat + i := by
  rw [UInt64.toNat_add, UInt64.toNat_ofNat']
  omega

/-- Two cells of blocks that do not wrap are the same only at the same address. -/
theorem add_ofNat_ne (hp : p.toNat + n ≤ 2 ^ 64) (hq : q.toNat + n ≤ 2 ^ 64) {i j : Nat}
    (hi : i < n) (hj : j < n) (hne : p.toNat + i ≠ q.toNat + j) :
    p + UInt64.ofNat i ≠ q + UInt64.ofNat j := by
  intro heq
  apply hne
  rw [← toNat_add_ofNat hp hi, ← toNat_add_ofNat hq hj, heq]

theorem ne_add_ofNat (hp : p.toNat + n ≤ 2 ^ 64) {a : UInt64}
    (ha : a.toNat < p.toNat ∨ p.toNat + n ≤ a.toNat) {i : Nat} (hi : i < n) :
    a ≠ p + UInt64.ofNat i := by
  intro heq
  rw [heq, toNat_add_ofNat hp hi] at ha
  omega

end

section

variable (m : Mem) {dst src : UInt64} {n : Nat} (hd : dst.toNat + n ≤ 2 ^ 64)
  (hs : src.toNat + n ≤ 2 ^ 64)

include hd hs

theorem moved_copyUp (hlt : dst < src) :
    Moved m (copyUp (fun i => dst + UInt64.ofNat i) (fun i => src + UInt64.ofNat i) m 0 n)
      dst src n := by
  have hlt' : dst.toNat < src.toNat := hlt
  constructor
  · intro i hi
    apply copyUp_inside (j := i) (Nat.zero_le i) (by omega)
    · intro j k _ hjk hk
      exact add_ofNat_ne hd hd (by omega) (by omega) (by omega)
    · -- the bytes still to be read lie above every byte written so far
      intro j k _ hjk hk
      exact add_ofNat_ne hs hd (by omega) (by omega) (by omega)
  · intro a ha
    apply copyUp_outside
    intro j _ hj
    exact ne_add_ofNat hd ha (by omega)

theorem moved_copyDown (hle : src ≤ dst) :
    Moved m (copyDown (fun i => dst + UInt64.ofNat i) (fun i => src + UInt64.ofNat i) m n)
      dst src n := by
  have hle' : src.toNat ≤ dst.toNat := hle
  constructor
  · intro i hi
    apply copyDown_inside (j := i) hi
    · intro j k hjk hk
      exact add_ofNat_ne hd hd (by omega) (by omega) (by omega)
    · intro j k hjk hk
      exact add_ofNat_ne hs hd (by omega) (by omega) (by omega)
  · intro a ha
    exact copyDown_outside fun j hj => ne_add_ofNat hd ha hj

end

theorem moved_memmove (m : Mem) {dest src n : UInt64} (hd : dest.toNat + n.toNat ≤ 2 ^ 64)
    (hs : src.toNat + n.toNat ≤ 2 ^ 64) : Moved m (memmove m dest src n).1 dest src n.toNat := by
  unfold memmove
  split
  · next hsame =>
    -- nothing moves: the block stays where it is, or is empty
    constructor
    · intro i hi
      rcases hsame with heq | h0
      · rw [heq]
      · rw [h0] at hi
        exact absurd hi (Nat.not_lt_zero i)
    · intro a _
      rfl
  · split
    · next hlt => exact moved_copyUp m hd hs hlt
    · next hge => exact moved_copyDown m hd hs (UInt64.not_lt.mp hge)

/-- The user library's copy is the kernel's, statement for statement. -/
theorem uMemmove_eq_memmove (m : Mem) (dst src n : UInt64) :
    uMemmove m dst src n = memmove m dst src n := rfl

theorem memmove_returns (m : Mem) (dest src n : UInt64) : (memmove m dest src n).2 = dest := by
  unfold memmove
  split
  · rfl
  · split
    · rfl
    · rfl

/-- For every overlap of the two blocks, both functions move the block, touch nothing else, return
the destination and leave the same memory. -/
theorem memmove_every_overlap (m : Mem) (dst src n : UInt64) (hd : dst.toNat + n.toNat ≤ 2 ^ 64)
    (hs : src.toNat + n.toNat ≤ 2 ^ 64) :
    Moved m (memmove m dst src n).1 dst src n.toNat ∧
      Moved m (uMemmove m dst src n).1 dst src n.toNat ∧
      (memmove m dst src n).1 = (uMemmove m dst src n).1 ∧
      (memmove m dst src n).2 = dst ∧ (uMemmove m dst src n).2 = dst := by
  have hk := moved_memmove m hd hs
  have hu : Moved m (uMemmove m dst src n).1 dst src n.toNat := by
    rw [uMemmove_eq_memmove]
    exact hk
  refine ⟨hk, hu, hk.unique hu, memmove_returns m dst src n, ?_⟩
  rw [uMemmove_eq_memmove]
  exact memmove_returns m dst src n

/-- Five bytes move up by two, over their own tail. -/
theorem memmove_overlap_up :
    let m : Mem := fun a => a.toUInt8
    Moved m (memmove m 0x102 0x100 5).1 0x102 0x100 5 ∧
      (memmove m 0x102 0x100 5).1 0x106 = 4 ∧ (memmove m 0x102 0x100 5).1 0x107 = 7 := by
  have h := memmove_every_overlap (fun a => a.toUInt8) 0x102 0x100 5 (by decide) (by decide)
  exact ⟨h.1, by decide +kernel, by decide +kernel⟩

end Ccos
