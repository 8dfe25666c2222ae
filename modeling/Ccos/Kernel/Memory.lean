import Mathlib.Tactic
import Ccos.Kernel.Types

/-!
# User memory

What a load finds after a store.  Addresses wrap at `2 ^ 64`, so the lemmas only ask the stored
bytes to fit the address space.
-/

namespace Ccos

/-! ## Little-endian bytes -/

/-- The number that little-endian bytes denote. -/
def leValue (bs : List UInt8) : Nat :=
  bs.foldr (fun b acc => b.toNat + 256 * acc) 0

@[simp] theorem length_leBytes (n x : Nat) : (leBytes n x).length = n := by
  induction n generalizing x with
  | zero => rfl
  | succ n ih => rw [leBytes, List.length_cons, ih]

theorem leValue_leBytes (n x : Nat) : leValue (leBytes n x) = x % 256 ^ n := by
  induction n generalizing x with
  | zero =>
    rw [pow_zero, Nat.mod_one]
    rfl
  | succ n ih =>
    have hcons : leValue (leBytes (n + 1) x) =
        (UInt8.ofNat x).toNat + 256 * leValue (leBytes n (x / 256)) := rfl
    have hbyte : (UInt8.ofNat x).toNat = x % 256 := rfl
    rw [hcons, ih, hbyte, pow_succ, Nat.mul_comm (256 ^ n) 256, Nat.mod_mul]

/-! ## Loads after stores -/

theorem storeBytes_inside (m : Mem) (p : UInt64) (bs : List UInt8) {i : Nat} (hi : i < bs.length)
    (hlen : bs.length ≤ 2 ^ 64) : storeBytes m p bs (p + UInt64.ofNat i) = bs.get ⟨i, hi⟩ := by
  have hoff : (p + UInt64.ofNat i - p).toNat = i := by
    have hsub : p + UInt64.ofNat i - p = UInt64.ofNat i := by
      rw [UInt64.add_comm]
      exact UInt64.add_sub_cancel _ _
    rw [hsub, UInt64.toNat_ofNat']
    exact Nat.mod_eq_of_lt (by omega)
  unfold storeBytes
  rw [hoff, if_pos hi]
  exact (List.getElem_eq_getD 0).symm

/-- A load from inside a stored block finds that part of the block. -/
theorem loadBytes_storeBytes (m : Mem) (p : UInt64) (bs : List UInt8) {k n : Nat}
    (hk : k + n ≤ bs.length) (hlen : bs.length ≤ 2 ^ 64) :
    loadBytes (storeBytes m p bs) (p + UInt64.ofNat k) n = (bs.drop k).take n := by
  apply List.ext_getElem
  · simp only [loadBytes, List.length_map, List.length_range, List.length_take, List.length_drop]
    omega
  · intro i h1 h2
    simp only [loadBytes, List.length_map, List.length_range] at h1
    have hadd : p + UInt64.ofNat k + UInt64.ofNat i = p + UInt64.ofNat (k + i) := by
      rw [UInt64.ofNat_add, UInt64.add_assoc]
    simp only [loadBytes, List.getElem_map, List.getElem_range, List.getElem_take,
      List.getElem_drop]
    rw [hadd, storeBytes_inside m p bs (by omega) hlen]
    rfl

theorem loadBytes_storeBytes_self (m : Mem) (p : UInt64) (bs : List UInt8)
    (hlen : bs.length ≤ 2 ^ 64) : loadBytes (storeBytes m p bs) p bs.length = bs := by
  have h := loadBytes_storeBytes m p bs (k := 0) (n := bs.length) (by omega) hlen
  have hp : p + UInt64.ofNat 0 = p := by
    show p + 0 = p
    exact UInt64.add_zero p
  rw [hp] at h
  rw [h]
  simp

/-- A C `int` reads back as it was stored. -/
theorem loadInt_intBytes (m : Mem) (p : UInt64) {v : Int} (h1 : -2 ^ 31 ≤ v) (h2 : v < 2 ^ 31) :
    loadInt (storeBytes m p (intBytes v)) p = v := by
  have hlen : (intBytes v).length = 4 := length_leBytes 4 _
  have hload : loadBytes (storeBytes m p (intBytes v)) p 4 = intBytes v := by
    have h := loadBytes_storeBytes_self m p (intBytes v) (by omega)
    rwa [hlen] at h
  have hval : leValue (intBytes v) = (v % 2 ^ 32).toNat := by
    unfold intBytes
    rw [leValue_leBytes]
    apply Nat.mod_eq_of_lt
    have hpow : (256 : Nat) ^ 4 = 2 ^ 32 := by norm_num
    omega
  unfold loadInt
  rw [hload]
  change (if leValue (intBytes v) < 2 ^ 31 then ((leValue (intBytes v) : Nat) : Int)
    else (leValue (intBytes v) : Int) - 2 ^ 32) = v
  rw [hval]
  split <;> omega

/-! ## Words -/

/-- `*(uint64_t *)p` -/
def loadWord (m : Mem) (p : UInt64) : UInt64 :=
  UInt64.ofNat (leValue (loadBytes m p 8))

def storeWord (m : Mem) (p v : UInt64) : Mem :=
  storeBytes m p (leBytes 8 v.toNat)

/-- The `n` bytes at `p` and the `k` bytes at `q` do not overlap. -/
def NoOverlap (p : UInt64) (n : Nat) (q : UInt64) (k : Nat) : Prop :=
  ∀ i < n, ∀ j < k, p + UInt64.ofNat i ≠ q + UInt64.ofNat j

section NoOverlap

variable {p q : UInt64} {n k : Nat}

theorem NoOverlap.symm (ha : NoOverlap p n q k) : NoOverlap q k p n :=
  fun i hi j hj heq => ha j hj i hi heq.symm

theorem NoOverlap.sub (ha : NoOverlap p n q k) {i a j b : Nat} (hi : i + a ≤ n) (hj : j + b ≤ k) :
    NoOverlap (p + UInt64.ofNat i) a (q + UInt64.ofNat j) b := by
  intro x hx y hy
  rw [UInt64.add_assoc, UInt64.add_assoc, ← UInt64.ofNat_add, ← UInt64.ofNat_add]
  exact ha (i + x) (by omega) (j + y) (by omega)

/-- Two parts of one object. -/
theorem noOverlap_offsets (p : UInt64) {i a j b : Nat} (hi : i + a ≤ 2 ^ 64) (hj : j + b ≤ 2 ^ 64)
    (hdisj : i + a ≤ j ∨ j + b ≤ i) : NoOverlap (p + UInt64.ofNat i) a (p + UInt64.ofNat j) b := by
  intro x hx y hy heq
  rw [UInt64.add_assoc, UInt64.add_assoc, ← UInt64.ofNat_add, ← UInt64.ofNat_add] at heq
  have hnat := congrArg UInt64.toNat ((UInt64.add_right_inj p).mp heq)
  rw [UInt64.toNat_ofNat', UInt64.toNat_ofNat', Nat.mod_eq_of_lt (by omega),
    Nat.mod_eq_of_lt (by omega)] at hnat
  omega

/-- Objects that end before the other begins. -/
theorem noOverlap_of_toNat (hp : p.toNat + n ≤ 2 ^ 64) (hq : q.toNat + k ≤ 2 ^ 64)
    (hdisj : p.toNat + n ≤ q.toNat ∨ q.toNat + k ≤ p.toNat) : NoOverlap p n q k := by
  intro i hi j hj heq
  have hnat := congrArg UInt64.toNat heq
  rw [UInt64.toNat_add, UInt64.toNat_add, UInt64.toNat_ofNat', UInt64.toNat_ofNat',
    Nat.mod_eq_of_lt (by omega : i < 2 ^ 64), Nat.mod_eq_of_lt (by omega : j < 2 ^ 64),
    Nat.mod_eq_of_lt (by omega), Nat.mod_eq_of_lt (by omega)] at hnat
  omega

theorem loadWord_storeWord (m : Mem) (p v : UInt64) : loadWord (storeWord m p v) p = v := by
  have hload := loadBytes_storeBytes_self m p (leBytes 8 v.toNat) (by rw [length_leBytes]; omega)
  rw [length_leBytes] at hload
  have hpow : (256 : Nat) ^ 8 = 2 ^ 64 := by norm_num
  unfold loadWord storeWord
  rw [hload, leValue_leBytes, hpow, Nat.mod_eq_of_lt v.toNat_lt, UInt64.ofNat_toNat]

theorem storeBytes_outside (m : Mem) (bs : List UInt8) (ha : NoOverlap p bs.length q k) {j : Nat}
    (hj : j < k) : storeBytes m p bs (q + UInt64.ofNat j) = m (q + UInt64.ofNat j) := by
  unfold storeBytes
  apply if_neg
  intro hlt
  apply ha _ hlt j hj
  rw [UInt64.ofNat_toNat, UInt64.add_comm, UInt64.sub_add_cancel]

theorem loadWord_storeWord_ne (m : Mem) (v : UInt64) (ha : NoOverlap p 8 q 8) :
    loadWord (storeWord m p v) q = loadWord m q := by
  have hload : loadBytes (storeWord m p v) q 8 = loadBytes m q 8 := by
    unfold loadBytes storeWord
    apply List.map_congr_left
    intro j hj
    exact storeBytes_outside m _ (by rw [length_leBytes]; exact ha) (List.mem_range.mp hj)
  unfold loadWord
  rw [hload]

end NoOverlap

end Ccos
