import Mathlib.Tactic
import Mathlib.Data.Nat.Digits.Lemmas
import Ccos.Printf.Stdio

/-!
# Numerals

`u_itoa` writes the digits of a number backwards, so what it leaves is the numeral of the magnitude
with the sign before it.
-/

namespace Ccos.Printf

/-- The numeral of `n`, with the letters from `a` on for the digits from ten on. -/
def numeral (a : UInt8) (base n : Nat) : List UInt8 :=
  if n = 0 then [ascii '0'] else (Nat.digits base n).reverse.map (digitCh a)

theorem itoaLoop_eq {base : Nat} (hb : 1 < base) (v : Nat) (p : List UInt8) :
    itoaLoop base v p = (Nat.digits base v).reverse.map (digitCh (ascii 'a')) ++ p := by
  induction v using Nat.strong_induction_on generalizing p with
  | _ v ih =>
    rw [itoaLoop]
    split
    · rename_i hv
      rw [ih (v / base) (Nat.div_lt_self hv.1 hv.2), Nat.digits_def' hb hv.1, List.reverse_cons,
        List.map_append, List.append_assoc]
      rfl
    · rename_i hv
      have h0 : v = 0 := by omega
      rw [h0, Nat.digits_zero]
      rfl

/-- `(unsigned long long)(-value)` is the magnitude of a negative value, the least one included. -/
theorem magnitude (value : Int64) :
    (if value < 0 then (-value).toUInt64 else value.toUInt64).toNat = value.toInt.natAbs := by
  have hlt : value < 0 ↔ value.toInt < 0 := Int64.lt_iff_toInt_lt
  have hint : value.toInt = if 2 * value.toUInt64.toNat < 2 ^ 64 then (value.toUInt64.toNat : Int)
      else (value.toUInt64.toNat : Int) - (2 ^ 64 : Nat) :=
        BitVec.toInt_eq_toNat_cond value.toBitVec
  have hneg : (-value).toUInt64.toNat = (2 ^ 64 - value.toUInt64.toNat) % 2 ^ 64 :=
    BitVec.toNat_neg value.toBitVec
  have hbound : value.toUInt64.toNat < 2 ^ 64 := value.toUInt64.toNat_lt
  split
  · rename_i hv
    rw [hlt] at hv
    rw [hneg]
    split at hint
    · omega
    · rw [Nat.mod_eq_of_lt (by omega)]
      omega
  · rename_i hv
    rw [hlt] at hv
    split at hint <;> omega

theorem numeral_eq {v : UInt64} {base : Nat} (hb : 1 < base) :
    (if v = 0 then [ascii '0'] else itoaLoop base v.toNat []) =
      numeral (ascii 'a') base v.toNat := by
  have hzero : v = 0 ↔ v.toNat = 0 := by
    rw [← UInt64.toNat_inj]
    rfl
  unfold numeral
  split
  · rename_i hv
    rw [if_pos (hzero.mp hv)]
  · rename_i hv
    rw [if_neg fun h => hv (hzero.mpr h), itoaLoop_eq hb, List.append_nil]

theorem uItoa_signed (value : Int64) :
    uItoa value 10 true =
      if value < 0 then ascii '-' :: numeral (ascii 'a') 10 value.toInt.natAbs
      else numeral (ascii 'a') 10 value.toInt.natAbs := by
  unfold uItoa
  simp only [true_and, numeral_eq (by decide : 1 < 10)]
  rw [magnitude]

theorem uItoa_unsigned (v : UInt64) {base : Nat} (hb : 1 < base) :
    uItoa v.toInt64 base false = numeral (ascii 'a') base v.toNat := by
  unfold uItoa
  simp only [Bool.false_eq_true, false_and, if_false, numeral_eq hb, UInt64.toUInt64_toInt64]

end Ccos.Printf
