import Mathlib.Tactic
import Ccos.Printf.RoundTrip
import Ccos.Printf.Log

/-!
# The decimal printers

`platform_put_dec_us` and `platform_put_dec_s` (`platform/qemu-virt-sbi/platform.c`), `sbi_put_dec`
(`kernel/main.c`), `log_append_uint` and `u_itoa` write the same numeral.  The first stores its
digits without a check, so its buffers are modelled with their sizes, and a store behind the end is
a fault.
-/

namespace Ccos.Printf

open Reasoning.Overwrite

/-! ## The printers of the platform and of the boot code -/

inductive BufFault where
  | outOfBounds
  deriving DecidableEq, Repr

/-- `buf[pos++] = c` in a buffer of `cap` bytes of which `buf` are used. -/
def storeChar (cap : Nat) (buf : List UInt8) (c : UInt8) : Except BufFault (List UInt8) :=
  if buf.length < cap then .ok (buf ++ [c]) else .error .outOfBounds

/-- `while (x > 0)` of `platform_put_dec_us`: the digits in `tmp[20]`, least significant first. -/
def putDecLoop (x : Nat) (tmp : List UInt8) : Except BufFault (List UInt8) :=
  if _ : 0 < x then
    let q := x / 10
    let r := x - q * 10
    match storeChar 20 tmp (ascii '0' + UInt8.ofNat r) with
    | .error e => .error e
    | .ok tmp => putDecLoop q tmp
  else .ok tmp
termination_by x
decreasing_by exact Nat.div_lt_self (by omega) (by omega)

/-- The bytes handed to `platform_write`. -/
def platformPutDecUs (x : UInt64) : Except BufFault (List UInt8) := do
  let buf ←
    if x = 0 then storeChar 21 [] (ascii '0')
    else do
      let tmp ← putDecLoop x.toNat []
      tmp.reverse.foldlM (storeChar 21) []
  -- `buf[pos] = '\0'`
  let _ ← storeChar 21 buf 0
  return buf

def platformPutDecS (v : Int64) : Except BufFault (List UInt8) :=
  if v < 0 then do
    let mag : UInt64 := (-(v + 1)).toUInt64 + 1
    return ascii '-' :: (← platformPutDecUs mag)
  else platformPutDecUs v.toUInt64

/-- `while (v && idx < sizeof(buf))` of `sbi_put_dec`, with `room` bytes left in `buf`. -/
def sbiDigits : Nat → Nat → List UInt8
  | 0, _ => []
  | room + 1, v =>
    if v = 0 then [] else (ascii '0' + UInt8.ofNat (v % 10)) :: sbiDigits room (v / 10)

/-- The bytes handed to `sbi_debug_console_write_byte`. -/
def sbiPutDec (v : UInt64) : List UInt8 :=
  if v = 0 then [ascii '0'] else (sbiDigits 32 v.toNat).reverse

/-! ## The canonical numeral -/

/-- The number that a text of decimal digits denotes. -/
def textValue (text : List UInt8) : Nat :=
  text.foldl (fun acc c => acc * 10 + (c.toNat - (ascii '0').toNat)) 0

structure Canonical (n : Nat) (text : List UInt8) : Prop where
  digits : ∀ c ∈ text, isDigitCh c = true
  nonempty : text ≠ []
  noLeadingZero : text.head? = some (ascii '0') → text = [ascii '0']
  value : textValue text = n

theorem textValue_digits (acc : Nat) (ds : List Nat) (hds : ∀ d ∈ ds, d < 10) :
    (ds.map (digitCh (ascii 'a'))).foldl
      (fun acc c => acc * 10 + (c.toNat - (ascii '0').toNat)) acc =
      digitsValue acc ds := by
  induction ds generalizing acc with
  | nil => rfl
  | cons d ds ih =>
    have hd := hds d List.mem_cons_self
    have hzero : (ascii '0').toNat = 48 := rfl
    have hdigit : (digitCh (ascii 'a') d).toNat - (ascii '0').toNat = d := by
      rw [digitCh_toNat hd, hzero]
      omega
    rw [List.map_cons, List.foldl_cons, hdigit, ih _ fun e he => hds e (List.mem_cons_of_mem d he)]
    rfl

theorem digitCh_eq_zero {d : Nat} (hd : d < 10) (h : digitCh (ascii 'a') d = ascii '0') :
    d = 0 := by
  have hnat := congrArg UInt8.toNat h
  have hzero : (ascii '0').toNat = 48 := rfl
  rw [digitCh_toNat hd, hzero] at hnat
  omega

/-- The most significant digit of a positive number is not zero. -/
theorem numeralDigits_head {n : Nat} (hn : n ≠ 0) : (numeralDigits n).head? ≠ some 0 := by
  unfold numeralDigits
  rw [if_neg hn, List.head?_reverse, List.getLast?_eq_getLast_of_ne_nil
    (Nat.digits_ne_nil_iff_ne_zero.mpr hn)]
  intro h
  exact Nat.getLast_digit_ne_zero 10 hn (Option.some.inj h)

theorem canonical_numeral (n : Nat) : Canonical n (numeral (ascii 'a') 10 n) := by
  rw [numeral_ten]
  constructor
  · intro c hc
    obtain ⟨d, hd, rfl⟩ := List.mem_map.mp hc
    exact isDigitCh_digitCh (numeralDigits_lt hd)
  · rw [Ne, List.map_eq_nil_iff]
    exact numeralDigits_ne_nil n
  · intro hhead
    by_cases hn : n = 0
    · rw [hn]
      rfl
    · exfalso
      apply numeralDigits_head hn
      rw [List.head?_map, Option.map_eq_some_iff] at hhead
      obtain ⟨d, hd, hzero⟩ := hhead
      rw [hd, digitCh_eq_zero (numeralDigits_lt (List.mem_of_mem_head? hd)) hzero]
  · exact (textValue_digits 0 _ fun d hd => numeralDigits_lt hd).trans (digitsValue_numeralDigits n)

/-- Twenty digits are enough for 64 bits. -/
theorem digits_length_le {n : Nat} (hn : n < 2 ^ 64) : (Nat.digits 10 n).length ≤ 20 := by
  rw [Nat.digits_length_le_iff (by decide)]
  omega

theorem numeral_length_le {n : Nat} (hn : n < 2 ^ 64) : (numeral (ascii 'a') 10 n).length ≤ 20 := by
  unfold numeral
  split
  · decide
  · rw [List.length_map, List.length_reverse]
    exact digits_length_le hn

/-! ## The four loops -/

theorem digitCh_ten {d : Nat} (hd : d < 10) :
    ascii '0' + UInt8.ofNat d = digitCh (ascii 'a') d := by
  unfold digitCh
  rw [if_pos hd]

theorem storeChar_ok {cap : Nat} {buf : List UInt8} (h : buf.length < cap) (c : UInt8) :
    storeChar cap buf c = .ok (buf ++ [c]) :=
  if_pos h

theorem putDecLoop_eq (x : Nat) (tmp : List UInt8)
    (hroom : tmp.length + (Nat.digits 10 x).length ≤ 20) :
    putDecLoop x tmp = .ok (tmp ++ (Nat.digits 10 x).map (digitCh (ascii 'a'))) := by
  induction x using Nat.strong_induction_on generalizing tmp with
  | h x ih =>
    rw [putDecLoop]
    split
    · next hx =>
      have hdigits := Nat.digits_def' (by decide : 1 < 10) hx
      have hrem : x - x / 10 * 10 = x % 10 := by omega
      rw [hdigits, List.length_cons] at hroom
      simp only [hrem, digitCh_ten (Nat.mod_lt x (by decide : 0 < 10)),
        storeChar_ok (by omega : tmp.length < 20)]
      rw [ih (x / 10) (Nat.div_lt_self hx (by decide)), hdigits, List.map_cons, List.append_assoc]
      · rfl
      · rw [List.length_append, List.length_singleton]
        omega
    · next hx =>
      have h0 : x = 0 := by omega
      rw [h0, Nat.digits_zero, List.map_nil, List.append_nil]

/-- Reversing `tmp` into `buf`. -/
theorem foldlM_storeChar {cap : Nat} (text buf : List UInt8) (h : buf.length + text.length ≤ cap) :
    text.foldlM (storeChar cap) buf = .ok (buf ++ text) := by
  induction text generalizing buf with
  | nil =>
    rw [List.append_nil]
    rfl
  | cons c text ih =>
    rw [List.length_cons] at h
    rw [List.foldlM_cons, storeChar_ok (by omega)]
    show text.foldlM (storeChar cap) (buf ++ [c]) = _
    rw [ih, List.append_assoc]
    · rfl
    · rw [List.length_append, List.length_singleton]
      omega

theorem toNat_ne_zero {x : UInt64} (hx : x ≠ 0) : x.toNat ≠ 0 :=
  fun h => hx (UInt64.toNat_inj.mp h)

theorem platformPutDecUs_eq (x : UInt64) :
    platformPutDecUs x = .ok (numeral (ascii 'a') 10 x.toNat) := by
  have hlen := digits_length_le x.toNat_lt
  unfold platformPutDecUs
  split
  · next hx =>
    rw [hx]
    rfl
  · next hx =>
    rw [putDecLoop_eq x.toNat [] (by rw [List.length_nil]; omega), List.nil_append]
    show (do
      let buf ← ((Nat.digits 10 x.toNat).map (digitCh (ascii 'a'))).reverse.foldlM (storeChar 21) []
      let _ ← storeChar 21 buf 0
      return buf) = _
    rw [foldlM_storeChar _ _ (by
      rw [List.length_nil, List.length_reverse, List.length_map]
      omega), List.nil_append]
    show (do
      let _ ← storeChar 21 ((Nat.digits 10 x.toNat).map (digitCh (ascii 'a'))).reverse 0
      return ((Nat.digits 10 x.toNat).map (digitCh (ascii 'a'))).reverse) = _
    rw [storeChar_ok (by
      rw [List.length_reverse, List.length_map]
      omega)]
    show Except.ok _ = Except.ok _
    unfold numeral
    rw [if_neg (toNat_ne_zero hx), List.map_reverse]

/-- Both ways to negate, `-(v + 1) + 1` in the platform and `-v` in `u_itoa`, give the magnitude. -/
theorem toNat_mag {v : Int64} (hv : v < 0) : ((-(v + 1)).toUInt64 + 1).toNat = v.toInt.natAbs := by
  have hneg : (-(v + 1)).toUInt64 + 1 = (-v).toUInt64 := by
    rw [Int64.neg_add, Int64.toUInt64_sub]
    exact UInt64.sub_add_cancel _ _
  have hmag := magnitude v
  rw [if_pos hv] at hmag
  rw [hneg, hmag]

theorem platformPutDecS_eq (v : Int64) : platformPutDecS v = .ok (uItoa v 10 true) := by
  rw [uItoa_signed]
  unfold platformPutDecS
  split
  · next hv =>
    simp only [platformPutDecUs_eq, toNat_mag hv]
    rfl
  · next hv =>
    have hmag := magnitude v
    rw [if_neg hv] at hmag
    rw [platformPutDecUs_eq, hmag]

theorem sbiDigits_eq {room v : Nat} (h : v < 10 ^ room) :
    sbiDigits room v = (Nat.digits 10 v).map (digitCh (ascii 'a')) := by
  rw [← logDigits_eq (by decide) _ h]
  clear h
  induction room generalizing v with
  | zero => rfl
  | succ room ih =>
    unfold sbiDigits logDigits
    rw [digitCh_ten (Nat.mod_lt v (by decide)), ih]

theorem sbiPutDec_eq (v : UInt64) : sbiPutDec v = numeral (ascii 'a') 10 v.toNat := by
  have hlt := v.toNat_lt
  unfold sbiPutDec
  split
  · next hv =>
    rw [hv]
    rfl
  · next hv =>
    rw [sbiDigits_eq (by omega)]
    unfold numeral
    rw [if_neg (toNat_ne_zero hv), List.map_reverse]

theorem length_sbiDigits_le (room v : Nat) : (sbiDigits room v).length ≤ room := by
  induction room generalizing v with
  | zero => exact Nat.le_refl 0
  | succ room ih =>
    unfold sbiDigits
    split
    · exact Nat.zero_le _
    · exact Nat.succ_le_succ (ih _)

theorem length_logDigits_le (a : UInt8) (base room v : Nat) :
    (logDigits a base room v).length ≤ room := by
  induction room generalizing v with
  | zero => exact Nat.le_refl 0
  | succ room ih =>
    unfold logDigits
    split
    · exact Nat.zero_le _
    · exact Nat.succ_le_succ (ih _)

/-! ## Appending to a buffer at any position -/

/-- `text` has been appended to `o`, and nothing else changed. -/
structure Appended (o o' : LogOut) (text : List UInt8) : Prop where
  pos : o'.pos = o.pos + text.length
  inside : (List.range text.length).map (fun i => o'.buf (o.pos + i)) = text
  outside : ∀ i, i < o.pos ∨ o.pos + text.length ≤ i → o'.buf i = o.buf i

/-- What `o` holds in front of its position. -/
def LogOut.front (o : LogOut) : List UInt8 := (List.range o.pos).map o.buf

theorem LogOut.length_front (o : LogOut) : o.front.length = o.pos := by
  unfold LogOut.front
  rw [List.length_map, List.length_range]

theorem LogOut.overwrite_front (o : LogOut) : overwrite o.buf o.front = o.buf := by
  funext i
  by_cases hi : i < o.front.length
  · rw [overwrite_inside _ hi]
    simp [LogOut.front]
  · exact overwrite_outside _ (Nat.le_of_not_lt hi)

theorem LogOut.eq_written (o : LogOut) {max : Nat} (h : o.pos ≤ max - 1) :
    o = logWritten max o.buf o.front := by
  unfold logWritten
  rw [List.take_of_length_le (by rw [o.length_front]; exact h), o.overwrite_front, o.length_front,
    Nat.min_eq_left h]

theorem appended_written (o : LogOut) {max : Nat} {text : List UInt8}
    (h : o.pos + text.length ≤ max - 1) :
    Appended o (logWritten max o.buf (o.front ++ text)) text := by
  have hlen : (o.front ++ text).length = o.pos + text.length := by
    rw [List.length_append, o.length_front]
  have htake : (o.front ++ text).take (max - 1) = o.front ++ text :=
    List.take_of_length_le (by omega)
  unfold logWritten
  rw [htake]
  constructor
  · show min (o.front ++ text).length (max - 1) = _
    rw [hlen, Nat.min_eq_left h]
  · apply List.ext_getElem
    · rw [List.length_map, List.length_range]
    · intro i h1 h2
      have hi : o.front.length + i < (o.front ++ text).length := by
        rw [List.length_append]
        omega
      rw [List.getElem_map, List.getElem_range, ← o.length_front]
      show overwrite o.buf (o.front ++ text) (o.front.length + i) = _
      rw [overwrite_inside _ hi, List.get_eq_getElem]
      show (o.front ++ text)[o.front.length + i] = text[i]
      rw [List.getElem_append_right (Nat.le_add_right _ _)]
      simp only [Nat.add_sub_cancel_left]
  · intro i hi
    show overwrite o.buf (o.front ++ text) i = o.buf i
    rcases hi with hlt | hge
    · have hfront : i < o.front.length := by
        rw [o.length_front]
        exact hlt
      rw [overwrite_inside _ (by omega : i < (o.front ++ text).length), List.get_eq_getElem,
        List.getElem_append_left hfront]
      simp [LogOut.front]
    · exact overwrite_outside _ (by omega)

theorem appended_logAppendUint (o : LogOut) {max : Nat} (x : UInt64) (upper : Bool) (pad : UInt8)
    (h : o.pos + (numeral (ascii 'a') 10 x.toNat).length < max) :
    Appended o (logAppendUint max o x 10 upper 0 pad) (numeral (ascii 'a') 10 x.toNat) := by
  have hsame : numeral (if upper then ascii 'A' else ascii 'a') 10 x.toNat =
      numeral (ascii 'a') 10 x.toNat := by
    -- a decimal digit is no letter
    unfold numeral
    split
    · rfl
    · apply List.map_congr_left
      intro d hd
      have hlt : d < 10 := Nat.digits_lt_base (by decide) (List.mem_reverse.mp hd)
      unfold digitCh
      rw [if_pos hlt, if_pos hlt]
  have hwritten : logAppendUint max (logWritten max o.buf o.front) x 10 upper 0 pad = _ :=
    logAppendUint_written o.front x (le_refl 10) upper pad
  rw [← o.eq_written (by omega), hsame] at hwritten
  rw [hwritten]
  exact appended_written o (by omega)

/-! ## The printers agree -/

/-- On 64-bit numbers every printer writes the canonical numeral, within its digit buffer; on signed
numbers the platform and the user library write the same text, with a sign for the negative ones. -/
theorem decimal_printers_canonical :
    (∀ x : UInt64, ∃ text, Canonical x.toNat text ∧ text.length ≤ 20 ∧
      platformPutDecUs x = .ok text ∧
      sbiPutDec x = text ∧ (sbiDigits 32 x.toNat).length ≤ 32 ∧
      (∀ (o : LogOut) (max : Nat) (upper : Bool) (pad : UInt8), o.pos + text.length < max →
        Appended o (logAppendUint max o x 10 upper 0 pad) text) ∧
      (∀ a, (logDigits a 10 32 x.toNat).length ≤ 32) ∧
      uItoa x.toInt64 10 false = text) ∧
    ∀ v : Int64, ∃ mag, Canonical v.toInt.natAbs mag ∧
      platformPutDecS v = .ok (uItoa v 10 true) ∧ (uItoa v 10 true).length ≤ 64 ∧
      uItoa v 10 true = (if v < 0 then [ascii '-'] else []) ++ mag := by
  constructor
  · intro x
    exact ⟨_, canonical_numeral _, numeral_length_le x.toNat_lt, platformPutDecUs_eq x,
      sbiPutDec_eq x,
      length_sbiDigits_le _ _, fun o max upper pad h => appended_logAppendUint o x upper pad h,
      fun a => length_logDigits_le _ _ _ _, uItoa_unsigned x (by decide)⟩
  · intro v
    have hmag : v.toInt.natAbs < 2 ^ 64 := by
      rw [← magnitude v]
      exact UInt64.toNat_lt _
    have hlen := numeral_length_le hmag
    have htext : uItoa v 10 true =
        (if v < 0 then [ascii '-'] else []) ++ numeral (ascii 'a') 10 v.toInt.natAbs := by
      rw [uItoa_signed]
      split
      · rfl
      · rfl
    refine ⟨_, canonical_numeral _, platformPutDecS_eq v, ?_, htext⟩
    rw [htext, List.length_append]
    split
    · rw [List.length_singleton]
      omega
    · rw [List.length_nil]
      omega

example : platformPutDecS (Int64.ofInt (-(2 ^ 63))) =
    .ok ("-9223372036854775808".toList.map ascii) := by
  rw [platformPutDecS_eq, uItoa_signed]
  decide +kernel

end Ccos.Printf
