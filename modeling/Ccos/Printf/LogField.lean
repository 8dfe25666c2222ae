import Mathlib.Tactic
import Ccos.Printf.RoundTrip
import Ccos.Printf.LogFormat

/-!
# Integer fields of the kernel log

The field that `log_vformat` prints for `%<w>lld` and `%0<w>lld`, beside the field that `printf`
prints.  The sign goes out before the padding, which is right for zeroes only.
-/

namespace Ccos.Printf

open Reasoning.Overwrite

/-! ## The format -/

/-- `%<w>lld`, or `%0<w>lld`. -/
def lldBytes (zero : Bool) (w : Nat) : List UInt8 :=
  ascii '%' :: ((if zero then [ascii '0'] else []) ++ ((widthDigits w).map (digitCh (ascii 'a')) ++
    [ascii 'l', ascii 'l', ascii 'd']))

theorem digitCh_ne_zero {d : Nat} (hd : d < 10) : digitCh (ascii 'a') d ≠ 0 := by
  intro h0
  have hnat := digitCh_toNat (a := ascii 'a') hd
  rw [h0, UInt8.toNat_zero] at hnat
  omega

def lldFormat (zero : Bool) (w : Nat) : CString where
  bytes := lldBytes zero w
  nonzero := by
    intro c hc
    unfold lldBytes at hc
    rcases List.mem_cons.mp hc with hc | hc
    · rw [hc]
      decide
    rcases List.mem_append.mp hc with hc | hc
    · cases zero with
      | false => cases hc
      | true =>
        rw [List.mem_singleton.mp hc]
        decide
    rcases List.mem_append.mp hc with hc | hc
    · obtain ⟨d, hd, rfl⟩ := List.mem_map.mp hc
      exact digitCh_ne_zero (widthDigits_lt hd)
    · simp only [List.mem_cons, List.not_mem_nil, or_false] at hc
      rcases hc with hc | hc | hc
      · rw [hc]
        decide
      · rw [hc]
        decide
      · rw [hc]
        decide

def padCh (zero : Bool) : UInt8 := if zero then ascii '0' else ascii ' '

/-- The directive that the format stands for. -/
def lldDirective (zero : Bool) (w : Nat) : LogDirective where
  pad := padCh zero
  width := w
  lenMod := .ll
  spec := ascii 'd'

theorem parseWidth_lld {w : Nat} (hw : w < 2 ^ 31) (r : List UInt8) :
    parseWidth ((widthDigits w).map (digitCh (ascii 'a')) ++ ascii 'l' :: r) 0 =
      .ok ((w : Int), ascii 'l' :: r) := by
  have hval : digitsValue 0 (widthDigits w) = w := digitsValue_digits w
  have h := parseWidth_digits (widthDigits w) (fun d hd => widthDigits_lt hd) 0 (ascii 'l') r
    (by decide) (by rw [hval]; exact hw)
  rw [hval] at h
  exact h

theorem logParsePad_lld (zero : Bool) (w : Nat) (r : List UInt8) :
    logParsePad ((if zero then [ascii '0'] else []) ++
        ((widthDigits w).map (digitCh (ascii 'a')) ++ ascii 'l' :: r)) =
      .ok (padCh zero, (widthDigits w).map (digitCh (ascii 'a')) ++ ascii 'l' :: r) := by
  cases zero with
  | true => rfl
  | false =>
    -- a width does not begin with a zero
    obtain ⟨c, t, hcons, -, h0, -⟩ := widthDigits_head w r
    show logParsePad ((widthDigits w).map (digitCh (ascii 'a')) ++ ascii 'l' :: r) = _
    rw [hcons]
    simp only [logParsePad, deref, bind, Except.bind, if_neg h0]
    rfl

theorem logNextItem_lld (zero : Bool) {w : Nat} (hw : w < 2 ^ 31) :
    logNextItem (lldFormat zero w).ptr = .ok (.directive (lldDirective zero w), [0]) := by
  have hptr : (lldFormat zero w).ptr = ascii '%' :: ((if zero then [ascii '0'] else []) ++
      ((widthDigits w).map (digitCh (ascii 'a')) ++ ascii 'l' :: [ascii 'l', ascii 'd', 0])) := by
    show lldBytes zero w ++ [0] = _
    unfold lldBytes
    rw [List.cons_append, List.append_assoc, List.append_assoc]
    rfl
  have hpad := logParsePad_lld zero w [ascii 'l', ascii 'd', 0]
  have hwidth := parseWidth_lld hw [ascii 'l', ascii 'd', 0]
  have hfirst : ∃ c, deref ((if zero then [ascii '0'] else []) ++
      ((widthDigits w).map (digitCh (ascii 'a')) ++ ascii 'l' :: [ascii 'l', ascii 'd', 0])) =
        .ok c ∧
        c ≠ ascii '%' := by
    cases zero with
    | true => exact ⟨ascii '0', rfl, by decide⟩
    | false =>
      obtain ⟨c, t, hcons, -, -, -, hpct⟩ := widthDigits_head w [ascii 'l', ascii 'd', 0]
      refine ⟨c, ?_, hpct⟩
      show deref ((widthDigits w).map (digitCh (ascii 'a')) ++
        ascii 'l' :: [ascii 'l', ascii 'd', 0]) = _
      rw [hcons]
      rfl
  obtain ⟨c, hc, hpct⟩ := hfirst
  rw [hptr]
  have hderef : ∀ r, deref (ascii '%' :: r) = .ok (ascii '%') := fun _ => rfl
  unfold logNextItem logParseDirective
  simp only [hderef, List.tail_cons, hc, hpad, hwidth, bind, Except.bind, ne_eq, not_true_eq_false,
    if_false, if_neg hpct]
  rfl

/-! ## The fields -/

/-- The sign of a numeral. -/
def signText (v : Int64) : List UInt8 := if v < 0 then [ascii '-'] else []

/-- The field of `printf`: blanks go in front of the sign, zeroes behind it. -/
def printfField (zero : Bool) (w : Nat) (v : Int64) : List UInt8 :=
  let num := numeral (ascii 'a') 10 v.toInt.natAbs
  let fill := w - (signText v ++ num).length
  if zero then signText v ++ List.replicate fill (ascii '0') ++ num
  else List.replicate fill (ascii ' ') ++ (signText v ++ num)

/-- The characters of the numeral of `v`. -/
def numeralLength (v : Int64) : Nat :=
  (signText v ++ numeral (ascii 'a') 10 v.toInt.natAbs).length

/-- What the log prints: the fill stands behind the sign. -/
theorem signedField_eq (v : Int64) (w : Nat) (pad : UInt8) :
    signedField v w pad = signText v ++ List.replicate (w - numeralLength v) pad ++
      numeral (ascii 'a') 10 v.toInt.natAbs := by
  unfold signedField numeralLength signText uintField
  split
  · have hfill : ((if (0 : Int) < w then (w : Int) - 1 else w) -
        ((numeral (ascii 'a') 10 v.toInt.natAbs).length : Int)).toNat =
          w - ([ascii '-'] ++ numeral (ascii 'a') 10 v.toInt.natAbs).length := by
      rw [List.length_append, List.length_singleton]
      split <;> omega
    rw [hfill]
    rfl
  · have hfill : ((w : Int) - ((numeral (ascii 'a') 10 v.toInt.natAbs).length : Int)).toNat =
        w - ([] ++ numeral (ascii 'a') 10 v.toInt.natAbs).length := by
      rw [List.nil_append]
      omega
    rw [hfill]
    rfl

theorem length_signedField (v : Int64) (w : Nat) (pad : UInt8) :
    (signedField v w pad).length = max w (numeralLength v) := by
  rw [signedField_eq, List.length_append, List.length_append, List.length_replicate]
  have hlen : numeralLength v =
      (signText v).length + (numeral (ascii 'a') 10 v.toInt.natAbs).length := by
    unfold numeralLength
    rw [List.length_append]
  omega

/-- Blanks between the sign and the digits are the one difference. -/
theorem signedField_eq_printfField_iff (zero : Bool) (w : Nat) (v : Int64) :
    signedField v w (padCh zero) = printfField zero w v ↔
      (zero = true ∨ 0 ≤ v ∨ w ≤ numeralLength v) := by
  have hlen : (signText v ++ numeral (ascii 'a') 10 v.toInt.natAbs).length = numeralLength v := rfl
  rw [signedField_eq]
  unfold printfField
  simp only [hlen]
  cases zero with
  | true => exact iff_of_true rfl (.inl rfl)
  | false =>
    have hpad : padCh false = ascii ' ' := rfl
    rw [hpad]
    simp only [Bool.false_eq_true, if_false, false_or]
    by_cases hv : v < 0
    · have hneg : ¬ 0 ≤ v := Int64.not_le.mpr hv
      have hsign : signText v = [ascii '-'] := if_pos hv
      rw [hsign, or_iff_right hneg]
      rcases Nat.eq_zero_or_pos (w - numeralLength v) with hfill | hfill
      · rw [hfill]
        exact iff_of_true rfl (by omega)
      · -- the first character tells the two fields apart
        obtain ⟨k, hk⟩ : ∃ k, w - numeralLength v = k + 1 :=
          ⟨_, (Nat.succ_pred_eq_of_pos hfill).symm⟩
        rw [hk, List.replicate_succ]
        refine iff_of_false (fun heq => ?_) (by omega)
        have hfirst := (List.cons.inj heq).1
        exact absurd hfirst (by decide)
    · have hpos : 0 ≤ v := Int64.not_lt.mp hv
      have hsign : signText v = [] := if_neg hv
      rw [hsign, List.nil_append, List.nil_append]
      exact iff_of_true rfl (.inl hpos)

/-! ## The buffer -/

theorem printedText_lld (strs : Strings) (zero : Bool) {w : Nat} (hw : w < 2 ^ 31) (v : Int64)
    (ap : VaList) :
    printedText strs (lldFormat zero w).ptr (Stream'.cons v.toUInt64 ap) =
      signedField v w (padCh zero) := by
  have hhead : (lldFormat zero w).ptr.head? ≠ some 0 := by
    intro h
    exact absurd (Option.some.inj h) (by decide)
  rw [printedText_step hhead (logNextItem_lld zero hw), if_neg nofun, printedText_zero,
    List.append_nil]
  have harg : signedArg .ll v.toUInt64 = v := Int64.toInt64_toUInt64 v
  show signedField (signedArg .ll v.toUInt64) w (padCh zero) = _
  rw [harg]

theorem endsInDirective_lld (zero : Bool) {w : Nat} (hw : w < 2 ^ 31) :
    endsInDirective (lldFormat zero w).ptr = false := by
  have hhead : (lldFormat zero w).ptr.head? ≠ some 0 := by
    intro h
    exact absurd (Option.some.inj h) (by decide)
  rw [endsInDirective_step hhead (logNextItem_lld zero hw)]
  exact endsInDirective_zero []

/-- With room for the field, the field is what the buffer holds. -/
theorem logVformat_lld (strs : Strings) (dst : Nat → UInt8) {dstSize : Nat} (zero : Bool) {w : Nat}
    (v : Int64) (ap : VaList) (hsize : dstSize < 2 ^ 31)
    (hfit : max w (numeralLength v) < dstSize) :
    ∃ dst', logVformat strs dst dstSize (lldFormat zero w).ptr (Stream'.cons v.toUInt64 ap) =
        .ok (dst', max w (numeralLength v)) ∧
      (List.range (max w (numeralLength v))).map dst' = signedField v w (padCh zero) := by
  have hw : w < 2 ^ 31 := by omega
  have hlen := length_signedField v w (padCh zero)
  rw [logVformat_eq, printedText_lld strs zero hw, endsInDirective_lld zero hw, if_neg nofun, hlen,
    Nat.min_eq_left (by omega), List.take_of_length_le (by omega)]
  refine ⟨_, rfl, ?_⟩
  rw [← hlen]
  rw [map_range_update, map_range_overwrite dst (le_refl _), List.take_length]

/-- The field is the one of `printf`, and no longer than the width and the numeral ask for, exactly
when it is padded with zeroes, the number is not negative, or there is nothing to pad. -/
theorem log_signed_field_printf (strs : Strings) (dst : Nat → UInt8) (dstSize : Nat) (zero : Bool)
    (w : Nat) (v : Int64) (ap : VaList) (hsize : dstSize < 2 ^ 31)
    (hfit : max w (numeralLength v) < dstSize) :
    (∃ dst' n, logVformat strs dst dstSize (lldFormat zero w).ptr (Stream'.cons v.toUInt64 ap) =
        .ok (dst', n) ∧ (List.range n).map dst' = printfField zero w v ∧
        n ≤ max w (numeralLength v)) ↔
      (zero = true ∨ 0 ≤ v ∨ w ≤ numeralLength v) := by
  obtain ⟨dst', hrun, htext⟩ := logVformat_lld strs dst zero v ap hsize hfit
  rw [← signedField_eq_printfField_iff, ← htext]
  constructor
  · rintro ⟨d, n, hok, hfield, -⟩
    rw [hrun] at hok
    cases hok
    exact hfield
  · intro hfield
    exact ⟨dst', _, hrun, hfield, Nat.le_refl _⟩

/-- `%06lld` of -42. -/
theorem log_zero_padded_minus_42 :
    ∃ dst' n, logVformat (fun _ => lldFormat true 6) (fun _ => 0) 32 (lldFormat true 6).ptr
        (Stream'.cons (-42 : Int64).toUInt64 (Stream'.const 0)) = .ok (dst', n) ∧
      (List.range n).map dst' = printfField true 6 (-42) ∧ n ≤ max 6 (numeralLength (-42)) :=
  (log_signed_field_printf _ _ 32 true 6 (-42) _ (by decide) (by decide +kernel)).mpr (.inl rfl)

/-- `%6lld` of -42 is `"-   42"`, not `"   -42"`. -/
theorem log_blank_padded_minus_42 :
    signedField (-42) 6 (ascii ' ') = "-   42".toList.map ascii ∧
      printfField false 6 (-42) = "   -42".toList.map ascii ∧
      ¬ ∃ dst' n, logVformat (fun _ => lldFormat false 6) (fun _ => 0) 32 (lldFormat false 6).ptr
        (Stream'.cons (-42 : Int64).toUInt64 (Stream'.const 0)) = .ok (dst', n) ∧
        (List.range n).map dst' = printfField false 6 (-42) ∧
        n ≤ max 6 (numeralLength (-42)) := by
  refine ⟨by decide +kernel, by decide +kernel, ?_⟩
  obtain ⟨d, hrun, htext⟩ := logVformat_lld (fun _ => lldFormat false 6) (fun _ => 0) false (w := 6)
    (-42) (Stream'.const 0) (by decide : 32 < 2 ^ 31) (by decide +kernel)
  rintro ⟨dst', n, hok, hfield, -⟩
  rw [hrun] at hok
  cases hok
  rw [htext] at hfield
  exact absurd hfield (by decide +kernel)

end Ccos.Printf
