import Mathlib.Tactic
import Ccos.Printf.Digits
import Ccos.Printf.Truncation

/-!
# `u_atol` after `u_snprintf`

Formatting a number with a width and reading it back.  The zeroes of the `0` flag stand before the
sign, so the numbers that come back are those with no zero between the margin and a minus sign.
-/

namespace Ccos.Printf

/-! ## The format -/

inductive Flag where
  | none | zero | minus
  deriving DecidableEq, Repr

def Flag.bytes : Flag → List UInt8
  | .none => []
  | .zero => [ascii '0']
  | .minus => [ascii '-']

/-- The digits of a width; no digit for the width 0. -/
def widthDigits (w : Nat) : List Nat :=
  (Nat.digits 10 w).reverse

theorem widthDigits_lt {w d : Nat} (h : d ∈ widthDigits w) : d < 10 :=
  Nat.digits_lt_base (by decide) (List.mem_reverse.mp h)

theorem digitCh_toNat {a : UInt8} {d : Nat} (h : d < 10) : (digitCh a d).toNat = 48 + d := by
  unfold digitCh
  rw [if_pos h]
  interval_cases d <;> rfl

/-- `%<flag><w>ld`. -/
def ldFormat (flag : Flag) (w : Nat) : CString where
  bytes := ascii '%' :: (flag.bytes ++ (widthDigits w).map (digitCh (ascii 'a')) ++
    [ascii 'l', ascii 'd'])
  nonzero := by
    intro c hc
    rcases List.mem_cons.mp hc with hc | hc
    · rw [hc]
      decide
    · rcases List.mem_append.mp hc with hc | hc
      · rcases List.mem_append.mp hc with hc | hc
        · cases flag <;> simp only [Flag.bytes, List.mem_singleton, List.not_mem_nil] at hc
          · rw [hc]
            decide
          · rw [hc]
            decide
        · obtain ⟨d, hd, rfl⟩ := List.mem_map.mp hc
          intro h0
          have hnat : (digitCh (ascii 'a') d).toNat = 48 + d := digitCh_toNat (widthDigits_lt hd)
          rw [h0, UInt8.toNat_zero] at hnat
          omega
      · simp only [List.mem_cons, List.not_mem_nil, or_false] at hc
        rcases hc with hc | hc <;> rw [hc] <;> decide

/-! ## Parsing it -/

theorem isDigitCh_digitCh {a : UInt8} {d : Nat} (h : d < 10) : isDigitCh (digitCh a d) = true := by
  unfold digitCh
  rw [if_pos h]
  interval_cases d <;> decide

/-- The number that digits denote, most significant first, behind those already read. -/
def digitsValue (acc : Nat) (ds : List Nat) : Nat :=
  ds.foldl (fun v d => v * 10 + d) acc

theorem le_digitsValue (acc : Nat) (ds : List Nat) : acc ≤ digitsValue acc ds := by
  induction ds generalizing acc with
  | nil => exact le_rfl
  | cons d ds ih =>
    have hle : acc * 10 + d ≤ digitsValue (acc * 10 + d) ds := ih (acc * 10 + d)
    show acc ≤ digitsValue (acc * 10 + d) ds
    omega

theorem digitsValue_digits (n : Nat) : digitsValue 0 (Nat.digits 10 n).reverse = n := by
  have hof := Nat.ofDigits_digits 10 n
  rw [Nat.ofDigits_eq_foldr] at hof
  unfold digitsValue
  rw [List.foldl_reverse]
  refine Eq.trans ?_ hof
  congr 1
  funext d v
  rw [Nat.cast_id]
  omega

theorem parseWidth_digits (ds : List Nat) (hds : ∀ d ∈ ds, d < 10) (acc : Nat) (c : UInt8)
    (p : List UInt8) (hc : isDigitCh c = false) (hfit : digitsValue acc ds < 2 ^ 31) :
    parseWidth (ds.map (digitCh (ascii 'a')) ++ c :: p) acc =
      .ok ((digitsValue acc ds : Int), c :: p) := by
  induction ds generalizing acc with
  | nil =>
    show parseWidth (c :: p) acc = _
    unfold parseWidth
    rw [hc]
    rfl
  | cons d ds ih =>
    have hd : d < 10 := hds d List.mem_cons_self
    have hle : acc * 10 + d ≤ digitsValue (acc * 10 + d) ds := le_digitsValue _ ds
    have hfit' : digitsValue (acc * 10 + d) ds < 2 ^ 31 := hfit
    have hstep : toInt32 ((acc : Int) * 10 + ((digitCh (ascii 'a') d).toNat - (ascii '0').toNat)) =
        ((acc * 10 + d : Nat) : Int) := by
      rw [digitCh_toNat hd]
      have hzero : (ascii '0').toNat = 48 := rfl
      rw [hzero, ← toInt32_of_lt (by omega : acc * 10 + d < 2 ^ 31)]
      congr 1
      push_cast
      omega
    show parseWidth (digitCh (ascii 'a') d :: (ds.map (digitCh (ascii 'a')) ++ c :: p)) acc = _
    unfold parseWidth
    rw [isDigitCh_digitCh hd, if_pos rfl, hstep]
    exact ih (fun e he => hds e (List.mem_cons_of_mem d he)) _ hfit'

/-- A width has no leading zero, so its first character, or the one behind an empty width, is no
flag. -/
theorem widthDigits_head (w : Nat) (p : List UInt8) :
    ∃ c r, (widthDigits w).map (digitCh (ascii 'a')) ++ ascii 'l' :: p = c :: r ∧
      c ≠ ascii '-' ∧ c ≠ ascii '0' ∧ c ≠ 0 ∧ c ≠ ascii '%' := by
  by_cases hw : w = 0
  · subst hw
    exact ⟨ascii 'l', p, by simp [widthDigits], by decide, by decide, by decide, by decide⟩
  · have hne : Nat.digits 10 w ≠ [] := Nat.digits_ne_nil_iff_ne_zero.mpr hw
    have hlast : (Nat.digits 10 w).getLast hne ≠ 0 := Nat.getLast_digit_ne_zero 10 hw
    have hlt : (Nat.digits 10 w).getLast hne < 10 :=
      Nat.digits_lt_base (by decide) (List.getLast_mem hne)
    have hcons : widthDigits w =
        (Nat.digits 10 w).getLast hne :: (Nat.digits 10 w).dropLast.reverse := by
      unfold widthDigits
      conv_lhs => rw [← List.dropLast_append_getLast hne]
      rw [List.reverse_append]
      rfl
    generalize (Nat.digits 10 w).getLast hne = d at hlast hlt hcons
    rw [hcons]
    refine ⟨digitCh (ascii 'a') d, _, rfl, ?_⟩
    interval_cases d <;> first | exact absurd rfl hlast | decide

/-- The directive that the format stands for. -/
def ldDirective (flag : Flag) (w : Nat) : Directive where
  leftAdjust := decide (flag = .minus)
  zeroPad := decide (flag = .zero)
  width := w
  lengthMod := .l
  spec := ascii 'd'

theorem parseFlags_stop {c : UInt8} {p : List UInt8} {l z : Bool} (hm : c ≠ ascii '-')
    (hz : c ≠ ascii '0') : parseFlags (c :: p) l z = .ok (l, z, c :: p) := by
  unfold parseFlags
  rw [if_neg hm, if_neg hz]

theorem parseFlags_flag (flag : Flag) {c : UInt8} {p : List UInt8} (hm : c ≠ ascii '-')
    (hz : c ≠ ascii '0') :
    parseFlags (flag.bytes ++ c :: p) false false =
      .ok (decide (flag = .minus), decide (flag = .zero), c :: p) := by
  cases flag with
  | none => exact parseFlags_stop hm hz
  | zero => exact parseFlags_stop hm hz
  | minus => exact parseFlags_stop hm hz

theorem parseDirective_ld (flag : Flag) {w : Nat} (hw : w < 2 ^ 31) :
    parseDirective (flag.bytes ++
      ((widthDigits w).map (digitCh (ascii 'a')) ++ [ascii 'l', ascii 'd', 0])) =
      .ok (some (ldDirective flag w, [ascii 'd', 0])) := by
  obtain ⟨c, r, hcons, hm, hz, -, -⟩ := widthDigits_head w [ascii 'd', 0]
  have hwidth := parseWidth_digits (widthDigits w) (fun d hd => widthDigits_lt hd) 0 (ascii 'l')
    [ascii 'd', 0] (by decide) (by rw [widthDigits, digitsValue_digits]; exact hw)
  rw [widthDigits, digitsValue_digits, ← widthDigits] at hwidth
  have hwidth' : parseWidth (c :: r) 0 = .ok ((w : Int), [ascii 'l', ascii 'd', 0]) := by
    rw [← hcons]
    exact hwidth
  unfold parseDirective
  rw [hcons, parseFlags_flag flag hm hz]
  simp only [bind, Except.bind, hwidth']
  rfl

theorem nextItem_ld (flag : Flag) {w : Nat} (hw : w < 2 ^ 31) :
    nextItem (ldFormat flag w).ptr = .ok (some (.directive (ldDirective flag w), [0])) := by
  have hptr : (ldFormat flag w).ptr = ascii '%' :: (flag.bytes ++
      ((widthDigits w).map (digitCh (ascii 'a')) ++ [ascii 'l', ascii 'd', 0])) := by
    simp [CString.ptr, ldFormat]
  have hhead : ∃ c r, flag.bytes ++ ((widthDigits w).map (digitCh (ascii 'a')) ++
      [ascii 'l', ascii 'd', 0]) = c :: r ∧ c ≠ 0 ∧ c ≠ ascii '%' := by
    obtain ⟨c, r, hcons, -, -, h0, hp⟩ := widthDigits_head w [ascii 'd', 0]
    rw [hcons]
    cases flag with
    | none => exact ⟨c, r, rfl, h0, hp⟩
    | zero => exact ⟨ascii '0', _, rfl, by decide, by decide⟩
    | minus => exact ⟨ascii '-', _, rfl, by decide, by decide⟩
  obtain ⟨c, r, hcons, h0, hp⟩ := hhead
  have hdir := parseDirective_ld flag hw
  rw [hcons] at hdir
  rw [hptr, hcons]
  exact nextItem_directive h0 hp hdir

theorem fullText_ld (strs : Strings) (flag : Flag) {w : Nat} (hw : w < 2 ^ 31) (v : Int64)
    (ap : VaList) :
    fullText strs (ldFormat flag w).ptr (Stream'.cons v.toUInt64 ap) =
      padded (ldDirective flag w) (uItoa v 10 true) (decide (flag = .zero)) := by
  have hend : nextItem [0] = .ok none := rfl
  rw [fullText_item (nextItem_ld flag hw), fullText_done hend, List.append_nil]
  rfl

/-! ## Reading back -/

theorem skipSpaces_replicate (n : Nat) {c : UInt8} (p : List UInt8) (hc : isSpaceCh c = false) :
    skipSpaces (List.replicate n (ascii ' ') ++ c :: p) = .ok (c :: p) := by
  induction n with
  | zero =>
    show skipSpaces (c :: p) = _
    unfold skipSpaces
    rw [hc]
    rfl
  | succ n ih => exact ih

theorem atolDigits_digits (ds : List Nat) (hds : ∀ d ∈ ds, d < 10) (acc : Nat) {c : UInt8}
    (p : List UInt8) (hc : isDigitCh c = false) :
    atolDigits (ds.map (digitCh (ascii 'a')) ++ c :: p) (Int64.ofNat acc) =
      .ok (Int64.ofNat (digitsValue acc ds)) := by
  induction ds generalizing acc with
  | nil =>
    show atolDigits (c :: p) _ = _
    unfold atolDigits
    rw [hc]
    rfl
  | cons d ds ih =>
    have hd : d < 10 := hds d List.mem_cons_self
    have hval : ((digitCh (ascii 'a') d).toNat : Int) - (ascii '0').toNat = (d : Int) := by
      rw [digitCh_toNat hd]
      have hzero : (ascii '0').toNat = 48 := rfl
      rw [hzero]
      omega
    have hstep : Int64.ofNat acc * 10 +
        Int64.ofInt ((digitCh (ascii 'a') d).toNat - (ascii '0').toNat) =
          Int64.ofNat (acc * 10 + d) := by
      rw [hval, Int64.ofInt_eq_ofNat, Int64.ofNat_add, Int64.ofNat_mul]
      rfl
    show atolDigits (digitCh (ascii 'a') d :: (ds.map (digitCh (ascii 'a')) ++ c :: p)) _ = _
    unfold atolDigits
    rw [isDigitCh_digitCh hd, if_pos rfl, hstep]
    exact ih (fun e he => hds e (List.mem_cons_of_mem d he)) _

/-- Blanks, digits, and something else behind them. -/
theorem uAtol_digits (n : Nat) (ds : List Nat) (hds : ∀ d ∈ ds, d < 10) (hne : ds ≠ []) {c : UInt8}
    (p : List UInt8) (hc : isDigitCh c = false) :
    uAtol (List.replicate n (ascii ' ') ++ (ds.map (digitCh (ascii 'a')) ++ c :: p)) =
      .ok (Int64.ofNat (digitsValue 0 ds)) := by
  have hread : atolDigits (ds.map (digitCh (ascii 'a')) ++ c :: p) 0 = _ :=
    atolDigits_digits ds hds 0 p hc
  match ds, hne, hds, hread with
  | d :: ds, _, hds, hread =>
    have hd : d < 10 := hds d List.mem_cons_self
    have hch : isSpaceCh (digitCh (ascii 'a') d) = false ∧ digitCh (ascii 'a') d ≠ ascii '+' ∧
        digitCh (ascii 'a') d ≠ ascii '-' := by
      interval_cases d <;> decide
    obtain ⟨hspace, hplus, hminus⟩ := hch
    rw [List.map_cons, List.cons_append] at hread ⊢
    unfold uAtol
    rw [skipSpaces_replicate n _ hspace]
    simp only [bind, Except.bind, deref, if_neg hplus, if_neg hminus, hread, Int64.one_mul]
    rfl

/-- Blanks, a minus sign, digits, and something else behind them. -/
theorem uAtol_negative (n : Nat) (ds : List Nat) (hds : ∀ d ∈ ds, d < 10) {c : UInt8}
    (p : List UInt8) (hc : isDigitCh c = false) :
    uAtol (List.replicate n (ascii ' ') ++
      ascii '-' :: (ds.map (digitCh (ascii 'a')) ++ c :: p)) =
      .ok (-Int64.ofNat (digitsValue 0 ds)) := by
  have hread : atolDigits (ds.map (digitCh (ascii 'a')) ++ c :: p) 0 = _ :=
    atolDigits_digits ds hds 0 p hc
  have hplus : ascii '-' ≠ ascii '+' := by decide
  unfold uAtol
  rw [skipSpaces_replicate n _ (by decide)]
  simp only [bind, Except.bind, deref, if_neg hplus, if_true, List.tail_cons, hread, Int64.neg_mul,
    Int64.one_mul]
  rfl

/-! ## The text of a number -/

/-- The digits of a numeral in base ten. -/
def numeralDigits (n : Nat) : List Nat :=
  if n = 0 then [0] else (Nat.digits 10 n).reverse

theorem numeral_ten (n : Nat) :
    numeral (ascii 'a') 10 n = (numeralDigits n).map (digitCh (ascii 'a')) := by
  unfold numeral numeralDigits
  split <;> rfl

theorem numeralDigits_lt {n d : Nat} (h : d ∈ numeralDigits n) : d < 10 := by
  unfold numeralDigits at h
  split at h
  · rw [List.mem_singleton.mp h]
    decide
  · exact widthDigits_lt h

theorem numeralDigits_ne_nil (n : Nat) : numeralDigits n ≠ [] := by
  unfold numeralDigits
  split
  · exact List.cons_ne_nil _ _
  · rename_i hn
    rw [Ne, List.reverse_eq_nil_iff]
    exact Nat.digits_ne_nil_iff_ne_zero.mpr hn

theorem digitsValue_numeralDigits (n : Nat) : digitsValue 0 (numeralDigits n) = n := by
  unfold numeralDigits
  split
  · rename_i hn
    rw [hn]
    rfl
  · exact digitsValue_digits n

theorem digitsValue_replicate (n : Nat) (ds : List Nat) :
    digitsValue 0 (List.replicate n 0 ++ ds) = digitsValue 0 ds := by
  induction n with
  | zero => rfl
  | succ n ih => exact ih

/-- How many characters a number takes in base ten, its sign included. -/
def decimalLength (v : Int64) : Nat :=
  (if v < 0 then 1 else 0) + if v = 0 then 1 else (Nat.digits 10 v.toInt.natAbs).length

theorem natAbs_eq_zero {v : Int64} : v.toInt.natAbs = 0 ↔ v = 0 := by
  rw [Int.natAbs_eq_zero, ← Int64.toInt_inj]
  rfl

theorem length_uItoa (v : Int64) : (uItoa v 10 true).length = decimalLength v := by
  have hdigits : (numeral (ascii 'a') 10 v.toInt.natAbs).length =
      if v = 0 then 1 else (Nat.digits 10 v.toInt.natAbs).length := by
    unfold numeral
    simp only [natAbs_eq_zero]
    split
    · rfl
    · rw [List.length_map, List.length_reverse]
  rw [uItoa_signed]
  unfold decimalLength
  split
  · rw [List.length_cons, hdigits, Nat.add_comm]
  · rw [hdigits, Nat.zero_add]

/-- The value that the sign and the magnitude stand for, in two's complement. -/
theorem ofNat_natAbs_neg {v : Int64} (h : v < 0) : -Int64.ofNat v.toInt.natAbs = v := by
  have hlt : v.toInt < 0 := Int64.lt_iff_toInt_lt.mp h
  rw [← Int64.ofInt_eq_ofNat, ← Int64.ofInt_neg]
  have habs : -(v.toInt.natAbs : Int) = v.toInt := by omega
  rw [habs, Int64.ofInt_toInt]

theorem ofNat_natAbs {v : Int64} (h : ¬v < 0) : Int64.ofNat v.toInt.natAbs = v := by
  have hlt : ¬v.toInt < 0 := fun hv => h (Int64.lt_iff_toInt_lt.mpr hv)
  rw [← Int64.ofInt_eq_ofNat]
  have habs : (v.toInt.natAbs : Int) = v.toInt := by omega
  rw [habs, Int64.ofInt_toInt]

/-- Blanks before a number and blanks behind it do not matter. -/
theorem uAtol_uItoa (n m : Nat) (v : Int64) (p : List UInt8) :
    uAtol (List.replicate n (ascii ' ') ++ (uItoa v 10 true ++
      (List.replicate m (ascii ' ') ++ 0 :: p))) = .ok v := by
  have htail : ∃ c r, List.replicate m (ascii ' ') ++ 0 :: p = c :: r ∧ isDigitCh c = false := by
    cases m with
    | zero => exact ⟨0, p, rfl, by decide⟩
    | succ m => exact ⟨ascii ' ', _, rfl, by decide⟩
  obtain ⟨c, r, hcons, hc⟩ := htail
  rw [hcons, uItoa_signed, numeral_ten]
  split
  · rename_i hv
    rw [List.cons_append, uAtol_negative n _ (fun d hd => numeralDigits_lt hd) r hc,
      digitsValue_numeralDigits, ofNat_natAbs_neg hv]
  · rename_i hv
    rw [uAtol_digits n _ (fun d hd => numeralDigits_lt hd) (numeralDigits_ne_nil _) r hc,
      digitsValue_numeralDigits, ofNat_natAbs hv]

theorem replicate_zeroes (n : Nat) :
    List.replicate n (ascii '0') = (List.replicate n 0).map (digitCh (ascii 'a')) := by
  rw [List.map_replicate]
  rfl

/-- Zeroes before a number without a sign do not matter. -/
theorem uAtol_zeroes {v : Int64} (hv : ¬v < 0) (n : Nat) (p : List UInt8) :
    uAtol (List.replicate n (ascii '0') ++ uItoa v 10 true ++ 0 :: p) = .ok v := by
  have hds : ∀ d ∈ List.replicate n 0 ++ numeralDigits v.toInt.natAbs, d < 10 := by
    intro d hd
    rcases List.mem_append.mp hd with hd | hd
    · rw [List.eq_of_mem_replicate hd]
      decide
    · exact numeralDigits_lt hd
  have hne : List.replicate n 0 ++ numeralDigits v.toInt.natAbs ≠ [] :=
    List.append_ne_nil_of_right_ne_nil _ (numeralDigits_ne_nil _)
  rw [uItoa_signed, if_neg hv, numeral_ten, replicate_zeroes, ← List.map_append]
  have hread := uAtol_digits 0 _ hds hne p (by decide : isDigitCh 0 = false)
  rw [digitsValue_replicate, digitsValue_numeralDigits, ofNat_natAbs hv] at hread
  exact hread

/-- Zeroes before a sign hide the number. -/
theorem uAtol_zeroes_sign (n : Nat) (p : List UInt8) :
    uAtol (List.replicate (n + 1) (ascii '0') ++ ascii '-' :: p) = .ok 0 := by
  have hds : ∀ d ∈ List.replicate (n + 1) 0, d < 10 := by
    intro d hd
    rw [List.eq_of_mem_replicate hd]
    decide
  have hread :=
    uAtol_digits 0 _ hds (List.cons_ne_nil _ _) p (by decide : isDigitCh (ascii '-') = false)
  rw [← List.append_nil (List.replicate (n + 1) 0), digitsValue_replicate] at hread
  rw [replicate_zeroes]
  rw [List.append_nil] at hread
  exact hread

/-! ## The round trip -/

/-- A buffer that the text fits, read as a string. -/
theorem buffer_bytes (strs : Strings) (buf : Nat → UInt8) (fmt : CString) (ap : VaList) {size : Nat}
    (hfit : (fullText strs fmt.ptr ap).length < size) :
    ∃ after n p, uSnprintf strs buf size fmt.ptr ap = .ok (after, n) ∧
      (List.range size).map after = fullText strs fmt.ptr ap ++ 0 :: p := by
  have hsize : 0 < size := Nat.zero_lt_of_lt hfit
  have hrun : uSnprintf strs buf size fmt.ptr ap = _ :=
    uVsnprintf_eq strs buf ap fmt.zero_mem_ptr size
  obtain ⟨htext, hnul, -⟩ := terminated_buffer buf (fullText strs fmt.ptr ap) size hsize
  rw [if_pos hsize] at hrun
  generalize Function.update (Reasoning.Overwrite.overwrite buf
    ((fullText strs fmt.ptr ap).take (size - 1))) _ _ = after at hrun htext hnul
  rw [Nat.min_eq_left (by omega)] at htext hnul
  rw [List.take_length] at htext
  -- the cells of the text, the terminator, the rest
  obtain ⟨k, hk⟩ : ∃ k, size = (fullText strs fmt.ptr ap).length + (k + 1) :=
    ⟨size - (fullText strs fmt.ptr ap).length - 1, by omega⟩
  have hcells : (List.range size).map after = fullText strs fmt.ptr ap ++
      0 :: ((List.range k).map Nat.succ).map
        (fun i => after ((fullText strs fmt.ptr ap).length + i)) := by
    rw [hk, List.range_add, List.map_append, htext, List.range_succ_eq_map, List.map_cons,
      List.map_cons, Nat.add_zero, hnul, List.map_map, List.map_map, List.map_map]
    rfl
  exact ⟨after, _, _, hrun, hcells⟩

theorem length_padded (d : Directive) (str : List UInt8) (z : Bool) :
    (padded d str z).length = max str.length d.width.toNat := by
  have hlen : (padded d str z).length = str.length + padLen d str.length := by
    unfold padded
    split
    · rw [List.length_append, List.length_replicate]
    · rw [List.length_append, List.length_replicate, Nat.add_comm]
  rw [hlen]
  unfold padLen
  split <;> omega

/-- Reading back what was formatted with `%<flag><w>ld` gives the number, except where the `0` flag
has put zeroes before a minus sign. -/
theorem u_atol_u_snprintf (strs : Strings) (buf : Nat → UInt8) (size : Nat) (flag : Flag) (w : Nat)
    (v : Int64) (ap : VaList) (hw : w < 2 ^ 31) (hfit : max (decimalLength v) w < size) :
    ∃ after n, uSnprintf strs buf size (ldFormat flag w).ptr (Stream'.cons v.toUInt64 ap) =
        .ok (after, n) ∧
      (uAtol ((List.range size).map after) = .ok v ↔
        ¬(flag = .zero ∧ v < 0 ∧ decimalLength v < w)) := by
  have htext := fullText_ld strs flag hw v ap
  have hlen : (fullText strs (ldFormat flag w).ptr (Stream'.cons v.toUInt64 ap)).length < size := by
    rw [htext, length_padded, length_uItoa]
    exact hfit
  obtain ⟨after, n, p, hrun, hbytes⟩ := buffer_bytes strs buf _ _ hlen
  refine ⟨after, n, hrun, ?_⟩
  rw [hbytes, htext]
  cases flag with
  | none =>
    have hread := uAtol_uItoa (padLen (ldDirective .none w) (uItoa v 10 true).length) 0 v p
    rw [← List.append_assoc] at hread
    exact ⟨fun _ h => (by decide : Flag.none ≠ .zero) h.1, fun _ => hread⟩
  | minus =>
    have hread := uAtol_uItoa 0 (padLen (ldDirective .minus w) (uItoa v 10 true).length) v p
    rw [← List.append_assoc (uItoa v 10 true)] at hread
    exact ⟨fun _ h => (by decide : Flag.minus ≠ .zero) h.1, fun _ => hread⟩
  | zero =>
    show uAtol
      (List.replicate (padLen (ldDirective .zero w) (uItoa v 10 true).length) (ascii '0') ++
      uItoa v 10 true ++ 0 :: p) = .ok v ↔ _
    by_cases hv : v < 0
    · -- the padding stands before the sign, where the reader takes it for the number
      rw [length_uItoa]
      unfold padLen
      split
      · -- zeroes before the sign: what comes back is 0
        rename_i hpad
        obtain ⟨k, hk⟩ : ∃ k, (ldDirective .zero w).width.toNat - decimalLength v = k + 1 :=
          ⟨(ldDirective .zero w).width.toNat - decimalLength v - 1, by omega⟩
        have hdl : decimalLength v < w := hpad.2
        rw [hk, uItoa_signed, if_pos hv, List.append_assoc, List.cons_append, uAtol_zeroes_sign]
        constructor
        · intro h0
          cases h0
          exact absurd hv (by decide)
        · intro hnot
          exact absurd ⟨rfl, hv, hdl⟩ hnot
      · rename_i hpad
        have hread := uAtol_uItoa 0 0 v p
        have hdl : ¬decimalLength v < w := by
          intro hlt
          apply hpad
          constructor
          · show 0 < (w : Int)
            omega
          · exact hlt
        exact ⟨fun _ h => hdl h.2.2, fun _ => hread⟩
    · exact ⟨fun _ h => hv h.2.1, fun _ => uAtol_zeroes hv _ p⟩

theorem u_atol_u_snprintf_plain :
    ∃ after n, uSnprintf (fun _ => ⟨[], nofun⟩) (fun _ => 0) 32 (ldFormat .none 8).ptr
        (Stream'.cons (-42 : Int64).toUInt64 (fun _ => 0)) = .ok (after, n) ∧
      uAtol ((List.range 32).map after) = .ok (-42) := by
  have hlen : decimalLength (-42) = 3 := by decide +kernel
  obtain ⟨after, n, hrun, hread⟩ := u_atol_u_snprintf (fun _ => ⟨[], nofun⟩) (fun _ => 0) 32 .none 8
    (-42) (fun _ => 0) (by decide) (by rw [hlen]; decide)
  exact ⟨after, n, hrun, hread.mpr (by decide)⟩

/-- `%08ld` of -42 is `00000-42`, which reads back as 0. -/
theorem zeroes_before_sign :
    ∃ after n, uSnprintf (fun _ => ⟨[], nofun⟩) (fun _ => 0) 32 (ldFormat .zero 8).ptr
        (Stream'.cons (-42 : Int64).toUInt64 (fun _ => 0)) = .ok (after, n) ∧
      (List.range 9).map after = "00000-42".toList.map ascii ++ [0] ∧
      uAtol ((List.range 32).map after) = .ok 0 ∧ (0 : Int64) ≠ -42 := by
  have hrun := uVsnprintf_eq (fun _ => ⟨[], nofun⟩) (fun _ => 0)
    (Stream'.cons (-42 : Int64).toUInt64 (fun _ => 0)) (ldFormat .zero 8).zero_mem_ptr 32
  refine ⟨_, _, hrun, ?_, ?_, by decide⟩
  · decide +kernel
  · decide +kernel

end Ccos.Printf
