import Mathlib.Tactic
import Ccos.Printf.Digits
import Ccos.Printf.Truncation

/-!
# The kernel log's formatter

`log_vformat` of `lib/log.c` with its `log_append_*` helpers, and its agreement with `u_vsnprintf`
on the formats both support.  `log_vformat` stops when the buffer is full, `u_vsnprintf` goes on
counting.
-/

namespace Ccos.Printf

open Reasoning.Overwrite

variable {strs : Strings} {ap : VaList} {buf : Nat → UInt8} {p q : List UInt8} {max : Nat}

/-! ## Appending -/

structure LogOut where
  buf : Nat → UInt8
  pos : Nat

def logAppendChar (max : Nat) (o : LogOut) (c : UInt8) : LogOut :=
  if o.pos < max - 1 then { buf := Function.update o.buf o.pos c, pos := o.pos + 1 } else o

/-- `while (more && *pos < max - 1) buf[(*pos)++] = next`, for the bytes of a string and for the
digits in `tmp`, last one first. -/
def logAppendBytes (max : Nat) (o : LogOut) : List UInt8 → LogOut
  | [] => o
  | c :: s =>
    if o.pos < max - 1 then
      logAppendBytes max { buf := Function.update o.buf o.pos c, pos := o.pos + 1 } s
    else o

def logAppendStr (strs : Strings) (max : Nat) (o : LogOut) (s : UInt64) : LogOut :=
  logAppendBytes max o (textAt strs s)

/-- `while (v != 0 && idx < sizeof(tmp))`: the digits, least significant first, that the room left
in `tmp` takes. -/
def logDigits (a : UInt8) (base : Nat) : Nat → Nat → List UInt8
  | 0, _ => []
  | room + 1, v => if v = 0 then [] else digitCh a (v % base) :: logDigits a base room (v / base)

def logAppendPad (max : Nat) (pad : UInt8) : Nat → LogOut → LogOut
  | 0, o => o
  | n + 1, o =>
    if o.pos < max - 1 then
      logAppendPad max pad n { buf := Function.update o.buf o.pos pad, pos := o.pos + 1 }
    else o

def logAppendUint (max : Nat) (o : LogOut) (v : UInt64) (base : Nat) (upper : Bool) (width : Int)
    (pad : UInt8) : LogOut :=
  let tmp := if v = 0 then [ascii '0']
    else logDigits (if upper then ascii 'A' else ascii 'a') base 32 v.toNat
  let width := if width < tmp.length then (tmp.length : Int) else width
  let o := logAppendPad max pad (width - tmp.length).toNat o
  logAppendBytes max o tmp.reverse

/-! ## `log_vformat` -/

structure LogDirective where
  pad : UInt8
  width : Int
  lenMod : LengthMod
  spec : UInt8

inductive LogItem where
  | literal (c : UInt8)
  | directive (d : LogDirective)

def logParsePad (p : List UInt8) : Except StrFault (UInt8 × List UInt8) := do
  if (← deref p) = ascii '0' then return (ascii '0', p.tail) else return (ascii ' ', p)

def logParseLength (p : List UInt8) : Except StrFault (LengthMod × List UInt8) := do
  if (← deref p) = ascii 'l' then
    if (← deref p.tail) = ascii 'l' then return (.ll, p.tail.tail) else return (.l, p.tail)
  else return (.none, p)

/-- What stands behind a `%`, and the pointer to its last character, which may be the terminator. -/
def logParseDirective (p : List UInt8) : Except StrFault (LogDirective × List UInt8) := do
  let (pad, p) ← logParsePad p
  let (width, p) ← parseWidth p 0
  let (lenMod, p) ← logParseLength p
  -- no test for the terminator: it is taken as the specifier
  let spec ← deref p
  return ({ pad, width, lenMod, spec }, p)

/-- The body of the loop up to what it emits, and the pointer of the next turn. -/
def logNextItem (p : List UInt8) : Except StrFault (LogItem × List UInt8) := do
  let c ← deref p
  if c ≠ ascii '%' then return (.literal c, p.tail)
  if (← deref p.tail) = ascii '%' then return (.literal (ascii '%'), p.tail.tail)
  let (d, q) ← logParseDirective p.tail
  return (.directive d, q.tail)

/-- The switch on the specifier. -/
def logOutDirective (strs : Strings) (max : Nat) (d : LogDirective) (ap : VaList) (o : LogOut) :
    LogOut × VaList :=
  if d.spec = ascii 's' then (logAppendStr strs max o ap.head, ap.tail)
  else if d.spec = ascii 'c' then (logAppendChar max o ap.head.toUInt8, ap.tail)
  else if d.spec = ascii 'd' ∨ d.spec = ascii 'i' then
    let v := signedArg d.lenMod ap.head
    if v < 0 then
      -- one char used by '-'
      let width := if 0 < d.width then d.width - 1 else d.width
      (logAppendUint max (logAppendChar max o (ascii '-')) (-v).toUInt64 10 false width d.pad,
        ap.tail)
    else (logAppendUint max o v.toUInt64 10 false d.width d.pad, ap.tail)
  else if d.spec = ascii 'u' then
    (logAppendUint max o (unsignedArg d.lenMod ap.head) 10 false d.width d.pad, ap.tail)
  else if d.spec = ascii 'x' ∨ d.spec = ascii 'X' then
    (logAppendUint max o (unsignedArg d.lenMod ap.head) 16
      (decide (d.spec = ascii 'X')) d.width d.pad,
      ap.tail)
  else if d.spec = ascii 'p' then
    -- width and padding are dropped
    let o := logAppendBytes max o [ascii '0', ascii 'x']
    (logAppendUint max o ap.head 16 false 0 (ascii ' '), ap.tail)
  -- an unknown specifier is printed as it stands and reads no argument
  else (logAppendChar max (logAppendChar max o (ascii '%')) d.spec, ap)

def logOutItem (strs : Strings) (max : Nat) (ap : VaList) (o : LogOut) : LogItem → LogOut × VaList
  | .literal c => (logAppendChar max o c, ap)
  | .directive d => logOutDirective strs max d ap o

theorem logParseDirective_suffix {d : LogDirective} (h : logParseDirective p = .ok (d, q)) :
    q <:+ p := by
  obtain ⟨⟨pad, p₁⟩, h₁, h⟩ := Reasoning.bind_eq_ok.mp h
  obtain ⟨⟨w, p₂⟩, h₂, h⟩ := Reasoning.bind_eq_ok.mp h
  obtain ⟨⟨m, p₃⟩, h₃, h⟩ := Reasoning.bind_eq_ok.mp h
  obtain ⟨c, -, h⟩ := Reasoning.bind_eq_ok.mp h
  cases h
  have hpad : p₁ <:+ p := by
    obtain ⟨c, -, h₁⟩ := Reasoning.bind_eq_ok.mp h₁
    split at h₁
    · cases h₁
      exact List.tail_suffix p
    · cases h₁
      exact List.suffix_rfl
  have hlength : q <:+ p₂ := by
    obtain ⟨c, -, h₃⟩ := Reasoning.bind_eq_ok.mp h₃
    split at h₃
    · obtain ⟨c', -, h₃⟩ := Reasoning.bind_eq_ok.mp h₃
      split at h₃
      · cases h₃
        exact (List.tail_suffix _).trans (List.tail_suffix p₂)
      · cases h₃
        exact List.tail_suffix p₂
    · cases h₃
      exact List.suffix_rfl
  exact hlength.trans ((parseWidth_suffix h₂).trans hpad)

theorem logNextItem_length {it : LogItem} (h : logNextItem p = .ok (it, q)) :
    q.length < p.length := by
  obtain ⟨c, hc, h⟩ := Reasoning.bind_eq_ok.mp h
  have hsuffix : q <:+ p.tail := by
    split at h
    · cases h
      exact List.suffix_rfl
    · obtain ⟨c', -, h⟩ := Reasoning.bind_eq_ok.mp h
      split at h
      · cases h
        exact List.tail_suffix p.tail
      · obtain ⟨⟨d, r⟩, hr, h⟩ := Reasoning.bind_eq_ok.mp h
        cases h
        exact (List.tail_suffix r).trans (logParseDirective_suffix hr)
  have hlen := hsuffix.length_le
  rw [deref_ok hc, List.length_cons]
  omega

/-- `for (p = fmt; *p && pos < dst_size - 1; ++p)`. -/
def logVformatLoop (strs : Strings) (dstSize : Nat) (p : List UInt8) (ap : VaList) (o : LogOut) :
    Except StrFault LogOut :=
  match deref p with
  | .error e => .error e
  | .ok c =>
    if c ≠ 0 ∧ o.pos < dstSize - 1 then
      match _ : logNextItem p with
      | .error e => .error e
      | .ok (item, q) =>
        logVformatLoop strs dstSize q (logOutItem strs dstSize ap o item).2
          (logOutItem strs dstSize ap o item).1
    else .ok o
termination_by p.length
decreasing_by exact logNextItem_length (by assumption)

/-- The buffer and the result. -/
def logVformat (strs : Strings) (dst : Nat → UInt8) (dstSize : Nat) (fmt : List UInt8)
    (ap : VaList) : Except StrFault ((Nat → UInt8) × Nat) := do
  let o ← logVformatLoop strs dstSize fmt ap { buf := dst, pos := 0 }
  return (Function.update o.buf o.pos 0, o.pos)

/-! ## What the appends leave -/

/-- The output once `text` has been appended. -/
def logWritten (max : Nat) (buf : Nat → UInt8) (text : List UInt8) : LogOut where
  buf := overwrite buf (text.take (max - 1))
  pos := min text.length (max - 1)

theorem logAppendChar_written (text : List UInt8) (c : UInt8) :
    logAppendChar max (logWritten max buf text) c = logWritten max buf (text ++ [c]) := by
  unfold logAppendChar logWritten
  rw [overwrite_take_concat, List.length_append, List.length_singleton]
  simp only
  by_cases hroom : text.length < max - 1
  · rw [Nat.min_eq_left hroom.le, if_pos hroom, if_pos hroom, Nat.min_eq_left hroom]
  · rw [Nat.min_eq_right (by omega), if_neg (lt_irrefl _), if_neg hroom,
      Nat.min_eq_right (by omega)]

/-- A full buffer takes no more. -/
theorem logWritten_full {text : List UInt8} (more : List UInt8)
    (hfull : ¬(logWritten max buf text).pos < max - 1) :
    logWritten max buf (text ++ more) = logWritten max buf text := by
  have hle : max - 1 ≤ text.length := by
    unfold logWritten at hfull
    simp only at hfull
    omega
  unfold logWritten
  rw [List.take_append_of_le_length hle, List.length_append, Nat.min_eq_right hle,
    Nat.min_eq_right (by omega)]

theorem logAppendBytes_written (text str : List UInt8) :
    logAppendBytes max (logWritten max buf text) str = logWritten max buf (text ++ str) := by
  induction str generalizing text with
  | nil =>
    rw [List.append_nil]
    rfl
  | cons c str ih =>
    unfold logAppendBytes
    split
    · rename_i hroom
      have hchar : logAppendChar max (logWritten max buf text) c = _ := logAppendChar_written text c
      unfold logAppendChar at hchar
      rw [if_pos hroom] at hchar
      rw [hchar, ih, List.append_assoc]
      rfl
    · rename_i hfull
      exact (logWritten_full _ hfull).symm

theorem logDigits_eq {base : Nat} (hb : 1 < base) (a : UInt8) {room v : Nat} (h : v < base ^ room) :
    logDigits a base room v = (Nat.digits base v).map (digitCh a) := by
  induction room generalizing v with
  | zero =>
    have h0 : v = 0 := by
      rw [pow_zero] at h
      omega
    rw [h0, Nat.digits_zero]
    rfl
  | succ room ih =>
    unfold logDigits
    split
    · rename_i hv
      rw [hv, Nat.digits_zero]
      rfl
    · rename_i hv
      have hdiv : v / base < base ^ room := by
        apply Nat.div_lt_of_lt_mul
        rw [← pow_succ']
        exact h
      rw [ih hdiv, Nat.digits_def' hb (Nat.pos_of_ne_zero hv)]
      rfl

theorem logAppendPad_written (text : List UInt8) (pad : UInt8) (n : Nat) :
    logAppendPad max pad n (logWritten max buf text) =
      logWritten max buf (text ++ List.replicate n pad) := by
  induction n generalizing text with
  | zero =>
    rw [List.replicate_zero, List.append_nil]
    rfl
  | succ n ih =>
    unfold logAppendPad
    split
    · rename_i hroom
      have hchar : logAppendChar max (logWritten max buf text) pad = _ :=
        logAppendChar_written text pad
      unfold logAppendChar at hchar
      rw [if_pos hroom] at hchar
      rw [hchar, ih, List.append_assoc]
      rfl
    · rename_i hfull
      exact (logWritten_full _ hfull).symm

/-- The numeral of a number, padded on the left to `width` characters. -/
def uintField (a : UInt8) (base n : Nat) (width : Int) (pad : UInt8) : List UInt8 :=
  List.replicate (width - (numeral a base n).length).toNat pad ++ numeral a base n

theorem logAppendUint_field (text : List UInt8) (v : UInt64) {base : Nat} (hb : 10 ≤ base)
    (upper : Bool) (width : Int) (pad : UInt8) :
    logAppendUint max (logWritten max buf text) v base upper width pad =
      logWritten max buf (text ++
        uintField (if upper then ascii 'A' else ascii 'a') base v.toNat width pad) := by
  have hfits : v.toNat < base ^ 32 := by
    have hlt : v.toNat < 2 ^ 64 := v.toNat_lt
    have hpow : 10 ^ 32 ≤ base ^ 32 := Nat.pow_le_pow_left hb 32
    omega
  have hzero : v = 0 ↔ v.toNat = 0 := by
    rw [← UInt64.toNat_inj]
    rfl
  unfold logAppendUint
  rw [logDigits_eq (by omega) _ hfits]
  generalize htmp : (if v = 0 then [ascii '0'] else
    (Nat.digits base v.toNat).map (digitCh (if upper then ascii 'A' else ascii 'a'))) = tmp
  have hrev : tmp.reverse = numeral (if upper then ascii 'A' else ascii 'a') base v.toNat := by
    unfold numeral
    rw [← htmp]
    simp only [hzero]
    split
    · rfl
    · rw [List.map_reverse]
  have hlen : tmp.length =
      (numeral (if upper then ascii 'A' else ascii 'a') base v.toNat).length := by
    rw [← hrev, List.length_reverse]
  have hpad : ((if width < (tmp.length : Int) then (tmp.length : Int) else width) -
      tmp.length).toNat = (width - tmp.length).toNat := by
    split <;> omega
  simp only [hpad, hrev, logAppendPad_written, logAppendBytes_written]
  rw [hlen, List.append_assoc]
  rfl

/-- Without a width, the numeral is all that is appended. -/
theorem logAppendUint_written (text : List UInt8) (v : UInt64) {base : Nat} (hb : 10 ≤ base)
    (upper : Bool) (pad : UInt8) :
    logAppendUint max (logWritten max buf text) v base upper 0 pad =
      logWritten max buf
        (text ++ numeral (if upper then ascii 'A' else ascii 'a') base v.toNat) := by
  rw [logAppendUint_field text v hb]
  unfold uintField
  have hnone :
      (0 - ((numeral (if upper then ascii 'A' else ascii 'a') base v.toNat).length : Int)).toNat
      = 0 := by omega
  rw [hnone]
  rfl

/-! ## Formats both engines support -/

inductive Conversion where
  | s | c | d | i | u | x | upperX | p
  deriving DecidableEq, Repr

def Conversion.char : Conversion → UInt8
  | .s => ascii 's'
  | .c => ascii 'c'
  | .d => ascii 'd'
  | .i => ascii 'i'
  | .u => ascii 'u'
  | .x => ascii 'x'
  | .upperX => ascii 'X'
  | .p => ascii 'p'

inductive LongMod where
  | none | l | ll
  deriving DecidableEq, Repr

def LongMod.bytes : LongMod → List UInt8
  | .none => []
  | .l => [ascii 'l']
  | .ll => [ascii 'l', ascii 'l']

def LongMod.lengthMod : LongMod → LengthMod
  | .none => .none
  | .l => .l
  | .ll => .ll

/-- A piece of a format: a literal character, `%%`, or a directive without flags, width or
precision. -/
inductive Piece where
  | literal (c : UInt8) (nonzero : c ≠ 0) (plain : c ≠ ascii '%')
  | percent
  | conv (m : LongMod) (k : Conversion)

def Piece.bytes : Piece → List UInt8
  | .literal c _ _ => [c]
  | .percent => [ascii '%', ascii '%']
  | .conv m k => ascii '%' :: (m.bytes ++ [k.char])

/-- The format string that the pieces spell. -/
def formatOf (pieces : List Piece) : List UInt8 :=
  pieces.flatMap Piece.bytes ++ [0]

/-- What a directive prints. -/
def convText (strs : Strings) (m : LongMod) (k : Conversion) (slot : UInt64) : List UInt8 :=
  match k with
  | .s => textAt strs slot
  | .c => [slot.toUInt8]
  | .d | .i =>
    let v := signedArg m.lengthMod slot
    (if v < 0 then [ascii '-'] else []) ++ numeral (ascii 'a') 10 v.toInt.natAbs
  | .u => numeral (ascii 'a') 10 (unsignedArg m.lengthMod slot).toNat
  | .x => numeral (ascii 'a') 16 (unsignedArg m.lengthMod slot).toNat
  | .upperX => numeral (ascii 'A') 16 (unsignedArg m.lengthMod slot).toNat
  | .p => [ascii '0', ascii 'x'] ++ numeral (ascii 'a') 16 slot.toNat

def pieceText (strs : Strings) (ap : VaList) : Piece → List UInt8 × VaList
  | .literal c _ _ => ([c], ap)
  | .percent => ([ascii '%'], ap)
  | .conv m k => (convText strs m k ap.head, ap.tail)

def piecesText (strs : Strings) : List Piece → VaList → List UInt8
  | [], _ => []
  | piece :: pieces, ap =>
    (pieceText strs ap piece).1 ++ piecesText strs pieces (pieceText strs ap piece).2

/-! ### `log_vformat` prints the pieces -/

/-- The directive that `log_vformat` reads for a conversion. -/
def logConv (m : LongMod) (k : Conversion) : LogDirective where
  pad := ascii ' '
  width := 0
  lenMod := m.lengthMod
  spec := k.char

theorem logNextItem_conv (m : LongMod) (k : Conversion) (rest : List UInt8) :
    logNextItem ((Piece.conv m k).bytes ++ rest) = .ok (.directive (logConv m k), rest) := by
  cases m <;> cases k <;> rfl

/-- What `log_vformat` appends for a conversion. -/
theorem logOutDirective_written (text : List UInt8) (m : LongMod) (k : Conversion) :
    logOutDirective strs max (logConv m k) ap (logWritten max buf text) =
      (logWritten max buf (text ++ convText strs m k ap.head), ap.tail) := by
  have hsigned : (if signedArg m.lengthMod ap.head < 0 then
        (logAppendUint max (logAppendChar max (logWritten max buf text) (ascii '-'))
          (-signedArg m.lengthMod ap.head).toUInt64 10 false 0 (ascii ' '), ap.tail)
      else (logAppendUint max (logWritten max buf text) (signedArg m.lengthMod ap.head).toUInt64 10
        false 0 (ascii ' '), ap.tail)) =
      (logWritten max buf (text ++ convText strs m .d ap.head), ap.tail) := by
    have hmag := magnitude (signedArg m.lengthMod ap.head)
    unfold convText
    simp only
    split
    · rename_i hv
      rw [if_pos hv] at hmag
      rw [logAppendChar_written, logAppendUint_written _ _ (by decide), hmag, List.append_assoc]
      rfl
    · rename_i hv
      rw [if_neg hv] at hmag
      rw [logAppendUint_written _ _ (by decide), hmag]
      rfl
  cases k with
  | s => exact congrArg (·, ap.tail) (logAppendBytes_written text _)
  | c => exact congrArg (·, ap.tail) (logAppendChar_written text _)
  | d => exact hsigned
  | i => exact hsigned
  | u => exact congrArg (·, ap.tail) (logAppendUint_written text _ (by decide) false _)
  | x => exact congrArg (·, ap.tail) (logAppendUint_written text _ (by decide) false _)
  | upperX => exact congrArg (·, ap.tail) (logAppendUint_written text _ (by decide) true _)
  | p =>
    show (logAppendUint max (logAppendBytes max (logWritten max buf text) [ascii '0', ascii 'x'])
      ap.head 16 false 0 (ascii ' '), ap.tail) = _
    rw [logAppendBytes_written, logAppendUint_written _ _ (by decide), List.append_assoc]
    rfl

theorem logOutItem_written (strs : Strings) (ap : VaList) (buf : Nat → UInt8) (max : Nat)
    (text : List UInt8) (piece : Piece) (rest : List UInt8) :
    ∃ it, logNextItem (piece.bytes ++ rest) = .ok (it, rest) ∧
      logOutItem strs max ap (logWritten max buf text) it =
        (logWritten max buf (text ++ (pieceText strs ap piece).1),
          (pieceText strs ap piece).2) := by
  cases piece with
  | literal c h0 hp =>
    refine ⟨.literal c, ?_, congrArg (·, ap) (logAppendChar_written text c)⟩
    show logNextItem (c :: rest) = _
    simp only [logNextItem, deref, bind, Except.bind, if_pos hp]
    rfl
  | percent =>
    exact ⟨.literal (ascii '%'), rfl, congrArg (·, ap) (logAppendChar_written text _)⟩
  | conv m k =>
    exact ⟨.directive (logConv m k), logNextItem_conv m k rest, logOutDirective_written text m k⟩

theorem Piece.bytes_head (piece : Piece) : ∃ c r, piece.bytes = c :: r ∧ c ≠ 0 := by
  cases piece with
  | literal c h0 hp => exact ⟨c, [], rfl, h0⟩
  | percent => exact ⟨ascii '%', _, rfl, by decide⟩
  | conv m k => exact ⟨ascii '%', _, rfl, by decide⟩

theorem formatOf_cons (piece : Piece) (pieces : List Piece) :
    formatOf (piece :: pieces) = piece.bytes ++ formatOf pieces := by
  unfold formatOf
  rw [List.flatMap_cons, List.append_assoc]

/-- The loop of `log_vformat` appends the text of the pieces, as far as there is room. -/
theorem logVformatLoop_written (pieces : List Piece) (ap : VaList) (text : List UInt8) :
    logVformatLoop strs max (formatOf pieces) ap (logWritten max buf text) =
      .ok (logWritten max buf (text ++ piecesText strs pieces ap)) := by
  induction pieces generalizing ap text with
  | nil =>
    rw [logVformatLoop]
    show (.ok _ : Except StrFault LogOut) = _
    rw [piecesText, List.append_nil]
  | cons piece pieces ih =>
    obtain ⟨c, r, hhead, hc⟩ := piece.bytes_head
    obtain ⟨it, hit, hout⟩ := logOutItem_written strs ap buf max text piece (formatOf pieces)
    have hderef : deref (formatOf (piece :: pieces)) = .ok c := by
      rw [formatOf_cons, hhead]
      rfl
    rw [logVformatLoop, hderef]
    simp only
    split
    · rw [formatOf_cons]
      split
      · rename_i hnext
        rw [hit] at hnext
        cases hnext
      · rename_i hnext
        rw [hit] at hnext
        cases hnext
        rw [hout, ih, piecesText, List.append_assoc]
    · -- no room: the rest of the format is not even scanned
      rename_i hfull
      rw [logWritten_full]
      intro hroom
      exact hfull ⟨hc, hroom⟩

/-! ### `u_vsnprintf` prints the pieces -/

/-- The directive that `u_vsnprintf` reads for a conversion. -/
def uConv (m : LongMod) (k : Conversion) : Directive where
  leftAdjust := false
  zeroPad := false
  width := 0
  lengthMod := m.lengthMod
  spec := k.char

theorem nextItem_conv (m : LongMod) (k : Conversion) (rest : List UInt8) :
    nextItem ((Piece.conv m k).bytes ++ rest) = .ok (some (.directive (uConv m k), rest)) := by
  cases m <;> cases k <;> rfl

/-- The case fix-up of `%X` turns one numeral into the other. -/
theorem map_upperCh_numeral (n : Nat) :
    (numeral (ascii 'a') 16 n).map upperCh = numeral (ascii 'A') 16 n := by
  unfold numeral
  split
  · rfl
  · rw [List.map_map]
    apply List.map_congr_left
    intro d hd
    have hlt : d < 16 := Nat.digits_lt_base (by decide) (List.mem_reverse.mp hd)
    show upperCh (digitCh (ascii 'a') d) = digitCh (ascii 'A') d
    interval_cases d <;> rfl

theorem formatValue_conv (m : LongMod) (k : Conversion) (slot : UInt64) :
    formatValue strs (uConv m k) slot = some (convText strs m k slot, false) := by
  have hsigned : uItoa (signedArg m.lengthMod slot) 10 true = convText strs m .d slot := by
    rw [uItoa_signed]
    unfold convText
    simp only
    split <;> rfl
  cases k with
  | s => rfl
  | c => rfl
  | d =>
    show some (uItoa (signedArg m.lengthMod slot) 10 true, false) = _
    rw [hsigned]
  | i =>
    show some (uItoa (signedArg m.lengthMod slot) 10 true, false) = _
    rw [hsigned]
    rfl
  | u =>
    show some (uItoa (unsignedArg m.lengthMod slot).toInt64 10 false, false) = _
    rw [uItoa_unsigned _ (by decide)]
    rfl
  | x =>
    show some (uItoa (unsignedArg m.lengthMod slot).toInt64 16 false, false) = _
    rw [uItoa_unsigned _ (by decide)]
    rfl
  | upperX =>
    show some ((uItoa (unsignedArg m.lengthMod slot).toInt64 16 false).map upperCh, false) = _
    rw [uItoa_unsigned _ (by decide), map_upperCh_numeral]
    rfl
  | p =>
    show some (ascii '0' :: ascii 'x' :: uItoa slot.toInt64 16 false, false) = _
    rw [uItoa_unsigned _ (by decide)]
    rfl

theorem nextItem_piece (piece : Piece) (rest : List UInt8) :
    ∃ it, nextItem (piece.bytes ++ rest) = .ok (some (it, rest)) ∧
      itemText strs ap it = pieceText strs ap piece := by
  cases piece with
  | literal c h0 hp => exact ⟨.literal c, nextItem_literal h0 hp, rfl⟩
  | percent => exact ⟨.literal (ascii '%'), nextItem_percent, rfl⟩
  | conv m k =>
    refine ⟨.directive (uConv m k), nextItem_conv m k rest, ?_⟩
    unfold itemText
    simp only [formatValue_conv]
    rfl

theorem fullText_formatOf (pieces : List Piece) (ap : VaList) :
    fullText strs (formatOf pieces) ap = piecesText strs pieces ap := by
  induction pieces generalizing ap with
  | nil => exact fullText_done rfl
  | cons piece pieces ih =>
    obtain ⟨it, hit, htext⟩ := nextItem_piece piece (formatOf pieces)
    rw [formatOf_cons, fullText_item hit, htext, ih, piecesText]

/-! ## Agreement -/

theorem zero_mem_formatOf (pieces : List Piece) : 0 ∈ formatOf pieces :=
  List.mem_append_right _ (List.mem_singleton.mpr rfl)

/-- `log_vformat` and `u_vsnprintf` leave the same bytes up to and including the terminator, at
every size. -/
theorem log_vformat_eq_u_vsnprintf (strs : Strings) (pieces : List Piece) (ap : VaList) (size : Nat)
    (hsize : 1 ≤ size) (dst buf : Nat → UInt8) :
    ∃ dst' pos buf' n,
      logVformat strs dst size (formatOf pieces) ap = .ok (dst', pos) ∧
      uVsnprintf strs buf size (formatOf pieces) ap = .ok (buf', n) ∧
      pos = min (fullText strs (formatOf pieces) ap).length (size - 1) ∧
      dst' pos = 0 ∧ ∀ i, i ≤ pos → dst' i = buf' i := by
  have hinit : (⟨dst, 0⟩ : LogOut) = logWritten size dst [] := by
    unfold logWritten
    rw [List.take_nil, overwrite_nil, List.length_nil, Nat.zero_min]
  have hlog : logVformat strs dst size (formatOf pieces) ap =
      .ok (Function.update (overwrite dst ((piecesText strs pieces ap).take (size - 1)))
        (min (piecesText strs pieces ap).length (size - 1)) 0,
        min (piecesText strs pieces ap).length (size - 1)) := by
    unfold logVformat
    rw [hinit, logVformatLoop_written, List.nil_append]
    rfl
  have hu := uVsnprintf_eq strs buf ap (zero_mem_formatOf pieces) size
  rw [if_pos (by omega), fullText_formatOf] at hu
  rw [fullText_formatOf]
  refine ⟨_, _, _, _, hlog, hu, rfl, Function.update_self .., ?_⟩
  intro i hi
  rcases hi.eq_or_lt with heq | hlt
  · rw [heq, Function.update_self, Function.update_self]
  · have hin : i < ((piecesText strs pieces ap).take (size - 1)).length := by
      rw [List.length_take, Nat.min_comm]
      exact hlt
    rw [Function.update_of_ne hlt.ne, Function.update_of_ne hlt.ne, overwrite_inside _ hin,
      overwrite_inside _ hin]

/-- `%d:%llX%%` of -5 and 48879 in twelve bytes. -/
theorem log_vformat_eq_u_vsnprintf_sample :
    ∃ dst' pos buf' n,
      logVformat (fun _ => ⟨[], nofun⟩) (fun _ => 1) 12
        (formatOf [.conv .none .d, .literal (ascii ':') (by decide) (by decide), .conv .ll .upperX,
          .percent]) (Stream'.cons 0xfffffffffffffffb (fun _ => 48879)) = .ok (dst', pos) ∧
      uVsnprintf (fun _ => ⟨[], nofun⟩) (fun _ => 2) 12
        (formatOf [.conv .none .d, .literal (ascii ':') (by decide) (by decide), .conv .ll .upperX,
          .percent]) (Stream'.cons 0xfffffffffffffffb (fun _ => 48879)) = .ok (buf', n) ∧
      dst' pos = 0 ∧ ∀ i, i ≤ pos → dst' i = buf' i := by
  obtain ⟨dst', pos, buf', n, hlog, hu, -, hnul, hsame⟩ :=
    log_vformat_eq_u_vsnprintf (fun _ => ⟨[], nofun⟩)
      [.conv .none .d, .literal (ascii ':') (by decide) (by decide), .conv .ll .upperX, .percent]
      (Stream'.cons 0xfffffffffffffffb (fun _ => 48879)) 12 (by decide) (fun _ => 1) (fun _ => 2)
  exact ⟨dst', pos, buf', n, hlog, hu, hnul, hsame⟩

end Ccos.Printf
