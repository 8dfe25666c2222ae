import Mathlib.Tactic
import Ccos.Reasoning.Overwrite
import Ccos.Reasoning.Run

/-!
# The user library's formatter

`u_itoa`, `out_char`, `u_vsnprintf`, `u_snprintf` and `u_printf` of `user/ulib_stdio.c`, and
`u_atol` of `user/ulib_string.c`.

A string pointer is the list of the bytes it still has before it, the terminator included; `++p` is
`List.tail`, and reading through a pointer that has left its string is a fault.  A `va_list` is the
stream of the 8-byte slots of the call, and `strs` says which string lies at an address.
-/

namespace Ccos.Printf

/-! ## Strings -/

inductive StrFault where
  /-- A read behind the terminator. -/
  | overread
  deriving DecidableEq, Repr

def deref : List UInt8 → Except StrFault UInt8
  | [] => .error .overread
  | c :: _ => .ok c

/-- The bytes of a NUL-terminated string, without the terminator. -/
structure CString where
  bytes : List UInt8
  nonzero : ∀ c ∈ bytes, c ≠ 0

/-- A pointer to the first byte of the string. -/
def CString.ptr (s : CString) : List UInt8 :=
  s.bytes ++ [0]

def ascii (c : Char) : UInt8 :=
  UInt8.ofNat c.toNat

def isDigitCh (c : UInt8) : Bool :=
  decide (ascii '0' ≤ c ∧ c ≤ ascii '9')

def nullText : List UInt8 :=
  "(null)".toList.map ascii

/-- Which string lies at an address. -/
abbrev Strings := UInt64 → CString

/-- The argument slots that are still to be read. -/
abbrev VaList := Stream' UInt64

/-- The bytes `%s` prints for a pointer. -/
def textAt (strs : Strings) (p : UInt64) : List UInt8 :=
  if p = 0 then nullText else (strs p).bytes

/-- `(int)x`. -/
def toInt32 (x : Int) : Int :=
  Int.bmod x (2 ^ 32)

/-! ## `u_itoa` -/

/-- The character of a digit, with `a` for the digit ten. -/
def digitCh (a : UInt8) (d : Nat) : UInt8 :=
  if d < 10 then ascii '0' + UInt8.ofNat d else a + UInt8.ofNat (d - 10)

/-- `while (v > 0)` of `u_itoa`; the bytes from `p` on grow at their front.  The base is 10 or
16. -/
def itoaLoop (base v : Nat) (p : List UInt8) : List UInt8 :=
  if _ : 0 < v ∧ 1 < base then
    itoaLoop base (v / base) (digitCh (ascii 'a') (v % base) :: p)
  else p
termination_by v
decreasing_by exact Nat.div_lt_self (by omega) (by omega)

def uItoa (value : Int64) (base : Nat) (sign : Bool) : List UInt8 :=
  -- the negation wraps for the least value, whose magnitude it still gives
  let v : UInt64 := if sign ∧ value < 0 then (-value).toUInt64 else value.toUInt64
  let p := if v = 0 then [ascii '0'] else itoaLoop base v.toNat []
  if sign ∧ value < 0 then ascii '-' :: p else p

/-! ## The output -/

structure Out where
  buf : Nat → UInt8
  pos : Nat
  total : Nat

def outChar (avail : Nat) (o : Out) (ch : UInt8) : Out where
  buf := if o.pos < avail then Function.update o.buf o.pos ch else o.buf
  -- counted whether or not there was room
  pos := o.pos + 1
  total := o.total + 1

/-- `for (i = 0; i < n; ++i) out_char(ch)`. -/
def outPad (avail : Nat) (ch : UInt8) : Nat → Out → Out
  | 0, o => o
  | n + 1, o => outPad avail ch n (outChar avail o ch)

/-- `for (i = 0; i < len; ++i) out_char(str[i])`. -/
def outText (avail : Nat) (o : Out) (str : List UInt8) : Out :=
  str.foldl (outChar avail) o

/-! ## Directives -/

inductive LengthMod where
  | none | l | ll | z
  deriving DecidableEq, Repr

/-- `%[flags][width][.precision][length]specifier`, less the precision, which is skipped. -/
structure Directive where
  leftAdjust : Bool
  zeroPad : Bool
  width : Int
  lengthMod : LengthMod
  spec : UInt8

/-- What one turn of the loop finds in the format. -/
inductive Item where
  | literal (c : UInt8)
  | directive (d : Directive)

def parseFlags : List UInt8 → Bool → Bool → Except StrFault (Bool × Bool × List UInt8)
  | [], _, _ => .error .overread
  | c :: p, leftAdjust, zeroPad =>
    if c = ascii '-' then parseFlags p true zeroPad
    else if c = ascii '0' then parseFlags p leftAdjust true
    else .ok (leftAdjust, zeroPad, c :: p)

def parseWidth : List UInt8 → Int → Except StrFault (Int × List UInt8)
  | [], _ => .error .overread
  | c :: p, width =>
    if isDigitCh c then parseWidth p (toInt32 (width * 10 + (c.toNat - (ascii '0').toNat)))
    else .ok (width, c :: p)

def skipDigits : List UInt8 → Except StrFault (List UInt8)
  | [] => .error .overread
  | c :: p => if isDigitCh c then skipDigits p else .ok (c :: p)

def skipPrecision (p : List UInt8) : Except StrFault (List UInt8) := do
  if (← deref p) = ascii '.' then skipDigits p.tail else return p

def parseLength (p : List UInt8) : Except StrFault (LengthMod × List UInt8) := do
  let c ← deref p
  if c = ascii 'l' then
    if (← deref p.tail) = ascii 'l' then return (.ll, p.tail.tail) else return (.l, p.tail)
  else if c = ascii 'z' then return (.z, p.tail)
  else return (.none, p)

/-- What stands behind a `%`, and the pointer to its last character; `none` where the format
ends. -/
def parseDirective (p : List UInt8) : Except StrFault (Option (Directive × List UInt8)) := do
  let (leftAdjust, zeroPad, p) ← parseFlags p false false
  let (width, p) ← parseWidth p 0
  let p ← skipPrecision p
  let (lengthMod, p) ← parseLength p
  let spec ← deref p
  -- a format that ends inside a directive prints nothing for it
  if spec = 0 then return none
  return some ({ leftAdjust, zeroPad, width, lengthMod, spec }, p)

/-- One turn of `for (; *fmt; ++fmt)` up to what it emits, and the pointer of the next turn; `none`
where the loop ends. -/
def nextItem (p : List UInt8) : Except StrFault (Option (Item × List UInt8)) := do
  let c ← deref p
  if c = 0 then return none
  if c ≠ ascii '%' then return some (.literal c, p.tail)
  let c ← deref p.tail
  if c = 0 then return none
  if c = ascii '%' then return some (.literal (ascii '%'), p.tail.tail)
  match ← parseDirective p.tail with
  | none => return none
  | some (d, q) => return some (.directive d, q.tail)

/-! ### How far a turn moves the pointer -/

theorem deref_ok {p : List UInt8} {c : UInt8} (h : deref p = .ok c) : p = c :: p.tail := by
  cases p with
  | nil => cases h
  | cons b p =>
    cases h
    rfl

theorem parseFlags_suffix {p q : List UInt8} {l z l' z' : Bool}
    (h : parseFlags p l z = .ok (l', z', q)) : q <:+ p := by
  induction p generalizing l z with
  | nil => cases h
  | cons c p ih =>
    unfold parseFlags at h
    split at h
    · exact (ih h).trans (List.suffix_cons c p)
    · split at h
      · exact (ih h).trans (List.suffix_cons c p)
      · cases h
        exact List.suffix_rfl

theorem parseWidth_suffix {p q : List UInt8} {w w' : Int} (h : parseWidth p w = .ok (w', q)) :
    q <:+ p := by
  induction p generalizing w with
  | nil => cases h
  | cons c p ih =>
    unfold parseWidth at h
    split at h
    · exact (ih h).trans (List.suffix_cons c p)
    · cases h
      exact List.suffix_rfl

theorem skipDigits_suffix {p q : List UInt8} (h : skipDigits p = .ok q) : q <:+ p := by
  induction p with
  | nil => cases h
  | cons c p ih =>
    unfold skipDigits at h
    split at h
    · exact (ih h).trans (List.suffix_cons c p)
    · cases h
      exact List.suffix_rfl

theorem skipPrecision_suffix {p q : List UInt8} (h : skipPrecision p = .ok q) : q <:+ p := by
  cases p with
  | nil => cases h
  | cons c p =>
    change (if c = ascii '.' then skipDigits p else .ok (c :: p)) = .ok q at h
    split at h
    · exact (skipDigits_suffix h).trans (List.suffix_cons c p)
    · cases h
      exact List.suffix_rfl

theorem parseLength_suffix {p q : List UInt8} {m : LengthMod} (h : parseLength p = .ok (m, q)) :
    q <:+ p := by
  cases p with
  | nil => cases h
  | cons c p =>
    unfold parseLength at h
    simp only [deref, bind, Except.bind, List.tail_cons] at h
    split at h
    · cases p with
      | nil => cases h
      | cons b r =>
        simp only at h
        split at h
        · cases h
          exact (List.suffix_cons b r).trans (List.suffix_cons c _)
        · cases h
          exact List.suffix_cons c _
    · split at h
      · cases h
        exact List.suffix_cons c _
      · cases h
        exact List.suffix_rfl

theorem parseDirective_suffix {p q : List UInt8} {d : Directive}
    (h : parseDirective p = .ok (some (d, q))) : q <:+ p := by
  obtain ⟨⟨l, z, p₁⟩, h₁, h⟩ := Reasoning.bind_eq_ok.mp h
  obtain ⟨⟨w, p₂⟩, h₂, h⟩ := Reasoning.bind_eq_ok.mp h
  obtain ⟨p₃, h₃, h⟩ := Reasoning.bind_eq_ok.mp h
  obtain ⟨⟨m, p₄⟩, h₄, h⟩ := Reasoning.bind_eq_ok.mp h
  obtain ⟨c, -, h⟩ := Reasoning.bind_eq_ok.mp h
  split at h
  · cases h
  · cases h
    exact (parseLength_suffix h₄).trans ((skipPrecision_suffix h₃).trans
      ((parseWidth_suffix h₂).trans (parseFlags_suffix h₁)))

theorem nextItem_suffix {p q : List UInt8} {it : Item} (h : nextItem p = .ok (some (it, q))) :
    p ≠ [] ∧ q <:+ p.tail := by
  obtain ⟨c, hc, h⟩ := Reasoning.bind_eq_ok.mp h
  have hp : p ≠ [] := by
    rw [deref_ok hc]
    exact List.cons_ne_nil c p.tail
  refine ⟨hp, ?_⟩
  split at h
  · cases h
  · split at h
    · cases h
      exact List.suffix_rfl
    · obtain ⟨c', -, h⟩ := Reasoning.bind_eq_ok.mp h
      split at h
      · cases h
      · split at h
        · cases h
          exact List.tail_suffix p.tail
        · obtain ⟨r, hr, h⟩ := Reasoning.bind_eq_ok.mp h
          match r, h with
          | none, h => cases h
          | some (d, r), h =>
            cases h
            exact (List.tail_suffix r).trans (parseDirective_suffix hr)

theorem nextItem_length {p q : List UInt8} {it : Item} (h : nextItem p = .ok (some (it, q))) :
    q.length < p.length := by
  obtain ⟨hp, hq⟩ := nextItem_suffix h
  have hlen := hq.length_le
  have hpos : 0 < p.length := List.length_pos_of_ne_nil hp
  rw [List.length_tail] at hlen
  omega

/-! ## Conversions -/

/-- `va_arg(ap, int)` and its wider kin, as a `long long`. -/
def signedArg (lengthMod : LengthMod) (slot : UInt64) : Int64 :=
  match lengthMod with
  | .none => slot.toUInt32.toInt32.toInt64
  | _ => slot.toInt64

/-- `va_arg(ap, unsigned)` and its wider kin, as an `unsigned long long`. -/
def unsignedArg (lengthMod : LengthMod) (slot : UInt64) : UInt64 :=
  match lengthMod with
  | .none => slot.toUInt32.toUInt64
  | _ => slot

def upperCh (c : UInt8) : UInt8 :=
  if ascii 'a' ≤ c ∧ c ≤ ascii 'f' then c - (ascii 'a' - ascii 'A') else c

/-- The switch on the specifier: the bytes of the value and whether zeroes may pad it; `none` for an
unsupported specifier, which reads no argument. -/
def formatValue (strs : Strings) (d : Directive) (slot : UInt64) : Option (List UInt8 × Bool) :=
  if d.spec = ascii 'c' then some ([slot.toUInt8], d.zeroPad)
  -- strings and pointers are padded with blanks only
  else if d.spec = ascii 's' then some (textAt strs slot, false)
  else if d.spec = ascii 'd' ∨ d.spec = ascii 'i' then
    some (uItoa (signedArg d.lengthMod slot) 10 true, d.zeroPad)
  else if d.spec = ascii 'u' then
    some (uItoa (unsignedArg d.lengthMod slot).toInt64 10 false, d.zeroPad)
  else if d.spec = ascii 'x' then
    some (uItoa (unsignedArg d.lengthMod slot).toInt64 16 false, d.zeroPad)
  else if d.spec = ascii 'X' then
    some ((uItoa (unsignedArg d.lengthMod slot).toInt64 16 false).map upperCh, d.zeroPad)
  else if d.spec = ascii 'p' then
    some (ascii '0' :: ascii 'x' :: uItoa slot.toInt64 16 false, false)
  else none

def padLen (d : Directive) (fieldLen : Nat) : Nat :=
  if 0 < d.width ∧ fieldLen < d.width.toNat then d.width.toNat - fieldLen else 0

/-- The rest of the turn for a directive: format the value, pad it, emit it. -/
def outDirective (strs : Strings) (avail : Nat) (d : Directive) (ap : VaList) (o : Out) :
    Out × VaList :=
  match formatValue strs d ap.head with
  | none => (outChar avail (outChar avail o (ascii '%')) d.spec, ap)
  | some (str, zeroPad) =>
    let padChar := if zeroPad ∧ ¬d.leftAdjust ∧ d.spec ≠ ascii 's' then ascii '0' else ascii ' '
    let o := if d.leftAdjust then o else outPad avail padChar (padLen d str.length) o
    let o := outText avail o str
    let o := if d.leftAdjust then outPad avail (ascii ' ') (padLen d str.length) o else o
    (o, ap.tail)

def outItem (strs : Strings) (avail : Nat) (ap : VaList) (o : Out) : Item → Out × VaList
  | .literal c => (outChar avail o c, ap)
  | .directive d => outDirective strs avail d ap o

/-! ## `u_vsnprintf` and its callers -/

def uVsnprintfLoop (strs : Strings) (avail : Nat) (fmt : List UInt8) (ap : VaList) (o : Out) :
    Except StrFault Out :=
  match _ : nextItem fmt with
  | .error e => .error e
  | .ok none => .ok o
  | .ok (some (item, q)) =>
    uVsnprintfLoop strs avail q (outItem strs avail ap o item).2 (outItem strs avail ap o item).1
termination_by fmt.length
decreasing_by exact nextItem_length (by assumption)

/-- The buffer and the result. -/
def uVsnprintf (strs : Strings) (buf : Nat → UInt8) (size : Nat) (fmt : List UInt8) (ap : VaList) :
    Except StrFault ((Nat → UInt8) × Int) := do
  let avail := if 0 < size then size - 1 else 0
  let o ← uVsnprintfLoop strs avail fmt ap { buf, pos := 0, total := 0 }
  let term := if o.pos ≤ avail then o.pos else avail
  let buf := if 0 < size then Function.update o.buf term 0 else o.buf
  return (buf, toInt32 o.total)

def uSnprintf (strs : Strings) (buf : Nat → UInt8) (size : Nat) (fmt : List UInt8) (ap : VaList) :
    Except StrFault ((Nat → UInt8) × Int) :=
  uVsnprintf strs buf size fmt ap

/-- The bytes handed to `write(1, ...)` and the result; `stack` is what `buf` holds before. -/
def uPrintf (strs : Strings) (stack : Nat → UInt8) (fmt : List UInt8) (ap : VaList) :
    Except StrFault (List UInt8 × Int) := do
  let (buf, n) ← uVsnprintf strs stack 256 fmt ap
  if 0 < n then
    let toWrite := if n < 256 then n.toNat else 256 - 1
    return ((List.range toWrite).map buf, n)
  else return ([], n)

/-! ## `u_atol` -/

def isSpaceCh (c : UInt8) : Bool :=
  decide (c = ascii ' ' ∨ c = ascii '\t' ∨ c = ascii '\n' ∨ c = ascii '\r' ∨ c = 12 ∨ c = 11)

def skipSpaces : List UInt8 → Except StrFault (List UInt8)
  | [] => .error .overread
  | c :: p => if isSpaceCh c then skipSpaces p else .ok (c :: p)

/-- `while (u_isdigit_ch(*s))`. -/
def atolDigits : List UInt8 → Int64 → Except StrFault Int64
  | [], _ => .error .overread
  | c :: p, val =>
    if isDigitCh c then atolDigits p (val * 10 + Int64.ofInt (c.toNat - (ascii '0').toNat))
    else .ok val

def uAtol (s : List UInt8) : Except StrFault Int64 := do
  let s ← skipSpaces s
  let c ← deref s
  if c = ascii '+' then
    return 1 * (← atolDigits s.tail 0)
  else if c = ascii '-' then
    return (-1) * (← atolDigits s.tail 0)
  else
    return 1 * (← atolDigits s 0)

end Ccos.Printf
