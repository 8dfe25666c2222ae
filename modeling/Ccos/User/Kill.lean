import Mathlib.Tactic
import Ccos.Printf.RoundTrip
import Ccos.User.Shell

/-!
# `kill` and `mon stop`

Both commands read a thread id with a parser that makes no checks: `shell_atoi` accumulates in an
`int`, `u_atoi` in a `long` that is cut to an `int` at the end.  Arithmetic wraps in two's
complement, so both yield the number that was typed, modulo `2 ^ 32`.
-/

namespace Ccos

open Printf

/-! ## The code -/

/-- `while (*s >= '0' && *s <= '9')` of `shell_atoi`. -/
def shellAtoiDigits : List UInt8 → Int → Except StrFault Int
  | [], _ => .error .overread
  | c :: s, val =>
    if isDigitCh c then
      shellAtoiDigits s (Printf.toInt32 (Printf.toInt32 (val * 10) + (c.toNat - (ascii '0').toNat)))
    else .ok val

def shellAtoi (s : List UInt8) : Except StrFault Int := do
  let c ← deref s
  if c = ascii '+' then shellAtoiDigits s.tail 0
  else if c = ascii '-' then return Printf.toInt32 (-(← shellAtoiDigits s.tail 0))
  else shellAtoiDigits s 0

def uAtoi (s : List UInt8) : Except StrFault Int :=
  (uAtol s).map fun v => Printf.toInt32 v.toInt

/-- What `cmd_kill` does. -/
inductive KillAction where
  | usage
  | invalid
  /-- `thread_exit(THREAD_EXITCODE_SIGKILL)` -/
  | exitSelf
  | threadKill (tid : Int)
  deriving DecidableEq, Repr

/-- `cmd_kill` in the thread `self`; the arguments are pointers to their strings. -/
def cmdKill (self : Int) : List (List UInt8) → Except StrFault KillAction
  | _ :: arg :: _ => do
    let tid ← shellAtoi arg
    if tid ≤ 0 then return .invalid
    if tid = self then return .exitSelf
    return .threadKill tid
  | _ => .ok .usage

/-- What `cmd_mon` does. -/
inductive MonAction where
  | usage
  | once
  | list
  | missing
  | start (period : Nat) (count : Int)
  /-- `mon_stop(tid)`, which calls `thread_kill(tid)` whether it finds a monitor or not. -/
  | threadKill (tid : Int)
  | unknown
  deriving DecidableEq, Repr

def isWord (arg : List UInt8) (word : String) : Bool :=
  uStrcmp (stringAt arg 0) (word.toList.map ascii) == 0

def cmdMon : List (List UInt8) → Except StrFault MonAction
  | _ :: sub :: args =>
    if isWord sub "once" then .ok .once
    else if isWord sub "list" then .ok .list
    else if isWord sub "start" then
      match args with
      | [] => .ok .missing
      | [period] => do
        return .start ((← uAtoi period) % 2 ^ 32).toNat (-1)
      | period :: count :: _ => do
        return .start ((← uAtoi period) % 2 ^ 32).toNat (← uAtoi count)
    else if isWord sub "stop" then
      match args with
      | [] => .ok .missing
      | tid :: _ => (uAtoi tid).map .threadKill
    else .ok .unknown
  | _ => .ok .usage

/-! ## Numbers as they are typed -/

inductive Sign where
  | none | plus | minus
  deriving DecidableEq, Repr

def Sign.bytes : Sign → List UInt8
  | .none => []
  | .plus => [ascii '+']
  | .minus => [ascii '-']

def Sign.apply : Sign → Nat → Int
  | .minus, n => -n
  | _, n => n

/-- A pointer to an optional sign and decimal digits. -/
def numberArg (sign : Sign) (ds : List Nat) : List UInt8 :=
  sign.bytes ++ (ds.map (digitCh (ascii 'a')) ++ [0])

/-- The integer that the text denotes. -/
def denoted (sign : Sign) (ds : List Nat) : Int := sign.apply (digitsValue 0 ds)

/-! ## Wrapping -/

theorem toInt32_step (a d : Int) :
    Printf.toInt32 (Printf.toInt32 (Printf.toInt32 a * 10) + d) = Printf.toInt32 (a * 10 + d) := by
  have hmul : Printf.toInt32 (Printf.toInt32 a * 10) = Printf.toInt32 (a * 10) := Int.bmod_mul_bmod
  rw [hmul]
  exact Int.bmod_add_bmod

theorem toInt32_neg (a : Int) : Printf.toInt32 (-(Printf.toInt32 a)) = Printf.toInt32 (-a) :=
  Int.bmod_neg_bmod

theorem toInt32_toInt_ofNat (n : Nat) :
    Printf.toInt32 (Int64.ofNat n).toInt = Printf.toInt32 n := by
  unfold Printf.toInt32
  rw [Int64.toInt_ofNat', Int.bmod_bmod_of_dvd (by decide)]

theorem toInt32_toInt_neg (n : Nat) :
    Printf.toInt32 (-Int64.ofNat n).toInt = Printf.toInt32 (-n) := by
  rw [Int64.toInt_neg]
  have hcut : Printf.toInt32 ((-(Int64.ofNat n).toInt).bmod (2 ^ 64)) =
      Printf.toInt32 (-(Int64.ofNat n).toInt) := by
    unfold Printf.toInt32
    exact Int.bmod_bmod_of_dvd (by decide)
  rw [hcut, ← toInt32_neg, toInt32_toInt_ofNat, toInt32_neg]

theorem toInt32_fits {x : Int} (hlo : -2 ^ 31 ≤ x) (hhi : x < 2 ^ 31) : Printf.toInt32 x = x := by
  unfold Printf.toInt32
  exact Int.bmod_eq_of_le (by omega) (by omega)

/-! ## The two parsers -/

theorem shellAtoiDigits_eq (ds : List Nat) (hds : ∀ d ∈ ds, d < 10) (acc : Nat) :
    shellAtoiDigits (ds.map (digitCh (ascii 'a')) ++ [0]) (Printf.toInt32 acc) =
      .ok (Printf.toInt32 (digitsValue acc ds)) := by
  induction ds generalizing acc with
  | nil => rfl
  | cons d ds ih =>
    have hd : d < 10 := hds d List.mem_cons_self
    have hval : ((digitCh (ascii 'a') d).toNat : Int) - (ascii '0').toNat = (d : Int) := by
      have hzero : (ascii '0').toNat = 48 := rfl
      rw [digitCh_toNat hd, hzero]
      omega
    have hstep : Printf.toInt32 (Printf.toInt32 (Printf.toInt32 acc * 10) +
        ((digitCh (ascii 'a') d).toNat - (ascii '0').toNat)) =
          Printf.toInt32 ((acc * 10 + d : Nat) : Int) := by
      rw [hval, toInt32_step]
      push_cast
      rfl
    rw [List.map_cons, List.cons_append, shellAtoiDigits, isDigitCh_digitCh hd, if_pos rfl, hstep]
    exact ih (fun e he => hds e (List.mem_cons_of_mem d he)) _

theorem digitCh_ne_sign {d : Nat} (hd : d < 10) :
    isSpaceCh (digitCh (ascii 'a') d) = false ∧ digitCh (ascii 'a') d ≠ ascii '+' ∧
      digitCh (ascii 'a') d ≠ ascii '-' := by
  interval_cases d <;> decide

/-- The character behind the blanks of an unsigned number is no sign. -/
theorem unsigned_head (ds : List Nat) (hds : ∀ d ∈ ds, d < 10) :
    ∃ c r, ds.map (digitCh (ascii 'a')) ++ [0] = c :: r ∧ isSpaceCh c = false ∧ c ≠ ascii '+' ∧
      c ≠ ascii '-' := by
  cases ds with
  | nil => exact ⟨0, [], rfl, by decide, by decide, by decide⟩
  | cons d ds => exact ⟨_, _, rfl, digitCh_ne_sign (hds d List.mem_cons_self)⟩

variable {ds : List Nat} (hds : ∀ d ∈ ds, d < 10) (sign : Sign)

include hds

theorem shellAtoi_eq : shellAtoi (numberArg sign ds) = .ok (Printf.toInt32 (denoted sign ds)) := by
  have hread := shellAtoiDigits_eq ds hds 0
  have hzero : Printf.toInt32 ((0 : Nat) : Int) = 0 := rfl
  rw [hzero] at hread
  cases sign with
  | none =>
    obtain ⟨c, r, hcons, -, hplus, hminus⟩ := unsigned_head ds hds
    show shellAtoi (ds.map (digitCh (ascii 'a')) ++ [0]) = _
    rw [hcons] at hread ⊢
    unfold shellAtoi
    simp only [deref, bind, Except.bind, if_neg hplus, if_neg hminus]
    exact hread
  | plus => exact hread
  | minus =>
    show (shellAtoiDigits (ds.map (digitCh (ascii 'a')) ++ [0]) 0).bind
      (fun v => Except.ok (Printf.toInt32 (-v))) = _
    rw [hread]
    show Except.ok _ = Except.ok _
    rw [toInt32_neg]
    rfl

theorem uAtol_numberArg :
    uAtol (numberArg sign ds) =
      .ok (if sign = .minus then -Int64.ofNat (digitsValue 0 ds)
        else Int64.ofNat (digitsValue 0 ds)) := by
  have hread : atolDigits (ds.map (digitCh (ascii 'a')) ++ [0]) 0 = _ :=
    atolDigits_digits ds hds 0 [] (by decide)
  cases sign with
  | none =>
    obtain ⟨c, r, hcons, hspace, hplus, hminus⟩ := unsigned_head ds hds
    have hskip : skipSpaces (c :: r) = .ok (c :: r) := by
      unfold skipSpaces
      rw [hspace]
      rfl
    show uAtol (ds.map (digitCh (ascii 'a')) ++ [0]) = _
    rw [hcons] at hread ⊢
    unfold uAtol
    simp only [hskip, deref, bind, Except.bind, if_neg hplus, if_neg hminus, hread, Int64.one_mul]
    rfl
  | plus =>
    show (atolDigits (ds.map (digitCh (ascii 'a')) ++ [0]) 0).bind (fun v => Except.ok (1 * v)) = _
    rw [hread]
    show Except.ok (1 * _) = _
    rw [Int64.one_mul]
    rfl
  | minus =>
    have h := uAtol_negative 0 ds hds (c := 0) [] (by decide)
    exact h

theorem uAtoi_eq : uAtoi (numberArg sign ds) = .ok (Printf.toInt32 (denoted sign ds)) := by
  unfold uAtoi
  rw [uAtol_numberArg hds sign]
  show Except.ok (Printf.toInt32 (Int64.toInt _)) = _
  cases sign with
  | none => exact congrArg Except.ok (toInt32_toInt_ofNat _)
  | plus => exact congrArg Except.ok (toInt32_toInt_ofNat _)
  | minus => exact congrArg Except.ok (toInt32_toInt_neg _)

omit hds

/-- The thread that a number selects: the number itself when it fits in an `int`. -/
structure Selects (v t : Int) : Prop where
  wrapped : t = Printf.toInt32 v
  exact : -2 ^ 31 ≤ v → v < 2 ^ 31 → t = v

theorem selects_toInt32 (v : Int) : Selects v (Printf.toInt32 v) :=
  ⟨rfl, toInt32_fits⟩

def stopArgs (arg : List UInt8) : List (List UInt8) :=
  ["mon".toList.map ascii ++ [0], "stop".toList.map ascii ++ [0], arg]

def killArgs (arg : List UInt8) : List (List UInt8) := ["kill".toList.map ascii ++ [0], arg]

/-- `cmd_kill` leaves out what is not positive as an `int`, and its own thread. -/
theorem cmdKill_eq {arg : List UInt8} {t : Int} (harg : shellAtoi arg = .ok t) (self : Int) :
    cmdKill self (killArgs arg) =
      .ok (if t ≤ 0 then .invalid else if t = self then .exitSelf else .threadKill t) := by
  show (shellAtoi arg >>= _) = _
  rw [harg]
  show (if t ≤ 0 then _ else _) = _
  split_ifs <;> rfl

theorem cmdMon_stop_eq {arg : List UInt8} {t : Int} (harg : uAtoi arg = .ok t) :
    cmdMon (stopArgs arg) = .ok (.threadKill t) := by
  show (uAtoi arg).map MonAction.threadKill = _
  rw [harg]
  rfl

/-- Whatever is typed, `kill` and `mon stop` act on the typed number reduced to an `int`, so on the
typed number itself when it fits. -/
theorem kill_selects_wrapped_tid (sign : Sign) (ds : List Nat) (hds : ∀ d ∈ ds, d < 10) :
    ∃ t, Selects (denoted sign ds) t ∧
      (∀ self, cmdKill self (killArgs (numberArg sign ds)) =
        .ok (if t ≤ 0 then .invalid else if t = self then .exitSelf else .threadKill t)) ∧
      cmdMon (stopArgs (numberArg sign ds)) = .ok (.threadKill t) :=
  ⟨_, selects_toInt32 _, cmdKill_eq (shellAtoi_eq hds sign), cmdMon_stop_eq (uAtoi_eq hds sign)⟩

-- `kill 2147483648`: the residue is negative
example : cmdKill 3 (killArgs (numberArg .none [2, 1, 4, 7, 4, 8, 3, 6, 4, 8])) = .ok .invalid := by
  decide +kernel

theorem kill_seven :
    ∃ t, Selects 7 t ∧ cmdKill 3 (killArgs (numberArg .none [7])) = .ok (.threadKill t) ∧
      cmdMon (stopArgs (numberArg .none [7])) = .ok (.threadKill t) := by
  obtain ⟨t, hsel, hkill, hmon⟩ := kill_selects_wrapped_tid .none [7] (by decide)
  have hval : denoted .none [7] = 7 := by decide
  rw [hval] at hsel
  obtain rfl : t = 7 := hsel.exact (by decide) (by decide)
  exact ⟨7, hsel, hkill 3, hmon⟩

/-- `kill 4294967297` and `mon stop 4294967297` kill thread 1. -/
theorem kill_four_billion :
    denoted .none [4, 2, 9, 4, 9, 6, 7, 2, 9, 7] = 4294967297 ∧
      cmdKill 3 (killArgs (numberArg .none [4, 2, 9, 4, 9, 6, 7, 2, 9, 7])) =
        .ok (.threadKill 1) ∧
      cmdMon (stopArgs (numberArg .none [4, 2, 9, 4, 9, 6, 7, 2, 9, 7])) = .ok (.threadKill 1) ∧
      ¬ ∀ t, cmdKill 3 (killArgs (numberArg .none [4, 2, 9, 4, 9, 6, 7, 2, 9, 7])) =
        .ok (.threadKill t) → denoted .none [4, 2, 9, 4, 9, 6, 7, 2, 9, 7] = t := by
  have hval : denoted .none [4, 2, 9, 4, 9, 6, 7, 2, 9, 7] = 4294967297 := by decide +kernel
  have hkill : cmdKill 3 (killArgs (numberArg .none [4, 2, 9, 4, 9, 6, 7, 2, 9, 7])) =
      .ok (.threadKill 1) := by decide +kernel
  refine ⟨hval, hkill, by decide +kernel, fun h => ?_⟩
  have hsame := h 1 hkill
  rw [hval] at hsame
  exact absurd hsame (by decide)

end Ccos
