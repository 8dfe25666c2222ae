import Mathlib.Tactic
import Mathlib.Data.List.GetD
import Ccos.Reasoning.Overwrite

/-!
# The line editor

`u_gets` of `user/ulib_stdio.c` reads byte by byte, edits a buffer and echoes.  `editLine` is the
line it is meant to hold, and `Screen` a terminal that shows what was echoed; after every byte the
buffer, the reference line and the screen agree.
-/

namespace Ccos

open Reasoning.Overwrite

/-! ## The code -/

/-- What `read(FD_STDIN, &c, 1)` returns. -/
inductive GetsRead where
  | byte (c : UInt8)
  | eof
  | error (n : Int)
  deriving DecidableEq, Repr

/-- The caller's buffer, the characters in use and all that was echoed. -/
structure GetsState where
  buf : Nat → UInt8
  used : Nat
  echo : List UInt8

inductive GetsResult where
  /-- The loop goes on to its next `read`. -/
  | more (s : GetsState)
  | done (s : GetsState) (ret : Int)

/-- `U_GETS_INTR` -/
def uGetsIntr : Int := -2

def uPutchar (s : GetsState) (c : UInt8) : GetsState :=
  { s with echo := s.echo ++ [c] }

/-- `buf[used] = '\0'; return used`. -/
def getsFinish (s : GetsState) : GetsResult :=
  .done { s with buf := Function.update s.buf s.used 0 } s.used

/-- The body of the loop for a byte `c`. -/
def getsByte (bufSize : Nat) (s : GetsState) (c : UInt8) : GetsResult :=
  if c = 0x03 then
    let s := uPutchar (uPutchar (uPutchar s 0x5e) 0x43) 0x0a
    .done { s with buf := Function.update s.buf 0 0, used := 0 } uGetsIntr
  else if c = 0x0a ∨ c = 0x0d then getsFinish (uPutchar s 0x0a)
  else if c = 0x08 ∨ c = 0x7f then
    if 0 < s.used then
      .more (uPutchar (uPutchar (uPutchar { s with used := s.used - 1 } 0x08) 0x20) 0x08)
    else .more s
  else if c < 0x20 then .more s
  else if s.used < bufSize - 1 then
    .more (uPutchar { s with buf := Function.update s.buf s.used c, used := s.used + 1 } c)
  else .more s

def getsStep (bufSize : Nat) (s : GetsState) : GetsRead → GetsResult
  | .error n => .done s n
  | .eof => if s.used = 0 then .done s 0 else getsFinish s
  | .byte c => getsByte bufSize s c

/-- The loop on the reads that have returned so far. -/
def getsLoop (bufSize : Nat) (s : GetsState) : List GetsRead → GetsResult
  | [] => .more s
  | r :: reads =>
    match getsStep bufSize s r with
    | .more s => getsLoop bufSize s reads
    | .done s ret => .done s ret

/-- `u_gets(buf, buf_size)`; no buffer is `none`. -/
def uGets (buf : Option (Nat → UInt8)) (bufSize : Int) (reads : List GetsRead) : GetsResult :=
  match buf with
  | none => .done { buf := fun _ => 0, used := 0, echo := [] } (-1)
  | some buf =>
    if bufSize ≤ 1 then .done { buf := buf, used := 0, echo := [] } (-1)
    else getsLoop bufSize.toNat { buf := buf, used := 0, echo := [] } reads

/-! ## The line and the screen -/

/-- The line after one more byte, in an editor that holds at most `cap` characters. -/
def editLine (cap : Nat) (line : List UInt8) (c : UInt8) : List UInt8 :=
  if c = 0x08 ∨ c = 0x7f then line.dropLast
  else if c < 0x20 then line
  else if line.length < cap then line ++ [c]
  else line

/-- The current line of a terminal, blank from its cursor on if nothing was erased badly. -/
structure Screen where
  cells : Nat → UInt8
  col : Nat

def Screen.fresh : Screen := { cells := fun _ => 0x20, col := 0 }

/-- BS moves left, a newline starts a fresh line, a printing byte is shown and moves right. -/
def Screen.put (s : Screen) (c : UInt8) : Screen :=
  if c = 0x08 then { s with col := s.col - 1 }
  else if c = 0x0a then Screen.fresh
  else if c < 0x20 then s
  else { cells := Function.update s.cells s.col c, col := s.col + 1 }

def screenOf (echo : List UInt8) : Screen := echo.foldl Screen.put Screen.fresh

/-- The screen shows `line`, and nothing behind it. -/
structure Shows (s : Screen) (line : List UInt8) : Prop where
  col : s.col = line.length
  cells : ∀ i, s.cells i = line.getD i 0x20

/-- Bytes that end the line. -/
def EndsLine (c : UInt8) : Prop := c = 0x03 ∨ c = 0x0a ∨ c = 0x0d

/-- Buffer, line and screen agree, and nothing behind the buffer's last cell but one was touched. -/
structure Edits (bufSize : Nat) (buf₀ : Nat → UInt8) (s : GetsState) (line : List UInt8) :
    Prop where
  used : s.used = line.length
  bound : line.length ≤ bufSize - 1
  held : ∀ i, i < line.length → s.buf i = line.getD i 0
  beyond : ∀ i, bufSize - 1 ≤ i → s.buf i = buf₀ i
  shown : Shows (screenOf s.echo) line

variable {bufSize : Nat} {buf₀ : Nat → UInt8} {s : GetsState} {line : List UInt8} {c : UInt8}

theorem screenOf_concat (echo : List UInt8) (c : UInt8) :
    screenOf (echo ++ [c]) = (screenOf echo).put c := by
  unfold screenOf
  rw [List.foldl_append]
  rfl

theorem getD_dropLast {d : UInt8} {i : Nat} (hi : i < line.length - 1) :
    line.dropLast.getD i d = line.getD i d := by
  rw [List.getD_eq_getElem?_getD, List.getD_eq_getElem?_getD, List.getElem?_dropLast, if_pos hi]

theorem getD_of_le {d : UInt8} {i : Nat} (hi : line.length ≤ i) : line.getD i d = d :=
  List.getD_eq_default line d hi

theorem getD_concat_of_ne {d : UInt8} {i : Nat} (hi : i ≠ line.length) :
    (line ++ [c]).getD i d = line.getD i d := by
  rcases Nat.lt_or_gt_of_ne hi with hlt | hgt
  · exact List.getD_append line [c] d i hlt
  · rw [getD_of_le hgt.le, getD_of_le]
    rw [List.length_append]
    exact hgt

theorem getD_concat_self (d : UInt8) : (line ++ [c]).getD line.length d = c := by
  rw [List.getD_append_right _ _ _ _ (Nat.le_refl _), Nat.sub_self]
  rfl

/-- A printing byte is shown behind the line. -/
theorem Shows.put {scr : Screen} (h : Shows scr line) (hc : ¬ c < 0x20) :
    Shows (scr.put c) (line ++ [c]) := by
  have hbs : c ≠ 0x08 := fun h => hc (by rw [h]; decide)
  have hnl : c ≠ 0x0a := fun h => hc (by rw [h]; decide)
  unfold Screen.put
  rw [if_neg hbs, if_neg hnl, if_neg hc]
  constructor
  · show scr.col + 1 = _
    rw [h.col, List.length_append]
    rfl
  · intro i
    show Function.update scr.cells scr.col c i = _
    rw [h.col]
    by_cases hi : i = line.length
    · rw [hi, Function.update_self, getD_concat_self]
    · rw [Function.update_of_ne hi, getD_concat_of_ne hi]
      exact h.cells i

/-- Backspace, space, backspace takes the last character away. -/
theorem Shows.erase {scr : Screen} (h : Shows scr line) (hne : line ≠ []) :
    Shows (((scr.put 0x08).put 0x20).put 0x08) line.dropLast := by
  have hpos := List.length_pos_of_ne_nil hne
  constructor
  · show scr.col - 1 + 1 - 1 = _
    rw [h.col, List.length_dropLast]
    omega
  · intro i
    show Function.update scr.cells (scr.col - 1) 0x20 i = _
    rw [h.col]
    by_cases hi : i = line.length - 1
    · rw [hi, Function.update_self, getD_of_le]
      rw [List.length_dropLast]
    · rw [Function.update_of_ne hi, h.cells i]
      rcases Nat.lt_or_ge i (line.length - 1) with hlt | hge
      · rw [getD_dropLast hlt]
      · rw [getD_of_le (by omega), getD_of_le]
        rw [List.length_dropLast]
        omega

/-! ## One byte -/

theorem Edits.erase (h : Edits bufSize buf₀ s line) (hne : line ≠ []) :
    Edits bufSize buf₀
      (uPutchar (uPutchar (uPutchar { s with used := s.used - 1 } 0x08) 0x20) 0x08)
      line.dropLast := by
  have hpos := List.length_pos_of_ne_nil hne
  have hused := h.used
  have hbound := h.bound
  constructor
  · show s.used - 1 = _
    rw [List.length_dropLast, h.used]
  · rw [List.length_dropLast]
    omega
  · intro i hi
    rw [List.length_dropLast] at hi
    rw [getD_dropLast hi]
    exact h.held i (by omega)
  · exact h.beyond
  · show Shows (screenOf (s.echo ++ [0x08] ++ [0x20] ++ [0x08])) _
    rw [screenOf_concat, screenOf_concat, screenOf_concat]
    exact h.shown.erase hne

theorem Edits.append (h : Edits bufSize buf₀ s line) (hc : ¬ c < 0x20)
    (hroom : line.length < bufSize - 1) :
    Edits bufSize buf₀
      (uPutchar { s with buf := Function.update s.buf s.used c, used := s.used + 1 } c)
      (line ++ [c]) := by
  have hlen : (line ++ [c]).length = line.length + 1 := by
    rw [List.length_append]
    rfl
  constructor
  · show s.used + 1 = _
    rw [h.used, hlen]
  · omega
  · intro i hi
    show Function.update s.buf s.used c i = _
    rw [h.used]
    by_cases heq : i = line.length
    · rw [heq, Function.update_self, getD_concat_self]
    · rw [Function.update_of_ne heq, getD_concat_of_ne heq]
      exact h.held i (by omega)
  · intro i hi
    show Function.update s.buf s.used c i = _
    rw [h.used, Function.update_of_ne (by omega)]
    exact h.beyond i hi
  · show Shows (screenOf (s.echo ++ [c])) _
    rw [screenOf_concat]
    exact h.shown.put hc

/-- A byte that does not end the line is edited, and the loop goes on. -/
theorem Edits.step (h : Edits bufSize buf₀ s line) (hc : ¬ EndsLine c) :
    ∃ s', getsStep bufSize s (.byte c) = .more s' ∧
      Edits bufSize buf₀ s' (editLine (bufSize - 1) line c) := by
  have hctrlc : c ≠ 0x03 := fun h3 => hc (.inl h3)
  have hend : ¬(c = 0x0a ∨ c = 0x0d) := fun hnl => hc (.inr hnl)
  show ∃ s', getsByte bufSize s c = .more s' ∧ _
  unfold getsByte editLine
  rw [if_neg hctrlc, if_neg hend]
  split
  · -- BS or DEL
    split
    · next hused =>
      have hne : line ≠ [] := by
        intro hnil
        rw [h.used, hnil] at hused
        exact absurd hused (Nat.lt_irrefl 0)
      exact ⟨_, rfl, h.erase hne⟩
    · next hused =>
      have hnil : line = [] := by
        apply List.length_eq_zero_iff.mp
        have := h.used
        omega
      rw [hnil] at h ⊢
      exact ⟨s, rfl, h⟩
  · split
    · exact ⟨s, rfl, h⟩
    · next hprint =>
      rw [h.used]
      split
      · next hroom =>
        have happ := h.append hprint hroom
        rw [h.used] at happ
        exact ⟨_, rfl, happ⟩
      · exact ⟨s, rfl, h⟩

theorem edits_init (buf : Nat → UInt8) :
    Edits bufSize buf { buf := buf, used := 0, echo := [] } [] := by
  constructor
  · rfl
  · exact Nat.zero_le _
  · intro i hi
    exact absurd hi (Nat.not_lt_zero i)
  · intro i _
    rfl
  · exact ⟨rfl, fun i => rfl⟩

/-! ## Whole lines -/

theorem getsLoop_append (s : GetsState) (r₁ r₂ : List GetsRead) :
    getsLoop bufSize s (r₁ ++ r₂) =
      match getsLoop bufSize s r₁ with
      | .more s => getsLoop bufSize s r₂
      | .done s ret => .done s ret := by
  induction r₁ generalizing s with
  | nil => rfl
  | cons r r₁ ih =>
    show (match getsStep bufSize s r with
      | .more s => getsLoop bufSize s (r₁ ++ r₂)
      | .done s ret => .done s ret) = _
    rw [getsLoop]
    cases getsStep bufSize s r with
    | more s' => exact ih s'
    | done s' ret => rfl

/-- Typing and erasing, for any number of bytes. -/
theorem Edits.run (h : Edits bufSize buf₀ s line) (bs : List UInt8) (hbs : ∀ c ∈ bs, ¬ EndsLine c) :
    ∃ s', getsLoop bufSize s (bs.map .byte) = .more s' ∧
      Edits bufSize buf₀ s' (bs.foldl (editLine (bufSize - 1)) line) := by
  induction bs generalizing s line with
  | nil => exact ⟨s, rfl, h⟩
  | cons c bs ih =>
    obtain ⟨s₁, hstep, h₁⟩ := h.step (hbs c List.mem_cons_self)
    obtain ⟨s₂, hrun, h₂⟩ := ih h₁ fun d hd => hbs d (List.mem_cons_of_mem c hd)
    refine ⟨s₂, ?_, h₂⟩
    rw [List.map_cons, getsLoop, hstep]
    exact hrun

/-- What the caller finds in the buffer when `u_gets` returns. -/
structure Returned (s : GetsState) (ret : Int) (line : List UInt8) : Prop where
  ret : ret = line.length
  held : (List.range line.length).map s.buf = line
  terminated : s.buf line.length = 0

theorem Edits.cells (h : Edits bufSize buf₀ s line) :
    (List.range line.length).map s.buf = line := by
  apply List.ext_getElem
  · rw [List.length_map, List.length_range]
  · intro i h1 h2
    rw [List.getElem_map, List.getElem_range, h.held i h2]
    exact (List.getElem_eq_getD 0).symm

theorem Edits.newline (h : Edits bufSize buf₀ s line) (hsize : 0 < bufSize)
    (hc : c = 0x0a ∨ c = 0x0d) :
    ∃ s', getsStep bufSize s (.byte c) = .done s' line.length ∧ Returned s' line.length line ∧
      ∀ i, bufSize ≤ i → s'.buf i = buf₀ i := by
  have hctrlc : c ≠ 0x03 := by
    rintro rfl
    revert hc
    decide
  have hbound := h.bound
  refine ⟨{ uPutchar s 0x0a with buf := Function.update s.buf s.used 0 }, ?_, ⟨rfl, ?_, ?_⟩, ?_⟩
  · show getsByte bufSize s c = _
    unfold getsByte
    rw [if_neg hctrlc, if_pos hc, ← h.used]
    rfl
  · show (List.range line.length).map (Function.update s.buf s.used 0) = line
    rw [h.used, map_range_update]
    exact h.cells
  · show Function.update s.buf s.used 0 line.length = 0
    rw [h.used, Function.update_self]
  · intro i hi
    show Function.update s.buf s.used 0 i = buf₀ i
    have hne : i ≠ s.used := by
      rw [h.used]
      omega
    rw [Function.update_of_ne hne]
    exact h.beyond i (by omega)

theorem getsStep_interrupt (bufSize : Nat) (s : GetsState) :
    ∃ s', getsStep bufSize s (.byte 0x03) = .done s' uGetsIntr ∧ s'.buf 0 = 0 := by
  refine ⟨_, rfl, ?_⟩
  exact Function.update_self 0 (0 : UInt8) s.buf

/-- For every buffer of at least two bytes and every input: as long as no byte ends the line, the
buffer holds the reference line and the screen shows it; CR and LF return it, NUL-terminated, and
Ctrl-C returns `U_GETS_INTR` with an empty string.  What follows the last byte is not read. -/
theorem u_gets_edits (buf : Nat → UInt8) (bufSize : Int) (hsize : 2 ≤ bufSize) (bs : List UInt8)
    (hbs : ∀ c ∈ bs, ¬ EndsLine c) (rest : List GetsRead) :
    let line := bs.foldl (editLine (bufSize.toNat - 1)) []
    (∃ s, uGets (some buf) bufSize (bs.map .byte) = .more s ∧ s.used = line.length ∧
      (List.range s.used).map s.buf = line ∧ Shows (screenOf s.echo) line) ∧
    line.length ≤ bufSize.toNat - 1 ∧
    (∀ c, c = 0x0a ∨ c = 0x0d →
      ∃ s, uGets (some buf) bufSize (bs.map .byte ++ .byte c :: rest) = .done s line.length ∧
        Returned s line.length line ∧ ∀ i, bufSize.toNat ≤ i → s.buf i = buf i) ∧
    ∃ s, uGets (some buf) bufSize (bs.map .byte ++ .byte 0x03 :: rest) = .done s uGetsIntr ∧
      s.buf 0 = 0 := by
  have hgt : ¬ bufSize ≤ 1 := by omega
  have hinit : Edits bufSize.toNat buf { buf := buf, used := 0, echo := [] } [] := edits_init buf
  obtain ⟨s, hrun, h⟩ := hinit.run bs hbs
  have hloop : ∀ reads, uGets (some buf) bufSize reads =
      getsLoop bufSize.toNat { buf := buf, used := 0, echo := [] } reads := fun _ => if_neg hgt
  have htail : ∀ r, uGets (some buf) bufSize (bs.map .byte ++ r :: rest) =
      getsLoop bufSize.toNat s (r :: rest) := by
    intro r
    rw [hloop, getsLoop_append, hrun]
  refine ⟨⟨s, ?_, h.used, ?_, h.shown⟩, h.bound, ?_, ?_⟩
  · rw [hloop, hrun]
  · rw [h.used]
    exact h.cells
  · intro c hc
    obtain ⟨s', hstep, hret, hframe⟩ := h.newline (by omega) hc
    refine ⟨s', ?_, hret, hframe⟩
    rw [htail, getsLoop, hstep]
  · obtain ⟨s', hstep, hnul⟩ := getsStep_interrupt bufSize.toNat s
    refine ⟨s', ?_, hnul⟩
    rw [htail, getsLoop, hstep]

/-- `"abcd"`, DEL, `"x"` and a newline in a buffer of four bytes: `d` is dropped, `c` is erased. -/
theorem u_gets_edits_abx :
    ∃ s, uGets (some fun _ => 7) 4 (([0x61, 0x62, 0x63, 0x64, 0x7f, 0x78] : List UInt8).map .byte ++
        [.byte 0x0a]) = .done s 3 ∧
      (List.range 3).map s.buf = [0x61, 0x62, 0x78] ∧ s.buf 3 = 0 := by
  obtain ⟨-, -, hnl, -⟩ := u_gets_edits (fun _ => 7) 4 (by decide)
    [0x61, 0x62, 0x63, 0x64, 0x7f, 0x78] (by unfold EndsLine; decide +kernel) []
  obtain ⟨s, hrun, hret, -⟩ := hnl 0x0a (.inl rfl)
  exact ⟨s, hrun, hret.held, hret.terminated⟩

end Ccos
