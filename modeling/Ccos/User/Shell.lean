import Mathlib.Tactic
import Mathlib.Data.List.TakeWhile
import Ccos.Printf.Stdio

/-!
# The command line of the shell

`shell_parse_line`, the copies of the line and the lookup of the command in `user/shell.c`.  A
buffer is the list of its cells and a pointer into it an offset; a read behind the last cell is a
fault.  The dispatcher cuts its line in place, the worker cuts a copy of a copy of a copy of it;
both get the words of the line.
-/

namespace Ccos

open Printf

/-! ## The code -/

def shellMaxLine : Nat := 128
def shellMaxArgs : Nat := 8

def isBlank (c : UInt8) : Bool := c == ascii ' ' || c == 9

def cellAt (cells : List UInt8) (p : Nat) : Except StrFault UInt8 :=
  match cells[p]? with
  | none => .error .overread
  | some c => .ok c

/-- `while (*p == ' ' || *p == '\t') p++`. -/
def skipBlanks (cells : List UInt8) (p : Nat) : Except StrFault Nat :=
  if h : p < cells.length then
    if isBlank cells[p] then skipBlanks cells (p + 1) else .ok p
  else .error .overread
termination_by cells.length - p

/-- `while (*p != '\0' && *p != ' ' && *p != '\t') p++`. -/
def tokenEnd (cells : List UInt8) (p : Nat) : Except StrFault Nat :=
  if h : p < cells.length then
    if cells[p] ≠ 0 ∧ ¬ isBlank cells[p] then tokenEnd cells (p + 1) else .ok p
  else .error .overread
termination_by cells.length - p

/-- `while (*p != '\0' && argc < max_args)`: the cells and `argv` when the loop ends. -/
def parseLoop (maxArgs : Nat) (cells : List UInt8) (p : Nat) (argv : List Nat) :
    Except StrFault (List UInt8 × List Nat) := do
  let c ← cellAt cells p
  if _ : c ≠ 0 ∧ argv.length < maxArgs then
    let e ← tokenEnd cells p
    -- the terminator of the line ends the last word as well
    if (← cellAt cells e) = 0 then return (cells, argv ++ [p])
    let cells := cells.set e 0
    let q ← skipBlanks cells (e + 1)
    parseLoop maxArgs cells q (argv ++ [p])
  else return (cells, argv)
termination_by maxArgs - argv.length
decreasing_by
  rw [List.length_append, List.length_singleton]
  omega

def shellParseLine (line : List UInt8) (maxArgs : Nat) :
    Except StrFault (List UInt8 × List Nat) := do
  let p ← skipBlanks line 0
  parseLoop maxArgs line p []

/-- `while (src[i] && i < room)`: the characters copied. -/
def copyChars : Nat → List UInt8 → Except StrFault (List UInt8)
  | _, [] => .error .overread
  | room, c :: src =>
    match room with
    | 0 => .ok []
    | room + 1 => if c = 0 then .ok [] else (copyChars room src).map (c :: ·)

/-- One of the three copies of a line: the characters, then `'\0'`. -/
def copyLine (dst src : List UInt8) : Except StrFault (List UInt8) := do
  let text ← copyChars (shellMaxLine - 1) src
  return text ++ 0 :: dst.drop (text.length + 1)

/-- The string at `p`. -/
def stringAt (cells : List UInt8) (p : Nat) : List UInt8 := (cells.drop p).takeWhile (· ≠ 0)

structure ShellProc where
  inUse : Bool
  line : List UInt8

/-- The first free slot, with the line in it. -/
def shellProcAlloc (procs : List ShellProc) (line : List UInt8) :
    Except StrFault (Option (Nat × List ShellProc)) :=
  match procs.findIdx? (fun p => !p.inUse) with
  | none => .ok none
  | some i => do
    let copy ← copyLine ((procs.map ShellProc.line).getD i []) line
    return some (i, procs.set i { inUse := true, line := copy })

/-- The handlers of `g_shell_cmds`. -/
inductive ShellCmd where
  | help | echo | sleep | ps | jobs | kill | rq | date | uptime | irqstat | spawn | mon | exit
  deriving DecidableEq, Repr

/-- The names and whether the command runs in the shell thread. -/
def gShellCmds : List (List UInt8 × ShellCmd × Bool) :=
  [("help", .help, true), ("echo", .echo, true), ("sleep", .sleep, false), ("ps", .ps, true),
    ("jobs", .jobs, true), ("kill", .kill, true), ("rq", .rq, true), ("date", .date, false),
    ("uptime", .uptime, false), ("irqstat", .irqstat, false), ("spawn", .spawn, true),
    ("mon", .mon, false), ("exit", .exit, true)].map
    fun (name, cmd, inShell) => (name.toList.map ascii, cmd, inShell)

/-- `u_strcmp` of two strings without their terminators. -/
def uStrcmp : List UInt8 → List UInt8 → Int
  | [], [] => 0
  | [], b :: _ => -b.toNat
  | a :: _, [] => a.toNat
  | a :: as, b :: bs => if a = b then uStrcmp as bs else a.toNat - b.toNat

def shellFindCmd (name : List UInt8) : Option (ShellCmd × Bool) :=
  (gShellCmds.find? fun entry => uStrcmp name entry.1 = 0).map (·.2)

/-- A command and its arguments, `argv[0]` included. -/
structure Command where
  cmd : ShellCmd
  args : List (List UInt8)
  deriving DecidableEq

/-- What the parsed line asks for: the strings of `argv` and the entry of `argv[0]`. -/
inductive Request where
  | empty
  | unknown (name : List UInt8)
  | run (command : Command) (inShell : Bool)
  deriving DecidableEq

def requestOf (cells : List UInt8) (argv : List Nat) : Request :=
  match argv.map (stringAt cells) with
  | [] => .empty
  | name :: args =>
    match shellFindCmd name with
    | none => .unknown name
    | some (cmd, inShell) => .run { cmd, args := name :: args } inShell

/-- What `shell_dispatch_line` does with a line. -/
inductive Dispatch where
  /-- Nothing, a message, or a command in the shell thread. -/
  | here (request : Request)
  /-- No slot for a worker. -/
  | noSlot (command : Command)
  /-- A worker with slot `i`. -/
  | worker (command : Command) (i : Nat) (procs : List ShellProc)

/-- `shell_dispatch_line` and `shell_run_command` up to `thread_create`; `raw` is what lies in
`raw_line`. -/
def shellDispatchLine (procs : List ShellProc) (raw line : List UInt8) :
    Except StrFault Dispatch := do
  -- the parse cuts `line` into words, so the worker gets a copy made before it
  let rawLine ← copyLine raw line
  let (cells, argv) ← shellParseLine line shellMaxArgs
  match requestOf cells argv with
  -- a command that is not marked for the shell thread gets a worker
  | .run command false =>
    match ← shellProcAlloc procs rawLine with
    | none => return .noSlot command
    | some (i, procs) => return .worker command i procs
  | request => return .here request

/-- What `shell_cmd_worker` does with its slot; `localLine` is what lies in its `line`. -/
def shellCmdWorker (procs : List ShellProc) (i : Nat) (localLine : List UInt8) :
    Except StrFault Request := do
  let line ← copyLine localLine ((procs.map ShellProc.line).getD i [])
  let (cells, argv) ← shellParseLine line shellMaxArgs
  return requestOf cells argv

/-! ## The words of a line -/

/-- The maximal runs of characters that are not blank. -/
def tokens (bs : List UInt8) : List (List UInt8) :=
  (bs.splitOnP isBlank).filter fun t => !t.isEmpty

@[simp] theorem tokens_nil : tokens [] = [] := rfl

theorem tokens_blank {b : UInt8} (hb : isBlank b = true) (bs : List UInt8) :
    tokens (b :: bs) = tokens bs := by
  unfold tokens
  rw [List.splitOnP_cons_eq_if_modifyHead, if_pos hb]
  rfl

theorem tokens_blanks (blanks bs : List UInt8) (hb : ∀ b ∈ blanks, isBlank b = true) :
    tokens (blanks ++ bs) = tokens bs := by
  induction blanks with
  | nil => rfl
  | cons b blanks ih =>
    rw [List.cons_append, tokens_blank (hb b List.mem_cons_self)]
    exact ih fun c hc => hb c (List.mem_cons_of_mem b hc)

section Word

variable {tok : List UInt8} (htok : ∀ c ∈ tok, isBlank c = false) (hne : tok ≠ [])

include htok hne

theorem tokens_word : tokens tok = [tok] := by
  unfold tokens
  rw [List.splitOnP_eq_singleton htok, List.filter_cons_of_pos]
  · rfl
  · rw [Bool.not_eq_true', List.isEmpty_eq_false_iff]
    exact hne

theorem tokens_word_blank {b : UInt8} (hb : isBlank b = true) (bs : List UInt8) :
    tokens (tok ++ b :: bs) = tok :: tokens bs := by
  unfold tokens
  rw [List.splitOnP_append_cons_of_forall_mem htok b hb, List.filter_cons_of_pos]
  rw [Bool.not_eq_true', List.isEmpty_eq_false_iff]
  exact hne

end Word

/-! ## The loops -/

theorem cellAt_append (done rest : List UInt8) (c : UInt8) :
    cellAt (done ++ c :: rest) done.length = .ok c := by
  unfold cellAt
  rw [List.getElem?_append_right (Nat.le_refl _), Nat.sub_self]
  rfl

theorem skipBlanks_append (done blanks rest : List UInt8) {c : UInt8}
    (hb : ∀ b ∈ blanks, isBlank b = true) (hc : isBlank c = false) :
    skipBlanks (done ++ (blanks ++ c :: rest)) done.length = .ok (done.length + blanks.length) := by
  induction blanks generalizing done with
  | nil =>
    rw [skipBlanks]
    simp [hc]
  | cons b blanks ih =>
    have hstep := ih (done ++ [b]) fun d hd => hb d (List.mem_cons_of_mem b hd)
    rw [List.append_assoc, List.length_append, List.length_singleton] at hstep
    rw [skipBlanks]
    simp only [List.length_append, List.length_cons, List.cons_append]
    rw [dif_pos (by omega)]
    simp only [List.getElem_append_right (Nat.le_refl _), Nat.sub_self, List.getElem_cons_zero,
      hb b List.mem_cons_self, if_true]
    refine hstep.trans ?_
    congr 1
    omega

theorem tokenEnd_append (done tok rest : List UInt8) {c : UInt8}
    (htok : ∀ b ∈ tok, b ≠ 0 ∧ isBlank b = false) (hc : c = 0 ∨ isBlank c = true) :
    tokenEnd (done ++ (tok ++ c :: rest)) done.length = .ok (done.length + tok.length) := by
  induction tok generalizing done with
  | nil =>
    rw [tokenEnd]
    rcases hc with hc | hc
    · simp [hc]
    · simp [hc]
  | cons b tok ih =>
    have hstep := ih (done ++ [b]) fun d hd => htok d (List.mem_cons_of_mem b hd)
    rw [List.append_assoc, List.length_append, List.length_singleton] at hstep
    obtain ⟨h0, hb⟩ := htok b List.mem_cons_self
    rw [tokenEnd]
    simp only [List.length_append, List.length_cons, List.cons_append]
    rw [dif_pos (by omega)]
    simp only [List.getElem_append_right (Nat.le_refl _), Nat.sub_self, List.getElem_cons_zero]
    rw [if_pos ⟨h0, by rw [hb]; exact Bool.false_ne_true⟩]
    refine hstep.trans ?_
    congr 1
    omega

/-- `tok` stands at `off`, with its terminator. -/
def HasString (cells : List UInt8) (off : Nat) (tok : List UInt8) : Prop :=
  0 ∉ tok ∧ ∃ rest, cells.drop off = tok ++ 0 :: rest

theorem HasString.stringAt {cells : List UInt8} {off : Nat} {tok : List UInt8}
    (h : HasString cells off tok) : stringAt cells off = tok := by
  obtain ⟨h0, rest, hdrop⟩ := h
  unfold Ccos.stringAt
  rw [hdrop, List.takeWhile_append_of_pos]
  · simp
  · intro c hc
    have hne : c ≠ 0 := fun h => h0 (h ▸ hc)
    simpa using hne

theorem hasString_append {done tok rest : List UInt8} (h0 : 0 ∉ tok) :
    HasString (done ++ (tok ++ 0 :: rest)) done.length tok :=
  ⟨h0, rest, List.drop_left⟩

/-! ## Parsing -/

/-- A rest of the line is empty, or a word and what follows it. -/
theorem word_split (bs : List UInt8) (h0 : 0 ∉ bs) :
    ∃ tok rest, bs = tok ++ rest ∧ (∀ c ∈ tok, c ≠ 0 ∧ isBlank c = false) ∧
      (rest = [] ∨ ∃ b more, rest = b :: more ∧ isBlank b = true) := by
  refine ⟨bs.takeWhile (fun c => !isBlank c), bs.dropWhile (fun c => !isBlank c),
    List.takeWhile_append_dropWhile.symm, ?_, ?_⟩
  · intro c hc
    have hblank := List.mem_takeWhile_imp hc
    exact ⟨fun h => h0 (h ▸ List.takeWhile_subset _ hc), by simpa using hblank⟩
  · cases hrest : bs.dropWhile (fun c => !isBlank c) with
    | nil => exact .inl rfl
    | cons b more =>
      refine .inr ⟨b, more, rfl, ?_⟩
      have hhead := List.head?_dropWhile_not (fun c => !isBlank c) bs
      rw [hrest] at hhead
      simpa using hhead

theorem blank_split (bs : List UInt8) :
    ∃ blanks rest, bs = blanks ++ rest ∧ (∀ b ∈ blanks, isBlank b = true) ∧
      ∀ c, rest.head? = some c → isBlank c = false := by
  refine ⟨bs.takeWhile isBlank, bs.dropWhile isBlank, List.takeWhile_append_dropWhile.symm,
    fun b hb => List.mem_takeWhile_imp hb, ?_⟩
  intro c hc
  have hhead := List.head?_dropWhile_not isBlank bs
  rw [hc] at hhead
  simpa using hhead

/-- Skipping the blanks in front of the rest of a line. -/
theorem skipBlanks_line (done blanks rest junk : List UInt8) (hb : ∀ b ∈ blanks, isBlank b = true)
    (hrest : ∀ c, rest.head? = some c → isBlank c = false) :
    skipBlanks (done ++ (blanks ++ (rest ++ 0 :: junk))) done.length =
      .ok (done.length + blanks.length) := by
  cases rest with
  | nil => exact skipBlanks_append done blanks junk hb (by decide)
  | cons c rest => exact skipBlanks_append done blanks (rest ++ 0 :: junk) hb (hrest c rfl)

/-- At the end of the line, or with no room in `argv`, the loop is done. -/
theorem parseLoop_stop {maxArgs : Nat} {bs : List UInt8} {argv : List Nat} (done junk : List UInt8)
    (hstop : bs = [] ∨ maxArgs ≤ argv.length) :
    parseLoop maxArgs (done ++ (bs ++ 0 :: junk)) done.length argv =
      .ok (done ++ (bs ++ 0 :: junk), argv) := by
  rw [parseLoop]
  cases bs with
  | nil =>
    rw [List.nil_append, cellAt_append]
    simp [bind, Except.bind, pure, Except.pure]
  | cons c cs =>
    have hfull : maxArgs ≤ argv.length := hstop.resolve_left (List.cons_ne_nil c cs)
    rw [List.cons_append, cellAt_append]
    simp only [bind, Except.bind]
    rw [dif_neg fun h => absurd h.2 (Nat.not_lt.mpr hfull)]
    rfl

/-- One turn of the loop at a word, which ends at the terminator or at a blank `b`. -/
theorem parseLoop_word {maxArgs : Nat} {tok : List UInt8} {argv : List Nat} {b : UInt8}
    (done rest : List UInt8) (hne : tok ≠ []) (htok : ∀ c ∈ tok, c ≠ 0 ∧ isBlank c = false)
    (hb : b = 0 ∨ isBlank b = true) (hroom : argv.length < maxArgs) :
    parseLoop maxArgs (done ++ (tok ++ b :: rest)) done.length argv =
      if b = 0 then .ok (done ++ (tok ++ b :: rest), argv ++ [done.length])
      else (skipBlanks (done ++ (tok ++ [0]) ++ rest) (done ++ (tok ++ [0])).length).bind fun q =>
        parseLoop maxArgs (done ++ (tok ++ [0]) ++ rest) q (argv ++ [done.length]) := by
  obtain ⟨c, hc, hc0⟩ : ∃ c, cellAt (done ++ (tok ++ b :: rest)) done.length = .ok c ∧ c ≠ 0 := by
    cases tok with
    | nil => exact absurd rfl hne
    | cons c cs => exact ⟨c, cellAt_append done (cs ++ b :: rest) c, (htok c List.mem_cons_self).1⟩
  have hend : cellAt (done ++ (tok ++ b :: rest)) (done.length + tok.length) = .ok b := by
    have h := cellAt_append (done ++ tok) rest b
    rw [List.append_assoc, List.length_append] at h
    exact h
  have hset : (done ++ (tok ++ b :: rest)).set (done.length + tok.length) 0 =
      done ++ (tok ++ [0]) ++ rest := by
    rw [List.set_append_right _ _ (Nat.le_add_right _ _), Nat.add_sub_cancel_left,
      List.set_append_right _ _ (Nat.le_refl _), Nat.sub_self]
    simp only [List.cons_append, List.set_cons_zero, List.append_assoc, List.nil_append]
  have hlen : (done ++ (tok ++ [0])).length = done.length + tok.length + 1 := by
    rw [List.length_append, List.length_append, List.length_singleton, Nat.add_assoc]
  rw [parseLoop, hc]
  simp only [bind, Except.bind]
  rw [dif_pos ⟨hc0, hroom⟩, tokenEnd_append done tok rest htok hb]
  simp only [hend, hset, hlen]
  rfl

/-- From a word on, the loop cuts the words of the rest of the line, as far as `argv` has room, and
leaves what lies in front of it alone. -/
theorem parseLoop_spec (maxArgs : Nat) (done bs junk : List UInt8) (argv : List Nat) (h0 : 0 ∉ bs)
    (hhead : ∀ c, bs.head? = some c → isBlank c = false) :
    ∃ tail offs, parseLoop maxArgs (done ++ (bs ++ 0 :: junk)) done.length argv =
        .ok (done ++ tail, argv ++ offs) ∧
      List.Forall₂ (HasString (done ++ tail)) offs ((tokens bs).take (maxArgs - argv.length)) := by
  induction hn : bs.length using Nat.strong_induction_on generalizing done bs argv with
  | h n ih =>
    obtain ⟨tok, rest, hbs, htok, hrest⟩ := word_split bs h0
    by_cases hstop : bs = [] ∨ maxArgs ≤ argv.length
    · have hnone : (tokens bs).take (maxArgs - argv.length) = [] := by
        rcases hstop with hnil | hfull
        · rw [hnil, tokens_nil, List.take_nil]
        · rw [Nat.sub_eq_zero_of_le hfull, List.take_zero]
      refine ⟨bs ++ 0 :: junk, [], ?_, by rw [hnone]; exact .nil⟩
      rw [List.append_nil]
      exact parseLoop_stop done junk hstop
    have hne : bs ≠ [] := fun h => hstop (.inl h)
    have hroom : argv.length < maxArgs := Nat.lt_of_not_le fun h => hstop (.inr h)
    -- the line begins with a word
    have htokne : tok ≠ [] := by
      rintro rfl
      rcases hrest with hrest | ⟨b, more, hrest, hb⟩
      · exact hne (by rw [hbs, hrest]; rfl)
      · have hfirst := hhead b (by rw [hbs, hrest]; rfl)
        rw [hb] at hfirst
        cases hfirst
    have htok0 : 0 ∉ tok := fun h => (htok 0 h).1 rfl
    have hwords : ∀ c ∈ tok, isBlank c = false := fun c hc => (htok c hc).2
    have htake : ∀ ts : List (List UInt8), (tok :: ts).take (maxArgs - argv.length) =
        tok :: ts.take (maxArgs - (argv ++ [done.length]).length) := by
      intro ts
      rw [List.length_append, List.length_singleton,
        show maxArgs - argv.length = maxArgs - (argv.length + 1) + 1 by omega, List.take_succ_cons]
    rcases hrest with hrest | ⟨b, more, hrest, hb⟩
    · -- the last word: the terminator of the line is its own
      rw [hrest, List.append_nil] at hbs
      subst hbs
      refine ⟨bs ++ 0 :: junk, [done.length], ?_, ?_⟩
      · rw [parseLoop_word done junk htokne htok (.inl rfl) hroom, if_pos rfl]
      · rw [tokens_word hwords htokne, htake, List.take_nil]
        exact .cons (hasString_append htok0) .nil
    · -- a blank follows: it becomes the terminator, and the loop goes on behind the blanks
      obtain ⟨blanks, bs', hmore, hblanks, hhead'⟩ := blank_split more
      subst hmore hrest hbs
      have hb0 : b ≠ 0 := by
        rintro rfl
        revert hb
        decide
      have h0' : 0 ∉ bs' := fun h => h0 (by simp [h])
      obtain ⟨tail, offs, hrun, hstrings⟩ := ih bs'.length (by rw [← hn]; simp; omega)
        (done ++ (tok ++ [0]) ++ blanks) bs' (argv ++ [done.length]) h0' hhead' rfl
      have hcells : done ++ (tok ++ 0 :: (blanks ++ tail)) =
          done ++ (tok ++ [0]) ++ blanks ++ tail := by
        simp [List.append_assoc]
      have hskip := skipBlanks_line (done ++ (tok ++ [0])) blanks bs' junk hblanks hhead'
      rw [← List.length_append] at hskip
      refine ⟨tok ++ 0 :: (blanks ++ tail), done.length :: offs, ?_, ?_⟩
      · rw [List.append_assoc tok, List.cons_append, List.append_assoc blanks,
          parseLoop_word done (blanks ++ (bs' ++ 0 :: junk)) htokne htok (.inr hb) hroom,
          if_neg hb0, hskip, hcells]
        rw [List.append_assoc _ blanks, List.append_assoc argv] at hrun
        exact hrun
      · rw [tokens_word_blank hwords htokne hb, tokens_blanks _ _ hblanks, htake]
        refine .cons (hasString_append htok0) ?_
        rw [hcells]
        exact hstrings

/-- `argc` and `argv` are the first words of the line. -/
theorem shellParseLine_spec (s : CString) (junk : List UInt8) (maxArgs : Nat) :
    ∃ cells argv, shellParseLine (s.ptr ++ junk) maxArgs = .ok (cells, argv) ∧
      List.Forall₂ (HasString cells) argv ((tokens s.bytes).take maxArgs) := by
  obtain ⟨blanks, bs, hbytes, hblanks, hhead⟩ := blank_split s.bytes
  have h0 : 0 ∉ bs := by
    intro h
    exact s.nonzero 0 (by rw [hbytes]; exact List.mem_append_right _ h) rfl
  have hline : s.ptr ++ junk = blanks ++ (bs ++ 0 :: junk) := by
    unfold CString.ptr
    rw [hbytes]
    simp [List.append_assoc]
  have hskip : skipBlanks (s.ptr ++ junk) 0 = .ok blanks.length := by
    have h := skipBlanks_line [] blanks bs junk hblanks hhead
    rw [List.nil_append, List.length_nil, Nat.zero_add] at h
    rw [hline]
    exact h
  obtain ⟨tail, offs, hrun, hstrings⟩ := parseLoop_spec maxArgs blanks bs junk [] h0 hhead
  refine ⟨blanks ++ tail, offs, ?_, ?_⟩
  · unfold shellParseLine
    rw [hskip]
    show parseLoop maxArgs (s.ptr ++ junk) blanks.length [] = _
    rw [hline, hrun, List.nil_append]
  · rw [hbytes, tokens_blanks _ _ hblanks]
    exact hstrings

/-! ## The copies -/

theorem copyChars_spec (bs junk : List UInt8) (room : Nat) (h0 : ∀ c ∈ bs, c ≠ 0)
    (hlen : bs.length ≤ room) : copyChars room (bs ++ 0 :: junk) = .ok bs := by
  induction bs generalizing room with
  | nil =>
    cases room with
    | zero => rfl
    | succ room => rfl
  | cons c bs ih =>
    cases room with
    | zero => exact absurd hlen (Nat.not_succ_le_zero _)
    | succ room =>
      have hrest :=
        ih room (fun d hd => h0 d (List.mem_cons_of_mem c hd)) (Nat.le_of_succ_le_succ hlen)
      rw [List.cons_append, copyChars, if_neg (h0 c List.mem_cons_self), hrest]
      rfl

/-- A line that fits is copied whole. -/
theorem copyLine_spec (s : CString) (dst junk : List UInt8)
    (hlen : s.bytes.length ≤ shellMaxLine - 1) :
    copyLine dst (s.ptr ++ junk) = .ok (s.ptr ++ dst.drop (s.bytes.length + 1)) := by
  have hptr : ∀ r, s.ptr ++ r = s.bytes ++ 0 :: r := by
    intro r
    unfold CString.ptr
    rw [List.append_assoc]
    rfl
  unfold copyLine
  rw [hptr, copyChars_spec s.bytes junk _ s.nonzero hlen, hptr]
  rfl

/-- The slot that was allocated holds the line. -/
theorem shellProcAlloc_line {procs procs' : List ShellProc} {s : CString} {junk : List UInt8}
    {i : Nat}
    (hlen : s.bytes.length ≤ shellMaxLine - 1)
    (h : shellProcAlloc procs (s.ptr ++ junk) = .ok (some (i, procs'))) :
    ∃ rest, (procs'.map ShellProc.line).getD i [] = s.ptr ++ rest := by
  unfold shellProcAlloc at h
  split at h
  · cases h
  · next j hj =>
    rw [copyLine_spec s _ _ hlen] at h
    cases h
    have hlt : i < procs.length := (List.findIdx?_eq_some_iff_getElem.mp hj).1
    refine ⟨((procs.map ShellProc.line).getD i []).drop (s.bytes.length + 1), ?_⟩
    rw [List.getD_eq_getElem?_getD, List.getElem?_map, List.getElem?_set_self hlt]
    rfl

/-- A free slot is found. -/
theorem shellProcAlloc_free {procs : List ShellProc} {s : CString} {junk : List UInt8}
    (hlen : s.bytes.length ≤ shellMaxLine - 1) (hfree : ∃ p ∈ procs, p.inUse = false) :
    ∃ i procs', shellProcAlloc procs (s.ptr ++ junk) = .ok (some (i, procs')) := by
  unfold shellProcAlloc
  cases hfind : procs.findIdx? (fun p => !p.inUse) with
  | none =>
    obtain ⟨p, hp, hused⟩ := hfree
    have hall := List.findIdx?_eq_none_iff.mp hfind p hp
    rw [hused] at hall
    cases hall
  | some i =>
    simp only [copyLine_spec s _ _ hlen]
    exact ⟨_, _, rfl⟩

/-! ## The worker -/

/-- What the words of a line ask for. -/
def requestFor : List (List UInt8) → Request
  | [] => .empty
  | name :: args =>
    match shellFindCmd name with
    | none => .unknown name
    | some (cmd, inShell) => .run { cmd, args := name :: args } inShell

theorem requestOf_eq {cells : List UInt8} {argv : List Nat} {toks : List (List UInt8)}
    (h : List.Forall₂ (HasString cells) argv toks) : requestOf cells argv = requestFor toks := by
  have hmap : argv.map (stringAt cells) = toks := by
    induction h with
    | nil => rfl
    | cons hs _ ih => rw [List.map_cons, hs.stringAt, ih]
  unfold requestOf
  rw [hmap]
  rfl

theorem requestFor_args {toks : List (List UInt8)} {command : Command} {inShell : Bool}
    (h : requestFor toks = .run command inShell) : command.args = toks := by
  cases toks with
  | nil => cases h
  | cons name args =>
    simp only [requestFor] at h
    split at h
    · cases h
    · cases h
      rfl

theorem shellParseLine_request (s : CString) (junk : List UInt8) :
    ∃ cells argv, shellParseLine (s.ptr ++ junk) shellMaxArgs = .ok (cells, argv) ∧
      requestOf cells argv = requestFor ((tokens s.bytes).take shellMaxArgs) := by
  obtain ⟨cells, argv, hparse, hstrings⟩ := shellParseLine_spec s junk shellMaxArgs
  exact ⟨cells, argv, hparse, requestOf_eq hstrings⟩

/-- The worker finds in its slot what the words of the line ask for. -/
theorem shellCmdWorker_eq {procs : List ShellProc} {s : CString} {i : Nat} {rest : List UInt8}
    (hlen : s.bytes.length ≤ shellMaxLine - 1)
    (hline : (procs.map ShellProc.line).getD i [] = s.ptr ++ rest) (localLine : List UInt8) :
    shellCmdWorker procs i localLine =
      .ok (requestFor ((tokens s.bytes).take shellMaxArgs)) := by
  obtain ⟨cells, argv, hparse, hreq⟩ :=
    shellParseLine_request s (localLine.drop (s.bytes.length + 1))
  unfold shellCmdWorker
  rw [hline, copyLine_spec s _ _ hlen]
  show (do
    let (cells, argv) ← shellParseLine (s.ptr ++ localLine.drop (s.bytes.length + 1)) shellMaxArgs
    return requestOf cells argv) = _
  rw [hparse]
  show Except.ok (requestOf cells argv) = _
  rw [hreq]

/-- For every line of at most 127 characters, whatever lies in the buffers: the parser returns its
first eight words, each with its terminator, and a worker that the dispatcher starts runs the
command that the dispatcher found, with the same arguments. -/
theorem worker_runs_dispatched (s : CString) (hlen : s.bytes.length ≤ shellMaxLine - 1)
    (junk raw localLine : List UInt8) (procs : List ShellProc) :
    (∃ cells argv, shellParseLine (s.ptr ++ junk) shellMaxArgs = .ok (cells, argv) ∧
      List.Forall₂ (HasString cells) argv ((tokens s.bytes).take shellMaxArgs)) ∧
    ∃ d, shellDispatchLine procs raw (s.ptr ++ junk) = .ok d ∧
      (∀ command, requestFor ((tokens s.bytes).take shellMaxArgs) = .run command false →
        (∃ p ∈ procs, p.inUse = false) → ∃ i procs', d = .worker command i procs') ∧
      ∀ command i procs', d = .worker command i procs' →
        command.args = (tokens s.bytes).take shellMaxArgs ∧
        shellCmdWorker procs' i localLine = .ok (.run command false) := by
  refine ⟨shellParseLine_spec s junk shellMaxArgs, ?_⟩
  obtain ⟨cells, argv, hparse, hreq⟩ := shellParseLine_request s junk
  unfold shellDispatchLine
  rw [copyLine_spec s raw junk hlen, hparse]
  simp only [bind, Except.bind, hreq]
  split
  · next command hrun =>
    -- a command for a worker: the slot gets the copy of the line
    cases halloc : shellProcAlloc procs (s.ptr ++ raw.drop (s.bytes.length + 1)) with
    | error e =>
      exfalso
      unfold shellProcAlloc at halloc
      split at halloc
      · cases halloc
      · rw [copyLine_spec s _ _ hlen] at halloc
        cases halloc
    | ok slot =>
      cases slot with
      | none =>
        refine ⟨_, rfl, fun _ _ hfree => ?_, nofun⟩
        obtain ⟨i, procs', hsome⟩ := shellProcAlloc_free hlen hfree
        rw [halloc] at hsome
        cases hsome
      | some slot =>
        obtain ⟨i, procs'⟩ := slot
        refine ⟨_, rfl, fun command' hrun' _ => ⟨i, procs', ?_⟩, ?_⟩
        · rw [hrun] at hrun'
          cases hrun'
          rfl
        intro command' i' procs'' heq
        cases heq
        obtain ⟨rest, hline⟩ := shellProcAlloc_line hlen halloc
        refine ⟨requestFor_args hrun, ?_⟩
        rw [shellCmdWorker_eq hlen hline, hrun]
  · next hother =>
    exact ⟨_, rfl, fun command hrun _ => absurd hrun (hother command), nofun⟩

/-- `"  sleep\t 5 "`. -/
def sleepLine : CString where
  bytes := "  sleep\t 5 ".toList.map ascii
  nonzero := by decide +kernel

/-- The dispatcher of `sleep 5` starts a worker, which runs `sleep 5`. -/
theorem worker_runs_sleep :
    ∃ command i procs',
      shellDispatchLine (List.replicate 4 ⟨false, []⟩) [] sleepLine.ptr =
        .ok (.worker command i procs') ∧
      command = ⟨.sleep, ["sleep".toList.map ascii, "5".toList.map ascii]⟩ ∧
      shellCmdWorker procs' i [] = .ok (.run command false) := by
  obtain ⟨d, hd, hstart, hsame⟩ := (worker_runs_dispatched sleepLine (by decide) [] [] []
    (List.replicate 4 ⟨false, []⟩)).2
  obtain ⟨i, procs', rfl⟩ := hstart ⟨.sleep, ["sleep".toList.map ascii, "5".toList.map ascii]⟩
    (by decide +kernel) ⟨⟨false, []⟩, List.mem_replicate.mpr ⟨by decide, rfl⟩, rfl⟩
  rw [List.append_nil] at hd
  exact ⟨_, i, procs', hd, rfl, (hsame _ i procs' rfl).2⟩

end Ccos
