import Mathlib.Tactic
import Ccos.Log.Ring
import Ccos.Printf.LogFormat

/-!
# Log records

`log_vprintf` of `lib/log.c`, with `LOG_BUFFER_SIZE` 256: it builds one record in a local buffer and
hands it to the ring and to the writer.  The newline at the end is only written if there is room for
it, so a record is a line of its own exactly when prefix and body stay below 255 characters.
-/

namespace Ccos

open Printf Reasoning.Overwrite

/-! ## The code -/

inductive LogPathMode where
  | none | basename | full
  deriving DecidableEq, Repr

/-- The internal state of `lib/log.c`, and what the writer has received so far. -/
structure LogState where
  ring : LogRing
  level : Int
  pathMode : LogPathMode
  /-- `s_ts_fn` is set. -/
  tsFn : Bool
  /-- `s_write_fn` is set. -/
  writeFn : Bool
  written : List (List UInt8)

/-- The arguments of a call, the time `s_ts_fn` would return and what lies in the local buffer. -/
structure LogCall where
  level : Int
  file : Option CString
  line : Int32
  func : Option CString
  fmt : CString
  ap : VaList
  ts : UInt32
  stack : Nat → UInt8

def logBufferSize : Nat := 256

def newline : UInt8 := 10

def logLevelToString (level : Int) : List UInt8 :=
  if level = 1 then [ascii 'E']
  else if level = 2 then [ascii 'W']
  else if level = 3 then [ascii 'I']
  else if level = 4 then [ascii 'D']
  else if level = 5 then [ascii 'T']
  else [ascii '?']

/-- `for (p = file; *p; ++p)`: the part of the path behind its last separator. -/
def basenameLoop (base : List UInt8) : List UInt8 → List UInt8
  | [] => base
  | c :: p => if c = ascii '/' ∨ c = 92 then basenameLoop p p else basenameLoop base p

def fileToPrint (mode : LogPathMode) (file : List UInt8) : List UInt8 :=
  if mode = .basename then basenameLoop file file else file

/-- `"[1234] "`, if there is a clock. -/
def logAppendTs (st : LogState) (c : LogCall) (o : LogOut) : LogOut :=
  if st.tsFn then
    let o := logAppendChar logBufferSize o (ascii '[')
    let o := logAppendUint logBufferSize o c.ts.toUInt64 10 false 0 (ascii ' ')
    let o := logAppendChar logBufferSize o (ascii ']')
    logAppendChar logBufferSize o (ascii ' ')
  else o

def logAppendLevel (c : LogCall) (o : LogOut) : LogOut :=
  let o := logAppendChar logBufferSize o (ascii '[')
  let o := logAppendBytes logBufferSize o (logLevelToString c.level)
  let o := logAppendChar logBufferSize o (ascii ']')
  logAppendChar logBufferSize o (ascii ' ')

def logAppendFile (st : LogState) (c : LogCall) (o : LogOut) : LogOut :=
  match c.file with
  | none => o
  | some file =>
    if st.pathMode = .none then o
    else
      let o := logAppendBytes logBufferSize o (fileToPrint st.pathMode file.bytes)
      let o := logAppendChar logBufferSize o (ascii ':')
      -- `(uint64_t)line` of an `int`: sign-extended
      let o := logAppendUint logBufferSize o c.line.toInt64.toUInt64 10 false 0 (ascii ' ')
      logAppendChar logBufferSize o (ascii ' ')

def logAppendFunc (c : LogCall) (o : LogOut) : LogOut :=
  match c.func with
  | none => o
  | some func =>
    let o := logAppendBytes logBufferSize o func.bytes
    logAppendBytes logBufferSize o [ascii '(', ascii ')', ascii ':', ascii ' ']

/-- The buffer up to the message body. -/
def logPrefix (st : LogState) (c : LogCall) : LogOut :=
  let o : LogOut := { buf := c.stack, pos := 0 }
  logAppendFunc c (logAppendFile st c (logAppendLevel c (logAppendTs st c o)))

/-- `pos += log_vformat(buf + pos, LOG_BUFFER_SIZE - pos, fmt, ap)`. -/
def logBody (strs : Strings) (c : LogCall) (o : LogOut) : Except StrFault LogOut := do
  let (dst, n) ←
    logVformat strs (fun i => o.buf (o.pos + i)) (logBufferSize - o.pos) c.fmt.ptr c.ap
  return { buf := fun i => if i < o.pos then o.buf i else dst (i - o.pos), pos := o.pos + n }

/-- `if (pos < LOG_BUFFER_SIZE - 1) buf[pos++] = '\n'; buf[pos] = '\0'`. -/
def logFinish (o : LogOut) : LogOut :=
  let o := if o.pos < logBufferSize - 1 then
    { buf := Function.update o.buf o.pos newline, pos := o.pos + 1 } else o
  { o with buf := Function.update o.buf o.pos 0 }

/-- `buf` and `pos` of `log_vprintf` when it takes the lock. -/
def logRecord (strs : Strings) (st : LogState) (c : LogCall) : Except StrFault LogOut := do
  let o ← logBody strs c (logPrefix st c)
  return logFinish o

/-- The result and the state behind the call. -/
def logVprintf (cap : Nat) (strs : Strings) (st : LogState) (c : LogCall) :
    Except StrFault (Nat × LogState) :=
  -- filtered: neither ring nor writer see the call
  if c.level ≤ 0 ∨ st.level < c.level then return (0, st)
  else do
    let o ← logRecord strs st c
    let data := (List.range o.pos).map o.buf
    return (o.pos,
      { st with
        ring := ringWrite cap st.ring data
        written := if st.writeFn then st.written ++ [data] else st.written })

/-! ## What a call prints -/

def prefixText (st : LogState) (c : LogCall) : List UInt8 :=
  (if st.tsFn then
      ascii '[' :: (numeral (ascii 'a') 10 c.ts.toUInt64.toNat ++ [ascii ']', ascii ' '])
    else []) ++
  (ascii '[' :: (logLevelToString c.level ++ [ascii ']', ascii ' '])) ++
  (match c.file with
    | none => []
    | some file =>
      if st.pathMode = .none then []
      else fileToPrint st.pathMode file.bytes ++ (ascii ':' ::
        (numeral (ascii 'a') 10 c.line.toInt64.toUInt64.toNat ++ [ascii ' ']))) ++
  (match c.func with
    | none => []
    | some func => func.bytes ++ [ascii '(', ascii ')', ascii ':', ascii ' '])

/-- Prefix and body, however long. -/
def rendered (strs : Strings) (st : LogState) (c : LogCall) : List UInt8 :=
  prefixText st c ++ printedText strs c.fmt.ptr c.ap

/-- The bytes of the record. -/
def recordText (text : List UInt8) : List UInt8 :=
  if text.length < logBufferSize - 1 then text ++ [newline] else text.take (logBufferSize - 1)

section Prefix

variable {st : LogState} {c : LogCall} {buf : Nat → UInt8}

theorem logAppendTs_written (text : List UInt8) :
    logAppendTs st c (logWritten logBufferSize buf text) = logWritten logBufferSize buf (text ++
      (if st.tsFn then
          ascii '[' :: (numeral (ascii 'a') 10 c.ts.toUInt64.toNat ++ [ascii ']', ascii ' '])
        else [])) := by
  unfold logAppendTs
  split
  · simp only [logAppendChar_written, logAppendUint_written _ _ (by decide : 10 ≤ 10),
      List.append_assoc]
    rfl
  · rw [List.append_nil]

theorem logAppendLevel_written (text : List UInt8) :
    logAppendLevel c (logWritten logBufferSize buf text) = logWritten logBufferSize buf
      (text ++ (ascii '[' :: (logLevelToString c.level ++ [ascii ']', ascii ' ']))) := by
  unfold logAppendLevel
  simp only [logAppendChar_written, logAppendBytes_written, List.append_assoc]
  rfl

theorem logAppendFile_written (text : List UInt8) :
    logAppendFile st c (logWritten logBufferSize buf text) = logWritten logBufferSize buf (text ++
      (match c.file with
        | none => []
        | some file =>
          if st.pathMode = .none then []
          else fileToPrint st.pathMode file.bytes ++ (ascii ':' ::
            (numeral (ascii 'a') 10 c.line.toInt64.toUInt64.toNat ++ [ascii ' '])))) := by
  unfold logAppendFile
  split
  · rw [List.append_nil]
  · split
    · rw [List.append_nil]
    · simp only [logAppendChar_written, logAppendBytes_written,
        logAppendUint_written _ _ (by decide : 10 ≤ 10), List.append_assoc]
      rfl

theorem logAppendFunc_written (text : List UInt8) :
    logAppendFunc c (logWritten logBufferSize buf text) = logWritten logBufferSize buf (text ++
      (match c.func with
        | none => []
        | some func => func.bytes ++ [ascii '(', ascii ')', ascii ':', ascii ' '])) := by
  unfold logAppendFunc
  split
  · rw [List.append_nil]
  · simp only [logAppendBytes_written, List.append_assoc]

theorem logPrefix_eq (st : LogState) (c : LogCall) :
    logPrefix st c = logWritten logBufferSize c.stack (prefixText st c) := by
  unfold logPrefix prefixText
  simp only
  rw [← logWritten_nil logBufferSize, logAppendTs_written, logAppendLevel_written,
    logAppendFile_written,
    logAppendFunc_written, List.nil_append]

end Prefix

/-! ## The record -/

/-- The first cells of the buffer behind the body. -/
theorem cells_of_parts (front back : Nat → UInt8) (m n : Nat) :
    (List.range (m + n)).map (fun i => if i < m then front i else back (i - m)) =
      (List.range m).map front ++ (List.range n).map back := by
  rw [List.range_add, List.map_append, List.map_map]
  congr 1
  · apply List.map_congr_left
    intro i hi
    exact if_pos (List.mem_range.mp hi)
  · apply List.map_congr_left
    intro i _
    show (if m + i < m then front (m + i) else back (m + i - m)) = back i
    rw [if_neg (by omega), Nat.add_sub_cancel_left]

/-- The body is appended to the prefix, as far as there is room. -/
theorem logBody_eq (strs : Strings) (st : LogState) (c : LogCall) :
    (endsInDirective c.fmt.ptr = true ∧ (rendered strs st c).length < logBufferSize - 1 ∧
      logBody strs c (logPrefix st c) = .error .overread) ∨
    ¬(endsInDirective c.fmt.ptr = true ∧ (rendered strs st c).length < logBufferSize - 1) ∧
      ∃ o, logBody strs c (logPrefix st c) = .ok o ∧
        o.pos = min (rendered strs st c).length (logBufferSize - 1) ∧
        (List.range o.pos).map o.buf = (rendered strs st c).take (logBufferSize - 1) := by
  have hsize : logBufferSize = 256 := rfl
  have hlen : (rendered strs st c).length =
      (prefixText st c).length + (printedText strs c.fmt.ptr c.ap).length := List.length_append
  have hpos : (logPrefix st c).pos = min (prefixText st c).length 255 := by
    rw [logPrefix_eq]
    rfl
  have hbuf : (logPrefix st c).buf = overwrite c.stack ((prefixText st c).take 255) := by
    rw [logPrefix_eq]
    rfl
  unfold logBody
  rw [logVformat_eq, hpos, hbuf, hsize, hlen]
  -- the scan runs past a dangling directive only while the buffer has room
  by_cases hover : endsInDirective c.fmt.ptr = true ∧
      (printedText strs c.fmt.ptr c.ap).length < 256 - min (prefixText st c).length 255 - 1
  · rw [if_pos hover]
    exact .inl ⟨hover.1, by omega, rfl⟩
  · rw [if_neg hover]
    refine .inr ⟨fun h => hover ⟨h.1, by omega⟩, _, rfl, ?_, ?_⟩
    · show min (prefixText st c).length 255 + min (printedText strs c.fmt.ptr c.ap).length _ = _
      omega
    · show (List.range (min (prefixText st c).length 255 +
        min (printedText strs c.fmt.ptr c.ap).length
          (256 - min (prefixText st c).length 255 - 1))).map _ = _
      -- the cells of prefix and body, each cut where the buffer ends
      rw [cells_of_parts, map_range_update, map_range_overwrite _ (by rw [List.length_take]; omega),
        map_range_overwrite _ (by rw [List.length_take]; omega)]
      unfold rendered
      rw [List.take_append, List.take_take, List.take_take]
      congr 1
      · rw [List.take_eq_take_iff]
        omega
      · rw [List.take_eq_take_iff]
        omega

/-- The record that leaves the buffer. -/
theorem logFinish_cells {o : LogOut} {text : List UInt8}
    (hpos : o.pos = min text.length (logBufferSize - 1))
    (hcells : (List.range o.pos).map o.buf = text.take (logBufferSize - 1)) :
    (logFinish o).pos = (recordText text).length ∧
      (List.range (logFinish o).pos).map (logFinish o).buf = recordText text := by
  have hsize : logBufferSize = 256 := rfl
  unfold logFinish recordText
  by_cases hroom : text.length < logBufferSize - 1
  · have hlt : o.pos < logBufferSize - 1 := by omega
    have hwhole : text.take (logBufferSize - 1) = text := List.take_of_length_le (by omega)
    simp only [if_pos hlt, if_pos hroom]
    constructor
    · rw [List.length_append, List.length_singleton]
      omega
    · rw [map_range_update, List.range_succ, List.map_append, map_range_update, hcells, hwhole,
        List.map_singleton, Function.update_self]
  · have hge : ¬ o.pos < logBufferSize - 1 := by omega
    simp only [if_neg hge, if_neg hroom]
    constructor
    · rw [List.length_take, hpos, Nat.min_comm]
    · rw [map_range_update, hcells]

/-- The state behind a call that hands over `data`. -/
def LogState.hand (cap : Nat) (st : LogState) (data : List UInt8) : LogState :=
  { st with
    ring := ringWrite cap st.ring data
    written := if st.writeFn then st.written ++ [data] else st.written }

/-- The record is built, unless the format carries the cursor away before the buffer is full. -/
theorem logRecord_cases (strs : Strings) (st : LogState) (c : LogCall) :
    (endsInDirective c.fmt.ptr = true ∧ (rendered strs st c).length < logBufferSize - 1 ∧
      logRecord strs st c = .error .overread) ∨
    ¬(endsInDirective c.fmt.ptr = true ∧ (rendered strs st c).length < logBufferSize - 1) ∧
      ∃ o, logRecord strs st c = .ok o ∧ o.pos = (recordText (rendered strs st c)).length ∧
        (List.range o.pos).map o.buf = recordText (rendered strs st c) := by
  unfold logRecord
  rcases logBody_eq strs st c with ⟨hend, hlen, hbody⟩ | ⟨hin, o, hbody, hpos, hcells⟩
  · rw [hbody]
    exact .inl ⟨hend, hlen, rfl⟩
  · rw [hbody]
    exact .inr ⟨hin, logFinish o, rfl, logFinish_cells hpos hcells⟩

theorem logVprintf_of_record (cap : Nat) {strs : Strings} {st : LogState} {c : LogCall} {o : LogOut}
    (hlevel : 0 < c.level ∧ c.level ≤ st.level) (hrec : logRecord strs st c = .ok o) :
    logVprintf cap strs st c = .ok (o.pos, st.hand cap ((List.range o.pos).map o.buf)) := by
  unfold logVprintf
  rw [if_neg (by omega), hrec]
  rfl

/-! ## One call, one line -/

/-- The call hands one record, the same bytes to the ring and to the writer, and the record is one
line. -/
structure OneLine (cap : Nat) (strs : Strings) (st : LogState) (c : LogCall) (o : LogOut) :
    Prop where
  built : logRecord strs st c = .ok o
  handed : logVprintf cap strs st c = .ok (o.pos, st.hand cap ((List.range o.pos).map o.buf))
  bounded : o.pos ≤ logBufferSize - 1
  line : ∃ text, (List.range o.pos).map o.buf = text ++ [newline] ∧ newline ∉ text

/-- The format is whole, and the newline finds room behind prefix and body. -/
def LineFits (strs : Strings) (st : LogState) (c : LogCall) : Prop :=
  endsInDirective c.fmt.ptr = false ∧
    (prefixText st c).length + (printedText strs c.fmt.ptr c.ap).length < logBufferSize - 1

theorem LineFits.length {strs : Strings} {st : LogState} {c : LogCall} (h : LineFits strs st c) :
    (rendered strs st c).length < logBufferSize - 1 := by
  unfold rendered
  rw [List.length_append]
  exact h.2

theorem LineFits.recordText {strs : Strings} {st : LogState} {c : LogCall}
    (h : LineFits strs st c) :
    recordText (rendered strs st c) = rendered strs st c ++ [newline] :=
  if_pos h.length

theorem LineFits.built {strs : Strings} {st : LogState} {c : LogCall} (h : LineFits strs st c) :
    ∃ o, logRecord strs st c = .ok o ∧ o.pos = (rendered strs st c).length + 1 ∧
      (List.range o.pos).map o.buf = rendered strs st c ++ [newline] := by
  rcases logRecord_cases strs st c with ⟨hend, -, -⟩ | ⟨-, o, hrec, hpos, hcells⟩
  · rw [h.1] at hend
    cases hend
  · rw [h.recordText] at hpos hcells
    rw [List.length_append, List.length_singleton] at hpos
    exact ⟨o, hrec, hpos, hcells⟩

theorem oneLine_iff (cap : Nat) (strs : Strings) {st : LogState} {c : LogCall}
    (hlevel : 0 < c.level ∧ c.level ≤ st.level) (hplain : newline ∉ rendered strs st c) :
    (∃ o, OneLine cap strs st c o) ↔ LineFits strs st c := by
  constructor
  · rintro ⟨o, h⟩
    rcases logRecord_cases strs st c with ⟨-, -, hover⟩ | ⟨hin, o', hrec, -, hcells⟩
    · rw [h.built] at hover
      cases hover
    · rw [h.built] at hrec
      cases hrec
      obtain ⟨text, hline, -⟩ := h.line
      have hroom : (rendered strs st c).length < logBufferSize - 1 := by
        -- a full buffer is a part of the rendered text, which has no newline
        by_contra hfull
        have htake : recordText (rendered strs st c) =
            (rendered strs st c).take (logBufferSize - 1) := if_neg hfull
        apply hplain
        apply List.mem_of_mem_take (i := logBufferSize - 1)
        rw [← htake, ← hcells, hline]
        exact List.mem_append_right _ (List.mem_singleton.mpr rfl)
      have hwhole : endsInDirective c.fmt.ptr = false := by
        cases hend : endsInDirective c.fmt.ptr with
        | false => rfl
        | true => exact absurd ⟨hend, hroom⟩ hin
      unfold rendered at hroom
      rw [List.length_append] at hroom
      exact ⟨hwhole, hroom⟩
  · intro hfits
    obtain ⟨o, hrec, hpos, hcells⟩ := hfits.built
    have hlen := hfits.length
    exact ⟨o, hrec, logVprintf_of_record cap hlevel hrec, by omega, _, hcells, hplain⟩

/-! ## Sequences of calls -/

/-- One call after the other. -/
def logCalls (cap : Nat) (strs : Strings) (st : LogState) : List LogCall → Except StrFault LogState
  | [] => .ok st
  | c :: calls => do
    let (_, st) ← logVprintf cap strs st c
    logCalls cap strs st calls

/-- The records that a sequence of calls hands over when each of them is a line. -/
def lineRecords (strs : Strings) (st : LogState) (calls : List LogCall) : List (List UInt8) :=
  calls.map fun c => rendered strs st c ++ [newline]

theorem logCalls_eq (cap : Nat) (strs : Strings) (calls : List LogCall) (st : LogState)
    (hcalls : ∀ c ∈ calls, (0 < c.level ∧ c.level ≤ st.level) ∧ LineFits strs st c) :
    logCalls cap strs st calls =
      .ok ((lineRecords strs st calls).foldl (LogState.hand cap) st) := by
  induction calls generalizing st with
  | nil => rfl
  | cons c calls ih =>
    obtain ⟨hlevel, hfits⟩ := hcalls c List.mem_cons_self
    obtain ⟨o, hrec, -, hcells⟩ := hfits.built
    unfold logCalls
    rw [logVprintf_of_record cap hlevel hrec, hcells]
    -- the record changes neither what the next calls print nor which of them pass
    exact ih _ fun d hd => hcalls d (List.mem_cons_of_mem c hd)

theorem foldl_hand (cap : Nat) (st : LogState) (records : List (List UInt8)) :
    (records.foldl (LogState.hand cap) st).ring = records.foldl (ringWrite cap) st.ring ∧
      (records.foldl (LogState.hand cap) st).written =
        if st.writeFn then st.written ++ records else st.written := by
  induction records generalizing st with
  | nil =>
    refine ⟨rfl, ?_⟩
    show st.written = if st.writeFn then st.written ++ [] else st.written
    rw [List.append_nil, ite_self]
  | cons data records ih =>
    obtain ⟨hring, hwritten⟩ := ih (st.hand cap data)
    refine ⟨hring, hwritten.trans ?_⟩
    show (if st.writeFn then (if st.writeFn then st.written ++ [data] else st.written) ++ records
      else (if st.writeFn then st.written ++ [data] else st.written)) = _
    split
    · rw [List.append_assoc]
      rfl
    · rfl

/-- Lines that end in their only newline are found again by splitting. -/
theorem splitOn_lines (lines : List (List UInt8)) (hlines : ∀ l ∈ lines, newline ∉ l) :
    (lines.map (· ++ [newline])).flatten.splitOn newline = lines ++ [[]] := by
  induction lines with
  | nil => rfl
  | cons l lines ih =>
    rw [List.map_cons, List.flatten_cons, List.append_assoc]
    show (l ++ newline :: (lines.map (· ++ [newline])).flatten).splitOn newline = _
    rw [List.splitOn_append_cons_self, List.splitOn_eq_singleton (hlines l List.mem_cons_self),
      ih fun l' hl' => hlines l' (List.mem_cons_of_mem l hl')]
    rfl

/-- A call that passes the filter and renders no newline hands over exactly one line exactly when
the format is whole and prefix and body leave room for the newline.  In a sequence of such calls the
ring and the writer get one record per call, and the stream splits into one line per call. -/
theorem log_call_is_one_line (cap : Nat) (strs : Strings) (st : LogState) :
    (∀ c : LogCall, 0 < c.level ∧ c.level ≤ st.level → newline ∉ rendered strs st c →
      ((∃ o, OneLine cap strs st c o) ↔ LineFits strs st c)) ∧
    ∀ calls : List LogCall,
      (∀ c ∈ calls, (0 < c.level ∧ c.level ≤ st.level) ∧ newline ∉ rendered strs st c ∧
        LineFits strs st c) →
      ∃ st', logCalls cap strs st calls = .ok st' ∧
        st'.ring = (lineRecords strs st calls).foldl (ringWrite cap) st.ring ∧
        st'.written =
          (if st.writeFn then st.written ++ lineRecords strs st calls else st.written) ∧
        (lineRecords strs st calls).flatten.splitOn newline =
          calls.map (rendered strs st) ++ [[]] := by
  refine ⟨fun c hlevel hplain => oneLine_iff cap strs hlevel hplain, ?_⟩
  intro calls hcalls
  have hrun := logCalls_eq cap strs calls st fun c hc => ⟨(hcalls c hc).1, (hcalls c hc).2.2⟩
  obtain ⟨hring, hwritten⟩ := foldl_hand cap st (lineRecords strs st calls)
  refine ⟨_, hrun, hring, hwritten, ?_⟩
  have hlines : ∀ l ∈ calls.map (rendered strs st), newline ∉ l := by
    intro l hl
    obtain ⟨c, hc, rfl⟩ := List.mem_map.mp hl
    exact (hcalls c hc).2.1
  have hsplit := splitOn_lines _ hlines
  rw [List.map_map] at hsplit
  exact hsplit

/-! ## A short and a long message -/

/-- `log_printf(LOG_LEVEL_INFO, NULL, 0, NULL, "%s", s)`. -/
def logString (s : UInt64) : LogCall where
  level := 3
  file := none
  line := 0
  func := none
  fmt := { bytes := [ascii '%', ascii 's'], nonzero := by decide +kernel }
  ap := Stream'.const s
  ts := 0
  stack := fun _ => 0

def infoLog : LogState where
  ring := {}
  level := 3
  pathMode := .basename
  tsFn := false
  writeFn := true
  written := []

/-- `n` times `a`. -/
def manyChars (n : Nat) : CString where
  bytes := List.replicate n (ascii 'a')
  nonzero := by
    intro c hc
    rw [List.eq_of_mem_replicate hc]
    decide

theorem logString_head (s : UInt64) : (logString s).fmt.ptr.head? ≠ some 0 := by
  show some (ascii '%') ≠ some 0
  decide

theorem printedText_logString (strs : Strings) {s : UInt64} (hs : s ≠ 0) :
    printedText strs (logString s).fmt.ptr (logString s).ap = (strs s).bytes := by
  have hstep : printedText strs (logString s).fmt.ptr (logString s).ap = _ :=
    printedText_step (i := .directive ⟨ascii ' ', 0, .none, ascii 's'⟩) (q := [0])
      (logString_head s) rfl
  rw [hstep, if_neg nofun, printedText_zero, List.append_nil]
  exact if_neg hs

theorem endsInDirective_logString (s : UInt64) : endsInDirective (logString s).fmt.ptr = false := by
  have hstep : endsInDirective (logString s).fmt.ptr = _ :=
    endsInDirective_step (i := .directive ⟨ascii ' ', 0, .none, ascii 's'⟩) (q := [0])
      (logString_head s) rfl
  rw [hstep]
  exact endsInDirective_zero []

theorem newline_not_mem_logString (n : Nat) :
    newline ∉ rendered (fun _ => manyChars n) infoLog (logString 8) := by
  unfold rendered
  rw [printedText_logString _ (by decide)]
  intro hmem
  rcases List.mem_append.mp hmem with h | h
  · exact absurd h (by decide)
  · exact absurd (List.eq_of_mem_replicate h) (by decide)

theorem lineFits_logString (n : Nat) :
    LineFits (fun _ => manyChars n) infoLog (logString 8) ↔ n < 251 := by
  unfold LineFits
  rw [printedText_logString _ (by decide)]
  have hfront : (prefixText infoLog (logString 8)).length = 4 := rfl
  have hbody : ((fun _ => manyChars n : Strings) 8).bytes.length = n := List.length_replicate
  have hsize : logBufferSize = 256 := rfl
  rw [hfront, hbody, hsize]
  constructor
  · intro h
    omega
  · intro h
    exact ⟨endsInDirective_logString 8, by omega⟩

/-- 250 characters behind `"[I] "` still make a line. -/
theorem log_call_is_one_line_250 :
    ∃ o, OneLine 2048 (fun _ => manyChars 250) infoLog (logString 8) o :=
  ((log_call_is_one_line 2048 (fun _ => manyChars 250) infoLog).1 (logString 8) (by decide)
    (newline_not_mem_logString 250)).mpr ((lineFits_logString 250).mpr (by decide))

/-- 251 characters do not: the record of 255 bytes has no newline. -/
theorem log_call_251_runs_on :
    newline ∉ rendered (fun _ => manyChars 251) infoLog (logString 8) ∧
      ¬ ∃ o, OneLine 2048 (fun _ => manyChars 251) infoLog (logString 8) o := by
  refine ⟨newline_not_mem_logString 251, fun h => ?_⟩
  have hfits : LineFits (fun _ => manyChars 251) infoLog (logString 8) :=
    (oneLine_iff 2048 _ (by decide) (newline_not_mem_logString 251)).mp h
  exact absurd ((lineFits_logString 251).mp hfits) (by decide)

end Ccos
