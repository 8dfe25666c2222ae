import Mathlib.Tactic
import Ccos.Printf.Log

/-!
# The scan of `log_vformat`

What each directive prints, with its width and pad, and where the scan of the format ends.  The
cursor is moved behind the specifier without a look at it, so a format that ends inside a directive
carries the cursor over the terminator.
-/

namespace Ccos.Printf

open Reasoning.Overwrite

variable {strs : Strings} {ap : VaList} {buf : Nat → UInt8} {p q : List UInt8} {max : Nat}

/-! ## What a directive prints -/

/-- `%d`: the sign, then the padded magnitude. -/
def signedField (v : Int64) (width : Int) (pad : UInt8) : List UInt8 :=
  if v < 0 then
    ascii '-' :: uintField (ascii 'a') 10 v.toInt.natAbs
      (if 0 < width then width - 1 else width) pad
  else uintField (ascii 'a') 10 v.toInt.natAbs width pad

def logDirectiveText (strs : Strings) (d : LogDirective) (ap : VaList) : List UInt8 × VaList :=
  if d.spec = ascii 's' then (textAt strs ap.head, ap.tail)
  else if d.spec = ascii 'c' then ([ap.head.toUInt8], ap.tail)
  else if d.spec = ascii 'd' ∨ d.spec = ascii 'i' then
    (signedField (signedArg d.lenMod ap.head) d.width d.pad, ap.tail)
  else if d.spec = ascii 'u' then
    (uintField (ascii 'a') 10 (unsignedArg d.lenMod ap.head).toNat d.width d.pad, ap.tail)
  else if d.spec = ascii 'x' ∨ d.spec = ascii 'X' then
    (uintField (if decide (d.spec = ascii 'X') then ascii 'A' else ascii 'a') 16
      (unsignedArg d.lenMod ap.head).toNat d.width d.pad, ap.tail)
  else if d.spec = ascii 'p' then
    ([ascii '0', ascii 'x'] ++ uintField (ascii 'a') 16 ap.head.toNat 0 (ascii ' '), ap.tail)
  else ([ascii '%', d.spec], ap)

def logItemText (strs : Strings) (ap : VaList) : LogItem → List UInt8 × VaList
  | .literal c => ([c], ap)
  | .directive d => logDirectiveText strs d ap

theorem logAppendSigned_written (text : List UInt8) (v : Int64) (width : Int) (pad : UInt8) :
    (if v < 0 then
      logAppendUint max (logAppendChar max (logWritten max buf text) (ascii '-')) (-v).toUInt64 10
        false (if 0 < width then width - 1 else width) pad
    else logAppendUint max (logWritten max buf text) v.toUInt64 10 false width pad) =
      logWritten max buf (text ++ signedField v width pad) := by
  have hmag := magnitude v
  unfold signedField
  split
  · next hv =>
    rw [if_pos hv] at hmag
    rw [logAppendChar_written, logAppendUint_field _ _ (by decide), hmag, List.append_assoc]
    rfl
  · next hv =>
    rw [if_neg hv] at hmag
    rw [logAppendUint_field _ _ (by decide), hmag]
    rfl

theorem logOutDirective_text (text : List UInt8) (d : LogDirective) :
    logOutDirective strs max d ap (logWritten max buf text) =
      (logWritten max buf (text ++ (logDirectiveText strs d ap).1),
        (logDirectiveText strs d ap).2) := by
  unfold logOutDirective logDirectiveText
  split
  · exact congrArg (·, ap.tail) (logAppendBytes_written text _)
  split
  · exact congrArg (·, ap.tail) (logAppendChar_written text _)
  split
  · simp only [← logAppendSigned_written]
    split
    · rfl
    · rfl
  split
  · exact congrArg (·, ap.tail) (logAppendUint_field text _ (by decide) false _ _)
  split
  · exact congrArg (·, ap.tail) (logAppendUint_field text _ (by decide) _ _ _)
  split
  · simp only [logAppendBytes_written]
    rw [logAppendUint_field _ _ (by decide), List.append_assoc]
    rfl
  · rw [logAppendChar_written, logAppendChar_written, List.append_assoc]
    rfl

theorem logOutItem_text (text : List UInt8) (it : LogItem) :
    logOutItem strs max ap (logWritten max buf text) it =
      (logWritten max buf (text ++ (logItemText strs ap it).1), (logItemText strs ap it).2) := by
  cases it with
  | literal c => exact congrArg (·, ap) (logAppendChar_written text c)
  | directive d => exact logOutDirective_text text d

/-! ## Where the scan ends -/

/-- The format ends inside a directive: its last turn leaves the cursor behind the terminator. -/
def endsInDirective (p : List UInt8) : Bool :=
  if p.head? = some 0 then false
  else
    match _ : logNextItem p with
    | .error _ => true
    | .ok (_, q) => endsInDirective q
termination_by p.length
decreasing_by exact logNextItem_length (by assumption)

/-- The text of the format up to its end, or up to a directive that it ends in. -/
def printedText (strs : Strings) (p : List UInt8) (ap : VaList) : List UInt8 :=
  if p.head? = some 0 then []
  else
    match _ : logNextItem p with
    | .error _ => []
    | .ok (it, q) =>
      if q = [] then [] else (logItemText strs ap it).1 ++
        printedText strs q (logItemText strs ap it).2
termination_by p.length
decreasing_by exact logNextItem_length (by assumption)

theorem endsInDirective_nil : endsInDirective [] = true := by
  rw [endsInDirective]
  rfl

theorem endsInDirective_zero (r : List UInt8) : endsInDirective (0 :: r) = false := by
  rw [endsInDirective]
  exact if_pos rfl

theorem printedText_zero (r : List UInt8) : printedText strs (0 :: r) ap = [] := by
  rw [printedText]
  exact if_pos rfl

section Step

variable {i : LogItem} (hp : p.head? ≠ some 0) (hit : logNextItem p = .ok (i, q))

include hp hit

theorem endsInDirective_step : endsInDirective p = endsInDirective q := by
  rw [endsInDirective, if_neg hp]
  split
  · next h =>
    rw [hit] at h
    cases h
  · next h =>
    rw [hit] at h
    cases h
    rfl

theorem printedText_step :
    printedText strs p ap =
      if q = [] then []
      else (logItemText strs ap i).1 ++ printedText strs q (logItemText strs ap i).2 := by
  rw [printedText, if_neg hp]
  split
  · next h =>
    rw [hit] at h
    cases h
  · next h =>
    rw [hit] at h
    cases h
    rfl

end Step

theorem logParsePad_ok (h : 0 ∈ p) : ∃ pad q, logParsePad p = .ok (pad, q) ∧ 0 ∈ q := by
  cases p with
  | nil => cases h
  | cons c p =>
    unfold logParsePad
    simp only [deref, bind, Except.bind, List.tail_cons]
    split
    · next hc => exact ⟨ascii '0', p, rfl, mem_tail_of_ne h (by rw [hc]; decide)⟩
    · exact ⟨ascii ' ', c :: p, rfl, h⟩

theorem logParseLength_ok (h : 0 ∈ p) : ∃ m q, logParseLength p = .ok (m, q) ∧ 0 ∈ q := by
  cases p with
  | nil => cases h
  | cons c p =>
    unfold logParseLength
    simp only [deref, bind, Except.bind, List.tail_cons]
    split
    · next hc =>
      have hp : 0 ∈ p := mem_tail_of_ne h (by rw [hc]; decide)
      cases p with
      | nil => cases hp
      | cons b r =>
        simp only
        split
        · next hb => exact ⟨.ll, r, rfl, mem_tail_of_ne hp (by rw [hb]; decide)⟩
        · exact ⟨.l, b :: r, rfl, hp⟩
    · exact ⟨.none, c :: p, rfl, h⟩

theorem logParseDirective_ok (h : 0 ∈ p) : ∃ d q, logParseDirective p = .ok (d, q) := by
  obtain ⟨pad, p₁, h₁, m₁⟩ := logParsePad_ok h
  obtain ⟨w, p₂, h₂, m₂⟩ := parseWidth_ok m₁ 0
  obtain ⟨m, p₃, h₃, m₃⟩ := logParseLength_ok m₂
  obtain ⟨c, hc, -⟩ := deref_of_mem m₃
  unfold logParseDirective
  simp only [h₁, h₂, h₃, hc, bind, Except.bind]
  exact ⟨_, _, rfl⟩

/-- One turn of the loop reads no further than the terminator. -/
theorem logNextItem_ok (h : 0 ∈ p) (hp : p.head? ≠ some 0) :
    ∃ it q, logNextItem p = .ok (it, q) := by
  cases p with
  | nil => cases h
  | cons c p =>
    have hc : c ≠ 0 := fun h0 => hp (by rw [h0]; rfl)
    have hm : 0 ∈ p := mem_tail_of_ne h hc
    obtain ⟨c', hc', -⟩ := deref_of_mem hm
    obtain ⟨d, q, hd⟩ := logParseDirective_ok hm
    have hfirst : deref (c :: p) = .ok c := rfl
    unfold logNextItem
    simp only [hfirst, List.tail_cons, hc', hd, bind, Except.bind]
    split
    · exact ⟨_, _, rfl⟩
    · split
      · exact ⟨_, _, rfl⟩
      · exact ⟨_, _, rfl⟩

theorem logNextItem_suffix {it : LogItem} (h : logNextItem p = .ok (it, q)) : q <:+ p := by
  obtain ⟨c, hc, h⟩ := Reasoning.bind_eq_ok.mp h
  split at h
  · cases h
    exact List.tail_suffix p
  · obtain ⟨c', -, h⟩ := Reasoning.bind_eq_ok.mp h
    split at h
    · cases h
      exact (List.tail_suffix p.tail).trans (List.tail_suffix p)
    · obtain ⟨⟨d, r⟩, hr, h⟩ := Reasoning.bind_eq_ok.mp h
      cases h
      exact (List.tail_suffix r).trans ((logParseDirective_suffix hr).trans (List.tail_suffix p))

/-- The cursor behind an item still ends with the terminator, unless it has left the format. -/
theorem getLast_suffix {p q : List UInt8} (hs : q <:+ p) (hlast : p.getLast? = some 0)
    (hq : q ≠ []) :
    q.getLast? = some 0 := by
  obtain ⟨r, rfl⟩ := hs
  rw [List.getLast?_append_of_ne_nil r hq] at hlast
  exact hlast

/-! ## The loop -/

theorem logVformatLoop_nil (strs : Strings) (max : Nat) (ap : VaList) (o : LogOut) :
    logVformatLoop strs max [] ap o = .error .overread := by
  rw [logVformatLoop]
  rfl

theorem logVformatLoop_stop {c : UInt8} {r : List UInt8} {o : LogOut}
    (h : ¬(c ≠ 0 ∧ o.pos < max - 1)) : logVformatLoop strs max (c :: r) ap o = .ok o := by
  rw [logVformatLoop]
  show (if c ≠ 0 ∧ o.pos < max - 1 then _ else Except.ok o) = _
  rw [if_neg h]

theorem logVformatLoop_item {c : UInt8} {r : List UInt8} {o : LogOut} {it : LogItem}
    (h : c ≠ 0 ∧ o.pos < max - 1) (hit : logNextItem (c :: r) = .ok (it, q)) :
    logVformatLoop strs max (c :: r) ap o =
      logVformatLoop strs max q (logOutItem strs max ap o it).2
        (logOutItem strs max ap o it).1 := by
  rw [logVformatLoop]
  simp only [deref, if_pos h]
  split
  · next heq =>
    rw [hit] at heq
    cases heq
  · next heq =>
    rw [hit] at heq
    cases heq
    rfl

theorem logWritten_nil (max : Nat) (buf : Nat → UInt8) :
    logWritten max buf [] = { buf := buf, pos := 0 } := by
  unfold logWritten
  simp

theorem logWritten_pos (text : List UInt8) :
    (logWritten max buf text).pos < max - 1 ↔ text.length < max - 1 := by
  unfold logWritten
  simp only
  omega

/-- The scan leaves the format exactly when it comes to a directive that the format ends in before
the buffer is full. -/
theorem logVformatLoop_scan (strs : Strings) (max : Nat) (buf : Nat → UInt8) (ap : VaList)
    (text : List UInt8) (hlast : p.getLast? = some 0) :
    logVformatLoop strs max p ap (logWritten max buf text) =
      if endsInDirective p = true ∧ (text ++ printedText strs p ap).length < max - 1 then
        .error .overread
      else .ok (logWritten max buf (text ++ printedText strs p ap)) := by
  induction hn : p.length using Nat.strong_induction_on generalizing p ap text with
  | h n ih =>
    obtain - | ⟨c, r⟩ := p
    · cases hlast
    by_cases hc : c = 0
    · rw [hc, logVformatLoop_stop (fun h => h.1 rfl), endsInDirective_zero, printedText_zero,
        List.append_nil, if_neg fun h => Bool.false_ne_true h.1]
    have hhead : (c :: r).head? ≠ some 0 := fun h => hc (Option.some.inj h)
    obtain ⟨it, q, hit⟩ := logNextItem_ok (List.mem_of_getLast? hlast) hhead
    rw [endsInDirective_step hhead hit, printedText_step hhead hit]
    by_cases hroom : (logWritten max buf text).pos < max - 1
    · rw [logVformatLoop_item ⟨hc, hroom⟩ hit, logOutItem_text]
      by_cases hq : q = []
      · -- the item was cut off: the cursor is behind the terminator, whatever the room
        rw [hq, logVformatLoop_nil, endsInDirective_nil, if_pos rfl, List.append_nil,
          if_pos ⟨rfl, (logWritten_pos text).mp hroom⟩]
      · have hlen : q.length < n := hn ▸ logNextItem_length hit
        have hlast' := getLast_suffix (logNextItem_suffix hit) hlast hq
        rw [ih q.length hlen _ _ hlast' rfl, if_neg hq, List.append_assoc]
    · -- no room: the rest of the format is not scanned
      have hfull : ¬ text.length < max - 1 := fun h => hroom ((logWritten_pos text).mpr h)
      rw [logVformatLoop_stop fun h => hroom h.2, logWritten_full _ hroom, if_neg]
      intro h
      rw [List.length_append] at h
      omega

theorem CString.getLast_ptr (s : CString) : s.ptr.getLast? = some 0 :=
  List.getLast?_concat

theorem logVformat_eq (strs : Strings) (dst : Nat → UInt8) (dstSize : Nat) (fmt : CString)
    (ap : VaList) :
    logVformat strs dst dstSize fmt.ptr ap =
      if endsInDirective fmt.ptr = true ∧
          (printedText strs fmt.ptr ap).length < dstSize - 1 then .error .overread
      else
        .ok (Function.update
            (overwrite dst ((printedText strs fmt.ptr ap).take (dstSize - 1)))
            (min (printedText strs fmt.ptr ap).length (dstSize - 1)) 0,
          min (printedText strs fmt.ptr ap).length (dstSize - 1)) := by
  have hloop := logVformatLoop_scan strs dstSize dst ap [] fmt.getLast_ptr
  rw [logWritten_nil, List.nil_append] at hloop
  unfold logVformat
  rw [hloop]
  split
  · rfl
  · rfl

/-- For every format, argument list and buffer, `log_vformat` returns without a read behind the
terminator, and writes inside the buffer only, exactly when the format does not end inside a
directive or the text in front of that directive fills the buffer. -/
theorem log_vformat_stays_inside (strs : Strings) (dst : Nat → UInt8) (dstSize : Nat)
    (hsize : 1 ≤ dstSize) (fmt : CString) (ap : VaList) :
    (∃ dst' pos, logVformat strs dst dstSize fmt.ptr ap = .ok (dst', pos) ∧ pos < dstSize ∧
      ∀ i, dstSize ≤ i → dst' i = dst i) ↔
    (endsInDirective fmt.ptr = false ∨ dstSize - 1 ≤ (printedText strs fmt.ptr ap).length) := by
  rw [logVformat_eq]
  split
  · next hover =>
    refine iff_of_false nofun fun h => ?_
    rcases h with hwhole | hfull
    · rw [hwhole] at hover
      exact Bool.false_ne_true hover.1
    · exact absurd hfull (Nat.not_le_of_lt hover.2)
  · next hin =>
    refine iff_of_true ⟨_, _, rfl, by omega, fun i hi => ?_⟩ ?_
    · rw [Function.update_of_ne (by omega)]
      apply overwrite_outside
      rw [List.length_take]
      omega
    · by_cases hend : endsInDirective fmt.ptr = true
      · exact .inr (Nat.le_of_not_lt fun h => hin ⟨hend, h⟩)
      · exact .inl (Bool.not_eq_true _ ▸ hend)

/-- `"ok%"`. -/
def danglingPercent : CString where
  bytes := [ascii 'o', ascii 'k', ascii '%']
  nonzero := by decide +kernel

/-- `"ok%d"`. -/
def completeDirective : CString where
  bytes := [ascii 'o', ascii 'k', ascii '%', ascii 'd']
  nonzero := by decide +kernel

theorem endsInDirective_danglingPercent : endsInDirective danglingPercent.ptr = true := by
  rw [endsInDirective_step (i := .literal (ascii 'o')) (q := [ascii 'k', ascii '%', 0])
      (by decide) rfl,
    endsInDirective_step (i := .literal (ascii 'k')) (q := [ascii '%', 0]) (by decide) rfl,
    endsInDirective_step (i := .directive ⟨ascii ' ', 0, .none, 0⟩) (q := []) (by decide) rfl]
  exact endsInDirective_nil

theorem endsInDirective_completeDirective : endsInDirective completeDirective.ptr = false := by
  rw [endsInDirective_step (i := .literal (ascii 'o')) (q := [ascii 'k', ascii '%', ascii 'd', 0])
      (by decide) rfl,
    endsInDirective_step (i := .literal (ascii 'k')) (q := [ascii '%', ascii 'd', 0])
      (by decide) rfl,
    endsInDirective_step (i := .directive ⟨ascii ' ', 0, .none, ascii 'd'⟩) (q := [0]) (by decide)
      rfl]
  exact endsInDirective_zero []

theorem log_vformat_stays_inside_complete :
    ∃ dst' pos, logVformat (fun _ => completeDirective) (fun _ => 0) 16 completeDirective.ptr
        (Stream'.const 7) = .ok (dst', pos) ∧ pos < 16 ∧ ∀ i, 16 ≤ i → dst' i = 0 :=
  (log_vformat_stays_inside _ (fun _ => 0) 16 (by decide) completeDirective (Stream'.const 7)).mpr
    (.inl endsInDirective_completeDirective)

/-- The three characters of `"ok%"` in a buffer of 16 bytes carry the cursor over the terminator. -/
theorem log_vformat_dangling_percent :
    logVformat (fun _ => completeDirective) (fun _ => 0) 16 danglingPercent.ptr (Stream'.const 7) =
        .error .overread ∧
      ¬ ∃ dst' pos, logVformat (fun _ => completeDirective) (fun _ => 0) 16 danglingPercent.ptr
        (Stream'.const 7) = .ok (dst', pos) ∧ pos < 16 ∧ ∀ i, 16 ≤ i → dst' i = 0 := by
  have hover : logVformat (fun _ => completeDirective) (fun _ => 0) 16 danglingPercent.ptr
      (Stream'.const 7) = .error .overread := by
    rw [logVformat_eq, if_pos]
    refine ⟨endsInDirective_danglingPercent, ?_⟩
    rw [printedText_step (i := .literal (ascii 'o')) (q := [ascii 'k', ascii '%', 0])
        (by decide) rfl,
      if_neg nofun,
      printedText_step (i := .literal (ascii 'k')) (q := [ascii '%', 0]) (by decide) rfl,
      if_neg nofun,
      printedText_step (i := .directive ⟨ascii ' ', 0, .none, 0⟩) (q := []) (by decide) rfl,
      if_pos rfl]
    decide
  refine ⟨hover, ?_⟩
  rintro ⟨dst', pos, hok, -⟩
  rw [hover] at hok
  cases hok

end Ccos.Printf
