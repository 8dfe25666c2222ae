import Mathlib.Tactic
import Ccos.Printf.Stdio

/-!
# `u_vsnprintf` truncates and nothing else

`fullText` is the text that a format and its arguments stand for, as a list that knows no buffer.
The loop of `u_vsnprintf` leaves the first `avail` characters of it in the buffer and counts them
all, so the size changes neither the result nor any character that fits.
-/

namespace Ccos.Printf

open Reasoning.Overwrite

variable {strs : Strings} {ap : VaList} {buf : Nat → UInt8} {p q : List UInt8} {avail : Nat}

/-! ## The full text -/

/-- A value in its field. -/
def padded (d : Directive) (str : List UInt8) (zeroPad : Bool) : List UInt8 :=
  if d.leftAdjust then str ++ List.replicate (padLen d str.length) (ascii ' ')
  else
    List.replicate (padLen d str.length)
      (if zeroPad ∧ d.spec ≠ ascii 's' then ascii '0' else ascii ' ') ++ str

/-- The text of an item and the arguments it leaves. -/
def itemText (strs : Strings) (ap : VaList) : Item → List UInt8 × VaList
  | .literal c => ([c], ap)
  | .directive d =>
    match formatValue strs d ap.head with
    | none => ([ascii '%', d.spec], ap)
    | some (str, zeroPad) => (padded d str zeroPad, ap.tail)

/-- The untruncated output. -/
def fullText (strs : Strings) (fmt : List UInt8) (ap : VaList) : List UInt8 :=
  match _ : nextItem fmt with
  | .error _ => []
  | .ok none => []
  | .ok (some (item, q)) => (itemText strs ap item).1 ++ fullText strs q (itemText strs ap item).2
termination_by fmt.length
decreasing_by exact nextItem_length (by assumption)

/-! ## Emission -/

/-- The output once `text` has been emitted. -/
def written (avail : Nat) (buf : Nat → UInt8) (text : List UInt8) : Out where
  buf := overwrite buf (text.take avail)
  pos := text.length
  total := text.length

theorem outChar_written (text : List UInt8) (c : UInt8) :
    outChar avail (written avail buf text) c = written avail buf (text ++ [c]) := by
  unfold outChar written
  rw [overwrite_take_concat, List.length_append]
  rfl

theorem outText_written (text str : List UInt8) :
    outText avail (written avail buf text) str = written avail buf (text ++ str) := by
  induction str generalizing text with
  | nil =>
    rw [List.append_nil]
    rfl
  | cons c str ih =>
    show outText avail (outChar avail (written avail buf text) c) str = _
    rw [outChar_written, ih, List.append_assoc]
    rfl

theorem outPad_written (text : List UInt8) (c : UInt8) (n : Nat) :
    outPad avail c n (written avail buf text) =
      written avail buf (text ++ List.replicate n c) := by
  induction n generalizing text with
  | zero =>
    rw [List.replicate_zero, List.append_nil]
    rfl
  | succ n ih =>
    show outPad avail c n (outChar avail (written avail buf text) c) = _
    rw [outChar_written, ih, List.append_assoc]
    rfl

/-- One turn of the loop emits the text of its item. -/
theorem outItem_written (text : List UInt8) (item : Item) :
    outItem strs avail ap (written avail buf text) item =
      (written avail buf (text ++ (itemText strs ap item).1), (itemText strs ap item).2) := by
  cases item with
  | literal c =>
    show (outChar avail (written avail buf text) c, ap) = _
    rw [outChar_written]
    rfl
  | directive d =>
    cases hv : formatValue strs d ap.head with
    | none =>
      simp only [outItem, outDirective, itemText, hv]
      rw [outChar_written, outChar_written, List.append_assoc]
      rfl
    | some v =>
      obtain ⟨str, zeroPad⟩ := v
      -- the padding stands on one side of the value or on the other
      cases hl : d.leftAdjust with
      | true =>
        simp only [outItem, outDirective, itemText, hv, padded, hl, if_true, outText_written,
          outPad_written, List.append_assoc]
      | false =>
        simp only [outItem, outDirective, itemText, hv, padded, hl, Bool.false_eq_true, if_false,
          not_false_eq_true, true_and, outText_written, outPad_written, List.append_assoc]

/-! ## The scan stays inside the format -/

theorem mem_tail_of_ne {c : UInt8} (h : 0 ∈ c :: p) (hc : c ≠ 0) : 0 ∈ p := by
  rcases List.mem_cons.mp h with h0 | h0
  · exact absurd h0.symm hc
  · exact h0

theorem parseFlags_ok (h : 0 ∈ p) (l z : Bool) :
    ∃ l' z' q, parseFlags p l z = .ok (l', z', q) ∧ 0 ∈ q := by
  induction p generalizing l z with
  | nil => cases h
  | cons c p ih =>
    unfold parseFlags
    split
    · rename_i hc
      exact ih (mem_tail_of_ne h (by rw [hc]; decide)) true z
    · split
      · rename_i hc
        exact ih (mem_tail_of_ne h (by rw [hc]; decide)) l true
      · exact ⟨l, z, c :: p, rfl, h⟩

theorem isDigitCh_ne_zero {c : UInt8} (h : isDigitCh c = true) : c ≠ 0 := by
  intro hc
  rw [hc] at h
  exact absurd h (by decide)

theorem parseWidth_ok (h : 0 ∈ p) (w : Int) : ∃ w' q, parseWidth p w = .ok (w', q) ∧ 0 ∈ q := by
  induction p generalizing w with
  | nil => cases h
  | cons c p ih =>
    unfold parseWidth
    split
    · rename_i hc
      exact ih (mem_tail_of_ne h (isDigitCh_ne_zero hc)) _
    · exact ⟨w, c :: p, rfl, h⟩

theorem skipDigits_ok (h : 0 ∈ p) : ∃ q, skipDigits p = .ok q ∧ 0 ∈ q := by
  induction p with
  | nil => cases h
  | cons c p ih =>
    unfold skipDigits
    split
    · rename_i hc
      exact ih (mem_tail_of_ne h (isDigitCh_ne_zero hc))
    · exact ⟨c :: p, rfl, h⟩

theorem skipPrecision_ok (h : 0 ∈ p) : ∃ q, skipPrecision p = .ok q ∧ 0 ∈ q := by
  cases p with
  | nil => cases h
  | cons c p =>
    show ∃ q, (if c = ascii '.' then skipDigits p else .ok (c :: p)) = .ok q ∧ 0 ∈ q
    split
    · rename_i hc
      exact skipDigits_ok (mem_tail_of_ne h (by rw [hc]; decide))
    · exact ⟨c :: p, rfl, h⟩

theorem parseLength_ok (h : 0 ∈ p) : ∃ m q, parseLength p = .ok (m, q) ∧ 0 ∈ q := by
  cases p with
  | nil => cases h
  | cons c p =>
    unfold parseLength
    simp only [deref, bind, Except.bind, List.tail_cons]
    split
    · rename_i hc
      have hp : 0 ∈ p := mem_tail_of_ne h (by rw [hc]; decide)
      cases p with
      | nil => cases hp
      | cons b r =>
        simp only
        split
        · rename_i hb
          exact ⟨.ll, r, rfl, mem_tail_of_ne hp (by rw [hb]; decide)⟩
        · exact ⟨.l, b :: r, rfl, hp⟩
    · split
      · rename_i hc
        exact ⟨.z, p, rfl, mem_tail_of_ne h (by rw [hc]; decide)⟩
      · exact ⟨.none, c :: p, rfl, h⟩

/-- A pointer that still has the terminator before it reads some character and, if that is not the
terminator, may move on. -/
theorem deref_of_mem (h : 0 ∈ p) : ∃ c, deref p = .ok c ∧ (c ≠ 0 → 0 ∈ p.tail) := by
  cases p with
  | nil => cases h
  | cons c p => exact ⟨c, rfl, fun hc => mem_tail_of_ne h hc⟩

theorem parseDirective_ok (h : 0 ∈ p) :
    parseDirective p = .ok none ∨
      ∃ d q, parseDirective p = .ok (some (d, q)) ∧ 0 ∈ q.tail := by
  obtain ⟨l, z, p₁, h₁, m₁⟩ := parseFlags_ok h false false
  obtain ⟨w, p₂, h₂, m₂⟩ := parseWidth_ok m₁ 0
  obtain ⟨p₃, h₃, m₃⟩ := skipPrecision_ok m₂
  obtain ⟨m, p₄, h₄, m₄⟩ := parseLength_ok m₃
  obtain ⟨c, hc, m₅⟩ := deref_of_mem m₄
  unfold parseDirective
  simp only [h₁, h₂, h₃, h₄, hc, bind, Except.bind]
  split
  · exact .inl rfl
  · rename_i hne
    exact .inr ⟨_, p₄, rfl, m₅ hne⟩

theorem nextItem_ok (h : 0 ∈ p) :
    nextItem p = .ok none ∨ ∃ it q, nextItem p = .ok (some (it, q)) ∧ 0 ∈ q := by
  obtain ⟨c, hc, m⟩ := deref_of_mem h
  unfold nextItem
  simp only [hc, bind, Except.bind]
  split
  · exact .inl rfl
  · rename_i hne
    split
    · exact .inr ⟨_, p.tail, rfl, m hne⟩
    · obtain ⟨c', hc', m'⟩ := deref_of_mem (m hne)
      simp only [hc']
      split
      · exact .inl rfl
      · rename_i hne'
        split
        · exact .inr ⟨_, p.tail.tail, rfl, m' hne'⟩
        · rcases parseDirective_ok (m hne) with hd | ⟨d, q, hd, hq⟩
          · rw [hd]
            exact .inl rfl
          · rw [hd]
            exact .inr ⟨_, q.tail, rfl, hq⟩

theorem nextItem_literal {c : UInt8} (hc : c ≠ 0) (hp : c ≠ ascii '%') :
    nextItem (c :: p) = .ok (some (.literal c, p)) := by
  simp only [nextItem, deref, bind, Except.bind, if_neg hc, if_pos hp]
  rfl

theorem nextItem_percent :
    nextItem (ascii '%' :: ascii '%' :: p) = .ok (some (.literal (ascii '%'), p)) := rfl

theorem nextItem_directive {c : UInt8} {d : Directive} (hc : c ≠ 0) (hp : c ≠ ascii '%')
    (h : parseDirective (c :: p) = .ok (some (d, q))) :
    nextItem (ascii '%' :: c :: p) = .ok (some (.directive d, q.tail)) := by
  have hzero : ascii '%' ≠ 0 := by decide
  simp only [nextItem, deref, bind, Except.bind, List.tail_cons, if_neg hzero, ne_eq,
    not_true_eq_false, if_false, if_neg hc, if_neg hp, h]
  rfl

/-! ## The loop -/

theorem fullText_done (h : nextItem p = .ok none) : fullText strs p ap = [] := by
  rw [fullText]
  split
  · rfl
  · rfl
  · rename_i hnext
    rw [h] at hnext
    cases hnext

theorem fullText_item {it : Item} (h : nextItem p = .ok (some (it, q))) :
    fullText strs p ap =
      (itemText strs ap it).1 ++ fullText strs q (itemText strs ap it).2 := by
  rw [fullText]
  split
  · rename_i hnext
    rw [h] at hnext
    cases hnext
  · rename_i hnext
    rw [h] at hnext
    cases hnext
  · rename_i hnext
    rw [h] at hnext
    cases hnext
    rfl

theorem uVsnprintfLoop_done {o : Out} (h : nextItem p = .ok none) :
    uVsnprintfLoop strs avail p ap o = .ok o := by
  rw [uVsnprintfLoop]
  split
  · rename_i hnext
    rw [h] at hnext
    cases hnext
  · rfl
  · rename_i hnext
    rw [h] at hnext
    cases hnext

theorem uVsnprintfLoop_item {o : Out} {it : Item} (h : nextItem p = .ok (some (it, q))) :
    uVsnprintfLoop strs avail p ap o =
      uVsnprintfLoop strs avail q (outItem strs avail ap o it).2
        (outItem strs avail ap o it).1 := by
  rw [uVsnprintfLoop]
  split
  · rename_i hnext
    rw [h] at hnext
    cases hnext
  · rename_i hnext
    rw [h] at hnext
    cases hnext
  · rename_i hnext
    rw [h] at hnext
    cases hnext
    rfl

/-- The loop ends without a fault and has emitted the text of the whole format. -/
theorem uVsnprintfLoop_written (h : 0 ∈ p) (text : List UInt8) :
    uVsnprintfLoop strs avail p ap (written avail buf text) =
      .ok (written avail buf (text ++ fullText strs p ap)) := by
  -- on the length of what is left of the format
  induction hn : p.length using Nat.strong_induction_on generalizing p ap text with
  | _ n ih =>
    rcases nextItem_ok h with hnext | ⟨it, q, hnext, hq⟩
    · rw [uVsnprintfLoop_done hnext, fullText_done hnext, List.append_nil]
    · have hlt : q.length < n := hn ▸ nextItem_length hnext
      rw [uVsnprintfLoop_item hnext, fullText_item hnext, outItem_written,
        ih q.length hlt hq _ rfl, List.append_assoc]

theorem uVsnprintf_eq (strs : Strings) (buf : Nat → UInt8) (ap : VaList) (h : 0 ∈ p) (size : Nat) :
    uVsnprintf strs buf size p ap =
      .ok (if 0 < size then
          Function.update (overwrite buf ((fullText strs p ap).take (size - 1)))
            (min (fullText strs p ap).length (size - 1)) 0
        else buf, toInt32 (fullText strs p ap).length) := by
  have hinit : ∀ n, (⟨buf, 0, 0⟩ : Out) = written n buf [] := by
    intro n
    unfold written
    rw [List.take_nil, overwrite_nil]
    rfl
  unfold uVsnprintf
  simp only
  rw [hinit, uVsnprintfLoop_written h, List.nil_append]
  simp only [bind, Except.bind, written, pure, Except.pure]
  congr 2
  split
  · rfl
  · rw [List.take_zero, overwrite_nil]

/-! ## The truncation law -/

theorem CString.zero_mem_ptr (s : CString) : 0 ∈ s.ptr :=
  List.mem_append_right _ (List.mem_singleton.mpr rfl)

theorem toInt32_of_lt {n : Nat} (h : n < 2 ^ 31) : toInt32 n = n := by
  unfold toInt32
  rw [Int.bmod_eq_of_le]
  · omega
  · omega

/-- What the buffer holds below the terminator, at it, and past the size. -/
theorem terminated_buffer (buf : Nat → UInt8) (text : List UInt8) (size : Nat)
    (hsize : 0 < size) :
    let after :=
      Function.update (overwrite buf (text.take (size - 1))) (min text.length (size - 1)) 0
    (List.range (min text.length (size - 1))).map after = text.take (min text.length (size - 1)) ∧
      after (min text.length (size - 1)) = 0 ∧ ∀ i, size ≤ i → after i = buf i := by
  have hlen : (text.take (size - 1)).length = min text.length (size - 1) := by
    rw [List.length_take, Nat.min_comm]
  refine ⟨?_, Function.update_self .., ?_⟩
  · have hbelow : ∀ i ∈ List.range (min text.length (size - 1)),
        Function.update (overwrite buf (text.take (size - 1))) (min text.length (size - 1)) 0 i =
          overwrite buf (text.take (size - 1)) i := by
      intro i hi
      exact Function.update_of_ne (List.mem_range.mp hi).ne _ _
    rw [List.map_congr_left hbelow, map_range_overwrite buf hlen.ge, List.take_take]
    congr 1
    omega
  · intro i hi
    have hne : i ≠ min text.length (size - 1) := by omega
    rw [Function.update_of_ne hne, overwrite_outside]
    rw [hlen]
    omega

/-- The characters `u_snprintf` leaves before the terminator. -/
def shown (text : List UInt8) (size : Nat) : List UInt8 :=
  text.take (min text.length (size - 1))

theorem shown_prefix (text : List UInt8) {size size' : Nat} (h : size ≤ size') :
    shown text size <+: shown text size' := by
  unfold shown
  apply List.take_prefix_take_left
  omega

/-- The last lines of `u_printf`: of a text that does not fit it writes the 255 characters before
the terminator. -/
theorem printed_buffer (text : List UInt8) (stack : Nat → UInt8) :
    (if 0 < (text.length : Int) then
        (.ok ((List.range
          (if (text.length : Int) < 256 then (text.length : Int).toNat else 255)).map
          (Function.update (overwrite stack (text.take (256 - 1))) (min text.length (256 - 1)) 0),
          (text.length : Int)) : Except StrFault (List UInt8 × Int))
      else .ok ([], (text.length : Int))) =
      .ok (text.take (min text.length 255), (text.length : Int)) := by
  have hwrite : (if (text.length : Int) < 256 then (text.length : Int).toNat else 255) =
      min text.length (256 - 1) := by
    split <;> omega
  rw [hwrite, (terminated_buffer stack text 256 (by decide)).1]
  split
  · rfl
  · rename_i hzero
    have hnil : text = [] := List.eq_nil_of_length_eq_zero (by omega)
    rw [hnil]
    rfl

/-- For every format, well formed or not, all arguments and all sizes: `u_vsnprintf` ends without
reading behind the terminator, returns the length of the full text, and leaves the characters of it
that fit, terminated, with no byte from `size` on touched; `u_printf` writes the first 255. -/
theorem u_vsnprintf_truncates (strs : Strings) (fmt : CString) (ap : VaList)
    (hfit : (fullText strs fmt.ptr ap).length < 2 ^ 31) :
    (∀ (buf : Nat → UInt8) (size : Nat), ∃ after,
      uVsnprintf strs buf size fmt.ptr ap = .ok (after, (fullText strs fmt.ptr ap).length) ∧
      (size = 0 → after = buf) ∧
      (0 < size →
        (List.range (min (fullText strs fmt.ptr ap).length (size - 1))).map after =
          shown (fullText strs fmt.ptr ap) size ∧
        after (min (fullText strs fmt.ptr ap).length (size - 1)) = 0 ∧
        ∀ i, size ≤ i → after i = buf i)) ∧
    (∀ size size', size ≤ size' →
      shown (fullText strs fmt.ptr ap) size <+: shown (fullText strs fmt.ptr ap) size') ∧
    ∀ stack, uPrintf strs stack fmt.ptr ap =
      .ok ((fullText strs fmt.ptr ap).take (min (fullText strs fmt.ptr ap).length 255),
        (fullText strs fmt.ptr ap).length) := by
  have heq : ∀ (buf : Nat → UInt8) (size : Nat), uVsnprintf strs buf size fmt.ptr ap = _ :=
    fun buf size => uVsnprintf_eq strs buf ap fmt.zero_mem_ptr size
  simp only [toInt32_of_lt hfit] at heq
  refine ⟨?_, fun size size' => shown_prefix _, ?_⟩
  · intro buf size
    refine ⟨_, heq buf size, ?_, ?_⟩
    · intro h0
      rw [if_neg (by omega)]
    · intro hpos
      rw [if_pos hpos]
      exact terminated_buffer buf _ size hpos
  · intro stack
    unfold uPrintf
    rw [heq stack 256, if_pos (by decide)]
    exact printed_buffer (fullText strs fmt.ptr ap) stack

/-- `x=%5d.` with 42 in six bytes. -/
def sampleFormat : CString where
  bytes := "x=%5d.".toList.map ascii
  nonzero := by decide +kernel

theorem u_vsnprintf_truncates_sample :
    (fullText (fun _ => ⟨[], nofun⟩) sampleFormat.ptr (fun _ => 42)).length = 8 ∧
      ∃ after, uVsnprintf (fun _ => ⟨[], nofun⟩) (fun _ => 0xaa) 6 sampleFormat.ptr
          (fun _ => 42) = .ok (after, 8) ∧
        (List.range 5).map after = "x=   ".toList.map ascii ∧ after 5 = 0 := by
  have hlen : (fullText (fun _ => ⟨[], nofun⟩) sampleFormat.ptr (fun _ => 42)).length = 8 := by
    decide +kernel
  obtain ⟨after, hrun, -, hafter⟩ := (u_vsnprintf_truncates (fun _ => ⟨[], nofun⟩) sampleFormat
    (fun _ => 42) (by rw [hlen]; decide)).1 (fun _ => 0xaa) 6
  rw [hlen] at hrun hafter
  obtain ⟨hshown, hnul, -⟩ := hafter (by decide)
  refine ⟨hlen, after, hrun, hshown.trans ?_, hnul⟩
  decide +kernel

end Ccos.Printf
