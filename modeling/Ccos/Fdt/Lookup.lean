import Mathlib.Tactic
import Ccos.Reasoning.Run
import Ccos.Fdt.Tree

/-!
# Lookups in a tree that a blob holds

The searches of the library go from tag to tag.  Each is first followed over the list of tags the
structure block holds, and then read on the tree these tags are written from.
-/

namespace Ccos

open Reasoning

variable {b : Blob} {off : Nat} {ts : List Token}

/-! ## Tags -/

theorem Layout.probe (h : Layout b) : fdtRoProbe b = b.totalsize := by
  have hv := h.version
  have hl := h.lastComp
  unfold fdtRoProbe
  rw [if_neg (not_not.mpr h.aligned), if_pos h.size, if_pos h.magic, if_neg (by omega),
    if_neg (by omega)]

theorem Layout.probe_nonneg (h : Layout b) : ¬ fdtRoProbe b < 0 := by
  rw [h.probe]
  omega

theorem fdtOffsetPtr_room (hl : Layout b) {len : Nat} (ht : b.offDtStruct + off + len ≤ b.totalsize)
    (hs : 0x11 ≤ b.version → off + len ≤ b.sizeDtStruct) :
    fdtOffsetPtr b off len = some (b.offDtStruct + off) := by
  have hsize := hl.size
  unfold fdtOffsetPtr u32
  dsimp only
  rw [if_neg (by omega), if_neg (by omega), if_neg, Int.toNat_natCast]
  rintro ⟨hv, hbig⟩
  have := hs hv
  omega

theorem i32_small {x : Int} (h0 : 0 ≤ x) (h : x < 0x80000000) : i32 x = x := by
  unfold i32
  rw [if_pos (by omega)]
  omega

/-- The loop over a name ends behind its NUL. -/
theorem skipName_at (hl : Layout b) {name : List UInt8} (hname : 0 ∉ name)
    (hat : b.At (b.offDtStruct + off) (name ++ [0]))
    (ht : b.offDtStruct + off + (name.length + 1) ≤ b.totalsize)
    (hs : 0x11 ≤ b.version → off + (name.length + 1) ≤ b.sizeDtStruct) {fuel : Nat}
    (hf : name.length < fuel) :
    skipName b fuel off = .ok (some ((off + (name.length + 1) : Nat) : Int)) := by
  induction name generalizing off fuel with
  | nil =>
    obtain ⟨fuel, rfl⟩ := Nat.exists_eq_succ_of_ne_zero (Nat.ne_of_gt hf)
    unfold skipName
    rw [fdtOffsetPtr_room hl (by simpa using ht) (by simpa using hs)]
    dsimp only
    rw [Blob.At.ld8 hat]
    rfl
  | cons c name ih =>
    rw [List.length_cons] at ht hs hf
    rw [List.mem_cons, not_or] at hname
    obtain ⟨fuel, rfl⟩ : ∃ k, fuel = k + 1 := ⟨fuel - 1, by omega⟩
    have hstep : skipName b (fuel + 1) off = skipName b fuel ((off + 1 : Nat) : Int) := by
      rw [skipName, fdtOffsetPtr_room hl (by omega) (by omega)]
      dsimp only
      rw [Blob.At.ld8 hat, ok_bind, if_neg (Ne.symm hname.1), Nat.cast_succ]
    have htail : b.At (b.offDtStruct + (off + 1)) (name ++ [0]) := hat.tail
    have hrest := ih hname.2 htail (by omega) (by omega)
      (show name.length < fuel by omega)
    rw [hstep, hrest, List.length_cons, Nat.add_assoc, Nat.add_comm 1]

theorem align4_mod (n : Nat) : align4 n % 4 = 0 := by
  unfold align4
  omega

theorem le_align4 (n : Nat) : n ≤ align4 n ∧ align4 n < n + 4 := by
  unfold align4
  omega

theorem Token.size_mod (tok : Token) : tok.size % 4 = 0 := by
  cases tok <;> simp only [Token.size] <;> have := align4_mod <;> grind [align4]

theorem Token.size_pos (tok : Token) : 4 ≤ tok.size := by
  cases tok <;> simp only [Token.size] <;> omega

/-- The end of a tag whose bytes end at `stop`. -/
theorem fdtTagEnd_room (hl : Layout b) {len stop : Nat} (hr : Room b off len) (tag : FdtTag)
    (hstop : off ≤ stop) (hlen : stop ≤ off + len) (halign : align4 stop = off + len) :
    fdtTagEnd b off tag stop = (tag, ((off + len : Nat) : Int)) := by
  have hsize := hl.size
  have htotal := hr.total
  have hblock := hr.block
  have hu : u32 ((stop : Int) - off) = stop - off := by
    unfold u32
    omega
  have hval : ((stop : Int) + 3) / 4 * 4 = ((off + len : Nat) : Int) := by
    rw [← halign]
    unfold align4
    omega
  have hptr : fdtOffsetPtr b off (u32 ((stop : Int) - off)) = some (b.offDtStruct + off) := by
    rw [hu, fdtOffsetPtr_room hl (by omega) (by omega)]
  simp only [fdtTagEnd, hptr, hval,
    i32_small (x := ((off + len : Nat) : Int)) (by omega) (by omega)]

/-- At a tag the library finds this tag, and behind it the next. -/
theorem fdtNextTag_token (hl : Layout b) {tok : Token} (hr : Room b off tok.size)
    (hat : TokenAt b off tok) :
    fdtNextTag b off = .ok (tok.tag, ((off + tok.size : Nat) : Int)) := by
  have hsize := hl.size
  have htotal := hr.total
  have hblock := hr.block
  have haligned := hr.aligned
  have hpos := tok.size_pos
  unfold fdtNextTag
  rw [fdtOffsetPtr_room hl (by omega) (by omega)]
  dsimp only
  -- a tag without data ends where the next may begin
  have hplain : align4 (off + 4) = off + 4 := by
    unfold align4
    omega
  cases tok with
  | endNode =>
    rw [Blob.At.ld32 hat (by decide), ok_bind]
    have hend := fdtTagEnd_room hl hr .endNode (Nat.le_add_right off 4) le_rfl hplain
    exact congrArg Except.ok hend
  | nop =>
    rw [Blob.At.ld32 hat (by decide), ok_bind]
    have hend := fdtTagEnd_room hl hr .nop (Nat.le_add_right off 4) le_rfl hplain
    exact congrArg Except.ok hend
  | beginNode name =>
    obtain ⟨hname, hbytes⟩ := hat
    have hal := le_align4 (name.length + 1)
    have hword := hbytes.left
    have htext := hbytes.right.left
    rw [Blob.At.ld32 hword (by decide), ok_bind]
    rw [show (off : Int) + 4 = ((off + 4 : Nat) : Int) by omega]
    simp only [Token.size] at htotal hblock hr ⊢
    rw [skipName_at hl hname htext (by omega) (by omega) (by omega), ok_bind]
    have hend : fdtTagEnd b off .beginNode ((off + 4 + (name.length + 1) : Nat) : Int) =
        (.beginNode, ((off + (4 + align4 (name.length + 1)) : Nat) : Int)) :=
      fdtTagEnd_room hl hr .beginNode (by omega) (by omega) (by unfold align4; omega)
    exact congrArg Except.ok hend
  | prop name value =>
    obtain ⟨nameoff, -, hbytes⟩ := hat
    have hal := le_align4 value.length
    have hword := hbytes.left
    have hlen := hbytes.right.left
    simp only [Token.size] at htotal hblock hr ⊢
    rw [Blob.At.ld32 hword (by decide), ok_bind]
    have hptr : fdtOffsetPtr b ((off : Int) + 4) 4 = some (b.offDtStruct + (off + 4)) := by
      rw [show (off : Int) + 4 = ((off + 4 : Nat) : Int) by omega]
      exact fdtOffsetPtr_room hl (by omega) (by omega)
    simp only [FdtTag.ofWord, hptr]
    rw [show b.offDtStruct + (off + 4) = b.offDtStruct + off + (beBytes 3).length from rfl,
      Blob.At.ld32 hlen (by omega), ok_bind, if_neg (by unfold u32; omega),
      if_neg (by have := hl.version; omega)]
    rw [show (off : Int) + 4 + 8 + value.length = ((off + 12 + value.length : Nat) : Int) by omega,
      i32_small (by omega) (by omega)]
    have hend : fdtTagEnd b off .prop ((off + 12 + value.length : Nat) : Int) =
        (.prop, ((off + (12 + align4 value.length) : Nat) : Int)) :=
      fdtTagEnd_room hl hr .prop (by omega) (by omega) (by unfold align4; omega)
    exact congrArg Except.ok hend

theorem fdtNextTag_fin (hl : Layout b) (hr : Room b off 4)
    (hat : b.At (b.offDtStruct + off) (beBytes 9)) :
    fdtNextTag b off = .ok (.fin, ((off + 4 : Nat) : Int)) := by
  have haligned := hr.aligned
  have hend := fdtTagEnd_room hl hr .fin (Nat.le_add_right off 4) le_rfl (by unfold align4; omega)
  unfold fdtNextTag
  rw [fdtOffsetPtr_room hl hr.total hr.block]
  dsimp only
  rw [Blob.At.ld32 hat (by decide), ok_bind]
  exact congrArg Except.ok hend

theorem fdtCheckOffset_token (hl : Layout b) {tok : Token} (hr : Room b off tok.size)
    (hat : TokenAt b off tok) :
    fdtCheckOffset b tok.tag off = .ok ((off + tok.size : Nat) : Int) := by
  have haligned := hr.aligned
  unfold fdtCheckOffset
  rw [if_neg (by omega), fdtNextTag_token hl hr hat, ok_bind]
  exact if_pos rfl

theorem fdtCheckNodeOffset_at (hl : Layout b) {nm : List UInt8}
    (h : TokensAt b off (.beginNode nm :: ts)) :
    fdtCheckNodeOffset b off = .ok ((off + (Token.beginNode nm).size : Nat) : Int) :=
  fdtCheckOffset_token hl h.1 h.2.1

/-- From the start of a node the walk goes on behind its name. -/
theorem fdtNextNode_at (hl : Layout b) {nm : List UInt8}
    (h : TokensAt b off (.beginNode nm :: ts)) (depth : Option Int) :
    fdtNextNode b off depth = nextNodeLoop b (b.totalsize + 2)
      ((off + (Token.beginNode nm).size : Nat) : Int) depth := by
  unfold fdtNextNode
  rw [if_pos (by omega), fdtCheckNodeOffset_at hl h, ok_bind, if_neg (by omega)]

/-- The tags fit into the tree. -/
theorem TokensAt.length_le (h : TokensAt b off ts) : off + 4 * (ts.length + 1) ≤ b.totalsize := by
  induction ts generalizing off with
  | nil =>
    have htotal := h.1.total
    rw [List.length_nil]
    omega
  | cons tok ts ih =>
    have hrest := ih h.2.2
    have hpos := tok.size_pos
    rw [List.length_cons]
    omega

/-! ## Strings -/

theorem Blob.At.memeq {i : Nat} {l s : List UInt8} (h : b.At i l) (hs : s.length ≤ l.length) :
    b.memeq i s = .ok (decide (s <+: l)) := by
  induction s generalizing i l with
  | nil => simp [Blob.memeq]
  | cons c s ih =>
    cases l with
    | nil => exact absurd hs (by simp)
    | cons d l =>
      rw [List.length_cons, List.length_cons] at hs
      unfold Blob.memeq
      rw [h.ld8, ok_bind]
      by_cases hcd : d = c
      · rw [if_pos hcd, ih h.tail (by omega)]
        congr 1
        rw [decide_eq_decide, List.cons_prefix_cons]
        exact ⟨fun hp => ⟨hcd.symm, hp⟩, fun hp => hp.2⟩
      · rw [if_neg hcd]
        congr 1
        symm
        rw [decide_eq_false_iff_not, List.cons_prefix_cons]
        exact fun hp => hcd hp.1.symm

/-- The first NUL is the one behind the string. -/
theorem Blob.At.memchr {i n : Nat} {s : List UInt8} (h : b.At i (s ++ [0])) (hs : 0 ∉ s)
    (hn : s.length < n) : b.memchr 0 i n = .ok (some (i + s.length)) := by
  induction s generalizing i n with
  | nil =>
    obtain ⟨n, rfl⟩ : ∃ k, n = k + 1 := ⟨n - 1, by rw [List.length_nil] at hn; omega⟩
    unfold Blob.memchr
    rw [Blob.At.ld8 h]
    rfl
  | cons c s ih =>
    rw [List.length_cons] at hn ⊢
    rw [List.mem_cons, not_or] at hs
    obtain ⟨n, rfl⟩ : ∃ k, n = k + 1 := ⟨n - 1, by omega⟩
    have htail : b.At (i + 1) (s ++ [0]) := Blob.At.tail h
    have hrest := ih htail hs.2 (show s.length < n by omega)
    unfold Blob.memchr
    rw [Blob.At.ld8 h, ok_bind, if_neg (Ne.symm hs.1), hrest, Nat.add_assoc, Nat.add_comm 1]

theorem Blob.At.memchr_none {i : Nat} {s : List UInt8} (h : b.At i s) (hs : 0 ∉ s) :
    b.memchr 0 i s.length = .ok none := by
  induction s generalizing i with
  | nil => rfl
  | cons c s ih =>
    rw [List.mem_cons, not_or] at hs
    rw [List.length_cons, Blob.memchr, h.ld8, ok_bind, if_neg (Ne.symm hs.1), ih h.tail hs.2]

theorem fdtGetString_at (hl : Layout b) {nameoff : Nat} {s : List UInt8}
    (hs : StringAt b nameoff s) :
    fdtGetString b nameoff = .ok (.ok (b.offDtStrings + nameoff, (s.length : Int))) := by
  have hsize := hl.size
  have hroom := hs.room
  have hblock := hs.block
  have habs : u32 ((nameoff : Int) + b.offDtStrings) = b.offDtStrings + nameoff := by
    unfold u32
    omega
  have hoff : u32 (nameoff : Int) = nameoff := by
    unfold u32
    omega
  have hfind : ∀ n, s.length < n → b.memchr 0 (b.offDtStrings + nameoff) n =
      .ok (some (b.offDtStrings + nameoff + s.length)) :=
    fun n hn => hs.bytes.memchr hs.noNul hn
  unfold fdtGetString
  dsimp only
  rw [if_neg hl.probe_nonneg, hl.probe, habs, hoff, Int.toNat_natCast, if_neg (by omega),
    if_pos hl.magic, if_neg (by omega)]
  by_cases hv : 17 ≤ b.version
  · rw [if_pos hv, if_neg (by omega)]
    dsimp only
    rw [hfind _ (by omega), ok_bind]
    dsimp only
    rw [Nat.cast_add, add_sub_cancel_left]
  · rw [if_neg hv]
    dsimp only
    rw [hfind _ (by omega), ok_bind]
    dsimp only
    rw [Nat.cast_add, add_sub_cancel_left]

theorem fdtStringEq_at (hl : Layout b) {nameoff : Nat} {s name : List UInt8}
    (hs : StringAt b nameoff s) : fdtStringEq b nameoff name = .ok (decide (s = name)) := by
  unfold fdtStringEq
  rw [fdtGetString_at hl hs, ok_bind]
  dsimp only
  by_cases hlen : s.length = name.length
  · rw [if_pos (by omega), hs.bytes.left.memeq (by omega)]
    congr 1
    rw [decide_eq_decide]
    constructor
    · intro hp
      exact (hp.eq_of_length hlen.symm).symm
    · rintro rfl
      exact List.prefix_rfl
  · rw [if_neg (by omega)]
    congr 1
    symm
    rw [decide_eq_false_iff_not]
    rintro rfl
    exact hlen rfl

/-! ## Properties -/

/-- The properties behind the start of a node. -/
def nodeProps : List Token → List DtProp
  | .prop name value :: ts => (name, value) :: nodeProps ts
  | .nop :: ts => nodeProps ts
  | _ => []

/-- Behind the properties comes another node or the end of this one. -/
def PropsClosed : List Token → Prop
  | .prop _ _ :: ts => PropsClosed ts
  | .nop :: ts => PropsClosed ts
  | .beginNode _ :: _ => True
  | .endNode :: _ => True
  | [] => False

theorem Blob.At.append {i : Nat} {xs ys : List UInt8} (h₁ : b.At i xs)
    (h₂ : b.At (i + xs.length) ys) : b.At i (xs ++ ys) := by
  obtain ⟨t, ht⟩ := h₁
  obtain ⟨t', ht'⟩ := h₂
  rw [← List.drop_drop, ← ht, List.drop_left] at ht'
  exact ⟨t', by rw [List.append_assoc, ht', ht]⟩

/-- Every tag starts with a zero byte. -/
theorem TokensAt.zero (h : TokensAt b off ts) : b.At (b.offDtStruct + off) [0] := by
  have hword : ∀ {n : Nat} {l : List UInt8}, n < 0x1000000 →
      b.At (b.offDtStruct + off) (beBytes n ++ l) → b.At (b.offDtStruct + off) [0] := by
    intro n l hn hat
    have hfirst : beBytes n = [0] ++ [(n / 0x10000).toUInt8, (n / 0x100).toUInt8, n.toUInt8] := by
      show (n / 0x1000000).toUInt8 :: _ = _
      rw [Nat.div_eq_of_lt hn]
      rfl
    rw [hfirst, List.append_assoc] at hat
    exact hat.left
  have hbare : ∀ {n : Nat}, n < 0x1000000 → b.At (b.offDtStruct + off) (beBytes n) →
      b.At (b.offDtStruct + off) [0] := by
    intro n hn hat
    rw [← List.append_nil (beBytes n)] at hat
    exact hword hn hat
  cases ts with
  | nil => exact hbare (by decide) h.2
  | cons tok ts =>
    cases tok with
    | beginNode name => exact hword (by decide) h.2.1.2
    | prop name value =>
      obtain ⟨nameoff, -, hat⟩ := h.2.1
      exact hword (by decide) hat
    | endNode => exact hbare (by decide) h.2.1
    | nop => exact hbare (by decide) h.2.1

/-- A value with the byte behind it, which is padding or the start of the next tag. -/
theorem TokensAt.value {name value : List UInt8} (h : TokensAt b off (.prop name value :: ts)) :
    b.At (b.offDtStruct + off + 12) (value ++ [0]) := by
  obtain ⟨-, ⟨nameoff, -, hat⟩, hrest⟩ := h
  have hpadded : b.At (b.offDtStruct + off + 12) (pad4 value) := hat.right.right.right
  have hlen : (pad4 value).length = align4 value.length := by
    have := le_align4 value.length
    unfold pad4
    rw [List.length_append, List.length_replicate]
    omega
  have hzero := hrest.zero
  rw [show b.offDtStruct + (off + (Token.prop name value).size) =
    b.offDtStruct + off + 12 + (pad4 value).length by rw [hlen]; simp only [Token.size]; omega]
      at hzero
  have hall := hpadded.append hzero
  have hmove : ∀ k : Nat, List.replicate k (0 : UInt8) ++ [0] = [0] ++ List.replicate k 0 := by
    intro k
    rw [← List.replicate_one, List.replicate_append_replicate, List.replicate_append_replicate,
      Nat.add_comm]
  unfold pad4 at hall
  rw [List.append_assoc, hmove, ← List.append_assoc] at hall
  exact hall.left

theorem fdtGetPropertyByOffset_at (hl : Layout b) {name value : List UInt8}
    (h : TokensAt b off (.prop name value :: ts)) :
    fdtGetPropertyByOffset b off = .ok (.ok (b.offDtStruct + off, (value.length : Int))) := by
  have hsize := hl.size
  have hroom := h.1.total
  have hal := le_align4 value.length
  obtain ⟨nameoff, -, hat⟩ := h.2.1
  have hword : b.At (b.offDtStruct + off + 4) (beBytes value.length) := hat.right.left
  simp only [Token.size] at hroom
  have hcheck : fdtCheckPropOffset b off = .ok ((off + (Token.prop name value).size : Nat) : Int) :=
    fdtCheckOffset_token hl h.1 h.2.1
  unfold fdtGetPropertyByOffset
  rw [hcheck, ok_bind, if_neg (by omega)]
  dsimp only
  rw [Int.toNat_natCast, hword.ld32 (by omega), ok_bind, i32_small (by omega) (by omega)]
  rfl

/-- What a search among the properties `ps` finds: where the value is. -/
def PropFound (b : Blob) : Option DtProp → Except Int (Nat × Int × Int) → Prop
  | none, r => r = .error FdtErr.notfound.ret
  | some p, r => ∃ q poff, r = .ok (q, (p.2.length : Int), poff) ∧
    b.At (q + 4) (beBytes p.2.length) ∧ p.2.length < 0x7fffffff ∧ b.At (q + 12) (p.2 ++ [0])

theorem findProperty_at (hl : Layout b) (h : TokensAt b off ts) (hc : PropsClosed ts)
    (name : List UInt8) {fuel fuel' : Nat} (hf : ts.length < fuel) (hf' : ts.length < fuel') :
    Returns (nextprop b fuel off >>= findProperty b name fuel')
      (PropFound b ((nodeProps ts).find? fun p => p.1 = name)) := by
  have hsize := hl.size
  induction ts generalizing off fuel fuel' with
  | nil => exact hc.elim
  | cons tok ts ih =>
    rw [List.length_cons] at hf hf'
    obtain ⟨fuel, rfl⟩ : ∃ k, fuel = k + 1 := ⟨fuel - 1, by omega⟩
    have htag := fdtNextTag_token hl h.1 h.2.1
    -- no property is left
    have hnone : findProperty b name fuel' FdtErr.notfound.ret =
        .ok (.error FdtErr.notfound.ret) := by
      obtain ⟨k, rfl⟩ : ∃ k, fuel' = k + 1 := ⟨fuel' - 1, by omega⟩
      rw [findProperty, if_pos (by decide)]
    unfold nextprop
    rw [htag, ok_bind]
    cases tok with
    | beginNode _ => exact ⟨_, hnone, rfl⟩
    | endNode => exact ⟨_, hnone, rfl⟩
    | nop => exact ih h.2.2 hc (by omega) (by omega)
    | prop pname value =>
      obtain ⟨fuel', rfl⟩ : ∃ k, fuel' = k + 1 := ⟨fuel' - 1, by omega⟩
      obtain ⟨nameoff, hstring, hat⟩ := h.2.1
      have hroom := h.1.total
      have hal := le_align4 value.length
      have hsroom := hstring.room
      simp only [Token.size] at hroom
      have hname : b.At (b.offDtStruct + off + 8) (beBytes nameoff) := hat.right.right.left
      show Returns (findProperty b name (fuel' + 1) off) _
      unfold findProperty
      rw [if_neg (by omega), fdtGetPropertyByOffset_at hl h, ok_bind]
      dsimp only
      rw [hname.ld32 (by omega), ok_bind, i32_small (by omega) (by omega),
        fdtStringEq_at hl hstring, ok_bind]
      by_cases hsame : pname = name
      · have hfound : (nodeProps (.prop pname value :: ts)).find? (fun p => p.1 = name) =
            some (pname, value) := by
          rw [nodeProps, List.find?_cons_of_pos (by simpa using hsame)]
        rw [hfound, decide_eq_true hsame]
        exact ⟨_, rfl, _, _, rfl, hat.right.left, show value.length < _ by omega, h.value⟩
      · have hskip : (nodeProps (.prop pname value :: ts)).find? (fun p => p.1 = name) =
            (nodeProps ts).find? fun p => p.1 = name := by
          rw [nodeProps, List.find?_cons_of_neg (by simpa using hsame)]
        have hlen := h.2.2.length_le
        have hcheck : fdtCheckPropOffset b off =
            .ok ((off + (Token.prop pname value).size : Nat) : Int) :=
          fdtCheckOffset_token hl h.1 h.2.1
        have hnext : fdtNextPropertyOffset b off =
            nextprop b (b.totalsize + 2) ((off + (Token.prop pname value).size : Nat) : Int) := by
          unfold fdtNextPropertyOffset
          rw [hcheck, ok_bind, if_neg (by omega)]
        rw [hskip, decide_eq_false hsame, hnext]
        exact ih h.2.2 hc (by omega) (by omega)

/-- `fdt_getprop` gives the first property of the node with the name. -/
theorem fdtGetprop_at (hl : Layout b) {nm : List UInt8} (h : TokensAt b off (.beginNode nm :: ts))
    (hc : PropsClosed ts) (name : List UInt8) :
    Returns (fdtGetprop b off name) fun r =>
      match (nodeProps ts).find? fun p => p.1 = name with
      | none => r = .error FdtErr.notfound.ret
      | some p => ∃ q, r = .ok (q, (p.2.length : Int)) ∧ b.At q (p.2 ++ [0]) := by
  have hlen := h.2.2.length_le
  have hv := hl.version
  have hfirst : fdtFirstPropertyOffset b off =
      nextprop b (b.totalsize + 2) ((off + (Token.beginNode nm).size : Nat) : Int) := by
    unfold fdtFirstPropertyOffset
    rw [fdtCheckNodeOffset_at hl h, ok_bind, if_neg (by omega)]
  unfold fdtGetprop fdtGetPropertyNamelen
  rw [hfirst]
  apply Returns.bind (findProperty_at hl h.2.2 hc name (by omega) (by omega))
  intro r hr
  cases hfind : (nodeProps ts).find? fun p => p.1 = name with
  | none =>
    rw [hfind] at hr
    cases hr
    exact Returns.ok rfl
  | some p =>
    rw [hfind] at hr
    obtain ⟨q, poff, rfl, hword, hle, hat⟩ := hr
    dsimp only
    rw [hword.ld32 (by omega), ok_bind, if_neg (by omega)]
    exact Returns.ok ⟨_, rfl, hat⟩

/-! ## Compatible nodes -/

/-- Comparing up to the NUL compares the whole string. -/
theorem nul_prefix_iff {s seg rest : List UInt8} (hs : 0 ∉ s) (hseg : 0 ∉ seg) :
    s ++ [0] <+: seg ++ 0 :: rest ↔ s = seg := by
  induction s generalizing seg with
  | nil =>
    cases seg with
    | nil => simp
    | cons d seg =>
      have hd : ¬ (0 : UInt8) = d := fun h => hseg (h ▸ List.mem_cons_self)
      simp [List.cons_prefix_cons, hd]
  | cons c s ih =>
    rw [List.mem_cons, not_or] at hs
    cases seg with
    | nil =>
      have hc : ¬ c = (0 : UInt8) := fun h => hs.1 h.symm
      simp [List.cons_prefix_cons, hc]
    | cons d seg =>
      rw [List.mem_cons, not_or] at hseg
      rw [List.cons_append, List.cons_append, List.cons_prefix_cons, ih hs.2 hseg.2,
        List.cons.injEq]

theorem length_le_of_mem_splitOn {s value : List UInt8} (h : s ∈ value.splitOn 0) :
    s.length ≤ value.length := by
  induction value generalizing s with
  | nil =>
    rw [List.splitOn_nil, List.mem_singleton] at h
    rw [h]
  | cons c value ih =>
    rw [List.splitOn_cons_eq_if_modifyHead] at h
    rw [List.length_cons]
    split at h
    · rcases List.mem_cons.mp h with rfl | h
      · exact Nat.zero_le _
      · exact (ih h).trans (Nat.le_succ _)
    · cases hsplit : value.splitOn 0 with
      | nil => exact absurd hsplit (List.splitOn_ne_nil _ _)
      | cons seg segs =>
        rw [hsplit] at h ih
        rcases List.mem_cons.mp h with rfl | h
        · exact Nat.succ_le_succ (ih List.mem_cons_self)
        · exact (ih (List.mem_cons_of_mem _ h)).trans (Nat.le_succ _)

/-- The list is split at its NULs, whether or not it ends with one. -/
theorem stringlistLoop_at {str : List UInt8} (hstr : 0 ∉ str) {fuel p : Nat} {value : List UInt8}
    (hat : b.At p (value ++ [0])) (hf : value.length < fuel) :
    stringlistLoop b str fuel p value.length = .ok (decide (str ∈ value.splitOn 0)) := by
  induction fuel generalizing p value with
  | zero => omega
  | succ fuel ih =>
    unfold stringlistLoop
    by_cases hshort : value.length < str.length
    · -- the loop gives up, and no element is as long as the string
      rw [if_pos (by omega)]
      congr 1
      symm
      rw [decide_eq_false_iff_not]
      intro hmem
      have := length_le_of_mem_splitOn hmem
      omega
    rw [if_neg (by omega),
      hat.memeq (by simp only [List.length_append, List.length_singleton]; omega),
      ok_bind, Int.toNat_natCast]
    by_cases hnul : 0 ∈ value
    · -- the first element ends at the first NUL; the loop goes on behind it
      obtain ⟨seg, rest, rfl, hseg⟩ := List.eq_append_cons_of_mem hnul
      rw [List.splitOn_append_cons_self_of_not_mem hseg]
      have hsplit : b.At p ((seg ++ [0]) ++ (rest ++ [0])) := by
        simpa only [List.append_assoc, List.cons_append, List.nil_append] using hat
      have hpre : (str ++ [0] <+: seg ++ 0 :: rest ++ [0]) ↔ str = seg := by
        rw [List.append_assoc]
        exact nul_prefix_iff hstr hseg
      rw [decide_eq_decide.mpr hpre]
      by_cases hsame : str = seg
      · rw [decide_eq_true hsame, hsame]
        simp
      · rw [decide_eq_false hsame, hsplit.left.memchr hseg (by simp)]
        have hnext : b.At (p + seg.length + 1) (rest ++ [0]) := by
          simpa only [List.length_append, List.length_singleton, ← Nat.add_assoc] using hsplit.right
        have hlen : (seg ++ 0 :: rest).length = seg.length + (rest.length + 1) := by
          rw [List.length_append, List.length_cons]
        have hleft : ((seg ++ 0 :: rest).length : Int) - (((p + seg.length : Nat) : Int) - p + 1) =
            rest.length := by
          rw [hlen]
          omega
        have hrest := ih hnext (by omega)
        simp only [Bool.false_eq_true, if_false, ok_bind, hleft, hrest, List.mem_cons, hsame,
          false_or]
    · -- an unterminated last element is compared with the byte behind the list
      have hpre : decide (str ++ [0] <+: value ++ [0]) = decide (str = value) :=
        decide_eq_decide.mpr (nul_prefix_iff hstr hnul)
      rw [List.splitOn_eq_singleton hnul, hpre]
      by_cases hsame : str = value
      · simp [hsame]
      · simp [hsame, hat.left.memchr_none hnul]

/-- The value of the first of the properties `ps` with this name. -/
def propValue (name : List UInt8) (ps : List DtProp) : Option (List UInt8) :=
  (ps.find? fun p => p.1 = name).map (·.2)

/-- A node is compatible with `str` when its property lists it. -/
def compatibleWith (str : List UInt8) (ps : List DtProp) : Bool :=
  match propValue (cstr "compatible") ps with
  | none => false
  | some value => decide (str ∈ value.splitOn 0)

theorem fdtGetprop_value (hl : Layout b) {nm : List UInt8}
    (h : TokensAt b off (.beginNode nm :: ts)) (hc : PropsClosed ts) (name : List UInt8) :
    match propValue name (nodeProps ts) with
    | none => fdtGetprop b off name = .ok (.error FdtErr.notfound.ret)
    | some value => ∃ q, fdtGetprop b off name = .ok (.ok (q, (value.length : Int))) ∧
      b.At q (value ++ [0]) := by
  obtain ⟨r, hget, hr⟩ := fdtGetprop_at hl h hc name
  unfold propValue
  cases hfind : (nodeProps ts).find? fun p => p.1 = name with
  | none =>
    rw [hfind] at hr
    rw [hget]
    exact congrArg Except.ok hr
  | some p =>
    rw [hfind] at hr
    obtain ⟨q, rfl, hat⟩ := hr
    exact ⟨q, hget, hat⟩

theorem fdtNodeCheckCompatible_at (hl : Layout b) {nm str : List UInt8} (hstr : 0 ∉ str)
    (h : TokensAt b off (.beginNode nm :: ts)) (hc : PropsClosed ts) :
    Returns (fdtNodeCheckCompatible b off str) fun err =>
      ¬ (err < 0 ∧ err ≠ FdtErr.notfound.ret) ∧
        (err = 0 ↔ compatibleWith str (nodeProps ts) = true) := by
  have hget := fdtGetprop_value hl h hc (cstr "compatible")
  unfold fdtNodeCheckCompatible compatibleWith
  cases hval : propValue (cstr "compatible") (nodeProps ts) with
  | none =>
    rw [hval] at hget
    rw [hget]
    exact Returns.ok ⟨fun h => h.2 rfl, iff_of_false (by decide) nofun⟩
  | some value =>
    rw [hval] at hget
    obtain ⟨q, hq, hat⟩ := hget
    have hlist : fdtStringlistContains b q value.length str =
        .ok (decide (str ∈ value.splitOn 0)) := by
      unfold fdtStringlistContains
      exact stringlistLoop_at hstr hat (by rw [Int.toNat_natCast]; omega)
    simp only [hq, ok_bind, hlist, decide_eq_true_eq]
    by_cases hmem : str ∈ value.splitOn 0
    · rw [if_pos hmem]
      exact Returns.ok ⟨by decide, iff_of_true rfl hmem⟩
    · rw [if_neg hmem]
      exact Returns.ok ⟨by decide, iff_of_false (by decide) hmem⟩

/-- The properties of the nodes, in the order of their starts. -/
def nodesOf : List Token → List (List DtProp)
  | .beginNode _ :: ts => nodeProps ts :: nodesOf ts
  | _ :: ts => nodesOf ts
  | [] => []

/-- Every node is closed. -/
def NodesClosed : List Token → Prop
  | .beginNode _ :: ts => PropsClosed ts ∧ NodesClosed ts
  | _ :: ts => NodesClosed ts
  | [] => True

/-- The walk of `fdt_node_offset_by_compatible` from a tag on. -/
theorem compatibleLoop_at (hl : Layout b) {str : List UInt8} (hstr : 0 ∉ str)
    (h : TokensAt b off ts) (hc : NodesClosed ts) {fuel fuel' : Nat} (hf : ts.length < fuel)
    (hf' : ts.length < fuel') :
    Returns (nextNodeLoop b fuel off none >>= fun r => compatibleLoop b str fuel' r.1) fun r =>
      match (nodesOf ts).find? (compatibleWith str) with
      | none => r = FdtErr.notfound.ret
      | some ps => ∃ (at' : Nat) (nm : List UInt8) (rest : List Token), r = at' ∧
        TokensAt b at' (.beginNode nm :: rest) ∧ PropsClosed rest ∧ nodeProps rest = ps := by
  induction ts generalizing off fuel fuel' with
  | nil =>
    obtain ⟨fuel, rfl⟩ : ∃ k, fuel = k + 1 := ⟨fuel - 1, by omega⟩
    obtain ⟨fuel', rfl⟩ : ∃ k, fuel' = k + 1 := ⟨fuel' - 1, by omega⟩
    refine ⟨FdtErr.notfound.ret, ?_, rfl⟩
    rw [nextNodeLoop, fdtNextTag_fin hl h.1 h.2, ok_bind]
    dsimp only
    rw [if_pos (.inl (by omega)), ok_bind, compatibleLoop, if_pos (by decide)]
  | cons tok ts ih =>
    rw [List.length_cons] at hf hf'
    obtain ⟨fuel, rfl⟩ : ∃ k, fuel = k + 1 := ⟨fuel - 1, by omega⟩
    have htag := fdtNextTag_token hl h.1 h.2.1
    unfold nextNodeLoop
    rw [htag, ok_bind]
    cases tok with
    | prop _ _ => exact ih h.2.2 hc (by omega) (by omega)
    | nop => exact ih h.2.2 hc (by omega) (by omega)
    | endNode => exact ih h.2.2 hc (by omega) (by omega)
    | beginNode nm =>
      -- here the two loops take a turn together: the walk starts again with fresh fuel
      obtain ⟨fuel', rfl⟩ : ∃ k, fuel' = k + 1 := ⟨fuel' - 1, by omega⟩
      obtain ⟨hclosed, hrest⟩ := hc
      have hlen := h.2.2.length_le
      show Returns (compatibleLoop b str (fuel' + 1) off) _
      unfold compatibleLoop
      rw [if_neg (by omega)]
      apply Returns.bind (fdtNodeCheckCompatible_at hl hstr h hclosed)
      rintro err ⟨hok, hcomp⟩
      rw [if_neg hok]
      by_cases hthis : compatibleWith str (nodeProps ts) = true
      · rw [if_pos (hcomp.mpr hthis), nodesOf, List.find?_cons_of_pos hthis]
        exact Returns.ok ⟨off, nm, ts, rfl, h, hclosed, rfl⟩
      · rw [if_neg (fun h0 => hthis (hcomp.mp h0)), nodesOf, List.find?_cons_of_neg hthis,
          fdtNextNode_at hl h]
        exact ih h.2.2 hrest (by omega) (by omega)

/-! ## On the tree -/

/-- The properties of the nodes of a tree, every node before its children. -/
def Forest.preorder : Forest → List (List DtProp)
  | .nil => []
  | .nop siblings => siblings.preorder
  | .node _ props children siblings =>
    props.filterMap id :: (children.preorder ++ siblings.preorder)

/-- Behind the properties of a node stands no further property of it. -/
theorem nodeProps_children (f : Forest) (rest : List Token) :
    nodeProps (f.tokens ++ .endNode :: rest) = [] ∧ PropsClosed (f.tokens ++ .endNode :: rest) := by
  induction f with
  | nil => exact ⟨rfl, trivial⟩
  | nop siblings ih => exact ih
  | node name props children siblings _ _ => exact ⟨rfl, trivial⟩

theorem nodeProps_append (props : List (Option DtProp)) {rest : List Token}
    (h : nodeProps rest = [] ∧ PropsClosed rest) :
    nodeProps (props.map propToken ++ rest) = props.filterMap id ∧
      PropsClosed (props.map propToken ++ rest) := by
  induction props with
  | nil => exact h
  | cons p props ih =>
    cases p with
    | none => exact ih
    | some nv => exact ⟨congrArg (nv :: ·) ih.1, ih.2⟩

theorem nodesOf_props (props : List (Option DtProp)) (rest : List Token) :
    nodesOf (props.map propToken ++ rest) = nodesOf rest ∧
      (NodesClosed (props.map propToken ++ rest) ↔ NodesClosed rest) := by
  induction props with
  | nil => exact ⟨rfl, Iff.rfl⟩
  | cons p props ih =>
    cases p with
    | none => exact ih
    | some nv => exact ih

/-- The tags of a tree list its nodes. -/
theorem nodesOf_tokens (f : Forest) (rest : List Token) :
    nodesOf (f.tokens ++ rest) = f.preorder ++ nodesOf rest ∧
      (NodesClosed rest → NodesClosed (f.tokens ++ rest)) := by
  induction f generalizing rest with
  | nil => exact ⟨rfl, id⟩
  | nop siblings ih => exact ih rest
  | node name props children siblings ihc ihs =>
    have hprops := nodeProps_append props (nodeProps_children children (siblings.tokens ++ rest))
    have hskip := nodesOf_props props (children.tokens ++ .endNode :: (siblings.tokens ++ rest))
    have hchildren := ihc (.endNode :: (siblings.tokens ++ rest))
    have hsiblings := ihs rest
    have hassoc : (Forest.node name props children siblings).tokens ++ rest = .beginNode name ::
        (props.map propToken ++ (children.tokens ++ .endNode :: (siblings.tokens ++ rest))) := by
      simp only [Forest.tokens, List.cons_append, List.append_assoc]
    rw [hassoc, Forest.preorder]
    constructor
    · calc nodeProps _ :: nodesOf _
        _ = props.filterMap id :: (children.preorder ++ nodesOf (siblings.tokens ++ rest)) := by
          rw [hprops.1, hskip.1, hchildren.1]
          rfl
        _ = _ := by rw [hsiblings.1, List.cons_append, List.append_assoc]
    · intro hrest
      exact ⟨hprops.2, hskip.2.mpr (hchildren.2 (hsiblings.2 hrest))⟩

/-- The first node of the tree that is compatible is found, with its properties. -/
theorem fdtNodeOffsetByCompatible_at {f : Forest} (hb : Holds b f) {str : List UInt8}
    (hstr : 0 ∉ str) :
    Returns (fdtNodeOffsetByCompatible b (-1) str) fun r =>
      match f.preorder.find? (compatibleWith str) with
      | none => r = FdtErr.notfound.ret
      | some ps => ∃ (off : Nat) (nm : List UInt8) (rest : List Token), r = off ∧
        TokensAt b off (.beginNode nm :: rest) ∧ PropsClosed rest ∧ nodeProps rest = ps := by
  obtain ⟨hl, hts⟩ := hb
  have hlen := hts.length_le
  have hnodes := nodesOf_tokens f []
  rw [List.append_nil] at hnodes
  have hall : nodesOf f.tokens = f.preorder := by rw [hnodes.1, nodesOf, List.append_nil]
  have hfuel : f.tokens.length < b.totalsize + 2 := by omega
  have hwalk := compatibleLoop_at hl hstr hts (hnodes.2 trivial) hfuel hfuel
  rw [hall] at hwalk
  unfold fdtNodeOffsetByCompatible fdtNextNode
  rw [if_neg hl.probe_nonneg, if_neg (by decide)]
  exact hwalk

/-- The word at `k` of a value. -/
theorem Blob.At.ld32_value {q k : Nat} {value : List UInt8} (h : b.At q (value ++ [0]))
    (hk : k + 4 ≤ value.length) : b.ld32 (q + k) = .ok (be32 value k) := by
  have hle := h.length_le (by simp)
  obtain ⟨t, ht⟩ := h.left
  unfold Blob.ld32
  rw [List.length_append] at hle
  rw [if_pos (by omega)]
  unfold be32
  rw [← List.drop_drop, ← ht, List.drop_append_of_le_length (by omega),
    List.take_append_of_le_length (by rw [List.length_drop]; omega)]

/-- Base and size in a `reg` property of 64-bit cells. -/
def regOf (value : List UInt8) : Option (UInt64 × UInt64) :=
  if value.length < 16 then none
  else some ((be32 value 0).toUInt64 <<< 32 ||| (be32 value 4).toUInt64,
    (be32 value 8).toUInt64 <<< 32 ||| (be32 value 12).toUInt64)

/-- The first cell of a property. -/
def cellOf (value : List UInt8) : Option Nat :=
  if value.length < 4 then none else some (be32 value 0)

theorem fdtGetCell_at (hl : Layout b) {nm : List UInt8} (h : TokensAt b off (.beginNode nm :: ts))
    (hc : PropsClosed ts) (name : List UInt8) :
    fdtGetCell b off name = .ok ((propValue name (nodeProps ts)).bind cellOf) := by
  have hget := fdtGetprop_value hl h hc name
  unfold fdtGetCell
  cases hval : propValue name (nodeProps ts) with
  | none =>
    rw [hval] at hget
    rw [hget]
    rfl
  | some value =>
    rw [hval] at hget
    obtain ⟨q, hq, hat⟩ := hget
    rw [hq, ok_bind, Option.bind_some]
    dsimp only
    unfold cellOf
    by_cases hlen : value.length < 4
    · rw [if_pos hlen, if_pos (by omega)]
    · rw [if_neg hlen, if_neg (by omega), show q = q + 0 from rfl, hat.ld32_value (by omega)]
      rfl

/-- A property of the first compatible node, read by `get`. -/
def Forest.property {α : Type} (f : Forest) (str name : List UInt8) (get : List UInt8 → Option α) :
    Option α :=
  match f.preorder.find? (compatibleWith str) with
  | none => none
  | some ps => (propValue name ps).bind get

theorem fdtFindIrqByCompat_at {f : Forest} (hb : Holds b f) {str : List UInt8} (hstr : 0 ∉ str) :
    fdtFindIrqByCompat b str = .ok (f.property str (cstr "interrupts") cellOf) := by
  obtain ⟨r, hnode, hr⟩ := fdtNodeOffsetByCompatible_at hb hstr
  unfold fdtFindIrqByCompat Forest.property
  rw [hnode, ok_bind]
  cases hfind : f.preorder.find? (compatibleWith str) with
  | none =>
    rw [hfind] at hr
    subst hr
    rfl
  | some ps =>
    rw [hfind] at hr
    obtain ⟨off, nm, rest, rfl, hts, hc, rfl⟩ := hr
    rw [if_neg (by omega), fdtGetCell_at hb.1 hts hc]

theorem fdtFindRegByCompat_at {f : Forest} (hb : Holds b f) {str : List UInt8} (hstr : 0 ∉ str) :
    fdtFindRegByCompat b str = .ok (f.property str (cstr "reg") regOf) := by
  obtain ⟨r, hnode, hr⟩ := fdtNodeOffsetByCompatible_at hb hstr
  unfold fdtFindRegByCompat Forest.property
  rw [hnode, ok_bind]
  cases hfind : f.preorder.find? (compatibleWith str) with
  | none =>
    rw [hfind] at hr
    subst hr
    rfl
  | some ps =>
    rw [hfind] at hr
    obtain ⟨off, nm, rest, rfl, hts, hc, rfl⟩ := hr
    have hget := fdtGetprop_value hb.1 hts hc (cstr "reg")
    rw [if_neg (by omega)]
    dsimp only
    cases hval : propValue (cstr "reg") (nodeProps rest) with
    | none =>
      rw [hval] at hget
      rw [hget]
      rfl
    | some value =>
      rw [hval] at hget
      obtain ⟨q, hq, hat⟩ := hget
      rw [hq, ok_bind, Option.bind_some]
      dsimp only
      unfold regOf
      by_cases hlen : value.length < 16
      · rw [if_pos hlen, if_pos (by omega)]
      · have hfirst : b.ld32 q = .ok (be32 value 0) := hat.ld32_value (k := 0) (by omega)
        rw [if_neg hlen, if_neg (by omega), hfirst, hat.ld32_value (by omega),
          hat.ld32_value (by omega), hat.ld32_value (by omega)]
        rfl

end Ccos
