import Mathlib.Tactic
import Ccos.Fdt.Lookup

/-!
# Writing a tree

A flattened form of every tree: version 17, the structure block behind an empty memory reservation
map and the strings block behind it, each name written where its property is written.
-/

namespace Ccos

/-! ## The blocks -/

/-- The structure block from the tags `ts` on, the next name being at `nameoff`. -/
def structBytes : Nat → List Token → List UInt8
  | _, [] => beBytes 9
  | nameoff, .beginNode name :: ts => (beBytes 1 ++ pad4 (name ++ [0])) ++ structBytes nameoff ts
  | nameoff, .prop name value :: ts =>
    (beBytes 3 ++ (beBytes value.length ++ (beBytes nameoff ++ pad4 value))) ++
      structBytes (nameoff + (name.length + 1)) ts
  | nameoff, .endNode :: ts => beBytes 2 ++ structBytes nameoff ts
  | nameoff, .nop :: ts => beBytes 4 ++ structBytes nameoff ts

def stringBytes : List Token → List UInt8
  | .prop name _ :: ts => (name ++ [0]) ++ stringBytes ts
  | _ :: ts => stringBytes ts
  | [] => []

/-- The header of a tree with these sizes of the blocks. -/
def headerBytes (sizeStruct sizeStrings : Nat) : List UInt8 :=
  beBytes fdtMagic ++ (beBytes (56 + sizeStruct + sizeStrings) ++ (beBytes 56 ++
    (beBytes (56 + sizeStruct) ++ (beBytes 40 ++ (beBytes 17 ++ (beBytes 16 ++ (beBytes 0 ++
      (beBytes sizeStrings ++ beBytes sizeStruct))))))))

/-- The tree `f` in memory at an aligned address. -/
def Forest.flatten (f : Forest) : Blob where
  addr := 0x82200000
  bytes := headerBytes (structBytes 0 f.tokens).length (stringBytes f.tokens).length ++
    (List.replicate 16 0 ++ (structBytes 0 f.tokens ++ stringBytes f.tokens))
  header := by
    have hlen : ∀ m n, (headerBytes m n).length = 40 := fun _ _ => rfl
    rw [List.length_append, hlen]
    omega

/-- A name is a C string. -/
def Token.Named : Token → Prop
  | .beginNode name => 0 ∉ name
  | .prop name _ => 0 ∉ name
  | _ => True

/-! ## The flattened form holds the tree -/

variable {b : Blob} {f : Forest}

theorem length_pad4 (l : List UInt8) : (pad4 l).length = align4 l.length := by
  have hle := le_align4 l.length
  unfold pad4
  rw [List.length_append, List.length_replicate]
  omega

theorem structBytes_length (nameoff : Nat) (ts : List Token) :
    (structBytes nameoff ts).length = (ts.map Token.size).sum + 4 := by
  induction ts generalizing nameoff with
  | nil => rfl
  | cons tok ts ih =>
    have hword : ∀ n, (beBytes n).length = 4 := fun _ => rfl
    rw [List.map_cons, List.sum_cons]
    cases tok <;>
      simp only [structBytes, List.length_append, length_pad4, hword, ih, Token.size,
        List.length_singleton] <;> omega

/-- The blocks written from `ts` on, in a tree of these sizes. -/
structure Written (b : Blob) (off nameoff : Nat) (ts : List Token) : Prop where
  struct : b.At (b.offDtStruct + off) (structBytes nameoff ts)
  strings : b.At (b.offDtStrings + nameoff) (stringBytes ts)
  aligned : off % 4 = 0
  sizeStruct : off + (structBytes nameoff ts).length ≤ b.sizeDtStruct
  sizeStrings : nameoff + (stringBytes ts).length ≤ b.sizeDtStrings
  totalStruct : b.offDtStruct + b.sizeDtStruct ≤ b.totalsize
  totalStrings : b.offDtStrings + b.sizeDtStrings ≤ b.totalsize

theorem Written.room {off nameoff len : Nat} {ts : List Token} (h : Written b off nameoff ts)
    (hlen : len ≤ (structBytes nameoff ts).length) : Room b off len := by
  have hs := h.sizeStruct
  have ht := h.totalStruct
  exact ⟨by omega, fun _ => by omega, h.aligned⟩

theorem Written.tokensAt {off nameoff : Nat} {ts : List Token} (h : Written b off nameoff ts)
    (hn : ∀ tok ∈ ts, tok.Named) : TokensAt b off ts := by
  induction ts generalizing off nameoff with
  | nil => exact ⟨h.room le_rfl, h.struct⟩
  | cons tok ts ih =>
    have hlen := structBytes_length nameoff (tok :: ts)
    rw [List.map_cons, List.sum_cons] at hlen
    have hmod := tok.size_mod
    have haligned := h.aligned
    have hroom : Room b off tok.size := h.room (by omega)
    have hnamed := hn tok List.mem_cons_self
    have hs := h.sizeStruct
    have hst := h.sizeStrings
    -- the tags behind this one, once it is known how many bytes and names it takes
    have htail : ∀ (nameoff' : Nat) {front : List UInt8},
        structBytes nameoff (tok :: ts) = front ++ structBytes nameoff' ts →
        front.length = tok.size → b.At (b.offDtStrings + nameoff') (stringBytes ts) →
        nameoff' + (stringBytes ts).length = nameoff + (stringBytes (tok :: ts)).length →
        TokensAt b (off + tok.size) ts := by
      intro nameoff' front hfront hsize hstr hlen'
      have hat := h.struct
      rw [hfront] at hat
      have hnext := hat.right
      have hlen'' := structBytes_length nameoff' ts
      rw [hsize, Nat.add_assoc] at hnext
      exact ih ⟨hnext, hstr, by omega, by omega, by omega, h.totalStruct, h.totalStrings⟩
        fun tok' hmem => hn tok' (List.mem_cons_of_mem _ hmem)
    have hword : ∀ n, (beBytes n).length = 4 := fun _ => rfl
    cases tok with
    | beginNode name =>
      refine ⟨hroom, ⟨hnamed, h.struct.left⟩, htail nameoff rfl ?_ h.strings rfl⟩
      rw [List.length_append, length_pad4, hword, List.length_append, List.length_singleton]
      rfl
    | endNode => exact ⟨hroom, h.struct.left, htail nameoff rfl rfl h.strings rfl⟩
    | nop => exact ⟨hroom, h.struct.left, htail nameoff rfl rfl h.strings rfl⟩
    | prop name value =>
      have hstr : b.At (b.offDtStrings + nameoff) ((name ++ [0]) ++ stringBytes ts) := h.strings
      have hstrlen : (stringBytes (.prop name value :: ts)).length =
          name.length + 1 + (stringBytes ts).length := by
        rw [stringBytes, List.length_append, List.length_append, List.length_singleton]
      have htotal := h.totalStrings
      refine ⟨hroom, ⟨nameoff, ⟨hnamed, hstr.left, by omega, by omega⟩, h.struct.left⟩, ?_⟩
      apply htail (nameoff + (name.length + 1)) rfl
      · rw [List.length_append, List.length_append, List.length_append, length_pad4, hword, hword,
          hword]
        simp only [Token.size]
        omega
      · have hnext := hstr.right
        rw [List.length_append, List.length_singleton, Nat.add_assoc] at hnext
        exact hnext
      · omega

/-- Every tree that is not too large is held by its flattened form. -/
theorem Forest.flatten_holds (f : Forest) (hn : ∀ tok ∈ f.tokens, tok.Named)
    (hsize : f.flatten.bytes.length < 0x7fffffff) : Holds f.flatten f := by
  have hall : f.flatten.At 0 f.flatten.bytes := List.prefix_rfl
  have hbytes : f.flatten.bytes =
      headerBytes (structBytes 0 f.tokens).length (stringBytes f.tokens).length ++
        (List.replicate 16 0 ++ (structBytes 0 f.tokens ++ stringBytes f.tokens)) := rfl
  have hlen : f.flatten.bytes.length =
      56 + (structBytes 0 f.tokens).length + (stringBytes f.tokens).length := by
    have hheader : ∀ m n, (headerBytes m n).length = 40 := fun _ _ => rfl
    rw [hbytes, List.length_append, List.length_append, List.length_append, hheader,
      List.length_replicate]
    omega
  rw [hbytes] at hall
  -- the ten words of the header
  have w₀ := hall.left
  have w₁ := w₀.right
  have w₂ := w₁.right
  have w₃ := w₂.right
  have w₄ := w₃.right
  have w₅ := w₄.right
  have w₆ := w₅.right
  have w₇ := w₆.right
  have w₈ := w₇.right
  have w₉ := w₈.right
  have hmagic : f.flatten.magic = fdtMagic := be32_at w₀.left (by decide)
  have htotal : f.flatten.totalsize = 56 + (structBytes 0 f.tokens).length +
      (stringBytes f.tokens).length := be32_at w₁.left (by omega)
  have hstruct : f.flatten.offDtStruct = 56 := be32_at w₂.left (by decide)
  have hstrings : f.flatten.offDtStrings = 56 + (structBytes 0 f.tokens).length :=
    be32_at w₃.left (by omega)
  have hversion : f.flatten.version = 17 := be32_at w₅.left (by decide)
  have hlast : f.flatten.lastCompVersion = 16 := be32_at w₆.left (by decide)
  have hsizeStrings : f.flatten.sizeDtStrings = (stringBytes f.tokens).length :=
    be32_at w₈.left (by omega)
  have hsizeStruct : f.flatten.sizeDtStruct = (structBytes 0 f.tokens).length :=
    be32_at w₉ (by omega)
  have hblocks : f.flatten.At 56 (structBytes 0 f.tokens ++ stringBytes f.tokens) :=
    hall.right.right
  have haddr : (0x82200000 : UInt64) &&& 7 = 0 := by decide
  have hwritten : Written f.flatten 0 0 f.tokens := by
    constructor
    · rw [hstruct]
      exact hblocks.left
    · rw [hstrings]
      exact hblocks.right
    · rfl
    all_goals omega
  exact ⟨⟨haddr, hmagic, by omega, by omega, by omega, by omega⟩, hwritten.tokensAt hn⟩

end Ccos
