import Mathlib.Tactic
import Ccos.Reasoning.Returns
import Ccos.Fdt.Blob

/-!
# Reading any tree is safe

Whatever the bytes of a tree are, the library does not load from behind them and its loops end.  All
it needs is that the tree's own `totalsize`, and one byte more, is there: `fdt_stringlist_contains`
compares the NUL of its string too, behind the end of a list that has none.
-/

namespace Ccos

open Reasoning

variable {b : Blob}

theorem foldl_bytes_lt (l : List UInt8) (word : Nat) :
    l.foldl (fun word x => word * 0x100 + x.toNat) word < (word + 1) * 0x100 ^ l.length := by
  induction l generalizing word with
  | nil => simp
  | cons x l ih =>
    have hx := x.toNat_lt
    have hstep : word * 0x100 + x.toNat + 1 ≤ (word + 1) * 0x100 := by omega
    calc l.foldl (fun word x => word * 0x100 + x.toNat) (word * 0x100 + x.toNat)
      _ < (word * 0x100 + x.toNat + 1) * 0x100 ^ l.length := ih _
      _ ≤ (word + 1) * 0x100 * 0x100 ^ l.length := Nat.mul_le_mul_right _ hstep
      _ = (word + 1) * 0x100 ^ (l.length + 1) := by ring

theorem be32_lt (l : List UInt8) (i : Nat) : be32 l i < 0x100000000 := by
  have hlen : ((l.drop i).take 4).length ≤ 4 := List.length_take_le _ _
  calc be32 l i
    _ < (0 + 1) * 0x100 ^ ((l.drop i).take 4).length := foldl_bytes_lt _ _
    _ ≤ (0 + 1) * 0x100 ^ 4 := Nat.mul_le_mul_left _ (Nat.pow_le_pow_right (by decide) hlen)

/-- The size is one `fdt_ro_probe_` accepts, and the tree is there. -/
structure Readable (b : Blob) : Prop where
  size : b.totalsize < 0x7fffffff
  there : b.totalsize < b.bytes.length

theorem fdtRoProbe_nonneg (h : ¬ fdtRoProbe b < 0) : b.totalsize < 0x7fffffff := by
  by_contra hsize
  apply h
  unfold fdtRoProbe
  rw [if_neg hsize]
  split_ifs <;> decide

theorem FdtErr.ret_neg (e : FdtErr) : e.ret < 0 := by
  cases e <;> decide

theorem Blob.ld8_returns {i : Nat} (h : i < b.bytes.length) :
    Returns (b.ld8 i) fun x => b.bytes[i]? = some x := by
  refine ⟨b.bytes[i], ?_, List.getElem?_eq_getElem h⟩
  unfold Blob.ld8
  rw [List.getElem?_eq_getElem h]

theorem Blob.ld32_returns {i : Nat} (h : i + 4 ≤ b.bytes.length) :
    Returns (b.ld32 i) fun x => x = be32 b.bytes i := by
  refine ⟨_, ?_, rfl⟩
  unfold Blob.ld32
  rw [if_pos h]

/-! ## Strings -/

theorem Blob.memchr_returns (c : UInt8) {i n : Nat} (h : i + n ≤ b.bytes.length) :
    Returns (b.memchr c i n) fun r => ∀ p, r = some p → i ≤ p ∧ p < i + n := by
  induction n generalizing i with
  | zero =>
    apply Returns.ok
    intro p hp
    cases hp
  | succ n ih =>
    unfold Blob.memchr
    apply Returns.bind (Blob.ld8_returns (by omega))
    intro x _
    apply Returns.ite
    · intro _
      apply Returns.ok
      intro p hp
      cases hp
      omega
    · intro _
      apply (ih (i := i + 1) (by omega)).mono
      intro r hr p hp
      have := hr p hp
      omega

theorem Blob.memeq_returns {i : Nat} {s : List UInt8} (h : i + s.length ≤ b.bytes.length) :
    Returns (b.memeq i s) fun _ => True := by
  induction s generalizing i with
  | nil => exact Returns.ok trivial
  | cons c s ih =>
    rw [List.length_cons] at h
    unfold Blob.memeq
    apply Returns.bind (Blob.ld8_returns (by omega))
    intro x _
    apply Returns.ite
    · intro _
      exact ih (by omega)
    · intro _
      exact Returns.ok trivial

/-- A NUL ends the string. -/
theorem Blob.strlenFrom_returns {fuel i n : Nat} (hi : i ≤ n) (hn : b.bytes[n]? = some 0)
    (hfuel : n < i + fuel) : Returns (b.strlenFrom fuel i) fun len => i + len ≤ n := by
  have hlen : n < b.bytes.length := (List.getElem?_eq_some_iff.mp hn).1
  induction fuel generalizing i with
  | zero => omega
  | succ fuel ih =>
    unfold Blob.strlenFrom
    apply Returns.bind (Blob.ld8_returns (by omega))
    intro x hx
    apply Returns.ite
    · intro _
      exact Returns.ok hi
    · intro hx0
      have hne : i ≠ n := by
        rintro rfl
        rw [hn, Option.some.injEq] at hx
        exact hx0 hx.symm
      apply Returns.bind (ih (by omega) (by omega))
      intro len hle
      apply Returns.ok
      omega

theorem Blob.strlen_returns {i n : Nat} (hi : i ≤ n) (hn : b.bytes[n]? = some 0) :
    Returns (b.strlen i) fun len => i + len ≤ n := by
  have hlen : n < b.bytes.length := (List.getElem?_eq_some_iff.mp hn).1
  exact Blob.strlenFrom_returns hi hn (by omega)

theorem Blob.strrchrFrom_returns (c : UInt8) {fuel i n : Nat} {last : Option Nat} (hi : i ≤ n)
    (hn : b.bytes[n]? = some 0) (hfuel : n < i + fuel) (hlast : ∀ p, last = some p → p < n) :
    Returns (b.strrchrFrom c fuel i last) fun r => ∀ p, r = some p → p < n := by
  have hlen : n < b.bytes.length := (List.getElem?_eq_some_iff.mp hn).1
  induction fuel generalizing i last with
  | zero => omega
  | succ fuel ih =>
    unfold Blob.strrchrFrom
    apply Returns.bind (Blob.ld8_returns (by omega))
    intro x hx
    apply Returns.ite
    · intro _
      exact Returns.ok hlast
    · intro hx0
      have hne : i ≠ n := by
        rintro rfl
        rw [hn, Option.some.injEq] at hx
        exact hx0 hx.symm
      apply ih (by omega) (by omega)
      intro p hp
      split at hp
      · cases hp
        omega
      · exact hlast p hp

theorem Blob.strrchr_returns (c : UInt8) {i n : Nat} (hi : i ≤ n) (hn : b.bytes[n]? = some 0) :
    Returns (b.strrchr c i) fun r => ∀ p, r = some p → p < n := by
  have hlen : n < b.bytes.length := (List.getElem?_eq_some_iff.mp hn).1
  exact Blob.strrchrFrom_returns c hi hn (by omega) nofun

/-! ## Tags -/

theorem u32_lt (x : Int) : u32 x < 0x100000000 := by
  unfold u32
  omega

theorem u32_of_nonneg {x : Int} (h : 0 ≤ x) (hx : x < 0x100000000) : u32 x = x.toNat := by
  unfold u32
  omega

/-- The bytes of an accepted place are in the tree. -/
theorem fdtOffsetPtr_some {offset : Int} {len p : Nat} (ho : offset < 0x80000000)
    (hl : len < 0x100000000) (h : fdtOffsetPtr b offset len = some p) :
    0 ≤ offset ∧ (p : Int) = b.offDtStruct + offset ∧ p + len ≤ b.totalsize := by
  have hs : b.offDtStruct < 0x100000000 := be32_lt _ _
  unfold fdtOffsetPtr at h
  dsimp only at h
  split at h
  · cases h
  split at h
  · cases h
  split at h
  · cases h
  rename_i hneg hwrap _
  rw [Option.some.injEq] at h
  unfold u32 at hwrap
  omega

/-- The structure of the node at `o`: its name ends in the tree. -/
def NodeAt (b : Blob) (o : Int) : Prop :=
  0 ≤ o ∧ o + 4 ≤ b.totalsize ∧
    ∃ n : Nat, (b.offDtStruct : Int) + o + 4 ≤ n ∧ n < b.totalsize ∧ b.bytes[n]? = some 0

/-- The length of the value of the property at `o`. -/
def propLen (b : Blob) (o : Int) : Nat := be32 b.bytes (b.offDtStruct + o.toNat + 4)

/-- The bytes in front of a realigned value. -/
def propPad (b : Blob) (o : Int) : Nat :=
  if b.version < 0x10 ∧ 8 ≤ propLen b o ∧ (o + 12) % 8 ≠ 0 then 4 else 0

/-- The property at `o` lies in the tree, with its value. -/
def PropAt (b : Blob) (o : Int) : Prop :=
  0 ≤ o ∧ (b.offDtStruct : Int) + o + 12 + propPad b o + propLen b o ≤ b.totalsize

/-- What `fdt_next_tag` finds at `o`. -/
structure TagAt (b : Blob) (o : Int) (r : FdtTag × Int) : Prop where
  next : 0 ≤ r.2 → o + 4 ≤ r.2
  int : r.2 < 0x80000000
  there : r.1 ≠ .fin → 0 ≤ o ∧ o + 4 ≤ b.totalsize
  node : r.1 = .beginNode → NodeAt b o
  prop : r.1 = .prop → PropAt b o

theorem TagAt.early {o : Int} (e : FdtErr) : TagAt b o (.fin, e.ret) := by
  have hneg := e.ret_neg
  constructor
  · intro h
    dsimp only at h
    omega
  · dsimp only
    omega
  all_goals
    intro h
    first | exact absurd rfl h | cases h

theorem skipName_returns (hb : Readable b) {fuel : Nat} {o : Int} (ho : o < 0x80000000)
    (hpos : 0 < fuel) (hfuel : b.totalsize < o + fuel) :
    Returns (skipName b fuel o) fun r => ∀ o', r = some o' → o < o' ∧ 0 ≤ o ∧
      (b.offDtStruct : Int) + o' ≤ b.totalsize ∧
      ∃ n : Nat, (n : Int) + 1 = b.offDtStruct + o' ∧ b.bytes[n]? = some 0 := by
  have hthere := hb.there
  have hsize := hb.size
  induction fuel generalizing o with
  | zero => omega
  | succ fuel ih =>
    unfold skipName
    split
    · apply Returns.ok
      intro o' h
      cases h
    · rename_i p hp
      have hat := fdtOffsetPtr_some ho (by decide) hp
      apply Returns.bind (Blob.ld8_returns (by omega))
      intro x hx
      apply Returns.ite
      · intro hx0
        subst hx0
        apply Returns.ok
        intro o' h
        cases h
        exact ⟨by omega, hat.1, by omega, p, by omega, hx⟩
      · intro _
        apply (ih (o := o + 1) (by omega) (by omega) (by omega)).mono
        intro r hr o' h
        have := hr o' h
        exact ⟨by omega, hat.1, this.2.2⟩

theorem fdtTagEnd_at (hb : Readable b) {o o' : Int} {tag : FdtTag} (ho : o < 0x80000000)
    (h4 : 4 ≤ u32 (o' - o)) (hnode : tag = .beginNode → NodeAt b o)
    (hprop : tag = .prop → b.offDtStruct + o + u32 (o' - o) ≤ b.totalsize → PropAt b o) :
    TagAt b o (fdtTagEnd b o tag o') := by
  have hsize := hb.size
  unfold fdtTagEnd
  split
  · exact TagAt.early .badstructure
  · rename_i p hp
    have hat := fdtOffsetPtr_some ho (u32_lt _) hp
    constructor
    · intro hnext
      dsimp only at hnext ⊢
      unfold i32 at hnext ⊢
      unfold u32 at h4 hat
      split at hnext <;> omega
    · dsimp only
      unfold i32
      split <;> omega
    · intro _
      omega
    · exact hnode
    · intro htag
      exact hprop htag (by omega)

theorem fdtNextTag_returns (hb : Readable b) {o : Int} (ho : o < 0x80000000) :
    Returns (fdtNextTag b o) (TagAt b o) := by
  have hsize := hb.size
  have hthere := hb.there
  unfold fdtNextTag
  split
  · exact Returns.ok (TagAt.early .truncated)
  rename_i tagp htagp
  have htag := fdtOffsetPtr_some ho (by decide) htagp
  apply Returns.bind (Blob.ld32_returns (by omega))
  intro word _
  dsimp only
  have hplain : ∀ tag, tag ≠ .beginNode → tag ≠ .prop →
      TagAt b o (fdtTagEnd b o tag (o + 4)) := by
    intro tag hb₁ hp₁
    have hdiff : u32 (o + 4 - o) = 4 := by
      unfold u32
      omega
    exact fdtTagEnd_at hb ho (by omega) (fun h => absurd h hb₁) (fun h => absurd h hp₁)
  cases FdtTag.ofWord word with
  | none => exact Returns.ok (TagAt.early .badstructure)
  | some tag =>
    cases tag with
    | endNode => exact Returns.ok (hplain _ nofun nofun)
    | nop => exact Returns.ok (hplain _ nofun nofun)
    | fin => exact Returns.ok (hplain _ nofun nofun)
    | beginNode =>
      apply Returns.bind (skipName_returns hb (by omega) (by omega) (by omega))
      intro r hr
      cases r with
      | none => exact Returns.ok (TagAt.early .badstructure)
      | some o' =>
        obtain ⟨hlt, h0, hin, n, hn, hnul⟩ := hr o' rfl
        have hdiff : (u32 (o' - o) : Int) = o' - o := by
          rw [u32_of_nonneg (by omega) (by omega)]
          omega
        apply Returns.ok
        apply fdtTagEnd_at hb ho (by omega)
        · intro _
          exact ⟨htag.1, by omega, n, by omega, by omega, hnul⟩
        · intro h
          cases h
    | prop =>
      dsimp only
      split
      · exact Returns.ok (TagAt.early .badstructure)
      rename_i lenp hlenp
      have hlen := fdtOffsetPtr_some (by omega) (by decide) hlenp
      apply Returns.bind (Blob.ld32_returns (by omega))
      rintro len rfl
      have hidx : lenp = b.offDtStruct + o.toNat + 4 := by omega
      have hword : be32 b.bytes lenp = propLen b o := by
        rw [hidx]
        rfl
      rw [hword]
      have hlt : propLen b o < 0x100000000 := be32_lt _ _
      apply Returns.ite
      · intro _
        exact Returns.ok (TagAt.early .badstructure)
      · intro hsum
        rw [not_or] at hsum
        apply Returns.ok
        -- the value's end is not beyond INT_MAX by more than the header, so nothing wraps
        have hwrap : o + 4 + propLen b o < 0x7fffffff := by
          unfold u32 at hsum
          omega
        have hmod : u32 (i32 (o + 4 + 8 + propLen b o) - propLen b o) % 8 = 0 ↔
            (o + 12) % 8 = 0 := by
          unfold u32 i32
          split <;> omega
        simp only [ne_eq, hmod]
        have hend : u32 ((if b.version < 0x10 ∧ 8 ≤ propLen b o ∧ ¬ (o + 12) % 8 = 0 then
            i32 (i32 (o + 4 + 8 + propLen b o) + 4) else i32 (o + 4 + 8 + propLen b o)) - o) =
            12 + propPad b o + propLen b o := by
          unfold propPad u32 i32
          split <;> split <;> (try split) <;> omega
        apply fdtTagEnd_at hb ho
        · omega
        · intro h
          cases h
        · intro _ hin
          rw [hend] at hin
          exact ⟨htag.1, by omega⟩

/-! ## Walks -/

theorem fdtCheckOffset_returns (hb : Readable b) (tag : FdtTag) {o : Int} (ho : o < 0x80000000) :
    Returns (fdtCheckOffset b tag o) fun o' => o' < 0x80000000 ∧ (0 ≤ o' → o + 4 ≤ o' ∧
      (tag = .beginNode → NodeAt b o) ∧ (tag = .prop → PropAt b o)) := by
  have hbad := FdtErr.badoffset.ret_neg
  unfold fdtCheckOffset
  apply Returns.ite
  · intro _
    exact Returns.ok ⟨by omega, by omega⟩
  · intro _
    apply Returns.bind (fdtNextTag_returns hb ho)
    rintro ⟨found, next⟩ hat
    apply Returns.ite
    · rintro rfl
      exact Returns.ok ⟨hat.int, fun h0 => ⟨hat.next h0, hat.node, hat.prop⟩⟩
    · intro _
      exact Returns.ok ⟨by omega, by omega⟩

/-- There is fuel left for a walk at `o`. -/
def Fuelled (b : Blob) (fuel : Nat) (o : Int) : Prop :=
  0 < fuel ∧ o < 0x80000000 ∧ (0 ≤ o → b.totalsize < o + fuel)

/-- One tag further there is still fuel. -/
theorem Fuelled.next {fuel : Nat} {o : Int} {r : FdtTag × Int} (hf : Fuelled b (fuel + 1) o)
    (hat : TagAt b o r) (hr : r.1 ≠ .fin) : Fuelled b fuel r.2 := by
  have hthere := hat.there hr
  have hnext := hat.next
  have hfuel := hf.2.2
  exact ⟨by omega, hat.int, by omega⟩

/-- A walk that started at `o` ends with an error, above its start or at a node further on. -/
def NodeFrom (b : Blob) (o : Int) (depth : Option Int) (r : Int × Option Int) : Prop :=
  r.1 < 0x80000000 ∧ (depth = none → r.2 = none) ∧
    (r.1 < 0 ∨ (∃ d, r.2 = some d ∧ d < 0) ∨ (o ≤ r.1 ∧ NodeAt b r.1))

theorem nextNodeLoop_returns (hb : Readable b) {fuel : Nat} {o : Int} {depth : Option Int}
    (hf : Fuelled b fuel o) :
    Returns (nextNodeLoop b fuel o depth) fun r => NodeFrom b o depth r ∧ (o < 0 → r.1 < 0) := by
  induction fuel generalizing o depth with
  | zero => exact absurd hf.1 (by decide)
  | succ fuel ih =>
    unfold nextNodeLoop
    apply Returns.bind (fdtNextTag_returns hb hf.2.1)
    rintro ⟨tag, next⟩ hat
    -- the walk goes on behind the tag; a tag that is there moves it forward
    have hgo : ∀ depth', (depth = none → depth' = none) → tag ≠ .fin →
        Returns (nextNodeLoop b fuel next depth') fun r =>
          NodeFrom b o depth r ∧ (o < 0 → r.1 < 0) := by
      intro depth' hdepth htag
      apply (ih (hf.next hat htag)).mono
      rintro r ⟨⟨hint, hnone, hr⟩, hneg⟩
      have hthere := hat.there htag
      refine ⟨⟨hint, fun h => hnone (hdepth h), ?_⟩, fun h => absurd hthere.1 (by omega)⟩
      rcases lt_or_ge next 0 with hback | hahead
      · exact .inl (hneg hback)
      · have hnext := hat.next hahead
        exact hr.imp id (.imp id fun hnode => ⟨by omega, hnode.2⟩)
    cases tag with
    | prop => exact hgo depth id nofun
    | nop => exact hgo depth id nofun
    | beginNode =>
      have hnode := hat.node rfl
      refine Returns.ok ⟨⟨hf.2.1, ?_, .inr (.inr ⟨le_rfl, hnode⟩)⟩, id⟩
      rintro rfl
      rfl
    | endNode =>
      cases depth with
      | none => exact hgo none id nofun
      | some d =>
        apply Returns.ite
        · intro hd
          have h0 := (hat.there nofun).1
          exact Returns.ok ⟨⟨hat.int, nofun, .inr (.inl ⟨d - 1, rfl, hd⟩)⟩,
            fun h => absurd h0 (by omega)⟩
        · intro _
          exact hgo _ nofun nofun
    | fin =>
      apply Returns.ite
      · intro _
        have hneg := FdtErr.notfound.ret_neg
        exact Returns.ok ⟨⟨lt_trans hneg (by decide), id, .inl hneg⟩, fun _ => hneg⟩
      · intro hneg
        rw [not_or, not_le] at hneg
        exact Returns.ok ⟨⟨hat.int, id, .inl hneg.1⟩, fun _ => hneg.1⟩

/-- Without a depth, a walk ends with an error or at a node. -/
theorem NodeFrom.behind {o : Int} {r : Int × Option Int} (h : NodeFrom b o none r) :
    r.1 < 0 ∨ (o ≤ r.1 ∧ NodeAt b r.1) := by
  obtain ⟨-, hnone, hneg | ⟨d, hd, -⟩ | hnode⟩ := h
  · exact .inl hneg
  · rw [hnone rfl] at hd
    cases hd
  · exact .inr hnode

/-- A node found from `o` lies behind `o`. -/
theorem fdtNextNode_returns (hb : Readable b) {o : Int} (ho : o < 0x80000000) (depth : Option Int) :
    Returns (fdtNextNode b o depth) fun r => NodeFrom b (o + 1) depth r := by
  unfold fdtNextNode
  apply Returns.ite
  · intro h0
    apply Returns.bind (fdtCheckOffset_returns hb .beginNode ho)
    rintro next ⟨hint, hnext⟩
    apply Returns.ite
    · intro hneg
      exact Returns.ok ⟨hint, id, .inl hneg⟩
    · intro hpos
      apply (nextNodeLoop_returns hb ⟨by omega, hint, by omega⟩).mono
      rintro r ⟨⟨hr, hnone, hnode⟩, -⟩
      have hstep := (hnext (by omega)).1
      exact ⟨hr, hnone, hnode.imp id (.imp id fun h => ⟨by omega, h.2⟩)⟩
  · intro hneg
    apply (nextNodeLoop_returns hb ⟨by omega, by decide, by omega⟩).mono
    rintro r ⟨⟨hr, hnone, hnode⟩, -⟩
    exact ⟨hr, hnone, hnode.imp id (.imp id fun h => ⟨by omega, h.2⟩)⟩

theorem nextprop_returns (hb : Readable b) {fuel : Nat} {o : Int} (hf : Fuelled b fuel o) :
    Returns (nextprop b fuel o) fun o' =>
      o' < 0x80000000 ∧ (o' < 0 ∨ (0 ≤ o ∧ o ≤ o' ∧ PropAt b o')) := by
  induction fuel generalizing o with
  | zero => exact absurd hf.1 (by decide)
  | succ fuel ih =>
    unfold nextprop
    apply Returns.bind (fdtNextTag_returns hb hf.2.1)
    rintro ⟨tag, next⟩ hat
    cases tag with
    | fin =>
      apply Returns.ite
      · intro _
        exact Returns.ok ⟨by decide, .inl (by decide)⟩
      · intro hneg
        exact Returns.ok ⟨hat.int, .inl (by omega)⟩
    | prop =>
      have hprop := hat.prop rfl
      exact Returns.ok ⟨hf.2.1, .inr ⟨hprop.1, le_rfl, hprop⟩⟩
    | nop =>
      apply (ih (hf.next hat nofun)).mono
      rintro o' ⟨hint, ho'⟩
      have hnext := hat.next
      have h0 := hat.there nofun
      dsimp only at hnext
      refine ⟨hint, ho'.imp id fun h => ⟨h0.1, ?_, h.2.2⟩⟩
      omega
    | beginNode => exact Returns.ok ⟨by decide, .inl (by decide)⟩
    | endNode => exact Returns.ok ⟨by decide, .inl (by decide)⟩

/-! ## Properties -/

theorem fdtFirstPropertyOffset_returns (hb : Readable b) {o : Int} (ho : o < 0x80000000) :
    Returns (fdtFirstPropertyOffset b o) fun o' =>
      o' < 0x80000000 ∧ (o' < 0 ∨ PropAt b o') := by
  unfold fdtFirstPropertyOffset
  apply Returns.bind (fdtCheckOffset_returns hb .beginNode ho)
  rintro next ⟨hint, -⟩
  apply Returns.ite
  · intro hneg
    exact Returns.ok ⟨hint, .inl hneg⟩
  · intro hpos
    apply (nextprop_returns hb ⟨by omega, hint, by omega⟩).mono
    rintro o' ⟨ho', h⟩
    exact ⟨ho', h.imp id fun h => h.2.2⟩

theorem fdtNextPropertyOffset_returns (hb : Readable b) {o : Int} (ho : o < 0x80000000) :
    Returns (fdtNextPropertyOffset b o) fun o' =>
      o' < 0x80000000 ∧ (o' < 0 ∨ (o < o' ∧ PropAt b o')) := by
  unfold fdtNextPropertyOffset
  apply Returns.bind (fdtCheckOffset_returns hb .prop ho)
  rintro next ⟨hint, hnext⟩
  apply Returns.ite
  · intro hneg
    exact Returns.ok ⟨hint, .inl hneg⟩
  · intro hpos
    apply (nextprop_returns hb ⟨by omega, hint, by omega⟩).mono
    rintro o' ⟨ho', h⟩
    have hstep := (hnext (by omega)).1
    exact ⟨ho', h.imp id fun h => ⟨by omega, h.2.2⟩⟩

theorem fdtGetPropertyByOffset_returns (hb : Readable b) {o : Int} (ho : o < 0x80000000) :
    Returns (fdtGetPropertyByOffset b o) fun r => ∀ p len, r = .ok (p, len) →
      PropAt b o ∧ (p : Int) = b.offDtStruct + o ∧ len = propLen b o := by
  have hthere := hb.there
  have hsize := hb.size
  unfold fdtGetPropertyByOffset
  apply Returns.bind (fdtCheckOffset_returns hb .prop ho)
  rintro next ⟨hint, hnext⟩
  apply Returns.ite
  · intro _
    apply Returns.ok
    intro p len h
    cases h
  · intro hpos
    have hprop := (hnext (by omega)).2.2 rfl
    have hin := hprop.2
    have h0 := hprop.1
    apply Returns.bind (Blob.ld32_returns (by omega))
    rintro word rfl
    apply Returns.ok
    intro p len h
    simp only [Except.ok.injEq, Prod.mk.injEq] at h
    obtain ⟨rfl, rfl⟩ := h
    refine ⟨hprop, by omega, ?_⟩
    show i32 (propLen b o) = _
    unfold i32
    split <;> omega

theorem fdtGetString_returns (hb : Readable b) (stroffset : Int) :
    Returns (fdtGetString b stroffset) fun r => ∀ p len, r = .ok (p, len) →
      0 ≤ len ∧ (p : Int) + len < b.totalsize := by
  have hthere := hb.there
  have hsize := hb.size
  have hfail : ∀ e : Int, Returns (.ok (.error e) : Except Fault FdtPtr) fun r => ∀ p len,
      r = .ok (p, len) → 0 ≤ len ∧ (p : Int) + len < b.totalsize := by
    intro e
    apply Returns.ok
    intro p len h
    cases h
  unfold fdtGetString
  dsimp only
  apply Returns.ite
  · intro _
    exact hfail _
  intro hprobe
  have hsame : (fdtRoProbe b) = b.totalsize := by
    revert hprobe
    unfold fdtRoProbe
    rw [if_pos hsize]
    split_ifs <;> first | exact fun h => absurd (FdtErr.ret_neg _) h | exact fun _ => rfl
  rw [hsame]
  apply Returns.ite
  · intro _
    exact hfail _
  intro habs
  split
  · exact hfail _
  rename_i len hbound
  -- no bound reaches behind the tree
  have hle : len ≤ b.totalsize - u32 (stroffset + b.offDtStrings) := by
    rw [Int.toNat_natCast] at hbound
    split_ifs at hbound
    all_goals
      rw [Except.ok.injEq] at hbound
      subst hbound
    · exact Nat.min_le_left _ _
    · exact le_rfl
    · exact Nat.min_le_left _ _
  apply Returns.bind (Blob.memchr_returns 0 (by omega))
  intro r hr
  cases r with
  | none => exact hfail _
  | some n =>
    have hn := hr n rfl
    apply Returns.ok
    intro p len h
    cases h
    omega

theorem fdtStringEq_returns (hb : Readable b) (stroffset : Int) (s : List UInt8) :
    Returns (fdtStringEq b stroffset s) fun _ => True := by
  have hthere := hb.there
  unfold fdtStringEq
  apply Returns.bind (fdtGetString_returns hb stroffset)
  intro r hr
  cases r with
  | error e => exact Returns.ok trivial
  | ok pl =>
    obtain ⟨p, slen⟩ := pl
    have hin := hr p slen rfl
    apply Returns.ite
    · intro hlen
      exact Blob.memeq_returns (by omega)
    · intro _
      exact Returns.ok trivial

theorem findProperty_returns (hb : Readable b) (name : List UInt8) {fuel : Nat} {o : Int}
    (ho : o < 0x80000000) (hprop : o < 0 ∨ PropAt b o) (hf : Fuelled b fuel o) :
    Returns (findProperty b name fuel o) fun r => ∀ p len poff, r = .ok (p, len, poff) →
      PropAt b poff ∧ (p : Int) = b.offDtStruct + poff ∧ len = propLen b poff := by
  have hthere := hb.there
  induction fuel generalizing o with
  | zero => exact absurd hf.1 (by decide)
  | succ fuel ih =>
    unfold findProperty
    apply Returns.ite
    · intro _
      apply Returns.ok
      intro p len poff h
      cases h
    intro hpos
    have hin := (hprop.resolve_left hpos).2
    have hfuel := hf.2.2
    apply Returns.bind (fdtGetPropertyByOffset_returns hb ho)
    intro r hr
    cases r with
    | error e =>
      apply Returns.ok
      intro p len poff h
      cases h
    | ok pl =>
      obtain ⟨p, len⟩ := pl
      have hat := hr p len rfl
      apply Returns.bind (Blob.ld32_returns (by omega))
      rintro nameoff -
      apply Returns.bind (fdtStringEq_returns hb _ name)
      intro same _
      cases same with
      | true =>
        apply Returns.ok
        intro p' len' poff h
        cases h
        exact hat
      | false =>
        apply Returns.bind (fdtNextPropertyOffset_returns hb ho)
        rintro o' ⟨ho', hnext⟩
        exact ih ho' (hnext.imp id fun h => h.2) ⟨by omega, ho', by omega⟩

/-- The value `fdt_getprop` points at lies in the tree. -/
theorem fdtGetprop_returns (hb : Readable b) {o : Int} (ho : o < 0x80000000) (name : List UInt8) :
    Returns (fdtGetprop b o name) fun r => ∀ p len, r = .ok (p, len) →
      0 ≤ len ∧ (p : Int) + len ≤ b.totalsize := by
  have hthere := hb.there
  unfold fdtGetprop fdtGetPropertyNamelen
  apply Returns.bind
  · apply Returns.bind (fdtFirstPropertyOffset_returns hb ho)
    rintro o' ⟨ho', hprop⟩
    exact findProperty_returns hb name ho' hprop ⟨by omega, ho', by omega⟩
  intro r hr
  cases r with
  | error e =>
    apply Returns.ok
    intro p len h
    cases h
  | ok pl =>
    obtain ⟨p, len, poff⟩ := pl
    obtain ⟨⟨h0, hin⟩, hp, hlen⟩ := hr p len poff rfl
    apply Returns.bind (Blob.ld32_returns (by omega))
    rintro word rfl
    have hword : be32 b.bytes (p + 4) = propLen b poff := by
      unfold propLen
      rw [show p = b.offDtStruct + poff.toNat by omega]
    rw [hword]
    unfold propPad at hin
    apply Returns.ite
    · rintro ⟨hver, halign, h8⟩
      rw [if_pos ⟨hver, h8, halign⟩] at hin
      apply Returns.ok
      intro p' len' h
      cases h
      omega
    · intro _
      apply Returns.ok
      intro p' len' h
      cases h
      omega

/-! ## Compatible nodes -/

theorem stringlistLoop_returns (hb : Readable b) (str : List UInt8) {fuel p : Nat} {len : Int}
    (hpos : 0 < fuel) (hfuel : len < fuel) (hin : (p : Int) + len ≤ b.totalsize) :
    Returns (stringlistLoop b str fuel p len) fun _ => True := by
  have hthere := hb.there
  induction fuel generalizing p len with
  | zero => omega
  | succ fuel ih =>
    unfold stringlistLoop
    apply Returns.ite
    · intro _
      exact Returns.ok trivial
    intro hlen
    have hstr : (str ++ [0]).length = str.length + 1 := by
      rw [List.length_append, List.length_singleton]
    -- the byte behind the list is still there
    apply Returns.bind (Blob.memeq_returns (by omega))
    intro same _
    cases same with
    | true => exact Returns.ok trivial
    | false =>
      apply Returns.bind (Blob.memchr_returns 0 (by omega))
      intro r hr
      cases r with
      | none => exact Returns.ok trivial
      | some q =>
        have hq := hr q rfl
        exact ih (by omega) (by omega) (by omega)

theorem fdtNodeCheckCompatible_returns (hb : Readable b) {o : Int} (ho : o < 0x80000000)
    (compatible : List UInt8) :
    Returns (fdtNodeCheckCompatible b o compatible) fun _ => True := by
  unfold fdtNodeCheckCompatible
  apply Returns.bind (fdtGetprop_returns hb ho _)
  intro r hr
  cases r with
  | error e => exact Returns.ok trivial
  | ok pl =>
    obtain ⟨p, len⟩ := pl
    have hin := hr p len rfl
    apply Returns.bind (stringlistLoop_returns hb compatible (by omega) (by omega) (by omega))
    intro found _
    cases found <;> exact Returns.ok trivial

theorem compatibleLoop_returns (hb : Readable b) (compatible : List UInt8) {fuel : Nat} {o : Int}
    (ho : o < 0x80000000) (hnode : o < 0 ∨ NodeAt b o) (hf : Fuelled b fuel o) :
    Returns (compatibleLoop b compatible fuel o) fun o' => o' < 0x80000000 := by
  induction fuel generalizing o with
  | zero => exact absurd hf.1 (by decide)
  | succ fuel ih =>
    unfold compatibleLoop
    apply Returns.ite
    · intro _
      exact Returns.ok ho
    intro hpos
    have hin := (hnode.resolve_left hpos).2.1
    have hfuel := hf.2.2
    apply Returns.bind (fdtNodeCheckCompatible_returns hb ho compatible)
    intro err _
    apply Returns.ite
    · intro herr
      exact Returns.ok (by omega)
    intro _
    apply Returns.ite
    · intro _
      exact Returns.ok ho
    intro _
    apply Returns.bind (fdtNextNode_returns hb ho none)
    intro r hr
    refine ih hr.1 (hr.behind.imp id fun h => h.2) ⟨by omega, hr.1, fun h0 => ?_⟩
    have hbehind := hr.behind.resolve_left (by omega)
    have := hbehind.1
    omega

theorem fdtNodeOffsetByCompatible_returns (hb : b.totalsize < b.bytes.length) {o : Int}
    (ho : o < 0x80000000) (compatible : List UInt8) :
    Returns (fdtNodeOffsetByCompatible b o compatible) fun o' => o' < 0x80000000 ∧
      (0 ≤ o' → Readable b) := by
  unfold fdtNodeOffsetByCompatible
  apply Returns.ite
  · intro hneg
    exact Returns.ok ⟨by omega, by omega⟩
  intro hprobe
  have hr : Readable b := ⟨fdtRoProbe_nonneg hprobe, hb⟩
  apply Returns.bind (fdtNextNode_returns hr ho none)
  intro r hnext
  apply (compatibleLoop_returns hr compatible hnext.1 (hnext.behind.imp id fun h => h.2)
    ⟨by omega, hnext.1, by omega⟩).mono
  intro o' hint
  exact ⟨hint, fun _ => hr⟩

/-! ## Paths -/

theorem fdtGetName_returns (hb : Readable b) {o : Int} (ho : o < 0x80000000) :
    Returns (fdtGetName b o) fun r => ∀ p len, r = .ok (p, len) →
      0 ≤ len ∧ (p : Int) + len < b.totalsize := by
  have hfail : ∀ e : Int, Returns (.ok (.error e) : Except Fault FdtPtr) fun r => ∀ p len,
      r = .ok (p, len) → 0 ≤ len ∧ (p : Int) + len < b.totalsize := by
    intro e
    apply Returns.ok
    intro p len h
    cases h
  unfold fdtGetName
  apply Returns.ite
  · intro _
    exact hfail _
  intro _
  apply Returns.bind (fdtCheckOffset_returns hb .beginNode ho)
  rintro next ⟨hint, hnext⟩
  apply Returns.ite
  · intro _
    exact hfail _
  intro hpos
  obtain ⟨h0, -, n, hn, hin, hnul⟩ := (hnext (by omega)).2.1 rfl
  apply Returns.ite
  · intro _
    apply Returns.bind (Blob.strrchr_returns 0x2f (by omega) hnul)
    intro r hr
    cases r with
    | none => exact hfail _
    | some leaf =>
      have hleaf := hr leaf rfl
      apply Returns.bind (Blob.strlen_returns (by omega) hnul)
      intro len hlen
      apply Returns.ok
      intro p len' h
      cases h
      omega
  · intro _
    apply Returns.bind (Blob.strlen_returns (by omega) hnul)
    intro len hlen
    apply Returns.ok
    intro p len' h
    cases h
    omega

theorem fdtNodenameEq_returns (hb : Readable b) {o : Int} (ho : o < 0x80000000) (s : List UInt8) :
    Returns (fdtNodenameEq b o s) fun _ => True := by
  have hthere := hb.there
  unfold fdtNodenameEq
  apply Returns.bind (fdtGetName_returns hb ho)
  intro r hr
  cases r with
  | error e => exact Returns.ok trivial
  | ok pl =>
    obtain ⟨p, olen⟩ := pl
    have hin := hr p olen rfl
    apply Returns.ite
    · intro _
      exact Returns.ok trivial
    intro hlen
    apply Returns.bind (Blob.memeq_returns (by omega))
    intro same _
    cases same with
    | false => exact Returns.ok trivial
    | true =>
      apply Returns.bind (Blob.ld8_returns (by omega))
      intro c _
      exact Returns.ite (fun _ => Returns.ok trivial) fun _ => Returns.ok trivial

theorem subnodeLoop_returns (hb : Readable b) (name : List UInt8) {fuel : Nat} {o depth : Int}
    (ho : o < 0x80000000) (hpos : 0 < fuel)
    (hf : 0 ≤ o → 0 ≤ depth → 1 < fuel ∧ b.totalsize + 1 < o + fuel) :
    Returns (subnodeLoop b name fuel o depth) fun o' => o' < 0x80000000 := by
  induction fuel generalizing o depth with
  | zero => omega
  | succ fuel ih =>
    unfold subnodeLoop
    apply Returns.ite
    · rintro ⟨h0, hd0⟩
      have hfuel := hf h0 hd0
      have hname : Returns (if depth = 1 then fdtNodenameEq b o name else .ok false)
          fun _ => True :=
        Returns.ite (fun _ => fdtNodenameEq_returns hb ho name) fun _ => Returns.ok trivial
      apply Returns.bind hname
      intro same _
      cases same with
      | true => exact Returns.ok ho
      | false =>
        apply Returns.bind (fdtNextNode_returns hb ho (some depth))
        rintro ⟨o', d⟩ ⟨ho', -, hnext⟩
        apply ih ho' (by omega)
        intro hpos' hd
        dsimp only at hnext
        rcases hnext with hneg | ⟨d', rfl, hd'⟩ | ⟨hbehind, hnode⟩
        · omega
        · exact absurd hd (by rw [Option.getD_some]; omega)
        · have hin := hnode.2.1
          omega
    · intro _
      apply Returns.ite
      · intro _
        exact Returns.ok (by decide)
      · intro _
        exact Returns.ok ho

theorem fdtSubnodeOffsetNamelen_returns (hb : b.totalsize < b.bytes.length) {o : Int}
    (ho : o < 0x80000000) (name : List UInt8) :
    Returns (fdtSubnodeOffsetNamelen b o name) fun o' => o' < 0x80000000 := by
  unfold fdtSubnodeOffsetNamelen
  apply Returns.ite
  · intro hneg
    exact Returns.ok (by omega)
  intro hprobe
  exact subnodeLoop_returns ⟨fdtRoProbe_nonneg hprobe, hb⟩ name ho (by omega) (by omega)

theorem pathLoop_returns (hb : b.totalsize < b.bytes.length) {fuel : Nat} {o : Int}
    {path : List UInt8} (ho : o < 0x80000000) (hf : path.length < fuel) :
    Returns (pathLoop b fuel o path) fun o' => o' < 0x80000000 := by
  induction fuel generalizing o path with
  | zero => omega
  | succ fuel ih =>
    unfold pathLoop
    apply Returns.ite
    · intro _
      exact Returns.ok ho
    intro _
    apply Returns.ite
    · intro _
      exact Returns.ok ho
    intro hne
    apply Returns.bind (fdtSubnodeOffsetNamelen_returns hb ho _)
    intro o' ho'
    apply Returns.ite
    · intro _
      exact Returns.ok ho'
    intro _
    apply ih ho'
    -- the component starts with a byte that is not a slash, so it is not empty
    have hdrop :=
      (List.dropWhile_sublist (l := path) (fun x : UInt8 => decide (x = 0x2f))).length_le
    have hhead := List.head?_dropWhile_not (fun x : UInt8 => decide (x = 0x2f)) path
    cases hp : path.dropWhile (fun x : UInt8 => decide (x = 0x2f)) with
    | nil => exact absurd hp hne
    | cons c rest =>
      rw [hp, List.head?_cons] at hhead
      rw [hp, List.length_cons] at hdrop
      have hc : decide (c ≠ 0x2f) = true := by
        rw [decide_eq_true_eq]
        exact of_decide_eq_false hhead
      rw [List.dropWhile_cons, if_pos hc]
      have hrest :=
        (List.dropWhile_sublist (l := rest) (fun x : UInt8 => decide (x ≠ 0x2f))).length_le
      omega

theorem fdtRootPathOffset_returns (hb : b.totalsize < b.bytes.length) (path : List UInt8) :
    Returns (fdtRootPathOffset b path) fun o => o < 0x80000000 := by
  unfold fdtRootPathOffset
  apply Returns.ite
  · intro hneg
    exact Returns.ok (by omega)
  intro _
  apply Returns.ite
  · intro _
    exact Returns.ok (by decide)
  · intro _
    exact pathLoop_returns hb (by decide) (by omega)

/-- An alias ends in the tree. -/
theorem fdtGetAliasNamelen_returns (hb : Readable b) (name : List UInt8) :
    Returns (fdtGetAliasNamelen b name) fun r => ∀ p, r = some p →
      ∃ n, p ≤ n ∧ b.bytes[n]? = some 0 := by
  have hthere := hb.there
  have hfail : Returns (.ok none : Except Fault (Option Nat)) fun r => ∀ p, r = some p →
      ∃ n, p ≤ n ∧ b.bytes[n]? = some 0 := by
    apply Returns.ok
    intro p h
    cases h
  unfold fdtGetAliasNamelen
  apply Returns.bind (fdtRootPathOffset_returns hthere _)
  intro o ho
  apply Returns.ite
  · intro _
    exact hfail
  intro _
  apply Returns.bind (fdtGetprop_returns hb ho name)
  intro r hr
  cases r with
  | error e => exact hfail
  | ok pl =>
    obtain ⟨path, len⟩ := pl
    have hin := hr path len rfl
    apply Returns.ite
    · intro hlen
      apply Returns.bind (Blob.ld8_returns (by omega))
      intro last hlast
      apply Returns.bind (Blob.ld8_returns (by omega))
      intro first _
      apply Returns.ite
      · rintro ⟨rfl, -⟩
        apply Returns.ok
        intro p h
        cases h
        exact ⟨_, by omega, hlast⟩
      · intro _
        exact hfail
    · intro _
      exact hfail

theorem fdtPathOffset_returns (hb : b.totalsize < b.bytes.length) (path : List UInt8) :
    Returns (fdtPathOffset b path) fun o => o < 0x80000000 ∧ (0 ≤ o → Readable b) := by
  unfold fdtPathOffset
  apply Returns.ite
  · intro hneg
    exact Returns.ok ⟨by omega, by omega⟩
  intro hprobe
  have hr : Readable b := ⟨fdtRoProbe_nonneg hprobe, hb⟩
  cases path with
  | nil => exact Returns.ok ⟨by decide, fun _ => hr⟩
  | cons c path =>
    apply Returns.ite
    · intro _
      exact (fdtRootPathOffset_returns hb _).mono fun o ho => ⟨ho, fun _ => hr⟩
    · intro _
      apply Returns.bind (fdtGetAliasNamelen_returns hr _)
      intro r hnul
      cases r with
      | none => exact Returns.ok ⟨by decide, fun _ => hr⟩
      | some p =>
        obtain ⟨n, hpn, hn⟩ := hnul p rfl
        apply Returns.bind (Blob.strlen_returns hpn hn)
        intro len _
        apply Returns.bind (fdtRootPathOffset_returns hb _)
        intro o ho
        have hdrop := (List.dropWhile_sublist (l := c :: path)
          (fun x : UInt8 => decide (x ≠ 0x2f))).length_le
        exact (pathLoop_returns hb ho (by omega)).mono fun o' ho' => ⟨ho', fun _ => hr⟩

/-! ## The drivers' lookups -/

theorem fdtGetCell_returns (hb : Readable b) {o : Int} (ho : o < 0x80000000) (name : List UInt8) :
    Returns (fdtGetCell b o name) fun _ => True := by
  have hthere := hb.there
  unfold fdtGetCell
  apply Returns.bind (fdtGetprop_returns hb ho name)
  intro r hr
  cases r with
  | error e => exact Returns.ok trivial
  | ok pl =>
    obtain ⟨p, len⟩ := pl
    have hin := hr p len rfl
    apply Returns.ite
    · intro _
      exact Returns.ok trivial
    · intro _
      apply Returns.bind (Blob.ld32_returns (by omega))
      intro x _
      exact Returns.ok trivial

theorem fdtFindRegByCompat_returns (hb : b.totalsize < b.bytes.length) (compat : List UInt8) :
    Returns (fdtFindRegByCompat b compat) fun _ => True := by
  unfold fdtFindRegByCompat
  apply Returns.bind (fdtNodeOffsetByCompatible_returns hb (by decide) compat)
  rintro o ⟨ho, hr⟩
  apply Returns.ite
  · intro _
    exact Returns.ok trivial
  intro hpos
  apply Returns.bind (fdtGetprop_returns (hr (by omega)) ho _)
  intro r hval
  cases r with
  | error e => exact Returns.ok trivial
  | ok pl =>
    obtain ⟨p, len⟩ := pl
    have hin := hval p len rfl
    apply Returns.ite
    · intro _
      exact Returns.ok trivial
    · intro _
      apply Returns.bind (Blob.ld32_returns (by omega))
      intro addrHi _
      apply Returns.bind (Blob.ld32_returns (by omega))
      intro addrLo _
      apply Returns.bind (Blob.ld32_returns (by omega))
      intro sizeHi _
      apply Returns.bind (Blob.ld32_returns (by omega))
      intro sizeLo _
      exact Returns.ok trivial

theorem fdtFindIrqByCompat_returns (hb : b.totalsize < b.bytes.length) (compat : List UInt8) :
    Returns (fdtFindIrqByCompat b compat) fun _ => True := by
  unfold fdtFindIrqByCompat
  apply Returns.bind (fdtNodeOffsetByCompatible_returns hb (by decide) compat)
  rintro o ⟨ho, hr⟩
  apply Returns.ite
  · intro _
    exact Returns.ok trivial
  · intro hpos
    exact fdtGetCell_returns (hr (by omega)) ho _

end Ccos
