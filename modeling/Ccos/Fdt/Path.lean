import Mathlib.Tactic
import Ccos.Fdt.Lookup

/-!
# Paths

`fdt_path_offset` walks down a tree, one component at a time.  The depth that `fdt_next_node` counts
is what keeps the search for a component among the children of its node.
-/

namespace Ccos

open Reasoning

variable {b : Blob} {off : Nat} {ts : List Token}

/-! ## Names -/

/-- A component names a node with or without its unit address. -/
def nameMatches (name s : List UInt8) : Bool :=
  decide (s = name ∨ (0x40 ∉ s ∧ s ++ [0x40] <+: name))

theorem Blob.At.strlen {i : Nat} {s : List UInt8} (h : b.At i (s ++ [0])) (hs : 0 ∉ s) :
    b.strlen i = .ok s.length := by
  have hlen := h.length_le (by simp)
  rw [List.length_append, List.length_singleton] at hlen
  have hgo : ∀ fuel, s.length < fuel → b.strlenFrom fuel i = .ok s.length := by
    clear hlen
    intro fuel hf
    induction s generalizing i fuel with
    | nil =>
      obtain ⟨fuel, rfl⟩ : ∃ k, fuel = k + 1 := ⟨fuel - 1, by rw [List.length_nil] at hf; omega⟩
      unfold Blob.strlenFrom
      rw [Blob.At.ld8 h]
      rfl
    | cons c s ih =>
      rw [List.length_cons] at hf
      rw [List.mem_cons, not_or] at hs
      obtain ⟨fuel, rfl⟩ : ∃ k, fuel = k + 1 := ⟨fuel - 1, by omega⟩
      have hrest := ih (Blob.At.tail h) hs.2 fuel (by omega)
      rw [Blob.strlenFrom, Blob.At.ld8 h, ok_bind, if_neg (Ne.symm hs.1), hrest]
      rfl
  exact hgo _ (by omega)

theorem fdtGetName_at (hl : Layout b) {nm : List UInt8} (h : TokensAt b off (.beginNode nm :: ts)) :
    fdtGetName b off = .ok (.ok (b.offDtStruct + off + 4, (nm.length : Int))) := by
  have hv := hl.version
  obtain ⟨hname, hat⟩ := h.2.1
  have htext : b.At (b.offDtStruct + off + 4) (nm ++ [0]) := hat.right.left
  unfold fdtGetName
  rw [if_neg hl.probe_nonneg, fdtCheckNodeOffset_at hl h, ok_bind, if_neg (by omega)]
  dsimp only
  rw [if_neg (by omega), Int.toNat_natCast, htext.strlen hname]
  rfl

theorem fdtNodenameEq_at (hl : Layout b) {nm : List UInt8}
    (h : TokensAt b off (.beginNode nm :: ts))
    {s : List UInt8} : fdtNodenameEq b off s = .ok (nameMatches nm s) := by
  obtain ⟨hname, hat⟩ := h.2.1
  have htext : b.At (b.offDtStruct + off + 4) (nm ++ [0]) := hat.right.left
  unfold fdtNodenameEq nameMatches
  rw [fdtGetName_at hl h, ok_bind]
  dsimp only
  by_cases hshort : nm.length < s.length
  · -- too short to be the name, with or without a unit address
    rw [if_pos (by omega)]
    congr 1
    symm
    rw [decide_eq_false_iff_not]
    rintro (rfl | ⟨-, hp⟩)
    · exact lt_irrefl _ hshort
    · have := hp.length_le
      rw [List.length_append] at this
      omega
  rw [if_neg (by omega), htext.left.memeq (by omega), ok_bind]
  by_cases hp : s <+: nm
  · obtain ⟨tail, rfl⟩ := hp
    rw [decide_eq_true (List.prefix_append s tail)]
    have hnext : b.At (b.offDtStruct + off + 4 + s.length) (tail ++ [0]) := by
      rw [List.append_assoc] at htext
      exact htext.right
    -- the byte behind the compared part is the NUL, an `@` or another character of the name
    cases tail with
    | nil =>
      simp only [if_true, Blob.At.ld8 hnext, ok_bind, List.append_nil, true_or, decide_true]
    | cons c tail =>
      have hc0 : c ≠ 0 := by
        rintro rfl
        exact hname (List.mem_append_right _ List.mem_cons_self)
      have hne : ¬ s = s ++ c :: tail := by
        intro heq
        have := congrArg List.length heq
        rw [List.length_append, List.length_cons] at this
        omega
      have hunit : s ++ [0x40] <+: s ++ c :: tail ↔ c = 0x40 := by
        rw [List.prefix_append_right_inj, List.cons_prefix_cons]
        exact ⟨fun h => h.1.symm, fun h => ⟨h.symm, List.nil_prefix⟩⟩
      simp only [if_true, Blob.At.ld8 hnext, ok_bind, if_neg hc0, hne, false_or, hunit]
  · rw [decide_eq_false hp]
    simp only [Bool.false_eq_true, if_false]
    congr 1
    symm
    rw [decide_eq_false_iff_not]
    rintro (rfl | ⟨-, hp'⟩)
    · exact hp List.prefix_rfl
    · exact hp ((List.prefix_append _ _).trans hp')

/-! ## Children -/

/-- The first node at depth 1 whose name matches, with the tags from its start on. -/
def childFrom (s : List UInt8) : Int → Nat → List Token → Option (Nat × List Token)
  | d, off, .beginNode nm :: ts =>
    if d + 1 = 1 ∧ nameMatches nm s then some (off, .beginNode nm :: ts)
    else childFrom s (d + 1) (off + (Token.beginNode nm).size) ts
  | d, off, .endNode :: ts =>
    -- the parent ends
    if d - 1 < 0 then none else childFrom s (d - 1) (off + Token.endNode.size) ts
  | d, off, tok :: ts => childFrom s d (off + tok.size) ts
  | _, _, [] => none

theorem subnodeLoop_at (hl : Layout b) {s : List UInt8} (h : TokensAt b off ts)
    {d : Int} (hd : 0 ≤ d) (x : Int) {fuel fuel' : Nat} (hf : ts.length < fuel)
    (hf' : ts.length < fuel') :
    (nextNodeLoop b fuel off (some d) >>= fun r => subnodeLoop b s fuel' r.1 (r.2.getD x)) =
      .ok (match childFrom s d off ts with
        | none => FdtErr.notfound.ret
        | some r => (r.1 : Int)) := by
  induction ts generalizing off d x fuel fuel' with
  | nil =>
    obtain ⟨fuel, rfl⟩ : ∃ k, fuel = k + 1 := ⟨fuel - 1, by omega⟩
    obtain ⟨fuel', rfl⟩ : ∃ k, fuel' = k + 1 := ⟨fuel' - 1, by omega⟩
    have hneg : ¬ (0 ≤ FdtErr.notfound.ret ∧ 0 ≤ d) := fun h => absurd h.1 (by decide)
    rw [nextNodeLoop, fdtNextTag_fin hl h.1 h.2, ok_bind]
    dsimp only
    rw [if_pos (.inl (by omega)), ok_bind, subnodeLoop]
    simp only [Option.getD_some, if_neg hneg, if_neg (not_lt.mpr hd), childFrom]
  | cons tok ts ih =>
    rw [List.length_cons] at hf hf'
    obtain ⟨fuel, rfl⟩ : ∃ k, fuel = k + 1 := ⟨fuel - 1, by omega⟩
    have htag := fdtNextTag_token hl h.1 h.2.1
    unfold nextNodeLoop
    rw [htag, ok_bind]
    cases tok with
    -- `fdt_next_node` walks on over these without a stop
    | prop _ _ => exact ih h.2.2 hd x (by omega) (by omega)
    | nop => exact ih h.2.2 hd x (by omega) (by omega)
    | endNode =>
      dsimp only [Token.tag]
      unfold childFrom
      by_cases hend : d - 1 < 0
      · obtain ⟨fuel', rfl⟩ : ∃ k, fuel' = k + 1 := ⟨fuel' - 1, by omega⟩
        rw [if_pos hend, if_pos hend, ok_bind, subnodeLoop]
        simp only [Option.getD_some]
        rw [if_neg (by omega), if_pos hend]
      · rw [if_neg hend, if_neg hend]
        exact ih h.2.2 (by omega) x (by omega) (by omega)
    | beginNode nm =>
      -- `fdt_next_node` stops here; the name is compared only at the depth of a child
      obtain ⟨fuel', rfl⟩ : ∃ k, fuel' = k + 1 := ⟨fuel' - 1, by omega⟩
      have hlen := h.2.2.length_le
      have hfuel : ts.length < b.totalsize + 2 := by omega
      have hfuel' : ts.length < fuel' := by omega
      have hgo := ih h.2.2 (d := d + 1) (by omega) (d + 1) hfuel hfuel'
      have hstart : subnodeLoop b s (fuel' + 1) off (d + 1) =
          (if d + 1 = 1 then fdtNodenameEq b off s else .ok false) >>= fun same =>
            if same = true then .ok (off : Int)
            else fdtNextNode b off (some (d + 1)) >>= fun r =>
              subnodeLoop b s fuel' r.1 (r.2.getD (d + 1)) := by
        rw [subnodeLoop, if_pos (by omega)]
      show subnodeLoop b s (fuel' + 1) off (d + 1) = _
      have hchild : childFrom s d off (.beginNode nm :: ts) =
          if d + 1 = 1 ∧ nameMatches nm s then some (off, .beginNode nm :: ts)
          else childFrom s (d + 1) (off + (Token.beginNode nm).size) ts := by
        rw [childFrom]
      rw [hstart, fdtNextNode_at hl h, hgo, fdtNodenameEq_at hl h, hchild]
      by_cases hone : d + 1 = 1
      · rw [if_pos hone, ok_bind]
        by_cases hmatch : nameMatches nm s = true
        · rw [if_pos hmatch, if_pos ⟨hone, hmatch⟩]
        · rw [if_neg hmatch, if_neg fun h => hmatch h.2]
      · rw [if_neg hone, ok_bind, if_neg Bool.false_ne_true, if_neg fun h => hone h.1]

theorem childFrom_props (s : List UInt8) (props : List (Option DtProp)) (d : Int) (off : Nat)
    (ts : List Token) : ∃ off', childFrom s d off (props.map propToken ++ ts) =
      childFrom s d off' ts := by
  induction props generalizing off with
  | nil => exact ⟨off, rfl⟩
  | cons p props ih =>
    cases p with
    | none => exact ih _
    | some nv => exact ih _

/-- Below the children nothing matches. -/
theorem childFrom_below (s : List UInt8) (f : Forest) {d : Int} (hd : 1 ≤ d) (off : Nat)
    (ts : List Token) : ∃ off', childFrom s d off (f.tokens ++ ts) = childFrom s d off' ts := by
  induction f generalizing d off ts with
  | nil => exact ⟨off, rfl⟩
  | nop siblings ih => exact ih hd _ _
  | node name props children siblings ihc ihs =>
    have hassoc : (Forest.node name props children siblings).tokens ++ ts = .beginNode name ::
        (props.map propToken ++ (children.tokens ++ .endNode :: (siblings.tokens ++ ts))) := by
      simp only [Forest.tokens, List.cons_append, List.append_assoc]
    obtain ⟨o₁, h₁⟩ := childFrom_props s props (d + 1) (off + (Token.beginNode name).size)
      (children.tokens ++ .endNode :: (siblings.tokens ++ ts))
    obtain ⟨o₂, h₂⟩ := ihc (d := d + 1) (by omega) o₁ (.endNode :: (siblings.tokens ++ ts))
    obtain ⟨o₃, h₃⟩ := ihs hd (o₂ + Token.endNode.size) ts
    refine ⟨o₃, ?_⟩
    rw [hassoc, childFrom, if_neg (by omega), h₁, h₂, childFrom, if_neg (by omega),
      add_sub_cancel_right, h₃]

/-- A node: its name, its properties and its children. -/
structure DtNode where
  name : List UInt8
  props : List (Option DtProp)
  children : Forest

def DtNode.tokens (nd : DtNode) : List Token :=
  .beginNode nd.name :: (nd.props.map propToken ++ (nd.children.tokens ++ [.endNode]))

/-- The first node of a level that a path component names. -/
def Forest.child (s : List UInt8) : Forest → Option DtNode
  | .nil => none
  | .nop siblings => siblings.child s
  | .node name props children siblings =>
    if nameMatches name s then some ⟨name, props, children⟩ else siblings.child s

theorem childFrom_level (s : List UInt8) (f : Forest) (off : Nat) (rest : List Token) :
    match f.child s with
    | none => childFrom s 0 off (f.tokens ++ .endNode :: rest) = none
    | some nd => ∃ off' rest', childFrom s 0 off (f.tokens ++ .endNode :: rest) =
      some (off', nd.tokens ++ rest') := by
  induction f generalizing off with
  | nil => rfl
  | nop siblings ih => exact ih _
  | node name props children siblings _ ihs =>
    have hassoc : (Forest.node name props children siblings).tokens ++ .endNode :: rest =
        .beginNode name :: (props.map propToken ++
          (children.tokens ++ .endNode :: (siblings.tokens ++ .endNode :: rest))) := by
      simp only [Forest.tokens, List.cons_append, List.append_assoc]
    rw [hassoc, Forest.child, childFrom]
    by_cases hmatch : nameMatches name s = true
    · rw [if_pos hmatch, if_pos ⟨by decide, hmatch⟩]
      refine ⟨off, siblings.tokens ++ .endNode :: rest, ?_⟩
      simp only [DtNode.tokens, List.cons_append, List.append_assoc, List.nil_append]
    · -- this child is skipped with all below it
      rw [if_neg hmatch, if_neg fun h => hmatch h.2]
      obtain ⟨o₁, h₁⟩ := childFrom_props s props (0 + 1) (off + (Token.beginNode name).size)
        (children.tokens ++ .endNode :: (siblings.tokens ++ .endNode :: rest))
      obtain ⟨o₂, h₂⟩ := childFrom_below s children (d := 0 + 1) (by omega) o₁
        (.endNode :: (siblings.tokens ++ .endNode :: rest))
      rw [h₁, h₂, childFrom, if_neg (by omega)]
      exact ihs _

theorem TokensAt.childFrom {s : List UInt8} {d : Int} {off' : Nat} {ts' : List Token}
    (h : TokensAt b off ts) (hchild : childFrom s d off ts = some (off', ts')) :
    TokensAt b off' ts' := by
  induction ts generalizing off d with
  | nil =>
    rw [Ccos.childFrom] at hchild
    cases hchild
  | cons tok ts ih =>
    cases tok with
    | prop _ _ => exact ih h.2.2 hchild
    | nop => exact ih h.2.2 hchild
    | endNode =>
      rw [Ccos.childFrom] at hchild
      split at hchild
      · cases hchild
      · exact ih h.2.2 hchild
    | beginNode nm =>
      rw [Ccos.childFrom] at hchild
      split at hchild
      · cases hchild
        exact h
      · exact ih h.2.2 hchild

/-- A component leads from a node to its first child of that name. -/
theorem fdtSubnodeOffsetNamelen_at (hl : Layout b) {nd : DtNode} {rest : List Token}
    (h : TokensAt b off (nd.tokens ++ rest)) (s : List UInt8) :
    Returns (fdtSubnodeOffsetNamelen b off s) fun r =>
      match nd.children.child s with
      | none => r = FdtErr.notfound.ret
      | some nd' => ∃ (off' : Nat) (rest' : List Token), r = off' ∧
        TokensAt b off' (nd'.tokens ++ rest') := by
  have hassoc : nd.tokens ++ rest = .beginNode nd.name :: (nd.props.map propToken ++
      (nd.children.tokens ++ .endNode :: rest)) := by
    simp only [DtNode.tokens, List.cons_append, List.append_assoc, List.nil_append]
  rw [hassoc] at h
  have hlen := h.2.2.length_le
  -- the node itself is at depth 0, where no name is compared
  have hstart : fdtSubnodeOffsetNamelen b off s = fdtNextNode b off (some 0) >>= fun r =>
      subnodeLoop b s (b.totalsize + 1) r.1 (r.2.getD 0) := by
    unfold fdtSubnodeOffsetNamelen
    rw [if_neg hl.probe_nonneg, subnodeLoop, if_pos (by omega), if_neg (by decide), ok_bind,
      if_neg Bool.false_ne_true]
  rw [hstart, fdtNextNode_at hl h, subnodeLoop_at hl h.2.2 le_rfl 0 (by omega) (by omega)]
  refine ⟨_, rfl, ?_⟩
  obtain ⟨o₁, h₁⟩ := childFrom_props s nd.props 0 (off + (Token.beginNode nd.name).size)
    (nd.children.tokens ++ .endNode :: rest)
  have hlevel := childFrom_level s nd.children o₁ rest
  rw [← h₁] at hlevel
  cases hchild : nd.children.child s with
  | none =>
    rw [hchild] at hlevel
    rw [hlevel]
  | some nd' =>
    rw [hchild] at hlevel
    obtain ⟨off', rest', hfound⟩ := hlevel
    rw [hfound]
    exact ⟨off', rest', rfl, h.2.2.childFrom hfound⟩

/-! ## Components -/

/-- The names between the slashes. -/
def pathComponents (path : List UInt8) : List (List UInt8) :=
  (path.splitOn 0x2f).filter (· ≠ [])

/-- The node a list of components leads to. -/
def DtNode.walk (nd : DtNode) : List (List UInt8) → Option DtNode
  | [] => some nd
  | s :: rest => (nd.children.child s).bind (·.walk rest)

theorem pathComponents_slashes (path : List UInt8) :
    pathComponents (path.dropWhile (· = 0x2f)) = pathComponents path := by
  induction path with
  | nil => rfl
  | cons c path ih =>
    rw [List.dropWhile_cons]
    split
    · rename_i hc
      have hslash : c = 0x2f := of_decide_eq_true hc
      rw [ih, hslash]
      unfold pathComponents
      rw [List.splitOn_cons_eq_if_modifyHead, if_pos (by decide)]
      rfl
    · rfl

/-- The first component ends at the next slash. -/
theorem pathComponents_first {p : List UInt8} {c : UInt8} (hc : c ≠ 0x2f) (hp : p.head? = some c) :
    pathComponents p =
      p.takeWhile (· ≠ 0x2f) :: pathComponents (p.dropWhile (· ≠ 0x2f)) := by
  obtain ⟨p, rfl⟩ : ∃ tail, p = c :: tail := by
    cases p with
    | nil => cases hp
    | cons d p =>
      cases hp
      exact ⟨p, rfl⟩
  have hseg : 0x2f ∉ (c :: p).takeWhile (fun x => decide (x ≠ 0x2f)) := by
    intro hmem
    have hall := List.all_takeWhile (p := fun x : UInt8 => decide (x ≠ 0x2f)) (l := c :: p)
    exact absurd (List.all_eq_true.mp hall _ hmem) (by decide)
  have hne : (c :: p).takeWhile (fun x => decide (x ≠ 0x2f)) ≠ [] := by
    rw [List.takeWhile_cons, if_pos (by simpa using hc)]
    exact List.cons_ne_nil _ _
  have hhead := List.head?_dropWhile_not (fun x : UInt8 => decide (x ≠ 0x2f)) (c :: p)
  conv_lhs => rw [← List.takeWhile_append_dropWhile (p := fun x => decide (x ≠ 0x2f)) (l := c :: p)]
  cases hrest : (c :: p).dropWhile (fun x => decide (x ≠ 0x2f)) with
  | nil =>
    unfold pathComponents
    rw [List.append_nil, List.splitOn_eq_singleton hseg, List.filter_cons,
      if_pos (decide_eq_true hne)]
    rfl
  | cons d rest =>
    rw [hrest, List.head?_cons] at hhead
    have hd : d = 0x2f := by simpa using hhead
    rw [hd]
    unfold pathComponents
    rw [List.splitOn_append_cons_self_of_not_mem hseg, List.splitOn_cons_eq_if_modifyHead,
      if_pos (by decide), List.filter_cons, if_pos (decide_eq_true hne)]
    rfl

theorem pathLoop_at (hl : Layout b) {nd : DtNode} {rest : List Token}
    (h : TokensAt b off (nd.tokens ++ rest)) {path : List UInt8} {fuel : Nat}
    (hf : path.length < fuel) :
    Returns (pathLoop b fuel off path) fun r =>
      match nd.walk (pathComponents path) with
      | none => r = FdtErr.notfound.ret
      | some nd' => ∃ (off' : Nat) (rest' : List Token), r = off' ∧
        TokensAt b off' (nd'.tokens ++ rest') := by
  induction fuel generalizing nd off rest path with
  | zero => omega
  | succ fuel ih =>
    have hdrop := (List.dropWhile_sublist (l := path) fun x : UInt8 => decide (x = 0x2f)).length_le
    have hhead := List.head?_dropWhile_not (fun x : UInt8 => decide (x = 0x2f)) path
    unfold pathLoop
    rw [← pathComponents_slashes path]
    by_cases hnil : path = []
    · rw [if_pos hnil, hnil]
      exact Returns.ok ⟨off, rest, rfl, h⟩
    rw [if_neg hnil]
    dsimp only
    cases hp : path.dropWhile (fun x : UInt8 => decide (x = 0x2f)) with
    | nil =>
      rw [if_pos rfl]
      exact Returns.ok ⟨off, rest, rfl, h⟩
    | cons c p =>
      rw [hp, List.head?_cons] at hhead
      rw [hp, List.length_cons] at hdrop
      -- a component follows the slashes, so the rest of the path is shorter
      have hc : c ≠ 0x2f := of_decide_eq_false hhead
      have hshort : ((c :: p).dropWhile fun x => decide (x ≠ 0x2f)).length ≤ p.length := by
        rw [List.dropWhile_cons, if_pos (by simpa using hc)]
        exact (List.dropWhile_sublist _).length_le
      rw [if_neg (List.cons_ne_nil _ _), pathComponents_first hc rfl, DtNode.walk]
      apply Returns.bind (fdtSubnodeOffsetNamelen_at hl h _)
      intro r hr
      cases hchild : nd.children.child ((c :: p).takeWhile fun x => decide (x ≠ 0x2f)) with
      | none =>
        rw [hchild] at hr
        subst hr
        rw [if_pos (by decide)]
        exact Returns.ok rfl
      | some nd' =>
        rw [hchild] at hr
        obtain ⟨off', rest', rfl, h'⟩ := hr
        rw [if_neg (by omega), Option.bind_some]
        exact ih h' (by omega)

/-- A path from the root leads where its components do. -/
theorem fdtPathOffset_at (hl : Layout b) {nd : DtNode} {rest : List Token}
    (h : TokensAt b 0 (nd.tokens ++ rest)) {path : List UInt8} (hroot : path.head? = some 0x2f) :
    Returns (fdtPathOffset b path) fun r =>
      match nd.walk (pathComponents path) with
      | none => r = FdtErr.notfound.ret
      | some nd' => ∃ (off : Nat) (rest' : List Token), r = off ∧
        TokensAt b off (nd'.tokens ++ rest') := by
  cases path with
  | nil => cases hroot
  | cons c path =>
    have hc : c = 0x2f := by simpa using hroot
    unfold fdtPathOffset fdtRootPathOffset
    dsimp only
    rw [if_neg hl.probe_nonneg, if_pos hc, if_neg hl.probe_nonneg, if_neg (List.cons_ne_nil _ _)]
    exact pathLoop_at hl h (Nat.lt_succ_self _)

/-- The properties of a node are found at its offset. -/
theorem DtNode.fdtGetCell_at (hl : Layout b) {nd : DtNode} {rest : List Token}
    (h : TokensAt b off (nd.tokens ++ rest)) (name : List UInt8) :
    fdtGetCell b off name = .ok ((propValue name (nd.props.filterMap id)).bind cellOf) := by
  have hassoc : nd.tokens ++ rest = .beginNode nd.name :: (nd.props.map propToken ++
      (nd.children.tokens ++ .endNode :: rest)) := by
    simp only [DtNode.tokens, List.cons_append, List.append_assoc, List.nil_append]
  rw [hassoc] at h
  have hprops := nodeProps_append nd.props (nodeProps_children nd.children rest)
  rw [Ccos.fdtGetCell_at hl h hprops.2, hprops.1]

end Ccos
