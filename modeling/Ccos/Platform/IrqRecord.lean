import Mathlib.Tactic
import Mathlib.Data.List.GetD
import Ccos.Kernel.Trap

/-!
# Statistics of one irq line

`platform_handle_s_external` keeps the figures of a line online, one occurrence at a time, and takes
`count == 0` for "this is the first one".  The counter wraps, so the test holds again at every
2^64-th occurrence: the first tick is taken anew there and the gap before it is not looked at.
-/

namespace Ccos

/-- The figures of a line that has not fired. -/
def IrqLine.Fresh (l : IrqLine) : Prop :=
  l.count = 0 ∧ l.maxDelta = 0

/-- The largest difference of consecutive times, 0 if there are fewer than two. -/
def maxGap : List UInt64 → Nat
  | a :: b :: ts => max (b.toNat - a.toNat) (maxGap (b :: ts))
  | _ => 0

/-- What the figures of a line are meant to be after occurrences at `times`. -/
structure FiguresExact (times : List UInt64) (count first last maxDelta : UInt64) : Prop where
  count : count = UInt64.ofNat times.length
  first : ∀ t ∈ times.head?, first = t
  last : ∀ t ∈ times.getLast?, last = t
  maxDelta : maxDelta.toNat = maxGap times

/-- The index of the last occurrence that found the counter at 0. -/
def lastRestart (n : Nat) : Nat := 2 ^ 64 * ((n - 1) / 2 ^ 64)

/-- The occurrences up to the last restart of the counter all happened at one time. -/
def RestartsUnseen (times : List UInt64) : Prop :=
  times.getD (lastRestart times.length) 0 = times.headD 0

theorem maxGap_concat (ts : List UInt64) (last t : UInt64) :
    maxGap (ts ++ [last, t]) = max (maxGap (ts ++ [last])) (t.toNat - last.toNat) := by
  induction ts with
  | nil => simp [maxGap]
  | cons a ts ih =>
    cases ts with
    | nil =>
      show max _ (maxGap [last, t]) = max (max _ (maxGap [last])) _
      simp [maxGap]
    | cons b ts =>
      show max _ (maxGap (b :: ts ++ [last, t])) = max (max _ (maxGap (b :: ts ++ [last]))) _
      rw [ih, max_assoc]

section Fold

variable {l : IrqLine}

theorem record_count (now : UInt64) : (l.record now).count = l.count + 1 := by
  unfold IrqLine.record
  split <;> rfl

theorem record_lastTick (now : UInt64) : (l.record now).lastTick = now := by
  unfold IrqLine.record
  split <;> rfl

theorem record_maxDelta_restart (hcount : l.count = 0) (now : UInt64) :
    (l.record now).maxDelta = l.maxDelta := by
  unfold IrqLine.record
  rw [if_pos hcount]

theorem record_maxDelta (hcount : l.count ≠ 0) (now : UInt64) :
    (l.record now).maxDelta.toNat = max l.maxDelta.toNat (now - l.lastTick).toNat := by
  unfold IrqLine.record
  rw [if_neg hcount]
  dsimp only
  split_ifs with hlt
  · exact (max_eq_right (Nat.le_of_lt (UInt64.lt_iff_toNat_lt.mp hlt))).symm
  · exact (max_eq_left (UInt64.le_iff_toNat_le.mp (UInt64.not_lt.mp hlt))).symm

theorem foldl_record_count (ts : List UInt64) :
    (ts.foldl IrqLine.record l).count = l.count + UInt64.ofNat ts.length := by
  induction ts generalizing l with
  | nil => exact (UInt64.add_zero _).symm
  | cons t ts ih =>
    rw [List.foldl_cons, ih, record_count, List.length_cons, UInt64.ofNat_add, UInt64.add_assoc,
      UInt64.add_comm 1]
    rfl

theorem foldl_record_lastTick (ts : List UInt64) (t : UInt64) :
    ((ts ++ [t]).foldl IrqLine.record l).lastTick = t := by
  rw [List.foldl_append]
  exact record_lastTick t

/-- The counter is at 0 exactly after a multiple of 2^64 occurrences. -/
theorem foldl_record_count_eq_zero (hl : l.Fresh) (ts : List UInt64) :
    (ts.foldl IrqLine.record l).count = 0 ↔ 2 ^ 64 ∣ ts.length := by
  rw [foldl_record_count, hl.1, UInt64.zero_add, ← UInt64.toNat_inj, UInt64.toNat_ofNat']
  exact (Nat.dvd_iff_mod_eq_zero).symm

theorem foldl_record_concat (ts : List UInt64) (t : UInt64) :
    (ts ++ [t]).foldl IrqLine.record l = (ts.foldl IrqLine.record l).record t := by
  rw [List.foldl_append]
  rfl

theorem lastRestart_succ {n : Nat} :
    lastRestart (n + 1) = if 2 ^ 64 ∣ n then n else lastRestart n := by
  unfold lastRestart
  split_ifs with hdvd
  · rw [Nat.add_sub_cancel, Nat.mul_div_cancel' hdvd]
  · congr 1
    omega

theorem lastRestart_le (n : Nat) : lastRestart n ≤ n - 1 :=
  Nat.mul_div_le _ _

theorem foldl_record_firstTick (hl : l.Fresh) (ts : List UInt64) (hts : ts ≠ []) :
    (ts.foldl IrqLine.record l).firstTick = ts.getD (lastRestart ts.length) 0 := by
  induction ts using List.reverseRecOn with
  | nil => exact absurd rfl hts
  | append_singleton ts t ih =>
    have hzero := foldl_record_count_eq_zero hl ts
    rw [foldl_record_concat, List.length_append, List.length_singleton, lastRestart_succ]
    unfold IrqLine.record
    split_ifs with hcount hdvd hdvd
    · rw [List.getD_append_right _ _ _ _ (le_refl _), Nat.sub_self]
      rfl
    · exact absurd (hzero.mp hcount) hdvd
    · exact absurd (hzero.mpr hdvd) hcount
    · have hne : ts ≠ [] := by
        rintro rfl
        exact hdvd (dvd_zero _)
      have hlen : lastRestart ts.length < ts.length := by
        have hle := lastRestart_le ts.length
        have hpos := List.length_pos_iff.mpr hne
        omega
      rw [List.getD_append _ _ _ _ hlen]
      exact ih hne

/-- No gap is lost if the clock stands still at every restart of the counter. -/
theorem foldl_record_maxDelta (hl : l.Fresh) (ts : List UInt64) (hsort : ts.Pairwise (· ≤ ·))
    (hflat : ∀ k, 0 < k → 2 ^ 64 * k < ts.length →
      ts.getD (2 ^ 64 * k) 0 = ts.getD (2 ^ 64 * k - 1) 0) :
    (ts.foldl IrqLine.record l).maxDelta.toNat = maxGap ts := by
  induction ts using List.reverseRecOn with
  | nil =>
    rw [List.foldl_nil, hl.2]
    rfl
  | append_singleton ts t ih =>
    have hsort' := List.pairwise_append.mp hsort
    have hold := ih hsort'.1 fun k hk hlt => by
      have hk' := hflat k hk (by rw [List.length_append]; omega)
      rwa [List.getD_append _ _ _ _ hlt, List.getD_append _ _ _ _ (by omega)] at hk'
    have hzero := foldl_record_count_eq_zero hl ts
    rw [foldl_record_concat]
    rcases List.eq_nil_or_concat' ts with rfl | ⟨us, last, rfl⟩
    · rw [List.foldl_nil, record_maxDelta_restart hl.1, hl.2]
      rfl
    · rw [List.append_assoc]
      show _ = maxGap (us ++ [last, t])
      rw [maxGap_concat, ← hold]
      have hle : last ≤ t := hsort'.2.2 last (by simp) t (by simp)
      have hlast := @foldl_record_lastTick l us last
      by_cases hcount : ((us ++ [last]).foldl IrqLine.record l).count = 0
      · -- a restart: `t` is the time of the occurrence before it, so there is no gap
        obtain ⟨k, hk⟩ := hzero.mp hcount
        rw [List.length_append, List.length_singleton] at hk
        have hsame := hflat k (by omega) (by rw [List.length_append, List.length_append,
          List.length_singleton, List.length_singleton]; omega)
        rw [← hk, List.getD_append_right _ _ _ _ (by simp), List.getD_append _ _ _ _ (by simp),
          List.getD_append_right _ _ _ _ (by simp)] at hsame
        have heq : t = last := by simpa using hsame
        rw [record_maxDelta_restart hcount, heq, Nat.sub_self, Nat.max_zero]
      · rw [record_maxDelta hcount, hlast, UInt64.toNat_sub_of_le _ _ hle]

end Fold

/-! ## When the figures are exact -/

theorem getD_mono {ts : List UInt64} (hsort : ts.Pairwise (· ≤ ·)) {i j : Nat} (hij : i ≤ j)
    (hj : j < ts.length) : ts.getD i 0 ≤ ts.getD j 0 := by
  rw [List.getD_eq_getElem _ _ hj, List.getD_eq_getElem _ _ (by omega)]
  rcases hij.eq_or_lt with rfl | hlt
  · exact UInt64.le_refl _
  · exact List.pairwise_iff_getElem.mp hsort i j _ _ hlt

/-- Times do not decrease, so what happened at one time has no gaps. -/
theorem RestartsUnseen.flat {ts : List UInt64} (hu : RestartsUnseen ts)
    (hsort : ts.Pairwise (· ≤ ·))
    (k : Nat) (hk : 0 < k) (hlt : 2 ^ 64 * k < ts.length) :
    ts.getD (2 ^ 64 * k) 0 = ts.getD (2 ^ 64 * k - 1) 0 := by
  have hrestart : 2 ^ 64 * k ≤ lastRestart ts.length := by
    unfold lastRestart
    exact Nat.mul_le_mul_left _ ((Nat.le_div_iff_mul_le (by omega)).mpr (by omega))
  have hend : lastRestart ts.length < ts.length := by
    have hle := lastRestart_le ts.length
    omega
  have hhead : ts.headD 0 = ts.getD 0 0 := by
    cases ts <;> rfl
  unfold RestartsUnseen at hu
  rw [hhead] at hu
  have hfrom := getD_mono hsort (Nat.zero_le (2 ^ 64 * k - 1)) (by omega)
  have hupto := getD_mono hsort hrestart hend
  rw [hu] at hupto
  exact UInt64.le_antisymm (UInt64.le_trans hupto hfrom) (getD_mono hsort (Nat.sub_le _ 1) hlt)

/-- The figures of a line are exact if and only if no restart of its counter shows in the times. -/
theorem figuresExact_iff {l : IrqLine} (hl : l.Fresh) {ts : List UInt64}
    (hsort : ts.Pairwise (· ≤ ·)) :
    FiguresExact ts (ts.foldl IrqLine.record l).count (ts.foldl IrqLine.record l).firstTick
        (ts.foldl IrqLine.record l).lastTick (ts.foldl IrqLine.record l).maxDelta ↔
      RestartsUnseen ts := by
  have hfirst := foldl_record_firstTick hl ts
  constructor
  · intro hexact
    unfold RestartsUnseen
    cases ts with
    | nil => rfl
    | cons t ts =>
      rw [← hfirst (List.cons_ne_nil _ _)]
      exact hexact.first t rfl
  · intro hunseen
    refine ⟨?_, ?_, ?_, foldl_record_maxDelta hl ts hsort (hunseen.flat hsort)⟩
    · rw [foldl_record_count, hl.1, UInt64.zero_add]
    · intro t ht
      cases ts with
      | nil => cases ht
      | cons t' ts =>
        cases ht
        rw [hfirst (List.cons_ne_nil _ _)]
        exact hunseen
    · intro t ht
      rcases List.eq_nil_or_concat' ts with rfl | ⟨us, last, rfl⟩
      · cases ht
      · rw [List.getLast?_concat] at ht
        rw [foldl_record_lastTick us last]
        exact Option.some.inj ht

/-- Up to 2^64 occurrences the counter has not restarted. -/
theorem restartsUnseen_of_length_le {ts : List UInt64} (hlen : ts.length ≤ 2 ^ 64) :
    RestartsUnseen ts := by
  have hzero : lastRestart ts.length = 0 := by
    unfold lastRestart
    rw [Nat.div_eq_of_lt (by omega), Nat.mul_zero]
  unfold RestartsUnseen
  rw [hzero]
  cases ts <;> rfl

end Ccos
