import Mathlib.Tactic
import Ccos.Kernel.Memory

/-!
# The backtrace of a trap dump

`dump_backtrace_from_tf` (`kernel/trap.c`) follows saved frame pointers through memory that may hold
anything.  Two checks keep it in bounds: a window around the trapped `sp`, whose ends are computed
in `uintptr_t`, and the order of the frame pointers.
-/

namespace Ccos

/-! ## The code -/

inductive BacktraceLine
  | noFramePointer
  | header (pc ra : UInt64)
  | frame (depth : Nat) (ra : UInt64)
  deriving DecidableEq

def BacktraceLine.isFrame : BacktraceLine → Bool
  | .frame _ _ => true
  | _ => false

/-- What the walker did: the words it read, the frame pointers it moved to and the lines it
printed. -/
structure Backtrace where
  reads : List UInt64 := []
  fps : List UInt64 := []
  lines : List BacktraceLine := []

def maxStackScan : UInt64 := 16 * 1024

/-- `MAX_DEPTH` -/
def maxDepth : Nat := 16

/-- The `for` of `dump_backtrace_from_tf` with `n` turns left, so at depth `MAX_DEPTH - n`. -/
def backtraceLoop (m : Mem) (stackLo stackHi : UInt64) : Nat → UInt64 → Backtrace
  | 0, _ => {}
  | n + 1, fp =>
    if fp < stackLo + 2 * 8 ∨ stackHi < fp then {}
    else
      let savedRa := loadWord m (fp - 8)
      let prevFp := loadWord m (fp - 16)
      if savedRa = 0 ∨ prevFp = 0 then { reads := [fp - 8, fp - 16] }
      else if prevFp ≤ fp then { reads := [fp - 8, fp - 16] }
      else
        let rest := backtraceLoop m stackLo stackHi n prevFp
        { reads := (fp - 8) :: (fp - 16) :: rest.reads
          fps := prevFp :: rest.fps
          lines := .frame (maxDepth - (n + 1)) savedRa :: rest.lines }

def dumpBacktraceFromTf (tf : Trapframe) (m : Mem) : Backtrace :=
  if tf.s0 = 0 then { lines := [.noFramePointer] }
  else
    let approxSp := tf.sp
    let stackLo := approxSp - maxStackScan
    let stackHi := approxSp + maxStackScan
    let stackLo := if approxSp < stackLo then 0 else stackLo
    let walk := backtraceLoop m stackLo stackHi (maxDepth - 1) tf.s0
    { walk with lines := .header tf.sepc tf.ra :: walk.lines }

/-! ## The window -/

/-- The word at `a` lies between `lo` and `hi`. -/
def InWindow (lo hi : Nat) (a : UInt64) : Prop :=
  lo ≤ a.toNat ∧ a.toNat + 8 ≤ hi

/-- The lower end does not wrap: below 16 KiB the wrapped difference is larger than `sp`. -/
theorem stackLo_toNat (sp : UInt64) :
    (if sp < sp - maxStackScan then 0 else sp - maxStackScan).toNat = sp.toNat - 16384 := by
  have hscan : maxStackScan.toNat = 16384 := rfl
  have hlt := sp.toNat_lt
  have hsub : (sp - maxStackScan).toNat = (2 ^ 64 - 16384 + sp.toNat) % 2 ^ 64 := by
    rw [UInt64.toNat_sub, hscan]
  split
  · rename_i hwrap
    rw [UInt64.lt_iff_toNat_lt, hsub] at hwrap
    show 0 = sp.toNat - 16384
    omega
  · rename_i hwrap
    rw [UInt64.lt_iff_toNat_lt, hsub] at hwrap
    rw [hsub]
    omega

/-- The upper end may wrap, but only downwards. -/
theorem stackHi_toNat_le (sp : UInt64) : (sp + maxStackScan).toNat ≤ sp.toNat + 16384 := by
  rw [UInt64.toNat_add]
  exact Nat.mod_le _ _

/-- A frame pointer that passes the check has both of its words in the window. -/
theorem frame_inWindow {sp fp lo : UInt64} (hlo : lo.toNat = sp.toNat - 16384)
    (hfp : ¬ (fp < lo + 2 * 8 ∨ sp + maxStackScan < fp)) :
    InWindow (sp.toNat - 16384) (sp.toNat + 16384) (fp - 8) ∧
      InWindow (sp.toNat - 16384) (sp.toNat + 16384) (fp - 16) := by
  have hsp := sp.toNat_lt
  have hlt := fp.toNat_lt
  have hhi := stackHi_toNat_le sp
  have hbase : (lo + 2 * 8).toNat = lo.toNat + 16 := by
    have hstep : (lo + 2 * 8).toNat = (lo.toNat + 16) % 2 ^ 64 := UInt64.toNat_add _ _
    rw [hstep, hlo]
    omega
  rw [UInt64.lt_iff_toNat_lt, UInt64.lt_iff_toNat_lt, hbase] at hfp
  have h8 : (fp - 8).toNat = fp.toNat - 8 := by
    have hsub : (fp - 8).toNat = (2 ^ 64 - 8 + fp.toNat) % 2 ^ 64 := UInt64.toNat_sub _ _
    rw [hsub]
    omega
  have h16 : (fp - 16).toNat = fp.toNat - 16 := by
    have hsub : (fp - 16).toNat = (2 ^ 64 - 16 + fp.toNat) % 2 ^ 64 := UInt64.toNat_sub _ _
    rw [hsub]
    omega
  unfold InWindow
  rw [h8, h16]
  omega

/-! ## The loop -/

section Loop

variable (m : Mem) (lo hi : UInt64)

theorem backtraceLoop_length (n : Nat) (fp : UInt64) :
    (backtraceLoop m lo hi n fp).fps.length ≤ n ∧ (backtraceLoop m lo hi n fp).lines.length ≤ n ∧
      (backtraceLoop m lo hi n fp).reads.length ≤ 2 * n := by
  induction n generalizing fp with
  | zero => exact ⟨le_refl _, le_refl _, le_refl _⟩
  | succ n ih =>
    unfold backtraceLoop
    dsimp only
    split_ifs
    · exact ⟨Nat.zero_le _, Nat.zero_le _, Nat.zero_le _⟩
    · exact ⟨Nat.zero_le _, Nat.zero_le _, by show 2 ≤ _; omega⟩
    · exact ⟨Nat.zero_le _, Nat.zero_le _, by show 2 ≤ _; omega⟩
    · have hrest := ih (loadWord m (fp - 16))
      simp only [List.length_cons]
      omega

/-- Every frame pointer is above the one it was read from. -/
theorem backtraceLoop_increasing (n : Nat) (fp : UInt64) :
    (fp :: (backtraceLoop m lo hi n fp).fps).IsChain (· < ·) := by
  induction n generalizing fp with
  | zero => exact List.isChain_singleton fp
  | succ n ih =>
    unfold backtraceLoop
    dsimp only
    split_ifs with hout hnull hdown
    · exact List.isChain_singleton fp
    · exact List.isChain_singleton fp
    · exact List.isChain_singleton fp
    · rw [List.isChain_cons_cons]
      exact ⟨UInt64.not_le.mp hdown, ih _⟩

theorem backtraceLoop_reads {sp : UInt64} (hlo : lo.toNat = sp.toNat - 16384) (n : Nat)
    (fp : UInt64) :
    ∀ a ∈ (backtraceLoop m lo (sp + maxStackScan) n fp).reads,
      InWindow (sp.toNat - 16384) (sp.toNat + 16384) a := by
  induction n generalizing fp with
  | zero => exact fun a ha => nomatch ha
  | succ n ih =>
    unfold backtraceLoop
    dsimp only
    split_ifs with hout hnull hdown
    · exact fun a ha => nomatch ha
    · have hin := frame_inWindow hlo hout
      simpa using hin
    · have hin := frame_inWindow hlo hout
      simpa using hin
    · have hin := frame_inWindow hlo hout
      intro a ha
      rw [List.mem_cons, List.mem_cons] at ha
      rcases ha with rfl | rfl | ha
      · exact hin.1
      · exact hin.2
      · exact ih _ a ha

end Loop

/-- For every trapped `sp` and `s0` and every memory: at most 15 frames are followed and printed,
every word read lies within 16 KiB of `sp` (no wrap-around), and the frame pointers increase. -/
theorem backtrace_stays_in_window (tf : Trapframe) (m : Mem) :
    (dumpBacktraceFromTf tf m).fps.length ≤ 15 ∧
      ((dumpBacktraceFromTf tf m).lines.filter BacktraceLine.isFrame).length ≤ 15 ∧
      (∀ a ∈ (dumpBacktraceFromTf tf m).reads,
        InWindow (tf.sp.toNat - 16384) (tf.sp.toNat + 16384) a) ∧
      (tf.s0 :: (dumpBacktraceFromTf tf m).fps).IsChain (· < ·) := by
  unfold dumpBacktraceFromTf
  split_ifs with hnull
  · refine ⟨Nat.zero_le _, ?_, List.forall_mem_nil _, List.isChain_singleton _⟩
    show 0 ≤ 15
    omega
  · dsimp only
    have hlen := backtraceLoop_length m
      (if tf.sp < tf.sp - maxStackScan then 0 else tf.sp - maxStackScan)
        (tf.sp + maxStackScan) 15 tf.s0
    refine ⟨hlen.1, ?_, ?_, backtraceLoop_increasing m _ _ _ _⟩
    · rw [List.filter_cons_of_neg Bool.false_ne_true]
      exact (List.length_filter_le _ _).trans hlen.2.1
    · exact backtraceLoop_reads m _ (stackLo_toNat tf.sp) _ _

end Ccos
