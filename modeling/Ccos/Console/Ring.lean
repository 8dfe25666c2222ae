import Mathlib.Tactic
import Ccos.Reasoning.Ring
import Ccos.Kernel.Console
import Ccos.Kernel.Memory

/-!
# The receive ring as a queue

`unread` lists the characters between `g_rx_tail` and `g_rx_head`.  `console_read_nonblock` takes a
prefix of it and stores that prefix at the buffer; a received character goes to its end, or is
dropped when 1023 characters are unread.
-/

namespace Ccos

open Reasoning

/-- Both indices are inside the array. -/
def RxRing.WF (r : RxRing) : Prop :=
  r.head < consoleRbufSize ∧ r.tail < consoleRbufSize

def RxRing.count (r : RxRing) : Nat :=
  (r.head + consoleRbufSize - r.tail) % consoleRbufSize

def RxRing.unread (r : RxRing) : List UInt8 :=
  Ring.slice consoleRbufSize r.buf r.tail r.count

variable {r : RxRing}

@[simp] theorem RxRing.length_unread (r : RxRing) : r.unread.length = r.count :=
  Ring.length_slice _ _ _

theorem RxRing.count_lt (r : RxRing) : r.count < consoleRbufSize :=
  Nat.mod_lt _ (by decide)

theorem RxRing.isEmpty_iff (hr : r.WF) : r.isEmpty = true ↔ r.count = 0 := by
  obtain ⟨h1, h2⟩ := hr
  unfold RxRing.isEmpty RxRing.count
  unfold consoleRbufSize at *
  rw [beq_iff_eq]
  omega

theorem RxRing.isEmpty_iff_unread (hr : r.WF) : r.isEmpty = true ↔ r.unread = [] := by
  rw [r.isEmpty_iff hr, ← r.length_unread, List.length_eq_zero_iff]

theorem RxRing.isFull_iff (hr : r.WF) : r.isFull = true ↔ r.count = 1023 := by
  obtain ⟨h1, h2⟩ := hr
  unfold RxRing.isFull RxRing.count
  unfold consoleRbufSize at *
  rw [beq_iff_eq]
  omega

theorem RxRing.put_wf (hr : r.WF) (ch : UInt8) : (r.put ch).WF := by
  unfold RxRing.put
  split
  · exact hr
  · exact ⟨Nat.mod_lt _ (by decide), hr.2⟩

/-- A received character goes to the end, unless 1023 are unread. -/
theorem RxRing.put_unread (hr : r.WF) (ch : UInt8) :
    (r.put ch).unread = if r.unread.length = 1023 then r.unread else r.unread ++ [ch] := by
  have hlen := r.length_unread
  by_cases hfull : r.isFull = true
  · have hcount := (r.isFull_iff hr).mp hfull
    unfold RxRing.put
    rw [if_pos hfull, hlen, hcount, if_pos rfl]
  · have hcount : r.count ≠ 1023 := fun hc => hfull ((r.isFull_iff hr).mpr hc)
    have hlt := r.count_lt
    obtain ⟨h1, h2⟩ := hr
    have hput : r.put ch =
        { r with
          buf := Ring.store consoleRbufSize r.head [ch] r.buf
          head := (r.head + 1) % consoleRbufSize } := by
      unfold RxRing.put
      rw [if_neg hfull]
      congr 1
      funext i
      show _ = if i = r.head % consoleRbufSize then ch else r.buf i
      rw [Nat.mod_eq_of_lt h1]
    have hnew : ({ r with buf := Ring.store consoleRbufSize r.head [ch] r.buf
                          head := (r.head + 1) % consoleRbufSize } : RxRing).count =
                            r.count + 1 := by
      unfold RxRing.count
      unfold consoleRbufSize at *
      simp only
      unfold RxRing.count consoleRbufSize at hcount
      omega
    rw [hput, hlen, if_neg hcount]
    show Ring.slice consoleRbufSize (Ring.store consoleRbufSize r.head [ch] r.buf) r.tail
      (RxRing.count _) = _
    rw [hnew, Ring.slice_append]
    -- the new cell is behind the old ones
    have hend : (r.tail + r.count) % consoleRbufSize = r.head % consoleRbufSize := by
      unfold RxRing.count
      unfold consoleRbufSize at *
      omega
    congr 1
    · refine Ring.slice_store_other [ch] r.head r.buf ?_
      intro i hi j hj heq
      have hj0 : j = 0 := by simpa using hj
      subst hj0
      rw [Nat.add_zero, ← hend] at heq
      have := Ring.offset_inj (by omega) hlt heq
      omega
    · rw [Ring.slice_congr_start _ 1 hend]
      exact Ring.slice_store_self [ch] r.head r.buf (Nat.succ_le_of_lt (by decide))

/-- The ring without its first character. -/
theorem RxRing.unread_cons (hr : r.WF) (hne : r.isEmpty ≠ true) :
    ({ r with tail := (r.tail + 1) % consoleRbufSize } : RxRing).WF ∧
      r.unread = r.buf r.tail ::
        ({ r with tail := (r.tail + 1) % consoleRbufSize } : RxRing).unread := by
  have hcount : r.count ≠ 0 := fun h0 => hne ((r.isEmpty_iff hr).mpr h0)
  obtain ⟨h1, h2⟩ := hr
  refine ⟨⟨h1, Nat.mod_lt _ (by decide)⟩, ?_⟩
  have hnew : r.count = ({ r with tail := (r.tail + 1) % consoleRbufSize } : RxRing).count + 1 := by
    unfold RxRing.count at *
    unfold consoleRbufSize at *
    simp only
    omega
  unfold RxRing.unread
  rw [hnew, Ring.slice_succ, Nat.mod_eq_of_lt h2]
  congr 1
  refine Ring.slice_congr_start _ _ ?_
  exact (Nat.mod_mod _ _).symm

/-- Storing a block one byte at a time. -/
theorem storeBytes_cons (m : Mem) (p : UInt64) (b : UInt8) (bs : List UInt8)
    (hlen : bs.length < 2 ^ 64) :
    storeBytes (fun a => if a = p then b else m a) (p + 1) bs = storeBytes m p (b :: bs) := by
  funext a
  unfold storeBytes
  have hsub : (a - p).toNat = (2 ^ 64 - p.toNat + a.toNat) % 2 ^ 64 := UInt64.toNat_sub a p
  have hsub' : (a - (p + 1)).toNat = (2 ^ 64 - (p.toNat + 1) % 2 ^ 64 + a.toNat) % 2 ^ 64 := by
    rw [UInt64.toNat_sub, UInt64.toNat_add]
    rfl
  have hpa := p.toNat_lt
  have haa := a.toNat_lt
  dsimp only
  by_cases ha : a = p
  · -- the first byte is not written again: the block does not come round
    subst ha
    have hback : ¬ (a - (a + 1)).toNat < bs.length := by omega
    have hself : (a - a).toNat = 0 := by omega
    rw [if_neg hback, if_pos rfl, hself, List.length_cons, if_pos (Nat.succ_pos _),
      List.getD_cons_zero]
  · have hne : a.toNat ≠ p.toNat := fun heq => ha (UInt64.toNat_inj.mp heq)
    have hoff : (a - p).toNat = (a - (p + 1)).toNat + 1 := by omega
    rw [hoff, if_neg ha, List.getD_cons_succ, List.length_cons]
    by_cases hin : (a - (p + 1)).toNat < bs.length
    · rw [if_pos hin, if_pos (by omega)]
    · rw [if_neg hin, if_neg (by omega)]

/-- `console_read_nonblock` takes the oldest characters out and stores them in order. -/
theorem consoleReadLoop_eq (buf : UInt64) (k n : Nat) (m : Mem) (hr : r.WF) :
    (consoleReadLoop buf k n m r).1 = n + min k r.unread.length ∧
    (consoleReadLoop buf k n m r).2.1 = storeBytes m (buf + UInt64.ofNat n) (r.unread.take k) ∧
    (consoleReadLoop buf k n m r).2.2.WF ∧
    (consoleReadLoop buf k n m r).2.2.unread = r.unread.drop k := by
  -- induction on the bytes left to ask for, as the loop counts them down
  induction k generalizing n m r with
  | zero =>
    refine ⟨by simp [consoleReadLoop], ?_, hr, by simp [consoleReadLoop]⟩
    funext a
    simp [consoleReadLoop, storeBytes]
  | succ k ih =>
    rw [consoleReadLoop]
    by_cases hempty : r.isEmpty = true
    · have hnil := (r.isEmpty_iff_unread hr).mp hempty
      rw [if_pos hempty, hnil]
      refine ⟨by simp, ?_, hr, by simp⟩
      funext a
      simp [storeBytes]
    · rw [if_neg hempty]
      obtain ⟨hwf, hcons⟩ := r.unread_cons hr hempty
      obtain ⟨h1, h2, h3, h4⟩ := ih (n + 1)
        (fun a => if a = buf + UInt64.ofNat n then r.buf r.tail else m a) hwf
      rw [h1, h2, h4, hcons]
      refine ⟨?_, ?_, h3, rfl⟩
      · rw [List.length_cons]
        omega
      · have hnext : buf + UInt64.ofNat (n + 1) = buf + UInt64.ofNat n + 1 := by
          rw [UInt64.ofNat_add, ← UInt64.add_assoc]
          rfl
        rw [hnext, storeBytes_cons, List.take_succ_cons]
        have hlt := (RxRing.count_lt { r with tail := (r.tail + 1) % consoleRbufSize })
        rw [List.length_take, RxRing.length_unread]
        unfold consoleRbufSize at *
        omega

end Ccos
