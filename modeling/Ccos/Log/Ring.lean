import Mathlib.Tactic
import Ccos.Reasoning.Ring

/-!
# The log ring of `lib/log.c`

`LOG_RING_BUFFER_SIZE` is a build setting; it is the parameter `cap` here.  Only the next write
position and the number of used bytes are stored, and the position of the oldest byte is computed
from them.  The ring is an overwrite-oldest queue: `LogOp.spec` is that queue, and the ring does the
same for every sequence of operations.
-/

namespace Ccos

open Reasoning

/-- `s_ring_buf`, `s_ring_head` (next write) and `s_ring_size` (used bytes). -/
structure LogRing where
  buf : Nat → UInt8 := fun _ => 0
  head : Nat := 0
  size : Nat := 0

variable (cap : Nat)

/-- The index that `ring_write` uses for its `i`-th byte. -/
def LogRing.writeIndex (r : LogRing) (i : Nat) : Nat := (r.head + i) % cap

/-- `tail` of `ring_peek_internal`: the oldest byte. -/
def LogRing.tail (r : LogRing) : Nat := (r.head + cap - r.size) % cap

/-- The index that `ring_peek_internal` uses for its `i`-th byte. -/
def LogRing.readIndex (r : LogRing) (i : Nat) : Nat := (r.tail cap + i) % cap

/-- The `for` of `ring_write`, from its `i`-th byte on. -/
def ringWriteLoop (r : LogRing) : Nat → List UInt8 → (Nat → UInt8) → Nat → UInt8
  | _, [], buf => buf
  | i, c :: cs, buf =>
    ringWriteLoop r (i + 1) cs fun k => if k = r.writeIndex cap i then c else buf k

def ringWrite (r : LogRing) (data : List UInt8) : LogRing :=
  if data.length = 0 then r
  else
    let data := if cap < data.length then data.drop (data.length - cap) else data
    { buf := ringWriteLoop cap r 0 data r.buf
      head := (r.head + data.length) % cap
      size := if cap ≤ r.size + data.length then cap else r.size + data.length }

def logRingSize (r : LogRing) : Nat := r.size

def logRingClear (r : LogRing) : LogRing := { r with size := 0 }

/-- The bytes `ring_peek_internal` copies to `out`; their number is its return value. -/
def ringPeekInternal (r : LogRing) (maxlen : Nat) : List UInt8 :=
  if r.size = 0 ∨ maxlen = 0 then []
  else
    let toRead := if r.size < maxlen then r.size else maxlen
    (List.range toRead).map fun i => r.buf (r.readIndex cap i)

def logRingPeek (r : LogRing) (maxlen : Nat) : List UInt8 := ringPeekInternal cap r maxlen

def logRingRead (r : LogRing) (maxlen : Nat) : List UInt8 × LogRing :=
  let out := ringPeekInternal cap r maxlen
  (out, if 0 < out.length then { r with size := r.size - out.length } else r)

/-! ## Operations and the queue they implement -/

inductive LogOp
  | write (data : List UInt8)
  | peek (maxlen : Nat)
  | read (maxlen : Nat)
  | clear

/-- The bytes handed out and the ring afterwards. -/
def LogOp.run (r : LogRing) : LogOp → List UInt8 × LogRing
  | .write data => ([], ringWrite cap r data)
  | .peek maxlen => (logRingPeek cap r maxlen, r)
  | .read maxlen => logRingRead cap r maxlen
  | .clear => ([], logRingClear r)

/-- The queue that keeps the last `cap` bytes written and not yet consumed, oldest first. -/
def LogOp.spec (q : List UInt8) : LogOp → List UInt8 × List UInt8
  | .write data => ([], (q ++ data).drop ((q ++ data).length - cap))
  | .peek maxlen => (q.take maxlen, q)
  | .read maxlen => (q.take maxlen, q.drop maxlen)
  | .clear => ([], [])

/-- The outputs of a sequence of operations, in order, and the ring at its end. -/
def runLog (r : LogRing) : List LogOp → List (List UInt8) × LogRing
  | [] => ([], r)
  | op :: ops =>
    let (out, r) := op.run cap r
    let (outs, r) := runLog r ops
    (out :: outs, r)

def specLog (q : List UInt8) : List LogOp → List (List UInt8) × List UInt8
  | [] => ([], q)
  | op :: ops =>
    let (out, q) := op.spec cap q
    let (outs, q) := specLog q ops
    (out :: outs, q)

/-! ## One operation -/

/-- The ring holds the queue `q`. -/
structure LogRepr (r : LogRing) (q : List UInt8) : Prop where
  head : r.head < cap
  size : r.size ≤ cap
  queue : Ring.slice cap r.buf (r.head + cap - r.size) r.size = q

variable {cap} {r : LogRing} {q : List UInt8}

theorem LogRepr.length (hr : LogRepr cap r q) : q.length = r.size := by
  rw [← hr.queue, Ring.length_slice]

/-- Every index of a write and of a read is inside the array. -/
theorem LogRing.index_lt (hcap : 0 < cap) (r : LogRing) (i : Nat) :
    r.writeIndex cap i < cap ∧ r.readIndex cap i < cap :=
  ⟨Nat.mod_lt _ hcap, Nat.mod_lt _ hcap⟩

theorem ringWriteLoop_eq (r : LogRing) (i : Nat) (data : List UInt8) (buf : Nat → UInt8) :
    ringWriteLoop cap r i data buf = Ring.store cap (r.head + i) data buf := by
  induction data generalizing i buf with
  | nil => rfl
  | cons c cs ih =>
    rw [ringWriteLoop, ih]
    rfl

/-- The bytes a peek hands out are the oldest ones. -/
theorem LogRepr.peek (hr : LogRepr cap r q) (maxlen : Nat) :
    ringPeekInternal cap r maxlen = q.take maxlen := by
  have hq := hr.queue
  unfold ringPeekInternal
  split
  · rename_i h0
    rcases h0 with h0 | h0
    · have hnil : q = [] := by
        apply List.eq_nil_of_length_eq_zero
        rw [hr.length, h0]
      rw [hnil, List.take_nil]
    · rw [h0, List.take_zero]
  · have hmin : (if r.size < maxlen then r.size else maxlen) = min maxlen r.size := by
      split <;> omega
    have hstart : Ring.slice cap r.buf (r.tail cap) (min maxlen r.size) =
        Ring.slice cap r.buf (r.head + cap - r.size) (min maxlen r.size) :=
      Ring.slice_congr_start _ _ (Nat.mod_mod _ _)
    rw [← hq, Ring.take_slice, ← hstart]
    dsimp only
    rw [hmin]
    rfl

theorem LogRepr.read (hr : LogRepr cap r q) (maxlen : Nat) :
    (logRingRead cap r maxlen).1 = q.take maxlen ∧
      LogRepr cap (logRingRead cap r maxlen).2 (q.drop maxlen) := by
  have hpeek := hr.peek maxlen
  have hlen := hr.length
  have hsize := hr.size
  have hhead := hr.head
  unfold logRingRead
  dsimp only
  rw [hpeek, List.length_take]
  refine ⟨rfl, ?_⟩
  split
  · -- the oldest bytes go: the start moves up, the head stays
    refine ⟨hhead, by show r.size - _ ≤ cap; omega, ?_⟩
    by_cases hle : maxlen ≤ r.size
    · have hmin : min maxlen q.length = maxlen := by omega
      have hstart : r.head + cap - (r.size - maxlen) = r.head + cap - r.size + maxlen := by omega
      rw [hmin]
      show Ring.slice cap r.buf (r.head + cap - (r.size - maxlen)) (r.size - maxlen) = _
      rw [hstart, ← Ring.drop_slice _ _ _ _ hle, hr.queue]
    · have hmin : min maxlen q.length = r.size := by omega
      rw [hmin, List.drop_of_length_le (by omega)]
      show Ring.slice cap r.buf (r.head + cap - (r.size - r.size)) (r.size - r.size) = []
      rw [Nat.sub_self, Ring.slice_zero]
  · rename_i h0
    have hdrop : q.drop maxlen = q := by
      by_cases hz : maxlen = 0
      · rw [hz, List.drop_zero]
      · have hnil : q = [] := List.eq_nil_of_length_eq_zero (by omega)
        rw [hnil, List.drop_nil]
    rw [hdrop]
    exact hr

/-- A block that fits is stored after the youngest bytes, and as many of the old ones as there is
room for stay. -/
theorem LogRepr.store (hr : LogRepr cap r q) {data : List UInt8} (hfit : data.length ≤ cap) :
    Ring.slice cap (ringWriteLoop cap r 0 data r.buf)
        (r.head + cap - (min (r.size + data.length) cap - data.length))
        (min (r.size + data.length) cap) =
      (q ++ data).drop ((q ++ data).length - cap) := by
  have hlen := hr.length
  have hsize := hr.size
  have hhead := hr.head
  obtain ⟨k, hk⟩ : ∃ k, k = min (r.size + data.length) cap - data.length := ⟨_, rfl⟩
  have htotal : min (r.size + data.length) cap = k + data.length := by omega
  have hks : k ≤ r.size := by omega
  rw [ringWriteLoop_eq, Nat.add_zero, ← hk, htotal, Ring.slice_append]
  -- the kept cells lie before the head, the block at the head
  have hold : Ring.slice cap (Ring.store cap r.head data r.buf) (r.head + cap - k) k =
      q.drop (r.size - k) := by
    rw [Ring.slice_store_other]
    · have hstart : r.head + cap - k = r.head + cap - r.size + (r.size - k) := by omega
      have hcount : k = r.size - (r.size - k) := by omega
      rw [← hr.queue, Ring.drop_slice _ _ _ _ (by omega), ← hstart, ← hcount]
    · intro i hi j hj heq
      have hoff : r.head + cap - k + i = r.head + (cap - k + i) := by omega
      rw [hoff] at heq
      have := Ring.offset_inj (by omega) (by omega) heq
      omega
  have hnew : Ring.slice cap (Ring.store cap r.head data r.buf) (r.head + cap - k + k)
      data.length = data := by
    have hstart : (r.head + cap - k + k) % cap = r.head % cap := by
      have hsum : r.head + cap - k + k = r.head + cap := by omega
      rw [hsum, Nat.add_mod_right]
    rw [Ring.slice_congr_start _ _ hstart]
    exact Ring.slice_store_self data r.head r.buf hfit
  rw [hold, hnew, List.length_append]
  have hdrop : q.length + data.length - cap = r.size - k := by omega
  rw [hdrop, List.drop_append_of_le_length (by omega)]

/-- A write that is longer than the ring is the write of its last `cap` bytes. -/
theorem drop_long_write (q data : List UInt8) (h : cap < data.length) :
    (q ++ data).drop ((q ++ data).length - cap) =
      (q ++ data.drop (data.length - cap)).drop
        ((q ++ data.drop (data.length - cap)).length - cap) := by
  have hleft : (q ++ data).length - cap = q.length + (data.length - cap) := by
    rw [List.length_append]
    omega
  have hright : (q ++ data.drop (data.length - cap)).length - cap = q.length := by
    rw [List.length_append, List.length_drop]
    omega
  rw [hleft, hright, List.drop_left, List.drop_append, Nat.add_sub_cancel_left]
  rw [List.drop_of_length_le (by omega : q.length ≤ q.length + (data.length - cap))]
  rfl

theorem LogRepr.write (hcap : 0 < cap) (hr : LogRepr cap r q) (data : List UInt8) :
    LogRepr cap (ringWrite cap r data) ((q ++ data).drop ((q ++ data).length - cap)) := by
  have hlen := hr.length
  have hsize := hr.size
  have hhead := hr.head
  unfold ringWrite
  split
  · rename_i h0
    have hnil : data = [] := List.eq_nil_of_length_eq_zero h0
    have hzero : q.length - cap = 0 := by omega
    rw [hnil, List.append_nil, hzero, List.drop_zero]
    exact hr
  · -- after the front of an oversize write is cut off, the block fits
    have hblock : ∀ block : List UInt8, block.length ≤ cap →
        LogRepr cap
          { buf := ringWriteLoop cap r 0 block r.buf
            head := (r.head + block.length) % cap
            size := if cap ≤ r.size + block.length then cap else r.size + block.length }
          ((q ++ block).drop ((q ++ block).length - cap)) := by
      intro block hfit
      have hmin : (if cap ≤ r.size + block.length then cap else r.size + block.length) =
          min (r.size + block.length) cap := by
        split <;> omega
      rw [hmin]
      refine ⟨Nat.mod_lt _ hcap, by show min _ _ ≤ cap; omega, ?_⟩
      rw [← hr.store hfit]
      apply Ring.slice_congr_start
      -- both starts are `head + block - size'` modulo the capacity
      have hk : r.head + cap - (min (r.size + block.length) cap - block.length) =
          r.head + block.length + (cap - min (r.size + block.length) cap) := by omega
      have hrot : (r.head + block.length) % cap + cap - min (r.size + block.length) cap =
          (r.head + block.length) % cap + (cap - min (r.size + block.length) cap) := by omega
      show ((r.head + block.length) % cap + cap - min (r.size + block.length) cap) % cap = _
      rw [hk, hrot, Nat.mod_add_mod]
    dsimp only
    by_cases hlong : cap < data.length
    · rw [if_pos hlong, drop_long_write q data hlong]
      apply hblock
      rw [List.length_drop]
      omega
    · rw [if_neg hlong]
      exact hblock data (by omega)

/-- The step lemma: an operation on the ring is the operation on the queue. -/
theorem LogRepr.step (hcap : 0 < cap) (hr : LogRepr cap r q) (op : LogOp) :
    (op.run cap r).1 = (op.spec cap q).1 ∧ LogRepr cap (op.run cap r).2 (op.spec cap q).2 := by
  cases op with
  | write data => exact ⟨rfl, hr.write hcap data⟩
  | peek maxlen => exact ⟨hr.peek maxlen, hr⟩
  | read maxlen => exact hr.read maxlen
  | clear =>
    refine ⟨rfl, hr.head, Nat.zero_le cap, ?_⟩
    rfl

/-! ## Every sequence -/

theorem LogRepr.runLog (hcap : 0 < cap) (hr : LogRepr cap r q) (ops : List LogOp) :
    (runLog cap r ops).1 = (specLog cap q ops).1 ∧
      LogRepr cap (Ccos.runLog cap r ops).2 (specLog cap q ops).2 := by
  induction ops generalizing r q with
  | nil => exact ⟨rfl, hr⟩
  | cons op ops ih =>
    obtain ⟨hout, hr'⟩ := hr.step hcap op
    obtain ⟨houts, hend⟩ := ih hr'
    exact ⟨congrArg₂ List.cons hout houts, hend⟩

/-- The empty queue is in any ring whose size is 0. -/
theorem logRepr_init (hcap : 0 < cap) : LogRepr cap {} [] :=
  ⟨hcap, Nat.zero_le cap, rfl⟩

/-- For every capacity and every sequence of operations from the initial ring, the bytes handed out
are those of the queue, the ring holds the queue and no more than its capacity, and the next
operation indexes inside the array. -/
theorem log_ring_is_queue (cap : Nat) (hcap : 0 < cap) (ops : List LogOp) :
    (runLog cap {} ops).1 = (specLog cap [] ops).1 ∧
    LogRepr cap (runLog cap {} ops).2 (specLog cap [] ops).2 ∧
    logRingSize (runLog cap {} ops).2 = (specLog cap [] ops).2.length ∧
    logRingSize (runLog cap {} ops).2 ≤ cap ∧
    ∀ i, (runLog cap {} ops).2.writeIndex cap i < cap ∧
      (runLog cap {} ops).2.readIndex cap i < cap := by
  obtain ⟨houts, hr⟩ := (logRepr_init hcap).runLog hcap ops
  exact ⟨houts, hr, hr.length.symm, hr.size, LogRing.index_lt hcap _⟩

/-- A ring of four bytes: six are written, one is read, two more overwrite the oldest. -/
theorem log_ring_is_queue_example :
    0 < 4 ∧ (runLog 4 {} [.write [1, 2, 3, 4, 5, 6], .read 1, .write [7, 8], .peek 9]).1 =
      [[], [3], [], [5, 6, 7, 8]] := by
  refine ⟨by decide, ?_⟩
  rw [(log_ring_is_queue 4 (by decide) _).1]
  decide

end Ccos
