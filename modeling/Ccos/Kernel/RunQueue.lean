import Mathlib.Tactic
import Ccos.Kernel.Types

/-!
# `runqueue.c`

Per-hart FIFO queues, singly linked through `rq_next`.
-/

namespace Ccos

namespace RunQueues

@[simps]
def setNext (r : RunQueues) (t n : Int) : RunQueues :=
  { r with rqNext := fun u => if u = t then n else r.rqNext u }

@[simps]
def setOnRq (r : RunQueues) (t : Int) (b : Bool) : RunQueues :=
  { r with onRq := fun u => if u = t then b else r.onRq u }

@[simps]
def modQueue (r : RunQueues) (h : Nat) (f : RunQueue → RunQueue) : RunQueues :=
  { r with queues := fun k => if k = h then f (r.queues k) else r.queues k }

/-- The hand-written `on_rq = 0; rq_next = -1` of `thread.c`. -/
def unlink (r : RunQueues) (t : Int) : RunQueues :=
  (r.setOnRq t false).setNext t (-1)

end RunQueues

variable (cfg : Config)

def rqInit (r : RunQueues) (hartid : Nat) : RunQueues :=
  if cfg.maxHarts ≤ hartid then r
  else r.modQueue hartid fun _ => { head := -1, tail := -1, len := 0 }

def rqInitAll (r : RunQueues) : RunQueues :=
  (List.range cfg.maxHarts).foldl (rqInit cfg) r

def rqPushTail (r : RunQueues) (hartid : Nat) (tid : Int) : Except Halt RunQueues :=
  if cfg.maxHarts ≤ hartid then .ok r
  else if tid < 0 ∨ (cfg.threadMax : Int) ≤ tid then .ok r
  -- idle threads are never queued
  else if tid < cfg.maxHarts then .ok r
  else if r.onRq tid then .error (.panic "rq_push_tail: already on rq")
  else
    let tail := (r.queues hartid).tail
    let r := r.setNext tid (-1)
    let r :=
      if tail = -1 then r.modQueue hartid fun q => { q with head := tid, tail := tid }
      else (r.setNext tail tid).modQueue hartid fun q => { q with tail := tid }
    .ok ((r.setOnRq tid true).modQueue hartid fun q => { q with len := q.len + 1 })

/-- The popped tid (`-1` when the queue is empty) and the queues afterwards. -/
def rqPopHead (r : RunQueues) (hartid : Nat) : Int × RunQueues :=
  if cfg.maxHarts ≤ hartid then (-1, r)
  else
    let tid := (r.queues hartid).head
    if tid < 0 then (-1, r)
    else
      let nxt := r.rqNext tid
      -- an emptied queue has no tail either
      let r := r.modQueue hartid fun q =>
        { head := nxt, tail := if nxt < 0 then -1 else q.tail, len := q.len - 1 }
      (tid, r.unlink tid)

def rqLen (r : RunQueues) (hartid : Nat) : Nat :=
  if cfg.maxHarts ≤ hartid then 0 else (r.queues hartid).len

/-- The `while (cur >= 0)` walk of `rq_remove`.  A walk that sees more than `THREAD_MAX` nodes is
on a cycle and never leaves it. -/
def rqRemoveLoop (hartid : Nat) (tid : Int) :
    Nat → RunQueues → Int → Int → Except Halt (Int × RunQueues)
  | 0, _, _, _ => .error .spin
  | fuel + 1, r, prev, cur =>
    if cur < 0 then .ok (-1, r)
    else if cur = tid then
      let nxt := r.rqNext cur
      -- what led to the node now leads past it
      let r :=
        if prev < 0 then r.modQueue hartid fun q => { q with head := nxt }
        else r.setNext prev nxt
      let r := r.modQueue hartid fun q =>
        { q with tail := if q.tail = cur then prev else q.tail, len := q.len - 1 }
      .ok (0, r.unlink cur)
    else rqRemoveLoop hartid tid fuel r cur (r.rqNext cur)

def rqRemove (r : RunQueues) (hartid : Nat) (tid : Int) : Except Halt (Int × RunQueues) :=
  if cfg.maxHarts ≤ hartid then .ok (-1, r)
  else if tid < 0 ∨ (cfg.threadMax : Int) ≤ tid then .ok (-1, r)
  else rqRemoveLoop hartid tid (cfg.threadMax + 1) r (-1) (r.queues hartid).head

/-- The `for` over the harts of `rq_remove_any`, from hart `h` on with `n` harts left. -/
def rqRemoveAnyLoop (tid : Int) : Nat → Nat → RunQueues → Except Halt (Int × RunQueues)
  | 0, _, r => .ok (-1, r)
  | n + 1, h, r => do
    let (ret, r') ← rqRemove cfg r h tid
    if ret = 0 then .ok (h, r') else rqRemoveAnyLoop tid n (h + 1) r'

def rqRemoveAny (r : RunQueues) (tid : Int) : Except Halt (Int × RunQueues) :=
  if tid < 0 ∨ (cfg.threadMax : Int) ≤ tid then .ok (-1, r)
  else rqRemoveAnyLoop cfg tid cfg.maxHarts 0 r

/-- The walk of `rq_snapshot` with room for `n` more entries. -/
def rqWalk (r : RunQueues) : Nat → Int → List Int
  | 0, _ => []
  | n + 1, cur => if cur < 0 then [] else cur :: rqWalk r n (r.rqNext cur)

/-- The return value of `rq_snapshot` and the entries it writes from `dst[0]` on, the `-1` sentinel
included when there is room for it. -/
def rqSnapshot (r : RunQueues) (hartid : Nat) (max : Nat) : Int × List Int :=
  if cfg.maxHarts ≤ hartid then (-1, [])
  else if max = 0 then (-1, [])
  else
    let tids := rqWalk r max (r.queues hartid).head
    (tids.length, if tids.length < max then tids ++ [-1] else tids)

end Ccos
