import Mathlib.Tactic
import Ccos.Kernel.Types

/-!
# The receive ring of `console.c`

One slot of the array stays free, so `head = tail` means empty and the ring holds at most
`CONSOLE_RBUF_SIZE - 1` characters.
-/

namespace Ccos

def consoleRbufSize : Nat := 1024

def RxRing.isEmpty (r : RxRing) : Bool :=
  r.head == r.tail

def RxRing.isFull (r : RxRing) : Bool :=
  (r.head + 1) % consoleRbufSize == r.tail

/-- `g_rx_buf[g_rx_head] = ch; g_rx_head = (g_rx_head + 1) % CONSOLE_RBUF_SIZE`, dropped when
full. -/
def RxRing.put (r : RxRing) (ch : UInt8) : RxRing :=
  if r.isFull then r
  else
    { r with
      buf := fun i => if i = r.head then ch else r.buf i
      head := (r.head + 1) % consoleRbufSize }

/-- The loop of `console_read_nonblock` with `len - n` bytes left to ask for; returns the count. -/
def consoleReadLoop (buf : UInt64) : Nat → Nat → Mem → RxRing → Nat × Mem × RxRing
  | 0, n, m, r => (n, m, r)
  | k + 1, n, m, r =>
    if r.isEmpty then (n, m, r)
    else
      consoleReadLoop buf k (n + 1)
        (fun a => if a = buf + UInt64.ofNat n then r.buf r.tail else m a)
        { r with tail := (r.tail + 1) % consoleRbufSize }

/-- `console_read_nonblock`: the number of bytes stored at `buf` and the kernel afterwards. -/
def consoleReadNonblock (s : Kernel) (buf : UInt64) (len : UInt64) : Nat × Kernel :=
  let (n, m, r) := consoleReadLoop buf len.toNat 0 s.mem s.rx
  (n, { s with mem := m, rx := r })

end Ccos
