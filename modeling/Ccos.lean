import Ccos.Reasoning.Run
import Ccos.Reasoning.LinkedSegment
import Ccos.Kernel.Types
import Ccos.Kernel.RunQueue
import Ccos.Kernel.Console
import Ccos.Kernel.Thread
import Ccos.Kernel.Trap
import Ccos.Kernel.System
import Ccos.RunQueue.Links
import Ccos.RunQueue.Repr
import Ccos.Kernel.Effects
import Ccos.Kernel.Syscalls
import Ccos.Kernel.Action
import Ccos.Kernel.Uart
import Ccos.Kernel.Acts
import Ccos.Kernel.Frame
import Ccos.Kernel.Trace
import Ccos.Sched.Boot
import Ccos.Sched.Basic
import Ccos.Sched.Death
import Ccos.Sched.Invariant
import Ccos.Sched.Wakeup
import Ccos.Sched.Ops
import Ccos.Sched.Consistent
import Ccos.Sched.Reuse
import Ccos.Sched.RoundRobin
import Ccos.Sched.WorkConserving
import Ccos.Join.Table
import Ccos.RunQueue.Refine
import Ccos.Kernel.Memory
import Ccos.Kernel.Clock
import Ccos.Kernel.Backtrace
import Ccos.Reasoning.Ring
import Ccos.Log.Ring
import Ccos.Join.Effect
import Ccos.Reasoning.Overwrite
import Ccos.Printf.Stdio
import Ccos.Printf.Truncation
import Ccos.Printf.Digits
import Ccos.Printf.RoundTrip
import Ccos.Printf.Log
import Ccos.Join.Joiners
import Ccos.Join.Exact
import Ccos.Join.Free
import Ccos.Join.Report
import Ccos.Sched.Bystander
import Ccos.Console.Devices
import Ccos.Console.Reader
import Ccos.Console.Ring
import Ccos.Console.Read
import Ccos.Console.Waiter
import Ccos.Console.Fifo
import Ccos.Sched.Sleep
import Ccos.Sched.Idle
import Ccos.Sched.Metrics
import Ccos.Sched.Placement
import Ccos.Arch.Riscv
import Ccos.Arch.Context
import Ccos.Platform.Plic
import Ccos.Platform.IrqRecord
import Ccos.Platform.IrqStats
import Ccos.Reasoning.Overlap
import Ccos.User.Memmove
import Ccos.Reasoning.Blocks
import Ccos.User.Datetime
import Ccos.Printf.Decimal
import Ccos.Printf.LogFormat
import Ccos.Printf.LogField
import Ccos.Log.Record
import Ccos.User.Gets
import Ccos.User.Shell
import Ccos.User.Kill
import Ccos.User.Monitor
import Ccos.User.MonitorThreads
import Ccos.Sched.Progress
import Ccos.Reasoning.Simulation
import Ccos.Smp.Frames
import Ccos.Smp.Harts
import Ccos.Smp.Lock
import Ccos.Smp.Boot
import Ccos.Kernel.Writes
import Ccos.Sched.Context
import Ccos.Sched.Footprint
import Ccos.Fdt.Safe
import Ccos.Fdt.Path
import Ccos.Fdt.Flatten
import Ccos.Platform.DeviceTree
