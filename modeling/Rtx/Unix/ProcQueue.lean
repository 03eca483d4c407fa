import Rtx.Coldfire.ProcQueue

/-!
# Process queues of the Unix port

`proc_queue.c` and `proc_pq.c`. They are the files of the ColdFire port, but for two assertions.
There is no result where one fails.
-/

namespace Rtx.Unix

open Coldfire (Pcb ProcQueue ProcPq codeSuccess errorIllegalArg)

variable {n : ℕ}

/-- `proc_queue_enqueue`, which asserts that the PCB is linked to nothing. -/
def procQueueEnqueue (mem : Fin n → Pcb n) (queue : ProcQueue n) (pcb : Fin n) :
    Option ((Fin n → Pcb n) × ProcQueue n) :=
  if (mem pcb).next ≠ none then none else Coldfire.procQueueEnqueue mem queue pcb

/-- `proc_pq_enqueue`, which asserts that the process is not an i-process. -/
def procPqEnqueue (mem : Fin n → Pcb n) (ppq : ProcPq n) (pcb : Fin n) :
    Option (ℤ × (Fin n → Pcb n) × ProcPq n) :=
  if (mem pcb).priority < 0 ∨ (mem pcb).priority ≥ ppq.numPriorities then
    some (errorIllegalArg, mem, ppq)
  else if (mem pcb).isIProcess then none
  else
    let level := (mem pcb).priority.toNat
    (procQueueEnqueue mem (ppq.priorityQueues level) pcb).map fun r =>
      (codeSuccess, r.1, ppq.setLevel level r.2)

end Rtx.Unix
