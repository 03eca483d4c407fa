import Mathlib.Data.List.FinRange
import Rtx.Coldfire.ProcQueue

/-!
# The scheduler

`k_process.c`, `k_scheduler.c`, `isr_handler.c`, and the scheduling half of the primitives of
`k_primitives.c`: everything the kernel does to the process table and to the two priority queues.
A function without a result dereferences a null pointer, or does not return.

`readyLog` is a ghost: the processes in the order they became ready, newest first. The code
never reads it.
-/

namespace Rtx.Coldfire

variable {n : ℕ}

/-- The two priority queues of the kernel. -/
inductive PqPtr
  | readyPq
  | blockedRequestEnvPq
  deriving DecidableEq

/-- The process table, the priority queues and the two process pointers. -/
structure Sched (n : ℕ) where
  pTable : Fin n → Pcb n
  pq : PqPtr → ProcPq n
  currentProcess : Option (Fin n)
  interruptedProcess : Option (Fin n)
  readyLog : List (Fin n)

namespace Sched

/-- `k_get_process`: the first process of the table with this pid. -/
def kGetProcess (S : Sched n) (pid : ℤ) : Option (Fin n) :=
  (List.finRange n).find? fun i => (S.pTable i).pid == pid

/-- The process whose code the machine runs or has interrupted. -/
def running (S : Sched n) : Option (Fin n) := S.interruptedProcess.or S.currentProcess

/-- Overwrite the scheduling fields of one PCB, its link apart. -/
def setInfo (S : Sched n) (p : Fin n) (info : ProcInfo) : Sched n :=
  { S with pTable := Function.update S.pTable p { S.pTable p with toProcInfo := info } }

/-- `pcb->state = state`. -/
def setState (S : Sched n) (p : Fin n) (state : ProcessState) : Sched n :=
  S.setInfo p { (S.pTable p).toProcInfo with state := state }

/-- Save where the process goes on. -/
def setContext (S : Sched n) (p : Fin n) (context : Context) : Sched n :=
  S.setInfo p { (S.pTable p).toProcInfo with context := context }

/-- `pcb->priority = priority`. -/
def setPriority (S : Sched n) (p : Fin n) (priority : ℤ) : Sched n :=
  S.setInfo p { (S.pTable p).toProcInfo with priority := priority }

/-- `proc_pq_enqueue(pq, pcb)`, its return code ignored as the kernel ignores it. -/
def enqueue (S : Sched n) (pq : PqPtr) (pcb : Fin n) : Option (Sched n) :=
  (procPqEnqueue S.pTable (S.pq pq) pcb).map fun r =>
    { S with pTable := r.2.1, pq := Function.update S.pq pq r.2.2 }

/-- `proc_pq_dequeue(pq)`. -/
def dequeue (S : Sched n) (pq : PqPtr) : Option (Fin n) × Sched n :=
  let (pcb, pTable, q) := procPqDequeue S.pTable (S.pq pq)
  (pcb, { S with pTable := pTable, pq := Function.update S.pq pq q })

/-- `proc_pq_remove(pq, pcb)`. -/
def remove (S : Sched n) (pq : PqPtr) (pcb : Fin n) : Option (Sched n) :=
  (procPqRemove S.pTable (S.pq pq) pcb).map fun r =>
    { S with pTable := r.2.1, pq := Function.update S.pq pq r.2.2 }

/-- Record (in the ghost log) that `p` became ready. -/
def becameReady (S : Sched n) (p : Fin n) : Sched n := { S with readyLog := p :: S.readyLog }

/-- The end of `k_process_switch`: the first ready process runs. The context of the old process
is saved last, so a process that switches to itself resumes where it stopped. -/
def dispatch (S : Sched n) (oldProc : Fin n) (resumeAt : Context) : Option (Sched n) :=
  match S.dequeue .readyPq with
  | (none, _) => none -- `current_process->state` through null
  | (some p, S) =>
    some (({ S with currentProcess := some p }.setState p .executing).setContext oldProc resumeAt)

/-- `k_process_switch`. -/
def kProcessSwitch (S : Sched n) (transitionTo : ProcessState) (resumeAt : Context) :
    Option (Sched n) :=
  match S.currentProcess with
  | none => none
  | some oldProc => (S.setState oldProc transitionTo).dispatch oldProc resumeAt

/-- The wake-up at the end of `k_send_message`. -/
def wakeReceiver (S : Sched n) (destPcb : Fin n) : Option (Sched n) :=
  if (S.pTable destPcb).state = .blockedOnReceive then
    ((S.setState destPcb .ready).becameReady destPcb).enqueue .readyPq destPcb
  else some S

/-- The wake-up in `k_release_msg_env`. -/
def wakeRequester (S : Sched n) : Option (Sched n) :=
  match S.dequeue .blockedRequestEnvPq with
  | (none, S) => some S
  | (some blockedProcess, S) =>
    ((S.setState blockedProcess .ready).becameReady blockedProcess).enqueue .readyPq blockedProcess

/-- The body of `k_release_processor`, up to the switch. -/
def yield (S : Sched n) (cur : Fin n) : Option (Sched n) :=
  (S.becameReady cur).enqueue .readyPq cur

/-- `k_change_priority`. -/
def kChangePriority (S : Sched n) (newPriority targetProcessId : ℤ) : Option (ℤ × Sched n) :=
  if newPriority < 0 ∨ newPriority ≥ numPriorities then some (errorIllegalArg, S)
  else
    match S.kGetProcess targetProcessId with
    | none => none -- `pcb->is_i_process` through null
    | some pcb =>
      if (S.pTable pcb).isIProcess ∨ (S.pTable pcb).pid < 0 ∨ (S.pTable pcb).pid = nullPid then
        some (errorIllegalArg, S)
      else if (S.pTable pcb).priority = newPriority then some (codeSuccess, S)
      else
        match (S.pTable pcb).state with
        | .ready => do
          let S ← S.remove .readyPq pcb
          let S ← (S.setPriority pcb newPriority).enqueue .readyPq pcb
          return (codeSuccess, S)
        | .blockedOnEnvRequest => do
          let S ← S.remove .blockedRequestEnvPq pcb
          let S ← (S.setPriority pcb newPriority).enqueue .blockedRequestEnvPq pcb
          return (codeSuccess, S)
        | _ => some (codeSuccess, S.setPriority pcb newPriority)

/-- The start of `isr_handler`: the i-process with this pid becomes the current process. -/
def enterIsr (S : Sched n) (pid : ℤ) : Sched n :=
  { S with interruptedProcess := S.currentProcess, currentProcess := S.kGetProcess pid }

/-- The end of `isr_handler`. -/
def exitIsr (S : Sched n) : Sched n :=
  { S with currentProcess := S.interruptedProcess, interruptedProcess := none }

/-! ## Boot -/

/-- One turn of the loop of `init_processes`. -/
def initProcess (table : Fin n → PcbInit) (S : Sched n) (processNum : Fin n) :
    Option (Sched n) :=
  let init := table processNum
  let process : Pcb n := {
    next := none
    pid := init.pid
    priority := init.priority
    state := .ready
    context := .user
    isIProcess := init.isIProcess }
  let S := { S with pTable := Function.update S.pTable processNum process }
  if init.isIProcess then some S
  else (S.becameReady processNum).enqueue .readyPq processNum

/-- The scheduling part of `k_init`: create the two priority queues and run `init_processes` on
freshly allocated memory, whose contents are unknown. -/
def initProcesses (memory : Fin n → Pcb n) (table : Fin n → PcbInit) : Option (Sched n) :=
  (List.finRange n).foldlM (initProcess table)
    { pTable := memory
      pq := fun
        | .readyPq => procPqCreate (numPriorities + additionalNullPriority)
        | .blockedRequestEnvPq => procPqCreate numPriorities
      currentProcess := none
      interruptedProcess := none
      readyLog := [] }

/-- The end of `k_init`: the first dispatch. -/
def firstDispatch (S : Sched n) : Option (Sched n) :=
  match S.dequeue .readyPq with
  | (none, _) => none
  | (some p, S) => some ({ S with currentProcess := some p }.setState p .executing)

end Sched

end Rtx.Coldfire
