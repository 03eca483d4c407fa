import Rtx.Coldfire.Scheduler
import Rtx.Unix.ProcQueue

/-!
# The scheduler of the Unix port

`k_process.c`, `k_scheduler.c`, `k_i_process_enter` and `k_i_process_exit`, and the scheduling half
of the primitives. The process table, the two priority queues and the process pointers are those of
the ColdFire port, and so is `k_process_switch`; what differs is that pids are indices, that the
queues assert, and that an i-process runs by a switch of the statuses too. There is no result where
an assertion fails or a null pointer is read through.
-/

namespace Rtx.Unix

open Coldfire (ProcessState Context ProcInfo Pcb PcbInit PqPtr Sched procPqCreate codeSuccess
  errorIllegalArg)

variable {n : ℕ}

def numPriorities : ℕ := 3
def nullPriority : ℕ := 1
def processNullPid : ℤ := 3

/-- `&p_table[pid]`, for a pid of the table. -/
def pcbOf (n : ℕ) (pid : ℤ) : Option (Fin n) :=
  if h : 0 ≤ pid ∧ pid < n then some ⟨pid.toNat, by omega⟩ else none

/-- `proc_pq_enqueue(pq, pcb)`, with its return code. -/
def enqueueOn (S : Sched n) (pq : PqPtr) (pcb : Fin n) : Option (ℤ × Sched n) :=
  (procPqEnqueue S.pTable (S.pq pq) pcb).map fun r =>
    (r.1, { S with pTable := r.2.1, pq := Function.update S.pq pq r.2.2 })

/-! ## Wake-ups -/

/-- The wake-up in `k_send_message`. -/
def wakeReceiver (S : Sched n) (destPcb : Fin n) : Option (Sched n) :=
  if (S.pTable destPcb).state = .blockedOnReceive then
    (enqueueOn ((S.setState destPcb .ready).becameReady destPcb) .readyPq destPcb).map (·.2)
  else some S

/-- The wake-up in `k_release_msg_env`, which asserts that the process could be queued. -/
def wakeRequester (S : Sched n) : Option (Sched n) :=
  match S.dequeue .blockedRequestEnvPq with
  | (none, S) => some S
  | (some blockedProcess, S) => do
    let (code, S) ←
      enqueueOn ((S.setState blockedProcess .ready).becameReady blockedProcess) .readyPq
        blockedProcess
    if code = codeSuccess then return S else none

/-! ## The primitives -/

/-- The body of `k_release_processor`, up to the switch. -/
def yield (S : Sched n) (cur : Fin n) : Option (Sched n) :=
  (enqueueOn (S.becameReady cur) .readyPq cur).map (·.2)

/-- The loop of `k_request_msg_env`, up to the switch. -/
def waitForEnv (S : Sched n) (cur : Fin n) : Option (Sched n) :=
  (enqueueOn S .blockedRequestEnvPq cur).map (·.2)

/-- `k_change_priority`. -/
def kChangePriority (S : Sched n) (newPriority targetProcessId : ℤ) : Option (ℤ × Sched n) :=
  if newPriority < 0 ∨ newPriority ≥ numPriorities then some (errorIllegalArg, S)
  else
    match pcbOf n targetProcessId with
    | none => some (errorIllegalArg, S)
    | some pcb =>
      if (S.pTable pcb).isIProcess ∨ (S.pTable pcb).pid = processNullPid then
        some (errorIllegalArg, S)
      else if (S.pTable pcb).priority = newPriority then some (codeSuccess, S)
      else
        match (S.pTable pcb).state with
        | .ready => do
          let S ← S.remove .readyPq pcb
          let (_, S) ← enqueueOn (S.setPriority pcb newPriority) .readyPq pcb
          return (codeSuccess, S)
        | .blockedOnEnvRequest => do
          let S ← S.remove .blockedRequestEnvPq pcb
          let (_, S) ← enqueueOn (S.setPriority pcb newPriority) .blockedRequestEnvPq pcb
          return (codeSuccess, S)
        | _ => some (codeSuccess, S.setPriority pcb newPriority)

/-! ## I-processes -/

/-- `k_i_process_enter`, once its assertions about the argument hold. -/
def kIProcessEnter (S : Sched n) (iProcess : Fin n) : Option (Sched n) :=
  match S.currentProcess with
  | none => none
  | some p =>
    let S := { S with interruptedProcess := some p }.setState p .interrupted
    some ({ S with currentProcess := some iProcess }.setState iProcess .executing)

/-- `k_i_process_exit`. -/
def kIProcessExit (S : Sched n) : Option (Sched n) :=
  match S.currentProcess, S.interruptedProcess with
  | some iProcess, some p =>
    let S := S.setState iProcess .ready
    some ({ S with currentProcess := some p, interruptedProcess := none }.setState p .executing)
  | _, _ => none

/-! ## Boot -/

/-- One turn of the loop of `k_process_init`. -/
def initPcb (initTable : Fin n → PcbInit) (S : Sched n) (i : Fin n) : Option (Sched n) :=
  let cfg := initTable i
  let pcb : Pcb n := {
    next := none
    pid := cfg.pid
    priority := cfg.priority
    state := .ready
    context := .user
    isIProcess := cfg.isIProcess }
  let S := { S with pTable := Function.update S.pTable i pcb }
  if cfg.isIProcess then some S
  else do
    let (code, S) ← enqueueOn (S.becameReady i) .readyPq i
    if code = codeSuccess then return S else none

/-- `k_process_init` on a process table whose contents do not matter, with the `env_blocked_pq` of
`k_storage_init`. -/
def kProcessInit (memory : Fin n → Pcb n) (initTable : Fin n → PcbInit) : Option (Sched n) :=
  (List.finRange n).foldlM (initPcb initTable)
    { pTable := memory
      pq := fun
        | .readyPq => procPqCreate (numPriorities + nullPriority)
        | .blockedRequestEnvPq => procPqCreate numPriorities
      currentProcess := none
      interruptedProcess := none
      readyLog := [] }

/-- `k_enter_scheduler`. -/
def kEnterScheduler (S : Sched n) : Option (Sched n) :=
  match S.dequeue .readyPq with
  | (none, _) => none -- `first_pcb->status` through null
  | (some p, S) => some ({ S with currentProcess := some p }.setState p .executing)

end Rtx.Unix
