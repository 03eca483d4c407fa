import Rtx.Coldfire.Scheduler
import Rtx.Coldfire.TimeoutQueue

/-!
# The kernel primitives

`k_primitives.c`, over the whole kernel state. A primitive that calls `k_process_switch` stops
there: its outcome says which state the caller goes to and where it will resume, and
`Outcome.finish` makes the switch. So the loops of `k_receive_message` and `k_request_msg_env`
are cut at the switch, and run again from their test when the process is resumed.

A primitive without an outcome dereferences a null pointer, reads or writes outside an array, or
does not return.
-/

namespace Rtx.Coldfire

variable {n : ℕ} {α : Type}

/-- The variables of `uart_i_process.c`, the interrupt mask register it writes, and `pong_mode`.
`transmitted` is a ghost: what the transmit branch wrote to `SERIAL1_WD`, newest first. -/
structure Uart where
  inputIndex : ℤ
  outputIndex : ℕ
  outputPrintChar : Bool
  inBuffer : ℤ → UInt8
  outBuffer : Body
  imr : UInt8
  pongMode : Bool
  transmitted : List UInt8

/-- The state of the kernel. -/
structure Kernel (n : ℕ) where
  sched : Sched n
  ipc : Ipc n
  uart : Uart

/-- How the code of a primitive ends: it returns, or it calls `k_process_switch`. -/
inductive Outcome (n : ℕ) (α : Type)
  | ret (value : α) (s : Kernel n)
  | switch (transitionTo : ProcessState) (resumeAt : Context) (s : Kernel n)

namespace Outcome

/-- Forget the value. -/
def map {β : Type} (f : α → β) : Outcome n α → Outcome n β
  | .ret a s => .ret (f a) s
  | .switch t c s => .switch t c s

/-- The value and the state of a primitive that returned. -/
def returned : Outcome n α → Option (α × Kernel n)
  | .ret a s => some (a, s)
  | .switch .. => none

end Outcome

namespace Kernel

/-- Record (in the ghost log) an event. -/
def emit (s : Kernel n) (ev : Event n) : Kernel n := { s with ipc := s.ipc.emit ev }

/-! ## 5.1 Interprocess communication -/

/-- `k_send_message`. -/
def kSendMessage (s : Kernel n) (destPid : ℤ) (msgEnv : Option EnvPtr) :
    Option (ℤ × Kernel n) :=
  match msgEnv with
  | none => some (errorNullArg, s)
  | some env =>
    if (s.ipc.env env).msg.isNone then some (errorNullArg, s)
    else
      match s.sched.kGetProcess destPid with
      | none => some (errorIllegalArg, s)
      | some destPcb =>
        match s.sched.currentProcess with
        | none => none
        | some cur => do
          let letter : Letter := { (s.ipc.env env).toLetter with
            sendPid := (s.sched.pTable cur).pid
            destPid := destPid }
          let ipc ← (s.ipc.setLetter env letter).enqueue (.recvMsgs destPcb) env
          let ipc := (ipc.addOwned destPcb 1).addOwned cur (-1)
          let sched ← s.sched.wakeReceiver destPcb
          let ipc := { ipc with sendTraceBuf := logMsgEvent ipc.sendTraceBuf letter ipc.clock }
          return (codeSuccess, { s with
            sched := sched
            ipc := ipc.emit (.sent cur destPcb env letter) })

/-- `k_receive_message`. -/
def kReceiveMessage (s : Kernel n) : Option (Outcome n (Option EnvPtr)) :=
  match s.sched.currentProcess with
  | none => none
  | some cur =>
    if s.ipc.isEmpty (.recvMsgs cur) then
      if (s.sched.pTable cur).isIProcess then some (.ret none s)
      else some (.switch .blockedOnReceive .receiveMessage s)
    else
      match s.ipc.dequeue (.recvMsgs cur) with
      | (none, _) => none
      | (some env, ipc) =>
        let letter := (ipc.env env).toLetter
        let ipc := { ipc with recvTraceBuf := logMsgEvent ipc.recvTraceBuf letter ipc.clock }
        some (.ret (some env) { s with ipc := ipc.emit (.received cur env letter) })

/-! ## 5.2 Storage management -/

/-- `current_process->env_owned++; return msg_env_queue_dequeue(queue)`. -/
def takeEnv (s : Kernel n) (cur : Fin n) (queue : QueuePtr n) : Option EnvPtr × Kernel n :=
  match (s.ipc.addOwned cur 1).dequeue queue with
  | (none, ipc) => (none, { s with ipc := ipc })
  | (some env, ipc) => (some env, { s with ipc := ipc.emit (.requested cur env) })

/-- The while loop of `k_request_msg_env` and what follows it. -/
def kRequestMsgEnvLoop (s : Kernel n) : Option (Outcome n (Option EnvPtr)) :=
  match s.sched.currentProcess with
  | none => none
  | some cur =>
    if s.ipc.isEmpty .freeEnvQ then
      (s.sched.enqueue .blockedRequestEnvPq cur).map fun sched =>
        .switch .blockedOnEnvRequest .requestMsgEnv { s with sched := sched }
    else
      let (env, s) := s.takeEnv cur .freeEnvQ
      some (.ret env s)

/-- `k_request_msg_env`. -/
def kRequestMsgEnv (s : Kernel n) : Option (Outcome n (Option EnvPtr)) :=
  match s.sched.currentProcess with
  | none => none
  | some cur =>
    if s.ipc.isEmpty .freeEnvQ then
      if (s.sched.pTable cur).isIProcess ∧ s.ipc.isEmpty .sysFreeEnvQ = false then
        let (env, s) := s.takeEnv cur .sysFreeEnvQ
        some (.ret env s)
      else if (s.sched.pTable cur).isIProcess then some (.ret none s)
      else s.kRequestMsgEnvLoop
    else
      let (env, s) := s.takeEnv cur .freeEnvQ
      some (.ret env s)

/-- `k_release_msg_env`. -/
def kReleaseMsgEnv (s : Kernel n) (msgEnv : Option EnvPtr) : Option (ℤ × Kernel n) :=
  match msgEnv with
  | none => some (errorNullArg, s)
  | some env =>
    if (s.ipc.env env).msg.isNone then some (errorNullArg, s)
    else do
      let s ←
        if kIsMsgEnvSysEnv env then
          (s.ipc.enqueue .sysFreeEnvQ env).map fun ipc => { s with ipc := ipc }
        else do
          let ipc ← s.ipc.enqueue .freeEnvQ env
          s.sched.wakeRequester.map fun sched => { s with ipc := ipc, sched := sched }
      let cur ← s.sched.currentProcess
      return (codeSuccess, { s with ipc := (s.ipc.addOwned cur (-1)).emit (.released cur env) })

/-! ## 5.3 Processor management -/

/-- `k_release_processor`. -/
def kReleaseProcessor (s : Kernel n) : Option (Outcome n ℤ) := do
  let cur ← s.sched.currentProcess
  let sched ← s.sched.yield cur
  return .switch .ready .releaseProcessor { s with sched := sched }

/-- The number `enum process_state` gives a state. -/
def stateCode : ProcessState → ℤ
  | .ready => 0
  | .executing => 1
  | .blockedOnEnvRequest => 2
  | .blockedOnReceive => 3
  | .interrupted => 4

/-- `k_request_process_status`. The loop writes `1 + 3 * num_processes` words. -/
def kRequestProcessStatus (s : Kernel n) (msgEnv : Option EnvPtr) : Option (ℤ × Kernel n) :=
  match msgEnv with
  | none => some (errorNullArg, s)
  | some env =>
    match (s.ipc.env env).msg with
    | none => some (errorNullArg, s)
    | some body =>
      if 4 * (1 + 3 * n) ≤ ipcMsgEnvMsgSize then do
        let body ← (List.finRange n).foldlM (fun (data : Body) pid => do
          let process ← s.sched.kGetProcess (s.sched.pTable pid).pid
          let pcb := s.sched.pTable process
          let off := 4 * (1 + 3 * (pid : ℕ))
          return putInt (putInt (putInt data off pcb.pid) (off + 4) (stateCode pcb.state)) (off + 8)
            pcb.priority) (putInt body 0 n)
        return (codeSuccess, { s with
          ipc := s.ipc.setLetter env { (s.ipc.env env).toLetter with msg := some body } })
      else none

/-- `k_change_priority`. -/
def kChangePriority (s : Kernel n) (newPriority targetProcessId : ℤ) :
    Option (ℤ × Kernel n) :=
  (s.sched.kChangePriority newPriority targetProcessId).map fun r =>
    (r.1, { s with sched := r.2 })

/-! ## 5.4 Timing services -/

/-- `k_request_delay`. -/
def kRequestDelay (s : Kernel n) (timeDelay wakeupCode : ℤ) (msgEnv : Option EnvPtr) :
    Option (ℤ × Kernel n) :=
  match msgEnv with
  | none => none -- `msg_env->msg_type` through null
  | some env =>
    match (s.ipc.env env).msg with
    | none => none -- `*delay_data` through null
    | some body =>
      let letter : Letter := { (s.ipc.env env).toLetter with
        msgType := wakeupCode
        msg := some (putInt body 0 timeDelay) }
      { s with ipc := s.ipc.setLetter env letter }.kSendMessage timerIProcessPid (some env)

/-! ## 5.5 System console I/O -/

/-- `SERIAL1_IMR = v`. -/
def setImr (s : Kernel n) (v : UInt8) : Kernel n := { s with uart := { s.uart with imr := v } }

/-- `k_send_console_chars`. -/
def kSendConsoleChars (s : Kernel n) (msgEnv : Option EnvPtr) (requestAck : Bool) :
    Option (ℤ × Kernel n) :=
  match msgEnv with
  | none => some (errorNullArg, s)
  | some env => do
    let letter : Letter := { (s.ipc.env env).toLetter with
      msgType := if requestAck then consoleOutputRequestAck else consoleOutput }
    let (ret, s) ←
      { s with ipc := s.ipc.setLetter env letter }.kSendMessage uartIProcessPid (some env)
    return (ret, s.setImr 3)

/-! ## 5.6 Interprocess message trace -/

/-- Write the four words of a trace entry. -/
def putTrace (data : Body) (off : ℕ) (trace : IpcTrace) : Body :=
  putInt (putInt (putInt (putInt data off trace.destPid) (off + 4) trace.sendPid) (off + 8)
    trace.msgType) (off + 12) trace.timeStamp

/-- `sizeof(ipc_trace_t)`. -/
def sizeofIpcTrace : ℕ := 16

/-- `k_get_trace_buffers`. -/
def kGetTraceBuffers (s : Kernel n) (msgEnv : Option EnvPtr) : Option (ℤ × Kernel n) :=
  match msgEnv with
  | none => some (errorNullArg, s)
  | some env =>
    match (s.ipc.env env).msg with
    | none => some (errorNullArg, s)
    | some body => do
      let sendHead ← findTraceBufHead s.ipc.sendTraceBuf
      let recvHead ← findTraceBufHead s.ipc.recvTraceBuf
      let recvDump := ipcMessageTraceHistorySize * sizeofIpcTrace
      let body := (List.range ipcMessageTraceHistorySize).foldl (fun (data : Body) i =>
        let data := putTrace data (i * sizeofIpcTrace)
          (s.ipc.sendTraceBuf.buf (circleIndex (sendHead + i)))
        putTrace data (recvDump + i * sizeofIpcTrace)
          (s.ipc.recvTraceBuf.buf (circleIndex (recvHead + i)))) body
      return (codeSuccess, { s with
        ipc := s.ipc.setLetter env { (s.ipc.env env).toLetter with msg := some body } })

end Kernel

end Rtx.Coldfire
