import Rtx.Coldfire.IProcesses
import Rtx.Unix.Abc
import Rtx.Unix.Ipc
import Rtx.Unix.KeyboardBounds
import Rtx.Unix.Scheduler

/-!
# The kernel of the Unix port

The primitives behind `k_primitives.c`, over the whole kernel state. A primitive that calls
`k_process_switch` stops there: its outcome says which state the caller goes to and where it will
resume. So the loops of `k_receive_message` and `k_request_msg_env` are cut at the switch, and run
again from their test when the process is resumed.

A primitive without an outcome fails an assertion, dereferences a null pointer, writes outside an
array, or does not return.
-/

namespace Rtx.Unix

open Coldfire (Body Letter MsgEnv ProcessState Context Sched codeSuccess errorNullArg
  errorIllegalArg copyText)
open Coldfire.Kernel (stateCode)

variable {n : ℕ} {α : Type}

/-- The state of the kernel: the process table and its queues, the envelopes, the `flag` of
`k_signal_handler.c`, and the text in `crt_buf`. -/
structure Kernel (n : ℕ) where
  sched : Sched n
  ipc : Ipc n
  flag : Bool
  crtBuf : Body

/-- How the code of a primitive ends: it returns, or it calls `k_process_switch`. -/
inductive Outcome (n : ℕ) (α : Type)
  | ret (value : α) (s : Kernel n)
  | switch (nextStatus : ProcessState) (resumeAt : Context) (s : Kernel n)

namespace Outcome

/-- Forget the value. -/
def map {β : Type} (f : α → β) : Outcome n α → Outcome n β
  | .ret a s => .ret (f a) s
  | .switch t c s => .switch t c s

/-- The value and the state of a primitive that returned. -/
def returned : Outcome n α → Option (α × Kernel n)
  | .ret a s => some (a, s)
  | .switch .. => none

end Outcome

namespace Kernel

/-! ## 5.1 Interprocess communication -/

/-- `k_send_message`. -/
def kSendMessage (s : Kernel n) (destPid : ℤ) (msgEnv : Option EnvPtr) :
    Option (ℤ × Kernel n) :=
  match msgEnv with
  | none => some (errorNullArg, s)
  | some env =>
    match pcbOf n destPid with
    | none => some (errorIllegalArg, s)
    | some destPcb => do
      let cur ← s.sched.currentProcess
      let letter : Letter := { s.ipc.letter env with
        sendPid := (s.sched.pTable cur).pid
        destPid := destPid }
      let ipc ← (s.ipc.setLetter env letter).enqueue (.recvMsgs destPcb) env
      let sched ← wakeReceiver s.sched destPcb
      return (codeSuccess, { s with
        sched := sched
        ipc := (ipc.logSend env).emit (.sent cur destPcb env letter) })

/-- `k_receive_message`. -/
def kReceiveMessage (s : Kernel n) : Option (Outcome n (Option EnvPtr)) := do
  let cur ← s.sched.currentProcess
  let empty ← s.ipc.isEmpty (.recvMsgs cur)
  if empty ≠ 0 then
    if (s.sched.pTable cur).isIProcess then return .ret none s
    else return .switch .blockedOnReceive .receiveMessage s
  else
    match s.ipc.dequeue (.recvMsgs cur) with
    | (none, _) => none -- `msg_env->dest_pid` through null
    | (some env, ipc) =>
      return .ret (some env) { s with
        ipc := (ipc.logReceive env).emit (.received cur env (ipc.letter env)) }

/-! ## 5.2 Storage management -/

/-- `k_request_msg_env`. -/
def kRequestMsgEnv (s : Kernel n) : Option (Outcome n (Option EnvPtr)) := do
  let cur ← s.sched.currentProcess
  let empty ← s.ipc.isEmpty .freeEnvQ
  if empty ≠ 0 then
    if (s.sched.pTable cur).isIProcess then return .ret none s
    else
      let sched ← waitForEnv s.sched cur
      return .switch .blockedOnEnvRequest .requestMsgEnv { s with sched := sched }
  else
    match s.ipc.dequeue .freeEnvQ with
    | (none, ipc) => return .ret none { s with ipc := ipc }
    | (some env, ipc) => return .ret (some env) { s with ipc := ipc.emit (.requested cur env) }

/-- `k_release_msg_env`. -/
def kReleaseMsgEnv (s : Kernel n) (msgEnv : Option EnvPtr) : Option (ℤ × Kernel n) :=
  match msgEnv with
  | none => some (errorNullArg, s)
  | some env => do
    let cur ← s.sched.currentProcess
    let ipc ← s.ipc.enqueue .freeEnvQ env
    let sched ← wakeRequester s.sched
    return (codeSuccess, { s with sched := sched, ipc := ipc.emit (.released cur env) })

/-! ## 5.3 Processor management -/

/-- `k_release_processor`. -/
def kReleaseProcessor (s : Kernel n) : Option (Outcome n ℤ) := do
  let cur ← s.sched.currentProcess
  let sched ← yield s.sched cur
  return .switch .ready .releaseProcessor { s with sched := sched }

/-- The three words that `k_request_process_status` writes for a process. -/
def putStatus (data : Body) (s : Kernel n) (i : Fin n) : Body :=
  let pcb := s.sched.pTable i
  let off := 4 * (1 + 3 * (i : ℕ))
  putWord (putWord (putWord data off (UInt32.ofInt pcb.pid)) (off + 4)
    (UInt32.ofInt (stateCode pcb.state))) (off + 8) (UInt32.ofInt pcb.priority)

/-- `k_request_process_status`. It writes `1 + 3 * _num_processes` words. -/
def kRequestProcessStatus (s : Kernel n) (msgEnv : Option EnvPtr) : Option (ℤ × Kernel n) := do
  let env ← msgEnv
  let body ← (s.ipc.letter env).msg
  if 4 * (1 + 3 * n) ≤ msgEnvMsgSize then
    let body := (List.finRange n).foldl (fun data i => putStatus data s i)
      (putWord body 0 (UInt32.ofNat n))
    return (codeSuccess, { s with
      ipc := s.ipc.setLetter env { s.ipc.letter env with msg := some body } })
  else none

/-- `k_change_priority`. -/
def kChangePriority (s : Kernel n) (newPriority targetProcessId : ℤ) : Option (ℤ × Kernel n) :=
  (Unix.kChangePriority s.sched newPriority targetProcessId).map fun r =>
    (r.1, { s with sched := r.2 })

/-! ## 5.4 Timing services -/

/-- `k_request_delay`. -/
def kRequestDelay (s : Kernel n) (timeDelay wakeupCode : ℤ) (msgEnv : Option EnvPtr) :
    Option (ℤ × Kernel n) := do
  let env ← msgEnv
  let body ← (s.ipc.letter env).msg
  let letter : Letter := { s.ipc.letter env with
    msgType := wakeupCode
    msg := some (putInt body timeDelay) }
  { s with ipc := s.ipc.setLetter env letter }.kSendMessage timeoutIProcessPid (some env)

/-! ## 5.5 System console I/O -/

/-- `k_send_console_chars` and `k_get_console_chars`: a message of a type to an i-process. -/
def kConsole (s : Kernel n) (msgType iProcessPid : ℤ) (msgEnv : Option EnvPtr) :
    Option (ℤ × Kernel n) :=
  match msgEnv with
  | none => some (errorNullArg, s)
  | some env =>
    let letter : Letter := { s.ipc.letter env with msgType := msgType }
    { s with ipc := s.ipc.setLetter env letter }.kSendMessage iProcessPid (some env)

/-- `k_send_console_chars`. -/
def kSendConsoleChars (s : Kernel n) (msgEnv : Option EnvPtr) : Option (ℤ × Kernel n) :=
  s.kConsole consoleOutput crtIProcessPid msgEnv

/-- `k_get_console_chars`. -/
def kGetConsoleChars (s : Kernel n) (msgEnv : Option EnvPtr) : Option (ℤ × Kernel n) :=
  s.kConsole requestChar kbIProcessPid msgEnv

/-! ## 5.6 Interprocess message trace -/

/-- `k_get_trace_buffers`. -/
def kGetTraceBuffers (s : Kernel n) (msgEnv : Option EnvPtr) : Option (ℤ × Kernel n) := do
  let env ← msgEnv
  let body ← (s.ipc.letter env).msg
  let (code, body) ← Unix.kGetTraceBuffers s.ipc.sendTraceBuf s.ipc.recvTraceBuf body
  return (code, { s with
    ipc := s.ipc.setLetter env { s.ipc.letter env with msg := some body } })

/-! ## The timeout i-process -/

/-- `k_receive_message()` in an i-process. -/
def receiveNow (s : Kernel n) : Option (Option EnvPtr × Kernel n) :=
  s.kReceiveMessage.bind Outcome.returned

/-- `timeout_queue_insert(msg_env)`. -/
def insertTimeout (s : Kernel n) (msgEnv : EnvPtr) : Option (Kernel n) := do
  let cur ← s.sched.currentProcess
  let delay ← s.ipc.timeouts.timeoutOf msgEnv
  let T ← s.ipc.timeouts.timeoutQueueInsert Ipc.envFuel (some msgEnv)
  return { s with
    ipc := (s.ipc.setTimeouts T).emit (.delayed cur msgEnv delay s.ipc.clock) }

/-- The receive loop of `start_timeout_i_process`. With more fuel than there are envelopes it only
runs out on a cyclic mailbox, where the source loops for ever. -/
def drainRequests : ℕ → Option EnvPtr → Kernel n → Option (Kernel n)
  | 0, _, _ => none
  | _ + 1, none, s => some s
  | fuel + 1, some msgEnv, s => do
    let s ← s.insertTimeout msgEnv
    let (msgEnv, s) ← s.receiveNow
    drainRequests fuel msgEnv s

/-- The end of `start_timeout_i_process`: send the envelope of an expired delay back. -/
def expireTimeout (s : Kernel n) : Option (Kernel n) := do
  match ← s.ipc.timeouts.checkTimeoutQueue with
  | (none, _) => return s
  | (some msgEnv, T) =>
    let cur ← s.sched.currentProcess
    let s := { s with ipc := (s.ipc.setTimeouts T).emit (.expired cur msgEnv s.ipc.clock) }
    let (_, s) ← s.kSendMessage (s.ipc.letter msgEnv).sendPid (some msgEnv)
    return s

/-- A turn of `start_timeout_i_process`. -/
def startTimeoutIProcess (s : Kernel n) : Option (Kernel n) := do
  let s := { s with ipc := { s.ipc with clock := s.ipc.clock + 1 } }
  let (msgEnv, s) ← s.receiveNow
  let s ← s.drainRequests (Ipc.envFuel + 1) msgEnv
  s.expireTimeout

/-! ## The keyboard i-process -/

/-- The loop that copies `kb_buf` to the body of an envelope, and the NUL behind it. -/
def copyLine (msg : Body) (length : ℕ) (data : Body) : Body := fun i =>
  if i < length then data i else if i = length then 0 else msg i

/-- A turn of `start_kb_i_process`, with what is in `kb_buf`. A line that does not fit into the body
is written beyond it. -/
def startKbIProcess (length : ℤ) (data : Body) (s : Kernel n) : Option (Kernel n) := do
  match ← s.receiveNow with
  | (none, s) => return s
  | (some message, s) =>
    let msg ← (s.ipc.letter message).msg
    if length < msgEnvMsgSize then
      let letter : Letter := { s.ipc.letter message with
        msg := some (copyLine msg length.toNat data)
        msgType := consoleInput }
      let s := { s with ipc := s.ipc.setLetter message letter }
      let (_, s) ← s.kSendMessage letter.sendPid (some message)
      return s
    else none

/-! ## The CRT i-process -/

/-- The start of a turn: the text on the screen is acknowledged, if the flag that is read says
that it is there. -/
def crtAck (flag : CrtFlag) (s : Kernel n) : Option (Kernel n) :=
  match s.ipc.prevMsg, flag with
  | some prevMsg, .free => do
    let cur ← s.sched.currentProcess
    let letter : Letter := { s.ipc.letter prevMsg with msgType := displayAck }
    let s := { s with ipc := (s.ipc.emit (.acked cur prevMsg)).setLetter prevMsg letter }
    let (_, s) ← s.kSendMessage letter.sendPid (some prevMsg)
    return { s with ipc := { s.ipc with prevMsg := none } }
  | _, _ => some s

/-- The middle: a message that has come is put into `displayQueue`. -/
def crtStore (s : Kernel n) : Option (Kernel n) := do
  match ← s.receiveNow with
  | (none, s) => return s -- `msg_env_queue_enqueue` with a null envelope
  | (some message, s) =>
    let cur ← s.sched.currentProcess
    let ipc ← s.ipc.enqueue .displayQueue message
    return { s with ipc := ipc.emit (.stored cur message) }

/-- The end: the next text goes to `crt_buf`, if the flag that is read is free. A text without a NUL
in the body is read and written beyond both buffers. -/
def crtShow (flag : CrtFlag) (s : Kernel n) : Option (Kernel n) := do
  match flag with
  | .wait => return s
  | .free =>
    let empty ← s.ipc.isEmpty .displayQueue
    if empty = 1 then return s
    else
      match s.ipc.dequeue .displayQueue with
      | (none, _) => none -- `assert(message != NULL)`
      | (some message, ipc) =>
        let cur ← s.sched.currentProcess
        let msg ← (ipc.letter message).msg
        let crtBuf ← copyText msg msgEnvMsgSize 0 s.crtBuf
        return { s with
          ipc := { ipc with prevMsg := some message }.emit (.shown cur message)
          crtBuf := crtBuf }

/-- A turn of `start_crt_i_process`, with what its two tests of `crt_buf->i_process_wait_flag` read.
Its locals are those that the statements before the loop set. -/
def startCrtIProcess (first second : CrtFlag) (s : Kernel n) : Option (Kernel n) := do
  let s ← s.crtAck first
  let s ← s.crtStore
  s.crtShow second

end Kernel

end Rtx.Unix
