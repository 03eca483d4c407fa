import Mathlib.Data.List.FinRange
import Rtx.Coldfire.MsgEnvQueue

/-!
# Envelopes, mailboxes and traces

The data of `k_ipc.c`: the envelope memory, every envelope queue of the kernel, the owner
counts, the timeout list, the trace buffers and the clock.

`log` is a ghost: the events of a run, newest first, which the theorems speak about. The code
never reads it.
-/

namespace Rtx.Coldfire

variable {n : ℕ}

/-- A pointer to an envelope queue of the kernel. -/
inductive QueuePtr (n : ℕ)
  | freeEnvQ
  | sysFreeEnvQ
  | recvMsgs (pcb : Fin n)
  deriving DecidableEq

/-- What happens to envelopes. The letter of a send is the one in the envelope as it is queued,
the letter of a receive the one in it as it is handed over. -/
inductive Event (n : ℕ)
  /-- `k_request_msg_env` returned the envelope to `p`. -/
  | requested (p : Fin n) (env : EnvPtr)
  /-- `p` gave the envelope back with `k_release_msg_env`. -/
  | released (p : Fin n) (env : EnvPtr)
  /-- A successful `k_send_message` from `p` to `q`. -/
  | sent (p q : Fin n) (env : EnvPtr) (letter : Letter)
  /-- `k_receive_message` returned the envelope to `p`. -/
  | received (p : Fin n) (env : EnvPtr) (letter : Letter)
  /-- `timeout_queue_insert` took the envelope over from `p` at clock `time`. -/
  | delayed (p : Fin n) (env : EnvPtr) (delay time : ℤ)
  /-- `check_timeout_queue` returned the envelope to `p` at clock `time`. -/
  | expired (p : Fin n) (env : EnvPtr) (time : ℤ)
  /-- The UART i-process copied the envelope's text to `OutBuffer`. -/
  | copied (env : EnvPtr) (text : List UInt8)

/-- `ipc_trace_t`. -/
structure IpcTrace where
  destPid : ℤ
  sendPid : ℤ
  msgType : ℤ
  timeStamp : ℤ
  deriving DecidableEq

/-- `trace_circle_buf_t`. -/
structure TraceCircleBuf where
  tail : ℤ
  buf : ℤ → IpcTrace

/-- The envelopes and what points to them. `recv_msgs` and `env_owned` are fields of the PCBs in
the source. -/
structure Ipc (n : ℕ) where
  env : EnvPtr → MsgEnv EnvPtr
  queue : QueuePtr n → MsgEnvQueue EnvPtr
  envOwned : Fin n → ℤ
  timeoutQueue : Option EnvPtr
  sendTraceBuf : TraceCircleBuf
  recvTraceBuf : TraceCircleBuf
  clock : ℤ
  log : List (Event n)

/-! ## Trace buffers -/

/-- `circle_index`, with C's truncating remainder. -/
def circleIndex (i : ℤ) : ℤ := i.tmod ipcMessageTraceHistorySize

/-- `log_msg_event`. -/
def logMsgEvent (tbuf : TraceCircleBuf) (letter : Letter) (clock : ℤ) : TraceCircleBuf :=
  let entry : IpcTrace := {
    destPid := letter.destPid
    sendPid := letter.sendPid
    msgType := letter.msgType
    timeStamp := clock }
  { buf := Function.update tbuf.buf tbuf.tail entry, tail := circleIndex (tbuf.tail + 1) }

/-- The loop of `find_trace_buf_head`. It only runs out of fuel where the source loops for ever:
the sixteen positions have all been visited. -/
def findTraceBufHeadLoop (tbuf : TraceCircleBuf) : ℕ → ℤ → Option ℤ
  | 0, _ => none
  | fuel + 1, head =>
    if (tbuf.buf head).timeStamp = maxUint32 ∧ head ≠ circleIndex (tbuf.tail - 1) then
      findTraceBufHeadLoop tbuf fuel (circleIndex (head + 1))
    else some head

/-- `find_trace_buf_head`. -/
def findTraceBufHead (tbuf : TraceCircleBuf) : Option ℤ :=
  findTraceBufHeadLoop tbuf (ipcMessageTraceHistorySize + 1) (circleIndex tbuf.tail)

namespace Ipc

/-! ## Access -/

/-- Overwrite the header and the body of an envelope. -/
def setLetter (I : Ipc n) (env : EnvPtr) (letter : Letter) : Ipc n :=
  { I with env := Function.update I.env env { I.env env with toLetter := letter } }

/-- `msg_env_queue_is_empty(queue)`. -/
def isEmpty (I : Ipc n) (queue : QueuePtr n) : Bool := msgEnvQueueIsEmpty (I.queue queue)

/-- `msg_env_queue_enqueue(queue, env)`. -/
def enqueue (I : Ipc n) (queue : QueuePtr n) (env : EnvPtr) : Option (Ipc n) :=
  (msgEnvQueueEnqueue I.env (I.queue queue) env).map fun r =>
    { I with env := r.1, queue := Function.update I.queue queue r.2 }

/-- `msg_env_queue_dequeue(queue)`. -/
def dequeue (I : Ipc n) (queue : QueuePtr n) : Option EnvPtr × Ipc n :=
  let (env, mem, q) := msgEnvQueueDequeue I.env (I.queue queue)
  (env, { I with env := mem, queue := Function.update I.queue queue q })

/-- `pcb->env_owned += k`. -/
def addOwned (I : Ipc n) (pcb : Fin n) (k : ℤ) : Ipc n :=
  { I with envOwned := Function.update I.envOwned pcb (I.envOwned pcb + k) }

/-- Record an event in the ghost log. -/
def emit (I : Ipc n) (ev : Event n) : Ipc n := { I with log := ev :: I.log }

/-! ## Boot -/

/-- One turn of the two loops of `init_ipc`. -/
def initEnv (queue : QueuePtr n) (I : Ipc n) (env : EnvPtr) : Option (Ipc n) :=
  let body : Body := Function.update ((I.env env).msg.getD fun _ => 0) 0 0
  let I := { I with
    env := Function.update I.env env
      { I.env env with next := none, msgType := 0, msg := some body } }
  I.enqueue queue env

/-- `init_ipc` on freshly allocated memory, whose contents are unknown. `env_owned` is zeroed by
`init_processes`, `timeout_queue` by `init_timer`, and the clock starts at 1. -/
def initIpc (memory : EnvPtr → MsgEnv EnvPtr) (traces : ℤ → IpcTrace) : Option (Ipc n) := do
  let traceBuf : TraceCircleBuf := {
    tail := 0
    buf := fun i =>
      if 0 ≤ i ∧ i < ipcMessageTraceHistorySize then { traces i with timeStamp := maxUint32 }
      else traces i }
  let I : Ipc n := {
    env := memory
    queue := fun _ => msgEnvQueueCreate
    envOwned := fun _ => 0
    timeoutQueue := none
    sendTraceBuf := traceBuf
    recvTraceBuf := traceBuf
    clock := 1
    log := [] }
  let I ← ((List.finRange ipcNumFreeMsgEnvs).map EnvPtr.envPool).foldlM (initEnv .freeEnvQ) I
  ((List.finRange ipcNumSysFreeMsgEnvs).map EnvPtr.sysEnvPool).foldlM (initEnv .sysFreeEnvQ) I

end Ipc

end Rtx.Coldfire
