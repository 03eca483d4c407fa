import Rtx.MsgEnvQueues
import Rtx.Unix.TimeoutQueue
import Rtx.Unix.TraceDisplay

/-!
# Envelopes and mailboxes of the Unix port

The data of `k_ipc.c`, `k_storage.c` and `timeout_queue.c`, and the two locals of the CRT i-process
that hold envelopes: the envelope memory, every queue of envelopes, the timeout list, the trace
buffers and the clock.

`log` is a ghost: what has happened to the envelopes, newest first. The code never reads it.
-/

namespace Rtx.Unix

open Coldfire (Body Letter MsgEnv msgEnvQueueDequeue msgEnvQueueEnqueue msgEnvQueueCreate)

variable {n : ℕ}

abbrev ipcNumFreeMsgEnvs : ℕ := 32

/-- A pointer to an element of `env_pool`. -/
abbrev EnvPtr := Fin ipcNumFreeMsgEnvs

/-- A pointer to a queue of envelopes. -/
inductive QueuePtr (n : ℕ)
  | freeEnvQ
  | recvMsgs (pcb : Fin n)
  /-- `displayQueue` of the CRT i-process. -/
  | displayQueue
  deriving DecidableEq

/-- What happens to envelopes. The letter of a send is the one in the envelope as it is queued, the
letter of a receive the one in it as it is handed over. -/
inductive Event (n : ℕ)
  /-- `k_request_msg_env` returned the envelope to `p`. -/
  | requested (p : Fin n) (env : EnvPtr)
  /-- `p` gave the envelope back with `k_release_msg_env`. -/
  | released (p : Fin n) (env : EnvPtr)
  /-- A successful `k_send_message` from `p` to `q`. -/
  | sent (p q : Fin n) (env : EnvPtr) (letter : Letter)
  /-- `k_receive_message` returned the envelope to `p`. -/
  | received (p : Fin n) (env : EnvPtr) (letter : Letter)
  /-- `timeout_queue_insert` took the envelope over from `p`, with a delay, when the clock was
  `time`. -/
  | delayed (p : Fin n) (env : EnvPtr) (delay : ℤ) (time : UInt64)
  /-- `check_timeout_queue` returned the envelope to `p` when the clock was `time`. -/
  | expired (p : Fin n) (env : EnvPtr) (time : UInt64)
  /-- `p` put the envelope into `displayQueue`. -/
  | stored (p : Fin n) (env : EnvPtr)
  /-- `p` took the envelope out of `displayQueue`, and put its text on the screen. -/
  | shown (p : Fin n) (env : EnvPtr)
  /-- `p` is done with the text on the screen, and about to acknowledge it. -/
  | acked (p : Fin n) (env : EnvPtr)

/-- The envelopes and what points to them. -/
structure Ipc (n : ℕ) extends QueueMem EnvPtr (QueuePtr n) where
  timeoutQueue : Option EnvPtr
  /-- `prev_msg` of the CRT i-process. -/
  prevMsg : Option EnvPtr
  sendTraceBuf : TraceCircleBuf
  recvTraceBuf : TraceCircleBuf
  clock : UInt64
  log : List (Event n)

/-- What `_log_msg_event` looks at. -/
def headerOf (letter : Letter) : MsgHeader where
  destPid := UInt32.ofInt letter.destPid
  sendPid := UInt32.ofInt letter.sendPid
  msgType := Int32.ofInt letter.msgType

namespace Ipc

/-- What is in an envelope, the link apart. -/
def letter (I : Ipc n) (env : EnvPtr) : Letter := (I.mem env).toLetter

/-- Overwrite the header and the body of an envelope. -/
def setLetter (I : Ipc n) (env : EnvPtr) (letter : Letter) : Ipc n :=
  { I with mem := Function.update I.mem env { I.mem env with toLetter := letter } }

/-- `msg_env_queue_is_empty(queue)`. -/
def isEmpty (I : Ipc n) (queue : QueuePtr n) : Option ℤ :=
    msgEnvQueueIsEmpty (some (I.queues queue))

/-- `msg_env_queue_enqueue(queue, env)`. -/
def enqueue (I : Ipc n) (queue : QueuePtr n) (env : EnvPtr) : Option (Ipc n) :=
  (I.toQueueMem.call (.enqueue (some queue) (some env))).map fun r =>
    { I with toQueueMem := r.2 }

/-- `msg_env_queue_dequeue(queue)`. -/
def dequeue (I : Ipc n) (queue : QueuePtr n) : Option EnvPtr × Ipc n :=
  let r := msgEnvQueueDequeue I.mem (I.queues queue)
  (r.1, { I with mem := r.2.1, queues := Function.update I.queues queue r.2.2 })

/-- Record an event in the ghost log. -/
def emit (I : Ipc n) (ev : Event n) : Ipc n := { I with log := ev :: I.log }

/-- `_log_msg_event(&_send_trace_buf, env)`. -/
def logSend (I : Ipc n) (env : EnvPtr) : Ipc n :=
  { I with sendTraceBuf := logMsgEvent I.sendTraceBuf (headerOf (I.letter env)) I.clock }

/-- `_log_msg_event(&_recv_trace_buf, env)`. -/
def logReceive (I : Ipc n) (env : EnvPtr) : Ipc n :=
  { I with recvTraceBuf := logMsgEvent I.recvTraceBuf (headerOf (I.letter env)) I.clock }

/-- What the timeout list looks at. -/
def timeouts (I : Ipc n) : TimeoutMem EnvPtr where
  env := I.mem
  timeoutQueue := I.timeoutQueue
  clock := I.clock.toNat

/-- Put back what the timeout list has changed. -/
def setTimeouts (I : Ipc n) (T : TimeoutMem EnvPtr) : Ipc n :=
  { I with mem := T.env, timeoutQueue := T.timeoutQueue }

/-- More than the number of envelopes, and so than the length of any list of them. -/
def envFuel : ℕ := ipcNumFreeMsgEnvs + 1

/-! ## Boot -/

/-- One turn of the loop of `k_storage_init`. The other fields are those of allocated memory. -/
def initEnv (I : Ipc n) (env : EnvPtr) : Option (Ipc n) :=
  let body : Body := (I.mem env).msg.getD fun _ => 0
  let content := { I.mem env with next := none, msg := some body }
  { I with mem := Function.update I.mem env content }.enqueue .freeEnvQ env

/-- The queues that `k_storage_init` and `k_process_init` create, the envelopes in the free one, and
`k_ipc_init`. The static variables start at zero. -/
def init (memory : EnvPtr → MsgEnv EnvPtr) : Option (Ipc n) :=
  (List.finRange ipcNumFreeMsgEnvs).foldlM initEnv
    { mem := memory
      queues := fun _ => msgEnvQueueCreate
      timeoutQueue := none
      prevMsg := none
      sendTraceBuf := kIpcInit
      recvTraceBuf := kIpcInit
      clock := 0
      log := [] }

end Ipc

end Rtx.Unix
