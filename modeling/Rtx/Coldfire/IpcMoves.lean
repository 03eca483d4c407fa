import Rtx.Coldfire.TimeoutQueue

/-!
# What happens to envelopes

Everything the kernel does to the envelopes and their queues is one of ten moves. A move names the
envelope it is about: where the code takes an envelope out of a queue, only the move with that
envelope is possible.
-/

namespace Rtx.Coldfire

variable {n : ℕ}

/-- What one primitive, or one statement of an i-process, does to the envelopes. -/
inductive IpcMove (n : ℕ)
  /-- Overwrite the header and the body. -/
  | setLetter (env : EnvPtr) (letter : Letter)
  /-- Overwrite everything, the link included. -/
  | write (env : EnvPtr) (content : MsgEnv EnvPtr)
  | send (cur dest : Fin n) (env : EnvPtr) (sendPid destPid : ℤ)
  | receive (p : Fin n) (env : EnvPtr)
  | request (p : Fin n) (queue : QueuePtr n) (env : EnvPtr)
  | release (p : Fin n) (queue : QueuePtr n) (env : EnvPtr)
  | tick
  | insert (p : Fin n) (nullRead : Option ℤ) (env : EnvPtr)
  | expire (p : Fin n) (env : EnvPtr)
  | copy (env : EnvPtr) (text : List UInt8)

/-- The process that makes a move. -/
def IpcMove.mover? : IpcMove n → Option (Fin n)
  | .send p _ _ _ _ | .receive p _ | .request p _ _ | .release p _ _ | .insert p _ _
  | .expire p _ => some p
  | .setLetter .. | .write .. | .tick | .copy .. => none

/-- The free queue an envelope belongs to. -/
def homeQueue : EnvPtr → QueuePtr n
  | .envPool _ => .freeEnvQ
  | .sysEnvPool _ => .sysFreeEnvQ

namespace Ipc

/-- `msg_env_queue_dequeue(queue)`, if it returns `env`. -/
def take (I : Ipc n) (queue : QueuePtr n) (env : EnvPtr) : Option (Ipc n) :=
  if (I.dequeue queue).1 = some env then some (I.dequeue queue).2 else none

/-- The header a send stamps on an envelope. -/
def stamped (I : Ipc n) (env : EnvPtr) (sendPid destPid : ℤ) : Letter :=
  { (I.env env).toLetter with sendPid := sendPid, destPid := destPid }

/-- The part of `k_send_message` that is about envelopes. -/
def send (I : Ipc n) (cur dest : Fin n) (env : EnvPtr) (sendPid destPid : ℤ) :
    Option (Ipc n) :=
  let letter := I.stamped env sendPid destPid
  if letter.msg.isNone then none
  else
    ((I.setLetter env letter).enqueue (.recvMsgs dest) env).map fun I =>
      let I := (I.addOwned dest 1).addOwned cur (-1)
      { I with sendTraceBuf := logMsgEvent I.sendTraceBuf letter I.clock }.emit
        (.sent cur dest env letter)

/-- The part of `k_receive_message` that is about envelopes. -/
def receive (I : Ipc n) (p : Fin n) (env : EnvPtr) : Option (Ipc n) :=
  (I.take (.recvMsgs p) env).map fun I =>
    let letter := (I.env env).toLetter
    { I with recvTraceBuf := logMsgEvent I.recvTraceBuf letter I.clock }.emit
      (.received p env letter)

/-- The part of `k_request_msg_env` that is about envelopes. -/
def request (I : Ipc n) (p : Fin n) (queue : QueuePtr n) (env : EnvPtr) : Option (Ipc n) :=
  ((I.addOwned p 1).take queue env).map (·.emit (.requested p env))

/-- The part of `k_release_msg_env` that is about envelopes. -/
def release (I : Ipc n) (p : Fin n) (queue : QueuePtr n) (env : EnvPtr) : Option (Ipc n) :=
  (I.enqueue queue env).map fun I => (I.addOwned p (-1)).emit (.released p env)

/-- `timeout_queue_insert`, with the ghost log. -/
def insert (I : Ipc n) (p : Fin n) (nullRead : Option ℤ) (env : EnvPtr) : Option (Ipc n) := do
  let delay ← I.timeoutOf env
  let I' ← I.timeoutQueueInsert nullRead env
  return I'.emit (.delayed p env delay I.clock)

/-- `check_timeout_queue`, if it returns `env`. -/
def expire (I : Ipc n) (p : Fin n) (env : EnvPtr) : Option (Ipc n) := do
  let (found, I) ← I.checkTimeoutQueue
  if found = some env then return I.emit (.expired p env I.clock) else none

/-- One move. -/
def move (I : Ipc n) : IpcMove n → Option (Ipc n)
  | .setLetter env letter => some (I.setLetter env letter)
  | .write env content => some { I with env := Function.update I.env env content }
  | .send cur dest env sendPid destPid => I.send cur dest env sendPid destPid
  | .receive p env => I.receive p env
  | .request p queue env => I.request p queue env
  | .release p queue env => I.release p queue env
  | .tick => some { I with clock := wrap32 (I.clock + 1) }
  | .insert p nullRead env => I.insert p nullRead env
  | .expire p env => I.expire p env
  | .copy env text => some (I.emit (.copied env text))

end Ipc

end Rtx.Coldfire
