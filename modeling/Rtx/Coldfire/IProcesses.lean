import Rtx.Coldfire.Primitives

/-!
# The interrupt processes

`timer_i_process.c`, `uart_i_process.c` and `k_hotkeys.c`. An i-process is never switched away:
a call that would switch has no result here.
-/

namespace Rtx.Coldfire

variable {n : ℕ}

namespace Kernel

/-- `k_receive_message()` in an i-process. -/
def receiveNow (s : Kernel n) : Option (Option EnvPtr × Kernel n) :=
  s.kReceiveMessage.bind Outcome.returned

/-- `k_request_msg_env()` in an i-process. -/
def requestNow (s : Kernel n) : Option (Option EnvPtr × Kernel n) :=
  s.kRequestMsgEnv.bind Outcome.returned

/-! ## The timer -/

/-- `k_clock_incr_system_time`. -/
def kClockIncrSystemTime (s : Kernel n) : Kernel n :=
  { s with ipc := { s.ipc with clock := wrap32 (s.ipc.clock + 1) } }

/-- `timeout_queue_insert(msg_env)`, called by the timer. -/
def insertTimeout (s : Kernel n) (nullRead : EnvPtr → Option ℤ) (msgEnv : EnvPtr) :
    Option (Kernel n) := do
  let cur ← s.sched.currentProcess
  let delay ← s.ipc.timeoutOf msgEnv
  let ipc ← s.ipc.timeoutQueueInsert (nullRead msgEnv) msgEnv
  return { s with ipc := ipc.emit (.delayed cur msgEnv delay s.ipc.clock) }

/-- The receive loop of `timer_i_process`. With more fuel than there are envelopes it only runs
out on a cyclic mailbox, where the source loops for ever. -/
def drainRequests (nullRead : EnvPtr → Option ℤ) :
    ℕ → Option EnvPtr → Kernel n → Option (Kernel n)
  | 0, _, _ => none
  | _ + 1, none, s => some s
  | fuel + 1, some msgEnv, s => do
    let s ← s.insertTimeout nullRead msgEnv
    let (msgEnv, s) ← s.receiveNow
    drainRequests nullRead fuel msgEnv s

/-- The end of `timer_i_process`: send the envelope of an expired delay back. -/
def expireTimeout (s : Kernel n) : Option (Kernel n) := do
  match ← s.ipc.checkTimeoutQueue with
  | (none, ipc) => return { s with ipc := ipc }
  | (some msgEnv, ipc) =>
    let cur ← s.sched.currentProcess
    let s := { s with ipc := ipc.emit (.expired cur msgEnv ipc.clock) }
    let (_, s) ← s.kSendMessage (s.ipc.env msgEnv).sendPid (some msgEnv)
    return s

/-- `timer_i_process`. -/
def timerIProcess (s : Kernel n) (nullRead : EnvPtr → Option ℤ) : Option (Kernel n) := do
  let s := s.kClockIncrSystemTime
  let (msgEnv, s) ← s.receiveNow
  let s ← s.drainRequests nullRead Ipc.envFuel msgEnv
  s.expireTimeout

end Kernel

/-! ## Hotkeys -/

/-- The characters `hotkey` has a case for: a backquote, `!` and `@`. -/
def isHotkey (c : UInt8) : Bool := c == 0x60 || c == 0x21 || c == 0x40

namespace Kernel

/-- `k_get_process(pid_table[i])`, whose result is dereferenced. -/
def processAt (s : Kernel n) (i : Fin n) : Option (Fin n) :=
  s.sched.kGetProcess (s.sched.pTable i).pid

/-- The backquote of `hotkey`: the two priority queues, the free envelopes and the processes. -/
def printQueues (s : Kernel n) : Option Unit := do
  procPqPrint s.sched.pTable (s.sched.pq .readyPq)
  procPqPrint s.sched.pTable (s.sched.pq .blockedRequestEnvPq)
  let _ ← msgEnvQueueSize s.ipc.env Ipc.envFuel (some (s.ipc.queue .freeEnvQ))
  let _ ← msgEnvQueueSize s.ipc.env Ipc.envFuel (some (s.ipc.queue .sysFreeEnvQ))
  (List.finRange n).forM fun i => (s.processAt i).map fun _ => ()

/-- The `!` of `hotkey`: every mailbox. -/
def printMailboxes (s : Kernel n) : Option Unit :=
  (List.finRange n).forM fun i => do
    let pcb ← s.processAt i
    msgEnvQueuePrint s.ipc.env Ipc.envFuel (s.ipc.queue (.recvMsgs pcb))

/-- The `@` of `hotkey`: the stacks. -/
def printStacks (s : Kernel n) : Option Unit :=
  (List.finRange n).forM fun i => (s.processAt i).map fun _ => ()

/-- `hotkey`. It only prints to the debug port; what counts is whether its walks end. -/
def hotkey (s : Kernel n) (c : UInt8) : Option Bool :=
  if c = 0x60 then s.printQueues.map fun _ => true
  else if c = 0x21 then s.printMailboxes.map fun _ => true
  else if c = 0x40 then s.printStacks.map fun _ => true
  else some false

end Kernel

/-! ## The UART -/

def inputBufferSize : ℤ := 100

/-- `KB_LINE_END` in the build the Makefile makes, with `_CFSERVER_` defined. -/
def kbLineEnd : UInt8 := 0

/-- The loop that copies a text to `OutBuffer` up to and including its NUL. A text without a NUL
among the first `ipcMsgEnvMsgSize` bytes is read and written beyond both arrays. -/
def copyText (msg : Body) : ℕ → ℕ → Body → Option Body
  | 0, _, _ => none
  | fuel + 1, i, out =>
    if msg i ≠ 0 then copyText msg fuel (i + 1) (Function.update out i (msg i))
    else some (Function.update out i 0)

/-- The text of a body: its bytes before the first NUL. -/
def textOf (msg : Body) : List UInt8 :=
  ((List.range ipcMsgEnvMsgSize).map msg).takeWhile (· ≠ 0)

namespace Kernel

/-- What the transmit branch does with a received envelope, in two places: copy the text to
`OutBuffer`, then release the envelope or return it as an acknowledgement. -/
def pickUp (s : Kernel n) (message : EnvPtr) : Option (Kernel n) := do
  let msg ← (s.ipc.env message).msg
  let out ← copyText msg ipcMsgEnvMsgSize 0 s.uart.outBuffer
  let s := { s with uart := { s.uart with outBuffer := out, outputPrintChar := true } }
  let s := s.emit (.copied message (textOf msg))
  if (s.ipc.env message).msgType = consoleOutput then
    let (_, s) ← s.kReleaseMsgEnv (some message)
    return s
  else
    let letter : Letter := { (s.ipc.env message).toLetter with msgType := displayAck }
    let s := { s with ipc := s.ipc.setLetter message letter }
    let (_, s) ← s.kSendMessage letter.sendPid (some message)
    return s

/-- The start of the transmit branch, with nothing left to print: pick up the next text. -/
def uartStart (s : Kernel n) : Option (Kernel n) := do
  match ← s.receiveNow with
  | (some message, s) => s.pickUp message
  | (none, s) => return s

/-- The end of a text: pick up the next one, or disable the transmit interrupt. -/
def uartNext (s : Kernel n) : Option (Kernel n) := do
  let s := { s with uart := { s.uart with outputIndex := 0, outputPrintChar := false } }
  match ← s.receiveNow with
  | (some message, s) => s.pickUp message
  | (none, s) => return s.setImr 2

/-- `SERIAL1_WD = OutBuffer[outputIndex]; outputIndex++`. -/
def uartWrite (s : Kernel n) : Kernel n :=
  { s with uart := { s.uart with
    transmitted := s.uart.outBuffer s.uart.outputIndex :: s.uart.transmitted
    outputIndex := s.uart.outputIndex + 1 } }

/-- The first half of the transmit branch: with nothing left to print, look for a text. -/
def uartIdle (s : Kernel n) : Option (Kernel n) :=
  if s.uart.outputIndex = 0 ∧ s.uart.outputPrintChar = false then s.uartStart else some s

/-- The second half: print a character, or go on to the next text. -/
def uartPrint (s : Kernel n) : Option (Kernel n) :=
  if s.uart.outputPrintChar then
    if s.uart.outBuffer s.uart.outputIndex = 0 then s.uartNext else some s.uartWrite
  else some s

/-- The transmit branch of `uart_i_process`. -/
def uartTransmit (s : Kernel n) : Option (Kernel n) := s.uartIdle.bind uartPrint

/-- `SERIAL1_IMR = 3; SERIAL1_WD = c; SERIAL1_IMR = 2`: echo a character. The written character
goes to the terminal, not through the transmit branch. -/
def echo (s : Kernel n) : Kernel n := (s.setImr 3).setImr 2

/-- Send the received character to the pong process. -/
def uartPong (s : Kernel n) (charIn : UInt8) : Option (Kernel n) := do
  let (message, s) ← s.requestNow
  let message ← message -- `message->msg_type` through null
  let msg ← (s.ipc.env message).msg
  let letter : Letter := { (s.ipc.env message).toLetter with
    msgType := consoleInput
    msg := some (Function.update msg 0 charIn) }
  let (_, s) ← { s with ipc := s.ipc.setLetter message letter }.kSendMessage pongPid (some message)
  return s

/-- `InBuffer[inputIndex] = c; inputIndex++`. -/
def store (s : Kernel n) (c : UInt8) : Kernel n :=
  { s with uart := { s.uart with
    inBuffer := Function.update s.uart.inBuffer s.uart.inputIndex c
    inputIndex := s.uart.inputIndex + 1 } }

/-- The loop that copies the first `len` bytes of `InBuffer` into an envelope. -/
def fillLine (inBuffer : ℤ → UInt8) (len : ℤ) (msg : Body) : Body := fun i =>
  if (i : ℤ) < len then inBuffer i else msg i

/-- `fillLine` into an envelope. The loop dereferences `msg` only if it has a turn. -/
def lineBody (uart : Uart) (msg : Option Body) : Option (Option Body) :=
  if uart.inputIndex ≤ 0 then some msg
  else msg.map fun msg => some (fillLine uart.inBuffer uart.inputIndex msg)

/-- The line in `InBuffer` goes to the CCI, if there is an envelope for it. -/
def sendLine (s : Kernel n) : Option EnvPtr → Option (Kernel n)
  | none => some s
  | some message => do
    let msg ← lineBody s.uart (s.ipc.env message).msg
    let letter : Letter := { (s.ipc.env message).toLetter with
      msgType := consoleInput
      msg := msg }
    let (_, s) ← { s with ipc := s.ipc.setLetter message letter }.kSendMessage cciPid (some message)
    return s

/-- A line end: the carriage return before it is overwritten. -/
def uartLineEnd (s : Kernel n) : Option (Kernel n) := do
  let s := s.echo
  let s := { s with uart := { s.uart with inputIndex := s.uart.inputIndex - 1 } }
  let s := s.store 0
  let (message, s) ← s.requestNow
  let s ← s.sendLine message
  return { s with uart := { s.uart with inputIndex := 0 } }

/-- A character of a line: it goes to `InBuffer` unless it is a hotkey. -/
def uartEnter (s : Kernel n) (charIn : UInt8) : Option (Kernel n) := do
  if ← s.hotkey charIn then return s
  else return (s.store charIn).echo

/-- The receive branch of `uart_i_process`. -/
def uartReceive (s : Kernel n) (charIn : UInt8) : Option (Kernel n) :=
  if s.uart.pongMode then s.uartPong charIn
  else if charIn = kbLineEnd then s.uartLineEnd
  else if s.uart.inputIndex < inputBufferSize - 2 then s.uartEnter charIn
  else some s

/-- `uart_i_process`, with what it reads from `SERIAL1_UCSR` and `SERIAL1_RD`. -/
def uartIProcess (s : Kernel n) (ucsr rd : UInt8) : Option (Kernel n) :=
  if ucsr &&& 1 ≠ 0 then s.uartReceive rd
  else if ucsr &&& 4 ≠ 0 then s.uartTransmit
  else some s

/-! ## Entering a character -/

theorem hotkey_eq {s : Kernel n} {c : UInt8} {key : Bool} (h : s.hotkey c = some key) :
    key = isHotkey c := by
  unfold hotkey at h
  unfold isHotkey
  split at h
  · obtain ⟨-, -, rfl⟩ := Option.map_eq_some_iff.1 h
    simp [*]
  split at h
  · obtain ⟨-, -, rfl⟩ := Option.map_eq_some_iff.1 h
    simp [*]
  split at h
  · obtain ⟨-, -, rfl⟩ := Option.map_eq_some_iff.1 h
    simp [*]
  · cases h
    simp [*]

theorem uartEnter_cases {s s' : Kernel n} {c : UInt8} (h : s.uartEnter c = some s') :
    (isHotkey c = true ∧ s' = s) ∨ (isHotkey c = false ∧ s' = (s.store c).echo) := by
  obtain ⟨key, hkey, h⟩ := Option.bind_eq_some_iff.1 h
  rw [hotkey_eq hkey] at h
  cases hc : isHotkey c with
  | true =>
    rw [hc, if_pos rfl] at h
    exact .inl ⟨rfl, (Option.some.inj h).symm⟩
  | false =>
    rw [hc, if_neg Bool.false_ne_true] at h
    exact .inr ⟨rfl, (Option.some.inj h).symm⟩

end Kernel

end Rtx.Coldfire
