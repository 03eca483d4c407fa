import Mathlib.Data.Fin.VecNotation
import Rtx.Coldfire.IProcesses

/-!
# Runs of the kernel

`k_api.c`, `isr_handler.c` and `k_init.c`: the ways into the kernel, and with them the transition
system. Traps and interrupts run with interrupts disabled, so one step is one trap up to its
return or its process switch, one interrupt, or the rest of a trap whose process was switched
back in.
-/

namespace Rtx.Coldfire

variable {n : ℕ} {α : Type}

/-! ## Traps -/

/-- The arguments of a trap. -/
inductive Call
  | sendMessage (destPid : ℤ) (msgEnv : Option EnvPtr)
  | receiveMessage
  | requestMsgEnv
  | releaseMsgEnv (msgEnv : Option EnvPtr)
  | releaseProcessor
  | requestProcessStatus (msgEnv : Option EnvPtr)
  | changePriority (newPriority targetProcessId : ℤ)
  | requestDelay (timeDelay wakeupCode : ℤ) (msgEnv : Option EnvPtr)
  | sendConsoleChars (msgEnv : Option EnvPtr) (requestAck : Bool)
  | getTraceBuffers (msgEnv : Option EnvPtr)
  | getSystemTime
  deriving DecidableEq

/-- What a trap leaves in `d0`. -/
inductive RetValue
  | int (code : ℤ)
  | env (msgEnv : Option EnvPtr)

namespace Kernel

/-- The outcome of a primitive that never switches. -/
def returning (r : ℤ × Kernel n) : Outcome n RetValue := .ret (.int r.1) r.2

/-- `kern_swi_handler`. -/
def kernSwiHandler (s : Kernel n) : Call → Option (Outcome n RetValue)
  | .sendMessage destPid msgEnv => (s.kSendMessage destPid msgEnv).map returning
  | .receiveMessage => s.kReceiveMessage.map (·.map .env)
  | .requestMsgEnv => s.kRequestMsgEnv.map (·.map .env)
  | .releaseMsgEnv msgEnv => (s.kReleaseMsgEnv msgEnv).map returning
  | .releaseProcessor => s.kReleaseProcessor.map (·.map .int)
  | .requestProcessStatus msgEnv => (s.kRequestProcessStatus msgEnv).map returning
  | .changePriority newPriority targetProcessId =>
    (s.kChangePriority newPriority targetProcessId).map returning
  | .requestDelay timeDelay wakeupCode msgEnv =>
    (s.kRequestDelay timeDelay wakeupCode msgEnv).map returning
  | .sendConsoleChars msgEnv requestAck =>
    (s.kSendConsoleChars msgEnv requestAck).map returning
  | .getTraceBuffers msgEnv => (s.kGetTraceBuffers msgEnv).map returning
  | .getSystemTime => some (.ret (.int s.ipc.clock) s)

/-- What the process that was switched back in goes on with. -/
def resumed (s : Kernel n) : Context → Option (Outcome n RetValue)
  | .user => none
  | .receiveMessage => s.kReceiveMessage.map (·.map .env)
  | .requestMsgEnv => s.kRequestMsgEnvLoop.map (·.map .env)
  | .releaseProcessor => some (.ret (.int codeSuccess) s)

/-- Leave the kernel: back to the caller's own code, or to another process. -/
def leave (cur : Fin n) : Outcome n α → Option (Kernel n)
  | .ret _ s => some { s with sched := s.sched.setContext cur .user }
  | .switch transitionTo resumeAt s => do
    let sched ← s.sched.kProcessSwitch transitionTo resumeAt
    return { s with sched := sched }

/-! ## Interrupts -/

/-- `isr_handler`, for the i-process with pid `pid` and code `start`. -/
def isrHandler (s : Kernel n) (pid : ℤ) (start : Kernel n → Option (Kernel n)) :
    Option (Kernel n) :=
  let s := { s with sched := s.sched.enterIsr pid }
  let ran :=
    match s.sched.currentProcess with
    | some _ => start s
    | none => some s
  ran.map fun s => { s with sched := s.sched.exitIsr }

end Kernel

/-! ## Steps -/

/-- A step of the machine. -/
inductive Label
  /-- The running process traps into the kernel. -/
  | call (c : Call)
  /-- The process that was switched back in goes on inside its primitive. -/
  | resume
  /-- A serial interrupt, with the values of `SERIAL1_UCSR` and `SERIAL1_RD`. -/
  | irqUart (ucsr rd : UInt8)
  /-- A timer interrupt, with what reads through null yield. -/
  | irqTimer (nullRead : EnvPtr → Option ℤ)
  /-- The running process writes to an envelope. -/
  | write (msgEnv : EnvPtr) (content : MsgEnv EnvPtr)
  /-- The CCI starts the pong game. -/
  | startPong

/-- The trap of a step that is one. -/
def Label.call? : Label → Option Call
  | .call c => some c
  | _ => none

namespace Kernel

/-- The running process, and where it is. -/
def running (s : Kernel n) : Option (Fin n × Context) :=
  s.sched.currentProcess.map fun cur => (cur, (s.sched.pTable cur).context)

/-- Overwrite an envelope. -/
def writeEnv (s : Kernel n) (msgEnv : EnvPtr) (content : MsgEnv EnvPtr) : Kernel n :=
  { s with ipc := { s.ipc with env := Function.update s.ipc.env msgEnv content } }

/-- The kernel code a trap runs: from its start, or from where the process was switched away. -/
def trap (s : Kernel n) (context : Context) : Label → Option (Outcome n RetValue)
  | .call c => if context = .user then s.kernSwiHandler c else none
  | .resume => s.resumed context
  | _ => none

/-- What happens between two traps. -/
def between (s : Kernel n) : Label → Option (Kernel n)
  | .irqUart ucsr rd => s.isrHandler uartIProcessPid (·.uartIProcess ucsr rd)
  | .irqTimer nullRead => s.isrHandler timerIProcessPid (·.timerIProcess nullRead)
  | .write msgEnv content => some (s.writeEnv msgEnv content)
  | .startPong => some { s with uart := { s.uart with pongMode := true } }
  | _ => none

/-- One step. A step without a result is not possible there, or ends the run with a fault. -/
def step (s : Kernel n) (l : Label) : Option (Kernel n) :=
  match s.running with
  | none => none
  | some (cur, context) =>
    match l with
    | .call _ | .resume => (s.trap context l).bind (leave cur)
    | _ => if context = .user then s.between l else none

/-! ## Boot -/

/-- What memory holds before `k_init`. -/
structure Ram (n : ℕ) where
  pTable : Fin n → Pcb n
  env : EnvPtr → MsgEnv EnvPtr
  traces : ℤ → IpcTrace
  uart : Uart

/-- Memory full of zeros. -/
def Ram.zero : Ram n where
  pTable _ := ⟨⟨0, 0, .ready, .user, false⟩, none⟩
  env _ := ⟨⟨0, 0, 0, some fun _ => 0⟩, none⟩
  traces _ := ⟨0, 0, 0, 0⟩
  uart := {
    inputIndex := 0
    outputIndex := 0
    outputPrintChar := false
    inBuffer := fun _ => 0
    outBuffer := fun _ => 0
    imr := 0
    pongMode := false
    transmitted := [] }

/-- `init_uart`, and `pong_mode = FALSE`. -/
def initUart (uart : Uart) : Uart :=
  { uart with
    imr := 2
    inputIndex := 0
    outputIndex := 0
    outputPrintChar := false
    pongMode := false
    transmitted := [] }

/-- `k_init`, up to the first dispatch. -/
def kInitBoot (ram : Ram n) (table : Fin n → PcbInit) : Option (Kernel n) := do
  let ipc ← Ipc.initIpc ram.env ram.traces
  let sched ← Sched.initProcesses ram.pTable table
  return { sched := sched, ipc := ipc, uart := initUart ram.uart }

/-- `k_init`. -/
def kInit (ram : Ram n) (table : Fin n → PcbInit) : Option (Kernel n) := do
  let s ← kInitBoot ram table
  let sched ← s.sched.firstDispatch
  return { s with sched := sched }

/-- A state `k_init` can leave. -/
def Booted (table : Fin n → PcbInit) (s : Kernel n) : Prop := ∃ ram, kInit ram table = some s

end Kernel

/-- The table of `main.c`: timer, UART, CCI, null, wall clock, A, B, C and pong. -/
def itable : Fin 9 → PcbInit := ![
  ⟨timerIProcessPid, 0, true⟩, ⟨uartIProcessPid, 0, true⟩, ⟨cciPid, 0, false⟩,
  ⟨nullPid, nullPriority, false⟩, ⟨1, 1, false⟩, ⟨2, 2, false⟩, ⟨3, 1, false⟩, ⟨4, 0, false⟩,
  ⟨pongPid, 0, false⟩]

end Rtx.Coldfire
