import Mathlib.Data.Fin.VecNotation
import Rtx.Unix.Interrupts
import Rtx.Unix.Primitives

/-!
# Runs of the Unix port

`k_primitives.c`, `handle_signal` and `k_init.c`: the ways into the kernel, and with them the
transition system. A primitive runs with the signals masked, so one step is one primitive up to
its return or its process switch, the rest of a primitive whose process was switched back in, or one
signal with the turn of its i-process. What the keyboard and the CRT helpers have left in the shared
memory comes with the signal.
-/

namespace Rtx.Unix

open Coldfire (Body MsgEnv Pcb PcbInit Context Sched codeSuccess)

variable {n : ℕ} {α : Type}

/-! ## Calls -/

/-- The primitives of `rtx.h`, but for `terminate`, with their arguments. -/
inductive Api
  | sendMessage (destPid : ℤ) (msgEnv : Option EnvPtr)
  | receiveMessage
  | requestMsgEnv
  | releaseMsgEnv (msgEnv : Option EnvPtr)
  | releaseProcessor
  | requestProcessStatus (msgEnv : Option EnvPtr)
  | changePriority (newPriority targetProcessId : ℤ)
  | requestDelay (timeDelay wakeupCode : ℤ) (msgEnv : Option EnvPtr)
  | sendConsoleChars (msgEnv : Option EnvPtr)
  | getConsoleChars (msgEnv : Option EnvPtr)
  | getTraceBuffers (msgEnv : Option EnvPtr)
  | clockGetSystemTime
  deriving DecidableEq

/-- What a primitive returns. -/
inductive ApiValue
  | int (code : ℤ)
  | env (msgEnv : Option EnvPtr)

namespace Kernel

/-- The outcome of a primitive that never switches. -/
def returning (r : ℤ × Kernel n) : Outcome n ApiValue := .ret (.int r.1) r.2

/-- The kernel code of a primitive. -/
def primitive (s : Kernel n) : Api → Option (Outcome n ApiValue)
  | .sendMessage destPid msgEnv => (s.kSendMessage destPid msgEnv).map returning
  | .receiveMessage => s.kReceiveMessage.map (·.map .env)
  | .requestMsgEnv => s.kRequestMsgEnv.map (·.map .env)
  | .releaseMsgEnv msgEnv => (s.kReleaseMsgEnv msgEnv).map returning
  | .releaseProcessor => s.kReleaseProcessor.map (·.map .int)
  | .requestProcessStatus msgEnv => (s.kRequestProcessStatus msgEnv).map returning
  | .changePriority newPriority targetProcessId =>
    (s.kChangePriority newPriority targetProcessId).map returning
  | .requestDelay timeDelay wakeupCode msgEnv =>
    (s.kRequestDelay timeDelay wakeupCode msgEnv).map returning
  | .sendConsoleChars msgEnv => (s.kSendConsoleChars msgEnv).map returning
  | .getConsoleChars msgEnv => (s.kGetConsoleChars msgEnv).map returning
  | .getTraceBuffers msgEnv => (s.kGetTraceBuffers msgEnv).map returning
  | .clockGetSystemTime => some (.ret (.int s.ipc.clock.toNat) s)

/-- What the process that was switched back in goes on with. -/
def resumed (s : Kernel n) : Context → Option (Outcome n ApiValue)
  | .user => none
  | .receiveMessage => s.kReceiveMessage.map (·.map .env)
  | .requestMsgEnv => s.kRequestMsgEnv.map (·.map .env)
  | .releaseProcessor => some (.ret (.int codeSuccess) s)

/-- Leave the kernel: back to the caller's own code, or to another process. -/
def leave (cur : Fin n) : Outcome n α → Option (Kernel n)
  | .ret _ s => some { s with sched := s.sched.setContext cur .user }
  | .switch nextStatus resumeAt s => do
    let sched ← s.sched.kProcessSwitch nextStatus resumeAt
    return { s with sched := sched }

/-! ## Signals -/

/-- `k_i_process_enter(i_process)`, with its assertions. -/
def enter (s : Kernel n) (iProcess : Fin n) : Option (Kernel n) :=
  if s.flag then none
  else if (s.sched.pTable iProcess).isIProcess then
    (kIProcessEnter s.sched iProcess).map fun sched => { s with sched := sched, flag := true }
  else none

/-- `k_i_process_exit()`, with its assertions. -/
def exit (s : Kernel n) : Option (Kernel n) :=
  if s.flag then (kIProcessExit s.sched).map fun sched => { s with sched := sched, flag := false }
  else none

/-- `handle_signal`, for the signal of the i-process with this pid and its turn. -/
def handleSignal (s : Kernel n) (pid : ℤ) (turn : Kernel n → Option (Kernel n)) :
    Option (Kernel n) := do
  let iProcess ← pcbOf n pid
  let s ← s.enter iProcess
  let s ← turn s
  s.exit

end Kernel

/-! ## Steps -/

/-- A step of the machine. -/
inductive RtxLabel
  /-- The running process calls a primitive. -/
  | call (c : Api)
  /-- The process that was switched back in goes on inside its primitive. -/
  | resume
  | sigalrm
  /-- `SIGUSR1`, with what is in `kb_buf`. -/
  | sigusr1 (length : ℤ) (data : Body)
  /-- `SIGUSR2`, with what the two tests of `i_process_wait_flag` read. -/
  | sigusr2 (first second : CrtFlag)
  /-- The running process writes to an envelope. -/
  | write (msgEnv : EnvPtr) (content : MsgEnv EnvPtr)

/-- The primitive of a step that calls one. -/
def RtxLabel.call? : RtxLabel → Option Api
  | .call c => some c
  | _ => none

namespace Kernel

/-- The running process, and where it is. -/
def running (s : Kernel n) : Option (Fin n × Context) :=
  s.sched.currentProcess.map fun cur => (cur, (s.sched.pTable cur).context)

/-- Overwrite an envelope. -/
def writeEnv (s : Kernel n) (msgEnv : EnvPtr) (content : MsgEnv EnvPtr) : Kernel n :=
  { s with ipc := { s.ipc with mem := Function.update s.ipc.mem msgEnv content } }

/-- The kernel code a process runs: a primitive from its start, or from where it was switched
away. -/
def code (s : Kernel n) (context : Context) : RtxLabel → Option (Outcome n ApiValue)
  | .call c => if context = .user then s.primitive c else none
  | .resume => s.resumed context
  | _ => none

/-- What happens between two primitives. -/
def between (s : Kernel n) : RtxLabel → Option (Kernel n)
  | .sigalrm => s.handleSignal timeoutIProcessPid startTimeoutIProcess
  | .sigusr1 length data => s.handleSignal kbIProcessPid (startKbIProcess length data)
  | .sigusr2 first second => s.handleSignal crtIProcessPid (startCrtIProcess first second)
  | .write msgEnv content => some (s.writeEnv msgEnv content)
  | _ => none

/-- One step. A step without a result is not possible there, or ends the run with a fault. -/
def step (s : Kernel n) (l : RtxLabel) : Option (Kernel n) :=
  match s.running with
  | none => none
  | some (cur, context) =>
    match l with
    | .call _ | .resume => (s.code context l).bind (leave cur)
    | _ => if context = .user then s.between l else none

/-! ## Boot -/

/-- What memory holds before `k_init`. -/
structure Ram (n : ℕ) where
  pTable : Fin n → Pcb n
  env : EnvPtr → MsgEnv EnvPtr
  crtBuf : Body

/-- Memory full of zeros. -/
def Ram.zero : Ram n where
  pTable _ := ⟨⟨0, 0, .ready, .user, false⟩, none⟩
  env _ := ⟨⟨0, 0, 0, some fun _ => 0⟩, none⟩
  crtBuf _ := 0

/-- `k_init`, up to `k_enter_scheduler`. -/
def kInitBoot (ram : Ram n) (initTable : Fin n → PcbInit) : Option (Kernel n) := do
  let ipc ← Ipc.init ram.env
  let sched ← kProcessInit ram.pTable initTable
  return { sched := sched, ipc := ipc, flag := false, crtBuf := ram.crtBuf }

/-- `k_init`. -/
def kInit (ram : Ram n) (initTable : Fin n → PcbInit) : Option (Kernel n) := do
  let s ← kInitBoot ram initTable
  let sched ← kEnterScheduler s.sched
  return { s with sched := sched }

/-- A state `k_init` can leave. -/
def Booted (initTable : Fin n → PcbInit) (s : Kernel n) : Prop :=
  ∃ ram, kInit ram initTable = some s

end Kernel

/-- The `init_table` of `k_init`. -/
def procCfg : Fin totalNumProcesses → PcbInit := ![
  ⟨kbIProcessPid, 0, true⟩, ⟨crtIProcessPid, 0, true⟩, ⟨timeoutIProcessPid, 0, true⟩,
  ⟨processNullPid, 3, false⟩, ⟨4, 2, false⟩, ⟨5, 2, false⟩, ⟨processAPid, 0, false⟩,
  ⟨processBPid, 1, false⟩, ⟨processCPid, 2, false⟩]

/-- The table is numbered by the pids, and begins with the three i-processes. The others have a
priority of their own level, and only the null process has the one beyond. -/
structure Tabled (initTable : Fin n → PcbInit) : Prop where
  pid : ∀ p, (initTable p).pid = (p : ℕ)
  isIProcess : ∀ p, (initTable p).isIProcess = true ↔ (p : ℕ) < 3
  priority : ∀ p, 0 ≤ (initTable p).priority ∧ (initTable p).priority < numPriorities + nullPriority
  level : ∀ p, (initTable p).isIProcess = false → (initTable p).pid ≠ processNullPid →
    (initTable p).priority < numPriorities
  null : ∃ p : Fin n, (p : ℤ) = processNullPid

theorem procCfg_tabled : Tabled procCfg := by
  constructor <;> decide

end Rtx.Unix
