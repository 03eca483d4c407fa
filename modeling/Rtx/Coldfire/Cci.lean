import Rtx.Coldfire.IProcesses
import Rtx.Coldfire.Tokens
import Rtx.Coldfire.TraceHistory

/-!
# The command console

`start_cci` and the functions it calls: `print_ack`, `wait_for_wallclock`, the wall clock requests
and the two printers. What a command does is a tree of `Cci` steps. The process that runs it owns
`msg_queue`, next to the `recv_msgs` that the kernel fills.

What the other processes and the kernel do is left open: they deliver console input at any time,
one answer for each request that asks for one, and any result of a kernel call. A kernel call that
faults has no result.

`arrived`, `processed`, `released`, `strays` and `held` are ghosts.
-/

namespace Rtx.Coldfire

def wallclockPid : ℤ := 1
def procAPid : ℤ := 2

def clockOff : ℤ := 10
def clockOn : ℤ := 11
def clockSet : ℤ := 12
def clockRet : ℤ := 13

/-! ## The code -/

/-- The kernel calls of a command, other than those of the two loops that wait. -/
inductive SysCall
  | sendMessage (destPid : ℤ) (msgEnv : EnvPtr)
  | requestProcessStatus (msgEnv : EnvPtr)
  | getTraceBuffers (msgEnv : EnvPtr)
  | changePriority (newPriority targetPid : ℤ)
  | kRequestMsgEnv
  | kSendMessage (destPid : ℤ) (msgEnv : Option EnvPtr)

/-- What a kernel call returns, and the body of the envelope it was given afterwards. -/
structure Reply where
  code : ℤ
  msgEnv : Option EnvPtr
  body : Body

/-- What the console process does until it is back at the top of its loop. -/
inductive Cci
  /-- `release_msg_env(env)`, once there is one, and back to the top. -/
  | endLoop
  /-- `print_ack(str, print_env, msg_queue)`. -/
  | printAck (str : Text) (k : Cci)
  | waitForWallclock (k : Cci)
  | call (call : SysCall) (k : Reply → Cci)
  /-- Writes to an envelope of its own. -/
  | write (msgEnv : EnvPtr) (f : Letter → Letter) (k : Cci)
  /-- `proc_a_env = NULL`. -/
  | clearProcAEnv (k : Cci)
  /-- `pong_mode = TRUE`. -/
  | pongMode (k : Cci)
  | terminate
  /-- A division by zero, or a write behind a string. -/
  | fault

/-- The envelopes `start_cci` requests first, apart from `proc_a_env`. -/
structure CciEnvs where
  printEnv : EnvPtr
  statusEnv : EnvPtr
  clockEnv : EnvPtr

namespace Cci

/-- Print what `rtx_sprintf` makes of it. -/
def printf (format : Text) (params : List Param) (k : Cci) : Cci :=
  match rtxSprintf format params with
  | none => fault
  | some str => printAck str k

/-- The loop of `CCI_printProcessStatuses`, with `data` at `off`. -/
def printStatusLoop (raw : Body) : ℕ → ℕ → Cci → Cci
  | 0, _, k => k
  | numProcesses + 1, off, k =>
    let state := match getInt raw (off + 4) with
      | 0 => cstr "ready                  "
      | 1 => cstr "executing              "
      | 2 => cstr "blocked on env request "
      | 3 => cstr "blocked on receive     "
      | _ => cstr "                       "
    printf (cstr "%4d   ") [.int (getInt raw off)] <|
      printAck state <|
        printf (cstr "%2d\r\n") [.int (getInt raw (off + 8))] <|
          printStatusLoop raw numProcesses (off + 12) k

/-- `CCI_printProcessStatuses`. -/
def printProcessStatuses (rawData : Option Body) (k : ℤ → Cci) : Cci :=
  match rawData with
  | none => k errorNullArg
  | some raw =>
    printAck (cstr "PID | STATUS                | PRIORITY\r\n") <|
      printStatusLoop raw (getInt raw 0).toNat 4 (k codeSuccess)

/-- The text of an entry, or the blank where it has the sentinel. -/
def printTrace (format blank : Text) (t : IpcTrace) (k : Cci) : Cci :=
  if t.timeStamp ≠ maxUint32 then
    printf format [.int t.destPid, .int t.sendPid, .int t.msgType, .int t.timeStamp] k
  else printAck blank k

/-- The loop of `CCI_printTraceBuffers` from `i` on. -/
def printTraceLoop (data : Body) : ℕ → ℕ → Cci → Cci
  | 0, _, k => k
  | fuel + 1, i, k =>
    let send := getTrace data (i * Kernel.sizeofIpcTrace)
    let recv := getTrace data
      (ipcMessageTraceHistorySize * Kernel.sizeofIpcTrace + i * Kernel.sizeofIpcTrace)
    if send.timeStamp ≠ maxUint32 ∨ recv.timeStamp ≠ maxUint32 then
      printTrace sendFormat sendBlank send <|
        printTrace recvFormat recvBlank recv <| printTraceLoop data fuel (i + 1) k
    else k

/-- `CCI_printTraceBuffers`. -/
def printTraceBuffers (data : Option Body) (k : ℤ → Cci) : Cci :=
  match data with
  | none => k errorNullArg
  | some data =>
    printAck traceHeading <|
      printTraceLoop data ipcMessageTraceHistorySize 0 <| printAck (cstr "\r\n") (k codeSuccess)

theorem printTrace_text {format blank : Text} {t : IpcTrace} {str : Text}
    (ht : t.timeStamp ≠ maxUint32) (h : traceText format t = some str) (k : Cci) :
    printTrace format blank t k = printAck str k := by
  rw [traceText] at h
  rw [printTrace, if_pos ht, printf, h]

theorem printTrace_blank {format blank : Text} {t : IpcTrace} (ht : ¬ t.timeStamp ≠ maxUint32)
    (k : Cci) : printTrace format blank t k = printAck blank k := by
  rw [printTrace, if_neg ht]

theorem printTraceLoop_eq {data : Body} {fuel i : ℕ} {texts : List Text}
    (h : Coldfire.printTraceLoop data fuel i = some texts) (k : Cci) :
    printTraceLoop data fuel i k = texts.foldr printAck k := by
  induction fuel generalizing i texts with
  | zero => cases h; rfl
  | succ fuel ih =>
    simp only [Coldfire.printTraceLoop] at h
    rw [printTraceLoop]
    split at h
    · rename_i hsend
      obtain ⟨left, hleft, h⟩ := Option.bind_eq_some_iff.1 h
      obtain ⟨right, hright, h⟩ := Option.bind_eq_some_iff.1 h
      obtain ⟨rows, hrows, h⟩ := Option.bind_eq_some_iff.1 h
      cases h
      rw [if_pos (.inl hsend), ih hrows, printTrace_text hsend hleft]
      split at hright
      · rename_i hrecv
        rw [printTrace_text hrecv hright, List.foldr_cons, List.foldr_cons]
      · rename_i hrecv
        cases hright
        rw [printTrace_blank hrecv, List.foldr_cons, List.foldr_cons]
    · rename_i hsend
      split at h
      · rename_i hrecv
        obtain ⟨right, hright, h⟩ := Option.bind_eq_some_iff.1 h
        obtain ⟨rows, hrows, h⟩ := Option.bind_eq_some_iff.1 h
        cases h
        rw [if_pos (.inr hrecv), ih hrows, printTrace_blank hsend, printTrace_text hrecv hright,
          List.foldr_cons, List.foldr_cons]
      · rename_i hrecv
        cases h
        rw [if_neg (not_or.2 ⟨hsend, hrecv⟩)]
        rfl

theorem printTraceBuffers_eq {data : Option Body} {status : ℤ} {texts : List Text}
    (h : cciPrintTraceBuffers data = some (status, texts)) (k : ℤ → Cci) :
    printTraceBuffers data k = texts.foldr printAck (k status) := by
  cases data with
  | none => cases h; rfl
  | some data =>
    rw [cciPrintTraceBuffers] at h
    obtain ⟨rows, hrows, h⟩ := Option.bind_eq_some_iff.1 h
    cases h
    rw [printTraceBuffers, printTraceLoop_eq hrows, List.foldr_append, List.foldr_cons,
      List.foldr_cons, List.foldr_nil]

/-- `CCI_setWallClock`. What it returns is not looked at. -/
def setWallClock (P : CciEnvs) (newTime : Text) (k : Cci) : Cci :=
  write P.clockEnv (fun letter => { letter with
      msg := letter.msg.map (putText · (rtxStrcpy newTime 1024))
      msgType := clockSet }) <|
    call (.sendMessage wallclockPid P.clockEnv) fun r =>
      if r.code = codeSuccess then waitForWallclock k else k

/-- `CCI_displayWallClock`. -/
def displayWallClock (P : CciEnvs) (dispB : Bool) (k : Cci) : Cci :=
  write P.clockEnv (fun letter => { letter with
      msgType := if dispB then clockOn else clockOff }) <|
    call (.sendMessage wallclockPid P.clockEnv) fun r =>
      if r.code = codeSuccess then waitForWallclock k else k

/-- `"s"`. -/
def startProcA (procAEnv : Option EnvPtr) (k : Cci) : Cci :=
  match procAEnv with
  | some procAEnv =>
    call (.sendMessage procAPid procAEnv) fun r =>
      if r.code ≠ codeSuccess then
        printf (cstr "Error: could not jumpstart process A.errno %d\r\n") [.int r.code]
          (clearProcAEnv k)
      else clearProcAEnv k
  | none => printAck (cstr "Process A has already been started.\r\n") k

/-- `"ps"`. -/
def processStatuses (P : CciEnvs) (k : Cci) : Cci :=
  call (.requestProcessStatus P.statusEnv) fun r =>
    if r.code ≠ codeSuccess then
      printf (cstr "Error: could not get the process statues. errno %d\r\n") [.int r.code] k
    else
      printProcessStatuses (some r.body) fun status =>
        if status ≠ codeSuccess then
          printf (cstr "CCI_printProcessStatuses failed with status %d\r\n") [.int status] k
        else k

/-- `"b"`, which prints the buffers also after an error. -/
def traceBuffers (P : CciEnvs) (k : Cci) : Cci :=
  call (.getTraceBuffers P.statusEnv) fun r =>
    let print := printTraceBuffers (some r.body) fun status =>
      if status ≠ codeSuccess then
        printf (cstr "CCI_printTraceBuffers failed with status %d\r\n") [.int status] k
      else k
    if r.code ≠ codeSuccess then
      printf (cstr "get_trace_buffers failed with status %d\r\n") [.int r.code] print
    else print

/-- `"n"`, with what `rtx_strtok` has left of the line. `priorityStr` and `pidStr` have room for
five characters. -/
def newPriority (copy : Text) (k : Cci) : Cci :=
  let (priorityStr, copy) := rtxStrtok none copy (cstr " \t\r\n")
  let (pidStr, _) := rtxStrtok none copy (cstr " \t\r\n")
  if priorityStr.length > 5 ∨ pidStr.length > 5 then fault
  else
    match rtxAtoi priorityStr, rtxAtoi pidStr with
    | (ret, some priority), (ret', some pid) =>
      if ret + ret' < 2 then badFormat
      else
        call (.changePriority priority pid) fun r =>
          if r.code = errorIllegalArg then
            printAck (cstr ("Usage: n <priority> <processID>\r\npriority must be 0-2 and " ++
              "processID must be a user process other than the null process\r\n")) k
          else if r.code ≠ codeSuccess then
            printf (cstr "CCI_setNewPriority failed with status %d\r\n") [.int r.code] k
          else k
    | _, _ => badFormat -- one of them returned 0
where
  badFormat : Cci :=
    printAck (cstr "Error Bad command format: Usage: n <priority> <processID>\r\n") k

/-- `"c"`, with what `rtx_strtok` has left of the line. -/
def setClock (P : CciEnvs) (copy : Text) (k : Cci) : Cci :=
  let (str, _) := rtxStrtok none copy (cstr " \t\r\n")
  if str = [] then
    printAck (cstr "c\r\nSets the console clock.\r\nUsage: c <hh:mm:ss>\r\n") k
  else setWallClock P str k

/-- `"pong"`. -/
def pong (k : Cci) : Cci :=
  pongMode <| call .kRequestMsgEnv fun r => call (.kSendMessage pongPid r.msgEnv) fun _ => k

/-- What the loop of `start_cci` does with a line. -/
def line (P : CciEnvs) (procAEnv : Option EnvPtr) (msg : Text) : Cci :=
  let (cmd, copy) := rtxStrtok (some msg) [] (cstr " \t\r\n")
  let k := printAck (cstr "CCI: ") endLoop
  if cmd ≠ [] then
    if rtxStrcmp cmd (cstr "s") = 0 then startProcA procAEnv k
    else if rtxStrcmp cmd (cstr "ps") = 0 then processStatuses P k
    else if rtxStrcmp cmd (cstr "cd") = 0 then displayWallClock P true k
    else if rtxStrcmp cmd (cstr "ct") = 0 then displayWallClock P false k
    else if rtxStrcmp cmd (cstr "b") = 0 then traceBuffers P k
    else if rtxStrcmp cmd (cstr "t") = 0 then printAck (cstr "Sayonara~") terminate
    else if rtxStrcmp cmd (cstr "n") = 0 then newPriority copy k
    else if rtxStrcmp cmd (cstr "c") = 0 then setClock P copy k
    else if rtxStrcmp cmd (cstr "pong") = 0 then pong k
    else printf (cstr "Invalid command '%s'\r\n") [.str msg] k
  else printAck cmd (printAck (cstr "Please enter a command.\r\n") k)

/-- `start_cci` up to the loop, with `cci_intro`. -/
def startCci : Cci :=
  printAck (cstr "Welcome to P.OS.\r\n==========================\r\n") <|
    printAck (cstr "CCI: ") endLoop

end Cci

/-! ## The process -/

/-- The two loops that wait for an answer and put everything else on `msg_queue`. -/
inductive Wait
  | printAck
  | waitForWallclock
  deriving DecidableEq

/-- The type that ends the loop. -/
def Wait.msgType : Wait → ℤ
  | printAck => displayAck
  | waitForWallclock => clockRet

/-- Where the process stands. -/
inductive Point
  /-- At the top of its loop. -/
  | loop
  | code (k : Cci)
  /-- Before the `receive_message` of a waiting loop. -/
  | receive (wait : Wait) (k : Cci)
  /-- Behind it. -/
  | received (wait : Wait) (env : EnvPtr) (k : Cci)

/-- An envelope and what it carries. -/
abbrev Entry := EnvPtr × Letter

/-- The process, its two queues and the envelopes. -/
structure CciState where
  env : EnvPtr → MsgEnv EnvPtr
  recvMsgs : MsgEnvQueue EnvPtr
  msgQueue : MsgEnvQueue EnvPtr
  procAEnv : Option EnvPtr
  pongMode : Bool
  point : Point
  /-- `env` of the main loop. -/
  current : Option EnvPtr
  /-- The type of the answer that the process has asked for and that is still to be delivered. -/
  owed : Option ℤ
  arrived : List Entry
  processed : List Entry
  released : List EnvPtr
  /-- What the main loop took and is no console input. -/
  strays : List EnvPtr
  /-- What was delivered, and neither released nor taken as an answer. -/
  held : List EnvPtr

inductive CciLabel
  /-- Console input arrives. -/
  | arrive (env : EnvPtr) (sendPid : ℤ) (body : Body)
  /-- The answer is delivered. -/
  | answer (env : EnvPtr) (sendPid : ℤ) (body : Body)
  /-- The process takes its next step, with what a kernel call returns. -/
  | run (reply : Reply)

namespace CciState

/-- Overwrite the header and the body of an envelope. -/
def setLetter (s : CciState) (env : EnvPtr) (letter : Letter) : CciState :=
  { s with env := Function.update s.env env { s.env env with toLetter := letter } }

/-- `k_send_message` to the console process. -/
def deliver (s : CciState) (env : EnvPtr) (letter : Letter) : Option CciState :=
  let s := s.setLetter env letter
  (msgEnvQueueEnqueue s.env s.recvMsgs env).map fun r =>
    { s with env := r.1, recvMsgs := r.2, held := env :: s.held }

/-- What the main loop does with the envelope it has taken. -/
def dispatch (P : CciEnvs) (s : CciState) (env : EnvPtr) : Option CciState :=
  let s := { s with current := some env }
  let letter := (s.env env).toLetter
  if letter.msgType = consoleInput then do
    let msg ← letter.msg
    return { s with
      point := .code (.line P s.procAEnv (textOf msg))
      processed := s.processed ++ [(env, letter)] }
  else return { s with point := .code .endLoop, strays := s.strays ++ [env] }

/-- The head of the main loop. There is no step while `receive_message` blocks. -/
def takeNext (P : CciEnvs) (s : CciState) : Option CciState :=
  if msgEnvQueueIsEmpty s.msgQueue then do
    let (env, mem, queue) := msgEnvQueueDequeue s.env s.recvMsgs
    { s with env := mem, recvMsgs := queue }.dispatch P (← env)
  else do
    let (env, mem, queue) := msgEnvQueueDequeue s.env s.msgQueue
    { s with env := mem, msgQueue := queue }.dispatch P (← env)

/-- A kernel call of a command. -/
def sysCall (s : CciState) (r : Reply) : SysCall → Option CciState
  | .sendMessage destPid _ =>
    if destPid = wallclockPid ∧ r.code = codeSuccess then some { s with owed := some clockRet }
    else some s
  | .requestProcessStatus msgEnv | .getTraceBuffers msgEnv =>
    some (s.setLetter msgEnv { (s.env msgEnv).toLetter with msg := some r.body })
  | .changePriority _ _ | .kRequestMsgEnv | .kSendMessage _ _ => some s

/-- The next step of a command. `send_console_chars` asks for an answer if it succeeds. -/
def command (P : CciEnvs) (s : CciState) (r : Reply) : Cci → Option CciState
  | .endLoop => match s.current with
    | none => some { s with point := .loop }
    | some env => some { s with
        point := .loop
        current := none
        released := s.released ++ [env]
        held := s.held.erase env }
  | .printAck str k => do
    let letter := (s.env P.printEnv).toLetter
    let msg ← letter.msg
    let s := s.setLetter P.printEnv { letter with msg := some (putText msg (rtxStrcpy str 1024)) }
    return { s with
      point := .receive .printAck k
      owed := if r.code = codeSuccess then some displayAck else s.owed }
  | .waitForWallclock k => some { s with point := .receive .waitForWallclock k }
  | .call call k => do
    let s ← s.sysCall r call
    return { s with point := .code (k r) }
  | .write msgEnv f k => some
      { s.setLetter msgEnv (f (s.env msgEnv).toLetter) with point := .code k }
  | .clearProcAEnv k => some { s with procAEnv := none, point := .code k }
  | .pongMode k => some { s with pongMode := true, point := .code k }
  | .terminate | .fault => none

/-- The process takes a step. -/
def run (P : CciEnvs) (s : CciState) (r : Reply) : Option CciState :=
  match s.point with
  | .loop => s.takeNext P
  | .code k => s.command P r k
  | .receive wait k => do
    let (env, mem, queue) := msgEnvQueueDequeue s.env s.recvMsgs
    return { s with env := mem, recvMsgs := queue, point := .received wait (← env) k }
  | .received wait env k =>
    if (s.env env).msgType = wait.msgType then
      some { s with point := .code k, held := s.held.erase env }
    else
      (msgEnvQueueEnqueue s.env s.msgQueue env).map fun q =>
        { s with env := q.1, msgQueue := q.2, point := .receive wait k }

def step (P : CciEnvs) (s : CciState) : CciLabel → Option CciState
  | .arrive env sendPid body =>
    let letter := ⟨cciPid, sendPid, consoleInput, some body⟩
    (s.deliver env letter).map fun s => { s with arrived := s.arrived ++ [(env, letter)] }
  | .answer env sendPid body => do
    let s' ← s.deliver env ⟨cciPid, sendPid, ← s.owed, some body⟩
    return { s' with owed := none }
  | .run reply => s.run P reply

/-- The process is about to start. Its queues are empty. -/
structure Started (s : CciState) : Prop where
  recvMsgs : s.recvMsgs = msgEnvQueueCreate
  msgQueue : s.msgQueue = msgEnvQueueCreate
  point : s.point = .code .startCci
  current : s.current = none
  owed : s.owed = none
  arrived : s.arrived = []
  processed : s.processed = []
  released : s.released = []
  strays : s.strays = []

/-- What is delivered is in none of the queues, and console input does not arrive in an envelope
that the process has requested for itself. -/
def Fresh (P : CciEnvs) (s : CciState) : CciLabel → Prop
  | .arrive env _ _ => env ∉ s.held ∧ env ≠ P.printEnv ∧ env ≠ P.statusEnv ∧ env ≠ P.clockEnv
  | .answer env _ _ => env ∉ s.held
  | .run _ => True

instance (P : CciEnvs) (s : CciState) (l : CciLabel) : Decidable (s.Fresh P l) := by
  cases l <;> unfold Fresh <;> infer_instance

end CciState

end Rtx.Coldfire
