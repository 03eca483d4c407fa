import Mathlib.Data.Int.Init
import Rtx.Coldfire.Tokens
import Rtx.Lib.Places
import Rtx.Lib.Run
import Rtx.Unix.Crt
import Rtx.Unix.Signals
import Rtx.Unix.TimeoutQueue

/-!
# Processes A, B and C of the Unix port

`process_A`, `process_B` and `process_C`, one call of the kernel a step, in any order, with the
primitives they call and the two i-processes that answer process C. `α` is the type of pointers to
envelopes. Each envelope is in `free_env_q`, in a mailbox, or held by the process that has obtained
it and not yet given it away (`Place`). A queue of envelopes is a list; that holds as long as none
is enqueued twice.

Which pending delay ends next is left open. The other processes do what they like with the envelopes
they hold, but send nothing to B and C.
-/

namespace Rtx.Unix

open Coldfire (Body Text cstr codeSuccess errorNullArg errorIllegalArg putText wrap32)
open Places (shift)

def timeoutIProcessPid : ℤ := 2
def processAPid : ℤ := 6
def processBPid : ℤ := 7
def processCPid : ℤ := 8
def countReport : ℤ := -5
def wakeup10 : ℤ := -10

/-- Where an envelope is. -/
inductive Place
  | freeEnvQ
  | recvMsgs (pid : ℤ)
  | held (pid : ℤ)
  deriving DecidableEq

/-- Where process A stands, with its envelope. -/
inductive APc (α : Type)
  /-- At `receive_message`. -/
  | start
  /-- At `release_msg_env(start_msg)`. -/
  | releaseStart (startMsg : α)
  /-- At `request_msg_env`. -/
  | request
  /-- At the assignments to `count_msg`. -/
  | fill (countMsg : α)
  /-- At `send_message`. -/
  | send (countMsg : α)
  /-- At `counter++` and `release_processor`. -/
  | yield

inductive BPc (α : Type)
  | receive
  | send (receivedMsg : α)

/-- Where process C stands, with its envelopes. -/
inductive CPc (α : Type)
  /-- At `msg_env_queue_is_empty(messageQueue)`. -/
  | test
  /-- At the first `receive_message`. -/
  | receive
  /-- At `msg_env_queue_dequeue`. -/
  | dequeue
  /-- At the tests of the type and of the count. -/
  | check (deqMsg : α)
  /-- At `strcpy` and `send_console_chars`. -/
  | print (deqMsg : α)
  /-- At the `receive_message` that waits for `DISPLAY_ACK`. -/
  | awaitAck (deqMsg : α)
  /-- At `request_delay`. -/
  | delay (deqMsg recMsg : α)
  /-- At the `receive_message` that waits for `WAKEUP_10`. -/
  | awaitWakeup (deqMsg recMsg : α)
  /-- At `release_msg_env(rec_msg)`. -/
  | releaseRecMsg (recMsg recMsg2 : Option α) (deqMsg : α)
  /-- At `release_msg_env(rec_msg_2)`. -/
  | releaseRecMsg2 (recMsg2 : Option α) (deqMsg : α)
  /-- At `release_msg_env(deq_msg)`. -/
  | releaseDeqMsg (deqMsg : α)
  /-- At `release_processor`. -/
  | yield
  /-- Behind `assert(0)`. -/
  | aborted

/-- A call of `release_msg_env`: who made it, whether the caller held the envelope, and whether it
was already in `free_env_q`. -/
structure Release (α : Type) where
  pid : ℤ
  env : α
  held : Bool
  free : Bool
  deriving DecidableEq

/-- The envelopes, the three processes, the CRT i-process and the timeout list, and, in the last
field, which envelopes have been released. -/
structure Abc (α : Type) where
  env : α → Envelope
  places : Place → List α
  a : APc α
  counter : ℤ
  b : BPc α
  c : CPc α
  messageQueue : List α
  crt : CrtPc
  flag : CrtFlag
  prevMsg : Option α
  displayQueue : List α
  timeoutQueue : List α
  releases : List (Release α)

inductive AbcLabel (α : Type)
  | processA
  | processB
  | processC
  /-- `SIGUSR2` is delivered. -/
  | crtSignal
  | crtIProcess
  /-- The helper has printed. -/
  | crtHelper
  /-- The timeout i-process inserts a message, at the time `now`. -/
  | timeoutInsert (now : ℤ)
  /-- The delay of an envelope ends. -/
  | timeoutExpire (msgEnv : α)
  /-- What another process does. -/
  | request (pid : ℤ)
  | receive (pid : ℤ)
  | release (pid : ℤ) (msgEnv : α)
  | send (pid destPid : ℤ) (msgEnv : α)
  | write (pid : ℤ) (msgEnv : α) (msgType : ℤ) (msg : Body)

namespace Abc

variable {α : Type} [DecidableEq α]

/-! ## The primitives -/

/-- Change the fields of an envelope. -/
def setEnv (s : Abc α) (msgEnv : α) (fields : Envelope) : Abc α :=
  { s with env := Function.update s.env msgEnv fields }

/-- `k_send_message`, called by the process `pid`. -/
def kSendMessage (s : Abc α) (pid destPid : ℤ) (msgEnv : α) : ℤ × Abc α :=
  if destPid < 0 ∨ destPid ≥ totalNumProcesses then (errorIllegalArg, s)
  else (codeSuccess,
    { s.setEnv msgEnv { s.env msgEnv with sendPid := pid, destPid := destPid } with
      places := shift s.places (.held pid) (.recvMsgs destPid)
        ((s.places (.held pid)).erase msgEnv) (s.places (.recvMsgs destPid) ++ [msgEnv]) })

/-- `k_receive_message`. Without a message an i-process gets `NULL`, and another process waits. -/
def kReceiveMessage (s : Abc α) (pid : ℤ) : Option α × Abc α :=
  match s.places (.recvMsgs pid) with
  | [] => (none, s)
  | msgEnv :: recvMsgs => (some msgEnv,
    { s with
      places := shift s.places (.recvMsgs pid) (.held pid) recvMsgs
        (msgEnv :: s.places (.held pid)) })

/-- `k_request_msg_env`. -/
def kRequestMsgEnv (s : Abc α) (pid : ℤ) : Option α × Abc α :=
  match s.places .freeEnvQ with
  | [] => (none, s)
  | msgEnv :: freeEnvQ => (some msgEnv,
    { s with
      places := shift s.places .freeEnvQ (.held pid) freeEnvQ (msgEnv :: s.places (.held pid)) })

/-- `k_release_msg_env`. -/
def kReleaseMsgEnv (s : Abc α) (pid : ℤ) : Option α → ℤ × Abc α
  | none => (errorNullArg, s)
  | some msgEnv => (codeSuccess,
    { s with
      places := shift s.places (.held pid) .freeEnvQ ((s.places (.held pid)).erase msgEnv)
        (s.places .freeEnvQ ++ [msgEnv])
      releases := s.releases ++
        [{  pid := pid
            env := msgEnv
            held := decide (msgEnv ∈ s.places (.held pid))
            free := decide (msgEnv ∈ s.places .freeEnvQ) }] })

/-- `k_send_console_chars`. -/
def kSendConsoleChars (s : Abc α) (pid : ℤ) (msgEnv : α) : ℤ × Abc α :=
  (s.setEnv msgEnv { s.env msgEnv with msgType := consoleOutput }).kSendMessage pid crtIProcessPid
    msgEnv

/-- `k_request_delay`. -/
def kRequestDelay (s : Abc α) (pid timeDelay wakeupCode : ℤ) (msgEnv : α) : ℤ × Abc α :=
  (s.setEnv msgEnv { s.env msgEnv with
    msgType := wakeupCode
    msg := putInt (s.env msgEnv).msg timeDelay }).kSendMessage pid timeoutIProcessPid msgEnv

/-! ## The processes -/

/-- `process_A`, up to the next call. -/
def processA (s : Abc α) : Option (Abc α) :=
  match s.a with
  | .start =>
    match s.kReceiveMessage processAPid with
    | (some startMsg, s) => some { s with a := .releaseStart startMsg }
    | (none, _) => none
  | .releaseStart startMsg => some
    { (s.kReleaseMsgEnv processAPid (some startMsg)).2 with a := .request, counter := 0 }
  | .request =>
    match s.kRequestMsgEnv processAPid with
    | (some countMsg, s) => some { s with a := .fill countMsg }
    | (none, _) => none
  | .fill countMsg => some
    { s.setEnv countMsg { s.env countMsg with
        msgType := countReport
        msg := putInt (s.env countMsg).msg s.counter } with a := .send countMsg }
  | .send countMsg => some { (s.kSendMessage processAPid processBPid countMsg).2 with a := .yield }
  | .yield => some { s with a := .request, counter := s.counter + 1 }

/-- `process_B`. -/
def processB (s : Abc α) : Option (Abc α) :=
  match s.b with
  | .receive =>
    match s.kReceiveMessage processBPid with
    | (some receivedMsg, s) => some { s with b := .send receivedMsg }
    | (none, _) => none
  | .send receivedMsg => some
    { (s.kSendMessage processBPid processCPid receivedMsg).2 with b := .receive }

/-- `process_C`. -/
def processC (s : Abc α) : Option (Abc α) :=
  match s.c with
  | .test => some { s with c := if s.messageQueue = [] then .receive else .dequeue }
  | .receive =>
    match s.kReceiveMessage processCPid with
    | (some receivedMsg, s) => some
      { s with messageQueue := s.messageQueue ++ [receivedMsg], c := .dequeue }
    | (none, _) => none
  | .dequeue =>
    match s.messageQueue with
    | deqMsg :: messageQueue => some { s with messageQueue := messageQueue, c := .check deqMsg }
    | [] => none
  | .check deqMsg =>
    if (s.env deqMsg).msgType = countReport ∧ (getInt (s.env deqMsg).msg).tmod 20 = 0 then
      some { s with c := .print deqMsg }
    else some { s with c := .releaseRecMsg none none deqMsg }
  | .print deqMsg => some
    { ((s.setEnv deqMsg { s.env deqMsg with
        msg := putText (s.env deqMsg).msg (cstr "\nProcess C\n") }).kSendConsoleChars processCPid
          deqMsg).2 with c := .awaitAck deqMsg }
  | .awaitAck deqMsg =>
    match s.kReceiveMessage processCPid with
    | (some recMsg, s) =>
      if (s.env recMsg).msgType = displayAck then some { s with c := .delay deqMsg recMsg }
      else if (s.env recMsg).msgType = countReport then
        some { s with messageQueue := s.messageQueue ++ [recMsg] }
      else some { s with c := .aborted }
    | (none, _) => none
  | .delay deqMsg recMsg => some
    { (s.kRequestDelay processCPid 100 wakeup10 recMsg).2 with c := .awaitWakeup deqMsg recMsg }
  | .awaitWakeup deqMsg recMsg =>
    match s.kReceiveMessage processCPid with
    | (some recMsg2, s) =>
      if (s.env recMsg2).msgType = wakeup10 then
        some { s with c := .releaseRecMsg (some recMsg) (some recMsg2) deqMsg }
      else some { s with messageQueue := s.messageQueue ++ [recMsg2] }
    | (none, _) => none
  | .releaseRecMsg recMsg recMsg2 deqMsg => some
    { (s.kReleaseMsgEnv processCPid recMsg).2 with c := .releaseRecMsg2 recMsg2 deqMsg }
  | .releaseRecMsg2 recMsg2 deqMsg => some
    { (s.kReleaseMsgEnv processCPid recMsg2).2 with c := .releaseDeqMsg deqMsg }
  | .releaseDeqMsg deqMsg => some
    { (s.kReleaseMsgEnv processCPid (some deqMsg)).2 with c := .yield }
  | .yield => some { s with c := .test }
  | .aborted => none

/-! ## The i-processes -/

/-- A run of the CRT i-process begins. -/
def crtSignal (s : Abc α) : Option (Abc α) :=
  match s.crt with
  | .start => some { s with prevMsg := none, displayQueue := [], flag := .free, crt := .ack }
  | .idle => some { s with crt := .ack }
  | _ => none

/-- `start_crt_i_process`, up to its next test of the flag or to `k_i_process_exit`. -/
def crtIProcess (s : Abc α) : Option (Abc α) :=
  match s.crt with
  | .ack =>
    match s.prevMsg, s.flag with
    | some prevMsg, .free => some
      { ((s.setEnv prevMsg { s.env prevMsg with msgType := displayAck }).kSendMessage crtIProcessPid
          (s.env prevMsg).sendPid prevMsg).2 with prevMsg := none, crt := .receive }
    | _, _ => some { s with crt := .receive }
  | .receive =>
    let r := s.kReceiveMessage crtIProcessPid
    -- `msg_env_queue_enqueue` does not take `NULL`.
    some { r.2 with displayQueue := s.displayQueue ++ r.1.toList, crt := .display }
  | .display =>
    match s.flag, s.displayQueue with
    | .free, message :: displayQueue => some { s with
        displayQueue := displayQueue
        flag := .wait
        prevMsg := some message
        crt := .idle }
    | _, _ => some { s with crt := .idle }
  | _ => none

/-- The helper has printed what is in `crt_buf`. -/
def crtHelper (s : Abc α) : Option (Abc α) :=
  match s.flag with
  | .wait => some { s with flag := .free }
  | .free => none

/-- The timeout i-process takes a message, and `timeout_queue_insert` puts its absolute timeout in
its body. -/
def timeoutInsert (s : Abc α) (now : ℤ) : Option (Abc α) :=
  match s.kReceiveMessage timeoutIProcessPid with
  | (some msgEnv, s) => some
    { s.setEnv msgEnv { s.env msgEnv with
        msg := putInt (s.env msgEnv).msg (wrap32 (now + getInt (s.env msgEnv).msg)) } with
      timeoutQueue := s.timeoutQueue ++ [msgEnv] }
  | (none, _) => none

/-- The timeout i-process sends an envelope back. -/
def timeoutExpire (s : Abc α) (msgEnv : α) : Option (Abc α) :=
  if msgEnv ∈ s.timeoutQueue then some
    { (s.kSendMessage timeoutIProcessPid (s.env msgEnv).sendPid msgEnv).2 with
      timeoutQueue := s.timeoutQueue.erase msgEnv }
  else none

/-! ## The system -/

/-- A process that none of this is about. -/
def Other (pid : ℤ) : Prop :=
  pid ≠ processAPid ∧ pid ≠ processBPid ∧ pid ≠ processCPid ∧ pid ≠ crtIProcessPid ∧
    pid ≠ timeoutIProcessPid

instance (pid : ℤ) : Decidable (Other pid) := by
  unfold Other
  infer_instance

def step (s : Abc α) : AbcLabel α → Option (Abc α)
  | .processA => s.processA
  | .processB => s.processB
  | .processC => s.processC
  | .crtSignal => s.crtSignal
  | .crtIProcess => s.crtIProcess
  | .crtHelper => s.crtHelper
  | .timeoutInsert now => s.timeoutInsert now
  | .timeoutExpire msgEnv => s.timeoutExpire msgEnv
  | .request pid => if Other pid then some (s.kRequestMsgEnv pid).2 else none
  | .receive pid => if Other pid then some (s.kReceiveMessage pid).2 else none
  | .release pid msgEnv =>
    if Other pid ∧ msgEnv ∈ s.places (.held pid) then some (s.kReleaseMsgEnv pid (some msgEnv)).2
    else none
  | .send pid destPid msgEnv =>
    if Other pid ∧ msgEnv ∈ s.places (.held pid) ∧ destPid ≠ processBPid ∧
        destPid ≠ processCPid then
      some (s.kSendMessage pid destPid msgEnv).2
    else none
  | .write pid msgEnv msgType msg =>
    if Other pid ∧ msgEnv ∈ s.places (.held pid) then
      some (s.setEnv msgEnv { s.env msgEnv with msgType := msgType, msg := msg })
    else none

/-- All envelopes are in `free_env_q`, and no process has run. -/
structure Started (s : Abc α) : Prop where
  nodup : (s.places .freeEnvQ).Nodup
  free : ∀ msgEnv, msgEnv ∈ s.places .freeEnvQ
  empty : ∀ place, place ≠ .freeEnvQ → s.places place = []
  a : s.a = .start
  b : s.b = .receive
  c : s.c = .test
  messageQueue : s.messageQueue = []
  prevMsg : s.prevMsg = none
  displayQueue : s.displayQueue = []
  timeoutQueue : s.timeoutQueue = []
  releases : s.releases = []

/-- Process C has released only what it held and was not free, and at the end of a turn it holds
nothing but what it has put off. -/
structure Respects (s : Abc α) : Prop where
  proper : ∀ r ∈ s.releases, r.pid = processCPid → r.held = true ∧ r.free = false
  released : ∀ msgEnv ∈ s.places (.held processCPid), s.c = .yield → msgEnv ∈ s.messageQueue

/-- Process C is not at `release_msg_env(rec_msg_2)` with an envelope that was printed and
delayed. -/
def NotDelayed (s : Abc α) (l : AbcLabel α) : Prop :=
  ∀ recMsg2 deqMsg, l = .processC → s.c ≠ .releaseRecMsg2 (some recMsg2) deqMsg

end Abc

end Rtx.Unix
