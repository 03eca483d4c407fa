import Rtx.Coldfire.Utils

/-!
# The CRT of the Unix port

`start_crt_i_process`, the loop of the `crt` helper and `send_console_chars`. They share `crt_buf`
and the signal `SIGUSR2`, of which at most one is pending. A run of the i-process is split where it
tests the flag, the helper where it prints, sets the flag and sends its signal.

A message is the value of its envelope: who sends it gives it away. The body of an envelope is as
large as `crt_buf->data`, so its text and the NUL fit.
-/

namespace Rtx.Unix

open Coldfire (Body Text)

def crtIProcessPid : ℤ := 1
def displayAck : ℤ := -1
def consoleOutput : ℤ := -2

/-- An envelope, with the bytes of its body. -/
structure Envelope where
  destPid : ℤ
  sendPid : ℤ
  msgType : ℤ
  msg : Body

/-- An envelope with a text in its body. -/
structure ConsoleMsg where
  destPid : ℤ
  sendPid : ℤ
  msgType : ℤ
  msg : Text
  deriving DecidableEq

namespace ConsoleMsg

/-- The fields that `k_send_message` of the process `pid` writes. -/
def sent (m : ConsoleMsg) (pid destPid : ℤ) : ConsoleMsg :=
  { m with sendPid := pid, destPid := destPid }

/-- What `k_send_console_chars` of the process `pid` sends to the CRT i-process. -/
def output (m : ConsoleMsg) (pid : ℤ) : ConsoleMsg :=
  { m with msgType := consoleOutput }.sent pid crtIProcessPid

/-- What the CRT i-process sends back. -/
def ack (m : ConsoleMsg) : ConsoleMsg :=
  { m with msgType := displayAck }.sent crtIProcessPid m.sendPid

end ConsoleMsg

/-- `i_process_wait_flag`. -/
inductive CrtFlag
  | wait
  | free
  deriving DecidableEq

/-- Where the i-process stands. -/
inductive CrtPc
  /-- It has never run: the statements before the loop come first. -/
  | start
  /-- Behind `k_i_process_exit`. -/
  | idle
  /-- At the first test of the flag. -/
  | ack
  /-- At `k_receive_message`. -/
  | receive
  /-- At the second test of the flag. -/
  | display
  deriving DecidableEq

/-- Where the helper stands. -/
inductive HelperPc
  /-- At `if (crt_buffer->i_process_wait_flag == CRT_FLAG_WAIT)`. -/
  | poll
  /-- At the loop that prints. -/
  | print
  /-- At `crt_buffer->i_process_wait_flag = CRT_FLAG_FREE`. -/
  | free
  /-- At `kill(parent_pid, SIGUSR2)`. -/
  | kill
  deriving DecidableEq

/-- The queues and locals of the i-process, `crt_buf`, where the parties stand, and, in the last
three fields, what has happened. -/
structure CrtState where
  recvMsgs : List ConsoleMsg
  displayQueue : List ConsoleMsg
  prevMsg : Option ConsoleMsg
  flag : CrtFlag
  data : Text
  crt : CrtPc
  helper : HelperPc
  /-- `SIGUSR2` is pending. -/
  sigusr2 : Bool
  /-- The processes at `kill(rtx_pid, SIGUSR2)`. -/
  kills : ℕ
  /-- What `k_receive_message` of the i-process has returned. -/
  accepted : List ConsoleMsg
  printed : List Text
  /-- What the i-process has sent. -/
  acked : List ConsoleMsg
  deriving DecidableEq

inductive CrtLabel
  /-- `send_console_chars` of the process `pid`, up to its `kill`. -/
  | sendConsoleChars (pid : ℤ) (m : ConsoleMsg)
  /-- The `kill` of `send_console_chars`. -/
  | kill
  /-- `SIGUSR2` is delivered: a run of the i-process begins. -/
  | deliver
  | iProcess
  | helper
  deriving DecidableEq

namespace CrtState

/-- A run of the i-process begins. -/
def deliver (s : CrtState) : Option CrtState :=
  if s.sigusr2 then
    match s.crt with
    | .start => some { s with
        sigusr2 := false
        prevMsg := none
        displayQueue := []
        flag := .free
        crt := .ack }
    | .idle => some { s with sigusr2 := false, crt := .ack }
    | _ => none
  else none

/-- `start_crt_i_process`, up to its next test of the flag or to `k_i_process_exit`. -/
def iProcess (s : CrtState) : Option CrtState :=
  match s.crt with
  | .ack =>
    match s.prevMsg, s.flag with
    | some m, .free => some { s with
        acked := s.acked ++ [m.ack]
        prevMsg := none
        crt := .receive }
    | _, _ => some { s with crt := .receive }
  | .receive =>
    match s.recvMsgs with
    | m :: recvMsgs => some { s with
        recvMsgs := recvMsgs
        accepted := s.accepted ++ [m]
        displayQueue := s.displayQueue ++ [m]
        crt := .display }
    -- `msg_env_queue_enqueue` does not take `NULL`.
    | [] => some { s with crt := .display }
  | .display =>
    match s.flag, s.displayQueue with
    | .free, m :: displayQueue => some { s with
        displayQueue := displayQueue
        data := m.msg
        flag := .wait
        prevMsg := some m
        crt := .idle }
    | _, _ => some { s with crt := .idle }
  | _ => none

/-- The loop of the helper. Where the flag is free it sleeps on. -/
def helperStep (s : CrtState) : Option CrtState :=
  match s.helper with
  | .poll => if s.flag = .wait then some { s with helper := .print } else none
  | .print => some { s with printed := s.printed ++ [s.data], helper := .free }
  | .free => some { s with flag := .free, helper := .kill }
  | .kill => some { s with sigusr2 := true, helper := .poll }

def step (s : CrtState) : CrtLabel → Option CrtState
  | .sendConsoleChars pid m => some { s with
      recvMsgs := s.recvMsgs ++ [m.output pid]
      kills := s.kills + 1 }
  | .kill => if 0 < s.kills then some { s with kills := s.kills - 1, sigusr2 := true } else none
  | .deliver => s.deliver
  | .iProcess => s.iProcess
  | .helper => s.helperStep

/-- Before the first signal. The file behind `crt_buf` may be an old one. -/
structure Booted (s : CrtState) : Prop where
  recvMsgs : s.recvMsgs = []
  displayQueue : s.displayQueue = []
  prevMsg : s.prevMsg = none
  crt : s.crt = .start
  helper : s.helper = .poll
  sigusr2 : s.sigusr2 = false
  kills : s.kills = 0
  accepted : s.accepted = []
  printed : s.printed = []
  acked : s.acked = []

/-- What each step does, with what it needs. -/
inductive Step (s : CrtState) : CrtLabel → CrtState → Prop
  | send (pid : ℤ) (m : ConsoleMsg) :
    Step s (.sendConsoleChars pid m)
      { s with recvMsgs := s.recvMsgs ++ [m.output pid], kills := s.kills + 1 }
  | kill (hkills : 0 < s.kills) : Step s .kill { s with kills := s.kills - 1, sigusr2 := true }
  | first (hpending : s.sigusr2 = true) (hcrt : s.crt = .start) :
    Step s .deliver
      { s with sigusr2 := false, prevMsg := none, displayQueue := [], flag := .free, crt := .ack }
  | next (hpending : s.sigusr2 = true) (hcrt : s.crt = .idle) :
    Step s .deliver { s with sigusr2 := false, crt := .ack }
  | acked {m : ConsoleMsg} (hcrt : s.crt = .ack) (hprev : s.prevMsg = some m)
    (hflag : s.flag = .free) :
    Step s .iProcess { s with acked := s.acked ++ [m.ack], prevMsg := none, crt := .receive }
  | unacked (hcrt : s.crt = .ack) (hnot : s.prevMsg = none ∨ s.flag = .wait) :
    Step s .iProcess { s with crt := .receive }
  | received {m : ConsoleMsg} {recvMsgs : List ConsoleMsg} (hcrt : s.crt = .receive)
    (hrecv : s.recvMsgs = m :: recvMsgs) :
    Step s .iProcess
      { s with
        recvMsgs := recvMsgs
        accepted := s.accepted ++ [m]
        displayQueue := s.displayQueue ++ [m]
        crt := .display }
  | noMessage (hcrt : s.crt = .receive) (hrecv : s.recvMsgs = []) :
    Step s .iProcess { s with crt := .display }
  | displayed {m : ConsoleMsg} {displayQueue : List ConsoleMsg} (hcrt : s.crt = .display)
    (hflag : s.flag = .free) (hqueue : s.displayQueue = m :: displayQueue) :
    Step s .iProcess
      { s with
        displayQueue := displayQueue
        data := m.msg
        flag := .wait
        prevMsg := some m
        crt := .idle }
  | notDisplayed (hcrt : s.crt = .display) (hnot : s.flag = .wait ∨ s.displayQueue = []) :
    Step s .iProcess { s with crt := .idle }
  | poll (hhelper : s.helper = .poll) (hflag : s.flag = .wait) :
    Step s .helper { s with helper := .print }
  | print (hhelper : s.helper = .print) :
    Step s .helper { s with printed := s.printed ++ [s.data], helper := .free }
  | free (hhelper : s.helper = .free) : Step s .helper { s with flag := .free, helper := .kill }
  | signal (hhelper : s.helper = .kill) : Step s .helper { s with sigusr2 := true, helper := .poll }

variable {s s' : CrtState}

theorem step_deliver (h : s.deliver = some s') : Step s .deliver s' := by
  unfold deliver at h
  split at h
  · next hpending =>
    split at h
    · next hcrt => cases h; exact .first hpending hcrt
    · next hcrt => cases h; exact .next hpending hcrt
    · contradiction
  · contradiction

theorem step_iProcess (h : s.iProcess = some s') : Step s .iProcess s' := by
  unfold iProcess at h
  split at h
  · next hcrt =>
    split at h
    · next hprev hflag => cases h; exact .acked hcrt hprev hflag
    · next hnot =>
      cases h
      refine .unacked hcrt ?_
      cases hprev : s.prevMsg with
      | none => exact .inl rfl
      | some m =>
        cases hflag : s.flag with
        | wait => exact .inr rfl
        | free => exact absurd hflag (hnot m hprev)
  · next hcrt =>
    split at h
    · next hrecv => cases h; exact .received hcrt hrecv
    · next hrecv => cases h; exact .noMessage hcrt hrecv
  · next hcrt =>
    split at h
    · next hflag hqueue => cases h; exact .displayed hcrt hflag hqueue
    · next hnot =>
      cases h
      refine .notDisplayed hcrt ?_
      cases hflag : s.flag with
      | wait => exact .inl rfl
      | free =>
        cases hqueue : s.displayQueue with
        | nil => exact .inr rfl
        | cons m displayQueue => exact absurd hqueue (hnot m displayQueue hflag)
  · contradiction

theorem step_helper (h : s.helperStep = some s') : Step s .helper s' := by
  unfold helperStep at h
  split at h
  · next hhelper =>
    split at h
    · next hflag => cases h; exact .poll hhelper hflag
    · contradiction
  · next hhelper => cases h; exact .print hhelper
  · next hhelper => cases h; exact .free hhelper
  · next hhelper => cases h; exact .signal hhelper

theorem step_cases {l : CrtLabel} (h : s.step l = some s') : Step s l s' := by
  cases l with
  | sendConsoleChars pid m => cases h; exact .send pid m
  | kill =>
    obtain ⟨hkills, h⟩ := Option.ite_none_right_eq_some.1 h
    cases h
    exact .kill hkills
  | deliver => exact step_deliver h
  | iProcess => exact step_iProcess h
  | helper => exact step_helper h

end CrtState

end Rtx.Unix
