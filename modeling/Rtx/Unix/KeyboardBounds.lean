import Mathlib.Data.List.Forall2
import Rtx.Unix.Keyboard

/-!
# The bounds of the keyboard's buffers

The loop of the `keyboard` helper and `start_kb_i_process`, access by access: each read or write of
`kb_buf` is a step, and the steps of the two interleave in any order. What touches only a local or
an envelope goes with the step before it.

`kb_buf->length` never goes beyond the size of the buffer, and while the i-process copies it does
not shrink. A full buffer leaves no room for the NUL in the envelope: all writes are inside exactly
in those runs where the buffer is not full when the copying ends (`keyboard_bounds_iff`). A step of
the atomic model is a run of this one (`Atomic.step`).
-/

namespace Rtx.Unix

open Coldfire (Text)
open Transition

def msgEnvMsgSize : ℕ := 1024

/-! ## The code -/

/-- Where the helper stands. -/
inductive KbHelperPc
  /-- At `c = getchar()`. -/
  | getchar
  /-- At `kill(parent_pid, SIGUSR1)`. -/
  | kill
  /-- At `kb_buffer->kb_wait_flag = KB_FLAG_WAIT`. -/
  | wait
  /-- At `kb_buffer->length < KEYBOARD_BUF_SIZE`. -/
  | test (c : UInt8)
  /-- At the index of `kb_buffer->data[kb_buffer->length] = c`. -/
  | index (c : UInt8)
  /-- At the write of `kb_buffer->data[i]`. -/
  | store (c : UInt8) (i : ℕ)
  /-- At the read of `kb_buffer->length++`. -/
  | load
  /-- At the write of `kb_buffer->length++`, with the length read. -/
  | incr (n : ℕ)

/-- Where the i-process stands, with its locals. -/
inductive KbPc
  /-- Behind `k_i_process_exit`, or before the first run. -/
  | idle
  /-- At `k_receive_message`. -/
  | receive
  /-- At `i < kb_buf->length`. -/
  | test (message : Envelope) (i : ℕ)
  /-- At `message->msg[i] = kb_buf->data[i]`. -/
  | copy (message : Envelope) (i : ℕ)
  /-- At `kb_buf->kb_wait_flag = KB_FLAG_FREE`. -/
  | free (message : Envelope)
  /-- At `k_send_message`. -/
  | send (message : Envelope)
  /-- At `kb_buf->length = 0`. -/
  | reset

/-- An index at which an array is written. -/
inductive KbWrite
  | msg (i : ℕ)
  | data (i : ℕ)

/-- It is inside the array. -/
def KbWrite.InBounds : KbWrite → Prop
  | .msg i => i < msgEnvMsgSize
  | .data i => i < keyboardBufSize

/-- The mailbox of the i-process, `kb_buf`, where both stand, and, in the last two fields, what has
happened. -/
structure KbRun where
  recvMsgs : List Envelope
  data : ℕ → UInt8
  length : ℕ
  kbWaitFlag : KbFlag
  /-- `SIGUSR1` is pending. -/
  sigusr1 : Bool
  helper : KbHelperPc
  kb : KbPc
  sent : List Envelope
  writes : List KbWrite

inductive KbRunLabel
  /-- `getchar` returns. -/
  | typeChar (c : UInt8)
  /-- The next step of the helper. -/
  | helper
  | getConsoleChars (pid : ℤ) (m : Envelope)
  /-- `SIGUSR1` is delivered. -/
  | deliver
  /-- The next step of the i-process. -/
  | iProcess

namespace KbRun

def getchar (s : KbRun) (c : UInt8) : Option KbRun :=
  match s.helper with
  | .getchar => some { s with helper := if c = newline then .kill else .test c }
  | _ => none

def stepHelper (s : KbRun) : Option KbRun :=
  match s.helper with
  | .getchar => none
  | .kill => some { s with sigusr1 := true, helper := .wait }
  | .wait => some { s with kbWaitFlag := .wait, helper := .getchar }
  | .test c => some { s with helper := if s.length < keyboardBufSize then .index c else .getchar }
  | .index c => some { s with helper := .store c s.length }
  | .store c i => some { s with
      data := Function.update s.data i c
      writes := s.writes ++ [.data i]
      helper := .load }
  | .load => some { s with helper := .incr s.length }
  | .incr n => some { s with length := n + 1, helper := .getchar }

/-- What `k_get_console_chars` sends, while the i-process does not run. -/
def getConsoleChars (s : KbRun) (pid : ℤ) (m : Envelope) : Option KbRun :=
  match s.kb with
  | .idle => some { s with
      recvMsgs := s.recvMsgs ++
        [{ m with msgType := requestChar, sendPid := pid, destPid := kbIProcessPid }] }
  | _ => none

/-- The handler enters the i-process, which is not interrupted. -/
def deliver (s : KbRun) : Option KbRun :=
  match s.kb with
  | .idle => if s.sigusr1 then some { s with sigusr1 := false, kb := .receive } else none
  | _ => none

def stepIProcess (s : KbRun) : Option KbRun :=
  match s.kb with
  | .idle => none
  | .receive =>
    match s.recvMsgs with
    | message :: recvMsgs => some { s with recvMsgs := recvMsgs, kb := .test message 0 }
    | [] => some { s with kb := .reset }
  | .test message i =>
    if i < s.length then some { s with kb := .copy message i }
    else some { s with
      kb := .free { message with msg := Function.update message.msg i 0, msgType := consoleInput }
      writes := s.writes ++ [.msg i] }
  | .copy message i => some { s with
      kb := .test { message with msg := Function.update message.msg i (s.data i) } (i + 1)
      writes := s.writes ++ [.msg i] }
  | .free message => some { s with kbWaitFlag := .free, kb := .send message }
  | .send message => some { s with
      sent := s.sent ++ [{ message with sendPid := kbIProcessPid, destPid := message.sendPid }]
      kb := .reset }
  | .reset => some { s with length := 0, kb := .idle }

def step (s : KbRun) : KbRunLabel → Option KbRun
  | .typeChar c => s.getchar c
  | .helper => s.stepHelper
  | .getConsoleChars pid m => s.getConsoleChars pid m
  | .deliver => s.deliver
  | .iProcess => s.stepIProcess

/-- The helper has initialized the buffer, and no signal has come yet. -/
structure Started (s : KbRun) : Prop where
  length : s.length = 0
  sigusr1 : s.sigusr1 = false
  helper : s.helper = .getchar
  kb : s.kb = .idle
  writes : s.writes = []

/-- Every write so far was inside its array. -/
def InBounds (s : KbRun) : Prop := ∀ w ∈ s.writes, w.InBounds

/-- The buffer is not full when the i-process has copied what it holds. -/
def RoomLeft (s : KbRun) (l : KbRunLabel) : Prop :=
  ∀ message, l = .iProcess → s.kb = .test message s.length → s.length < keyboardBufSize

/-! ## Bounds -/

variable {s s' : KbRun} {l : KbRunLabel} {length length' : ℕ}

/-- What the helper knows of the length. The i-process may have emptied the buffer since it was
read. -/
def HelperFits (length : ℕ) : KbHelperPc → Prop
  | .index _ => length < keyboardBufSize
  | .store _ i => i < keyboardBufSize ∧ length < keyboardBufSize
  | .load => length < keyboardBufSize
  | .incr n => n < keyboardBufSize ∧ length ≤ n
  | _ => True

/-- What the i-process knows of it. -/
def KbFits (length : ℕ) : KbPc → Prop
  | .test _ i => i ≤ length
  | .copy _ i => i < length
  | _ => True

theorem HelperFits.zero {pc : KbHelperPc} (h : HelperFits length pc) : HelperFits 0 pc := by
  cases pc with
  | index c => exact Nat.zero_lt_of_lt h
  | store c i => exact ⟨h.1, Nat.zero_lt_of_lt h.2⟩
  | load => exact Nat.zero_lt_of_lt h
  | incr n => exact ⟨h.1, Nat.zero_le n⟩
  | _ => trivial

theorem KbFits.mono {pc : KbPc} (h : KbFits length pc) (hle : length ≤ length') :
    KbFits length' pc := by
  cases pc with
  | test message i => exact le_trans h hle
  | copy message i => exact lt_of_lt_of_le h hle
  | _ => trivial

/-- The bounds, with both programs anywhere. -/
structure Bounded (s : KbRun) : Prop where
  length : s.length ≤ keyboardBufSize
  helper : HelperFits s.length s.helper
  kb : KbFits s.length s.kb
  writes : s.InBounds

theorem Started.bounded (h : s.Started) : s.Bounded where
  length := by simp [h.length]
  helper := by simp [h.helper, HelperFits]
  kb := by simp [h.kb, KbFits]
  writes := by simp [InBounds, h.writes]

theorem InBounds.append {w : KbWrite} (h : s.InBounds) (hwrites : s'.writes = s.writes ++ [w])
    (hw : w.InBounds) : s'.InBounds := by
  intro w' hw'
  rw [hwrites] at hw'
  rcases List.mem_append.1 hw' with hold | hnew
  · exact h w' hold
  · rw [List.mem_singleton.1 hnew]
    exact hw

theorem Bounded.stepHelper (h : s.Bounded) (hstep : s.stepHelper = some s') : s'.Bounded := by
  have hfits := h.helper
  unfold KbRun.stepHelper at hstep
  cases hhelper : s.helper with
  | getchar => simp [hhelper] at hstep
  | kill =>
    simp only [hhelper, Option.some.injEq] at hstep
    subst hstep
    exact ⟨h.length, trivial, h.kb, h.writes⟩
  | wait =>
    simp only [hhelper, Option.some.injEq] at hstep
    subst hstep
    exact ⟨h.length, trivial, h.kb, h.writes⟩
  | test c =>
    simp only [hhelper, Option.some.injEq] at hstep
    subst hstep
    refine ⟨h.length, ?_, h.kb, h.writes⟩
    show HelperFits s.length (if s.length < keyboardBufSize then .index c else .getchar)
    split
    · assumption
    · trivial
  | index c =>
    simp only [hhelper, Option.some.injEq] at hstep
    subst hstep
    rw [hhelper] at hfits
    exact ⟨h.length, ⟨hfits, hfits⟩, h.kb, h.writes⟩
  | store c i =>
    simp only [hhelper, Option.some.injEq] at hstep
    subst hstep
    rw [hhelper] at hfits
    exact ⟨h.length, hfits.2, h.kb, h.writes.append rfl hfits.1⟩
  | load =>
    simp only [hhelper, Option.some.injEq] at hstep
    subst hstep
    rw [hhelper] at hfits
    exact ⟨h.length, ⟨hfits, le_rfl⟩, h.kb, h.writes⟩
  | incr n =>
    simp only [hhelper, Option.some.injEq] at hstep
    subst hstep
    rw [hhelper] at hfits
    exact ⟨hfits.1, trivial, h.kb.mono (Nat.le_succ_of_le hfits.2), h.writes⟩

/-- The i-process keeps the bounds, if there is room for the NUL. -/
theorem Bounded.stepIProcess (h : s.Bounded) (hroom : s.RoomLeft .iProcess)
    (hstep : s.stepIProcess = some s') : s'.Bounded := by
  have hfits := h.kb
  unfold KbRun.stepIProcess at hstep
  cases hkb : s.kb with
  | idle => simp [hkb] at hstep
  | receive =>
    simp only [hkb] at hstep
    cases hrecv : s.recvMsgs with
    | nil =>
      simp only [hrecv, Option.some.injEq] at hstep
      subst hstep
      exact ⟨h.length, h.helper, trivial, h.writes⟩
    | cons message recvMsgs =>
      simp only [hrecv, Option.some.injEq] at hstep
      subst hstep
      exact ⟨h.length, h.helper, Nat.zero_le _, h.writes⟩
  | test message i =>
    rw [hkb] at hfits
    simp only [hkb] at hstep
    split at hstep
    · next hlt =>
      cases hstep
      exact ⟨h.length, h.helper, hlt, h.writes⟩
    · next hge =>
      cases hstep
      have hi : i = s.length := le_antisymm hfits (not_lt.1 hge)
      rw [hi] at hkb
      exact ⟨h.length, h.helper, trivial, h.writes.append rfl (hi ▸ hroom message rfl hkb)⟩
  | copy message i =>
    simp only [hkb, Option.some.injEq] at hstep
    subst hstep
    rw [hkb] at hfits
    exact ⟨h.length, h.helper, hfits, h.writes.append rfl (lt_of_lt_of_le hfits h.length)⟩
  | free message =>
    simp only [hkb, Option.some.injEq] at hstep
    subst hstep
    exact ⟨h.length, h.helper, trivial, h.writes⟩
  | send message =>
    simp only [hkb, Option.some.injEq] at hstep
    subst hstep
    exact ⟨h.length, h.helper, trivial, h.writes⟩
  | reset =>
    simp only [hkb, Option.some.injEq] at hstep
    subst hstep
    exact ⟨Nat.zero_le _, h.helper.zero, trivial, h.writes⟩

theorem Bounded.step (h : s.Bounded) (hroom : s.RoomLeft l) (hstep : s.step l = some s') :
    s'.Bounded := by
  cases l with
  | typeChar c =>
    have hstep : s.getchar c = some s' := hstep
    unfold KbRun.getchar at hstep
    split at hstep
    · cases hstep
      refine ⟨h.length, ?_, h.kb, h.writes⟩
      show HelperFits s.length (if c = newline then .kill else .test c)
      split <;> trivial
    · contradiction
  | helper => exact h.stepHelper hstep
  | getConsoleChars pid m =>
    have hstep : s.getConsoleChars pid m = some s' := hstep
    unfold KbRun.getConsoleChars at hstep
    split at hstep
    · cases hstep
      exact ⟨h.length, h.helper, h.kb, h.writes⟩
    · contradiction
  | deliver =>
    have hstep : s.deliver = some s' := hstep
    unfold KbRun.deliver at hstep
    split at hstep
    · obtain ⟨-, hstep⟩ := Option.ite_none_right_eq_some.1 hstep
      cases hstep
      exact ⟨h.length, h.helper, trivial, h.writes⟩
    · contradiction
  | iProcess => exact h.stepIProcess hroom hstep

theorem step_terminate {message : Envelope} (hkb : s.kb = .test message s.length) :
    s.step .iProcess = some { s with
      kb := .free
        { message with msg := Function.update message.msg s.length 0, msgType := consoleInput }
      writes := s.writes ++ [.msg s.length] } := by
  simp only [step, KbRun.stepIProcess, hkb, lt_irrefl, if_false]

/-- With a full buffer the NUL is written behind the end. -/
theorem Bounded.overflows (h : s.Bounded) (hroom : ¬ s.RoomLeft l) (hstep : s.step l = some s') :
    ¬ s'.InBounds := by
  intro hbounds
  unfold RoomLeft at hroom
  push Not at hroom
  obtain ⟨message, rfl, hkb, hfull⟩ := hroom
  rw [step_terminate hkb, Option.some.injEq] at hstep
  have hlength : s.length = 1024 := le_antisymm h.length hfull
  have hwrite : KbWrite.msg s.length ∈ s'.writes := by
    rw [← hstep]
    exact List.mem_append_right _ List.mem_cons_self
  have hlt : s.length < msgEnvMsgSize := hbounds _ hwrite
  rw [hlength] at hlt
  exact lt_irrefl _ hlt

/-- In a run, all writes of both programs are inside their arrays exactly when the buffer is never
full at the end of the copying. -/
theorem keyboard_bounds_iff (hs : s.Started) (ls : List KbRunLabel) :
    Always step InBounds s ls ↔ Along step RoomLeft s ls := by
  apply always_iff_along_of_step (I := Bounded)
  · intro s l s' h hroom hstep
    exact h.step hroom hstep
  · intro s h
    exact h.writes
  · intro s l s' h hroom hstep
    exact h.overflows hroom hstep
  · exact hs.bounded

/-! ## The atomic model -/

/-- The console message with the first `n` bytes of the body as its text. -/
def toConsoleMsg (m : Envelope) (n : ℕ) : ConsoleMsg :=
  { destPid := m.destPid
    sendPid := m.sendPid
    msgType := m.msgType
    msg := (List.range n).map m.msg }

/-- A message, and its envelope; the text ends with a NUL. -/
def Carries (m : Envelope) (x : ConsoleMsg × Text) : Prop :=
  toConsoleMsg m x.1.msg.length = x.1 ∧ m.msg x.1.msg.length = 0

/-- Neither program is in the middle of a step of the atomic model. -/
structure Atomic (s : KbRun) (t : KbState) : Prop where
  helper : s.helper = .getchar
  kb : s.kb = .idle
  recvMsgs : s.recvMsgs.map (toConsoleMsg · 0) = t.recvMsgs.map fun m => { m with msg := [] }
  data : s.data = t.data
  length : s.length = t.length
  kbWaitFlag : s.kbWaitFlag = t.kbWaitFlag
  sigusr1 : s.sigusr1 = t.sigusr1
  sent : List.Forall₂ Carries s.sent t.delivered

variable {t t' : KbState}

/-- `s` behind the loop that copies, with the envelope `m`. -/
structure Copied (s s' : KbRun) (message m : Envelope) : Prop where
  state : ∃ writes, s' = { s with kb := .test m s.length, writes := writes }
  header : toConsoleMsg m 0 = toConsoleMsg message 0
  msg : ∀ i < s.length, m.msg i = s.data i

/-- With no step of the helper in between, the loop copies the buffer. -/
theorem exec_copy {message : Envelope} {i k : ℕ} (hkb : s.kb = .test message i)
    (hk : i + k = s.length) (hmsg : ∀ j < i, message.msg j = s.data j) :
    ∃ s' m, exec step s (List.replicate (2 * k) .iProcess) = some s' ∧ s.Copied s' message m := by
  induction k generalizing s message i with
  | zero =>
    obtain rfl : i = s.length := hk
    refine ⟨s, message, rfl, ⟨s.writes, ?_⟩, rfl, hmsg⟩
    rw [← hkb]
  | succ k ih =>
    have htest : s.step .iProcess = some { s with kb := .copy message i } := by
      show s.stepIProcess = _
      unfold stepIProcess
      simp only [hkb]
      exact if_pos (by omega)
    obtain ⟨s', m, hrun, hcopied⟩ := ih
      (s := { s with
        kb := .test { message with msg := Function.update message.msg i (s.data i) } (i + 1)
        writes := s.writes ++ [.msg i] }) rfl (show i + 1 + k = s.length by omega) (by
        intro j hj
        show Function.update message.msg i (s.data i) j = s.data j
        rcases Nat.lt_succ_iff_lt_or_eq.1 hj with hlt | rfl
        · rw [Function.update_of_ne hlt.ne, hmsg j hlt]
        · rw [Function.update_self])
    refine ⟨s', m, ?_, hcopied.state, hcopied.header, hcopied.msg⟩
    rw [Nat.mul_succ, List.replicate_succ, List.replicate_succ]
    exact exec_cons_eq_some.2 ⟨_, htest, exec_cons_eq_some.2 ⟨_, rfl, hrun⟩⟩

/-- What is sent behind the loop. -/
def answer (m : Envelope) (length : ℕ) : Envelope :=
  { destPid := m.sendPid
    sendPid := kbIProcessPid
    msgType := consoleInput
    msg := Function.update m.msg length 0 }

/-- Behind the loop the text is ended and sent, and the buffer is emptied. -/
theorem Copied.exec {message m : Envelope} (h : s.Copied s' message m) :
    ∃ writes, exec step s' (List.replicate 4 .iProcess) = some { s with
      length := 0
      kbWaitFlag := .free
      kb := .idle
      sent := s.sent ++ [answer m s.length]
      writes := writes } := by
  obtain ⟨writes, rfl⟩ := h.state
  refine ⟨writes ++ [.msg s.length], ?_⟩
  exact exec_cons_eq_some.2 ⟨_, step_terminate rfl, rfl⟩

theorem Copied.carries {message m : Envelope} (h : s.Copied s' message m) (hdata : s.data = t.data)
    (hlength : s.length = t.length) {request : ConsoleMsg}
    (hrequest : toConsoleMsg message 0 = { request with msg := [] }) (trigger : Text) :
    Carries (answer m s.length) (request.input t.text, trigger) := by
  have htext : (ConsoleMsg.input request t.text).msg = t.text := rfl
  have hsend : m.sendPid = request.sendPid :=
    congrArg ConsoleMsg.sendPid (h.header.trans hrequest)
  rw [Carries, htext, KbState.length_text, ← hlength]
  refine ⟨?_, Function.update_self ..⟩
  have hmsg : (List.range s.length).map (answer m s.length).msg = t.text := by
    rw [KbState.text, ← hlength, ← hdata]
    apply List.map_congr_left
    intro i hi
    have hlt := List.mem_range.1 hi
    exact (Function.update_of_ne hlt.ne ..).trans (h.msg i hlt)
  rw [toConsoleMsg, hmsg]
  show ConsoleMsg.mk m.sendPid kbIProcessPid consoleInput t.text = _
  rw [hsend]
  rfl

theorem Atomic.deliver (h : Atomic s t) (hpending : t.sigusr1 = true) :
    ∃ ls s', exec step s ls = some s' ∧
      Atomic s' { t.startKbIProcess with sigusr1 := false } := by
  have hdeliver : s.step .deliver = some { s with sigusr1 := false, kb := .receive } := by
    show s.deliver = _
    unfold KbRun.deliver
    simp only [h.kb, h.sigusr1, hpending, if_true]
  cases hrecv : t.recvMsgs with
  | nil =>
    have hnil : s.recvMsgs = [] := by simpa [hrecv] using h.recvMsgs
    have hreceive : KbRun.step { s with sigusr1 := false, kb := .receive } .iProcess =
        some { s with sigusr1 := false, kb := .reset } := by
      simp only [step, stepIProcess, hnil]
    refine ⟨[.deliver, .iProcess, .iProcess], _, exec_cons_eq_some.2 ⟨_, hdeliver,
      exec_cons_eq_some.2 ⟨_, hreceive, rfl⟩⟩, ?_⟩
    simp only [KbState.startKbIProcess, hrecv]
    exact ⟨h.helper, rfl, h.recvMsgs.trans (by rw [hrecv]), h.data, rfl, h.kbWaitFlag, rfl, h.sent⟩
  | cons request requests =>
    have hcons := h.recvMsgs
    rw [hrecv, List.map_cons, List.map_eq_cons_iff] at hcons
    obtain ⟨message, messages, hmessages, hrequest, hrest⟩ := hcons
    have hreceive : KbRun.step { s with sigusr1 := false, kb := .receive } .iProcess =
        some { s with sigusr1 := false, recvMsgs := messages, kb := .test message 0 } := by
      simp only [step, stepIProcess, hmessages]
    obtain ⟨s', m, hrun, hcopied⟩ := exec_copy
      (s := { s with sigusr1 := false, recvMsgs := messages, kb := .test message 0 })
      rfl (Nat.zero_add s.length) (fun j hj => absurd hj (Nat.not_lt_zero j))
    obtain ⟨writes, hend⟩ := hcopied.exec
    refine ⟨_, _, exec_cons_eq_some.2 ⟨_, hdeliver, exec_cons_eq_some.2 ⟨_, hreceive,
      exec_trans hrun hend⟩⟩, ?_⟩
    simp only [KbState.startKbIProcess, hrecv]
    exact ⟨h.helper, rfl, hrest, h.data, rfl, rfl, rfl,
      List.rel_append h.sent (.cons (hcopied.carries h.data h.length hrequest _) .nil)⟩

/-- The steps of the helper for a character that goes into the buffer. -/
def charSteps (c : UInt8) : List KbRunLabel :=
  [.typeChar c, .helper, .helper, .helper, .helper, .helper]

/-- The steps for a newline. -/
def newlineSteps : List KbRunLabel := [.typeChar newline, .helper, .helper]

theorem exec_charSteps {c : UInt8} (hc : c ≠ newline) (hhelper : s.helper = .getchar)
    (hroom : s.length < keyboardBufSize) :
    exec step s (charSteps c) = some { s with
      data := Function.update s.data s.length c
      length := s.length + 1
      helper := .getchar
      writes := s.writes ++ [.data s.length] } := by
  have htype : s.step (.typeChar c) = some { s with helper := .test c } := by
    simp only [step, getchar, hhelper, hc, if_false]
  have htest : KbRun.step { s with helper := .test c } .helper =
      some { s with helper := .index c } := by
    simp only [step, stepHelper, hroom, if_true]
  exact exec_cons_eq_some.2 ⟨_, htype, exec_cons_eq_some.2 ⟨_, htest, rfl⟩⟩

theorem exec_newlineSteps (hhelper : s.helper = .getchar) :
    exec step s newlineSteps = some { s with
      sigusr1 := true
      kbWaitFlag := .wait
      helper := .getchar } := by
  have htype : s.step (.typeChar newline) = some { s with helper := .kill } := by
    simp only [step, getchar, hhelper, if_true]
  exact exec_cons_eq_some.2 ⟨_, htype, rfl⟩

theorem Atomic.typeChar (h : Atomic s t) (c : UInt8) :
    ∃ ls s', exec step s ls = some s' ∧ Atomic s' (t.typeChar c) := by
  unfold KbState.typeChar
  split
  · next hc =>
    rw [hc]
    exact ⟨newlineSteps, _, exec_newlineSteps h.helper,
      rfl, h.kb, h.recvMsgs, h.data, h.length, rfl, rfl, h.sent⟩
  · next hc =>
    split
    · next hlt =>
      exact ⟨charSteps c, _, exec_charSteps hc h.helper (h.length ▸ hlt), rfl, h.kb, h.recvMsgs,
        by rw [← h.data, ← h.length], congrArg (· + 1) h.length, h.kbWaitFlag, h.sigusr1, h.sent⟩
    · next hge =>
      have htype : s.step (.typeChar c) = some { s with helper := .test c } := by
        simp only [step, getchar, h.helper, hc, if_false]
      have htest : KbRun.step { s with helper := .test c } .helper =
          some { s with helper := .getchar } := by
        simp only [step, stepHelper, h.length, hge, if_false]
      exact ⟨[.typeChar c, .helper], _,
        exec_cons_eq_some.2 ⟨_, htype, exec_cons_eq_some.2 ⟨_, htest, rfl⟩⟩,
        rfl, h.kb, h.recvMsgs, h.data, h.length, h.kbWaitFlag, h.sigusr1, h.sent⟩

/-- A step of the atomic model is a run of this one. -/
theorem Atomic.step {l : KbLabel} (h : Atomic s t) (hstep : t.step l = some t') :
    ∃ ls s', exec step s ls = some s' ∧ Atomic s' t' := by
  cases l with
  | typeChar c =>
    cases hstep
    exact h.typeChar c
  | getConsoleChars pid m =>
    cases hstep
    have hsend : s.step (.getConsoleChars pid ⟨m.destPid, m.sendPid, m.msgType, fun _ => 0⟩) =
        some { s with
          recvMsgs := s.recvMsgs ++ [⟨kbIProcessPid, pid, requestChar, fun _ => 0⟩] } := by
      simp only [step, getConsoleChars, h.kb]
    refine ⟨[_], _, exec_cons_eq_some.2 ⟨_, hsend, rfl⟩, ?_⟩
    refine ⟨h.helper, h.kb, ?_, h.data, h.length, h.kbWaitFlag, h.sigusr1, h.sent⟩
    rw [List.map_append, List.map_append, h.recvMsgs]
    rfl
  | deliver =>
    obtain ⟨hpending, hstep⟩ := Option.ite_none_right_eq_some.1 hstep
    cases hstep
    exact h.deliver hpending

/-! ## A full buffer -/

/-- A line without its newline. -/
def lineSteps (c : UInt8) (n : ℕ) : List KbRunLabel := (List.replicate n (charSteps c)).flatten

theorem exec_lineSteps {c : UInt8} (hc : c ≠ newline) (hhelper : s.helper = .getchar) {n : ℕ}
    (hroom : s.length + n ≤ keyboardBufSize) :
    ∃ data writes, exec step s (lineSteps c n) = some { s with
      data := data
      length := s.length + n
      helper := .getchar
      writes := writes } := by
  induction n generalizing s with
  | zero =>
    refine ⟨s.data, s.writes, ?_⟩
    rw [← hhelper]
    rfl
  | succ n ih =>
    obtain ⟨data, writes, hrun⟩ := ih
      (s := { s with
        data := Function.update s.data s.length c
        length := s.length + 1
        helper := .getchar
        writes := s.writes ++ [.data s.length] }) rfl (by
        show s.length + 1 + n ≤ keyboardBufSize
        omega)
    refine ⟨data, writes, ?_⟩
    have hfirst := exec_charSteps hc hhelper (show s.length < keyboardBufSize by omega)
    rw [lineSteps, List.replicate_succ, List.flatten_cons]
    have hall := exec_trans hfirst hrun
    rw [Nat.add_assoc, Nat.add_comm 1] at hall
    exact hall

/-- Behind the initialization of the helper. -/
def start : KbRun where
  recvMsgs := []
  data _ := 0
  length := 0
  kbWaitFlag := .free
  sigusr1 := false
  helper := .getchar
  kb := .idle
  sent := []
  writes := []

theorem started_start : start.Started := ⟨rfl, rfl, rfl, rfl, rfl⟩

/-- The CCI asks for a line, `n` characters are typed, and a newline. -/
def longLine (n : ℕ) : List KbRunLabel :=
  .getConsoleChars 4 ⟨0, 0, 0, fun _ => 0⟩ :: (lineSteps 97 n ++ (newlineSteps ++
    (.deliver :: .iProcess :: (List.replicate (2 * n) .iProcess ++ [.iProcess]))))

theorem exec_longLine {n : ℕ} (hn : n ≤ keyboardBufSize) :
    ∃ s, exec step start (longLine n) = some s ∧ .msg n ∈ s.writes := by
  obtain ⟨data, writes, hline⟩ := exec_lineSteps
    (s := { start with recvMsgs := [⟨kbIProcessPid, 4, requestChar, fun _ => 0⟩] })
    (show (97 : UInt8) ≠ newline by decide) rfl ((Nat.zero_add n).le.trans hn)
  obtain ⟨s', m, hcopy, hcopied⟩ := exec_copy
    (s := { start with
      data := data
      length := 0 + n
      kbWaitFlag := .wait
      kb := .test ⟨kbIProcessPid, 4, requestChar, fun _ => 0⟩ 0
      writes := writes })
    (k := n) rfl rfl fun j hj => absurd hj (Nat.not_lt_zero j)
  obtain ⟨writes', rfl⟩ := hcopied.state
  refine ⟨_, exec_cons_eq_some.2 ⟨_, rfl, exec_trans hline (exec_trans (exec_newlineSteps rfl)
    (exec_cons_eq_some.2 ⟨_, rfl, exec_cons_eq_some.2 ⟨_, rfl, exec_trans hcopy
      (exec_cons_eq_some.2 ⟨_, step_terminate rfl, rfl⟩)⟩⟩))⟩, ?_⟩
  show KbWrite.msg n ∈ writes' ++ [.msg (0 + n)]
  rw [Nat.zero_add]
  exact List.mem_concat_self

/-- A line that fills the buffer. -/
theorem keyboard_overflows :
    ∃ s, exec step start (longLine 1024) = some s ∧ .msg 1024 ∈ s.writes ∧ ¬ s.InBounds := by
  obtain ⟨s, hrun, hwrite⟩ := exec_longLine (le_refl keyboardBufSize)
  refine ⟨s, hrun, hwrite, fun hbounds => ?_⟩
  exact absurd (hbounds _ hwrite) (lt_irrefl 1024)

/-- A short line. -/
theorem keyboard_bounds_short :
    Always step InBounds start (longLine 2) ↔ Along step RoomLeft start (longLine 2) :=
  keyboard_bounds_iff started_start (longLine 2)

end KbRun

end Rtx.Unix
