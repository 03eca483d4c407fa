import Mathlib.Data.List.DropRight
import Mathlib.Logic.Function.Basic
import Rtx.Lib.Run
import Rtx.Unix.Crt

/-!
# The keyboard of the Unix port

The loop of the `keyboard` helper, one character a step, and `start_kb_i_process`, one run for each
`SIGUSR1` that is delivered. At most one signal is pending. They share `kb_buf`; its flag is
written by both, and read by neither.

The text of a `CONSOLE_INPUT` is the line before the newline that signalled, as long as nothing is
typed until the run.
-/

namespace Rtx.Unix

open Coldfire (Text cstr)
open Transition

def keyboardBufSize : ℕ := 1024
def kbIProcessPid : ℤ := 0
def consoleInput : ℤ := -3
def requestChar : ℤ := -4

def newline : UInt8 := 10

/-- `kb_wait_flag`. -/
inductive KbFlag
  | wait
  | free
  deriving DecidableEq

/-- What `k_get_console_chars` of the process `pid` sends to the keyboard i-process. -/
def ConsoleMsg.request (m : ConsoleMsg) (pid : ℤ) : ConsoleMsg :=
  { m with msgType := requestChar }.sent pid kbIProcessPid

/-- What the keyboard i-process sends back. -/
def ConsoleMsg.input (m : ConsoleMsg) (text : Text) : ConsoleMsg :=
  { m with msg := text, msgType := consoleInput }.sent kbIProcessPid m.sendPid

/-- The mailbox of the i-process, `kb_buf`, and, in the last three fields, what has happened. -/
structure KbState where
  recvMsgs : List ConsoleMsg
  data : ℕ → UInt8
  length : ℕ
  kbWaitFlag : KbFlag
  /-- `SIGUSR1` is pending. -/
  sigusr1 : Bool
  typed : Text
  /-- What had been typed before the newline whose signal is, or was last, pending. -/
  trigger : Text
  /-- What the i-process has sent, and for which signal. -/
  delivered : List (ConsoleMsg × Text)

inductive KbLabel
  | typeChar (c : UInt8)
  | getConsoleChars (pid : ℤ) (m : ConsoleMsg)
  /-- `SIGUSR1` is delivered, and the i-process runs. -/
  | deliver
  deriving DecidableEq

namespace KbState

/-- What the loop of the i-process copies. The NUL behind it goes into the body, or, behind a full
buffer, past its end, and what that overwrites is left out. -/
def text (s : KbState) : Text := (List.range s.length).map s.data

/-- The loop of the helper, for the character `c`. -/
def typeChar (s : KbState) (c : UInt8) : KbState :=
  if c = newline then
    { s with
      sigusr1 := true
      kbWaitFlag := .wait
      typed := s.typed ++ [c]
      trigger := if s.sigusr1 then s.trigger else s.typed }
  else if s.length < keyboardBufSize then
    { s with
      data := Function.update s.data s.length c
      length := s.length + 1
      typed := s.typed ++ [c] }
  else { s with typed := s.typed ++ [c] }

/-- A run of `start_kb_i_process`. -/
def startKbIProcess (s : KbState) : KbState :=
  match s.recvMsgs with
  | message :: recvMsgs =>
    { s with
      recvMsgs := recvMsgs
      kbWaitFlag := .free
      delivered := s.delivered ++ [(message.input s.text, s.trigger)]
      length := 0 }
  | [] => { s with length := 0 }

def step (s : KbState) : KbLabel → Option KbState
  | .typeChar c => some (s.typeChar c)
  | .getConsoleChars pid m => some { s with recvMsgs := s.recvMsgs ++ [m.request pid] }
  | .deliver => if s.sigusr1 then some { s.startKbIProcess with sigusr1 := false } else none

/-- The helper has initialized the buffer. -/
structure Started (s : KbState) : Prop where
  recvMsgs : s.recvMsgs = []
  length : s.length = 0
  sigusr1 : s.sigusr1 = false
  typed : s.typed = []
  delivered : s.delivered = []

/-! ## Lines -/

/-- The characters behind the last newline. -/
def lastLine (typed : Text) : Text := typed.rtakeWhile (· ≠ newline)

@[simp] theorem lastLine_newline (typed : Text) : lastLine (typed ++ [newline]) = [] :=
  List.rtakeWhile_concat_neg _ _ _ (by simp)

theorem lastLine_concat {c : UInt8} (hc : c ≠ newline) (typed : Text) :
    lastLine (typed ++ [c]) = lastLine typed ++ [c] :=
  List.rtakeWhile_concat_pos _ _ _ (by simpa using hc)

/-- Each text sent is what was typed between two newlines, the second of which has led to its
run; so it holds nothing that was typed later, and no second line. -/
def Unmerged (s : KbState) : Prop :=
  ∀ x ∈ s.delivered, x.2 ++ [newline] <+: s.typed ∧
    x.1.msg = (lastLine x.2).take keyboardBufSize

/-- A request is there when the i-process runs. -/
def Requested (s : KbState) : KbLabel → Prop
  | .deliver => s.recvMsgs ≠ []
  | _ => True

/-- A request is there, and no character but a newline is typed while a signal is pending. -/
def Calm (s : KbState) : KbLabel → Prop
  | .typeChar c => c ≠ newline → s.sigusr1 = false
  | .deliver => s.recvMsgs ≠ []
  | _ => True

variable {s s' : KbState} {l : KbLabel}

/-- The buffer holds the line that is typed, or the one that has signalled; then none has begun. -/
structure Lined (s : KbState) : Prop where
  current : s.sigusr1 = false → s.text = (lastLine s.typed).take keyboardBufSize
  signalled : s.sigusr1 = true → s.text = (lastLine s.trigger).take keyboardBufSize
  ended : s.sigusr1 = true → lastLine s.typed = []
  trigger : s.sigusr1 = true → s.trigger ++ [newline] <+: s.typed
  delivered : s.Unmerged

@[simp] theorem length_text : s.text.length = s.length := by
  simp [text]

theorem text_update (c : UInt8) :
    ({ s with data := Function.update s.data s.length c, length := s.length + 1 } : KbState).text =
      s.text ++ [c] := by
  simp only [text, List.range_succ, List.map_append, List.map_singleton, Function.update_self]
  congr 1
  apply List.map_congr_left
  intro i hi
  exact Function.update_of_ne (List.mem_range.1 hi).ne _ _

theorem Unmerged.typed (h : s.Unmerged) (hdelivered : s'.delivered = s.delivered)
    (htyped : s.typed <+: s'.typed) : s'.Unmerged := by
  intro x hx
  rw [hdelivered] at hx
  exact ⟨(h x hx).1.trans htyped, (h x hx).2⟩

theorem Started.lined (h : s.Started) : s.Lined where
  current _ := by simp [text, h.length, h.typed, lastLine]
  signalled hpending := by simp [h.sigusr1] at hpending
  ended hpending := by simp [h.sigusr1] at hpending
  trigger hpending := by simp [h.sigusr1] at hpending
  delivered := by simp [Unmerged, h.delivered]

/-- A newline ends the line, or comes right behind another one. -/
theorem Lined.newline (h : s.Lined) : (s.typeChar newline).Lined := by
  have htyped : s.typed <+: s.typed ++ [Unix.newline] := List.prefix_append _ _
  rw [typeChar, if_pos rfl]
  refine ⟨nofun, fun _ => ?_, fun _ => lastLine_newline _, fun _ => ?_,
    h.delivered.typed rfl htyped⟩
  · cases hpending : s.sigusr1 with
    | true => simpa [hpending, text] using h.signalled hpending
    | false => simpa [hpending, text] using h.current hpending
  · cases hpending : s.sigusr1 with
    | true => simpa [hpending] using (h.trigger hpending).trans htyped
    | false => simp

/-- Another character goes to the line, up to the size of the buffer. -/
theorem Lined.char {c : UInt8} (h : s.Lined) (hc : c ≠ Unix.newline)
    (hpending : s.sigusr1 = false) : (s.typeChar c).Lined := by
  have htyped : s.typed <+: s.typed ++ [c] := List.prefix_append _ _
  have htext := h.current hpending
  have hlength : s.length = min keyboardBufSize (lastLine s.typed).length := by
    rw [← length_text, htext, List.length_take]
  rw [typeChar, if_neg hc]
  split
  · next hlt =>
    have hline : (lastLine s.typed).length < keyboardBufSize := by omega
    refine ⟨fun _ => ?_, ?_, ?_, ?_, h.delivered.typed rfl htyped⟩
    · show KbState.text _ = _
      rw [lastLine_concat hc, List.take_of_length_le (by simpa using Nat.succ_le_of_lt hline)]
      rw [List.take_of_length_le hline.le] at htext
      rw [← htext]
      exact text_update c
    all_goals
      intro htrue
      rw [show s.sigusr1 = true from htrue] at hpending
      contradiction
  · next hge =>
    have hline : keyboardBufSize ≤ (lastLine s.typed).length := by omega
    refine ⟨fun _ => ?_, ?_, ?_, ?_, h.delivered.typed rfl htyped⟩
    · show s.text = (lastLine (s.typed ++ [c])).take keyboardBufSize
      rw [lastLine_concat hc, List.take_append_of_le_length hline]
      exact htext
    all_goals
      intro htrue
      rw [show s.sigusr1 = true from htrue] at hpending
      contradiction

theorem Lined.run (h : s.Lined) (hpending : s.sigusr1 = true) :
    ({ s.startKbIProcess with sigusr1 := false } : KbState).Lined := by
  refine ⟨fun _ => ?_, nofun, nofun, nofun, ?_⟩
  · unfold startKbIProcess
    split <;> simp [text, h.ended hpending]
  · unfold startKbIProcess
    split
    · intro x hx
      obtain hx | hx := List.mem_append.1 hx
      · exact h.delivered x hx
      · obtain rfl := List.mem_singleton.1 hx
        exact ⟨h.trigger hpending, h.signalled hpending⟩
    · exact h.delivered

theorem Lined.step (h : s.Lined) (hok : Calm s l) (hstep : s.step l = some s') : s'.Lined := by
  cases l with
  | typeChar c =>
    cases hstep
    by_cases hc : c = Unix.newline
    · rw [hc]
      exact h.newline
    · exact h.char hc (hok hc)
  | getConsoleChars pid m =>
    cases hstep
    exact ⟨h.current, h.signalled, h.ended, h.trigger, h.delivered⟩
  | deliver =>
    obtain ⟨hpending, hstep⟩ := Option.ite_none_right_eq_some.1 hstep
    cases hstep
    exact h.run hpending

/-- A character typed while a signal is pending, with room in the buffer, goes to the line that has
signalled. -/
theorem Lined.merges {c : UInt8} (h : s.Lined) (hpending : s.sigusr1 = true)
    (hc : c ≠ Unix.newline) (hroom : s.length < keyboardBufSize) (hrequest : s.recvMsgs ≠ []) :
    ¬ (s.typeChar c).startKbIProcess.Unmerged := by
  intro hunmerged
  obtain ⟨message, recvMsgs, hrecv⟩ := List.exists_cons_of_ne_nil hrequest
  rw [typeChar, if_neg hc, if_pos hroom, startKbIProcess] at hunmerged
  simp only [hrecv] at hunmerged
  obtain ⟨-, hmsg⟩ := hunmerged _ List.mem_concat_self
  have htext : s.text ++ [c] = s.text := by
    rw [← text_update, h.signalled hpending]
    exact hmsg
  simp at htext

theorem step_deliver (hpending : s.sigusr1 = true) :
    s.step .deliver = some { s.startKbIProcess with sigusr1 := false } :=
  if_pos hpending

/-- What is typed up to the size of the buffer is appended to the line and to the text. -/
theorem exec_typeChar {rest : Text} (hrest : Unix.newline ∉ rest)
    (hroom : s.length + rest.length ≤ keyboardBufSize) :
    ∃ s', exec step s (rest.map .typeChar) = some s' ∧ s'.text = s.text ++ rest ∧
      lastLine s'.typed = lastLine s.typed ++ rest ∧ s'.sigusr1 = s.sigusr1 ∧
      s'.recvMsgs = s.recvMsgs := by
  induction rest generalizing s with
  | nil => exact ⟨s, rfl, by simp⟩
  | cons c rest ih =>
    rw [List.length_cons] at hroom
    have hc : c ≠ Unix.newline := fun h => hrest (h ▸ List.mem_cons_self)
    have hlt : s.length < keyboardBufSize := by omega
    have htype : s.typeChar c = { s with
        data := Function.update s.data s.length c
        length := s.length + 1
        typed := s.typed ++ [c] } := by
      rw [typeChar, if_neg hc, if_pos hlt]
    obtain ⟨s', hexec, htext, hline, hpending, hrecv⟩ := ih (s := s.typeChar c)
      (fun h => hrest (List.mem_cons_of_mem c h)) (by simp only [htype]; omega)
    refine ⟨s', hexec, ?_, ?_, by rw [hpending, htype], by rw [hrecv, htype]⟩
    · have hchar : (s.typeChar c).text = s.text ++ [c] := by
        rw [htype]
        exact text_update c
      rw [htext, hchar, List.append_assoc, List.singleton_append]
    · rw [hline, htype, lastLine_concat hc, List.append_assoc, List.singleton_append]

/-- With a full buffer it is lost: it is missing in the text of the next line. -/
theorem Lined.drops {c : UInt8} {rest : Text} {m₁ m₂ : ConsoleMsg} {recvMsgs : List ConsoleMsg}
    (h : s.Lined) (hpending : s.sigusr1 = true) (hc : c ≠ Unix.newline)
    (hfull : s.length = keyboardBufSize) (hrequests : s.recvMsgs = m₁ :: m₂ :: recvMsgs)
    (hrest : Unix.newline ∉ rest) (hroom : rest.length < keyboardBufSize) :
    ∃ s', exec KbState.step s ([.typeChar c, .deliver] ++ rest.map .typeChar ++
      [.typeChar Unix.newline, .deliver]) = some s' ∧ ¬ s'.Unmerged := by
  -- The first run empties the buffer, and the character is in no text.
  obtain ⟨t, ht, htext, hline, hpending', hrecv⟩ :
      ∃ t, exec KbState.step s [.typeChar c, .deliver] = some t ∧ t.text = [] ∧
        lastLine t.typed = [c] ∧ t.sigusr1 = false ∧ t.recvMsgs = m₂ :: recvMsgs := by
    have htype : s.typeChar c = { s with typed := s.typed ++ [c] } := by
      rw [typeChar, if_neg hc, if_neg (by omega)]
    refine ⟨{ (s.typeChar c).startKbIProcess with sigusr1 := false }, ?_, ?_⟩
    · have hpending₁ : (s.typeChar c).sigusr1 = true := by rw [htype, hpending]
      exact exec_cons_eq_some.2 ⟨_, rfl, exec_cons_eq_some.2 ⟨_, step_deliver hpending₁, rfl⟩⟩
    · simp [htype, startKbIProcess, hrequests, text, lastLine_concat hc, h.ended hpending]
  have hlength : t.length = 0 := by rw [← length_text, htext, List.length_nil]
  obtain ⟨u, hu, hutext, huline, hupending, hurecv⟩ := exec_typeChar (s := t) hrest (by omega)
  rw [htext, List.nil_append] at hutext
  rw [hline, List.singleton_append] at huline
  have hnewline : (u.typeChar Unix.newline).text = rest ∧
      (u.typeChar Unix.newline).trigger = u.typed ∧
      (u.typeChar Unix.newline).recvMsgs = m₂ :: recvMsgs ∧
      (u.typeChar Unix.newline).sigusr1 = true := by
    rw [typeChar, if_pos rfl, hupending, hpending', hurecv, hrecv]
    exact ⟨hutext, rfl, rfl, rfl⟩
  obtain ⟨hntext, htrigger, hnrecv, hnpending⟩ := hnewline
  refine ⟨{ (u.typeChar Unix.newline).startKbIProcess with sigusr1 := false }, ?_,
    fun hunmerged => ?_⟩
  · refine exec_trans (exec_trans ht hu) ?_
    exact exec_cons_eq_some.2 ⟨_, rfl, exec_cons_eq_some.2 ⟨_, step_deliver hnpending, rfl⟩⟩
  · rw [startKbIProcess, hnrecv] at hunmerged
    obtain ⟨-, hmsg⟩ := hunmerged _ List.mem_concat_self
    have hlen := congrArg List.length hmsg
    simp [ConsoleMsg.input, ConsoleMsg.sent, hntext, htrigger, huline] at hlen
    omega

/-- In a run where nothing but newlines is typed while a signal is pending, lines are not
merged. -/
theorem lines_unmerged (h : Reach step Started Calm s) : s.Unmerged := by
  have hinv : s.Lined := by
    apply h.invariant
    · intro s hs
      exact hs.lined
    · intro s l s' _ hs hok hstep
      exact hs.step hok hstep
  exact hinv.delivered

instance (s : KbState) (l : KbLabel) : Decidable (Requested s l) := by
  cases l <;> unfold Requested <;> infer_instance

instance (s : KbState) (l : KbLabel) : Decidable (Calm s l) := by
  cases l <;> unfold Calm <;> infer_instance

/-- Behind the initialization of the helper. -/
def started : KbState where
  recvMsgs := []
  data _ := 0
  length := 0
  kbWaitFlag := .free
  sigusr1 := false
  typed := []
  trigger := []
  delivered := []

theorem started_started : started.Started := ⟨rfl, rfl, rfl, rfl, rfl⟩

/-- The CCI asks for a line. -/
def cciRequest : KbLabel := .getConsoleChars 4 ⟨0, 0, 0, []⟩

/-- Two lines, each one read before the next is typed. -/
def twoLines : List KbLabel :=
  [cciRequest, cciRequest] ++ (cstr "ps").map .typeChar ++ [.typeChar newline, .deliver] ++
    (cstr "cd").map .typeChar ++ [.typeChar newline, .deliver]

theorem lines_unmerged_twoLines :
    ∃ s, Reach step Started Calm s ∧
      s.delivered.map (fun x => x.1.msg) = [cstr "ps", cstr "cd"] ∧ s.Unmerged := by
  have hrun : (exec (guarded step Calm) started twoLines).any (fun s =>
      decide (s.delivered.map (fun x => x.1.msg) = [cstr "ps", cstr "cd"])) = true := by
    decide +kernel
  obtain ⟨s, hexec, hs⟩ := (Option.any_eq_true ..).1 hrun
  have hreach := (Reach.init started_started).guarded hexec
  exact ⟨s, hreach, of_decide_eq_true hs, lines_unmerged hreach⟩

/-- The second line is typed before the run for the first. -/
def typedAhead : List KbLabel :=
  cciRequest :: (cstr "ps").map .typeChar ++ [.typeChar newline] ++ (cstr "cd").map .typeChar ++
    [.typeChar newline, .deliver]

theorem lines_merged : ¬ ∀ s, Reach step Started Requested s → s.Unmerged := by
  intro h
  have hrun : (exec (guarded step Requested) started typedAhead).any (fun s =>
      decide (s.delivered.map (fun x => (x.1.msg, x.2)) = [(cstr "pscd", cstr "ps")])) = true := by
    decide +kernel
  obtain ⟨s, hexec, hs⟩ := (Option.any_eq_true ..).1 hrun
  have hreach := (Reach.init started_started).guarded hexec
  obtain ⟨x, hx, heq⟩ : ∃ x ∈ s.delivered, (x.1.msg, x.2) = (cstr "pscd", cstr "ps") := by
    rw [← List.mem_map, of_decide_eq_true hs]
    exact List.mem_singleton.2 rfl
  obtain ⟨hmsg, htrigger⟩ := Prod.mk.inj heq
  have hline := (h s hreach x hx).2
  rw [hmsg, htrigger] at hline
  exact absurd hline (by decide)

end KbState

end Rtx.Unix
