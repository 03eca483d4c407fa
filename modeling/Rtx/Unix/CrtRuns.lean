import Rtx.Lib.Run
import Rtx.Unix.Crt

/-!
# The CRT does not stall, and acknowledges once

While a message is left somewhere, the flag is set, a run goes on, or a signal is on its way
(`Live`). Every step but a `send_console_chars` uses up some of the work that is left (`work`), so
the output drains.

What is acknowledged is what was accepted and displayed, but for `prev_msg` (`Ordered`), as long as
`prev_msg` is not overwritten. It is, where the helper sets the flag free between the two tests of
one run.
-/

namespace Rtx.Unix.CrtState

open Transition Coldfire

variable {s₀ s s' : CrtState} {l : CrtLabel}

/-! ## No stall -/

/-- `SIGUSR2` is pending, or about to be sent. -/
def Signalled (s : CrtState) : Prop := s.sigusr2 = true ∨ 0 < s.kills ∨ s.helper = .kill

/-- No message is left. -/
structure Drained (s : CrtState) : Prop where
  recvMsgs : s.recvMsgs = []
  displayQueue : s.displayQueue = []
  prevMsg : s.prevMsg = none

/-- What a run of the i-process still looks after, where it stands at `crt`. -/
def Attended (s : CrtState) : CrtPc → Prop
  | .start | .idle => s.Drained
  | .ack => True
  | .receive => s.prevMsg = none
  | .display => s.prevMsg = none ∧ (s.displayQueue = [] → s.recvMsgs = [])

/-- The helper prints only what is there to print, and messages are left only where somebody will
see to them. -/
structure Live (s : CrtState) : Prop where
  printing : s.helper = .print ∨ s.helper = .free → s.flag = .wait
  attended : s.flag = .wait ∨ s.Signalled ∨ s.Attended s.crt
  start : s.crt = .start → s.displayQueue = [] ∧ s.prevMsg = none

/-- The i-process does not run for the first time while the helper prints what an earlier session
has left in the file. -/
def FirstRun (s : CrtState) : CrtLabel → Prop
  | .deliver => s.crt = .start → s.helper ≠ .print ∧ s.helper ≠ .free
  | _ => True

theorem Booted.live (h : s.Booted) : s.Live where
  printing hhelper := by rw [h.helper] at hhelper; simp at hhelper
  attended := by
    rw [h.crt]
    exact .inr (.inr ⟨h.recvMsgs, h.displayQueue, h.prevMsg⟩)
  start _ := ⟨h.displayQueue, h.prevMsg⟩

theorem Step.live (hstep : Step s l s') (h : s.Live) (hok : FirstRun s l) : s'.Live := by
  obtain ⟨hprinting, hattended, hstart⟩ := h
  cases hstep with
  | send pid m => exact ⟨hprinting, .inr (.inl (.inr (.inl (Nat.succ_pos _)))), hstart⟩
  | kill hkills => exact ⟨hprinting, .inr (.inl (.inl rfl)), hstart⟩
  | first hpending hcrt =>
    refine ⟨fun hhelper => ?_, .inr (.inr trivial), fun hcrt => by contradiction⟩
    obtain ⟨hprint, hfree⟩ := hok hcrt
    obtain hhelper | hhelper := hhelper <;> contradiction
  | next hpending hcrt => exact ⟨hprinting, .inr (.inr trivial), fun hcrt => by contradiction⟩
  | acked hcrt hprev hflag => exact ⟨hprinting, .inr (.inr rfl), fun hcrt => by contradiction⟩
  | unacked hcrt hnot =>
    refine ⟨hprinting, ?_, fun hcrt => by contradiction⟩
    obtain hprev | hflag := hnot
    · exact .inr (.inr hprev)
    · exact .inl hflag
  | received hcrt hrecv =>
    refine ⟨hprinting, ?_, fun hcrt => by contradiction⟩
    obtain hflag | hsignal | hattended := hattended
    · exact .inl hflag
    · exact .inr (.inl hsignal)
    · rw [hcrt] at hattended
      exact .inr (.inr ⟨hattended, fun hqueue => by simp at hqueue⟩)
  | noMessage hcrt hrecv =>
    refine ⟨hprinting, ?_, fun hcrt => by contradiction⟩
    obtain hflag | hsignal | hattended := hattended
    · exact .inl hflag
    · exact .inr (.inl hsignal)
    · rw [hcrt] at hattended
      exact .inr (.inr ⟨hattended, fun _ => hrecv⟩)
  | displayed hcrt hflag hqueue => exact ⟨fun _ => rfl, .inl rfl, fun hcrt => by contradiction⟩
  | notDisplayed hcrt hnot =>
    refine ⟨hprinting, ?_, fun hcrt => by contradiction⟩
    obtain hflag | hsignal | hattended := hattended
    · exact .inl hflag
    · exact .inr (.inl hsignal)
    · rw [hcrt] at hattended
      obtain ⟨hprev, hempty⟩ := hattended
      obtain hflag | hqueue := hnot
      · exact .inl hflag
      · exact .inr (.inr ⟨hempty hqueue, hqueue, hprev⟩)
  | poll hhelper hflag => exact ⟨fun _ => hflag, .inl hflag, hstart⟩
  | print hhelper =>
    have hflag : s.flag = .wait := hprinting (.inl hhelper)
    exact ⟨fun _ => hflag, .inl hflag, hstart⟩
  | free hhelper =>
    exact ⟨fun hhelper => by simp at hhelper, .inr (.inl (.inr (.inr rfl))), hstart⟩
  | signal hhelper => exact ⟨fun hhelper => by simp at hhelper, .inr (.inl (.inl rfl)), hstart⟩

/-- Before the first signal, with a file that says that the buffer is free. -/
structure BootedFree (s : CrtState) : Prop extends s.Booted where
  flag : s.flag = .free

/-- Until the first run, the helper then waits. -/
theorem Step.waiting (hstep : Step s l s')
    (h : s.crt = .start → s.flag = .free ∧ s.helper = .poll) :
    s'.crt = .start → s'.flag = .free ∧ s'.helper = .poll := by
  intro hcrt
  cases hstep with
  | send | kill => exact h hcrt
  | first | next | acked | unacked | received | noMessage | displayed | notDisplayed =>
    contradiction
  | poll hhelper hflag =>
    rw [(h hcrt).1] at hflag
    contradiction
  | print hhelper | free hhelper | signal hhelper =>
    rw [(h hcrt).2] at hhelper
    contradiction

/-- Where a message is left, the flag is set, a signal is pending, a run goes on, or a process or
the helper is about to signal. -/
theorem crt_not_stalled (h : Reach step BootedFree (fun _ _ => True) s)
    (hleft : s.recvMsgs ≠ [] ∨ s.displayQueue ≠ [] ∨ s.prevMsg ≠ none) :
    s.flag = .wait ∨ s.sigusr2 = true ∨ (s.crt ≠ .start ∧ s.crt ≠ .idle) ∨ 0 < s.kills ∨
      s.helper = .kill := by
  have hinv : s.Live ∧ (s.crt = .start → s.flag = .free ∧ s.helper = .poll) := by
    apply h.invariant
    · intro s hs
      exact ⟨hs.toBooted.live, fun _ => ⟨hs.flag, hs.helper⟩⟩
    · intro s l s' _ hs _ hstep
      obtain ⟨hlive, hwait⟩ := hs
      have hstep := step_cases hstep
      refine ⟨hstep.live hlive ?_, hstep.waiting hwait⟩
      cases l with
      | deliver =>
        intro hcrt
        simp [(hwait hcrt).2]
      | _ => trivial
  have hdrained : ¬ s.Drained := by
    rintro ⟨hrecv, hqueue, hprev⟩
    simp [hrecv, hqueue, hprev] at hleft
  obtain hflag | (hpending | hkills | hhelper) | hattended := hinv.1.attended
  · exact .inl hflag
  · exact .inr (.inl hpending)
  · exact .inr (.inr (.inr (.inl hkills)))
  · exact .inr (.inr (.inr (.inr hhelper)))
  · refine .inr (.inr (.inl ⟨fun hcrt => ?_, fun hcrt => ?_⟩)) <;> rw [hcrt] at hattended <;>
      exact hdrained hattended

/-- Two processes' output. -/
def hello : ConsoleMsg := ⟨0, 0, 0, cstr "hello"⟩

def bye : ConsoleMsg := ⟨0, 0, 0, cstr "bye"⟩

/-- Behind `k_uart_init`. -/
def booted : CrtState where
  recvMsgs := []
  displayQueue := []
  prevMsg := none
  flag := .free
  data := []
  crt := .start
  helper := .poll
  sigusr2 := false
  kills := 0
  accepted := []
  printed := []
  acked := []

theorem booted_bootedFree : booted.BootedFree :=
  ⟨⟨rfl, rfl, rfl, rfl, rfl, rfl, rfl, rfl, rfl, rfl⟩, rfl⟩

/-- Two processes send, their signals are one, and the first message is displayed. -/
def coalesced : List CrtLabel :=
  [.sendConsoleChars 4 hello, .sendConsoleChars 8 bye, .kill, .kill, .deliver, .iProcess, .iProcess,
    .iProcess]

theorem crt_not_stalled_coalesced :
    ∃ s, Reach step BootedFree (fun _ _ => True) s ∧ s.recvMsgs = [bye.output 8] ∧
      (s.flag = .wait ∨ s.sigusr2 = true ∨ (s.crt ≠ .start ∧ s.crt ≠ .idle) ∨ 0 < s.kills ∨
        s.helper = .kill) := by
  have hrun : (exec (guarded step fun _ _ => True) booted coalesced).any (fun s =>
      decide (s.recvMsgs = [bye.output 8])) = true := by
    decide +kernel
  obtain ⟨s, hexec, hs⟩ := (Option.any_eq_true ..).1 hrun
  have hrecv : s.recvMsgs = [bye.output 8] := of_decide_eq_true hs
  have hreach := (Reach.init booted_bootedFree).guarded hexec
  exact ⟨s, hreach, hrecv, crt_not_stalled hreach (.inl (by simp [hrecv]))⟩

/-! ## The work that is left -/

/-- What the helper still does, and the run that its signal leads to. -/
def helperWork : CrtFlag → HelperPc → ℕ
  | .free, .poll => 0
  | .wait, .poll => 8
  | _, .print => 7
  | _, .free => 6
  | .free, .kill => 5
  | .wait, .kill => 13

/-- What is left of a run of the i-process. -/
def crtWork : CrtPc → ℕ
  | .start | .idle => 0
  | .ack => 3
  | .receive => 2
  | .display => 1

/-- A message makes one round of the helper and one run of the i-process, a signal one run. -/
def work (s : CrtState) : ℕ :=
  9 * (s.recvMsgs.length + s.displayQueue.length) + helperWork s.flag s.helper + crtWork s.crt +
    5 * s.kills + if s.sigusr2 then 4 else 0

def IsSend : CrtLabel → Prop
  | .sendConsoleChars .. => True
  | _ => False

theorem helperWork_wait (flag : CrtFlag) (pc : HelperPc) :
    helperWork .wait pc ≤ helperWork flag pc + 8 := by
  cases flag <;> cases pc <;> decide

theorem helperWork_free (flag : CrtFlag) (pc : HelperPc) :
    helperWork .free pc ≤ helperWork flag pc := by
  cases flag <;> cases pc <;> decide

/-- Every step but a `send_console_chars` leaves less work. -/
theorem Step.work_lt (hstep : Step s l s') (hsend : ¬ IsSend l) : s'.work < s.work := by
  cases hstep with
  | send pid m => exact absurd trivial hsend
  | kill hkills =>
    simp only [work, if_true]
    split <;> omega
  | first hpending hcrt =>
    have hwork := helperWork_free s.flag s.helper
    simp only [work, hpending, hcrt, crtWork, List.length_nil, if_true, Bool.false_eq_true,
      if_false]
    omega
  | next hpending hcrt =>
    simp only [work, hpending, hcrt, crtWork, if_true, Bool.false_eq_true, if_false]
    omega
  | acked hcrt => simp only [work, hcrt, crtWork]; omega
  | unacked hcrt => simp only [work, hcrt, crtWork]; omega
  | received hcrt hrecv =>
    simp only [work, hcrt, crtWork, hrecv, List.length_append, List.length_cons, List.length_nil]
    omega
  | noMessage hcrt => simp only [work, hcrt, crtWork]; omega
  | displayed hcrt hflag hqueue =>
    have hwork := helperWork_wait s.flag s.helper
    simp only [work, hcrt, crtWork, hqueue, List.length_cons]
    omega
  | notDisplayed hcrt => simp only [work, hcrt, crtWork]; omega
  | poll hhelper hflag => simp only [work, hhelper, hflag, helperWork]; omega
  | print hhelper => simp only [work, hhelper, helperWork]; omega
  | free hhelper => simp only [work, hhelper, helperWork]; omega
  | signal hhelper =>
    simp only [work, hhelper, if_true]
    cases s.flag <;> simp only [helperWork] <;> split <;> omega

/-- Without new messages, a run takes no more steps than there is work. -/
theorem length_add_work_le {ls : List CrtLabel} (hsend : ∀ l ∈ ls, ¬ IsSend l)
    (hrun : exec step s ls = some s') : ls.length + s'.work ≤ s.work := by
  induction ls generalizing s with
  | nil =>
    obtain rfl : s = s' := Option.some.inj hrun
    simp
  | cons l ls ih =>
    obtain ⟨t, ht, hrun⟩ := exec_cons_eq_some.1 hrun
    have hlt := (step_cases ht).work_lt (hsend l List.mem_cons_self)
    have hle := ih (fun l' hl' => hsend l' (List.mem_cons_of_mem l hl')) hrun
    rw [List.length_cons]
    omega

/-- Nothing happens without a new message. -/
def AtRest (s : CrtState) : Prop := ∀ l, ¬ IsSend l → s.step l = none

theorem AtRest.poll (hrest : s.AtRest) : s.helper = .poll ∧ s.flag = .free := by
  have hhelper := hrest .helper id
  cases hpc : s.helper with
  | poll =>
    cases hflag : s.flag with
    | free => exact ⟨rfl, rfl⟩
    | wait => simp [step, helperStep, hpc, hflag] at hhelper
  | print | free | kill => simp [step, helperStep, hpc] at hhelper

theorem Live.drained (h : s.Live) (hrest : s.AtRest) : s.Drained := by
  have hkill := hrest .kill id
  have hdeliver := hrest .deliver id
  have hiProcess := hrest .iProcess id
  have hpoll := hrest.poll
  have hidle : s.crt = .start ∨ s.crt = .idle := by
    cases hcrt : s.crt with
    | start => exact .inl rfl
    | idle => exact .inr rfl
    | ack => simp only [step, iProcess, hcrt] at hiProcess; split at hiProcess <;> contradiction
    | receive => simp only [step, iProcess, hcrt] at hiProcess; split at hiProcess <;> contradiction
    | display => simp only [step, iProcess, hcrt] at hiProcess; split at hiProcess <;> contradiction
  obtain hflag | (hpending | hkills | hsignal) | hattended := h.attended
  · rw [hpoll.2] at hflag
    contradiction
  · obtain hcrt | hcrt := hidle <;> simp [step, deliver, hpending, hcrt] at hdeliver
  · simp only [step, if_pos hkills] at hkill
    contradiction
  · rw [hpoll.1] at hsignal
    contradiction
  · obtain hcrt | hcrt := hidle <;> rw [hcrt] at hattended <;> exact hattended

/-! ## Once -/

/-- What is in the buffer and not printed yet. -/
def unprinted (s : CrtState) : List Text :=
  if s.flag = .wait ∧ s.helper ≠ .free then [s.data] else []

/-- What the helper prints before the first message, in a session that began in `s₀`: nothing, or
the text of an old file whose flag is set. In a new file the flag is free. -/
def Stale (s₀ : CrtState) (stale : List Text) : Prop :=
  stale = [] ∨ (s₀.flag = .wait ∧ stale = [s₀.data])

theorem Stale.of_prefix {stale l : List Text} (h : Stale s₀ stale) (hl : l <+: stale) :
    Stale s₀ l := by
  obtain rfl | ⟨hflag, rfl⟩ := h
  · exact .inl (List.prefix_nil.1 hl)
  · obtain rfl | hl := List.prefix_cons_iff.1 hl
    · exact .inl rfl
    · obtain ⟨l', rfl, hl'⟩ := hl
      exact .inr ⟨hflag, by rw [List.prefix_nil.1 hl']⟩

theorem Stale.eq_nil {stale : List Text} (h : Stale s₀ stale) (hflag : s₀.flag = .free) :
    stale = [] := by
  obtain rfl | ⟨hwait, -⟩ := h
  · rfl
  · rw [hflag] at hwait
    contradiction

/-- The messages accepted are, in their order, those sent back, the one in `prev_msg` and those in
the queue. What is printed, but for what was stale, are the first two of these, the last one perhaps
still to be printed. -/
structure Ordered (s₀ s : CrtState) (done : List ConsoleMsg) (stale : List Text) : Prop where
  accepted : s.accepted = done ++ s.prevMsg.toList ++ s.displayQueue
  acked : s.acked = done.map ConsoleMsg.ack
  printed : s.printed ++ s.unprinted = stale ++ (done ++ s.prevMsg.toList).map ConsoleMsg.msg
  stale : Stale s₀ stale
  start : s.crt = .start → s.accepted = []

theorem unprinted_wait (hflag : s.flag = .wait) (hhelper : s.helper ≠ .free) :
    s.unprinted = [s.data] :=
  if_pos ⟨hflag, hhelper⟩

theorem unprinted_free (h : s.flag = .free ∨ s.helper = .free) : s.unprinted = [] := by
  apply if_neg
  rintro ⟨hflag, hhelper⟩
  obtain h | h := h
  · rw [hflag] at h
    contradiction
  · exact hhelper h

/-- Where the second test would find the flag free, `prev_msg` is not in the way. -/
structure Kept (s : CrtState) : Prop where
  receive : s.crt = .receive → s.flag = .free →
    s.prevMsg = none ∨ s.recvMsgs = [] ∧ s.displayQueue = []
  display : s.crt = .display → s.flag = .free → s.prevMsg = none ∨ s.displayQueue = []

/-- The helper does not set the flag free between the two tests of a run in which `prev_msg` is set
and a message is, or comes to be, in the queue; nor does the first run come while it prints. -/
def Timely (s : CrtState) : CrtLabel → Prop
  | .sendConsoleChars .. => s.crt = .receive → s.flag = .free → s.prevMsg = none
  | .deliver => s.crt = .start → s.helper ≠ .print ∧ s.helper ≠ .free
  | .helper => s.helper = .free →
    (s.crt = .receive → s.prevMsg = none ∨ s.recvMsgs = [] ∧ s.displayQueue = []) ∧
      (s.crt = .display → s.prevMsg = none ∨ s.displayQueue = [])
  | _ => True

theorem Timely.firstRun (h : Timely s l) : FirstRun s l := by
  cases l with
  | deliver => exact h
  | _ => trivial

theorem Step.kept (hstep : Step s l s') (h : s.Kept) (hok : Timely s l) : s'.Kept := by
  cases hstep with
  | send pid m =>
    exact ⟨fun hcrt hflag => .inl (hok hcrt hflag), h.display⟩
  | kill hkills => exact ⟨h.receive, h.display⟩
  | first => exact ⟨nofun, nofun⟩
  | next => exact ⟨nofun, nofun⟩
  | acked => exact ⟨fun _ _ => .inl rfl, nofun⟩
  | unacked hcrt hnot =>
    refine ⟨fun _ hflag => .inl ?_, nofun⟩
    obtain hprev | hwait := hnot
    · exact hprev
    · exact absurd (hflag.symm.trans hwait) nofun
  | received hcrt hrecv =>
    refine ⟨nofun, fun _ hflag => .inl ?_⟩
    obtain hprev | ⟨hempty, -⟩ := h.receive hcrt hflag
    · exact hprev
    · rw [hrecv] at hempty
      contradiction
  | noMessage hcrt hrecv =>
    exact ⟨nofun, fun _ hflag => (h.receive hcrt hflag).imp id And.right⟩
  | displayed => exact ⟨nofun, nofun⟩
  | notDisplayed => exact ⟨nofun, nofun⟩
  | poll => exact ⟨h.receive, h.display⟩
  | print => exact ⟨h.receive, h.display⟩
  | free hhelper => exact ⟨fun hcrt _ => (hok hhelper).1 hcrt, fun hcrt _ => (hok hhelper).2 hcrt⟩
  | signal => exact ⟨h.receive, h.display⟩

theorem Booted.ordered (h : s.Booted) : Ordered s s [] s.unprinted where
  accepted := by rw [h.accepted, h.prevMsg, h.displayQueue]; rfl
  acked := h.acked
  printed := by simp [h.printed, h.prevMsg]
  stale := by
    unfold unprinted
    split
    · next hwait => exact .inr ⟨hwait.1, rfl⟩
    · exact .inl rfl
  start _ := h.accepted

/-- A step that leaves the i-process, the logs and the buffer alone. -/
theorem Ordered.same {done : List ConsoleMsg} {stale : List Text} (h : Ordered s₀ s done stale)
    (hprev : s'.prevMsg = s.prevMsg) (hqueue : s'.displayQueue = s.displayQueue)
    (haccepted : s'.accepted = s.accepted) (hacked : s'.acked = s.acked)
    (hprinted : s'.printed ++ s'.unprinted = s.printed ++ s.unprinted)
    (hcrt : s'.crt = .start → s.crt = .start) : Ordered s₀ s' done stale where
  accepted := by rw [haccepted, hprev, hqueue]; exact h.accepted
  acked := by rw [hacked]; exact h.acked
  printed := by rw [hprinted, hprev]; exact h.printed
  stale := h.stale
  start hstart := by rw [haccepted]; exact h.start (hcrt hstart)

theorem Step.ordered {done : List ConsoleMsg} {stale : List Text} (hstep : Step s l s')
    (h : Ordered s₀ s done stale) (hlive : s.Live) (hkept : s.Kept) :
    ∃ done' stale', Ordered s₀ s' done' stale' := by
  cases hstep with
  | send | kill => exact ⟨done, stale, h.same rfl rfl rfl rfl rfl id⟩
  | next | unacked | noMessage | notDisplayed =>
    exact ⟨done, stale, h.same rfl rfl rfl rfl rfl nofun⟩
  | first hpending hcrt =>
    obtain ⟨hqueue, hprev⟩ := hlive.start hcrt
    have hdone : done = [] := by
      have haccepted := h.accepted
      rw [h.start hcrt, hprev, hqueue] at haccepted
      simpa using haccepted.symm
    subst hdone
    refine ⟨[], s.printed, ⟨h.start hcrt, h.acked, ?_, ?_, nofun⟩⟩
    · simp [unprinted_free]
    · -- What has been printed so far was stale.
      have hprinted : s.printed ++ s.unprinted = stale := by simpa [hprev] using h.printed
      exact h.stale.of_prefix ⟨s.unprinted, hprinted⟩
  | @acked m hcrt hprev hflag =>
    refine ⟨done ++ [m], stale, ⟨?_, ?_, ?_, h.stale, nofun⟩⟩
    · simpa [hprev] using h.accepted
    · simp [h.acked]
    · simpa [hprev, unprinted_free, hflag] using h.printed
  | @received m recvMsgs hcrt hrecv =>
    refine ⟨done, stale, ⟨?_, h.acked, h.printed, h.stale, nofun⟩⟩
    simp [h.accepted]
  | @displayed m displayQueue hcrt hflag hqueue =>
    have hprev : s.prevMsg = none := by
      obtain hprev | hempty := hkept.display hcrt hflag
      · exact hprev
      · rw [hqueue] at hempty
        contradiction
    have hhelper : s.helper ≠ .free := by
      intro hhelper
      rw [hlive.printing (.inr hhelper)] at hflag
      contradiction
    refine ⟨done, stale, ⟨?_, h.acked, ?_, h.stale, nofun⟩⟩
    · simpa [hprev, hqueue] using h.accepted
    · have hprinted := h.printed
      rw [unprinted_free (.inl hflag), hprev] at hprinted
      have hprinted : s.printed = stale ++ done.map ConsoleMsg.msg := by simpa using hprinted
      rw [unprinted, if_pos ⟨rfl, hhelper⟩]
      simp [hprinted]
  | poll hhelper hflag =>
    refine ⟨done, stale, h.same rfl rfl rfl rfl ?_ id⟩
    simp [unprinted, hhelper]
  | print hhelper =>
    refine ⟨done, stale, h.same rfl rfl rfl rfl ?_ id⟩
    have hfree : s.helper ≠ .free := by simp [hhelper]
    rw [unprinted_wait (hlive.printing (.inl hhelper)) hfree, unprinted_free (.inr rfl)]
    simp
  | free hhelper =>
    refine ⟨done, stale, h.same rfl rfl rfl rfl ?_ id⟩
    rw [unprinted_free (.inr hhelper), unprinted_free (.inl rfl)]
  | signal hhelper =>
    refine ⟨done, stale, h.same rfl rfl rfl rfl ?_ id⟩
    simp [unprinted, hhelper]

/-- In a session that began in `s₀`, each message accepted is printed once and sent back once, in
the order of arrival: at most once in every state (`ordered`, `kept`), and once where nothing is
left to do (`finished`). That is reached if no more messages come (`finishes`). Nothing else is
printed but what was stale at the beginning. -/
structure Once (s₀ s : CrtState) : Prop where
  ordered : ∃ done stale, Ordered s₀ s done stale
  kept : s.crt = .display → s.flag = .free → s.displayQueue ≠ [] → s.prevMsg = none
  finished : s.AtRest → s.recvMsgs = [] ∧ s.acked = s.accepted.map ConsoleMsg.ack ∧
    ∃ stale, Stale s₀ stale ∧ s.printed = stale ++ s.accepted.map ConsoleMsg.msg
  finishes : ∀ ls s', (∀ l ∈ ls, ¬ IsSend l) → exec step s ls = some s' →
    ls.length + s'.work ≤ s.work

theorem Live.once {done : List ConsoleMsg} {stale : List Text} (h : s.Live) (hkept : s.Kept)
    (hordered : Ordered s₀ s done stale) : Once s₀ s where
  ordered := ⟨done, stale, hordered⟩
  kept hcrt hflag hqueue := (hkept.display hcrt hflag).resolve_right hqueue
  finished hrest := by
    obtain ⟨hrecv, hqueue, hprev⟩ := h.drained hrest
    have hprinted := hordered.printed
    rw [unprinted_free (.inl hrest.poll.2), hprev] at hprinted
    have haccepted : s.accepted = done := by simpa [hprev, hqueue] using hordered.accepted
    refine ⟨hrecv, by rw [haccepted, hordered.acked], stale, hordered.stale, ?_⟩
    simpa [haccepted] using hprinted
  finishes _ _ hsend hrun := length_add_work_le hsend hrun

/-- With a new file nothing else is printed. -/
theorem Once.printed_of_bootedFree (h : Once s₀ s) (hs₀ : s₀.BootedFree) (hrest : s.AtRest) :
    s.printed = s.accepted.map ConsoleMsg.msg := by
  obtain ⟨-, -, stale, hstale, hprinted⟩ := h.finished hrest
  rw [hprinted, hstale.eq_nil hs₀.flag, List.nil_append]

/-- In a run where the helper is timely, every message accepted is printed and acknowledged
once. -/
theorem crt_once (hs₀ : s₀.Booted) (h : Reach step (· = s₀) Timely s) : Once s₀ s := by
  have hinv : s.Live ∧ s.Kept ∧ ∃ done stale, Ordered s₀ s done stale := by
    apply h.invariant
    · rintro s rfl
      refine ⟨hs₀.live, ⟨fun hcrt => ?_, fun hcrt => ?_⟩, [], _, hs₀.ordered⟩ <;>
        rw [hs₀.crt] at hcrt <;> contradiction
    · intro s l s' _ hs hok hstep
      obtain ⟨hlive, hkept, done, stale, hordered⟩ := hs
      have hstep := step_cases hstep
      refine ⟨hstep.live hlive hok.firstRun, hstep.kept hkept hok, ?_⟩
      exact hstep.ordered hordered hlive hkept
  obtain ⟨hlive, hkept, done, stale, hordered⟩ := hinv
  exact hlive.once hkept hordered

instance (s : CrtState) (l : CrtLabel) : Decidable (Timely s l) := by
  cases l <;> unfold Timely <;> infer_instance

/-- The helper prints what is in the buffer, and a run follows. -/
def printAndRun : List CrtLabel :=
  [.helper, .helper, .helper, .helper, .deliver, .iProcess, .iProcess, .iProcess]

theorem crt_once_coalesced :
    ∃ s, Reach step (· = booted) Timely s ∧
      s.acked = [(hello.output 4).ack, (bye.output 8).ack] ∧ Once booted s := by
  have hrun : (exec (guarded step Timely) booted (coalesced ++ printAndRun ++ printAndRun)).any
      (fun s => decide (s.acked = [(hello.output 4).ack, (bye.output 8).ack])) = true := by
    decide +kernel
  obtain ⟨s, hexec, hs⟩ := (Option.any_eq_true ..).1 hrun
  have hinit : Reach step (· = booted) Timely booted := .init rfl
  have hreach := hinit.guarded hexec
  exact ⟨s, hreach, of_decide_eq_true hs, crt_once booted_bootedFree.toBooted hreach⟩

/-- The helper prints the first message; the second one's run finds the flag set at its first test
and free at its second. -/
def freedBetweenTests : List CrtLabel :=
  [.sendConsoleChars 4 hello, .kill, .deliver, .iProcess, .iProcess, .iProcess, .helper, .helper,
    .sendConsoleChars 8 bye, .kill, .deliver, .iProcess, .helper, .iProcess]

theorem crt_overwrites :
    ¬ ∀ s₀ s, s₀.BootedFree → Reach step (· = s₀) (fun _ _ => True) s → Once s₀ s := by
  intro h
  have hrun : (exec (guarded step fun _ _ => True) booted freedBetweenTests).any (fun s =>
      decide (s.crt = .display ∧ s.flag = .free ∧ s.displayQueue = [bye.output 8] ∧
        s.prevMsg = some (hello.output 4))) = true := by
    decide +kernel
  obtain ⟨s, hexec, hs⟩ := (Option.any_eq_true ..).1 hrun
  obtain ⟨hcrt, hflag, hqueue, hprev⟩ := of_decide_eq_true hs
  have hinit : Reach step (· = booted) (fun _ _ => True) booted := .init rfl
  have hreach := hinit.guarded hexec
  have hnone := (h booted s booted_bootedFree hreach).kept hcrt hflag (by simp [hqueue])
  rw [hprev] at hnone
  contradiction

end Rtx.Unix.CrtState
