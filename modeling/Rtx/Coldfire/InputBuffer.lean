import Rtx.Coldfire.Exhaustion

/-!
# The input buffer of the UART

`InBuffer` and `inputIndex` over any stream of received bytes. As long as pong is off, the buffer
holds what the receive branch has kept of the line so far (`Buffers`): all but the hotkeys, as long
as there is room. Two things go wrong. A line end before which nothing was kept is stored at index
-1, and an envelope goes out with whatever it held; and the text for the pong process ends only
where the envelope happens to have a NUL. In runs without these every index is within bounds, and
every text is one of the bytes received since the last line end (`input_bounded`).
-/

namespace Rtx.Coldfire

open Transition

variable {n : ℕ} {table : Fin n → PcbInit} {u : Fin n}

/-! ## Lines -/

/-- The bytes received since the last line end, after a step. -/
def Label.line (line : List UInt8) : Label → List UInt8
  | .irqUart ucsr rd =>
    if ucsr &&& 1 = 0 then line else if rd = kbLineEnd then [] else line ++ [rd]
  | _ => line

theorem Label.line_of_idle {line : List UInt8} {ucsr rd : UInt8} (h : ucsr &&& 1 = 0) :
    Label.line line (.irqUart ucsr rd) = line := if_pos h

theorem Label.line_of_data {line : List UInt8} {ucsr rd : UInt8} (h : ucsr &&& 1 ≠ 0) :
    Label.line line (.irqUart ucsr rd) = if rd = kbLineEnd then [] else line ++ [rd] := if_neg h

/-- The bytes that are stored if there is room. -/
def kept (line : List UInt8) : List UInt8 := line.filter fun c => !isHotkey c

/-- How many there is room for: `INPUT_BUFFER_SIZE - 2`. -/
def lineRoom : ℕ := 98

/-- What is stored of a line. -/
def buffered (line : List UInt8) : List UInt8 := (kept line).take lineRoom

section Lines

variable {line : List UInt8} {c : UInt8}

theorem buffered_length_le (line : List UInt8) : (buffered line).length ≤ lineRoom :=
  List.length_take_le ..

theorem buffered_sublist (line : List UInt8) : (buffered line).Sublist line :=
  (List.take_sublist ..).trans List.filter_sublist

theorem kept_concat_hotkey (hkey : isHotkey c = true) : kept (line ++ [c]) = kept line := by
  simp [kept, hkey]

theorem kept_concat (hkey : isHotkey c = false) : kept (line ++ [c]) = kept line ++ [c] := by
  simp [kept, hkey]

theorem buffered_concat_hotkey (hkey : isHotkey c = true) :
    buffered (line ++ [c]) = buffered line := by
  rw [buffered, kept_concat_hotkey hkey, buffered]

theorem buffered_concat (hkey : isHotkey c = false) (hroom : (buffered line).length < lineRoom) :
    buffered (line ++ [c]) = buffered line ++ [c] := by
  have hlength : (kept line).length < lineRoom := by
    rw [buffered, List.length_take] at hroom
    omega
  rw [buffered, buffered, kept_concat hkey, List.take_of_length_le (Nat.le_of_lt hlength),
    List.take_of_length_le (by rw [List.length_append]; exact hlength)]

theorem buffered_concat_full (hfull : (buffered line).length = lineRoom) :
    buffered (line ++ [c]) = buffered line := by
  have hlength : lineRoom ≤ (kept line).length := by
    rw [buffered, List.length_take] at hfull
    omega
  cases hkey : isHotkey c with
  | true => exact buffered_concat_hotkey hkey
  | false =>
    rw [buffered, buffered, kept_concat hkey, List.take_append_of_le_length hlength]

end Lines

/-! ## The buffer -/

/-- The input variables hold the line so far. -/
structure Buffers (uart : Uart) (line : List UInt8) : Prop where
  index : uart.inputIndex = (buffered line).length
  char : ∀ i (h : i < (buffered line).length), uart.inBuffer i = (buffered line)[i]
  nonzero : kbLineEnd ∉ line

/-- The input variables have not changed. -/
structure SameInput (uart uart' : Uart) : Prop where
  index : uart'.inputIndex = uart.inputIndex
  buffer : uart'.inBuffer = uart.inBuffer
  pong : uart'.pongMode = uart.pongMode

theorem SameInput.refl (uart : Uart) : SameInput uart uart := ⟨rfl, rfl, rfl⟩

theorem SameInput.trans {uart uart' uart'' : Uart} (h : SameInput uart uart')
    (h' : SameInput uart' uart'') : SameInput uart uart'' :=
  ⟨h'.index.trans h.index, h'.buffer.trans h.buffer, h'.pong.trans h.pong⟩

theorem Buffers.congr {uart uart' : Uart} {line : List UInt8} (h : Buffers uart line)
    (hsame : SameInput uart uart') : Buffers uart' line := by
  refine ⟨hsame.index.trans h.index, fun i hi => ?_, h.nonzero⟩
  rw [hsame.buffer]
  exact h.char i hi

theorem Buffers.nil {uart : Uart} (h : uart.inputIndex = 0) : Buffers uart [] := by
  refine ⟨h, fun i hi => ?_, List.not_mem_nil⟩
  exact absurd hi (Nat.not_lt_zero i)

theorem Buffers.index_le {uart : Uart} {line : List UInt8} (h : Buffers uart line) :
    0 ≤ uart.inputIndex ∧ uart.inputIndex ≤ inputBufferSize - 2 := by
  have hle := buffered_length_le line
  rw [h.index]
  unfold lineRoom at hle
  unfold inputBufferSize
  omega

theorem Buffers.char_ne {uart : Uart} {line : List UInt8} (h : Buffers uart line) {i : ℕ}
    (hi : i < (buffered line).length) : (buffered line)[i] ≠ 0 := by
  intro hzero
  refine h.nonzero ((buffered_sublist line).subset ?_)
  rw [kbLineEnd, ← hzero]
  exact List.getElem_mem hi

theorem Buffers.nonzero_concat {uart : Uart} {line : List UInt8} {c : UInt8} (h : Buffers uart line)
    (hc : c ≠ kbLineEnd) : kbLineEnd ∉ line ++ [c] := by
  intro hmem
  rcases List.mem_append.1 hmem with hmem | hmem
  · exact h.nonzero hmem
  · exact hc (List.mem_singleton.1 hmem).symm

theorem Buffers.skip {uart : Uart} {line : List UInt8} {c : UInt8} (h : Buffers uart line)
    (hc : c ≠ kbLineEnd) (hsame : buffered (line ++ [c]) = buffered line) :
    Buffers uart (line ++ [c]) := by
  refine ⟨by rw [hsame, h.index], fun i hi => ?_, h.nonzero_concat hc⟩
  rw [h.char i (by rwa [hsame] at hi)]
  simp only [hsame]

theorem Buffers.store {uart : Uart} {line : List UInt8} {c : UInt8} (h : Buffers uart line)
    (hc : c ≠ kbLineEnd) (hkey : isHotkey c = false) (hroom : (buffered line).length < lineRoom) :
    Buffers { uart with
      inBuffer := Function.update uart.inBuffer uart.inputIndex c
      inputIndex := uart.inputIndex + 1 } (line ++ [c]) := by
  have hindex := h.index
  have hbuffered := buffered_concat hkey hroom
  refine ⟨?_, fun i hi => ?_, h.nonzero_concat hc⟩
  · rw [hbuffered, List.length_append, hindex]
    rfl
  · simp only [hbuffered]
    rw [hbuffered, List.length_append, List.length_singleton] at hi
    by_cases heq : i = (buffered line).length
    · subst heq
      rw [hindex, Function.update_self, List.getElem_concat_length rfl]
    · have hi' : i < (buffered line).length := by omega
      rw [Function.update_of_ne (by omega), h.char i hi', List.getElem_append_left hi']

/-- The envelope a line is copied to holds it without its last byte, which is where the NUL is. -/
theorem Buffers.holdsText {uart : Uart} {line : List UInt8} (h : Buffers uart line)
    (hpos : 0 < uart.inputIndex) (body : Body) :
    HoldsText
      (Kernel.fillLine (Function.update uart.inBuffer (uart.inputIndex - 1) 0) uart.inputIndex
      body) (buffered line).dropLast := by
  have hindex := h.index
  have hlength : ((buffered line).dropLast.length : ℤ) = uart.inputIndex - 1 := by
    rw [List.length_dropLast]
    omega
  refine ⟨fun i hi => ?_, ?_⟩
  · have hi' : i < (buffered line).length := by
      rw [List.length_dropLast] at hi
      omega
    have hlt : (i : ℤ) < uart.inputIndex := by omega
    rw [List.getElem_dropLast, Kernel.fillLine, if_pos hlt, Function.update_of_ne (by omega),
      h.char i hi']
    exact ⟨rfl, h.char_ne hi'⟩
  · rw [Kernel.fillLine, if_pos (by omega), hlength, Function.update_self]

/-- The letter has this text, which ends within the envelope. -/
def Letter.Carries (letter : Letter) (text : List UInt8) : Prop :=
  text.length < ipcMsgEnvMsgSize ∧ ∃ body, letter.msg = some body ∧ HoldsText body text

namespace Kernel

variable {s s' t t' : Kernel n} {l : Label} {a : Act n} {env : EnvPtr} {rd : UInt8}
  {line : List UInt8}

/-! ## Received bytes -/

theorem receiveChar_buffers (h : Buffers s.uart line) (hpong : s.uart.pongMode = false)
    (hrd : rd ≠ kbLineEnd) (hrun : s.uartReceive rd = some s') :
    Buffers s'.uart (line ++ [rd]) := by
  have hroom : s.uart.inputIndex < inputBufferSize - 2 ↔ (buffered line).length < lineRoom := by
    rw [h.index, inputBufferSize, lineRoom]
    omega
  unfold uartReceive at hrun
  rw [if_neg (by rw [hpong]; decide), if_neg hrd] at hrun
  simp only [hroom] at hrun
  split at hrun
  · rename_i hlt
    rcases uartEnter_cases hrun with ⟨hkey, rfl⟩ | ⟨hkey, rfl⟩
    · exact h.skip hrd (buffered_concat_hotkey hkey)
    · exact (h.store hrd hkey hlt).congr ⟨rfl, rfl, rfl⟩
  · rename_i hfull
    cases hrun
    have hle := buffered_length_le line
    exact h.skip hrd (buffered_concat_full (by omega))

theorem uartLineEnd_index (h : s.uartLineEnd = some s') : s'.uart.inputIndex = 0 := by
  rw [uartLineEnd_eq] at h
  obtain ⟨t, -, rfl⟩ := Option.map_eq_some_iff.1 h
  rfl

theorem uartReceive_buffers (h : Buffers s.uart line) (hpong : s.uart.pongMode = false)
    (hrun : s.uartReceive rd = some s') :
    Buffers s'.uart (if rd = kbLineEnd then [] else line ++ [rd]) := by
  by_cases hrd : rd = kbLineEnd
  · rw [if_pos hrd]
    unfold uartReceive at hrun
    rw [if_neg (by rw [hpong]; decide), if_pos hrd] at hrun
    exact .nil (uartLineEnd_index hrun)
  · rw [if_neg hrd]
    exact receiveChar_buffers h hpong hrd hrun

theorem PicksUp.sameInput {letter : Letter} (h : PicksUp s u env letter s') :
    SameInput s.uart s'.uart := by
  obtain ⟨out, -, huart⟩ := h.uart
  rw [huart]
  exact ⟨rfl, rfl, rfl⟩

theorem uartTransmit_sameInput (hcur : s.sched.currentProcess = some u)
    (h : s.uartTransmit = some s') : SameInput s.uart s'.uart := by
  obtain ⟨t, hidle, hprints⟩ := uartTransmit_cases hcur h
  have ht : SameInput s.uart t.uart := by
    rcases hidle with rfl | ⟨env, letter, hpick⟩
    · exact .refl _
    · exact hpick.sameInput
  refine ht.trans ?_
  cases hprints with
  | idle => exact .refl _
  | write | done => exact ⟨rfl, rfl, rfl⟩
  | next _ _ hpick =>
    have hprinted : SameInput t.uart t.printed.uart := ⟨rfl, rfl, rfl⟩
    exact hprinted.trans hpick.sameInput

/-! ## Steps -/

/-- A step that is no interrupt of the UART leaves the input alone, or is the start of pong. -/
theorem act_input (hactor : l.actor ≠ .uart) (hdoes : l.Does s t a) (hact : t.act a = some t') :
    SameInput t.uart t'.uart ∨ l = .startPong ∧ t'.uart.pongMode = true := by
  cases a with
  | ipc m =>
    rw [(act_ipc hact).2.2]
    exact .inl (.refl _)
  | sched m =>
    obtain ⟨S, -, rfl⟩ := Option.map_eq_some_iff.1 hact
    exact .inl (.refl _)
  | uart uart =>
    cases hact
    rcases hdoes with hsets | ⟨hl, rfl⟩
    · cases hl : l.actor with
      | uart => exact absurd hl hactor
      | timer => rw [hl] at hsets; exact hsets.elim
      | caller given filled dest =>
        rw [hl] at hsets
        rw [hsets.2]
        exact .inl ⟨rfl, rfl, rfl⟩
    · exact .inr ⟨hl, rfl⟩

theorem step_input (hint : s.sched.interruptedProcess = none) (hactor : l.actor ≠ .uart)
    (hstep : s.step l = some s') :
    SameInput s.uart s'.uart ∨ l = .startPong ∧ s'.uart.pongMode = true := by
  refine (step_acts hint hstep).1.invariant
    (I := fun t => SameInput s.uart t.uart ∨ l = .startPong ∧ t.uart.pongMode = true) ?_ ?_
  · intro t ht
    exact ht ▸ .inl (.refl _)
  · intro t a t' _ ht hdoes hact
    rcases act_input hactor hdoes hact with hsame | hpong
    · exact ht.imp (fun h => h.trans hsame) fun h => ⟨h.1, hsame.pong.trans h.2⟩
    · exact .inr hpong

/-- As long as pong is off the buffer holds the line. -/
def Typed (s : Kernel n) (line : List UInt8) : Prop :=
  s.uart.pongMode = false → Buffers s.uart line

theorem irqUart_pongMode {ucsr : UInt8} (htabled : s.Tabled table) (hu : UartIs table u)
    (hstep : s.step (.irqUart ucsr rd) = some s') : s'.uart.pongMode = s.uart.pongMode := by
  obtain ⟨t, t', henter, hcur, -, huart, hran, -, huart'⟩ :=
    irqUart_cases (htabled.uart_found hu) htabled.interrupted hstep
  have hfound : t.sched.kGetProcess uartIProcessPid = some u := by
    rw [Sched.kGetProcess_ids (act_frame htabled.regular henter).2.ids]
    exact htabled.uart_found hu
  rw [huart', ← huart]
  unfold uartIProcess at hran
  split at hran
  · obtain ⟨inputIndex, inBuffer, hinputs⟩ := (uartReceive_cases hcur hfound hran).uart
    rw [hinputs]
  split at hran
  · exact (uartTransmit_sameInput hcur hran).pong
  · cases hran
    rfl

theorem irqUart_typed {ucsr : UInt8} (htabled : s.Tabled table) (hu : UartIs table u)
    (h : s.Typed line) (hstep : s.step (.irqUart ucsr rd) = some s') :
    s'.Typed (Label.line line (.irqUart ucsr rd)) := by
  intro hpong
  rw [irqUart_pongMode htabled hu hstep] at hpong
  obtain ⟨t, t', henter, hcur, -, huart, hran, -, huart'⟩ :=
    irqUart_cases (htabled.uart_found hu) htabled.interrupted hstep
  have ht : Buffers t.uart line := huart ▸ h hpong
  rw [huart']
  unfold uartIProcess at hran
  by_cases hdata : ucsr &&& 1 = 0
  · rw [Label.line_of_idle hdata]
    rw [if_neg (not_not_intro hdata)] at hran
    split at hran
    · exact ht.congr (uartTransmit_sameInput hcur hran)
    · cases hran
      exact ht
  · rw [Label.line_of_data hdata]
    rw [if_pos hdata] at hran
    exact uartReceive_buffers ht (huart ▸ hpong) hran

theorem Typed.step (htabled : s.Tabled table) (hu : UartIs table u) (h : s.Typed line)
    (hstep : s.step l = some s') : s'.Typed (l.line line) := by
  have hother : l.actor ≠ .uart → l.line line = line → s'.Typed (l.line line) := by
    intro hactor hline hpong
    rw [hline]
    rcases step_input htabled.interrupted hactor hstep with hsame | ⟨-, hpong'⟩
    · exact (h (hsame.pong.symm.trans hpong)).congr hsame
    · rw [hpong'] at hpong
      contradiction
  cases l with
  | irqUart ucsr rd => exact irqUart_typed htabled hu h hstep
  | call c =>
    refine hother ?_ rfl
    cases c <;> exact nofun
  | _ => exact hother nofun rfl

/-- The kernel, watched together with the line. -/
def watch (w : Kernel n × List UInt8) (l : Label) : Option (Kernel n × List UInt8) :=
  (w.1.step l).map fun s => (s, l.line w.2)

/-- At boot the line is empty. -/
def WatchedFromBoot (table : Fin n → PcbInit) (w : Kernel n × List UInt8) : Prop :=
  Booted table w.1 ∧ w.2 = []

theorem watch_reach {ok : Kernel n × List UInt8 → Label → Prop} {ok' : Kernel n → Label → Prop}
    {w : Kernel n × List UInt8} (hok : ∀ w l, ok w l → ok' w.1 l)
    (hw : Reach watch (WatchedFromBoot table) ok w) :
    Reach Kernel.step (Booted table) ok' w.1 := by
  refine hw.invariant (I := fun w => Reach Kernel.step (Booted table) ok' w.1)
    (fun w h => .init h.1) ?_
  intro w l w' _ h hl hstep
  obtain ⟨t, ht, rfl⟩ := Option.map_eq_some_iff.1 hstep
  exact h.step (hok w l hl) ht

/-- In a watched run the kernel runs as always, and the buffer holds the line. -/
theorem watched {ok : Kernel n × List UInt8 → Label → Prop} {w : Kernel n × List UInt8}
    (hu : UartIs table u) (hw : Reach watch (WatchedFromBoot table) ok w) :
    Reach Kernel.step (Booted table) (fun _ _ => True) w.1 ∧ w.1.Typed w.2 := by
  refine ⟨watch_reach (fun _ _ _ => trivial) hw, ?_⟩
  refine (hw.invariant (I := fun w => w.1.Tabled table ∧ w.1.Typed w.2) ?_ ?_).2
  · rintro ⟨s, line⟩ ⟨hboot, hline⟩
    obtain ⟨ram, -, -, -, -, huart⟩ := Booted.parts hboot
    refine ⟨Booted.tabled hboot, fun _ => ?_⟩
    change Buffers s.uart line
    rw [show line = [] from hline]
    exact .nil (congrArg Uart.inputIndex huart)
  · intro w l w' _ h _ hstep
    obtain ⟨t, ht, rfl⟩ := Option.map_eq_some_iff.1 hstep
    exact ⟨h.1.step ht, h.2.step h.1 hu ht⟩

/-! ## What is logged -/

/-- What is logged after `log` when `u` requests an envelope, fills it in and sends it to the
process with pid `pid`. -/
inductive MailLog (S : Sched n) (u : Fin n) (pid : ℤ) (env : EnvPtr) (letter : Letter)
    (log : List (Event n)) : List (Event n) → Prop
  | refused (hrefused : letter.msg = none ∨ S.kGetProcess pid = none) :
      MailLog S u pid env letter log (.requested u env :: log)
  | sent {q : Fin n} (hq : S.kGetProcess pid = some q) :
      MailLog S u pid env letter log
        (.sent u q env { letter with sendPid := (S.pTable u).pid, destPid := pid } ::
          .requested u env :: log)

theorem sendRequested_cases {queue : QueuePtr n} {letter : Letter} {pid r : ℤ}
    (hreq : Requests s u queue env t)
    (h : (t.filled env letter).kSendMessage pid (some env) = some (r, s')) :
    s'.uart = s.uart ∧ MailLog s.sched u pid env letter s.ipc.log s'.ipc.log := by
  have hself : ((t.filled env letter).ipc.env env).toLetter = letter :=
    Ipc.toLetter_setLetter_self ..
  have hlog : (t.filled env letter).ipc.log = .requested u env :: s.ipc.log := hreq.logged
  have hsched : (t.filled env letter).sched = s.sched := hreq.sched
  rcases kSendMessage_cases h with ⟨hr, rfl⟩ | ⟨env', cur, q, henv, -, hsends⟩
  · refine ⟨hreq.uart, ?_⟩
    rw [hlog]
    refine .refused ?_
    by_contra hsent
    obtain ⟨hbody, hdest⟩ := not_or.1 hsent
    refine hr (kSendMessage_success ?_ ?_ h)
    · rw [show ((t.filled env letter).ipc.env env).msg = letter.msg from congrArg Letter.msg hself]
      exact Option.isSome_iff_ne_none.2 hbody
    · rw [hsched]
      exact Option.isSome_iff_ne_none.2 hdest
  · obtain rfl := Option.some.inj henv
    have hcur : cur = u := by
      have hcurrent := hsends.current
      rw [hsched, hreq.current] at hcurrent
      exact (Option.some.inj hcurrent).symm
    subst hcur
    refine ⟨hsends.uart.trans hreq.uart, ?_⟩
    rw [hsends.log, hlog, Ipc.stamped, hself, hsched]
    exact .sent (hsched ▸ hsends.found)

/-- A character for the pong process goes out in front of what the envelope at hand held. -/
theorem uartPong_log (hcur : s.sched.currentProcess = some u)
    (hi : (s.sched.pTable u).isIProcess = true) (h : s.uartPong rd = some s') :
    s'.uart = s.uart ∧ ∃ env body letter, s.atHand = some env ∧
      (s.ipc.env env).msg = some body ∧ letter.msgType = consoleInput ∧
        letter.msg = some (Function.update body 0 rd) ∧
          MailLog s.sched u pongPid env letter s.ipc.log s'.ipc.log := by
  rcases requestNow_atHand hcur hi with ⟨-, hrequest⟩ |
    ⟨queue, env, t, hsome, -, hrequest, hreq⟩
  · rw [uartPong, hrequest] at h
    contradiction
  · have hmsg : (t.ipc.env env).msg = (s.ipc.env env).msg := congrArg Letter.msg (hreq.letter env)
    cases hbody : (s.ipc.env env).msg with
    | none =>
      rw [uartPong, hrequest] at h
      simp [hmsg, hbody] at h
    | some body =>
      rw [uartPong_eq rd hrequest (hmsg.trans hbody)] at h
      obtain ⟨⟨r, s₁⟩, hsend, rfl⟩ := Option.map_eq_some_iff.1 h
      obtain ⟨huart, hlog⟩ := sendRequested_cases hreq hsend
      exact ⟨huart, env, body, _, hsome, hbody, by rfl, by rfl, hlog⟩

theorem uartLineEnd_log (hcur : s.sched.currentProcess = some u)
    (hi : (s.sched.pTable u).isIProcess = true) (h : s.uartLineEnd = some s') :
    s'.uart = s.lineEnded.lineTaken.uart ∧ ((s.atHand = none ∧ s'.ipc = s.ipc) ∨
      ∃ env letter, s.atHand = some env ∧ letter.msgType = consoleInput ∧
        lineBody s.lineEnded.uart (s.ipc.env env).msg = some letter.msg ∧
          MailLog s.sched u cciPid env letter s.ipc.log s'.ipc.log) := by
  rcases requestNow_atHand (s := s.lineEnded) (u := u) hcur hi with ⟨hnone, hrequest⟩ |
    ⟨queue, env, t, hsome, -, hrequest, hreq⟩
  · rw [uartLineEnd_none hcur hi hnone] at h
    cases h
    exact ⟨rfl, .inl ⟨hnone, rfl⟩⟩
  · have hmsg : (t.ipc.env env).msg = (s.ipc.env env).msg := congrArg Letter.msg (hreq.letter env)
    rw [uartLineEnd_eq, hrequest, Option.bind_some] at h
    obtain ⟨s₁, hline, rfl⟩ := Option.map_eq_some_iff.1 h
    cases hfilled : lineBody t.uart (t.ipc.env env).msg with
    | none => simp [sendLine, hfilled] at hline
    | some msg =>
      rw [sendLine_eq hfilled] at hline
      obtain ⟨⟨r, s₂⟩, hsend, rfl⟩ := Option.map_eq_some_iff.1 hline
      obtain ⟨huart, hlog⟩ := sendRequested_cases hreq hsend
      refine ⟨congrArg (fun uart : Uart => { uart with inputIndex := 0 }) huart,
        .inr ⟨env, _, hsome, by rfl, ?_, hlog⟩⟩
      rw [← hreq.uart, ← hmsg]
      exact hfilled

/-! ## Bounds -/

/-- The indices of the accesses `InBuffer[inputIndex]` in the receive branch. -/
def inBufferAccesses (uart : Uart) (charIn : UInt8) : List ℤ :=
  if uart.pongMode = true then []
  else if charIn = kbLineEnd then [uart.inputIndex - 1]
  else if uart.inputIndex < inputBufferSize - 2 ∧ isHotkey charIn = false then [uart.inputIndex]
  else []

/-- Nothing else of `InBuffer` is written. -/
theorem uartReceive_inBuffer (hcur : s.sched.currentProcess = some u)
    (hi : (s.sched.pTable u).isIProcess = true) (h : s.uartReceive rd = some s') {i : ℤ}
    (haccess : i ∉ inBufferAccesses s.uart rd) : s'.uart.inBuffer i = s.uart.inBuffer i := by
  unfold uartReceive at h
  unfold inBufferAccesses at haccess
  split at h
  · rw [(uartPong_log hcur hi h).1]
  rename_i hpong
  rw [if_neg hpong] at haccess
  split at h
  · rename_i hline
    rw [if_pos hline] at haccess
    rw [(uartLineEnd_log hcur hi h).1]
    exact Function.update_of_ne (List.ne_of_not_mem_cons haccess) ..
  rename_i hline
  rw [if_neg hline] at haccess
  split at h
  · rename_i hroom
    rcases uartEnter_cases h with ⟨-, rfl⟩ | ⟨hkey, rfl⟩
    · rfl
    · rw [if_pos ⟨hroom, hkey⟩] at haccess
      exact Function.update_of_ne (List.ne_of_not_mem_cons haccess) ..
  · cases h
    rfl

theorem inBufferAccesses_bounds (h : s.Typed line)
    (hline : s.uart.pongMode = false → rd = kbLineEnd → 0 < s.uart.inputIndex) {i : ℤ}
    (hi : i ∈ inBufferAccesses s.uart rd) : 0 ≤ i ∧ i < inputBufferSize := by
  unfold inBufferAccesses at hi
  split at hi
  · contradiction
  rename_i hpong
  obtain ⟨hnonneg, hle⟩ := (h (eq_false_of_ne_true hpong)).index_le
  have hpos := hline (eq_false_of_ne_true hpong)
  split at hi
  · rename_i hrd
    obtain rfl := List.mem_singleton.1 hi
    have hpos := hpos hrd
    omega
  split at hi
  · obtain rfl := List.mem_singleton.1 hi
    omega
  · contradiction

/-! ## Texts -/

/-- Between the two states, what `u` sent as console input has a text of bytes of the line, in their
order. -/
def Texts (u : Fin n) (line : List UInt8) (s s' : Kernel n) : Prop :=
  ∃ new, s'.ipc.log = new ++ s.ipc.log ∧
    ∀ q env letter, .sent u q env letter ∈ new → letter.msgType = consoleInput →
      ∃ text, letter.Carries text ∧ text.Sublist line

theorem Texts.of_log (h : s'.ipc.log = s.ipc.log) : Texts u line s s' :=
  ⟨[], h, fun _ _ _ hmem => absurd hmem List.not_mem_nil⟩

theorem Texts.trans (h : Texts u line s t) (h' : Texts u line t t') : Texts u line s t' := by
  obtain ⟨new, hlog, hnew⟩ := h
  obtain ⟨new', hlog', hnew'⟩ := h'
  refine ⟨new' ++ new, by rw [hlog', hlog, List.append_assoc], fun q env letter hmem => ?_⟩
  rcases List.mem_append.1 hmem with hmem | hmem
  · exact hnew' q env letter hmem
  · exact hnew q env letter hmem

/-- An acknowledgement is no console input. -/
theorem PicksUp.texts {letter : Letter} (h : PicksUp s u env letter s') : Texts u line s s' := by
  have hlog := h.log
  generalize hnew : s'.ipc.log = log at hlog
  cases hlog with
  | released => exact ⟨[_, _, _], hnew, fun q env letter hmem => by simp at hmem⟩
  | returned =>
    refine ⟨[_, _, _], hnew, fun q env letter hmem htype => ?_⟩
    obtain ⟨-, rfl, rfl⟩ : q = _ ∧ env = _ ∧ letter = _ := by simpa using hmem
    exact absurd htype (by decide : displayAck ≠ consoleInput)
  | lost => exact ⟨[_, _], hnew, fun q env letter hmem => by simp at hmem⟩

theorem uartTransmit_texts (hcur : s.sched.currentProcess = some u)
    (h : s.uartTransmit = some s') : Texts u line s s' := by
  obtain ⟨t, hidle, hprints⟩ := uartTransmit_cases hcur h
  have ht : Texts u line s t := by
    rcases hidle with rfl | ⟨env, letter, hpick⟩
    · exact .of_log rfl
    · exact hpick.texts
  refine ht.trans ?_
  cases hprints with
  | next _ _ hpick => exact (Texts.of_log rfl).trans hpick.texts
  | _ => exact .of_log rfl

theorem MailLog.texts {letter : Letter} {pid : ℤ} (text : List UInt8)
    (h : MailLog s.sched u pid env letter s.ipc.log s'.ipc.log) (htext : letter.Carries text)
    (hline : text.Sublist line) : Texts u line s s' := by
  generalize hnew : s'.ipc.log = log at h
  cases h with
  | refused => exact ⟨[_], hnew, fun q env letter hmem => by simp at hmem⟩
  | sent hq =>
    refine ⟨[_, _], hnew, fun q env letter hmem _ => ⟨text, ?_, hline⟩⟩
    obtain ⟨-, -, rfl⟩ : q = _ ∧ env = _ ∧ letter = _ := by simpa using hmem
    exact htext

/-- Pong is on: a character goes out alone, if there is a NUL behind it. -/
theorem uartPong_texts (hcur : s.sched.currentProcess = some u)
    (hi : (s.sched.pTable u).isIProcess = true) (h : s.uartPong rd = some s')
    (hnul : rd = 0 ∨ ∀ env ∈ s.atHand, ∀ body ∈ (s.ipc.env env).msg, body 1 = 0) :
    Texts u (line ++ [rd]) s s' := by
  obtain ⟨-, env, body, letter, hhand, hbody, -, hmsg, hlog⟩ := uartPong_log hcur hi h
  by_cases hrd : rd = 0
  · refine hlog.texts [] ⟨by simp [ipcMsgEnvMsgSize], _, hmsg, ?_⟩ (List.nil_sublist _)
    refine ⟨fun i hi => absurd hi (Nat.not_lt_zero i), ?_⟩
    exact (Function.update_self ..).trans hrd
  · have hone : body 1 = 0 := (hnul.resolve_left hrd) env hhand body hbody
    refine hlog.texts [rd] ⟨by simp [ipcMsgEnvMsgSize], _, hmsg, ?_⟩
      (List.sublist_append_right ..)
    refine ⟨fun i hi => ?_, ?_⟩
    · obtain rfl : i = 0 := Nat.lt_one_iff.1 hi
      exact ⟨Function.update_self .., hrd⟩
    · exact (Function.update_of_ne Nat.one_ne_zero ..).trans hone

/-- Pong is off: what goes out at a line end is the line, but for its last byte. -/
theorem uartLineEnd_carries (hline : Buffers s.uart line) (hpos : 0 < s.uart.inputIndex)
    {letter : Letter} {msg : Option Body} (h : lineBody s.lineEnded.uart msg = some letter.msg) :
    letter.Carries (buffered line).dropLast := by
  have hindex : s.lineEnded.uart.inputIndex = s.uart.inputIndex := lineEnded_inputIndex s
  unfold lineBody at h
  rw [if_neg (by omega)] at h
  obtain ⟨body, -, hletter⟩ := Option.map_eq_some_iff.1 h
  refine ⟨?_, _, hletter.symm, ?_⟩
  · have hle := buffered_length_le line
    rw [List.length_dropLast]
    unfold lineRoom at hle
    unfold ipcMsgEnvMsgSize
    omega
  · rw [hindex]
    exact hline.holdsText hpos body

/-- If a line ends, something was kept of it; and a character for the pong process is a NUL, or goes
out in an envelope that has one behind it. -/
def LineSafe (s : Kernel n) : Label → Prop
  | .irqUart ucsr rd => ucsr &&& 1 ≠ 0 →
    if s.uart.pongMode = true then
      rd = 0 ∨ ∀ env ∈ s.atHand, ∀ body ∈ (s.ipc.env env).msg, body 1 = 0
    else rd = kbLineEnd → 0 < s.uart.inputIndex
  | _ => True

instance (s : Kernel n) : (l : Label) → Decidable (LineSafe s l)
  | .irqUart ucsr rd => inferInstanceAs (Decidable (ucsr &&& 1 ≠ 0 →
      if s.uart.pongMode = true then
        rd = 0 ∨ ∀ env ∈ s.atHand, ∀ body ∈ (s.ipc.env env).msg, body 1 = 0
      else rd = kbLineEnd → 0 < s.uart.inputIndex))
  | .call _ | .resume | .irqTimer _ | .write .. | .startPong => isTrue trivial

theorem uartReceive_texts (hcur : s.sched.currentProcess = some u)
    (hi : (s.sched.pTable u).isIProcess = true) (hline : s.Typed line) {ucsr : UInt8}
    (hdata : ucsr &&& 1 ≠ 0) (hsafe : LineSafe s (.irqUart ucsr rd))
    (h : s.uartReceive rd = some s') : Texts u (line ++ [rd]) s s' := by
  have hsafe := hsafe hdata
  unfold uartReceive at h
  by_cases hpong : s.uart.pongMode = true
  · rw [if_pos hpong] at h hsafe
    exact uartPong_texts hcur hi h hsafe
  rw [if_neg hpong] at h hsafe
  have hbuffers := hline (eq_false_of_ne_true hpong)
  split at h
  · rename_i hrd
    obtain ⟨-, ⟨-, hipc⟩ | ⟨env, letter, -, -, hfilled, hlog⟩⟩ := uartLineEnd_log hcur hi h
    · exact .of_log (congrArg Ipc.log hipc)
    · refine hlog.texts _ (uartLineEnd_carries hbuffers (hsafe hrd) hfilled) ?_
      exact ((List.dropLast_sublist _).trans (buffered_sublist line)).trans
        (List.sublist_append_left ..)
  split at h
  · rcases uartEnter_cases h with ⟨-, rfl⟩ | ⟨-, rfl⟩ <;> exact .of_log rfl
  · cases h
    exact .of_log rfl

end Kernel

open Kernel

/-- In every run whose steps meet the condition, the accesses to `InBuffer` are within bounds,
nothing outside is written, and what the UART sends as console input is a text made of bytes
received since the last line end. -/
theorem input_bounded {table : Fin n → PcbInit} {u : Fin n} {w : Kernel n × List UInt8}
    (hu : UartIs table u)
    (hw : Reach Kernel.watch (WatchedFromBoot table) (fun w l => LineSafe w.1 l) w)
    {ucsr rd : UInt8} (hsafe : LineSafe w.1 (.irqUart ucsr rd)) :
    (ucsr &&& 1 ≠ 0 → ∀ i ∈ inBufferAccesses w.1.uart rd, 0 ≤ i ∧ i < inputBufferSize) ∧
      ∀ s', w.1.step (.irqUart ucsr rd) = some s' →
        (∀ i, s'.uart.inBuffer i ≠ w.1.uart.inBuffer i → 0 ≤ i ∧ i < inputBufferSize) ∧
          Texts u (if ucsr &&& 1 = 0 then w.2 else w.2 ++ [rd]) w.1 s' := by
  obtain ⟨hreach, htyped⟩ := watched hu hw
  have htabled := (Tabled.tailed hreach).1
  have hbounds : ucsr &&& 1 ≠ 0 →
      ∀ i ∈ inBufferAccesses w.1.uart rd, 0 ≤ i ∧ i < inputBufferSize := by
    intro hdata i hi
    refine inBufferAccesses_bounds htyped (fun hpong hrd => ?_) hi
    have hsafe := hsafe hdata
    rw [if_neg (by rw [hpong]; decide)] at hsafe
    exact hsafe hrd
  refine ⟨hbounds, fun s' hstep => ?_⟩
  obtain ⟨t, t', henter, hcur, hipc, huart, hran, hipc', huart'⟩ :=
    irqUart_cases (htabled.uart_found hu) htabled.interrupted hstep
  suffices h : (∀ i, t'.uart.inBuffer i ≠ t.uart.inBuffer i → 0 ≤ i ∧ i < inputBufferSize) ∧
      Texts u (if ucsr &&& 1 = 0 then w.2 else w.2 ++ [rd]) t t' by
    unfold Texts at h ⊢
    rw [hipc', huart', ← hipc, ← huart]
    exact h
  unfold uartIProcess at hran
  by_cases hdata : ucsr &&& 1 = 0
  · rw [if_pos hdata]
    rw [if_neg (not_not_intro hdata)] at hran
    split at hran
    · refine ⟨fun i hi => ?_, uartTransmit_texts hcur hran⟩
      rw [(uartTransmit_sameInput hcur hran).buffer] at hi
      contradiction
    · cases hran
      exact ⟨fun i hi => absurd rfl hi, .of_log rfl⟩
  · rw [if_neg hdata]
    rw [if_pos hdata] at hran
    have hi : (t.sched.pTable u).isIProcess = true :=
      hu.isIProcess ((act_frame htabled.regular henter).2.ids.trans htabled.ids)
    refine ⟨fun i hne => ?_, uartReceive_texts hcur hi (fun hpong => ?_) hdata ?_ hran⟩
    · by_contra hout
      refine hne (uartReceive_inBuffer hcur hi hran fun haccess => hout ?_)
      exact hbounds hdata i (huart ▸ haccess)
    · rw [huart] at hpong ⊢
      exact htyped hpong
    · unfold LineSafe atHand
      rw [huart, hipc]
      exact hsafe

/-- A line of one character, after a hotkey. -/
theorem input_bounded_itable :
    ∃ w, Reach Kernel.watch (WatchedFromBoot itable) (fun w l => LineSafe w.1 l) w ∧
      w.2 = [33, 97, 13] ∧ (w.1.step (.irqUart 1 0)).isSome = true ∧
      ((1 : UInt8) &&& 1 ≠ 0 → ∀ i ∈ inBufferAccesses w.1.uart 0, 0 ≤ i ∧ i < inputBufferSize) ∧
        ∀ s', w.1.step (.irqUart 1 0) = some s' →
          (∀ i, s'.uart.inBuffer i ≠ w.1.uart.inBuffer i → 0 ≤ i ∧ i < inputBufferSize) ∧
            Texts 1 (if (1 : UInt8) &&& 1 = 0 then w.2 else w.2 ++ [0]) w.1 s' := by
  have hrun : ((Kernel.kInit Kernel.Ram.zero itable).bind fun s =>
      exec (guarded Kernel.watch fun w l => LineSafe w.1 l) (s, []) [
        .irqUart 1 33, .irqUart 1 97, .irqUart 1 13]).any (fun w => decide (
          w.2 = [33, 97, 13] ∧ LineSafe w.1 (.irqUart 1 0)) &&
            (w.1.step (.irqUart 1 0)).isSome) = true := by
    decide +kernel
  obtain ⟨w, hw, hfacts⟩ := (Option.any_eq_true ..).1 hrun
  obtain ⟨hfacts, hsome⟩ := Bool.and_eq_true_iff.1 hfacts
  obtain ⟨hline, hsafe⟩ := of_decide_eq_true hfacts
  obtain ⟨s, hinit, hexec⟩ := Option.bind_eq_some_iff.1 hw
  have hreach : Reach Kernel.watch (WatchedFromBoot itable) (fun w l => LineSafe w.1 l) w :=
    (Reach.init ⟨⟨_, hinit⟩, rfl⟩).guarded hexec
  exact ⟨w, hreach, hline, hsome, input_bounded itable_uart hreach hsafe⟩

/-- The first byte is a line end. -/
theorem input_bounded_fails :
    ∃ s, Kernel.kInit Kernel.Ram.zero itable = some s ∧
      (s.step (.irqUart 1 0)).isSome = true ∧
      ¬ ∀ i ∈ inBufferAccesses s.uart 0, 0 ≤ i ∧ i < inputBufferSize := by
  have hrun : ((Kernel.kInit Kernel.Ram.zero itable).any fun s =>
      (s.step (.irqUart 1 0)).isSome && decide (inBufferAccesses s.uart 0 = [-1])) = true := by
    decide +kernel
  obtain ⟨s, hinit, hfacts⟩ := (Option.any_eq_true ..).1 hrun
  obtain ⟨hsome, haccess⟩ := Bool.and_eq_true_iff.1 hfacts
  refine ⟨s, hinit, hsome, fun hbounds => ?_⟩
  rw [of_decide_eq_true haccess] at hbounds
  exact absurd (hbounds (-1) List.mem_cons_self).1 (by decide)

end Rtx.Coldfire
