import Rtx.Coldfire.ErrorAtomic

/-!
# Input without envelopes

What the receive branch of `uart_i_process` does when `k_request_msg_env` has nothing for it. A line
end goes without an envelope: the line is dropped, and nothing but the variables of the UART has
changed. A character for the pong process does not: its envelope is written to without a look at the
pointer. A hotkey requests nothing, but walks the queues. Those of the processes always end; those
of the envelopes may have a cycle, since an envelope can be delayed while it is in a mailbox. So the
branch survives exactly if there is an envelope whenever pong is on, if what it does get can be
filled and sent, and if the queues a hotkey walks end (`uart_exhaustion_iff`).
-/

namespace Rtx.Coldfire

open Linked Transition

variable {n : ℕ} {table : Fin n → PcbInit} {u : Fin n}

theorem UartIs.isIProcess {S : Sched n} (hu : UartIs table u) (hids : S.ids = tableIds table) :
    (S.pTable u).isIProcess = true :=
  (congrArg Prod.snd (congrFun hids u)).trans hu.2

namespace Kernel

variable {s s' t : Kernel n} {env : EnvPtr} {queue : QueuePtr n} {rd : UInt8}

/-! ## The condition -/

/-- What `k_request_msg_env` returns to an i-process. -/
def atHand (s : Kernel n) : Option EnvPtr :=
  (s.ipc.queue .freeEnvQ).head.or (s.ipc.queue .sysFreeEnvQ).head

/-- The mailbox of the process with this pid can be appended to, if there is one. -/
def Mailable (s : Kernel n) (pid : ℤ) : Prop :=
  ∀ dest, s.sched.kGetProcess pid = some dest → s.ipc.Linkable (.recvMsgs dest)

/-- The envelopes of the queue are linked to a null pointer. -/
def QueueEnds (s : Kernel n) (queue : QueuePtr n) : Prop :=
  Ends (nextOf s.ipc.env) (s.ipc.queue queue).head

/-- The envelopes of the queue are linked to a null pointer, and their texts end inside them. -/
def QueuePrints (s : Kernel n) (queue : QueuePtr n) : Prop :=
  ∃ l, Chain (nextOf s.ipc.env) (s.ipc.queue queue).head l ∧
    ∀ env ∈ l, ∀ body ∈ (s.ipc.env env).msg, Terminated body

/-- The queues the character makes `hotkey` walk end: the free envelopes for a backquote, and the
mailboxes for a `!`. -/
def WalksEnd (s : Kernel n) (c : UInt8) : Prop :=
  (c = 0x60 → s.QueueEnds .freeEnvQ ∧ s.QueueEnds .sysFreeEnvQ) ∧
    (c = 0x21 → ∀ pid pcb, s.sched.kGetProcess pid = some pcb → s.QueuePrints (.recvMsgs pcb))

/-- The receive branch has the envelope it writes to, if it writes to one, and can fill it in and
send it. With pong off it looks at the pointer first, and a hotkey has queues to walk that end. -/
def ReceiveReady (s : Kernel n) (charIn : UInt8) : Prop :=
  if s.uart.pongMode = true then
    ∃ env, s.atHand = some env ∧ (s.ipc.env env).msg.isSome = true ∧ s.Mailable pongPid
  else
    (charIn = kbLineEnd → ∀ env, s.atHand = some env →
      (s.uart.inputIndex ≤ 0 ∨ (s.ipc.env env).msg.isSome = true) ∧
        ((s.ipc.env env).msg.isSome = true → s.Mailable cciPid)) ∧
      (s.uart.inputIndex < inputBufferSize - 2 → s.WalksEnd charIn)

/-- No mailbox has changed, no state of a process and no count of envelopes. -/
structure Undisturbed (s s' : Kernel n) : Prop where
  env : s'.ipc.env = s.ipc.env
  recvMsgs : ∀ p, s'.ipc.queue (.recvMsgs p) = s.ipc.queue (.recvMsgs p)
  state : ∀ p, (s'.sched.pTable p).state = (s.sched.pTable p).state
  envOwned : s'.ipc.envOwned = s.ipc.envOwned

/-- An interrupt with this character goes through, and disturbs no process if there is no envelope
for it. -/
def Survives (s : Kernel n) (charIn : UInt8) : Prop :=
  ∃ s', s.isrHandler uartIProcessPid (·.uartReceive charIn) = some s' ∧
    (s.atHand = none → s.Undisturbed s')

/-! ## Requests of the UART -/

theorem Requests.head (h : Requests s u queue env s') : (s.ipc.queue queue).head = some env := by
  obtain ⟨J, htake, -⟩ := Option.map_eq_some_iff.1 h.ipc
  obtain ⟨hdeq, -⟩ := Option.ite_none_right_eq_some.1 htake
  rw [Ipc.dequeue_fst] at hdeq
  exact hdeq

theorem Requests.letter (h : Requests s u queue env s') (x : EnvPtr) :
    (s'.ipc.env x).toLetter = (s.ipc.env x).toLetter := by
  obtain ⟨J, htake, hJ⟩ := Option.map_eq_some_iff.1 h.ipc
  rw [← hJ]
  exact Ipc.take_letter htake x

/-- A request of an i-process returns, with the envelope at hand or with null. -/
theorem requestNow_atHand (hcur : s.sched.currentProcess = some u)
    (hi : (s.sched.pTable u).isIProcess = true) :
    (s.atHand = none ∧ s.requestNow = some (none, s)) ∨
      ∃ queue env t, s.atHand = some env ∧ (queue = .freeEnvQ ∨ queue = .sysFreeEnvQ) ∧
        s.requestNow = some (some env, t) ∧ Requests s u queue env t := by
  by_cases hfree : s.ipc.isEmpty .freeEnvQ = true
  · have hfree' : (s.ipc.queue .freeEnvQ).head = none := Option.isNone_iff_eq_none.1 hfree
    by_cases hsys : s.ipc.isEmpty .sysFreeEnvQ = true
    · have hsys' : (s.ipc.queue .sysFreeEnvQ).head = none := Option.isNone_iff_eq_none.1 hsys
      refine .inl ⟨by rw [atHand, hfree', hsys']; rfl, ?_⟩
      simp [requestNow, kRequestMsgEnv, hcur, hfree, hi, hsys, Outcome.returned]
    · obtain ⟨env, t, htake, hreq⟩ := takeEnv_cases hcur (eq_false_of_ne_true hsys)
      refine .inr ⟨.sysFreeEnvQ, env, t, ?_, .inr rfl, ?_, hreq⟩
      · rw [atHand, hfree', hreq.head]
        rfl
      · simp [requestNow, kRequestMsgEnv, hcur, hfree, hi, hsys, htake, Outcome.returned]
  · obtain ⟨env, t, htake, hreq⟩ := takeEnv_cases hcur (eq_false_of_ne_true hfree)
    refine .inr ⟨.freeEnvQ, env, t, ?_, .inl rfl, ?_, hreq⟩
    · rw [atHand, hreq.head]
      rfl
    · simp [requestNow, kRequestMsgEnv, hcur, hfree, htake, Outcome.returned]

/-! ## What goes through -/

/-- The requested envelope is filled in and sent: that goes through if the mailbox can be appended
to, or if it has no body. -/
theorem sendRequested_isSome_iff (h : s.sched.Tailed) (hcur : s.sched.currentProcess = some u)
    (hreq : Requests s u queue env t) (hqueue : queue = .freeEnvQ ∨ queue = .sysFreeEnvQ)
    (letter : Letter) (pid : ℤ) :
    ((t.filled env letter).kSendMessage pid (some env)).isSome = true ↔
      (letter.msg.isSome = true → s.Mailable pid) := by
  have htailed : (t.filled env letter).sched.Tailed := by
    change t.sched.Tailed
    rw [hreq.sched]
    exact h
  have hcur' : (t.filled env letter).sched.currentProcess = some u := by
    change t.sched.currentProcess = some u
    rw [hreq.sched, hcur]
  have hmsg : ((t.filled env letter).ipc.env env).msg = letter.msg :=
    congrArg Letter.msg (Ipc.toLetter_setLetter_self ..)
  have hfound : (t.filled env letter).sched.kGetProcess pid = s.sched.kGetProcess pid := by
    change t.sched.kGetProcess pid = _
    rw [hreq.sched]
  have hlink : ∀ dest, (t.filled env letter).ipc.Linkable (.recvMsgs dest) ↔
      s.ipc.Linkable (.recvMsgs dest) := by
    intro dest
    change t.ipc.Linkable (.recvMsgs dest) ↔ _
    rw [Ipc.Linkable, Ipc.Linkable, hreq.mail hqueue]
  rw [kSendMessage_isSome_iff htailed hcur', hmsg, hfound]
  simp only [hlink]
  rfl

theorem uartPong_eq {body : Body} (rd : UInt8) (hrequest : s.requestNow = some (some env, t))
    (hmsg : (t.ipc.env env).msg = some body) :
    s.uartPong rd = ((t.filled env { (t.ipc.env env).toLetter with
      msgType := consoleInput
      msg := some (Function.update body 0 rd) }).kSendMessage pongPid (some env)).map Prod.snd := by
  rw [uartPong, hrequest]
  simp only [Option.bind_eq_bind, Option.bind_some, hmsg, Option.map_eq_bind]
  rfl

theorem uartPong_isSome_iff (h : s.sched.Tailed) (hcur : s.sched.currentProcess = some u)
    (hi : (s.sched.pTable u).isIProcess = true) :
    (s.uartPong rd).isSome = true ↔ ∃ env, s.atHand = some env ∧
      (s.ipc.env env).msg.isSome = true ∧ s.Mailable pongPid := by
  rcases requestNow_atHand hcur hi with ⟨hnone, hrequest⟩ |
    ⟨queue, env, t, hsome, hqueue, hrequest, hreq⟩
  · simp [uartPong, hrequest, hnone]
  · have hmsg : (t.ipc.env env).msg = (s.ipc.env env).msg := congrArg Letter.msg (hreq.letter env)
    cases hbody : (s.ipc.env env).msg with
    | none => simp [uartPong, hrequest, hmsg, hbody, hsome]
    | some body =>
      rw [uartPong_eq rd hrequest (hmsg.trans hbody), Option.isSome_map,
        sendRequested_isSome_iff h hcur hreq hqueue, hsome]
      simp [hbody]

theorem lineBody_isSome_iff (uart : Uart) (msg : Option Body) :
    (lineBody uart msg).isSome = true ↔ uart.inputIndex ≤ 0 ∨ msg.isSome = true := by
  unfold lineBody
  split
  · rename_i hle
    exact iff_of_true rfl (.inl hle)
  · rename_i hle
    simp [hle]

theorem lineBody_body {uart : Uart} {msg msg' : Option Body} (h : lineBody uart msg = some msg') :
    msg'.isSome = msg.isSome := by
  unfold lineBody at h
  split at h
  · rw [Option.some.inj h]
  · obtain ⟨body, rfl, rfl⟩ := Option.map_eq_some_iff.1 h
    rfl

/-- The line end is echoed and stored. -/
def lineEnded (s : Kernel n) : Kernel n :=
  Kernel.store { s.echo with uart := { s.echo.uart with
    inputIndex := s.echo.uart.inputIndex - 1 } } 0

/-- `inputIndex = 0`. -/
def lineTaken (s : Kernel n) : Kernel n := { s with uart := { s.uart with inputIndex := 0 } }

theorem uartLineEnd_eq (s : Kernel n) : s.uartLineEnd =
    (s.lineEnded.requestNow.bind fun m => m.2.sendLine m.1).map lineTaken := by
  rw [Option.map_eq_bind, Option.bind_assoc]
  rfl

theorem sendLine_eq {msg : Option Body} (h : lineBody s.uart (s.ipc.env env).msg = some msg) :
    s.sendLine (some env) = ((s.filled env { (s.ipc.env env).toLetter with
      msgType := consoleInput
      msg := msg }).kSendMessage cciPid (some env)).map Prod.snd := by
  rw [sendLine, h, Option.map_eq_bind]
  rfl

theorem lineEnded_inputIndex (s : Kernel n) :
    s.lineEnded.uart.inputIndex = s.uart.inputIndex := Int.sub_add_cancel ..

/-- At a line end. The line is in `InBuffer`, and `inputIndex` is where it was. -/
theorem uartLineEnd_isSome_iff (h : s.sched.Tailed) (hcur : s.sched.currentProcess = some u)
    (hi : (s.sched.pTable u).isIProcess = true) :
    s.uartLineEnd.isSome = true ↔ ∀ env, s.atHand = some env →
      (s.uart.inputIndex ≤ 0 ∨ (s.ipc.env env).msg.isSome = true) ∧
        ((s.ipc.env env).msg.isSome = true → s.Mailable cciPid) := by
  rw [uartLineEnd_eq, Option.isSome_map]
  rcases requestNow_atHand (s := s.lineEnded) (u := u) hcur hi with ⟨hnone, hrequest⟩ |
    ⟨queue, env, t, hsome, hqueue, hrequest, hreq⟩
  · have hnone' : s.atHand = none := hnone
    simp [hrequest, hnone', sendLine]
  · have hsome' : s.atHand = some env := hsome
    have hmsg : (t.ipc.env env).msg = (s.ipc.env env).msg := congrArg Letter.msg (hreq.letter env)
    have hindex : t.uart.inputIndex = s.uart.inputIndex := by
      rw [hreq.uart, lineEnded_inputIndex]
    rw [hrequest, hsome']
    simp only [Option.bind_some, Option.some.injEq, forall_eq']
    rw [← hmsg, ← hindex, ← lineBody_isSome_iff]
    cases hline : lineBody t.uart (t.ipc.env env).msg with
    | none => simp [sendLine, hline]
    | some msg =>
      rw [sendLine_eq hline, Option.isSome_map,
        sendRequested_isSome_iff (s := s.lineEnded) h hcur hreq hqueue, lineBody_body hline]
      simp
      rfl

/-! ## Hotkeys -/

theorem processAt_isSome (s : Kernel n) (i : Fin n) : (s.processAt i).isSome = true :=
  Sched.kGetProcess_isSome.2 ⟨i, rfl⟩

theorem printQueues_isSome_iff (h : s.sched.Ended) :
    s.printQueues.isSome = true ↔ s.QueueEnds .freeEnvQ ∧ s.QueueEnds .sysFreeEnvQ := by
  obtain ⟨⟨⟩, hready⟩ := Option.isSome_iff_exists.1
    (procPqPrint_isSome h.ends (s.sched.pq .readyPq))
  obtain ⟨⟨⟩, hblocked⟩ := Option.isSome_iff_exists.1
    (procPqPrint_isSome h.ends (s.sched.pq .blockedRequestEnvPq))
  have hstates :
      ((List.finRange n).forM fun i => (s.processAt i).map fun _ => ()).isSome = true := by
    refine isSome_forM_iff.2 fun i _ => ?_
    rw [Option.isSome_map]
    exact processAt_isSome s i
  rw [QueueEnds, QueueEnds, ← msgEnvQueueSize_isSome_iff fun _ => Ipc.length_lt_envFuel,
    ← msgEnvQueueSize_isSome_iff fun _ => Ipc.length_lt_envFuel, printQueues, hready, hblocked]
  cases msgEnvQueueSize s.ipc.env Ipc.envFuel (some (s.ipc.queue .freeEnvQ)) with
  | none => simp
  | some k =>
    cases msgEnvQueueSize s.ipc.env Ipc.envFuel (some (s.ipc.queue .sysFreeEnvQ)) with
    | none => simp
    | some m => simpa using hstates

theorem printMailboxes_isSome_iff : s.printMailboxes.isSome = true ↔
    ∀ pid pcb, s.sched.kGetProcess pid = some pcb → s.QueuePrints (.recvMsgs pcb) := by
  rw [printMailboxes, isSome_forM_iff]
  constructor
  · intro h pid pcb hpcb
    obtain ⟨i, rfl⟩ := Sched.kGetProcess_isSome.1 (Option.isSome_of_eq_some hpcb)
    have hprint := h i (List.mem_finRange i)
    rw [processAt, hpcb] at hprint
    exact (msgEnvQueuePrint_isSome_iff fun _ => Ipc.length_lt_envFuel).1 hprint
  · intro h i _
    obtain ⟨pcb, hpcb⟩ := Option.isSome_iff_exists.1 (processAt_isSome s i)
    rw [hpcb]
    exact (msgEnvQueuePrint_isSome_iff fun _ => Ipc.length_lt_envFuel).2 (h _ pcb hpcb)

theorem hotkey_isSome_iff (h : s.sched.Ended) (c : UInt8) :
    (s.hotkey c).isSome = true ↔ s.WalksEnd c := by
  unfold hotkey WalksEnd
  by_cases hqueues : c = 0x60
  · subst hqueues
    simp [printQueues_isSome_iff h]
  rw [if_neg hqueues]
  by_cases hmail : c = 0x21
  · subst hmail
    simp [printMailboxes_isSome_iff]
  rw [if_neg hmail]
  refine iff_of_true ?_ ⟨fun heq => absurd heq hqueues, fun heq => absurd heq hmail⟩
  split
  · rw [Option.isSome_map]
    refine isSome_forM_iff.2 fun i _ => ?_
    rw [Option.isSome_map]
    exact processAt_isSome s i
  · rfl

theorem uartEnter_isSome_iff (h : s.sched.Ended) (c : UInt8) :
    (s.uartEnter c).isSome = true ↔ s.WalksEnd c := by
  rw [← hotkey_isSome_iff h, uartEnter]
  cases s.hotkey c with
  | none => simp
  | some key => cases key <;> simp

/-- A line end is no hotkey. -/
theorem walksEnd_lineEnd (s : Kernel n) : s.WalksEnd kbLineEnd := by
  refine ⟨fun hkey => ?_, fun hkey => ?_⟩ <;> exact absurd hkey (by decide)

theorem uartReceive_isSome_iff (h : s.sched.Tailed) (hended : s.sched.Ended)
    (hcur : s.sched.currentProcess = some u) (hi : (s.sched.pTable u).isIProcess = true) :
    (s.uartReceive rd).isSome = true ↔ s.ReceiveReady rd := by
  unfold uartReceive ReceiveReady
  by_cases hpong : s.uart.pongMode = true
  · rw [if_pos hpong, if_pos hpong]
    exact uartPong_isSome_iff h hcur hi
  rw [if_neg hpong, if_neg hpong]
  by_cases hline : rd = kbLineEnd
  · rw [if_pos hline, uartLineEnd_isSome_iff h hcur hi]
    subst hline
    exact ⟨fun h => ⟨fun _ => h, fun _ => s.walksEnd_lineEnd⟩, fun h => h.1 rfl⟩
  · rw [if_neg hline]
    by_cases hroom : s.uart.inputIndex < inputBufferSize - 2
    · rw [if_pos hroom, uartEnter_isSome_iff hended]
      exact ⟨fun h => ⟨fun heq => absurd heq hline, fun _ => h⟩, fun h => h.2 hroom⟩
    · rw [if_neg hroom]
      exact iff_of_true rfl ⟨fun heq => absurd heq hline, fun hlt => absurd hlt hroom⟩

theorem uartLineEnd_none (hcur : s.sched.currentProcess = some u)
    (hi : (s.sched.pTable u).isIProcess = true) (hnone : s.atHand = none) :
    s.uartLineEnd = some s.lineEnded.lineTaken := by
  have hrequest : s.lineEnded.requestNow = some (none, s.lineEnded) := by
    rcases requestNow_atHand (s := s.lineEnded) (u := u) hcur hi with ⟨-, hrequest⟩ |
      ⟨queue, env, t, hsome, -⟩
    · exact hrequest
    · exact absurd (hnone.symm.trans hsome) (Option.some_ne_none env).symm
  rw [uartLineEnd_eq, hrequest]
  rfl

theorem uartReceive_none (hcur : s.sched.currentProcess = some u)
    (hi : (s.sched.pTable u).isIProcess = true) (hnone : s.atHand = none)
    (h : s.uartReceive rd = some s') : s'.ipc = s.ipc ∧ s'.sched = s.sched := by
  unfold uartReceive at h
  split at h
  · rcases requestNow_atHand hcur hi with ⟨-, hrequest⟩ | ⟨queue, env, t, hsome, -⟩
    · rw [uartPong, hrequest] at h
      contradiction
    · exact absurd (hnone.symm.trans hsome) (Option.some_ne_none env).symm
  split at h
  · rw [uartLineEnd_none hcur hi hnone] at h
    cases h
    exact ⟨rfl, rfl⟩
  split at h
  · rcases uartEnter_cases h with ⟨-, rfl⟩ | ⟨-, rfl⟩ <;> exact ⟨rfl, rfl⟩
  · cases h
    exact ⟨rfl, rfl⟩

/-- An interrupt of the UART runs it. -/
theorem Tabled.isrHandler_uart (h : s.Tabled table) (hu : UartIs table u)
    (start : Kernel n → Option (Kernel n)) : s.isrHandler uartIProcessPid start =
      (start { s with sched := s.sched.enterIsr uartIProcessPid }).map fun s =>
        { s with sched := s.sched.exitIsr } := by
  have hcur : (s.sched.enterIsr uartIProcessPid).currentProcess = some u := h.uart_found hu
  unfold isrHandler
  simp only [hcur]

/-- The receive branch comes through in an interrupt, if its envelope is there. -/
theorem isrReceive_isSome_iff (htabled : s.Tabled table) (htailed : s.sched.Tailed)
    (hended : s.sched.Ended) (hu : UartIs table u) :
    (s.isrHandler uartIProcessPid (·.uartReceive rd)).isSome = true ↔ s.ReceiveReady rd := by
  rw [htabled.isrHandler_uart hu, Option.isSome_map]
  exact uartReceive_isSome_iff (htailed.of_pq rfl) (hended.of_next rfl) (htabled.uart_found hu)
    (hu.isIProcess htabled.ids)

/-- As long as the processes only give away what they hold, no queue has a cycle. -/
theorem queueEnds_of_owning (hs : Reach Kernel.step (Booted table) Owning s) (queue : QueuePtr n) :
    s.QueueEnds queue := by
  obtain ⟨l, hrep⟩ := queueRep_of_owning hs queue
  exact ⟨l, hrep.chain⟩

end Kernel

open Kernel

/-- In every reachable state an interrupt with a received character is survived if and only if the
envelope it needs is there, and the queues it walks end. -/
theorem uart_exhaustion_iff {table : Fin n → PcbInit} {u : Fin n} {s : Kernel n}
    (hu : UartIs table u) (hs : Reach Kernel.step (Kernel.Booted table) (fun _ _ => True) s)
    (rd : UInt8) : s.Survives rd ↔ s.ReceiveReady rd := by
  obtain ⟨htabled, htailed, hended⟩ := Tabled.linked hs
  rw [← isrReceive_isSome_iff htabled htailed hended hu, Survives]
  constructor
  · rintro ⟨s', hsome, -⟩
    rw [hsome]
    rfl
  · intro hsome
    obtain ⟨s', hs'⟩ := Option.isSome_iff_exists.1 hsome
    refine ⟨s', hs', fun hnone => ?_⟩
    rw [htabled.isrHandler_uart hu] at hs'
    obtain ⟨t, ht, rfl⟩ := Option.map_eq_some_iff.1 hs'
    have hcur : (s.sched.enterIsr uartIProcessPid).currentProcess = some u := htabled.uart_found hu
    obtain ⟨hipc, hsched⟩ := uartReceive_none
      (s := { s with sched := s.sched.enterIsr uartIProcessPid }) hcur
      (hu.isIProcess htabled.ids) hnone ht
    have hipc' : t.ipc = s.ipc := hipc
    refine ⟨congrArg Ipc.env hipc', fun p => by rw [hipc'], fun p => ?_,
      congrArg Ipc.envOwned hipc'⟩
    change (t.sched.pTable p).state = _
    rw [hsched]
    rfl

/-- All the envelopes of `free_env_q` are requested. -/
def drain : List Label := List.replicate ipcNumFreeMsgEnvs (.call .requestMsgEnv)

/-- With pong off a line end is survived without an envelope. Two lines before it took the envelopes
of the system. -/
theorem uart_exhaustion_itable :
    ∃ s, Reach Kernel.step (Kernel.Booted itable) (fun _ _ => True) s ∧ s.atHand = none ∧
      s.Survives kbLineEnd := by
  have hrun : ((Kernel.kInit Kernel.Ram.zero itable).bind fun s =>
      exec Kernel.step s (drain ++ [.irqUart 1 97, .irqUart 1 0, .irqUart 1 0])).any (fun s =>
        decide (s.atHand = none ∧ s.uart.pongMode = false)) = true := by
    decide +kernel
  obtain ⟨s, hs, hfacts⟩ := (Option.any_eq_true ..).1 hrun
  obtain ⟨hnone, hpong⟩ := of_decide_eq_true hfacts
  obtain ⟨s₀, hinit, hexec⟩ := Option.bind_eq_some_iff.1 hs
  have hreach : Reach Kernel.step (Kernel.Booted itable) (fun _ _ => True) s :=
    (Reach.init ⟨_, hinit⟩).exec (.of_forall fun _ _ _ => trivial) hexec
  refine ⟨s, hreach, hnone, (uart_exhaustion_iff itable_uart hreach kbLineEnd).2 ?_⟩
  rw [ReceiveReady, if_neg (by rw [hpong]; decide)]
  refine ⟨fun _ env henv => ?_, fun _ => ⟨nofun, nofun⟩⟩
  rw [hnone] at henv
  exact absurd henv.symm (Option.some_ne_none env)

/-- With pong on it is not. -/
theorem uart_exhaustion_fails :
    ∃ s, Reach Kernel.step (Kernel.Booted itable) (fun _ _ => True) s ∧
      s.running = some (2, .user) ∧ s.atHand = none ∧ s.step (.irqUart 1 99) = none ∧
      ¬ s.Survives 99 := by
  have hrun : ((Kernel.kInit Kernel.Ram.zero itable).bind fun s =>
      exec Kernel.step s (drain ++ [.startPong, .irqUart 1 97, .irqUart 1 98])).any (fun s =>
        decide (s.running = some (2, .user) ∧ s.atHand = none) &&
          ((s.step (.irqUart 1 99)).isNone &&
            (s.isrHandler uartIProcessPid (·.uartReceive 99)).isNone)) = true := by
    decide +kernel
  obtain ⟨s, hs, hfacts⟩ := (Option.any_eq_true ..).1 hrun
  obtain ⟨hfacts, hfaults⟩ := Bool.and_eq_true_iff.1 hfacts
  obtain ⟨hrunning, hnone⟩ := of_decide_eq_true hfacts
  obtain ⟨hstep, hisr⟩ := Bool.and_eq_true_iff.1 hfaults
  obtain ⟨s₀, hinit, hexec⟩ := Option.bind_eq_some_iff.1 hs
  refine ⟨s, (Reach.init ⟨_, hinit⟩).exec (.of_forall fun _ _ _ => trivial) hexec, hrunning, hnone,
    Option.isNone_iff_eq_none.1 hstep, ?_⟩
  rintro ⟨s', hsome, -⟩
  rw [hsome] at hisr
  exact absurd hisr Bool.false_ne_true

/-- An envelope that waits for a delay is sent to the pong process, and delayed again. -/
def delayMailed : List Label := [
  .call .requestMsgEnv, .call (.requestDelay 10 0 (some (.envPool 0))), .irqTimer fun _ => none,
  .call (.sendMessage pongPid (some (.envPool 0))),
  .call (.requestDelay 20 0 (some (.envPool 0))), .irqTimer fun _ => none]

/-- It is then linked to itself in the mailbox. The `!` does not end, the backquote does. -/
example : ((Kernel.kInit Kernel.Ram.zero itable).bind fun s => exec Kernel.step s delayMailed).any
    (fun s => !s.uart.pongMode && (s.step (.irqUart 1 0x21)).isNone &&
      (s.step (.irqUart 1 0x60)).isSome) = true := by
  decide +kernel

end Rtx.Coldfire
