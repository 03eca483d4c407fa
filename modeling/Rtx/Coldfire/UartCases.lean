import Rtx.Coldfire.Acts

/-!
# What the UART i-process can do

Texts in message bodies, and one inversion lemma for each branch of `uart_i_process`: what happens
to its variables, to the log and to its mailbox.
-/

namespace Rtx.Coldfire

variable {n : ℕ}

/-! ## Texts -/

/-- The body begins with the text, and then a NUL. -/
structure HoldsText (b : Body) (text : List UInt8) : Prop where
  char : ∀ i (h : i < text.length), b i = text[i] ∧ text[i] ≠ 0
  nul : b text.length = 0

theorem textOf_eq {b : Body} {text : List UInt8} (h : HoldsText b text)
    (hlength : text.length < ipcMsgEnvMsgSize) : textOf b = text := by
  have hprefix : (List.range text.length).map b = text := by
    refine List.ext_getElem (by simp) fun i hi hi' => ?_
    simpa using (h.char i hi').1
  obtain ⟨m, hm⟩ : ∃ m, ipcMsgEnvMsgSize = text.length + (m + 1) :=
    ⟨ipcMsgEnvMsgSize - text.length - 1, by omega⟩
  have htext : ∀ c ∈ text, decide (c ≠ 0) = true := by
    intro c hc
    obtain ⟨i, hi, rfl⟩ := List.getElem_of_mem hc
    simpa using (h.char i hi).2
  rw [textOf, hm, List.range_add, List.map_append, hprefix, List.range_succ_eq_map, List.map_cons,
    List.map_cons, Nat.add_zero, h.nul, List.takeWhile_append_of_pos htext,
    List.takeWhile_cons_of_neg (by simp), List.append_nil]

theorem copyText_spec {msg out out' : Body} {fuel i : ℕ} (h : copyText msg fuel i out = some out') :
    ∃ k, i ≤ k ∧ k < i + fuel ∧ msg k = 0 ∧ out' k = 0 ∧
      (∀ j, i ≤ j → j < k → msg j ≠ 0 ∧ out' j = msg j) ∧ ∀ j, j < i → out' j = out j := by
  induction fuel generalizing i out with
  | zero => contradiction
  | succ fuel ih =>
    unfold copyText at h
    split at h
    · rename_i hchar
      obtain ⟨k, hik, hk, hmsg, hout, hcopied, hbefore⟩ := ih h
      refine ⟨k, by omega, by omega, hmsg, hout, fun j hij hjk => ?_, fun j hj => ?_⟩
      · rcases Nat.eq_or_lt_of_le hij with rfl | hlt
        · refine ⟨hchar, ?_⟩
          rw [hbefore i (Nat.lt_succ_self i), Function.update_self]
        · exact hcopied j hlt hjk
      · rw [hbefore j (by omega), Function.update_of_ne (by omega)]
    · rename_i hnul
      cases h
      refine ⟨i, Nat.le_refl i, by omega, not_not.1 hnul, Function.update_self ..,
        fun j hij hji => ?_,
        fun j hj => Function.update_of_ne (by omega) ..⟩
      omega

theorem copyText_holds {msg out out' : Body}
    (h : copyText msg ipcMsgEnvMsgSize 0 out = some out') : HoldsText out' (textOf msg) := by
  obtain ⟨k, -, hk, hmsg, hout, hcopied, -⟩ := copyText_spec h
  have hholds : HoldsText msg ((List.range k).map msg) :=
    ⟨fun i hi => by simpa using (hcopied i (Nat.zero_le i) (by simpa using hi)).1,
      by simpa using hmsg⟩
  rw [textOf_eq hholds (by simpa using hk)]
  refine ⟨fun i hi => ?_, by simpa using hout⟩
  have hi' : i < k := by simpa using hi
  simpa using ⟨(hcopied i (Nat.zero_le i) hi').2, (hcopied i (Nat.zero_le i) hi').1⟩

/-- The text in an envelope. -/
def Letter.text (letter : Letter) : List UInt8 := (letter.msg.map textOf).getD []

/-- What an envelope is returned as, by the process with pid `pid`. -/
def Letter.ack (letter : Letter) (pid : ℤ) : Letter :=
  { letter with sendPid := pid, destPid := letter.sendPid, msgType := displayAck }

/-! ## Queues -/

namespace Ipc

variable {I I' : Ipc n} {env : EnvPtr} {p cur dest : Fin n} {queue q : QueuePtr n}

theorem take_queue (h : I.take queue env = some I') (hq : q ≠ queue) :
    I'.queue q = I.queue q := by
  obtain ⟨-, h⟩ := Option.ite_none_right_eq_some.1 h
  cases h
  exact Function.update_of_ne hq ..

theorem enqueue_queue (h : I.enqueue queue env = some I') (hq : q ≠ queue) :
    I'.queue q = I.queue q := by
  obtain ⟨r, -, rfl⟩ := Option.map_eq_some_iff.1 h
  exact Function.update_of_ne hq ..

theorem send_queue {sendPid destPid : ℤ} (h : I.send cur dest env sendPid destPid = some I')
    (hq : q ≠ .recvMsgs dest) : I'.queue q = I.queue q := by
  unfold Ipc.send at h
  simp only at h
  split at h
  · contradiction
  obtain ⟨J, henq, rfl⟩ := Option.map_eq_some_iff.1 h
  have hJ := enqueue_queue henq hq
  exact hJ

theorem receive_queue (h : I.receive p env = some I') (hq : q ≠ .recvMsgs p) :
    I'.queue q = I.queue q := by
  obtain ⟨J, htake, rfl⟩ := Option.map_eq_some_iff.1 h
  have hJ := take_queue htake hq
  exact hJ

theorem request_queue (h : I.request p queue env = some I') (hq : q ≠ queue) :
    I'.queue q = I.queue q := by
  obtain ⟨J, htake, rfl⟩ := Option.map_eq_some_iff.1 h
  have hJ := take_queue htake hq
  exact hJ

theorem release_queue (h : I.release p queue env = some I') (hq : q ≠ queue) :
    I'.queue q = I.queue q := by
  obtain ⟨J, henq, rfl⟩ := Option.map_eq_some_iff.1 h
  have hJ := enqueue_queue henq hq
  exact hJ

end Ipc

namespace Kernel

variable {s s' t : Kernel n} {u : Fin n} {env : EnvPtr} {r : ℤ}

/-! ## Logs -/

theorem Receives.logged (h : Receives s u env s') :
    s'.ipc.log = .received u env (s'.ipc.env env).toLetter :: s.ipc.log := by
  obtain ⟨J, htake, hJ⟩ := Option.map_eq_some_iff.1 h.ipc
  obtain ⟨-, htake⟩ := Option.ite_none_right_eq_some.1 htake
  cases htake
  rw [← hJ]
  rfl

theorem Receives.mail (h : Receives s u env s') : s.ipc.isEmpty (.recvMsgs u) = false := by
  obtain ⟨J, htake, -⟩ := Option.map_eq_some_iff.1 h.ipc
  obtain ⟨hdeq, -⟩ := Option.ite_none_right_eq_some.1 htake
  rw [Ipc.isEmpty, msgEnvQueueIsEmpty, ← Ipc.dequeue_fst, hdeq]
  rfl

theorem Releases.logged (h : Releases s u env s') : s'.ipc.log = .released u env :: s.ipc.log := by
  obtain ⟨J, henq, hJ⟩ := Option.map_eq_some_iff.1 h.ipc
  obtain ⟨q, -, rfl⟩ := Option.map_eq_some_iff.1 henq
  rw [← hJ]
  rfl

theorem kReleaseMsgEnv_releases (hmsg : (s.ipc.env env).msg.isSome)
    (h : s.kReleaseMsgEnv (some env) = some (r, s')) : ∃ cur, Releases s cur env s' := by
  rcases kReleaseMsgEnv_cases h with ⟨hr, -⟩ | ⟨env', cur, henv, -, hrel⟩
  · unfold kReleaseMsgEnv at h
    simp only [Option.isNone_iff_eq_none, Option.isSome_iff_ne_none.1 hmsg, if_false] at h
    obtain ⟨t, -, h⟩ : ∃ t : Kernel n, True ∧
        (t.sched.currentProcess.bind fun cur => some (codeSuccess, { t with
          ipc := (t.ipc.addOwned cur (-1)).emit (.released cur env) })) = some (r, s') := by
      split at h
      · obtain ⟨t, -, h⟩ := Option.bind_eq_some_iff.1 h
        exact ⟨t, trivial, h⟩
      · obtain ⟨ipc, -, h⟩ := Option.bind_eq_some_iff.1 h
        obtain ⟨t, -, h⟩ := Option.bind_eq_some_iff.1 h
        exact ⟨t, trivial, h⟩
    obtain ⟨cur, -, h⟩ := Option.bind_eq_some_iff.1 h
    exact absurd (congrArg Prod.fst (Option.some.inj h)).symm hr
  · obtain rfl := Option.some.inj henv
    exact ⟨cur, hrel⟩

/-! ## The transmit branch -/

/-- The log after an envelope was picked up: it was received, its text was copied, and it was
released or returned, unless there is no process with the pid it came from. -/
inductive PickUpLog (s : Kernel n) (u : Fin n) (env : EnvPtr) (letter : Letter) :
    List (Event n) → Prop
  | released (htype : letter.msgType = consoleOutput) :
      PickUpLog s u env letter
        (.released u env :: .copied env letter.text :: .received u env letter :: s.ipc.log)
  | returned {q : Fin n} (htype : letter.msgType ≠ consoleOutput) :
      PickUpLog s u env letter
        (.sent u q env (letter.ack (s.sched.pTable u).pid) :: .copied env letter.text ::
          .received u env letter :: s.ipc.log)
  | lost (hlost : s.sched.kGetProcess letter.sendPid = none) :
      PickUpLog s u env letter
        (.copied env letter.text :: .received u env letter :: s.ipc.log)

/-- `u` received an envelope and picked up its text. -/
structure PicksUp (s : Kernel n) (u : Fin n) (env : EnvPtr) (letter : Letter) (s' : Kernel n) :
    Prop where
  mail : s.ipc.isEmpty (.recvMsgs u) = false
  uart : ∃ out, HoldsText out letter.text ∧
    s'.uart = { s.uart with outBuffer := out, outputPrintChar := true }
  log : PickUpLog s u env letter s'.ipc.log

/-- An acknowledgement goes back to where the envelope came from, if there is such a process. -/
theorem sendAck_cases (hcur : s.sched.currentProcess = some u)
    (hmsg : (s.ipc.env env).msg.isSome)
    (h : (s.filled env { (s.ipc.env env).toLetter with msgType := displayAck }).kSendMessage
      (s.ipc.env env).sendPid (some env) = some (r, s')) :
    s'.uart = s.uart ∧
      ((s.sched.kGetProcess (s.ipc.env env).sendPid = none ∧ s'.ipc.log = s.ipc.log) ∨
        ∃ q, s'.ipc.log =
          .sent u q env ((s.ipc.env env).toLetter.ack (s.sched.pTable u).pid) :: s.ipc.log) := by
  set letter : Letter := { (s.ipc.env env).toLetter with msgType := displayAck } with hletter
  have hself : ((s.filled env letter).ipc.env env).toLetter = letter :=
    Ipc.toLetter_setLetter_self ..
  cases hdest : s.sched.kGetProcess (s.ipc.env env).sendPid with
  | none =>
    rcases kSendMessage_cases h with ⟨-, rfl⟩ | ⟨env', cur, dest, -, -, hsends⟩
    · exact ⟨rfl, .inl ⟨rfl, rfl⟩⟩
    · have hfound : s.sched.kGetProcess (s.ipc.env env).sendPid = some dest := hsends.found
      rw [hdest] at hfound
      contradiction
  | some q =>
    obtain ⟨cur, dest, hsends⟩ := kSendMessage_sends
      (by rw [show ((s.filled env letter).ipc.env env).msg = letter.msg from
        congrArg Letter.msg hself]; exact hmsg)
      (by rw [show (s.filled env letter).sched = s.sched from rfl, hdest]; rfl) h
    obtain rfl : cur = u := Option.some.inj (hsends.current.symm.trans hcur)
    refine ⟨hsends.uart, .inr ⟨dest, hsends.log.trans ?_⟩⟩
    rw [Ipc.stamped, hself]
    rfl

theorem pickUp_cases (hrec : Receives s u env t) (h : t.pickUp env = some s') :
    PicksUp s u env (t.ipc.env env).toLetter s' := by
  set letter := (t.ipc.env env).toLetter with hletter
  unfold pickUp at h
  obtain ⟨msg, hmsg, h⟩ := Option.bind_eq_some_iff.1 h
  obtain ⟨out, hcopy, h⟩ := Option.bind_eq_some_iff.1 h
  simp only at h
  have htext : letter.text = textOf msg := by
    rw [Letter.text, show letter.msg = some msg from hmsg, Option.map_some, Option.getD_some]
  have hmail := hrec.mail
  set t₁ : Kernel n := emit { t with uart := { t.uart with
    outBuffer := out
    outputPrintChar := true } } (.copied env (textOf msg)) with ht₁
  have huart : t₁.uart = { s.uart with outBuffer := out, outputPrintChar := true } := by
    rw [ht₁, ← hrec.uart]
    rfl
  have hlog : t₁.ipc.log = .copied env letter.text :: .received u env letter :: s.ipc.log := by
    rw [htext, hletter, ← hrec.logged]
    rfl
  have hcur : t₁.sched.currentProcess = some u :=
    (congrArg Sched.currentProcess hrec.sched).trans hrec.current
  have hholds : HoldsText out letter.text := htext ▸ copyText_holds hcopy
  have hbody : (t₁.ipc.env env).msg.isSome := Option.isSome_iff_exists.2 ⟨msg, hmsg⟩
  by_cases htype : letter.msgType = consoleOutput
  · rw [if_pos (by exact htype)] at h
    obtain ⟨⟨r, s₁⟩, hrelease, h⟩ := Option.bind_eq_some_iff.1 h
    cases h
    obtain ⟨cur, hrel⟩ := kReleaseMsgEnv_releases hbody hrelease
    obtain rfl : cur = u := Option.some.inj (hrel.current.symm.trans hcur)
    refine ⟨hmail, ⟨out, hholds, hrel.uart.trans huart⟩, ?_⟩
    rw [hrel.logged, hlog]
    exact .released htype
  · rw [if_neg (by exact htype)] at h
    obtain ⟨⟨r, s₁⟩, hsend, h⟩ := Option.bind_eq_some_iff.1 h
    cases h
    obtain ⟨hsame, hcases⟩ := sendAck_cases (s := t₁) hcur hbody hsend
    refine ⟨hmail, ⟨out, hholds, hsame.trans huart⟩, ?_⟩
    rcases hcases with ⟨hlost, hlog'⟩ | ⟨q, hlog'⟩
    · rw [hlog', hlog]
      exact .lost (hrec.sched ▸ hlost)
    · rw [hlog', hlog, show t₁.sched = s.sched from hrec.sched]
      exact .returned htype

theorem uartStart_cases (hcur : s.sched.currentProcess = some u) (h : s.uartStart = some s') :
    s' = s ∨ ∃ env letter, PicksUp s u env letter s' := by
  unfold uartStart at h
  obtain ⟨⟨m, t⟩, hreceive, hpick⟩ := Option.bind_eq_some_iff.1 h
  obtain ⟨cur, hcur', ⟨rfl, rfl, -⟩ | ⟨env, rfl, hrec⟩⟩ := receiveNow_cases hreceive
  · exact .inl (Option.some.inj hpick).symm
  · obtain rfl : cur = u := Option.some.inj (hcur'.symm.trans hcur)
    exact .inr ⟨env, _, pickUp_cases hrec hpick⟩

/-- `outputIndex = 0` and `output_print_char = FALSE`. -/
def printed (s : Kernel n) : Kernel n :=
  { s with uart := { s.uart with outputIndex := 0, outputPrintChar := false } }

theorem uartNext_cases (hcur : s.sched.currentProcess = some u) (h : s.uartNext = some s') :
    (s.ipc.isEmpty (.recvMsgs u) = true ∧ s' = s.printed.setImr 2) ∨
      ∃ env letter, PicksUp s.printed u env letter s' := by
  unfold uartNext at h
  obtain ⟨⟨m, t⟩, hreceive, hpick⟩ := Option.bind_eq_some_iff.1 h
  obtain ⟨cur, hcur', ⟨rfl, rfl, hempty⟩ | ⟨env, rfl, hrec⟩⟩ := receiveNow_cases hreceive
  · obtain rfl : cur = u := Option.some.inj (hcur'.symm.trans hcur)
    exact .inl ⟨hempty, (Option.some.inj hpick).symm⟩
  · obtain rfl : cur = u := Option.some.inj (hcur'.symm.trans hcur)
    exact .inr ⟨env, _, pickUp_cases hrec hpick⟩

theorem uartIdle_cases (hcur : s.sched.currentProcess = some u) (h : s.uartIdle = some s') :
    s' = s ∨ (s.uart.outputIndex = 0 ∧ s.uart.outputPrintChar = false ∧
      ∃ env letter, PicksUp s u env letter s') := by
  unfold uartIdle at h
  split at h
  · rename_i hidle
    rcases uartStart_cases hcur h with rfl | hpick
    · exact .inl rfl
    · exact .inr ⟨hidle.1, hidle.2, hpick⟩
  · exact .inl (Option.some.inj h).symm

/-- The second half of the transmit branch prints a character, or ends a text. -/
inductive Prints (s : Kernel n) (u : Fin n) : Kernel n → Prop
  | idle (hprint : s.uart.outputPrintChar = false) : Prints s u s
  | write (hprint : s.uart.outputPrintChar = true)
      (hchar : s.uart.outBuffer s.uart.outputIndex ≠ 0) : Prints s u s.uartWrite
  | done (hprint : s.uart.outputPrintChar = true)
      (hchar : s.uart.outBuffer s.uart.outputIndex = 0)
      (hempty : s.ipc.isEmpty (.recvMsgs u) = true) : Prints s u (s.printed.setImr 2)
  | next {s' : Kernel n} {env : EnvPtr} {letter : Letter}
      (hprint : s.uart.outputPrintChar = true)
      (hchar : s.uart.outBuffer s.uart.outputIndex = 0)
      (hpick : PicksUp s.printed u env letter s') : Prints s u s'

theorem uartPrint_cases (hcur : s.sched.currentProcess = some u) (h : s.uartPrint = some s') :
    Prints s u s' := by
  unfold uartPrint at h
  by_cases hprint : s.uart.outputPrintChar = true
  · rw [if_pos hprint] at h
    by_cases hchar : s.uart.outBuffer s.uart.outputIndex = 0
    · rw [if_pos hchar] at h
      rcases uartNext_cases hcur h with ⟨hempty, rfl⟩ | ⟨env, letter, hpick⟩
      · exact .done hprint hchar hempty
      · exact .next hprint hchar hpick
    · rw [if_neg hchar] at h
      cases h
      exact .write hprint hchar
  · rw [if_neg hprint] at h
    cases h
    exact .idle (eq_false_of_ne_true hprint)

/-- The transmit branch is the one half and then the other. -/
theorem uartTransmit_cases (hcur : s.sched.currentProcess = some u)
    (h : s.uartTransmit = some s') :
    ∃ t, (t = s ∨ ∃ env letter, PicksUp s u env letter t) ∧ Prints t u s' := by
  obtain ⟨t, hidle, hprint⟩ := Option.bind_eq_some_iff.1 h
  have hworks : Works .uart s u s t := uartIdle_works hcur hidle
  refine ⟨t, ?_, uartPrint_cases (hworks.pointers.1.trans hcur) hprint⟩
  rcases uartIdle_cases hcur hidle with rfl | ⟨-, -, hpick⟩
  · exact .inl rfl
  · exact .inr hpick

/-! ## The receive branch -/

/-- The log after a character was received: an envelope may have been requested, and sent as console
input. -/
inductive InputLog (s : Kernel n) (u : Fin n) : List (Event n) → Prop
  | quiet : InputLog s u s.ipc.log
  | requested {env : EnvPtr} : InputLog s u (.requested u env :: s.ipc.log)
  | sent {q : Fin n} {env : EnvPtr} {letter : Letter} (htype : letter.msgType = consoleInput) :
      InputLog s u (.sent u q env letter :: .requested u env :: s.ipc.log)

/-- A character was received: only the input variables and the mask may have changed, and the
mailbox of the UART has not. -/
structure Inputs (s : Kernel n) (u : Fin n) (imr : UInt8) (s' : Kernel n) : Prop where
  uart : ∃ inputIndex inBuffer,
    s'.uart = { s.uart with inputIndex := inputIndex, inBuffer := inBuffer, imr := imr }
  mail : s'.ipc.queue (.recvMsgs u) = s.ipc.queue (.recvMsgs u)
  log : InputLog s u s'.ipc.log

theorem kGetProcess_pid {S : Sched n} {pid : ℤ} {p : Fin n} (h : S.kGetProcess pid = some p) :
    (S.pTable p).pid = pid := by
  simpa using List.find?_some h

/-- A send to another pid does not touch the mailbox of the UART. -/
theorem Sends.mail_uart {dest : Fin n} {destPid : ℤ} {cur : Fin n}
    (h : Sends s cur dest env destPid s') (hu : s.sched.kGetProcess uartIProcessPid = some u)
    (hdest : destPid ≠ uartIProcessPid) :
    s'.ipc.queue (.recvMsgs u) = s.ipc.queue (.recvMsgs u) := by
  refine Ipc.send_queue h.ipc fun heq => hdest ?_
  obtain rfl := QueuePtr.recvMsgs.inj heq
  exact (kGetProcess_pid h.found).symm.trans (kGetProcess_pid hu)

theorem Requests.mail {queue : QueuePtr n} {cur : Fin n} (h : Requests s cur queue env s')
    (hqueue : queue = .freeEnvQ ∨ queue = .sysFreeEnvQ) :
    s'.ipc.queue (.recvMsgs u) = s.ipc.queue (.recvMsgs u) := by
  refine Ipc.request_queue h.ipc fun heq => ?_
  subst heq
  rcases hqueue with heq | heq <;> contradiction

theorem requestInput_cases (hcur : s.sched.currentProcess = some u) {m : Option EnvPtr}
    (h : s.requestNow = some (m, s')) : s'.sched = s.sched ∧ s'.uart = s.uart ∧
      s'.ipc.queue (.recvMsgs u) = s.ipc.queue (.recvMsgs u) ∧
      ((m = none ∧ s' = s) ∨ ∃ env, m = some env ∧ s'.ipc.log = .requested u env :: s.ipc.log) := by
  obtain ⟨cur, hcur', ⟨rfl, rfl⟩ | ⟨queue, env, hqueue, rfl, hreq⟩⟩ := requestNow_cases h
  · exact ⟨rfl, rfl, rfl, .inl ⟨rfl, rfl⟩⟩
  · obtain rfl : cur = u := Option.some.inj (hcur'.symm.trans hcur)
    exact ⟨hreq.sched, hreq.uart, hreq.mail (hqueue.imp_right And.left),
      .inr ⟨env, rfl, hreq.logged⟩⟩

theorem sendInput_cases {letter : Letter} {destPid : ℤ} (hcur : s.sched.currentProcess = some u)
    (hu : s.sched.kGetProcess uartIProcessPid = some u) (hdest : destPid ≠ uartIProcessPid)
    (htype : letter.msgType = consoleInput)
    (h : (s.filled env letter).kSendMessage destPid (some env) = some (r, s')) :
    s'.uart = s.uart ∧ s'.ipc.queue (.recvMsgs u) = s.ipc.queue (.recvMsgs u) ∧
      (s'.ipc.log = s.ipc.log ∨ ∃ q letter', letter'.msgType = consoleInput ∧
        s'.ipc.log = .sent u q env letter' :: s.ipc.log) := by
  rcases kSendMessage_cases h with ⟨-, rfl⟩ | ⟨env', cur, dest, henv, -, hsends⟩
  · exact ⟨rfl, rfl, .inl rfl⟩
  · obtain rfl := Option.some.inj henv
    obtain rfl : cur = u := Option.some.inj (hsends.current.symm.trans hcur)
    refine ⟨hsends.uart, hsends.mail_uart hu hdest, .inr ⟨dest, _, ?_, hsends.log⟩⟩
    rw [Ipc.stamped, filled, Ipc.toLetter_setLetter_self]
    exact htype

theorem uartPong_cases {charIn : UInt8} (hcur : s.sched.currentProcess = some u)
    (hu : s.sched.kGetProcess uartIProcessPid = some u) (h : s.uartPong charIn = some s') :
    Inputs s u s.uart.imr s' := by
  unfold uartPong at h
  obtain ⟨⟨m, t⟩, hreq, h₁⟩ := Option.bind_eq_some_iff.1 h
  obtain ⟨env, rfl, h₂⟩ := Option.bind_eq_some_iff.1 h₁
  obtain ⟨msg, -, h₃⟩ := Option.bind_eq_some_iff.1 h₂
  obtain ⟨⟨r, t'⟩, hsend, h₄⟩ := Option.bind_eq_some_iff.1 h₃
  cases h₄
  obtain ⟨hsched, huart, hmail, ⟨hnone, -⟩ | ⟨env', henv, hlog⟩⟩ := requestInput_cases hcur hreq
  · contradiction
  obtain rfl := Option.some.inj henv
  obtain ⟨huart', hmail', hlog'⟩ := sendInput_cases (s := t) (hsched ▸ hcur) (hsched ▸ hu)
    (by decide) (by exact rfl) hsend
  refine ⟨⟨s.uart.inputIndex, s.uart.inBuffer, huart'.trans huart⟩, hmail'.trans hmail, ?_⟩
  rcases hlog' with hlog' | ⟨q, letter, htype, hlog'⟩
  · rw [hlog', hlog]
    exact .requested
  · rw [hlog', hlog]
    exact .sent htype

theorem uartLineEnd_cases (hcur : s.sched.currentProcess = some u)
    (hu : s.sched.kGetProcess uartIProcessPid = some u) (h : s.uartLineEnd = some s') :
    Inputs s u 2 s' := by
  unfold uartLineEnd at h
  obtain ⟨⟨m, t⟩, hreq, h₁⟩ := Option.bind_eq_some_iff.1 h
  obtain ⟨t', hline, h₂⟩ := Option.bind_eq_some_iff.1 h₁
  cases h₂
  obtain ⟨hsched, huart, hmail, hcases⟩ := requestInput_cases (u := u) (by exact hcur) hreq
  have hcur' : t.sched.currentProcess = some u := by rw [hsched]; exact hcur
  have hu' : t.sched.kGetProcess uartIProcessPid = some u := by rw [hsched]; exact hu
  rcases hcases with ⟨rfl, rfl⟩ | ⟨env, rfl, hlog⟩
  · cases hline
    exact ⟨⟨0, _, rfl⟩, rfl, .quiet⟩
  · obtain ⟨msg, -, hline⟩ := Option.bind_eq_some_iff.1 hline
    obtain ⟨⟨r, t₁⟩, hsend, hline⟩ := Option.bind_eq_some_iff.1 hline
    cases hline
    obtain ⟨huart', hmail', hlog'⟩ := sendInput_cases (s := t) hcur' hu' (by decide)
      (by exact rfl) hsend
    refine ⟨⟨0, t'.uart.inBuffer, ?_⟩, hmail'.trans hmail, ?_⟩
    · rw [huart', huart]
      rfl
    · rcases hlog' with hlog' | ⟨q, letter, htype, hlog'⟩
      · exact (hlog'.trans hlog) ▸ .requested
      · exact (hlog'.trans (congrArg _ hlog)) ▸ .sent htype

/-- The character is echoed, or ends a line that is. -/
def Echoes (uart : Uart) (charIn : UInt8) : Prop :=
  uart.pongMode = false ∧
    (charIn = kbLineEnd ∨ uart.inputIndex < inputBufferSize - 2 ∧ isHotkey charIn = false)

instance (uart : Uart) (charIn : UInt8) : Decidable (Echoes uart charIn) := by
  unfold Echoes
  infer_instance

theorem uartReceive_cases {charIn : UInt8} (hcur : s.sched.currentProcess = some u)
    (hu : s.sched.kGetProcess uartIProcessPid = some u) (h : s.uartReceive charIn = some s') :
    Inputs s u (if Echoes s.uart charIn then 2 else s.uart.imr) s' := by
  have hquiet : Inputs s u s.uart.imr s := ⟨⟨_, _, rfl⟩, rfl, .quiet⟩
  unfold uartReceive at h
  by_cases hpong : s.uart.pongMode = true
  · rw [if_pos hpong] at h
    rw [if_neg (by simp [Echoes, hpong])]
    exact uartPong_cases hcur hu h
  rw [if_neg hpong] at h
  by_cases hline : charIn = kbLineEnd
  · rw [if_pos hline] at h
    rw [if_pos ⟨eq_false_of_ne_true hpong, .inl hline⟩]
    exact uartLineEnd_cases hcur hu h
  rw [if_neg hline] at h
  by_cases hroom : s.uart.inputIndex < inputBufferSize - 2
  · rw [if_pos hroom] at h
    rcases uartEnter_cases h with ⟨hkey, rfl⟩ | ⟨hkey, rfl⟩
    · rw [if_neg (by simp [Echoes, hline, hkey])]
      exact hquiet
    · rw [if_pos ⟨eq_false_of_ne_true hpong, .inr ⟨hroom, hkey⟩⟩]
      exact ⟨⟨_, _, rfl⟩, rfl, .quiet⟩
  · rw [if_neg hroom] at h
    cases h
    rw [if_neg (by simp [Echoes, hline, hroom])]
    exact hquiet

end Kernel

end Rtx.Coldfire
