import Rtx.Coldfire.IpcMoves
import Rtx.Coldfire.SchedFrame
import Rtx.Coldfire.IProcesses

/-!
# What each primitive can do

One inversion lemma for each primitive: every way it can end, in terms of what happens to the
scheduler, to the envelopes and to the UART. Nothing later unfolds a primitive.
-/

namespace Rtx.Coldfire

variable {n : ℕ}

theorem Ipc.dequeue_fst (I : Ipc n) (queue : QueuePtr n) :
    (I.dequeue queue).1 = (I.queue queue).head := by
  simp only [dequeue, msgEnvQueueDequeue]
  split <;> rfl

theorem Ipc.exists_take {I : Ipc n} {queue : QueuePtr n} (h : I.isEmpty queue = false) :
    ∃ env, I.take queue env = some (I.dequeue queue).2 ∧ (I.dequeue queue).1 = some env := by
  have hhead : (I.queue queue).head.isSome := by simpa [isEmpty, msgEnvQueueIsEmpty] using h
  obtain ⟨env, henv⟩ := Option.isSome_iff_exists.1 hhead
  have hdeq : (I.dequeue queue).1 = some env := (I.dequeue_fst queue).trans henv
  exact ⟨env, if_pos hdeq, hdeq⟩

theorem Ipc.enqueue_letter {I I' : Ipc n} {queue : QueuePtr n} {env : EnvPtr}
    (h : I.enqueue queue env = some I') (x : EnvPtr) :
    (I'.env x).toLetter = (I.env x).toLetter := by
  obtain ⟨⟨mem, q⟩, henq, rfl⟩ := Option.map_eq_some_iff.1 h
  unfold msgEnvQueueEnqueue at henq
  split at henq
  · cases henq
    exact toLetter_setNext ..
  · split at henq
    · contradiction
    · cases henq
      simp only [toLetter_setNext]

theorem Ipc.take_letter {I I' : Ipc n} {queue : QueuePtr n} {env : EnvPtr}
    (h : I.take queue env = some I') (x : EnvPtr) :
    (I'.env x).toLetter = (I.env x).toLetter := by
  obtain ⟨hdeq, h⟩ := Option.ite_none_right_eq_some.1 h
  cases h
  have hmem : (I.dequeue queue).2.env = setNext I.env env none := msgEnvQueueDequeue_mem hdeq
  rw [hmem, toLetter_setNext]

namespace Kernel

/-! ## Outcomes -/

/-- `cur` sent `env` to `dest`. -/
structure Sends (s : Kernel n) (cur dest : Fin n) (env : EnvPtr) (destPid : ℤ) (s' : Kernel n) :
    Prop where
  current : s.sched.currentProcess = some cur
  found : s.sched.kGetProcess destPid = some dest
  sched : s.sched.wakeReceiver dest = some s'.sched
  ipc : s.ipc.send cur dest env (s.sched.pTable cur).pid destPid = some s'.ipc
  uart : s'.uart = s.uart

/-- `cur` received `env`. -/
structure Receives (s : Kernel n) (cur : Fin n) (env : EnvPtr) (s' : Kernel n) : Prop where
  current : s.sched.currentProcess = some cur
  sched : s'.sched = s.sched
  ipc : s.ipc.receive cur env = some s'.ipc
  uart : s'.uart = s.uart

/-- `cur` was given `env` from `queue`. -/
structure Requests (s : Kernel n) (cur : Fin n) (queue : QueuePtr n) (env : EnvPtr)
    (s' : Kernel n) : Prop where
  current : s.sched.currentProcess = some cur
  sched : s'.sched = s.sched
  ipc : s.ipc.request cur queue env = some s'.ipc
  uart : s'.uart = s.uart

/-- `cur` gave `env` back. Only an envelope of the pool wakes a process up. -/
structure Releases (s : Kernel n) (cur : Fin n) (env : EnvPtr) (s' : Kernel n) : Prop where
  current : s.sched.currentProcess = some cur
  sched : match env with
    | .envPool _ => s.sched.wakeRequester = some s'.sched
    | .sysEnvPool _ => s'.sched = s.sched
  ipc : s.ipc.release cur (homeQueue env) env = some s'.ipc
  uart : s'.uart = s.uart

variable {s s' : Kernel n} {r : ℤ} {msgEnv : Option EnvPtr}

/-! ## Interprocess communication -/

theorem kSendMessage_cases {destPid : ℤ} (h : s.kSendMessage destPid msgEnv = some (r, s')) :
    (r ≠ codeSuccess ∧ s' = s) ∨
      ∃ env cur dest, msgEnv = some env ∧ r = codeSuccess ∧ Sends s cur dest env destPid s' := by
  unfold kSendMessage at h
  cases msgEnv with
  | none => cases h; exact .inl ⟨by decide, rfl⟩
  | some env =>
    simp only at h
    by_cases hmsg : (s.ipc.env env).msg.isNone
    · rw [if_pos hmsg] at h
      cases h
      exact .inl ⟨by decide, rfl⟩
    rw [if_neg hmsg] at h
    cases hdest : s.sched.kGetProcess destPid with
    | none =>
      rw [hdest] at h
      cases h
      exact .inl ⟨by decide, rfl⟩
    | some dest =>
      rw [hdest] at h
      cases hcur : s.sched.currentProcess with
      | none => rw [hcur] at h; contradiction
      | some cur =>
        rw [hcur] at h
        obtain ⟨ipc, henq, h⟩ := Option.bind_eq_some_iff.1 h
        obtain ⟨sched, hwake, h⟩ := Option.bind_eq_some_iff.1 h
        cases h
        refine .inr ⟨env, cur, dest, rfl, rfl, hcur, hdest, hwake, ?_, rfl⟩
        simp only [Ipc.send, Ipc.stamped, if_neg hmsg, henq, Option.map_some]

theorem Sends.log {cur dest : Fin n} {env : EnvPtr} {destPid : ℤ}
    (h : Sends s cur dest env destPid s') : s'.ipc.log =
      .sent cur dest env (s.ipc.stamped env (s.sched.pTable cur).pid destPid) :: s.ipc.log := by
  have hsend := h.ipc
  unfold Ipc.send at hsend
  simp only at hsend
  split at hsend
  · contradiction
  obtain ⟨J, henq, hJ⟩ := Option.map_eq_some_iff.1 hsend
  obtain ⟨q, -, rfl⟩ := Option.map_eq_some_iff.1 henq
  rw [← hJ]
  rfl

theorem kSendMessage_sends {destPid : ℤ} {env : EnvPtr} (hmsg : (s.ipc.env env).msg.isSome)
    (hdest : (s.sched.kGetProcess destPid).isSome)
    (h : s.kSendMessage destPid (some env) = some (r, s')) :
    ∃ cur dest, Sends s cur dest env destPid s' := by
  rcases kSendMessage_cases h with ⟨hr, -⟩ | ⟨env', cur, dest, henv, -, hsends⟩
  · unfold kSendMessage at h
    obtain ⟨dest, hdest⟩ := Option.isSome_iff_exists.1 hdest
    simp only [Option.isNone_iff_eq_none, Option.isSome_iff_ne_none.1 hmsg, if_false, hdest] at h
    cases hcur : s.sched.currentProcess with
    | none => rw [hcur] at h; contradiction
    | some cur =>
      rw [hcur] at h
      obtain ⟨ipc, -, h⟩ := Option.bind_eq_some_iff.1 h
      obtain ⟨sched, -, h⟩ := Option.bind_eq_some_iff.1 h
      cases h
      exact absurd rfl hr
  · obtain rfl := Option.some.inj henv
    exact ⟨cur, dest, hsends⟩

theorem kReceiveMessage_cases {o : Outcome n (Option EnvPtr)} (h : s.kReceiveMessage = some o) :
    ∃ cur, s.sched.currentProcess = some cur ∧
      ((s.ipc.isEmpty (.recvMsgs cur) = true ∧ (s.sched.pTable cur).isIProcess = true ∧
          o = .ret none s) ∨
        (s.ipc.isEmpty (.recvMsgs cur) = true ∧ (s.sched.pTable cur).isIProcess = false ∧
          o = .switch .blockedOnReceive .receiveMessage s) ∨
        ∃ env s', o = .ret (some env) s' ∧ Receives s cur env s') := by
  unfold kReceiveMessage at h
  cases hcur : s.sched.currentProcess with
  | none => rw [hcur] at h; contradiction
  | some cur =>
    rw [hcur] at h
    refine ⟨cur, rfl, ?_⟩
    simp only at h
    by_cases hempty : s.ipc.isEmpty (.recvMsgs cur)
    · rw [if_pos hempty] at h
      by_cases hi : (s.sched.pTable cur).isIProcess
      · rw [if_pos hi] at h
        cases h
        exact .inl ⟨hempty, hi, rfl⟩
      · rw [if_neg hi] at h
        cases h
        exact .inr (.inl ⟨hempty, by simpa using hi, rfl⟩)
    · rw [if_neg hempty] at h
      obtain ⟨env, htake, hdeq⟩ := Ipc.exists_take (by simpa using hempty)
      rw [show s.ipc.dequeue (.recvMsgs cur) = (some env, (s.ipc.dequeue (.recvMsgs cur)).2) from
        Prod.ext hdeq rfl] at h
      cases h
      refine .inr (.inr ⟨env, _, rfl, hcur, rfl, ?_, rfl⟩)
      rw [Ipc.receive, htake]
      rfl

/-! ## Storage management -/

theorem takeEnv_cases {cur : Fin n} {queue : QueuePtr n} (hcur : s.sched.currentProcess = some cur)
    (h : s.ipc.isEmpty queue = false) :
    ∃ env s', s.takeEnv cur queue = (some env, s') ∧ Requests s cur queue env s' := by
  obtain ⟨env, htake, hdeq⟩ := Ipc.exists_take (I := s.ipc.addOwned cur 1) h
  have htaken : s.takeEnv cur queue = (some env, { s with
      ipc := ((s.ipc.addOwned cur 1).dequeue queue).2.emit (.requested cur env) }) := by
    rw [takeEnv, show (s.ipc.addOwned cur 1).dequeue queue =
      (some env, ((s.ipc.addOwned cur 1).dequeue queue).2) from Prod.ext hdeq rfl]
  refine ⟨env, _, htaken, hcur, rfl, ?_, rfl⟩
  rw [Ipc.request, htake]
  rfl

theorem kRequestMsgEnvLoop_cases {o : Outcome n (Option EnvPtr)}
    (h : s.kRequestMsgEnvLoop = some o) :
    ∃ cur, s.sched.currentProcess = some cur ∧
      ((s.ipc.isEmpty .freeEnvQ = true ∧ ∃ sched,
          s.sched.enqueue .blockedRequestEnvPq cur = some sched ∧
          o = .switch .blockedOnEnvRequest .requestMsgEnv { s with sched := sched }) ∨
        ∃ env s', o = .ret (some env) s' ∧ Requests s cur .freeEnvQ env s') := by
  unfold kRequestMsgEnvLoop at h
  cases hcur : s.sched.currentProcess with
  | none => rw [hcur] at h; contradiction
  | some cur =>
    rw [hcur] at h
    refine ⟨cur, rfl, ?_⟩
    simp only at h
    by_cases hempty : s.ipc.isEmpty .freeEnvQ
    · rw [if_pos hempty] at h
      obtain ⟨sched, henq, rfl⟩ := Option.map_eq_some_iff.1 h
      exact .inl ⟨hempty, sched, henq, rfl⟩
    · rw [if_neg hempty] at h
      obtain ⟨env, s', htake, hreq⟩ := takeEnv_cases hcur (by simpa using hempty)
      rw [htake] at h
      cases h
      exact .inr ⟨env, s', rfl, hreq⟩

/-- An i-process may take an envelope of the system pool, and is never switched away. -/
theorem kRequestMsgEnv_cases {o : Outcome n (Option EnvPtr)} (h : s.kRequestMsgEnv = some o) :
    ∃ cur, s.sched.currentProcess = some cur ∧
      (((s.sched.pTable cur).isIProcess = true ∧ o = .ret none s) ∨
        ((s.sched.pTable cur).isIProcess = false ∧ s.kRequestMsgEnvLoop = some o) ∨
        ∃ queue env s', (queue = .freeEnvQ ∨
          queue = .sysFreeEnvQ ∧ (s.sched.pTable cur).isIProcess = true) ∧
          o = .ret (some env) s' ∧ Requests s cur queue env s') := by
  unfold kRequestMsgEnv at h
  cases hcur : s.sched.currentProcess with
  | none => rw [hcur] at h; contradiction
  | some cur =>
    rw [hcur] at h
    refine ⟨cur, rfl, ?_⟩
    simp only at h
    by_cases hempty : s.ipc.isEmpty .freeEnvQ
    · rw [if_pos hempty] at h
      by_cases hsys : (s.sched.pTable cur).isIProcess = true ∧ s.ipc.isEmpty .sysFreeEnvQ = false
      · rw [if_pos hsys] at h
        obtain ⟨env, s', htake, hreq⟩ := takeEnv_cases hcur hsys.2
        rw [htake] at h
        cases h
        exact .inr (.inr ⟨_, env, s', .inr ⟨rfl, hsys.1⟩, rfl, hreq⟩)
      rw [if_neg hsys] at h
      by_cases hi : (s.sched.pTable cur).isIProcess
      · rw [if_pos hi] at h
        cases h
        exact .inl ⟨hi, rfl⟩
      · rw [if_neg hi] at h
        exact .inr (.inl ⟨by simpa using hi, h⟩)
    · rw [if_neg hempty] at h
      obtain ⟨env, s', htake, hreq⟩ := takeEnv_cases hcur (by simpa using hempty)
      rw [htake] at h
      cases h
      exact .inr (.inr ⟨_, env, s', by simp, rfl, hreq⟩)

theorem kReleaseMsgEnv_cases (h : s.kReleaseMsgEnv msgEnv = some (r, s')) :
    (r ≠ codeSuccess ∧ s' = s) ∨
      ∃ env cur, msgEnv = some env ∧ r = codeSuccess ∧ Releases s cur env s' := by
  unfold kReleaseMsgEnv at h
  cases msgEnv with
  | none => cases h; exact .inl ⟨by decide, rfl⟩
  | some env =>
    simp only at h
    by_cases hmsg : (s.ipc.env env).msg.isNone
    · rw [if_pos hmsg] at h
      cases h
      exact .inl ⟨by decide, rfl⟩
    rw [if_neg hmsg] at h
    cases env with
    | envPool i =>
      rw [kIsMsgEnvSysEnv_envPool, if_neg (by simp)] at h
      obtain ⟨ipc, henq, h⟩ := Option.bind_eq_some_iff.1 h
      obtain ⟨s₁, hs₁, h⟩ := Option.bind_eq_some_iff.1 h
      obtain ⟨sched, hwake, rfl⟩ := Option.map_eq_some_iff.1 hs₁
      obtain ⟨cur, hcur, h⟩ := Option.bind_eq_some_iff.1 h
      cases h
      refine .inr ⟨_, cur, rfl, rfl, (Sched.wakeRequester_pointers hwake).1 ▸ hcur, hwake, ?_, rfl⟩
      rw [Ipc.release, homeQueue, henq]
      rfl
    | sysEnvPool i =>
      rw [kIsMsgEnvSysEnv_sysEnvPool, if_pos rfl] at h
      obtain ⟨s₁, hs₁, h⟩ := Option.bind_eq_some_iff.1 h
      obtain ⟨ipc, henq, rfl⟩ := Option.map_eq_some_iff.1 hs₁
      obtain ⟨cur, hcur, h⟩ := Option.bind_eq_some_iff.1 h
      cases h
      refine .inr ⟨_, cur, rfl, rfl, hcur, rfl, ?_, rfl⟩
      rw [Ipc.release, homeQueue, henq]
      rfl

/-! ## In an i-process -/

theorem receiveNow_cases {m : Option EnvPtr} (h : s.receiveNow = some (m, s')) :
    ∃ cur, s.sched.currentProcess = some cur ∧
      ((m = none ∧ s' = s ∧ s.ipc.isEmpty (.recvMsgs cur) = true) ∨
        ∃ env, m = some env ∧ Receives s cur env s') := by
  obtain ⟨o, h, ho⟩ := Option.bind_eq_some_iff.1 h
  obtain ⟨cur, hcur, h⟩ := kReceiveMessage_cases h
  refine ⟨cur, hcur, ?_⟩
  rcases h with ⟨hempty, -, rfl⟩ | ⟨-, -, rfl⟩ | ⟨env, s₁, rfl, hrec⟩
  · cases ho; exact .inl ⟨rfl, rfl, hempty⟩
  · contradiction
  · cases ho; exact .inr ⟨env, rfl, hrec⟩

theorem requestNow_cases {m : Option EnvPtr} (h : s.requestNow = some (m, s')) :
    ∃ cur, s.sched.currentProcess = some cur ∧ ((m = none ∧ s' = s) ∨
      ∃ queue env, (queue = .freeEnvQ ∨
        queue = .sysFreeEnvQ ∧ (s.sched.pTable cur).isIProcess = true) ∧ m = some env ∧
        Requests s cur queue env s') := by
  obtain ⟨o, h, ho⟩ := Option.bind_eq_some_iff.1 h
  obtain ⟨cur, hcur, h⟩ := kRequestMsgEnv_cases h
  refine ⟨cur, hcur, ?_⟩
  rcases h with ⟨-, rfl⟩ | ⟨-, hloop⟩ | ⟨queue, env, s₁, hq, rfl, hreq⟩
  · cases ho; exact .inl ⟨rfl, rfl⟩
  · obtain ⟨cur', -, ⟨-, sched, -, rfl⟩ | ⟨env, s₁, rfl, hreq⟩⟩ := kRequestMsgEnvLoop_cases hloop
    · contradiction
    · cases ho
      have : cur' = cur := Option.some.inj (hreq.current.symm.trans hcur)
      exact .inr ⟨.freeEnvQ, env, .inl rfl, rfl, this ▸ hreq⟩
  · cases ho; exact .inr ⟨queue, env, hq, rfl, hreq⟩

/-! ## The remaining primitives -/

/-- Only the letter of `env` changed. -/
def filled (s : Kernel n) (env : EnvPtr) (letter : Letter) : Kernel n :=
  { s with ipc := s.ipc.setLetter env letter }

theorem kRequestProcessStatus_cases (h : s.kRequestProcessStatus msgEnv = some (r, s')) :
    (r ≠ codeSuccess ∧ s' = s) ∨ ∃ env body, msgEnv = some env ∧ r = codeSuccess ∧
      s' = s.filled env { (s.ipc.env env).toLetter with msg := some body } := by
  unfold kRequestProcessStatus at h
  cases msgEnv with
  | none => cases h; exact .inl ⟨by decide, rfl⟩
  | some env =>
    simp only at h
    split at h
    · cases h; exact .inl ⟨by decide, rfl⟩
    · split at h
      · obtain ⟨body, -, h⟩ := Option.bind_eq_some_iff.1 h
        cases h
        exact .inr ⟨env, _, rfl, rfl, rfl⟩
      · contradiction

theorem kGetTraceBuffers_cases (h : s.kGetTraceBuffers msgEnv = some (r, s')) :
    (r ≠ codeSuccess ∧ s' = s) ∨ ∃ env body, msgEnv = some env ∧ r = codeSuccess ∧
      s' = s.filled env { (s.ipc.env env).toLetter with msg := some body } := by
  unfold kGetTraceBuffers at h
  cases msgEnv with
  | none => cases h; exact .inl ⟨by decide, rfl⟩
  | some env =>
    simp only at h
    split at h
    · cases h; exact .inl ⟨by decide, rfl⟩
    · obtain ⟨sendHead, -, h⟩ := Option.bind_eq_some_iff.1 h
      obtain ⟨recvHead, -, h⟩ := Option.bind_eq_some_iff.1 h
      cases h
      exact .inr ⟨env, _, rfl, rfl, rfl⟩

/-- A delay request is a send to the timer, of an envelope with the delay in its body. -/
theorem kRequestDelay_cases {timeDelay wakeupCode : ℤ}
    (h : s.kRequestDelay timeDelay wakeupCode msgEnv = some (r, s')) :
    ∃ env body, msgEnv = some env ∧ (s.ipc.env env).msg = some body ∧
      (s.filled env { (s.ipc.env env).toLetter with
        msgType := wakeupCode
        msg := some (putInt body 0 timeDelay) }).kSendMessage timerIProcessPid (some env) =
          some (r, s') := by
  unfold kRequestDelay at h
  cases msgEnv with
  | none => contradiction
  | some env =>
    simp only at h
    cases hmsg : (s.ipc.env env).msg with
    | none => rw [hmsg] at h; contradiction
    | some body =>
      rw [hmsg] at h
      exact ⟨env, body, rfl, hmsg, h⟩

/-- Console output is a send to the UART, after which the transmit interrupt is enabled. -/
theorem kSendConsoleChars_cases {requestAck : Bool}
    (h : s.kSendConsoleChars msgEnv requestAck = some (r, s')) :
    (msgEnv = none ∧ s' = s) ∨ ∃ env t, msgEnv = some env ∧ s' = t.setImr 3 ∧
      (s.filled env { (s.ipc.env env).toLetter with
        msgType := if requestAck then consoleOutputRequestAck else consoleOutput }).kSendMessage
          uartIProcessPid (some env) = some (r, t) := by
  unfold kSendConsoleChars at h
  cases msgEnv with
  | none => cases h; exact .inl ⟨rfl, rfl⟩
  | some env =>
    obtain ⟨⟨r', t⟩, hsend, h⟩ := Option.bind_eq_some_iff.1 h
    cases h
    exact .inr ⟨env, t, rfl, rfl, hsend⟩

end Kernel

end Rtx.Coldfire
