import Rtx.Unix.Acts

/-!
# The turns of the i-processes

What each function of `k_ipc.c` does, where the code of a process runs, and with that what a turn of
the timeout, the keyboard and the CRT i-process does: only acts of its own.
-/

namespace Rtx.Unix

open Transition
open Coldfire (Body Letter MsgEnv Context Sched codeSuccess errorNullArg errorIllegalArg)

variable {n : ℕ}

namespace Ipc

variable {I I' : Ipc n} {p : Fin n} {env : EnvPtr} {queue : QueuePtr n}

theorem dequeue_fst (I : Ipc n) (queue : QueuePtr n) :
    (I.dequeue queue).1 = (I.queues queue).head := by
  show (Coldfire.msgEnvQueueDequeue I.mem (I.queues queue)).1 = _
  obtain ⟨head, tail⟩ := I.queues queue
  by_cases ht : head = tail
  · subst ht
    cases head <;> simp [Coldfire.msgEnvQueueDequeue]
  · cases head <;> simp [Coldfire.msgEnvQueueDequeue, ht]

theorem receive_prevMsg (h : I.move (.receive p env) = some I') : I'.prevMsg = I.prevMsg := by
  obtain ⟨J, htake, rfl⟩ := Option.map_eq_some_iff.1 h
  obtain ⟨-, hJ⟩ := Option.ite_none_right_eq_some.1 htake
  cases hJ
  rfl

theorem enqueue_prevMsg (h : I.enqueue queue env = some I') : I'.prevMsg = I.prevMsg := by
  obtain ⟨r, -, rfl⟩ := Option.map_eq_some_iff.1 h
  rfl

theorem exists_take (h : I.isEmpty queue = some 0) :
    ∃ env J, (I.dequeue queue) = (some env, J) ∧ I.take queue env = some J := by
  obtain ⟨env, henv⟩ : ∃ env, (I.queues queue).head = some env := by
    apply Option.ne_none_iff_exists'.1
    intro hhead
    simp only [isEmpty, msgEnvQueueIsEmpty, hhead, true_and, if_true] at h
    split at h
    · contradiction
    · simp at h
  have hdeq : (I.dequeue queue).1 = some env := (dequeue_fst I queue).trans henv
  refine ⟨env, (I.dequeue queue).2, Prod.ext hdeq rfl, ?_⟩
  rw [take, if_pos hdeq]

/-- What is received is held, and linked to nothing. -/
theorem held_receive (h : I.move (.receive p env) = some I') :
    I'.HeldBy p env ∧ (I'.mem env).next = none := by
  obtain ⟨J, htake, rfl⟩ := Option.map_eq_some_iff.1 h
  refine ⟨spotOf_cons_self (.received p env (J.letter env)) J.log, ?_⟩
  obtain ⟨hdeq, hJ⟩ := Option.ite_none_right_eq_some.1 htake
  cases hJ
  show ((Coldfire.msgEnvQueueDequeue I.mem (I.queues (.recvMsgs p))).2.1 env).next = none
  rw [Coldfire.msgEnvQueueDequeue_mem hdeq]
  simp [Coldfire.setNext]

theorem setLetter_letter (I : Ipc n) (env : EnvPtr) : I.setLetter env (I.letter env) = I := by
  rw [setLetter, letter, Function.update_eq_self]

end Ipc

namespace Kernel

variable {b s s' t t' : Kernel n} {l : RtxLabel} {p q r : Fin n} {env : EnvPtr} {m : MailMove n}
  {code destPid : ℤ}

/-! ## Sending and receiving -/

theorem kReceiveMessage_cases {o : Outcome n (Option EnvPtr)} (h : t.kReceiveMessage = some o) :
    ∃ cur, t.sched.currentProcess = some cur ∧
      ((t.ipc.Empty (.recvMsgs cur) ∧ (t.sched.ids cur).2 = true ∧ o = .ret none t) ∨
        (t.ipc.Empty (.recvMsgs cur) ∧ (t.sched.ids cur).2 = false ∧
          o = .switch .blockedOnReceive .receiveMessage t) ∨
        ∃ env ipc, t.ipc.move (.receive cur env) = some ipc ∧
          o = .ret (some env) { t with ipc := ipc }) := by
  obtain ⟨cur, hcur, h⟩ := Option.bind_eq_some_iff.1 h
  obtain ⟨empty, hempty, h⟩ := Option.bind_eq_some_iff.1 h
  refine ⟨cur, hcur, ?_⟩
  split at h
  · rename_i hne
    split at h
    · rename_i hi
      cases h
      exact .inl ⟨⟨empty, hempty, hne⟩, hi, rfl⟩
    · rename_i hi
      cases h
      exact .inr (.inl ⟨⟨empty, hempty, hne⟩, Bool.eq_false_iff.2 hi, rfl⟩)
  · rename_i hzero
    obtain rfl : empty = 0 := not_not.1 hzero
    obtain ⟨env, J, hdeq, htake⟩ := Ipc.exists_take hempty
    rw [hdeq] at h
    cases h
    refine .inr (.inr ⟨env, _, ?_, rfl⟩)
    rw [Ipc.move, htake]
    rfl

theorem kRequestMsgEnv_cases {o : Outcome n (Option EnvPtr)} (h : t.kRequestMsgEnv = some o) :
    ∃ cur, t.sched.currentProcess = some cur ∧
      ((t.ipc.Empty .freeEnvQ ∧ (t.sched.ids cur).2 = true ∧ o = .ret none t) ∨
        (∃ sched, t.ipc.Empty .freeEnvQ ∧ (t.sched.ids cur).2 = false ∧
          waitForEnv t.sched cur = some sched ∧
          o = .switch .blockedOnEnvRequest .requestMsgEnv { t with sched := sched }) ∨
        ∃ env ipc, t.ipc.move (.request cur env) = some ipc ∧
          o = .ret (some env) { t with ipc := ipc }) := by
  obtain ⟨cur, hcur, h⟩ := Option.bind_eq_some_iff.1 h
  obtain ⟨empty, hempty, h⟩ := Option.bind_eq_some_iff.1 h
  refine ⟨cur, hcur, ?_⟩
  split at h
  · rename_i hne
    split at h
    · rename_i hi
      cases h
      exact .inl ⟨⟨empty, hempty, hne⟩, hi, rfl⟩
    · rename_i hi
      obtain ⟨sched, hwait, h⟩ := Option.bind_eq_some_iff.1 h
      cases h
      exact .inr (.inl ⟨sched, ⟨empty, hempty, hne⟩, Bool.eq_false_iff.2 hi, hwait, rfl⟩)
  · rename_i hzero
    obtain rfl : empty = 0 := not_not.1 hzero
    obtain ⟨env, J, hdeq, htake⟩ := Ipc.exists_take hempty
    rw [hdeq] at h
    cases h
    refine .inr (.inr ⟨env, _, ?_, rfl⟩)
    rw [Ipc.move, htake]
    rfl

/-- What `k_send_message` does with an envelope. -/
theorem kSendMessage_cases (h : t.kSendMessage destPid (some env) = some (code, t')) :
    (code ≠ codeSuccess ∧ pcbOf n destPid = none ∧ t' = t) ∨
      ∃ cur q ipc sched, code = codeSuccess ∧ t.sched.currentProcess = some cur ∧
        pcbOf n destPid = some q ∧
        t.ipc.move (.send cur q env (t.sched.ids cur).1 destPid) = some ipc ∧
        wakeReceiver t.sched q = some sched ∧ t' = { t with sched := sched, ipc := ipc } := by
  unfold kSendMessage at h
  cases hpcb : pcbOf n destPid with
  | none =>
    simp only [hpcb] at h
    cases h
    exact .inl ⟨by decide, rfl, rfl⟩
  | some q =>
    simp only [hpcb] at h
    obtain ⟨cur, hcur, h⟩ := Option.bind_eq_some_iff.1 h
    obtain ⟨J, henq, h⟩ := Option.bind_eq_some_iff.1 h
    obtain ⟨sched, hwake, h⟩ := Option.bind_eq_some_iff.1 h
    cases h
    refine .inr ⟨cur, q, _, sched, rfl, hcur, rfl, ?_, hwake, rfl⟩
    exact Option.map_eq_some_iff.2 ⟨J, henq, rfl⟩

theorem Working.fill {letter : Letter} (h : Working b l r t) (henv : t.ipc.HeldBy r env)
    (hletter : (t.sched.ids r).2 = true → letter.sendPid = (t.ipc.letter env).sendPid) :
    Working b l r { t with ipc := t.ipc.setLetter env letter } := by
  refine h.mail (m := .fill r env letter) ⟨h.atWork, ?_, ?_⟩ (fun _ _ => rfl) rfl
  · rw [ipc_seen]
    exact henv
  · rw [ids_seen, ipc_seen]
    exact hletter

theorem Working.kSendMessage (h : Working b l r t) (henv : t.ipc.HeldBy r env)
    (hdest : (t.sched.ids r).2 = true → destPid = (t.ipc.letter env).sendPid)
    (hsend : t.kSendMessage destPid (some env) = some (code, t')) :
    Working b l r t' ∧ t'.sched.interruptedProcess = t.sched.interruptedProcess ∧
      t'.flag = t.flag ∧ t'.sched.ids = t.sched.ids ∧ t'.sched.contexts = t.sched.contexts := by
  rcases kSendMessage_cases hsend with ⟨-, -, rfl⟩ |
    ⟨cur, q, ipc, sched, -, hcur, hpcb, hmove, hwake, rfl⟩
  · exact ⟨h, rfl, rfl, rfl, rfl⟩
  obtain rfl : r = cur := Option.some.inj (h.current.symm.trans hcur)
  have hok : (MailMove.send r q env (t.sched.ids r).1 destPid).Ok b l t.seen := by
    refine ⟨h.atWork, ?_, ?_, hpcb, ?_⟩
    · rw [ipc_seen]
      exact henv
    · rw [ids_seen]
    · rw [ids_seen, ipc_seen]
      exact hdest
  obtain ⟨h', hint⟩ := h.send hok hmove hwake
  exact ⟨h', hint, rfl, wakeReceiver_ids hwake,
    Coldfire.Sched.wakeReceiver_contexts (wakeReceiver_cold hwake)⟩

/-! ## In an i-process -/

/-- Fill in an envelope, and send it back to its sender. -/
def Replies (t : Kernel n) (env : EnvPtr) (t' : Kernel n) : Prop :=
  ∃ letter code, letter.sendPid = (t.ipc.letter env).sendPid ∧
    ({ t with ipc := t.ipc.setLetter env letter } : Kernel n).kSendMessage letter.sendPid
      (some env) = some (code, t')

/-- In a step `l` from `b`, the i-process `i` has come to `t`, having interrupted `p`. -/
structure Turning (b : Kernel n) (l : RtxLabel) (i p : Fin n) (t : Kernel n) : Prop
    extends Working b l i t where
  interrupted : t.sched.interruptedProcess = some p
  flag : t.flag = true
  iProcess : (t.sched.ids i).2 = true
  signal : l.isSignal = true

variable {i : Fin n}

/-- The envelopes change, and the scheduler does not. -/
theorem Turning.of_working {ipc : Ipc n} (h : Turning b l i p t)
    (h' : Working b l i { t with ipc := ipc }) : Turning b l i p { t with ipc := ipc } :=
  ⟨h', h.interrupted, h.flag, h.iProcess, h.signal⟩

theorem Turning.isIProcess {pid : ℤ} (h : Turning b l i p t) (hi : pcbOf n pid = some i) :
    t.seen.IsIProcess pid i := by
  refine ⟨hi, ?_⟩
  rw [ids_seen]
  exact h.iProcess

theorem Turning.fill {letter : Letter} (h : Turning b l i p t) (henv : t.ipc.HeldBy i env)
    (hletter : letter.sendPid = (t.ipc.letter env).sendPid) :
    Turning b l i p { t with ipc := t.ipc.setLetter env letter } :=
  h.of_working (h.toWorking.fill henv fun _ => hletter)

theorem Turning.replies (h : Turning b l i p t) (henv : t.ipc.HeldBy i env)
    (hreply : Replies t env t') : Turning b l i p t' := by
  obtain ⟨letter, code, hletter, hsend⟩ := hreply
  have h₁ := h.fill henv hletter
  obtain ⟨h', hint, hflag, hids, -⟩ := h₁.toWorking.kSendMessage henv (fun _ => by
    rw [Ipc.letter_setLetter, Function.update_self]) hsend
  exact ⟨h', hint.trans h.interrupted, hflag.trans h.flag, by rw [hids]; exact h.iProcess,
    h.signal⟩

/-- What an i-process takes out of its mailbox, it does not go on to a process with. -/
theorem Turning.receive {ipc : Ipc n} (h : Turning b l i p t)
    (hmove : t.ipc.move (.receive i env) = some ipc) :
    Turning b l i p { t with ipc := ipc } := by
  have hok : (MailMove.receive i env).Ok b l t.seen := by
    refine .inr ⟨?_, h.signal⟩
    rw [ids_seen]
    exact h.iProcess
  refine h.of_working (h.toWorking.mail hok (fun S hS => ?_) hmove)
  show (if (S.ids i).2 then none else some (SchedMove.toUser i)) = none
  rw [hS, h.iProcess]
  rfl

theorem receiveNow_cases {found : Option EnvPtr} (hcur : t.sched.currentProcess = some i)
    (hi : (t.sched.ids i).2 = true) (h : t.receiveNow = some (found, t')) :
    (t.ipc.Empty (.recvMsgs i) ∧ found = none ∧ t' = t) ∨ ∃ env ipc, found = some env ∧
      t.ipc.move (.receive i env) = some ipc ∧ t' = { t with ipc := ipc } := by
  obtain ⟨o, ho, hret⟩ := Option.bind_eq_some_iff.1 h
  obtain ⟨cur, hcur', hcases⟩ := kReceiveMessage_cases ho
  obtain rfl : i = cur := Option.some.inj (hcur.symm.trans hcur')
  rcases hcases with ⟨hempty, -, rfl⟩ | ⟨-, hi', -⟩ | ⟨env, ipc, hmove, rfl⟩
  · cases hret
    exact .inl ⟨hempty, rfl, rfl⟩
  · rw [hi] at hi'
    contradiction
  · cases hret
    exact .inr ⟨env, ipc, rfl, hmove, rfl⟩

/-! ## The timeout i-process -/

theorem insertTimeout_eq (hcur : t.sched.currentProcess = some i)
    (h : t.insertTimeout env = some t') :
    ∃ ipc, t.ipc.move (.insert i env) = some ipc ∧ t' = { t with ipc := ipc } := by
  obtain ⟨cur, hcur', hinsert⟩ := Option.bind_eq_some_iff.1 h
  obtain rfl : i = cur := Option.some.inj (hcur.symm.trans hcur')
  obtain ⟨delay, hdelay, hinsert⟩ := Option.bind_eq_some_iff.1 hinsert
  obtain ⟨T, hT, hinsert⟩ := Option.bind_eq_some_iff.1 hinsert
  cases hinsert
  refine ⟨_, ?_, rfl⟩
  simp only [Ipc.move, hdelay, hT, Option.bind_eq_bind, Option.bind_some]
  rfl

/-- One delay has expired, and its envelope goes back, or none has. -/
theorem expireTimeout_cases (hcur : t.sched.currentProcess = some i)
    (h : t.expireTimeout = some t') :
    ((∃ T, t.ipc.timeouts.checkTimeoutQueue = some (none, T)) ∧ t' = t) ∨
      ∃ env ipc, t.ipc.move (.expire i env) = some ipc ∧
        Replies { t with ipc := ipc } env t' := by
  obtain ⟨⟨found, T⟩, hcheck, hexpire⟩ := Option.bind_eq_some_iff.1 h
  cases found with
  | none => cases hexpire; exact .inl ⟨⟨T, hcheck⟩, rfl⟩
  | some env =>
    obtain ⟨cur, hcur', hexpire⟩ := Option.bind_eq_some_iff.1 hexpire
    obtain rfl : i = cur := Option.some.inj (hcur.symm.trans hcur')
    obtain ⟨⟨code, t₁⟩, hsend, hexpire⟩ := Option.bind_eq_some_iff.1 hexpire
    cases hexpire
    refine .inr ⟨env, (t.ipc.setTimeouts T).emit (.expired i env t.ipc.clock), ?_, _, code, rfl, ?_⟩
    · simp [Ipc.move, hcheck]
    · rw [Ipc.setLetter_letter]
      exact hsend

theorem Turning.insert {ipc : Ipc n} (h : Turning b l i p t)
    (hi : pcbOf n timeoutIProcessPid = some i) (hl : l = .sigalrm) (henv : t.ipc.HeldBy i env)
    (hnext : (t.ipc.mem env).next = none) (hmove : t.ipc.move (.insert i env) = some ipc) :
    Turning b l i p { t with ipc := ipc } := by
  refine h.of_working (h.toWorking.mail (m := .insert i env) ⟨h.isIProcess hi, ?_, ?_, hl⟩
    (fun _ _ => rfl) hmove)
  · rw [ipc_seen]
    exact henv
  · rw [ipc_seen]
    exact hnext

theorem Turning.expire {ipc : Ipc n} (h : Turning b l i p t)
    (hi : pcbOf n timeoutIProcessPid = some i) (hl : l = .sigalrm)
    (hmove : t.ipc.move (.expire i env) = some ipc) :
    Turning b l i p { t with ipc := ipc } ∧ ipc.HeldBy i env := by
  refine ⟨h.of_working (h.toWorking.mail (m := .expire i env) ⟨h.isIProcess hi, hl⟩
    (fun _ _ => rfl) hmove), ?_⟩
  obtain ⟨⟨found, T⟩, -, hmove⟩ := Option.bind_eq_some_iff.1 hmove
  obtain ⟨-, hmove⟩ := Option.ite_none_right_eq_some.1 hmove
  cases hmove
  exact spotOf_cons_self (.expired i env t.ipc.clock) _

/-- The loop puts every request of its mailbox into the timeout list. -/
theorem Turning.drainRequests {fuel : ℕ} {found : Option EnvPtr} (h : Turning b l i p t)
    (hi : pcbOf n timeoutIProcessPid = some i) (hl : l = .sigalrm)
    (hfound : ∀ env ∈ found, t.ipc.HeldBy i env ∧ (t.ipc.mem env).next = none)
    (hdrain : t.drainRequests fuel found = some t') : Turning b l i p t' := by
  induction fuel generalizing found t with
  | zero => contradiction
  | succ fuel ih =>
    cases found with
    | none => cases hdrain; exact h
    | some env =>
      obtain ⟨henv, hnext⟩ := hfound env rfl
      obtain ⟨t₁, hinsert, hrest⟩ := Option.bind_eq_some_iff.1 hdrain
      obtain ⟨⟨found, t₂⟩, hreceive, hagain⟩ := Option.bind_eq_some_iff.1 hrest
      obtain ⟨ipc, hmove, rfl⟩ := insertTimeout_eq h.current hinsert
      have h₁ := h.insert hi hl henv hnext hmove
      rcases receiveNow_cases h₁.current h₁.iProcess hreceive with ⟨-, rfl, rfl⟩ |
        ⟨env', ipc, rfl, hmove, rfl⟩
      · exact ih h₁ (by simp) hagain
      · refine ih (h₁.receive hmove) (fun x hx => ?_) hagain
        obtain rfl := Option.some.inj hx
        exact Ipc.held_receive hmove

/-- The kernel a tick later. -/
def ticked (t : Kernel n) : Kernel n := { t with ipc := { t.ipc with clock := t.ipc.clock + 1 } }

theorem Turning.tick (h : Turning b l i p t) (hl : l = .sigalrm) : Turning b l i p t.ticked :=
  h.of_working (h.toWorking.mail (m := .tick) hl (fun _ _ => rfl) rfl)

/-- A turn ticks, drains the mailbox, and then looks for an expired delay. -/
theorem startTimeoutIProcess_eq (hcur : t.sched.currentProcess = some i)
    (hi : (t.sched.ids i).2 = true) (h : t.startTimeoutIProcess = some t') :
    ∃ found t₁ t₂, (t.ticked.ipc.Empty (.recvMsgs i) ∧ found = none ∧ t₁ = t.ticked ∨
        ∃ env ipc, found = some env ∧ t.ticked.ipc.move (.receive i env) = some ipc ∧
          t₁ = { t.ticked with ipc := ipc }) ∧
      t₁.drainRequests (Ipc.envFuel + 1) found = some t₂ ∧ t₂.expireTimeout = some t' := by
  obtain ⟨⟨found, t₁⟩, hreceive, hrest⟩ := Option.bind_eq_some_iff.1 h
  obtain ⟨t₂, hdrain, hexpire⟩ := Option.bind_eq_some_iff.1 hrest
  have hreceive' : t.ticked.receiveNow = some (found, t₁) := hreceive
  exact ⟨found, t₁, t₂, receiveNow_cases (t := t.ticked) hcur hi hreceive', hdrain, hexpire⟩

theorem Turning.startTimeoutIProcess (h : Turning b l i p t)
    (hi : pcbOf n timeoutIProcessPid = some i) (hl : l = .sigalrm)
    (hturn : t.startTimeoutIProcess = some t') : Turning b l i p t' := by
  obtain ⟨found, t₁, t₂, hreceive, hdrain, hexpire⟩ :=
    startTimeoutIProcess_eq h.current h.iProcess hturn
  have h₂ : Turning b l i p t₂ := by
    rcases hreceive with ⟨-, rfl, rfl⟩ | ⟨env, ipc, rfl, hmove, rfl⟩
    · exact (h.tick hl).drainRequests hi hl (by simp) hdrain
    · refine ((h.tick hl).receive hmove).drainRequests hi hl (fun x hx => ?_) hdrain
      obtain rfl := Option.some.inj hx
      exact Ipc.held_receive hmove
  rcases expireTimeout_cases h₂.current hexpire with ⟨-, rfl⟩ | ⟨env, ipc, hmove, hreply⟩
  · exact h₂
  · obtain ⟨h₃, henv⟩ := h₂.expire hi hl hmove
    exact h₃.replies henv hreply

/-! ## The keyboard i-process -/

theorem startKbIProcess_cases {length : ℤ} {data : Body} (hcur : t.sched.currentProcess = some i)
    (hi : (t.sched.ids i).2 = true) (h : t.startKbIProcess length data = some t') :
    t' = t ∨ ∃ env ipc, t.ipc.move (.receive i env) = some ipc ∧
      Replies { t with ipc := ipc } env t' := by
  obtain ⟨⟨found, t₁⟩, hreceive, hrest⟩ := Option.bind_eq_some_iff.1 h
  rcases receiveNow_cases hcur hi hreceive with ⟨-, rfl, rfl⟩ | ⟨env, ipc, rfl, hmove, rfl⟩
  · cases hrest
    exact .inl rfl
  obtain ⟨msg, -, hfits⟩ := Option.bind_eq_some_iff.1 hrest
  split at hfits
  · obtain ⟨⟨code, t₂⟩, hsend, hdone⟩ := Option.bind_eq_some_iff.1 hfits
    cases hdone
    refine .inr ⟨env, ipc, hmove, _, code, ?_, hsend⟩
    rfl
  · contradiction

theorem Turning.startKbIProcess {length : ℤ} {data : Body} (h : Turning b l i p t)
    (hturn : t.startKbIProcess length data = some t') : Turning b l i p t' := by
  rcases startKbIProcess_cases h.current h.iProcess hturn with rfl | ⟨env, ipc, hmove, hreply⟩
  · exact h
  · exact (h.receive hmove).replies (Ipc.held_receive hmove).1 hreply

/-! ## The CRT i-process -/

/-- `k_send_message` neither reads nor writes `prev_msg`. -/
theorem kSendMessage_prevMsg (t : Kernel n) (prevMsg : Option EnvPtr) :
    ({ t with ipc := { t.ipc with prevMsg := prevMsg } } : Kernel n).kSendMessage destPid
        (some env) =
      (t.kSendMessage destPid (some env)).map fun r =>
        (r.1, { r.2 with ipc := { r.2.ipc with prevMsg := prevMsg } }) := by
  unfold Kernel.kSendMessage
  cases pcbOf n destPid with
  | none => rfl
  | some q =>
    cases t.sched.currentProcess with
    | none => rfl
    | some cur =>
      have henq : ∀ letter, (({ t.ipc with prevMsg := prevMsg } : Ipc n).setLetter env
          letter).enqueue (.recvMsgs q) env =
          ((t.ipc.setLetter env letter).enqueue (.recvMsgs q) env).map
            ({ · with prevMsg := prevMsg }) := by
        intro letter
        simp only [Ipc.enqueue, Option.map_map]
        rfl
      simp only [Option.bind_eq_bind, Option.bind_some]
      rw [show ({ t.ipc with prevMsg := prevMsg } : Ipc n).letter env = t.ipc.letter env from rfl,
        henq]
      cases (t.ipc.setLetter env _).enqueue (.recvMsgs q) env with
      | none => rfl
      | some ipc =>
        cases wakeReceiver t.sched q with
        | none => rfl
        | some sched => rfl

/-- The text on the screen is acknowledged, if the flag is free. Seen as acts, its envelope is taken
off the screen first, and sent then. -/
theorem crtAck_cases {flag : CrtFlag} (hcur : t.sched.currentProcess = some i)
    (h : t.crtAck flag = some t') :
    (t' = t ∧ (t.ipc.prevMsg = none ∨ flag = .wait)) ∨
      flag = .free ∧ t'.ipc.prevMsg = none ∧ ∃ env ipc, t.ipc.move (.ack i env) = some ipc ∧
        Replies { t with ipc := ipc } env t' := by
  unfold Kernel.crtAck at h
  split at h
  · rename_i env hprev
    obtain ⟨cur, hcur', hrest⟩ := Option.bind_eq_some_iff.1 h
    obtain rfl : i = cur := Option.some.inj (hcur.symm.trans hcur')
    obtain ⟨⟨code, t₁⟩, hsend, hdone⟩ := Option.bind_eq_some_iff.1 hrest
    cases hdone
    have hmove : t.ipc.move (.ack i env) =
        some ({ t.ipc with prevMsg := none }.emit (.acked i env)) := by
      rw [Ipc.move, if_pos hprev]
    refine .inr ⟨rfl, rfl, env, _, hmove, { t.ipc.letter env with msgType := displayAck },
      code, rfl,
      ?_⟩
    exact (kSendMessage_prevMsg _ none).trans (by rw [hsend])
  · rename_i hnot
    cases h
    refine .inl ⟨rfl, ?_⟩
    cases hprev : t.ipc.prevMsg with
    | none => exact .inl rfl
    | some env =>
      right
      rename_i flag _ _
      cases flag with
      | wait => rfl
      | free => exact absurd rfl (hnot env hprev)

theorem crtStore_cases (hcur : t.sched.currentProcess = some i) (hi : (t.sched.ids i).2 = true)
    (h : t.crtStore = some t') :
    (t.ipc.Empty (.recvMsgs i) ∧ t' = t) ∨ ∃ env I J, t.ipc.move (.receive i env) = some I ∧
      I.move (.store i env) = some J ∧ t' = { t with ipc := J } := by
  obtain ⟨⟨found, t₁⟩, hreceive, hrest⟩ := Option.bind_eq_some_iff.1 h
  rcases receiveNow_cases hcur hi hreceive with ⟨hempty, rfl, rfl⟩ | ⟨env, ipc, rfl, hmove, rfl⟩
  · cases hrest
    exact .inl ⟨hempty, rfl⟩
  obtain ⟨cur, hcur', hput⟩ := Option.bind_eq_some_iff.1 hrest
  obtain rfl : i = cur := Option.some.inj (hcur.symm.trans hcur')
  obtain ⟨J, henq, hdone⟩ := Option.bind_eq_some_iff.1 hput
  cases hdone
  exact .inr ⟨env, ipc, _, hmove, Option.map_eq_some_iff.2 ⟨J, henq, rfl⟩, rfl⟩

theorem crtShow_cases {flag : CrtFlag} (hcur : t.sched.currentProcess = some i)
    (h : t.crtShow flag = some t') :
    (t' = t ∧ (flag = .wait ∨ t.ipc.isEmpty .displayQueue = some 1)) ∨
      flag = .free ∧ ∃ env I crtBuf, t.ipc.move (.display i env) = some I ∧
        t' = { t with ipc := I, crtBuf := crtBuf } := by
  unfold Kernel.crtShow at h
  cases flag with
  | wait => cases h; exact .inl ⟨rfl, .inl rfl⟩
  | free =>
    obtain ⟨empty, hempty, hrest⟩ := Option.bind_eq_some_iff.1 h
    split at hrest
    · rename_i hone
      cases hrest
      exact .inl ⟨rfl, .inr (hone ▸ hempty)⟩
    split at hrest
    · contradiction
    rename_i env J hdeq
    obtain ⟨cur, hcur', hrest'⟩ := Option.bind_eq_some_iff.1 hrest
    obtain rfl : i = cur := Option.some.inj (hcur.symm.trans hcur')
    obtain ⟨msg, -, hcopy⟩ := Option.bind_eq_some_iff.1 hrest'
    obtain ⟨crtBuf, -, hdone⟩ := Option.bind_eq_some_iff.1 hcopy
    cases hdone
    refine .inr ⟨rfl, env, _, crtBuf, ?_, rfl⟩
    rw [Ipc.move, Ipc.take, hdeq, if_pos rfl]
    rfl

theorem Turning.ack {ipc : Ipc n} {second : CrtFlag} (h : Turning b l i p t)
    (hi : pcbOf n crtIProcessPid = some i) (hl : l = .sigusr2 .free second)
    (hmove : t.ipc.move (.ack i env) = some ipc) :
    Turning b l i p { t with ipc := ipc } ∧ ipc.HeldBy i env := by
  refine ⟨h.of_working (h.toWorking.mail (m := .ack i env) ⟨h.isIProcess hi, second, hl⟩
    (fun _ _ => rfl) hmove), ?_⟩
  obtain ⟨-, hmove⟩ := Option.ite_none_right_eq_some.1 hmove
  cases hmove
  exact spotOf_cons_self (.acked i env) t.ipc.log

theorem Turning.store {I J : Ipc n} (h : Turning b l i p t) (hi : pcbOf n crtIProcessPid = some i)
    (hreceive : t.ipc.move (.receive i env) = some I) (hput : I.move (.store i env) = some J) :
    Turning b l i p { t with ipc := J } := by
  have h₁ := h.receive hreceive
  refine h₁.of_working (h₁.toWorking.mail (m := .store i env) ⟨h₁.isIProcess hi, ?_⟩
    (fun _ _ => rfl) hput)
  rw [ipc_seen]
  exact (Ipc.held_receive hreceive).1

theorem Turning.display {I : Ipc n} {crtBuf : Body} (h : Turning b l i p t)
    (hi : pcbOf n crtIProcessPid = some i)
    (hprev : t.ipc.prevMsg = none ∨ l = .sigusr2 .wait .free ∧ t.ipc.prevMsg = b.ipc.prevMsg)
    (hmove : t.ipc.move (.display i env) = some I) :
    Turning b l i p { t with ipc := I, crtBuf := crtBuf } := by
  have hok : (MailMove.display i env).Ok b l t.seen := by
    refine ⟨h.isIProcess hi, ?_⟩
    rw [ipc_seen]
    exact hprev
  have h₁ := h.of_working (h.toWorking.mail hok (fun _ _ => rfl) hmove)
  exact ⟨h₁.toWorking.crt crtBuf, h₁.interrupted, h₁.flag, h₁.iProcess, h₁.signal⟩

/-- The last message the CRT i-process knows of is the one from before the turn, if the first test
found the helper at work, and none otherwise. -/
theorem Turning.crtAck {first second : CrtFlag} (h : Turning b l i p t)
    (hi : pcbOf n crtIProcessPid = some i) (hl : l = .sigusr2 first second)
    (hack : t.crtAck first = some t') :
    Turning b l i p t' ∧ (t'.ipc.prevMsg = none ∨ first = .wait ∧ t' = t) := by
  rcases crtAck_cases h.current hack with ⟨rfl, hprev⟩ | ⟨rfl, hprev, env, ipc, hmove, hreply⟩
  · exact ⟨h, hprev.imp_right fun hwait => ⟨hwait, rfl⟩⟩
  · obtain ⟨h₁, henv⟩ := h.ack hi hl hmove
    exact ⟨h₁.replies henv hreply, .inl hprev⟩

theorem Turning.crtStore (h : Turning b l i p t) (hi : pcbOf n crtIProcessPid = some i)
    (hstore : t.crtStore = some t') :
    Turning b l i p t' ∧ t'.ipc.prevMsg = t.ipc.prevMsg := by
  rcases crtStore_cases h.current h.iProcess hstore with ⟨-, rfl⟩ | ⟨env, I, J, hreceive, hput, rfl⟩
  · exact ⟨h, rfl⟩
  · refine ⟨h.store hi hreceive hput, ?_⟩
    obtain ⟨K, henq, rfl⟩ := Option.map_eq_some_iff.1 hput
    exact (Ipc.enqueue_prevMsg henq).trans (Ipc.receive_prevMsg hreceive)

theorem Turning.startCrtIProcess {first second : CrtFlag} (h : Turning b l i p t)
    (hi : pcbOf n crtIProcessPid = some i) (hl : l = .sigusr2 first second) (hipc : t.ipc = b.ipc)
    (hturn : t.startCrtIProcess first second = some t') : Turning b l i p t' := by
  obtain ⟨t₁, hack, hrest⟩ := Option.bind_eq_some_iff.1 hturn
  obtain ⟨t₂, hstore, hshow⟩ := Option.bind_eq_some_iff.1 hrest
  obtain ⟨h₁, hprev⟩ := h.crtAck hi hl hack
  obtain ⟨h₂, hsame⟩ := h₁.crtStore hi hstore
  rcases crtShow_cases h₂.current hshow with ⟨rfl, -⟩ | ⟨rfl, env, I, crtBuf, hmove, rfl⟩
  · exact h₂
  refine h₂.display hi ?_ hmove
  rw [hsame]
  refine hprev.imp_right ?_
  rintro ⟨rfl, rfl⟩
  exact ⟨hl, by rw [hipc]⟩

end Kernel

end Rtx.Unix
