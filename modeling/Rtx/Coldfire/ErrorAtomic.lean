import Rtx.Coldfire.NullProcess
import Rtx.Coldfire.DelayService
import Rtx.Coldfire.ConsoleMask

/-!
# Errors of the message primitives

`k_send_message` checks its arguments before it writes anything. `k_request_delay` does not, and
`k_send_console_chars` writes the message type before the check and the interrupt mask after it.
So a call is atomic exactly under a condition on its arguments (`error_atomic_iff`). The condition
also asks for the tail of the queue that is appended to: `msg_env_queue_dequeue` can leave a queue
with a head and no tail, if an envelope was in two queues at once.
-/

namespace Rtx.Coldfire

open Transition

variable {n : ℕ} {table : Fin n → PcbInit} {timer u : Fin n}

/-! ## Atomic calls -/

/-- The calls that take an envelope. -/
def Call.TakesEnv : Call → Prop
  | .sendMessage .. | .releaseMsgEnv _ | .requestDelay .. | .sendConsoleChars ..
  | .requestProcessStatus _ | .getTraceBuffers _ => True
  | _ => False

/-- An enqueue does not write through a null tail. -/
def Ipc.Linkable (I : Ipc n) (queue : QueuePtr n) : Prop :=
  (I.queue queue).head ≠ none → (I.queue queue).tail ≠ none

namespace Kernel

/-- The call reads and writes no field through null. The model has no result where it does; it has
none either where the table does not fit into a body, and where the search for the head of a trace
buffer does not end. -/
def NullSafe (s : Kernel n) : Call → Prop
  | .requestProcessStatus msgEnv => (s.kRequestProcessStatus msgEnv).isSome = true ∨
    ipcMsgEnvMsgSize < 4 * (1 + 3 * n)
  | .getTraceBuffers msgEnv => (s.kGetTraceBuffers msgEnv).isSome = true ∨
    findTraceBufHead s.ipc.sendTraceBuf = none ∨ findTraceBufHead s.ipc.recvTraceBuf = none
  | c => (s.kernSwiHandler c).isSome = true

/-- The call goes through without a read through null, and a call that returns an error leaves
everything as it was. -/
def ErrorAtomic (s : Kernel n) (c : Call) : Prop :=
  s.NullSafe c ∧ ∀ r s', s.kernSwiHandler c = some (.ret (.int r) s') → r ≠ codeSuccess → s' = s

/-- When a call is atomic. -/
def AtomicWhen (timer u : Fin n) (s : Kernel n) : Call → Prop
  | .sendMessage destPid (some env) => (s.ipc.env env).msg.isSome = true →
    ∀ dest, s.sched.kGetProcess destPid = some dest → s.ipc.Linkable (.recvMsgs dest)
  | .releaseMsgEnv (some env) => (s.ipc.env env).msg.isSome = true →
    s.ipc.Linkable (homeQueue env)
  | .requestDelay _ _ none => False
  | .requestDelay _ _ (some env) => (s.ipc.env env).msg.isSome = true ∧
    s.ipc.Linkable (.recvMsgs timer)
  | .sendConsoleChars (some env) requestAck =>
    if (s.ipc.env env).msg.isSome = true then s.ipc.Linkable (.recvMsgs u)
    else (s.ipc.env env).msgType =
      (if requestAck then consoleOutputRequestAck else consoleOutput) ∧ s.uart.imr = 3
  | _ => True

variable {s s' : Kernel n} {env : EnvPtr} {cur dest : Fin n} {r : ℤ}

/-! ## Calls that go through -/

theorem enqueue_isSome_iff {I : Ipc n} {queue : QueuePtr n} :
    (I.enqueue queue env).isSome = true ↔ I.Linkable queue := by
  unfold Ipc.enqueue Ipc.Linkable msgEnvQueueEnqueue
  rw [Option.isSome_map]
  cases (I.queue queue).head with
  | none => simp
  | some head => cases (I.queue queue).tail <;> simp

theorem wakeReceiver_isSome {S : Sched n} (h : S.Tailed) (p : Fin n) :
    (S.wakeReceiver p).isSome = true := by
  unfold Sched.wakeReceiver
  split
  · refine Sched.Tailed.enqueue_isSome ?_ .readyPq p
    exact h.of_pq rfl
  · rfl

theorem wakeRequester_isSome {S : Sched n} (h : S.Tailed) : S.wakeRequester.isSome = true := by
  unfold Sched.wakeRequester
  split
  · rfl
  · rename_i p S₁ hdeq
    refine Sched.Tailed.enqueue_isSome ?_ .readyPq p
    exact (h.dequeue hdeq).of_pq rfl

theorem kSendMessage_isSome_iff {destPid : ℤ} (h : s.sched.Tailed)
    (hcur : s.sched.currentProcess = some cur) :
    (s.kSendMessage destPid (some env)).isSome = true ↔
      ((s.ipc.env env).msg.isSome = true →
        ∀ dest, s.sched.kGetProcess destPid = some dest → s.ipc.Linkable (.recvMsgs dest)) := by
  unfold kSendMessage
  simp only [hcur]
  cases hmsg : (s.ipc.env env).msg with
  | none => simp
  | some body =>
    cases hdest : s.sched.kGetProcess destPid with
    | none => simp
    | some dest =>
      obtain ⟨sched, hwake⟩ := Option.isSome_iff_exists.1 (wakeReceiver_isSome h dest)
      have hlink : ∀ letter, ((s.ipc.setLetter env letter).enqueue (.recvMsgs dest) env).isSome =
          true ↔ s.ipc.Linkable (.recvMsgs dest) := fun letter => enqueue_isSome_iff
      simp [hwake, Option.isSome_bind, ← hlink { (s.ipc.env env).toLetter with
        sendPid := (s.sched.pTable cur).pid, destPid := destPid }]
      rw [hmsg]

theorem kReleaseMsgEnv_isSome_iff (h : s.sched.Tailed) (hcur : s.sched.currentProcess = some cur) :
    (s.kReleaseMsgEnv (some env)).isSome = true ↔
      ((s.ipc.env env).msg.isSome = true → s.ipc.Linkable (homeQueue env)) := by
  unfold kReleaseMsgEnv
  cases hmsg : (s.ipc.env env).msg with
  | none => simp [hmsg]
  | some body =>
    simp only [hmsg, Option.isNone_some, Bool.false_eq_true, if_false, Option.isSome_some,
      forall_const, ← @enqueue_isSome_iff n env]
    cases env with
    | envPool i =>
      obtain ⟨sched, hwake⟩ := Option.isSome_iff_exists.1 (wakeRequester_isSome h)
      have hcur' : sched.currentProcess = some cur :=
        (Sched.wakeRequester_pointers hwake).1.trans hcur
      cases henq : s.ipc.enqueue .freeEnvQ (.envPool i) with
      | none => simp [homeQueue, henq]
      | some ipc => simp [homeQueue, henq, hwake, hcur']
    | sysEnvPool i =>
      cases henq : s.ipc.enqueue .sysFreeEnvQ (.sysEnvPool i) with
      | none => simp [homeQueue, henq]
      | some ipc => simp [homeQueue, henq, hcur]

/-- The processes are all found, so their status is written if it fits. -/
theorem kRequestProcessStatus_isSome (hfits : 4 * (1 + 3 * n) ≤ ipcMsgEnvMsgSize)
    (msgEnv : Option EnvPtr) : (s.kRequestProcessStatus msgEnv).isSome = true := by
  have hfold : ∀ (l : List (Fin n)) (data : Body), (l.foldlM (fun (data : Body) pid => do
      let process ← s.sched.kGetProcess (s.sched.pTable pid).pid
      let pcb := s.sched.pTable process
      let off := 4 * (1 + 3 * (pid : ℕ))
      return putInt (putInt (putInt data off pcb.pid) (off + 4) (stateCode pcb.state)) (off + 8)
        pcb.priority) data).isSome = true := by
    intro l
    induction l with
    | nil =>
      intro data
      rfl
    | cons pid l ih =>
      intro data
      have hfound : (s.sched.kGetProcess (s.sched.pTable pid).pid).isSome = true :=
        Sched.kGetProcess_isSome.2 ⟨pid, rfl⟩
      obtain ⟨process, hprocess⟩ := Option.isSome_iff_exists.1 hfound
      rw [List.foldlM_cons, hprocess]
      exact ih _
  unfold kRequestProcessStatus
  cases msgEnv with
  | none => rfl
  | some env =>
    simp only
    split
    · rfl
    · rename_i body _
      rw [if_pos hfits]
      obtain ⟨data, hdata⟩ := Option.isSome_iff_exists.1 (hfold (List.finRange n) (putInt body 0 n))
      rw [hdata]
      rfl

/-! ## Atomic calls, one by one -/

theorem errorAtomic_of_cases {c : Call} (hnull : s.NullSafe c)
    (hcases : ∀ r s', s.kernSwiHandler c = some (.ret (.int r) s') →
      r ≠ codeSuccess ∧ s' = s ∨ r = codeSuccess) : s.ErrorAtomic c := by
  refine ⟨hnull, fun r s' h hr => ?_⟩
  rcases hcases r s' h with ⟨-, rfl⟩ | hsuccess
  · rfl
  · exact absurd hsuccess hr

theorem returning_eq {o : Option (ℤ × Kernel n)}
    (h : o.map returning = some (.ret (.int r) s')) : o = some (r, s') := by
  obtain ⟨⟨r', t⟩, ho, heq⟩ := Option.map_eq_some_iff.1 h
  cases heq
  exact ho

theorem kSendMessage_success {destPid : ℤ} (hbody : (s.ipc.env env).msg.isSome = true)
    (hdest : (s.sched.kGetProcess destPid).isSome = true)
    (h : s.kSendMessage destPid (some env) = some (r, s')) : r = codeSuccess := by
  obtain ⟨cur, dest, hsends⟩ := kSendMessage_sends hbody hdest h
  rcases kSendMessage_cases h with ⟨-, hsame⟩ | ⟨env', cur', dest', -, hr, -⟩
  · have hlog := hsends.log
    rw [hsame] at hlog
    exact absurd hlog.symm (List.cons_ne_self _ _)
  · exact hr

theorem sendMessage_atomic_iff {destPid : ℤ} (h : s.sched.Tailed)
    (hcur : s.sched.currentProcess = some cur) (msgEnv : Option EnvPtr) :
    s.ErrorAtomic (.sendMessage destPid msgEnv) ↔
      s.AtomicWhen timer u (.sendMessage destPid msgEnv) := by
  have hsome : s.NullSafe (.sendMessage destPid msgEnv) ↔
      s.AtomicWhen timer u (.sendMessage destPid msgEnv) := by
    change ((s.kSendMessage destPid msgEnv).map returning).isSome = true ↔ _
    rw [Option.isSome_map]
    cases msgEnv with
    | none => exact ⟨fun _ => trivial, fun _ => rfl⟩
    | some env => exact kSendMessage_isSome_iff h hcur
  rw [← hsome]
  refine ⟨And.left, fun hnull => errorAtomic_of_cases hnull fun r s' hret => ?_⟩
  rcases kSendMessage_cases (returning_eq hret) with hfail | ⟨env, cur, dest, -, hr, -⟩
  · exact .inl hfail
  · exact .inr hr

theorem releaseMsgEnv_atomic_iff (h : s.sched.Tailed)
    (hcur : s.sched.currentProcess = some cur) (msgEnv : Option EnvPtr) :
    s.ErrorAtomic (.releaseMsgEnv msgEnv) ↔ s.AtomicWhen timer u (.releaseMsgEnv msgEnv) := by
  have hsome : s.NullSafe (.releaseMsgEnv msgEnv) ↔
      s.AtomicWhen timer u (.releaseMsgEnv msgEnv) := by
    change ((s.kReleaseMsgEnv msgEnv).map returning).isSome = true ↔ _
    rw [Option.isSome_map]
    cases msgEnv with
    | none => exact ⟨fun _ => trivial, fun _ => rfl⟩
    | some env => exact kReleaseMsgEnv_isSome_iff h hcur
  rw [← hsome]
  refine ⟨And.left, fun hnull => errorAtomic_of_cases hnull fun r s' hret => ?_⟩
  rcases kReleaseMsgEnv_cases (returning_eq hret) with hfail | ⟨env, cur, -, hr, -⟩
  · exact .inl hfail
  · exact .inr hr

theorem requestDelay_atomic_iff {timeDelay wakeupCode : ℤ} (h : s.sched.Tailed)
    (hcur : s.sched.currentProcess = some cur)
    (htimer : s.sched.kGetProcess timerIProcessPid = some timer) (msgEnv : Option EnvPtr) :
    s.ErrorAtomic (.requestDelay timeDelay wakeupCode msgEnv) ↔
      s.AtomicWhen timer u (.requestDelay timeDelay wakeupCode msgEnv) := by
  have hsome : s.NullSafe (.requestDelay timeDelay wakeupCode msgEnv) ↔
      s.AtomicWhen timer u (.requestDelay timeDelay wakeupCode msgEnv) := by
    change ((s.kRequestDelay timeDelay wakeupCode msgEnv).map returning).isSome = true ↔ _
    rw [Option.isSome_map]
    cases msgEnv with
    | none => exact ⟨nofun, False.elim⟩
    | some env =>
      unfold kRequestDelay AtomicWhen
      cases hmsg : (s.ipc.env env).msg with
      | none => simp [hmsg]
      | some body =>
        simp only [hmsg]
        rw [kSendMessage_isSome_iff (by exact h) (by exact hcur)]
        simp [Ipc.setLetter, Ipc.Linkable, htimer]
  rw [← hsome]
  refine ⟨And.left, fun hnull => errorAtomic_of_cases hnull fun r s' hret => .inr ?_⟩
  obtain ⟨env, body, -, -, hsend⟩ := kRequestDelay_cases (returning_eq hret)
  refine kSendMessage_success ?_ ?_ hsend
  · simp [filled, Ipc.setLetter]
  · exact Option.isSome_iff_exists.2 ⟨timer, htimer⟩

/-- A text without a body is refused, after the type was written and before the mask is. -/
theorem kSendConsoleChars_of_none {requestAck : Bool} (hmsg : (s.ipc.env env).msg = none) :
    s.kSendConsoleChars (some env) requestAck = some (errorNullArg,
      (s.filled env { (s.ipc.env env).toLetter with
        msgType := if requestAck then consoleOutputRequestAck else consoleOutput }).setImr 3) := by
  unfold kSendConsoleChars kSendMessage
  simp [Ipc.setLetter, hmsg, filled]

/-- That changes nothing only if it was all there already. -/
theorem filled_setImr_eq_iff {code : ℤ} :
    (s.filled env { (s.ipc.env env).toLetter with msgType := code }).setImr 3 = s ↔
      (s.ipc.env env).msgType = code ∧ s.uart.imr = 3 := by
  constructor
  · intro heq
    have henv : (((s.filled env { (s.ipc.env env).toLetter with
        msgType := code }).setImr 3).ipc.env env) = s.ipc.env env := by
      rw [heq]
    have himr : ((s.filled env { (s.ipc.env env).toLetter with
        msgType := code }).setImr 3).uart.imr = s.uart.imr := by
      rw [heq]
    refine ⟨?_, himr.symm⟩
    rw [← henv]
    simp [filled, setImr, Ipc.setLetter]
  · rintro ⟨htype, himr⟩
    have hletter : ({ s.ipc.env env with msgType := code } : MsgEnv EnvPtr) = s.ipc.env env := by
      rw [← htype]
    have hipc : s.ipc.setLetter env { (s.ipc.env env).toLetter with msgType := code } = s.ipc := by
      unfold Ipc.setLetter
      rw [show ({ s.ipc.env env with
        toLetter := { (s.ipc.env env).toLetter with msgType := code } } : MsgEnv EnvPtr) =
          s.ipc.env env from hletter, Function.update_eq_self]
    unfold filled setImr
    rw [hipc, ← himr]

theorem sendConsoleChars_atomic_iff {requestAck : Bool} (h : s.sched.Tailed)
    (hcur : s.sched.currentProcess = some cur)
    (hu : s.sched.kGetProcess uartIProcessPid = some u) (msgEnv : Option EnvPtr) :
    s.ErrorAtomic (.sendConsoleChars msgEnv requestAck) ↔
      s.AtomicWhen timer u (.sendConsoleChars msgEnv requestAck) := by
  cases msgEnv with
  | none =>
    refine ⟨fun _ => trivial, fun _ => ⟨rfl, fun r s' hret _ => ?_⟩⟩
    have hret' : s.kSendConsoleChars none requestAck = some (r, s') := returning_eq hret
    rcases kSendConsoleChars_cases hret' with ⟨-, hsame⟩ | ⟨env, t, henv, -⟩
    · exact hsame
    · contradiction
  | some env =>
    cases hmsg : (s.ipc.env env).msg with
    | none =>
      have hret : s.kSendConsoleChars (some env) requestAck = some _ :=
        kSendConsoleChars_of_none hmsg
      have hnull : s.NullSafe (.sendConsoleChars (some env) requestAck) := by
        change ((s.kSendConsoleChars (some env) requestAck).map returning).isSome = true
        rw [hret]
        rfl
      rw [AtomicWhen, hmsg, if_neg (by simp), ← filled_setImr_eq_iff]
      constructor
      · intro hatomic
        refine hatomic.2 errorNullArg _ ?_ (by decide)
        exact congrArg (Option.map returning) hret
      · intro hsame
        refine ⟨hnull, fun r s' hret' _ => ?_⟩
        have hret'' : s.kSendConsoleChars (some env) requestAck = some (r, s') :=
          returning_eq hret'
        have heq := hret.symm.trans hret''
        rw [← (Prod.mk.inj (Option.some.inj heq)).2]
        exact hsame
    | some body =>
      have hbody : ∀ code, ((s.filled env { (s.ipc.env env).toLetter with
          msgType := code }).ipc.env env).msg.isSome = true := by
        simp [filled, Ipc.setLetter, hmsg]
      have hsome : s.NullSafe (.sendConsoleChars (some env) requestAck) ↔
          s.AtomicWhen timer u (.sendConsoleChars (some env) requestAck) := by
        have hsend : s.kSendConsoleChars (some env) requestAck =
            ((s.filled env { (s.ipc.env env).toLetter with
              msgType := if requestAck then consoleOutputRequestAck else consoleOutput
              }).kSendMessage uartIProcessPid (some env)).map fun sent =>
                (sent.1, sent.2.setImr 3) := by
          rw [Option.map_eq_bind]
          rfl
        change ((s.kSendConsoleChars (some env) requestAck).map returning).isSome = true ↔ _
        rw [Option.isSome_map, AtomicWhen, hmsg, if_pos (by rfl), hsend, Option.isSome_map,
          kSendMessage_isSome_iff (by exact h) (by exact hcur)]
        simp only [hbody, forall_const]
        change (∀ dest, s.sched.kGetProcess uartIProcessPid = some dest →
          s.ipc.Linkable (.recvMsgs dest)) ↔ _
        simp [hu]
      rw [← hsome]
      refine ⟨And.left, fun hnull => errorAtomic_of_cases hnull fun r s' hret => .inr ?_⟩
      have hret' : s.kSendConsoleChars (some env) requestAck = some (r, s') := returning_eq hret
      rcases kSendConsoleChars_cases hret' with ⟨henv, -⟩ | ⟨env', t, henv, -, hsend⟩
      · contradiction
      · obtain rfl := Option.some.inj henv
        refine kSendMessage_success (hbody _) ?_ hsend
        exact Option.isSome_iff_exists.2 ⟨u, hu⟩

theorem requestProcessStatus_atomic (s : Kernel n) (msgEnv : Option EnvPtr) :
    s.ErrorAtomic (.requestProcessStatus msgEnv) := by
  refine errorAtomic_of_cases ?_ fun r s' hret => ?_
  · by_cases hfits : 4 * (1 + 3 * n) ≤ ipcMsgEnvMsgSize
    · exact .inl (kRequestProcessStatus_isSome hfits msgEnv)
    · exact .inr (not_le.1 hfits)
  · have hret' : s.kRequestProcessStatus msgEnv = some (r, s') := returning_eq hret
    rcases kRequestProcessStatus_cases hret' with hfail | ⟨env, msg, -, hr, -⟩
    · exact .inl hfail
    · exact .inr hr

theorem getTraceBuffers_atomic (s : Kernel n) (msgEnv : Option EnvPtr) :
    s.ErrorAtomic (.getTraceBuffers msgEnv) := by
  refine errorAtomic_of_cases ?_ fun r s' hret => ?_
  · change (s.kGetTraceBuffers msgEnv).isSome = true ∨ _
    unfold kGetTraceBuffers
    cases msgEnv with
    | none => exact .inl rfl
    | some env =>
      simp only
      cases (s.ipc.env env).msg with
      | none => exact .inl rfl
      | some body =>
        cases findTraceBufHead s.ipc.sendTraceBuf with
        | none => exact .inr (.inl rfl)
        | some sendHead =>
          cases findTraceBufHead s.ipc.recvTraceBuf with
          | none => exact .inr (.inr rfl)
          | some recvHead => exact .inl rfl
  · have hret' : s.kGetTraceBuffers msgEnv = some (r, s') := returning_eq hret
    rcases kGetTraceBuffers_cases hret' with hfail | ⟨env, msg, -, hr, -⟩
    · exact .inl hfail
    · exact .inr hr

/-! ## Runs -/

/-- What the operations on the queues keep, every step keeps. -/
theorem step_queues {P : Sched n → Prop} (hP : Sched.QueueInvariant P) {l : Label} (h : P s.sched)
    (hint : s.sched.interruptedProcess = none) (hstep : s.step l = some s') : P s'.sched := by
  obtain ⟨ms, -, hok, hexec, -⟩ := step_sched hint hstep
  exact exec_invariant (fun S m S' hS _ hm => hP.move hS hm) h hok hexec

theorem Tabled.linked (hs : Reach Kernel.step (Booted table) (fun _ _ => True) s) :
    s.Tabled table ∧ s.sched.Tailed ∧ s.sched.Ended := by
  refine hs.invariant (I := fun s => s.Tabled table ∧ s.sched.Tailed ∧ s.sched.Ended) ?_ ?_
  · intro s hboot
    obtain ⟨ram, sched₀, -, hinit, hdispatch, -⟩ := hboot.parts
    exact ⟨hboot.tabled, Sched.linked_boot hinit hdispatch⟩
  · intro s l s' _ h _ hstep
    exact ⟨h.1.step hstep, step_queues Sched.tailed_invariant h.2.1 h.1.interrupted hstep,
      step_queues Sched.ended_invariant h.2.2 h.1.interrupted hstep⟩

theorem Tabled.tailed (hs : Reach Kernel.step (Booted table) (fun _ _ => True) s) :
    s.Tabled table ∧ s.sched.Tailed := by
  obtain ⟨htabled, htailed, -⟩ := Tabled.linked hs
  exact ⟨htabled, htailed⟩

/-- As long as the processes only give away what they hold, every queue is in order. -/
theorem queueRep_of_owning (hs : Reach Kernel.step (Booted table) Owning s) (queue : QueuePtr n) :
    ∃ l, QueueRep s.ipc.env (s.ipc.queue queue) l := by
  obtain ⟨-, L, h, -⟩ := Accounts.reach (I := fun _ _ => True) hs (fun _ _ => id)
    (fun _ _ => trivial) fun _ _ _ _ _ _ _ _ _ _ => trivial
  exact ⟨_, h.keeps.queue queue⟩

theorem linkable_of_owning (hs : Reach Kernel.step (Booted table) Owning s) (queue : QueuePtr n) :
    s.ipc.Linkable queue := by
  obtain ⟨l, hrep⟩ := queueRep_of_owning hs queue
  intro hhead htail
  have hne : l ≠ [] := fun hnil => hhead ((Linked.Rep.head_eq_none hrep).2 hnil)
  have hlast := hrep.tail_eq _ (List.getLast?_eq_some_getLast hne)
  rw [htail] at hlast
  contradiction

end Kernel

open Kernel

/-- A call with an envelope that a process makes goes through without a read through null, and
changes nothing where it returns an error, if and only if the condition holds. -/
theorem error_atomic_iff {table : Fin n → PcbInit} {timer u cur : Fin n} {s : Kernel n}
    (htimer : TimerIs table timer) (hu : UartIs table u)
    (hs : Reach Kernel.step (Kernel.Booted table) (fun _ _ => True) s)
    (hcur : s.sched.currentProcess = some cur) (c : Call) (hc : c.TakesEnv) :
    s.ErrorAtomic c ↔ s.AtomicWhen timer u c := by
  obtain ⟨htabled, htailed⟩ := Tabled.tailed hs
  cases c with
  | sendMessage destPid msgEnv => exact sendMessage_atomic_iff htailed hcur msgEnv
  | releaseMsgEnv msgEnv => exact releaseMsgEnv_atomic_iff htailed hcur msgEnv
  | requestDelay timeDelay wakeupCode msgEnv =>
    exact requestDelay_atomic_iff htailed hcur
      ((kGetProcess_tableIds htabled.ids _).trans htimer.1) msgEnv
  | sendConsoleChars msgEnv requestAck =>
    exact sendConsoleChars_atomic_iff htailed hcur (htabled.uart_found hu) msgEnv
  | requestProcessStatus msgEnv =>
    exact ⟨fun _ => trivial, fun _ => requestProcessStatus_atomic s msgEnv⟩
  | getTraceBuffers msgEnv => exact ⟨fun _ => trivial, fun _ => getTraceBuffers_atomic s msgEnv⟩
  | _ => exact hc.elim

/-- A send to a process that does not exist. -/
theorem error_atomic_itable :
    ∃ s, Kernel.kInit Kernel.Ram.zero itable = some s ∧
      (∃ s', s.kernSwiHandler (.sendMessage 99 (some (.envPool 0))) =
        some (.ret (.int errorIllegalArg) s')) ∧
      s.ErrorAtomic (.sendMessage 99 (some (.envPool 0))) := by
  have hrun : ((Kernel.kInit Kernel.Ram.zero itable).any fun s => decide (
      s.sched.currentProcess = some 2 ∧ s.sched.kGetProcess 99 = none) &&
      (s.ipc.env (.envPool 0)).msg.isSome) = true := by
    decide +kernel
  obtain ⟨s, hinit, hfacts⟩ := (Option.any_eq_true ..).1 hrun
  obtain ⟨hfacts, hmsg⟩ := Bool.and_eq_true_iff.1 hfacts
  obtain ⟨hcur, hdest⟩ := of_decide_eq_true hfacts
  refine ⟨s, hinit, ⟨s, ?_⟩, ?_⟩
  · change (s.kSendMessage 99 (some (.envPool 0))).map returning = _
    obtain ⟨body, hbody⟩ := Option.isSome_iff_exists.1 hmsg
    simp [kSendMessage, hdest, hbody, returning]
  · refine (error_atomic_iff itable_timer itable_uart (.init ⟨_, hinit⟩) hcur
      (.sendMessage 99 (some (.envPool 0))) trivial).2 ?_
    intro _ dest hfound
    rw [hdest] at hfound
    contradiction

/-- A delay is requested without an envelope, and a text is sent that has no body. -/
theorem error_atomic_fails :
    ∃ s env, Reach Kernel.step (Kernel.Booted itable) Owning s ∧
      s.running = some (2, .user) ∧ ¬ s.ErrorAtomic (.requestDelay 5 7 none) ∧
      ¬ s.ErrorAtomic (.sendConsoleChars (some env) true) := by
  have hrun : ((Kernel.kInit Kernel.Ram.zero itable).bind fun s =>
      exec (guarded Kernel.step Owning) s [
        .call .requestMsgEnv, .write (.envPool 0) ⟨⟨0, 0, 0, none⟩, none⟩]).any (fun s => decide (
        s.running = some (2, .user) ∧ s.uart.imr = 2) && (s.ipc.env (.envPool 0)).msg.isNone) =
      true := by
    decide +kernel
  obtain ⟨s, hs, hfacts⟩ := (Option.any_eq_true ..).1 hrun
  obtain ⟨hfacts, hmsg⟩ := Bool.and_eq_true_iff.1 hfacts
  obtain ⟨hrunning, himr⟩ := of_decide_eq_true hfacts
  obtain ⟨s₀, hinit, hexec⟩ := Option.bind_eq_some_iff.1 hs
  refine ⟨s, .envPool 0, (Reach.init ⟨_, hinit⟩).guarded hexec, hrunning, ?_, ?_⟩
  · rintro ⟨hnull, -⟩
    contradiction
  · rintro ⟨-, hatomic⟩
    have hret : s.kSendConsoleChars (some (.envPool 0)) true = some _ :=
      kSendConsoleChars_of_none (Option.isNone_iff_eq_none.1 hmsg)
    have hsame := hatomic errorNullArg _ (congrArg (Option.map returning) hret) (by decide)
    rw [(filled_setImr_eq_iff.1 hsame).2] at himr
    contradiction

end Rtx.Coldfire
