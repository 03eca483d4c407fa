import Rtx.Coldfire.Exhaustion

/-!
# Bodies

`init_ipc` gives every envelope a body, and the kernel never takes one away. So as long as the
processes do not overwrite the pointer with null, every envelope has a body in every reachable state
(`bodied_of_keeping`).
-/

namespace Rtx.Coldfire

open Transition

variable {n : ℕ} {table : Fin n → PcbInit} {u : Fin n}

/-- A process that writes to an envelope leaves it its body. -/
def Label.KeepsBody : Label → Prop
  | .write _ content => content.msg.isSome = true
  | _ => True

instance : (l : Label) → Decidable l.KeepsBody
  | .write _ content => inferInstanceAs (Decidable (content.msg.isSome = true))
  | .call _ | .resume | .irqUart .. | .irqTimer _ | .startPong => isTrue trivial

/-! ## Moves -/

namespace Ipc

variable {I I' J : Ipc n} {env : EnvPtr} {queue : QueuePtr n} {letter : Letter} {m : IpcMove n}

/-- Every envelope has a body. -/
def Bodied (I : Ipc n) : Prop := ∀ env, (I.env env).msg.isSome = true

theorem Bodied.of_letter (h : I.Bodied) (hletter : ∀ x, (I'.env x).toLetter = (I.env x).toLetter) :
    I'.Bodied := by
  intro x
  rw [show (I'.env x).msg = (I.env x).msg from congrArg Letter.msg (hletter x)]
  exact h x

theorem Bodied.of_env (h : I.Bodied) (henv : I'.env = I.env) : I'.Bodied :=
  h.of_letter fun x => by rw [henv]

theorem Bodied.setLetter (h : I.Bodied) (hmsg : letter.msg.isSome = true) :
    (I.setLetter env letter).Bodied := by
  intro x
  by_cases hx : x = env
  · subst hx
    rw [show ((I.setLetter x letter).env x).msg = letter.msg from
      congrArg Letter.msg (toLetter_setLetter_self ..)]
    exact hmsg
  · rw [show ((I.setLetter env letter).env x).msg = (I.env x).msg from
      congrArg Letter.msg (toLetter_setLetter_of_ne I hx letter)]
    exact h x

theorem Bodied.send {cur dest : Fin n} {sendPid destPid : ℤ} (h : I.Bodied)
    (hsend : I.send cur dest env sendPid destPid = some I') : I'.Bodied := by
  unfold Ipc.send at hsend
  simp only at hsend
  split at hsend
  · contradiction
  rename_i hmsg
  obtain ⟨J, henq, rfl⟩ := Option.map_eq_some_iff.1 hsend
  have hstamped : (I.setLetter env (I.stamped env sendPid destPid)).Bodied := by
    refine h.setLetter ?_
    simpa [Option.isSome_iff_ne_none] using hmsg
  have hJ : J.Bodied := hstamped.of_letter (enqueue_letter henq)
  exact hJ

/-- The timeout is written into the body, and the rest into links. -/
theorem Bodied.timeoutQueueInsert {nullRead : Option ℤ} (h : I.Bodied)
    (hinsert : I.timeoutQueueInsert nullRead env = some I') : I'.Bodied := by
  unfold Ipc.timeoutQueueInsert at hinsert
  obtain ⟨body, -, hinsert⟩ := Option.bind_eq_some_iff.1 hinsert
  simp only at hinsert
  have hset : ∀ body', (I.setLetter env { (I.env env).toLetter with
      msg := some body' }).Bodied := fun body' => h.setLetter rfl
  split at hinsert
  · cases hinsert
    exact hset _
  · obtain ⟨timeoutSoFar, -, hinsert⟩ := Option.bind_eq_some_iff.1 hinsert
    split at hinsert
    · cases hinsert
      exact (hset _).of_letter fun x => toLetter_setNext ..
    have hlinks : ∀ {J : Ipc n} {a : EnvPtr} {b : Option EnvPtr}, J.Bodied →
        Bodied { J with env := setNext (setNext J.env a (some env)) env b } := fun hJ =>
      hJ.of_letter fun x => by simp only [toLetter_setNext]
    split at hinsert
    · cases hinsert
      exact hlinks (hset _)
    · obtain ⟨first, -, hinsert⟩ := Option.bind_eq_some_iff.1 hinsert
      obtain ⟨point, -, hinsert⟩ := Option.bind_eq_some_iff.1 hinsert
      cases hinsert
      exact hlinks (hset _)

theorem checkTimeoutQueue_env {found : Option EnvPtr}
    (h : I.checkTimeoutQueue = some (found, I')) : I'.env = I.env := by
  unfold checkTimeoutQueue at h
  split at h
  · cases h
    rfl
  · obtain ⟨timeout, -, h⟩ := Option.bind_eq_some_iff.1 h
    split at h <;> cases h <;> rfl

theorem Bodied.move (h : I.Bodied) (hset : ∀ env letter, m = .setLetter env letter →
    letter.msg.isSome = true) (hwrite : ∀ env content, m = .write env content →
      content.msg.isSome = true) (hmove : I.move m = some I') : I'.Bodied := by
  cases m with
  | setLetter env letter =>
    cases hmove
    exact h.setLetter (hset env letter rfl)
  | write env content =>
    cases hmove
    intro x
    by_cases hx : x = env
    · subst hx
      simpa using hwrite x content rfl
    · simpa [hx] using h x
  | send cur dest env sendPid destPid => exact h.send hmove
  | receive p env =>
    obtain ⟨J, htake, rfl⟩ := Option.map_eq_some_iff.1 hmove
    have hJ : J.Bodied := h.of_letter (take_letter htake)
    exact hJ
  | request p queue env =>
    obtain ⟨J, htake, rfl⟩ := Option.map_eq_some_iff.1 hmove
    have howned : (I.addOwned p 1).Bodied := h
    have hJ : J.Bodied := howned.of_letter (take_letter htake)
    exact hJ
  | release p queue env =>
    obtain ⟨J, henq, rfl⟩ := Option.map_eq_some_iff.1 hmove
    have hJ : J.Bodied := h.of_letter (enqueue_letter henq)
    exact hJ
  | insert p nullRead env =>
    obtain ⟨delay, -, hinsert⟩ := Option.bind_eq_some_iff.1 hmove
    obtain ⟨J, hqueue, hinsert⟩ := Option.bind_eq_some_iff.1 hinsert
    cases hinsert
    have hJ : J.Bodied := h.timeoutQueueInsert hqueue
    exact hJ
  | expire p env =>
    obtain ⟨⟨found, J⟩, hcheck, hmove⟩ := Option.bind_eq_some_iff.1 hmove
    obtain ⟨-, hmove⟩ := Option.ite_none_right_eq_some.1 hmove
    cases hmove
    have hJ : J.Bodied := h.of_env (checkTimeoutQueue_env hcheck)
    exact hJ
  | tick | copy =>
    cases hmove
    exact h

theorem Bodied.initEnvs {l : List EnvPtr} (Done : EnvPtr → Prop)
    (h : ∀ x, Done x → (I.env x).msg.isSome = true) (hinit : l.foldlM (initEnv queue) I = some I') :
    ∀ x, Done x ∨ x ∈ l → (I'.env x).msg.isSome = true := by
  induction l generalizing I Done with
  | nil =>
    cases hinit
    simpa using h
  | cons env l ih =>
    obtain ⟨J, hJ, hinit⟩ := Option.bind_eq_some_iff.1 hinit
    have hfirst : ∀ x, Done x ∨ x = env → (J.env x).msg.isSome = true := by
      intro x hx
      rw [show (J.env x).msg = _ from congrArg Letter.msg (enqueue_letter hJ x)]
      by_cases henv : x = env
      · simp [henv]
      · simpa [henv] using h x (hx.resolve_right henv)
    intro x hx
    refine ih _ hfirst hinit x ?_
    simpa [or_assoc] using hx

theorem initIpc_bodied {memory : EnvPtr → MsgEnv EnvPtr} {traces : ℤ → IpcTrace}
    (h : initIpc memory traces = some I) : I.Bodied := by
  unfold initIpc at h
  obtain ⟨J, hfree, hsys⟩ := Option.bind_eq_some_iff.1 h
  have hJ := Bodied.initEnvs (fun _ => False) (fun _ hx => hx.elim) hfree
  intro x
  refine Bodied.initEnvs _ hJ hsys x ?_
  simpa [allEnvs] using mem_allEnvs x

end Ipc

namespace Kernel

variable {s s' t : Kernel n} {l : Label} {env : EnvPtr} {msgEnv : Option EnvPtr} {r : ℤ}

/-! ## Primitives -/

theorem kSendMessage_bodied {destPid : ℤ} (hb : s.ipc.Bodied)
    (h : s.kSendMessage destPid msgEnv = some (r, s')) : s'.ipc.Bodied := by
  rcases kSendMessage_cases h with ⟨-, rfl⟩ | ⟨env, cur, dest, -, -, hsends⟩
  · exact hb
  · exact hb.send hsends.ipc

theorem kReleaseMsgEnv_bodied (hb : s.ipc.Bodied)
    (h : s.kReleaseMsgEnv msgEnv = some (r, s')) : s'.ipc.Bodied := by
  rcases kReleaseMsgEnv_cases h with ⟨-, rfl⟩ | ⟨env, cur, -, -, hrel⟩
  · exact hb
  · exact hb.move nofun nofun (m := .release cur (homeQueue env) env) hrel.ipc

theorem kRequestDelay_bodied {timeDelay wakeupCode : ℤ} (hb : s.ipc.Bodied)
    (h : s.kRequestDelay timeDelay wakeupCode msgEnv = some (r, s')) : s'.ipc.Bodied := by
  obtain ⟨env, body, -, -, hsend⟩ := kRequestDelay_cases h
  refine kSendMessage_bodied ?_ hsend
  exact hb.setLetter rfl

theorem kSendConsoleChars_bodied {requestAck : Bool} (hb : s.ipc.Bodied)
    (h : s.kSendConsoleChars msgEnv requestAck = some (r, s')) : s'.ipc.Bodied := by
  rcases kSendConsoleChars_cases h with ⟨-, rfl⟩ | ⟨env, t, -, rfl, hsend⟩
  · exact hb
  · have ht : t.ipc.Bodied := by
      refine kSendMessage_bodied ?_ hsend
      exact hb.setLetter (hb env)
    exact ht

theorem kRequestProcessStatus_bodied (hb : s.ipc.Bodied)
    (h : s.kRequestProcessStatus msgEnv = some (r, s')) : s'.ipc.Bodied := by
  rcases kRequestProcessStatus_cases h with ⟨-, rfl⟩ | ⟨env, body, -, -, rfl⟩
  · exact hb
  · exact hb.setLetter rfl

theorem kGetTraceBuffers_bodied (hb : s.ipc.Bodied)
    (h : s.kGetTraceBuffers msgEnv = some (r, s')) : s'.ipc.Bodied := by
  rcases kGetTraceBuffers_cases h with ⟨-, rfl⟩ | ⟨env, body, -, -, rfl⟩
  · exact hb
  · exact hb.setLetter rfl

/-! ## The UART -/

theorem receiveNow_bodied {m : Option EnvPtr} (hb : s.ipc.Bodied)
    (h : s.receiveNow = some (m, s')) : s'.ipc.Bodied := by
  obtain ⟨cur, -, ⟨-, rfl, -⟩ | ⟨env, -, hrec⟩⟩ := receiveNow_cases h
  · exact hb
  · exact hb.move nofun nofun (m := .receive cur env) hrec.ipc

theorem requestNow_bodied {m : Option EnvPtr} (hb : s.ipc.Bodied)
    (h : s.requestNow = some (m, s')) : s'.ipc.Bodied := by
  obtain ⟨cur, -, ⟨-, rfl⟩ | ⟨queue, env, -, -, hreq⟩⟩ := requestNow_cases h
  · exact hb
  · exact hb.move nofun nofun (m := .request cur queue env) hreq.ipc

theorem pickUp_bodied (hb : s.ipc.Bodied) (h : s.pickUp env = some s') : s'.ipc.Bodied := by
  unfold pickUp at h
  obtain ⟨msg, hmsg, h⟩ := Option.bind_eq_some_iff.1 h
  obtain ⟨out, -, h⟩ := Option.bind_eq_some_iff.1 h
  simp only at h
  split at h
  · obtain ⟨⟨r, t⟩, hrelease, h⟩ := Option.bind_eq_some_iff.1 h
    cases h
    exact kReleaseMsgEnv_bodied (by exact hb) hrelease
  · obtain ⟨⟨r, t⟩, hsend, h⟩ := Option.bind_eq_some_iff.1 h
    cases h
    refine kSendMessage_bodied ?_ hsend
    exact Ipc.Bodied.setLetter (by exact hb) (hb env)

theorem uartStart_bodied (hb : s.ipc.Bodied) (h : s.uartStart = some s') : s'.ipc.Bodied := by
  obtain ⟨⟨m, t⟩, hreceive, h⟩ := Option.bind_eq_some_iff.1 h
  have ht := receiveNow_bodied hb hreceive
  cases m with
  | none => cases h; exact ht
  | some env => exact pickUp_bodied ht h

theorem uartNext_bodied (hb : s.ipc.Bodied) (h : s.uartNext = some s') : s'.ipc.Bodied := by
  obtain ⟨⟨m, t⟩, hreceive, h⟩ := Option.bind_eq_some_iff.1 h
  have ht := receiveNow_bodied (by exact hb) hreceive
  cases m with
  | none => cases h; exact ht
  | some env => exact pickUp_bodied ht h

theorem uartTransmit_bodied (hb : s.ipc.Bodied) (h : s.uartTransmit = some s') :
    s'.ipc.Bodied := by
  obtain ⟨t, hidle, hprint⟩ := Option.bind_eq_some_iff.1 h
  have ht : t.ipc.Bodied := by
    unfold uartIdle at hidle
    split at hidle
    · exact uartStart_bodied hb hidle
    · cases hidle
      exact hb
  unfold uartPrint at hprint
  split at hprint
  · split at hprint
    · exact uartNext_bodied ht hprint
    · cases hprint
      exact ht
  · cases hprint
    exact ht

theorem uartReceive_bodied {rd : UInt8} (hb : s.ipc.Bodied) (h : s.uartReceive rd = some s') :
    s'.ipc.Bodied := by
  unfold uartReceive at h
  split at h
  · obtain ⟨⟨m, t⟩, hrequest, h⟩ := Option.bind_eq_some_iff.1 h
    obtain ⟨env, -, h⟩ := Option.bind_eq_some_iff.1 h
    obtain ⟨body, -, h⟩ := Option.bind_eq_some_iff.1 h
    obtain ⟨⟨r, t'⟩, hsend, h⟩ := Option.bind_eq_some_iff.1 h
    cases h
    refine kSendMessage_bodied ?_ hsend
    exact (requestNow_bodied hb hrequest).setLetter rfl
  split at h
  · rw [uartLineEnd_eq] at h
    obtain ⟨t', hline, rfl⟩ := Option.map_eq_some_iff.1 h
    obtain ⟨⟨m, t⟩, hrequest, hline⟩ := Option.bind_eq_some_iff.1 hline
    have ht : t.ipc.Bodied := requestNow_bodied (by exact hb) hrequest
    suffices ht' : t'.ipc.Bodied by exact ht'
    cases m with
    | none =>
      cases hline
      exact ht
    | some env =>
      obtain ⟨msg, hmsg, hline⟩ := Option.bind_eq_some_iff.1 hline
      obtain ⟨⟨r, t₁⟩, hsend, hline⟩ := Option.bind_eq_some_iff.1 hline
      cases hline
      refine kSendMessage_bodied ?_ hsend
      exact ht.setLetter ((lineBody_body hmsg).trans (ht env))
  split at h
  · rcases uartEnter_cases h with ⟨-, rfl⟩ | ⟨-, rfl⟩ <;> exact hb
  · cases h
    exact hb

/-! ## Steps -/

/-- A step that fills in no envelope. -/
theorem acts_bodied (hb : s.ipc.Bodied) (hl : l.KeepsBody)
    (hset : ∀ t env letter, ¬ l.Does s t (.ipc (.setLetter env letter)))
    (h : Reach Kernel.act (· = s) (l.Does s) t) : t.ipc.Bodied := by
  refine h.invariant (I := fun t => t.ipc.Bodied) (fun t ht => ht ▸ hb) ?_
  intro t a t' _ ht hdoes hact
  cases a with
  | ipc m =>
    refine ht.move ?_ ?_ (act_ipc hact).1
    · rintro env letter rfl
      exact absurd hdoes (hset t env letter)
    · rintro env content rfl
      obtain ⟨rfl, -⟩ := hdoes
      exact hl
  | sched m =>
    obtain ⟨S, -, rfl⟩ := Option.map_eq_some_iff.1 hact
    exact ht
  | uart uart =>
    cases hact
    exact ht

theorem call_bodied {c : Call} (hb : s.ipc.Bodied) (hint : s.sched.interruptedProcess = none)
    (hstep : s.step (.call c) = some s') : s'.ipc.Bodied := by
  have hquiet : c.actor = .caller none none none → s'.ipc.Bodied := by
    intro hactor
    refine acts_bodied (l := .call c) hb trivial ?_ (step_acts hint hstep).1
    rintro t env letter ⟨p, -, -, hallows⟩
    rw [show (Label.call c).actor = _ from hactor] at hallows
    obtain ⟨-, hgiven | ⟨hfilled, -⟩⟩ := hallows
    · contradiction
    · contradiction
  obtain ⟨cur, context, -, ⟨o, htrap, hleave⟩ | ⟨-, hbetween⟩⟩ := step_cases hstep
  · obtain ⟨-, htrap⟩ := Option.ite_none_right_eq_some.1 htrap
    have hret : ∀ {o' : Option (ℤ × Kernel n)}, o'.map returning = some o →
        (∀ r t, o' = some (r, t) → t.ipc.Bodied) → s'.ipc.Bodied := by
      intro o' ho hbodied
      obtain ⟨⟨r, t⟩, ho', rfl⟩ := Option.map_eq_some_iff.1 ho
      cases hleave
      exact hbodied r t ho'
    cases c with
    | sendMessage => exact hret htrap fun r t => kSendMessage_bodied hb
    | releaseMsgEnv => exact hret htrap fun r t => kReleaseMsgEnv_bodied hb
    | requestDelay => exact hret htrap fun r t => kRequestDelay_bodied hb
    | sendConsoleChars => exact hret htrap fun r t => kSendConsoleChars_bodied hb
    | requestProcessStatus => exact hret htrap fun r t => kRequestProcessStatus_bodied hb
    | getTraceBuffers => exact hret htrap fun r t => kGetTraceBuffers_bodied hb
    | _ => exact hquiet rfl
  · contradiction

theorem irqUart_bodied {ucsr rd : UInt8} (htabled : s.Tabled table) (hu : UartIs table u)
    (hb : s.ipc.Bodied) (hstep : s.step (.irqUart ucsr rd) = some s') : s'.ipc.Bodied := by
  obtain ⟨t, t', -, -, hipc, -, hran, hipc', -⟩ :=
    irqUart_cases (htabled.uart_found hu) htabled.interrupted hstep
  have ht : t.ipc.Bodied := hipc ▸ hb
  rw [hipc']
  unfold uartIProcess at hran
  split at hran
  · exact uartReceive_bodied ht hran
  split at hran
  · exact uartTransmit_bodied ht hran
  · cases hran
    exact ht

theorem step_bodied (htabled : s.Tabled table) (hu : UartIs table u) (hb : s.ipc.Bodied)
    (hl : l.KeepsBody) (hstep : s.step l = some s') : s'.ipc.Bodied := by
  have hquiet : (∀ t env letter, ¬ l.Does s t (.ipc (.setLetter env letter))) → s'.ipc.Bodied :=
    fun hset => acts_bodied hb hl hset (step_acts htabled.interrupted hstep).1
  cases l with
  | call c => exact call_bodied hb htabled.interrupted hstep
  | irqUart ucsr rd => exact irqUart_bodied htabled hu hb hstep
  | irqTimer nullRead =>
    refine hquiet ?_
    rintro t env letter ⟨p, -, -, hallows⟩
    exact hallows
  | _ =>
    refine hquiet ?_
    rintro t env letter ⟨p, -, -, -, hgiven | ⟨hfilled, -⟩⟩
    · contradiction
    · contradiction

/-- As long as the processes keep the bodies, so does the kernel. -/
theorem bodied_of_keeping (hu : UartIs table u)
    (hs : Reach Kernel.step (Booted table) (fun _ l => l.KeepsBody) s) : s.ipc.Bodied := by
  refine (hs.invariant (I := fun s => s.Tabled table ∧ s.ipc.Bodied) ?_ ?_).2
  · intro s hboot
    obtain ⟨ram, -, hipc, -⟩ := hboot.parts
    exact ⟨hboot.tabled, Ipc.initIpc_bodied hipc⟩
  · intro s l s' _ h hl hstep
    exact ⟨h.1.step hstep, step_bodied h.1 hu h.2 hl hstep⟩

end Kernel

end Rtx.Coldfire
