import Rtx.Coldfire.Acts
import Rtx.Coldfire.System

/-!
# What a step does

Every step of the kernel is a short run of acts (`step_acts`): the work of the caller or of an
i-process, and scheduler moves around it. `Label.Does` says which acts a step may make, by its
label. What a step does to the scheduler alone is read off that (`step_sched`).
-/

namespace Rtx.Coldfire

open Transition

variable {n : ℕ}

namespace Kernel

variable {s s' : Kernel n} {r : ℤ} {msgEnv : Option EnvPtr}

/-! ## Steps -/

/-- A step is a trap that is left, or something between two traps. -/
theorem step_cases {l : Label} (h : s.step l = some s') :
    ∃ cur context, s.running = some (cur, context) ∧
      ((∃ o, s.trap context l = some o ∧ leave cur o = some s') ∨
        (context = .user ∧ s.between l = some s')) := by
  unfold step at h
  cases hrun : s.running with
  | none => rw [hrun] at h; contradiction
  | some r =>
    obtain ⟨cur, context⟩ := r
    rw [hrun] at h
    refine ⟨cur, context, rfl, ?_⟩
    cases l with
    | call c => exact .inl (Option.bind_eq_some_iff.1 h)
    | resume => exact .inl (Option.bind_eq_some_iff.1 h)
    | irqUart ucsr rd => exact .inr (Option.ite_none_right_eq_some.1 h)
    | irqTimer nullRead => exact .inr (Option.ite_none_right_eq_some.1 h)
    | write msgEnv content => exact .inr (Option.ite_none_right_eq_some.1 h)
    | startPong => exact .inr (Option.ite_none_right_eq_some.1 h)

theorem running_eq_some {cur : Fin n} {context : Context} :
    s.running = some (cur, context) ↔
      s.sched.currentProcess = some cur ∧ (s.sched.pTable cur).context = context := by
  unfold running
  cases s.sched.currentProcess with
  | none => simp
  | some p =>
    simp only [Option.map_some, Option.some.injEq, Prod.mk.injEq]
    constructor <;> rintro ⟨rfl, h⟩ <;> exact ⟨rfl, h⟩

/-- The ways a primitive can stop in `k_process_switch`: what it did before, and the move that
makes together with the switch. -/
inductive Switches (s : Kernel n) (cur : Fin n) :
    ProcessState → Context → Kernel n → Move n → Prop
  | blockReceive (hempty : s.ipc.isEmpty (.recvMsgs cur) = true) :
      Switches s cur .blockedOnReceive .receiveMessage s (.blockReceive cur)
  | blockRequest (hempty : s.ipc.isEmpty .freeEnvQ = true) {sched : Sched n}
      (henq : s.sched.enqueue .blockedRequestEnvPq cur = some sched) :
      Switches s cur .blockedOnEnvRequest .requestMsgEnv { s with sched := sched }
        (.blockRequest cur)
  | yield {sched : Sched n} (hyield : s.sched.yield cur = some sched) :
      Switches s cur .ready .releaseProcessor { s with sched := sched } (.yield cur)

end Kernel

/-- The process a move puts to sleep. -/
def Move.blocked? : Move n → Option (Fin n)
  | .blockReceive p | .blockRequest p => some p
  | _ => none

/-- The move may take a process out of the middle of a level. -/
def Move.IsChange : Move n → Prop
  | .changePriority .. => True
  | _ => False

/-- The moves a step may make, by its label. -/
def Label.Allows (l : Label) (s : Kernel n) : Move n → Prop
  | .wakeReceiver _ | .wakeRequester => True
  | .blockReceive p => (s.running = some (p, .user) ∧ l = .call .receiveMessage) ∨
      s.running = some (p, .receiveMessage)
  | .blockRequest p => (s.running = some (p, .user) ∧ l = .call .requestMsgEnv) ∨
      s.running = some (p, .requestMsgEnv)
  | .yield p => s.running = some (p, .user) ∧ l = .call .releaseProcessor
  | .changePriority newPriority targetProcessId =>
    l = .call (.changePriority newPriority targetProcessId)
  | .toUser p => ∃ context, s.running = some (p, context)
  | .enterIsr _ | .exitIsr => ∀ c, l ≠ .call c

/-- In this step, `p` goes to sleep inside a primitive. -/
def Kernel.Blocks (s : Kernel n) (l : Label) (p : Fin n) : Prop :=
  ∃ context state resumeAt t, s.running = some (p, context) ∧
    s.trap context l = some (.switch state resumeAt t) ∧ state ≠ .ready

/-- The moves a step may make; one that puts a process to sleep is made where it blocks. -/
def Label.Permits (l : Label) (s : Kernel n) (m : Move n) : Prop :=
  l.Allows s m ∧ ∀ p ∈ m.blocked?, s.Blocks l p

/-- The moves that wake a process up. -/
def Move.IsWake : Move n → Prop
  | .wakeReceiver _ | .wakeRequester => True
  | _ => False

/-- A process only goes to sleep if there is nothing for it. -/
def Move.Waits (t : Kernel n) : Move n → Prop
  | .blockReceive p => t.ipc.isEmpty (.recvMsgs p) = true
  | .blockRequest _ => t.ipc.isEmpty .freeEnvQ = true
  | _ => True

/-- Who works in a trap with these arguments. -/
def Call.actor : Call → Actor
  | .sendMessage destPid msgEnv => .caller msgEnv none (some destPid)
  | .requestDelay _ _ msgEnv => .caller msgEnv none (some timerIProcessPid)
  | .sendConsoleChars msgEnv _ => .caller msgEnv none (some uartIProcessPid)
  | .releaseMsgEnv msgEnv => .caller msgEnv none none
  | .requestProcessStatus msgEnv | .getTraceBuffers msgEnv => .caller none msgEnv none
  | _ => .caller none none none

/-- Who works in a step. -/
def Label.actor : Label → Actor
  | .call c => c.actor
  | .irqUart .. => .uart
  | .irqTimer _ => .timer
  | _ => .caller none none none

/-- As which process. -/
def Kernel.worker (s : Kernel n) : Label → Option (Fin n)
  | .irqUart .. => s.sched.kGetProcess uartIProcessPid
  | .irqTimer _ => s.sched.kGetProcess timerIProcessPid
  | _ => s.sched.currentProcess

/-- The moves a step begins with, if it makes them. -/
def Move.IsFirst : Move n → Prop
  | .blockReceive _ | .blockRequest _ | .yield _ | .changePriority .. => True
  | _ => False

/-- A process that was inside `k_request_msg_env` only leaves it with an envelope. -/
def Move.Leaves (s t : Kernel n) : Move n → Prop
  | .toUser p => (t.sched.pTable p).context = .requestMsgEnv →
    ∃ env, t.ipc.log = .requested p env :: s.ipc.log
  | _ => True

/-- What a step with label `l` from `s` may do in `t`. -/
def Label.Does (l : Label) (s t : Kernel n) : Act n → Prop
  | .ipc (.write env content) => l = .write env content ∧ t = s
  | .ipc m => ∃ p, s.worker l = some p ∧ m.By p t ∧ l.actor.Allows s p t m
  | .sched m => ¬ m.IsWake ∧ l.Permits s m ∧ (m.IsFirst → t = s) ∧ m.Waits t ∧ m.Leaves s t
  | .uart uart => l.actor.Sets t.uart uart ∨
    l = .startPong ∧ uart = { t.uart with pongMode := true }

/-- The process that makes a move is the one that works. -/
theorem IpcMove.By.mover {m : IpcMove n} {p q : Fin n} {t : Kernel n} (h : m.By p t)
    (hq : m.mover? = some q) : q = p := by
  cases m <;> cases hq
  · exact h.1
  · exact h
  · exact h.1
  · exact h.1
  · exact h
  · exact h

theorem Label.Does.mover_ne {l : Label} {s t : Kernel n} {m : IpcMove n} {p : Fin n}
    (h : l.Does s t (.ipc m)) (hp : s.worker l ≠ some p) : m.mover? ≠ some p := by
  intro hm
  cases m with
  | write env content => contradiction
  | _ =>
    obtain ⟨q, hq, hby, -⟩ := h
    exact hp (hq.trans (congrArg some (hby.mover hm).symm))

theorem Move.IsWake.permits {m : Move n} (h : m.IsWake) (l : Label) (s : Kernel n) :
    l.Permits s m := by
  cases m with
  | wakeReceiver => exact ⟨trivial, nofun⟩
  | wakeRequester => exact ⟨trivial, nofun⟩
  | _ => contradiction

theorem IpcMove.wakeUp_isWake {m : IpcMove n} {w : Move n} (h : m.wakeUp = some w) : w.IsWake := by
  cases m with
  | send cur dest => cases h; trivial
  | release cur queue =>
    cases queue <;> cases h
    trivial
  | _ => contradiction

namespace Kernel

variable {s s' t : Kernel n} {cur : Fin n} {context : Context} {l : Label}
  {o : Outcome n RetValue}

/-- What a trap does before it is left. -/
inductive TrapActs (s : Kernel n) (cur : Fin n) (l : Label) : Outcome n RetValue → Prop
  | ret {value : RetValue} {t : Kernel n} (hw : Works l.actor s cur s t) :
      TrapActs s cur l (.ret value t)
  | changePriority {value : RetValue} {sched : Sched n} {newPriority targetProcessId r : ℤ}
      (hl : l = .call (.changePriority newPriority targetProcessId))
      (h : s.sched.kChangePriority newPriority targetProcessId = some (r, sched)) :
      TrapActs s cur l (.ret value { s with sched := sched })
  | switch {state : ProcessState} {resumeAt : Context} {t : Kernel n} {m : Move n}
      (hs : Switches s cur state resumeAt t m) (hm : l.Allows s m) :
      TrapActs s cur l (.switch state resumeAt t)

theorem kReceiveMessage_trap (hcur : s.sched.currentProcess = some cur)
    (hactor : l.actor = .caller none none none) (hl : l.Allows s (.blockReceive cur))
    (ho : s.kReceiveMessage.map (·.map .env) = some o) : TrapActs s cur l o := by
  obtain ⟨o, h, rfl⟩ := Option.map_eq_some_iff.1 ho
  obtain ⟨cur', hcur', hcases⟩ := kReceiveMessage_cases h
  obtain rfl : cur' = cur := Option.some.inj (hcur'.symm.trans hcur)
  rcases hcases with ⟨-, -, rfl⟩ | ⟨hempty, -, rfl⟩ | ⟨env, t, rfl, hrec⟩
  · exact .ret (.refl ..)
  · exact .switch (.blockReceive hempty) hl
  · exact .ret (hactor ▸ .ipc (.receive cur' env) rfl trivial hrec.act)

theorem kRequestMsgEnvLoop_trap (hcur : s.sched.currentProcess = some cur)
    (hactor : l.actor = .caller none none none) (hl : l.Allows s (.blockRequest cur))
    (ho : s.kRequestMsgEnvLoop.map (·.map .env) = some o) : TrapActs s cur l o := by
  obtain ⟨o, h, rfl⟩ := Option.map_eq_some_iff.1 ho
  obtain ⟨cur', hcur', hcases⟩ := kRequestMsgEnvLoop_cases h
  obtain rfl : cur' = cur := Option.some.inj (hcur'.symm.trans hcur)
  rcases hcases with ⟨hempty, sched, henq, rfl⟩ | ⟨env, t, rfl, hreq⟩
  · exact .switch (.blockRequest hempty henq) hl
  · exact .ret (hactor ▸ .ipc (.request cur' .freeEnvQ env) ⟨rfl, .inl rfl⟩ trivial hreq.act)

theorem kRequestMsgEnv_trap (hcur : s.sched.currentProcess = some cur)
    (hactor : l.actor = .caller none none none) (hl : l.Allows s (.blockRequest cur))
    (ho : s.kRequestMsgEnv.map (·.map .env) = some o) : TrapActs s cur l o := by
  obtain ⟨o, h, rfl⟩ := Option.map_eq_some_iff.1 ho
  obtain ⟨cur', hcur', hcases⟩ := kRequestMsgEnv_cases h
  obtain rfl : cur' = cur := Option.some.inj (hcur'.symm.trans hcur)
  rcases hcases with ⟨-, rfl⟩ | ⟨-, hloop⟩ | ⟨queue, env, t, hqueue, rfl, hreq⟩
  · exact .ret (.refl ..)
  · exact kRequestMsgEnvLoop_trap hcur hactor hl (Option.map_eq_some_iff.2 ⟨o, hloop, rfl⟩)
  · exact .ret (hactor ▸ .ipc (.request cur' queue env) ⟨rfl, hqueue⟩ trivial hreq.act)

theorem trap_acts (hrun : s.running = some (cur, context)) (h : s.trap context l = some o) :
    TrapActs s cur l o := by
  have hcur := (running_eq_some.1 hrun).1
  cases l with
  | resume =>
    cases context with
    | user => contradiction
    | receiveMessage => exact kReceiveMessage_trap hcur rfl (.inr hrun) h
    | requestMsgEnv => exact kRequestMsgEnvLoop_trap hcur rfl (.inr hrun) h
    | releaseProcessor => cases h; exact .ret (.refl ..)
  | call c =>
    obtain ⟨rfl, h⟩ := Option.ite_none_right_eq_some.1 h
    cases c with
    | sendMessage destPid msgEnv =>
      obtain ⟨r, hr, rfl⟩ := Option.map_eq_some_iff.1 h
      exact .ret (kSendMessage_works hcur rfl hr)
    | receiveMessage => exact kReceiveMessage_trap hcur rfl (.inl ⟨hrun, rfl⟩) h
    | requestMsgEnv => exact kRequestMsgEnv_trap hcur rfl (.inl ⟨hrun, rfl⟩) h
    | releaseMsgEnv msgEnv =>
      obtain ⟨r, hr, rfl⟩ := Option.map_eq_some_iff.1 h
      exact .ret (kReleaseMsgEnv_works hcur hr)
    | releaseProcessor =>
      obtain ⟨o, ho, rfl⟩ := Option.map_eq_some_iff.1 h
      obtain ⟨cur', hcur', ho⟩ := Option.bind_eq_some_iff.1 ho
      obtain ⟨sched, hyield, ho⟩ := Option.bind_eq_some_iff.1 ho
      obtain rfl : cur' = cur := Option.some.inj (hcur'.symm.trans hcur)
      cases ho
      exact .switch (.yield hyield) ⟨hrun, rfl⟩
    | requestProcessStatus msgEnv =>
      obtain ⟨r, hr, rfl⟩ := Option.map_eq_some_iff.1 h
      exact .ret (kRequestProcessStatus_works hr)
    | changePriority newPriority targetProcessId =>
      obtain ⟨r, hr, rfl⟩ := Option.map_eq_some_iff.1 h
      obtain ⟨⟨r, sched⟩, hchange, rfl⟩ := Option.map_eq_some_iff.1 hr
      exact .changePriority rfl hchange
    | requestDelay timeDelay wakeupCode msgEnv =>
      obtain ⟨r, hr, rfl⟩ := Option.map_eq_some_iff.1 h
      exact .ret (kRequestDelay_works hcur hr)
    | sendConsoleChars msgEnv requestAck =>
      obtain ⟨r, hr, rfl⟩ := Option.map_eq_some_iff.1 h
      exact .ret (kSendConsoleChars_works hcur hr)
    | getTraceBuffers msgEnv =>
      obtain ⟨r, hr, rfl⟩ := Option.map_eq_some_iff.1 h
      exact .ret (kGetTraceBuffers_works hr)
    | getSystemTime => cases h; exact .ret (.refl ..)
  | _ => contradiction

theorem Switches.permits {state : ProcessState} {resumeAt : Context} {m : Move n}
    (hs : Switches s cur state resumeAt t m) (hrun : s.running = some (cur, context))
    (htrap : s.trap context l = some (.switch state resumeAt t)) (hm : l.Allows s m) :
    l.Permits s m := by
  refine ⟨hm, fun p hp => ?_⟩
  cases hs with
  | blockReceive => cases hp; exact ⟨_, _, _, _, hrun, htrap, nofun⟩
  | blockRequest => cases hp; exact ⟨_, _, _, _, hrun, htrap, nofun⟩
  | yield => contradiction

theorem Switches.waits {state : ProcessState} {resumeAt : Context} {m : Move n}
    (hs : Switches s cur state resumeAt t m) : ¬ m.IsWake ∧ m.Waits s ∧ m.Leaves s s := by
  cases hs with
  | blockReceive hempty => exact ⟨id, hempty, trivial⟩
  | blockRequest hempty => exact ⟨id, hempty, trivial⟩
  | yield => exact ⟨id, trivial, trivial⟩

/-- A trap that returns to a process inside `k_request_msg_env` got it an envelope. -/
theorem trap_leaves {value : RetValue} (hrun : s.running = some (cur, context))
    (h : s.trap context l = some (.ret value t))
    (hcontexts : t.sched.contexts = s.sched.contexts) : (Move.toUser cur).Leaves s t := by
  intro hctx
  obtain ⟨hcur, hcontext⟩ := running_eq_some.1 hrun
  have hrequest : context = .requestMsgEnv := by
    rw [← hcontext, ← hctx]
    exact (congrFun hcontexts cur).symm
  subst hrequest
  cases l with
  | call c => simp [trap] at h
  | resume =>
    obtain ⟨o, hloop, ho⟩ := Option.map_eq_some_iff.1 h
    obtain ⟨cur', hcur', hcases⟩ := kRequestMsgEnvLoop_cases hloop
    obtain rfl : cur' = cur := Option.some.inj (hcur'.symm.trans hcur)
    rcases hcases with ⟨-, sched, -, rfl⟩ | ⟨env, t', rfl, hreq⟩
    · contradiction
    · cases ho
      exact ⟨env, hreq.logged⟩
  | _ => contradiction

theorem Switches.move {state : ProcessState} {resumeAt : Context} {m : Move n} {S : Sched n}
    (hs : Switches s cur state resumeAt t m) (hcur : s.sched.currentProcess = some cur)
    (hint : s.sched.interruptedProcess = none)
    (h : t.sched.kProcessSwitch state resumeAt = some S) :
    s.act (.sched m) = some { t with sched := S } := by
  have hmove : s.sched.move m = some S := by
    cases hs with
    | blockReceive => simp only [Sched.move, hcur, hint, and_self, if_true]; exact h
    | blockRequest hempty henq =>
      simp only [Sched.move, hcur, hint, and_self, if_true, henq]; exact h
    | yield hyield => simp only [Sched.move, hcur, hint, and_self, if_true, hyield]; exact h
  rw [act, hmove]
  cases hs <;> rfl

/-! ## Steps as runs of acts -/

theorem Works.does {t' : Kernel n} (hp : s.worker l = some cur) (h : Works l.actor s cur t t') :
    Reach Kernel.act (· = t) (l.Does s) t' := by
  refine Reach.mono h fun t₁ a hdoes => ?_
  cases a with
  | ipc m =>
    cases m with
    | write env content =>
      have hno := hdoes.2
      cases hactor : l.actor <;> rw [hactor] at hno <;> exact hno.elim
    | _ => exact ⟨cur, hp, hdoes⟩
  | sched m => exact hdoes.elim
  | uart uart => exact .inl hdoes

theorem toUser_does (hrun : s.running = some (cur, context))
    (hcur : t.sched.currentProcess = some cur) (hint : t.sched.interruptedProcess = none)
    (hleaves : (Move.toUser cur).Leaves s t) :
    Reach Kernel.act (· = t) (l.Does s) { t with sched := t.sched.setContext cur .user } :=
  .one (l := Act.sched (.toUser cur)) ⟨id, ⟨⟨context, hrun⟩, nofun⟩, False.elim, trivial, hleaves⟩
    (by simp [act, Sched.move, hcur, hint])

/-- An interrupt is the work of the i-process, with the current process put aside. -/
theorem isrHandler_acts {pid : ℤ} {start : Kernel n → Option (Kernel n)}
    (hcur : s.sched.currentProcess = some cur) (hint : s.sched.interruptedProcess = none)
    (hl : ∀ c, l ≠ .call c) (hworker : s.worker l = s.sched.kGetProcess pid)
    (hstart : ∀ p t t', t.sched.currentProcess = some p → t.ipc = s.ipc → start t = some t' →
      Works l.actor s p t t') (h : s.isrHandler pid start = some s') :
    Reach Kernel.act (· = s) (l.Does s) s' ∧ s'.sched.interruptedProcess = none := by
  obtain ⟨t, hran, rfl⟩ := Option.map_eq_some_iff.1 h
  have henter : Reach Kernel.act (· = s) (l.Does s) { s with sched := s.sched.enterIsr pid } :=
    .one (l := Act.sched (.enterIsr pid))
      ⟨id, ⟨hl, by simp [Move.blocked?]⟩, False.elim, trivial, trivial⟩
      (by simp [act, Sched.move, hcur, hint])
  have hwork : Reach Kernel.act (· = { s with sched := s.sched.enterIsr pid }) (l.Does s) t ∧
      t.sched.interruptedProcess = some cur := by
    simp only [Sched.enterIsr] at hran
    cases hp : s.sched.kGetProcess pid with
    | none => rw [hp] at hran; cases hran; exact ⟨by rw [Sched.enterIsr, hp]; exact .init rfl, hcur⟩
    | some p =>
      rw [hp] at hran
      have hw := hstart p { s with sched := { s.sched with
        interruptedProcess := s.sched.currentProcess, currentProcess := some p } } t rfl rfl hran
      rw [Sched.enterIsr, hp]
      exact ⟨hw.does (hworker.trans hp), hw.pointers.2.trans hcur⟩
  refine ⟨(henter.trans hwork.1).trans ?_, rfl⟩
  exact .one (l := Act.sched .exitIsr)
    ⟨id, ⟨hl, by simp [Move.blocked?]⟩, False.elim, trivial, trivial⟩
    (by simp [act, Sched.move, hwork.2])

theorem step_acts (hint : s.sched.interruptedProcess = none) (h : s.step l = some s') :
    Reach Kernel.act (· = s) (l.Does s) s' ∧ s'.sched.interruptedProcess = none := by
  obtain ⟨cur, context, hrun, ⟨o, htrap, hleave⟩ | ⟨rfl, hbetween⟩⟩ := step_cases h
  · have hcur := (running_eq_some.1 hrun).1
    have hworker : s.worker l = some cur := by
      cases l with
      | call c => exact hcur
      | resume => exact hcur
      | _ => contradiction
    cases trap_acts hrun htrap with
    | ret hw =>
      cases hleave
      obtain ⟨hcur', hint'⟩ := hw.pointers
      exact ⟨(hw.does hworker).trans (toUser_does hrun (hcur'.trans hcur) (hint'.trans hint)
        (trap_leaves hrun htrap hw.contexts)), hint'.trans hint⟩
    | @changePriority _ sched newPriority tid _ hl hchange =>
      cases hleave
      obtain ⟨hcur', hint'⟩ := Sched.kChangePriority_pointers hchange
      have hfirst : Reach Kernel.act (· = s) (l.Does s) { s with sched := sched } := by
        refine .one (l := Act.sched (.changePriority newPriority tid))
          ⟨id, ⟨hl, by simp [Move.blocked?]⟩, fun _ => rfl, trivial, trivial⟩ ?_
        simp [act, Sched.move, hchange]
      exact ⟨hfirst.trans (toUser_does hrun (hcur'.trans hcur) (hint'.trans hint)
        (trap_leaves hrun htrap (Sched.kChangePriority_contexts hchange))), hint'.trans hint⟩
    | switch hs hm =>
      obtain ⟨S, hswitch, hleave⟩ := Option.bind_eq_some_iff.1 hleave
      cases hleave
      obtain ⟨hwake, hwaits, hleaves⟩ := hs.waits
      refine ⟨.one (l := Act.sched _)
        ⟨hwake, hs.permits hrun htrap hm, fun _ => rfl, hwaits, hleaves⟩
        (hs.move hcur hint hswitch), ?_⟩
      refine (Sched.kProcessSwitch_interrupted hswitch).trans ?_
      cases hs with
      | blockReceive => exact hint
      | blockRequest _ henq => exact (Sched.enqueue_pointers henq).2.trans hint
      | yield hyield => exact (Sched.enqueue_pointers hyield).2.trans hint
  · have hcur := (running_eq_some.1 hrun).1
    cases l with
    | irqUart ucsr rd =>
      exact isrHandler_acts hcur hint (by simp) rfl
        (fun _ _ _ hp _ => uartIProcess_works hp) hbetween
    | irqTimer nullRead =>
      exact isrHandler_acts hcur hint (by simp) rfl
        (fun _ _ _ hp hipc => timerIProcess_works hp hipc) hbetween
    | write msgEnv content =>
      cases hbetween
      exact ⟨.one (l := Act.ipc (.write msgEnv content)) ⟨rfl, rfl⟩ rfl, hint⟩
    | startPong => cases hbetween; exact ⟨.one (l := Act.uart _) (.inr ⟨rfl, rfl⟩) rfl, hint⟩
    | call c => contradiction
    | resume => contradiction

/-! ## Steps of the scheduler -/

/-- What a step does to the scheduler. A change of priority comes first. -/
theorem step_sched (hint : s.sched.interruptedProcess = none) (h : s.step l = some s') :
    ∃ ms, (∀ m ∈ ms, l.Permits s m) ∧
      Along Sched.move (fun S m => m.IsChange → S = s.sched) s.sched ms ∧
      exec Sched.move s.sched ms = some s'.sched ∧ s'.sched.interruptedProcess = none := by
  obtain ⟨hreach, hint'⟩ := step_acts hint h
  suffices hms : ∃ ms, (∀ m ∈ ms, l.Permits s m) ∧
      Along Sched.move (fun S m => m.IsChange → S = s.sched) s.sched ms ∧
      exec Sched.move s.sched ms = some s'.sched by
    obtain ⟨ms, hpermits, halong, hexec⟩ := hms
    exact ⟨ms, hpermits, halong, hexec, hint'⟩
  refine Reach.invariant (I := fun t => ∃ ms, (∀ m ∈ ms, l.Permits s m) ∧
    Along Sched.move (fun S m => m.IsChange → S = s.sched) s.sched ms ∧
    exec Sched.move s.sched ms = some t.sched) hreach ?_ ?_
  · rintro t rfl
    exact ⟨[], by simp, trivial, rfl⟩
  · rintro t a t' - ⟨ms, hpermits, halong, hexec⟩ hdoes hact
    -- One more move, if the act makes one.
    have hmore : ∀ m, l.Permits s m → (m.IsChange → t = s) → t.sched.move m = some t'.sched →
        ∃ ms, (∀ m ∈ ms, l.Permits s m) ∧
          Along Sched.move (fun S m => m.IsChange → S = s.sched) s.sched ms ∧
          exec Sched.move s.sched ms = some t'.sched := by
      intro m hm hchange hmove
      refine ⟨ms ++ [m], fun x hx => ?_, halong.concat fun S hS hc => ?_, exec_concat hexec hmove⟩
      · exact (List.mem_append.1 hx).elim (hpermits x) fun hx => List.mem_singleton.1 hx ▸ hm
      · rw [hexec] at hS
        exact (Option.some.inj hS).symm.trans (congrArg Kernel.sched (hchange hc))
    cases a with
    | ipc m =>
      obtain ⟨-, hwake, -⟩ := act_ipc hact
      cases hm : m.wakeUp with
      | none =>
        rw [hm] at hwake
        exact ⟨ms, hpermits, halong, hexec.trans hwake⟩
      | some w =>
        rw [hm] at hwake
        have hw := IpcMove.wakeUp_isWake hm
        refine hmore w (hw.permits l s) (fun hc => ?_) hwake
        cases w <;> contradiction
    | sched m =>
      obtain ⟨sched, hmove, rfl⟩ := Option.map_eq_some_iff.1 hact
      refine hmore m hdoes.2.1 (fun hc => hdoes.2.2.1 ?_) hmove
      cases m <;> trivial
    | uart uart => cases hact; exact ⟨ms, hpermits, halong, hexec⟩

end Kernel

end Rtx.Coldfire
