import Rtx.Lib.Run
import Rtx.Coldfire.DelayLog
import Rtx.Coldfire.PrimitiveCases
import Rtx.Coldfire.Envelopes
import Rtx.Coldfire.SchedRefine

/-!
# Who does what to the envelopes

A primitive or an i-process is a short run of acts: it moves envelopes, and with that wakes
processes up; the UART also works on its own variables. What an act may be depends on who is
running (`Actor.Allows`): the caller of a primitive only gives away the envelope it was called
with, and an i-process only what it just got.

There is one lemma for each function of the source. What holds of every act then holds of whole
primitives and i-processes by the rule for reachable states.
-/

namespace Rtx.Coldfire

open Transition

variable {n : ℕ}

/-! ## Acts -/

/-- The wake-up that goes with a move of envelopes. -/
def IpcMove.wakeUp : IpcMove n → Option (Move n)
  | .send _ dest _ _ _ => some (.wakeReceiver dest)
  | .release _ .freeEnvQ _ => some .wakeRequester
  | _ => none

/-- One thing the kernel does. -/
inductive Act (n : ℕ)
  /-- Move an envelope, and wake a process up. -/
  | ipc (m : IpcMove n)
  /-- Do something else to the scheduler. -/
  | sched (m : Move n)
  /-- Set the variables of the UART. -/
  | uart (uart : Uart)

/-- A move that may be there. -/
def Sched.move? (S : Sched n) : Option (Move n) → Option (Sched n)
  | none => some S
  | some m => S.move m

namespace Kernel

/-- One act. -/
def act (s : Kernel n) : Act n → Option (Kernel n)
  | .ipc m => do
    let ipc ← s.ipc.move m
    let sched ← s.sched.move? m.wakeUp
    return { s with sched := sched, ipc := ipc }
  | .sched m => (s.sched.move m).map fun sched => { s with sched := sched }
  | .uart uart => some { s with uart := uart }

variable {s t t' s' : Kernel n} {p cur dest : Fin n} {env : EnvPtr} {r : ℤ}

theorem act_ipc {m : IpcMove n} (h : s.act (.ipc m) = some s') :
    s.ipc.move m = some s'.ipc ∧ s.sched.move? m.wakeUp = some s'.sched ∧ s'.uart = s.uart := by
  obtain ⟨ipc, hipc, h⟩ := Option.bind_eq_some_iff.1 h
  obtain ⟨sched, hsched, h⟩ := Option.bind_eq_some_iff.1 h
  cases h
  exact ⟨hipc, hsched, rfl⟩

theorem act_ipc_of {m : IpcMove n} (hipc : s.ipc.move m = some s'.ipc)
    (hsched : s.sched.move? m.wakeUp = some s'.sched) (huart : s'.uart = s.uart) :
    s.act (.ipc m) = some s' := by
  simp only [act, hipc, hsched, Option.bind_eq_bind, Option.bind_some, ← huart]
  rfl

/-! ## Actors -/

end Kernel

/-- Who is at work: the caller of a primitive, with the envelope it may give away, the one it only
has filled in and the pid it may send to, or an i-process. -/
inductive Actor
  | caller (given filled : Option EnvPtr) (dest : Option ℤ)
  | timer
  | uart

/-- The move is made by `p`. Sends are stamped and addressed as `k_send_message` does, envelopes are
released to the queue they belong to, and only an i-process gets an envelope of the system. -/
def IpcMove.By (p : Fin n) (t : Kernel n) : IpcMove n → Prop
  | .send cur dest _ sendPid destPid =>
    cur = p ∧ sendPid = (t.sched.pTable p).pid ∧ t.sched.kGetProcess destPid = some dest
  | .receive q _ | .insert q _ _ | .expire q _ => q = p
  | .request q queue _ => q = p ∧ (queue = .freeEnvQ ∨
    queue = .sysFreeEnvQ ∧ (t.sched.pTable p).isIProcess = true)
  | .release q queue env => q = p ∧ queue = homeQueue env
  | .setLetter .. | .write .. | .tick | .copy .. => True

/-- What `p` may do to the envelopes. A caller gives away its argument, before anything else has
happened; the i-processes give away what the last events were about. -/
def Actor.Allows (s : Kernel n) (p : Fin n) (t : Kernel n) : Actor → IpcMove n → Prop
  | .caller .., .receive .. | .caller .., .request .. => True
  | .caller given filled _, .setLetter env letter => t.ipc.log = s.ipc.log ∧
    (given = some env ∨
      filled = some env ∧ letter = { (t.ipc.env env).toLetter with msg := letter.msg })
  | .caller given _ dest, .send _ _ env _ destPid =>
    given = some env ∧ dest = some destPid ∧ t.ipc.log = s.ipc.log
  | .caller given _ _, .release _ _ env => given = some env ∧ t.ipc.log = s.ipc.log
  | .timer, .tick | .timer, .receive .. | .timer, .expire .. =>
    heldBy t.ipc.log p = heldBy s.ipc.log p
  | .timer, .insert _ _ env => (t.ipc.env env).next = none ∧
    ∃ log, t.ipc.log = .received p env (t.ipc.env env).toLetter :: log
  | .timer, .send _ _ env _ destPid => destPid = (t.ipc.env env).sendPid ∧
    ∃ time log, t.ipc.log = .expired p env time :: log
  | .uart, .receive .. | .uart, .request .. => True
  | .uart, .copy env text => ∃ log msg,
    t.ipc.log = .received p env (t.ipc.env env).toLetter :: log ∧
      (t.ipc.env env).msg = some msg ∧ text = textOf msg
  | .uart, .setLetter env letter =>
    (∃ log, t.ipc.log = .requested p env :: log) ∨
      letter = { (t.ipc.env env).toLetter with msgType := displayAck } ∧
        ∃ text log, t.ipc.log = .copied env text :: .received p env (t.ipc.env env).toLetter :: log
  | .uart, .send _ _ env _ destPid =>
    (destPid = cciPid ∨ destPid = pongPid) ∧ (∃ log, t.ipc.log = .requested p env :: log) ∨
      ∃ text letter log, t.ipc.log = .copied env text :: .received p env letter :: log ∧
        letter.msgType ≠ consoleOutput ∧ destPid = letter.sendPid ∧
        (t.ipc.env env).toLetter = { letter with msgType := displayAck }
  | .uart, .release _ _ env => ∃ text letter log,
    t.ipc.log = .copied env text :: .received p env letter :: log ∧
      letter.msgType = consoleOutput
  | _, _ => False

/-- How an actor may set the variables of the UART. -/
def Actor.Sets (uart uart' : Uart) : Actor → Prop
  | .caller _ _ dest => dest = some uartIProcessPid ∧ uart' = { uart with imr := 3 }
  | .timer => False
  | .uart => True

/-- What `p` may do, as this actor, in a call that started in `s`. -/
def Actor.Does (actor : Actor) (s : Kernel n) (p : Fin n) (t : Kernel n) : Act n → Prop
  | .ipc m => m.By p t ∧ actor.Allows s p t m
  | .sched _ => False
  | .uart uart' => actor.Sets t.uart uart'

namespace Kernel

variable {s b t t' s' : Kernel n} {p cur dest : Fin n} {env : EnvPtr} {r : ℤ} {actor : Actor}
  {msgEnv : Option EnvPtr}

/-- The process `p`, as this actor, takes the kernel from `t` to `t'`. -/
def Works (actor : Actor) (s : Kernel n) (p : Fin n) (t t' : Kernel n) : Prop :=
  Reach Kernel.act (· = t) (actor.Does s p) t'

theorem Works.refl (actor : Actor) (s : Kernel n) (p : Fin n) (t : Kernel n) :
    Works actor s p t t :=
  .init rfl

theorem Works.trans {t'' : Kernel n} (h : Works actor s p t t') (h' : Works actor s p t' t'') :
    Works actor s p t t'' :=
  Reach.trans h h'

theorem Works.ipc (m : IpcMove n) (hby : m.By p t) (hallows : actor.Allows s p t m)
    (h : t.act (.ipc m) = some t') : Works actor s p t t' :=
  .one (l := Act.ipc m) ⟨hby, hallows⟩ h

theorem Works.sets {uart : Uart} (h : actor.Sets t.uart uart) :
    Works actor s p t { t with uart := uart } :=
  .one h (l := Act.uart uart) rfl

theorem Works.uart (s : Kernel n) (p : Fin n) (t : Kernel n) (uart : Uart) :
    Works .uart s p t { t with uart := uart } :=
  .sets trivial

theorem Works.filled {letter : Letter} (h : actor.Allows s p t (.setLetter env letter)) :
    Works actor s p t (t.filled env letter) :=
  .ipc (.setLetter env letter) trivial h rfl

theorem Works.pointers (h : Works actor s p t t') : Sched.SamePointers t.sched t'.sched := by
  refine Reach.invariant (I := fun t₁ => Sched.SamePointers t.sched t₁.sched) h
    (fun t₁ ht₁ => ht₁ ▸ ⟨rfl, rfl⟩) ?_
  intro t₁ a t₂ _ h₁ hdoes hact
  cases a with
  | ipc m =>
    obtain ⟨-, hwake, -⟩ := act_ipc hact
    have h₂ : Sched.SamePointers t₁.sched t₂.sched := by
      cases hm : m.wakeUp with
      | none =>
        rw [hm] at hwake
        exact Option.some.inj hwake ▸ ⟨rfl, rfl⟩
      | some w =>
        rw [hm] at hwake
        cases m with
        | send cur dest => cases hm; exact Sched.wakeReceiver_pointers hwake
        | release cur queue =>
          cases queue <;> cases hm
          exact Sched.wakeRequester_pointers hwake
        | _ => contradiction
    exact ⟨h₂.1.trans h₁.1, h₂.2.trans h₁.2⟩
  | sched m => exact hdoes.elim
  | uart uart => cases hact; exact h₁

theorem Works.contexts (h : Works actor s p t t') : t'.sched.contexts = t.sched.contexts := by
  refine Reach.invariant (I := fun t₁ => t₁.sched.contexts = t.sched.contexts) h
    (fun t₁ ht₁ => ht₁ ▸ rfl) ?_
  intro t₁ a t₂ _ h₁ hdoes hact
  cases a with
  | ipc m =>
    obtain ⟨-, hwake, -⟩ := act_ipc hact
    refine Eq.trans ?_ h₁
    cases hm : m.wakeUp with
    | none =>
      rw [hm] at hwake
      exact Option.some.inj hwake ▸ rfl
    | some w =>
      rw [hm] at hwake
      cases m with
      | send cur dest => cases hm; exact Sched.wakeReceiver_contexts hwake
      | release cur queue =>
        cases queue <;> cases hm
        exact Sched.wakeRequester_contexts hwake
      | _ => contradiction
  | sched m => exact hdoes.elim
  | uart uart => cases hact; exact h₁

/-! ## The four basic outcomes -/

theorem Sends.act {destPid : ℤ} (h : Sends s cur dest env destPid s') :
    s.act (.ipc (.send cur dest env (s.sched.pTable cur).pid destPid)) = some s' :=
  act_ipc_of h.ipc h.sched h.uart

theorem Sends.by {destPid : ℤ} (h : Sends s cur dest env destPid s') :
    (IpcMove.send cur dest env (s.sched.pTable cur).pid destPid).By cur s :=
  ⟨rfl, rfl, h.found⟩

theorem Receives.act (h : Receives s cur env s') : s.act (.ipc (.receive cur env)) = some s' :=
  act_ipc_of h.ipc (congrArg some h.sched.symm) h.uart

theorem Requests.act {queue : QueuePtr n} (h : Requests s cur queue env s') :
    s.act (.ipc (.request cur queue env)) = some s' :=
  act_ipc_of h.ipc (congrArg some h.sched.symm) h.uart

theorem Releases.act (h : Releases s cur env s') :
    s.act (.ipc (.release cur (homeQueue env) env)) = some s' := by
  refine act_ipc_of h.ipc ?_ h.uart
  have hsched := h.sched
  cases env with
  | envPool i => exact hsched
  | sysEnvPool i => exact congrArg some hsched.symm

/-- A received envelope comes with a null link, and as the last event says. -/
theorem Receives.handed (h : Receives s cur env s') : (s'.ipc.env env).next = none ∧
    s'.ipc.log = .received cur env (s'.ipc.env env).toLetter :: s.ipc.log ∧
    s'.ipc.clock = s.ipc.clock := by
  obtain ⟨I, htake, hI⟩ := Option.map_eq_some_iff.1 h.ipc
  obtain ⟨hdeq, htake⟩ := Option.ite_none_right_eq_some.1 htake
  cases htake
  have hmem : (s.ipc.dequeue (.recvMsgs cur)).2.env = setNext s.ipc.env env none :=
    msgEnvQueueDequeue_mem hdeq
  rw [← hI]
  refine ⟨?_, rfl, rfl⟩
  simp [Ipc.emit, hmem, setNext]

theorem Requests.logged {queue : QueuePtr n} (h : Requests s cur queue env s') :
    s'.ipc.log = .requested cur env :: s.ipc.log := by
  obtain ⟨I, htake, hI⟩ := Option.map_eq_some_iff.1 h.ipc
  obtain ⟨-, htake⟩ := Option.ite_none_right_eq_some.1 htake
  cases htake
  rw [← hI]
  rfl

/-! ## Primitives -/

section Primitives

variable {filled : Option EnvPtr} {dest : Option ℤ}

theorem kSendMessage_works {destPid : ℤ} (hcur : t.sched.currentProcess = some p)
    (hlog : t.ipc.log = s.ipc.log) (h : t.kSendMessage destPid msgEnv = some (r, t')) :
    Works (.caller msgEnv filled (some destPid)) s p t t' := by
  rcases kSendMessage_cases h with ⟨-, rfl⟩ | ⟨env, cur, dest, rfl, -, hsend⟩
  · exact .refl ..
  · obtain rfl : cur = p := Option.some.inj (hsend.current.symm.trans hcur)
    exact .ipc _ hsend.by ⟨rfl, rfl, hlog⟩ hsend.act

theorem kReleaseMsgEnv_works (hcur : s.sched.currentProcess = some p)
    (h : s.kReleaseMsgEnv msgEnv = some (r, s')) :
    Works (.caller msgEnv filled dest) s p s s' := by
  rcases kReleaseMsgEnv_cases h with ⟨-, rfl⟩ | ⟨env, cur, rfl, -, hrel⟩
  · exact .refl ..
  · obtain rfl : cur = p := Option.some.inj (hrel.current.symm.trans hcur)
    exact .ipc (.release cur (homeQueue env) env) ⟨rfl, rfl⟩ ⟨rfl, rfl⟩ hrel.act

theorem kRequestDelay_works {timeDelay wakeupCode : ℤ} (hcur : s.sched.currentProcess = some p)
    (h : s.kRequestDelay timeDelay wakeupCode msgEnv = some (r, s')) :
    Works (.caller msgEnv filled (some timerIProcessPid)) s p s s' := by
  obtain ⟨env, body, rfl, -, hsend⟩ := kRequestDelay_cases h
  have hfill : ∀ letter, Works (.caller (some env) filled (some timerIProcessPid)) s p s
      (s.filled env letter) := fun letter => .filled ⟨rfl, .inl rfl⟩
  exact (hfill _).trans (kSendMessage_works hcur rfl hsend)

theorem kSendConsoleChars_works {requestAck : Bool} (hcur : s.sched.currentProcess = some p)
    (h : s.kSendConsoleChars msgEnv requestAck = some (r, s')) :
    Works (.caller msgEnv filled (some uartIProcessPid)) s p s s' := by
  rcases kSendConsoleChars_cases h with ⟨-, rfl⟩ | ⟨env, t, rfl, rfl, hsend⟩
  · exact .refl ..
  · have hfill : ∀ letter, Works (.caller (some env) filled (some uartIProcessPid)) s p s
        (s.filled env letter) := fun letter => .filled ⟨rfl, .inl rfl⟩
    exact ((hfill _).trans (kSendMessage_works hcur rfl hsend)).trans (.sets ⟨rfl, rfl⟩)

/-- A primitive that only fills in the body of an envelope. -/
theorem filled_works {given : Option EnvPtr} {msg : Option Body} :
    Works (.caller given (some env) dest) s p s
      (s.filled env { (s.ipc.env env).toLetter with msg := msg }) :=
  .filled ⟨rfl, .inr ⟨rfl, rfl⟩⟩

theorem kRequestProcessStatus_works {given : Option EnvPtr}
    (h : s.kRequestProcessStatus msgEnv = some (r, s')) :
    Works (.caller given msgEnv dest) s p s s' := by
  rcases kRequestProcessStatus_cases h with ⟨-, rfl⟩ | ⟨env, msg, rfl, -, rfl⟩
  · exact .refl ..
  · exact filled_works

theorem kGetTraceBuffers_works {given : Option EnvPtr}
    (h : s.kGetTraceBuffers msgEnv = some (r, s')) :
    Works (.caller given msgEnv dest) s p s s' := by
  rcases kGetTraceBuffers_cases h with ⟨-, rfl⟩ | ⟨env, msg, rfl, -, rfl⟩
  · exact .refl ..
  · exact filled_works

end Primitives

/-! ## The timer -/

theorem receiveNow_works (actor : Actor) (hreceive : ∀ env, actor.Allows b p s (.receive p env))
    (hcur : s.sched.currentProcess = some p) {m : Option EnvPtr}
    (h : s.receiveNow = some (m, s')) :
    Works actor b p s s' ∧
      (m = none → s' = s ∧ s.ipc.isEmpty (.recvMsgs p) = true) ∧
      ∀ env ∈ m, (s'.ipc.env env).next = none ∧
        s'.ipc.log = .received p env (s'.ipc.env env).toLetter :: s.ipc.log ∧
        s'.ipc.clock = s.ipc.clock := by
  obtain ⟨cur, hcur', hcases⟩ := receiveNow_cases h
  obtain rfl : cur = p := Option.some.inj (hcur'.symm.trans hcur)
  rcases hcases with ⟨rfl, rfl, hempty⟩ | ⟨env, rfl, hrec⟩
  · exact ⟨.refl .., fun _ => ⟨rfl, hempty⟩, nofun⟩
  · refine ⟨.ipc (.receive cur env) rfl (hreceive env) hrec.act, nofun, fun x hx => ?_⟩
    obtain rfl := Option.some.inj hx
    exact hrec.handed

/-- The timer, that has started in `b`, has put away everything it has got since, all at the next
clock tick. -/
structure Draining (b : Kernel n) (p : Fin n) (time : ℤ) (log : List (Event n)) : Prop where
  clock : time = wrap32 (b.ipc.clock + 1)
  held : heldBy log p = heldBy b.ipc.log p
  intake : ∃ new, log = new ++ b.ipc.log ∧ ∀ ev ∈ new, ev.IsIntake time

/-- The envelope was just handed to `p`, which has put everything else away. -/
def Handed (b : Kernel n) (p : Fin n) (s : Kernel n) (env : EnvPtr) : Prop :=
  (s.ipc.env env).next = none ∧ ∃ log,
    s.ipc.log = .received p env (s.ipc.env env).toLetter :: log ∧
      Draining b p s.ipc.clock log

/-- The mailbox is empty, and everything is put away. -/
def Drained (b : Kernel n) (p : Fin n) (s : Kernel n) : Prop :=
  Draining b p s.ipc.clock s.ipc.log ∧ s.ipc.isEmpty (.recvMsgs p) = true

theorem receiveRequest_works (h₀ : Draining b p s.ipc.clock s.ipc.log)
    (hcur : s.sched.currentProcess = some p) {m : Option EnvPtr}
    (h : s.receiveNow = some (m, s')) :
    Works .timer b p s s' ∧ (m = none → Drained b p s') ∧ ∀ env ∈ m, Handed b p s' env := by
  obtain ⟨hworks, hnone, hsome⟩ := receiveNow_works .timer (b := b) (fun _ => h₀.held) hcur h
  refine ⟨hworks, fun hm => ?_, fun env henv => ?_⟩
  · obtain ⟨rfl, hempty⟩ := hnone hm
    exact ⟨h₀, hempty⟩
  · obtain ⟨hnext, hlog, hclock⟩ := hsome env henv
    exact ⟨hnext, _, hlog, hclock ▸ h₀⟩

theorem insertTimeout_works {nullRead : EnvPtr → Option ℤ}
    (hcur : s.sched.currentProcess = some p) (hhanded : Handed b p s env)
    (h : s.insertTimeout nullRead env = some s') :
    Works .timer b p s s' ∧ Draining b p s'.ipc.clock s'.ipc.log := by
  obtain ⟨cur, hcur', h⟩ := Option.bind_eq_some_iff.1 h
  obtain rfl : cur = p := Option.some.inj (hcur'.symm.trans hcur)
  obtain ⟨delay, hdelay, h⟩ := Option.bind_eq_some_iff.1 h
  obtain ⟨ipc, hins, h⟩ := Option.bind_eq_some_iff.1 h
  cases h
  obtain ⟨hnext, log, hlog, hdraining⟩ := hhanded
  have hrest := Ipc.timeoutQueueInsert_rest hins
  constructor
  · refine .ipc (.insert cur (nullRead env) env) rfl ⟨hnext, log, hlog⟩ (act_ipc_of ?_ rfl rfl)
    simp [Ipc.move, Ipc.insert, hdelay, hins]
  · change Draining b cur ipc.clock (.delayed cur env delay s.ipc.clock :: ipc.log)
    obtain ⟨new, rfl, hnew⟩ := hdraining.intake
    rw [hrest.log, hrest.clock, hlog]
    refine ⟨hdraining.clock, ?_, .delayed cur env delay s.ipc.clock :: .received cur env _ :: new,
      rfl, List.forall_mem_cons.2 ⟨rfl, List.forall_mem_cons.2 ⟨trivial, hnew⟩⟩⟩
    simpa [Event.held] using hdraining.held

theorem drainRequests_works {nullRead : EnvPtr → Option ℤ} {fuel : ℕ}
    (hcur : s.sched.currentProcess = some p) (hnone : msgEnv = none → Drained b p s)
    (hsome : ∀ env ∈ msgEnv, Handed b p s env)
    (h : drainRequests nullRead fuel msgEnv s = some s') :
    Works .timer b p s s' ∧ Drained b p s' := by
  induction fuel generalizing msgEnv s with
  | zero => contradiction
  | succ fuel ih =>
    cases msgEnv with
    | none => cases h; exact ⟨.refl .., hnone rfl⟩
    | some env =>
      unfold drainRequests at h
      obtain ⟨s₁, hins, h⟩ := Option.bind_eq_some_iff.1 h
      obtain ⟨⟨m, s₂⟩, hrec, hdrain⟩ := Option.bind_eq_some_iff.1 h
      obtain ⟨h₁, hdraining⟩ := insertTimeout_works hcur (hsome env rfl) hins
      have hcur₁ := h₁.pointers.1.trans hcur
      obtain ⟨h₂, hnone₂, hsome₂⟩ := receiveRequest_works hdraining hcur₁ hrec
      obtain ⟨h₃, hdrained⟩ := ih (h₂.pointers.1.trans hcur₁) hnone₂ hsome₂ hdrain
      exact ⟨(h₁.trans h₂).trans h₃, hdrained⟩

/-- The timer ticks and takes all its requests; then it looks for an expired delay. -/
theorem timerIProcess_drains {nullRead : EnvPtr → Option ℤ}
    (hcur : s.sched.currentProcess = some p) (hipc : s.ipc = b.ipc)
    (h : s.timerIProcess nullRead = some s') :
    ∃ t, Works .timer b p s.kClockIncrSystemTime t ∧ Drained b p t ∧
      t.expireTimeout = some s' := by
  unfold timerIProcess at h
  obtain ⟨⟨m, s₁⟩, hrec, h⟩ := Option.bind_eq_some_iff.1 h
  obtain ⟨s₂, hdrain, h⟩ := Option.bind_eq_some_iff.1 h
  have hstart : Draining b p s.kClockIncrSystemTime.ipc.clock s.kClockIncrSystemTime.ipc.log := by
    rw [kClockIncrSystemTime, hipc]
    exact ⟨rfl, rfl, [], rfl, by simp⟩
  obtain ⟨h₁, hnone, hsome⟩ := receiveRequest_works hstart (by exact hcur) hrec
  obtain ⟨h₂, hdrained⟩ := drainRequests_works (h₁.pointers.1.trans hcur) hnone hsome hdrain
  exact ⟨s₂, h₁.trans h₂, hdrained, h⟩

/-- The envelope of an expired delay is sent back. -/
theorem expireTimeout_cases (h : s.expireTimeout = some s') :
    (s' = s ∧ s.ipc.checkTimeoutQueue = some (none, s.ipc)) ∨
      ∃ cur env ipc r, s.sched.currentProcess = some cur ∧
        s.ipc.checkTimeoutQueue = some (some env, ipc) ∧
        kSendMessage { s with ipc := ipc.emit (.expired cur env ipc.clock) }
          (ipc.env env).sendPid (some env) = some (r, s') := by
  unfold expireTimeout at h
  obtain ⟨⟨found, ipc⟩, hcheck, h⟩ := Option.bind_eq_some_iff.1 h
  cases found with
  | none =>
    cases h
    obtain rfl := Ipc.checkTimeoutQueue_none hcheck
    exact .inl ⟨rfl, hcheck⟩
  | some env =>
    obtain ⟨cur, hcur, h⟩ := Option.bind_eq_some_iff.1 h
    obtain ⟨⟨r, s₁⟩, hsend, h⟩ := Option.bind_eq_some_iff.1 h
    cases h
    exact .inr ⟨cur, env, ipc, r, hcur, hcheck, hsend⟩

theorem expireTimeout_works (hcur : s.sched.currentProcess = some p)
    (hheld : heldBy s.ipc.log p = heldBy b.ipc.log p) (h : s.expireTimeout = some s') :
    Works .timer b p s s' := by
  rcases expireTimeout_cases h with ⟨rfl, -⟩ | ⟨cur, env, ipc, r, hcur', hcheck, hsend⟩
  · exact .refl ..
  · obtain rfl : cur = p := Option.some.inj (hcur'.symm.trans hcur)
    have hexpire : Works .timer b cur s
        { s with ipc := ipc.emit (.expired cur env ipc.clock) } := by
      refine .ipc (.expire cur env) rfl hheld (act_ipc_of ?_ rfl rfl)
      simp [Ipc.move, Ipc.expire, hcheck]
    refine hexpire.trans ?_
    rcases kSendMessage_cases hsend with ⟨-, rfl⟩ | ⟨env', cur', dest, henv, -, hs⟩
    · exact .refl ..
    · obtain rfl := Option.some.inj henv
      obtain rfl : cur' = cur := Option.some.inj (hs.current.symm.trans hcur)
      exact .ipc _ hs.by ⟨rfl, _, _, rfl⟩ hs.act

theorem kClockIncrSystemTime_works (hheld : heldBy s.ipc.log p = heldBy b.ipc.log p) :
    Works .timer b p s s.kClockIncrSystemTime :=
  .ipc (.tick) trivial hheld rfl

theorem timerIProcess_works {nullRead : EnvPtr → Option ℤ} (hcur : s.sched.currentProcess = some p)
    (hipc : s.ipc = b.ipc) (h : s.timerIProcess nullRead = some s') :
    Works .timer b p s s' := by
  obtain ⟨t, hworks, hdrained, hexpire⟩ := timerIProcess_drains hcur hipc h
  have hall : Works .timer b p s t :=
    (kClockIncrSystemTime_works (by rw [hipc])).trans hworks
  exact hall.trans (expireTimeout_works (hall.pointers.1.trans hcur) hdrained.1.held hexpire)

/-! ## The UART -/

/-- The envelope that was just received is copied, then released or returned. -/
theorem pickUp_works {log : List (Event n)} (hcur : s.sched.currentProcess = some p)
    (hlog : s.ipc.log = .received p env (s.ipc.env env).toLetter :: log)
    (h : s.pickUp env = some s') : Works .uart b p s s' := by
  unfold pickUp at h
  obtain ⟨msg, hmsg, h⟩ := Option.bind_eq_some_iff.1 h
  obtain ⟨out, -, h⟩ := Option.bind_eq_some_iff.1 h
  simp only at h
  set s₁ : Kernel n :=
    { s with uart := { s.uart with outBuffer := out, outputPrintChar := true } } with hs₁
  set s₂ := s₁.emit (.copied env (textOf msg)) with hs₂
  have hset : Works .uart b p s s₁ := .uart ..
  have hcopy : Works .uart b p s₁ s₂ :=
    .ipc (.copy env (textOf msg)) trivial ⟨log, msg, hlog, hmsg, rfl⟩ rfl
  have hcur₂ : s₂.sched.currentProcess = some p := hcur
  refine (hset.trans hcopy).trans ?_
  by_cases htype : (s₂.ipc.env env).msgType = consoleOutput
  · rw [if_pos htype] at h
    obtain ⟨⟨r, s₃⟩, hrelease, h⟩ := Option.bind_eq_some_iff.1 h
    cases h
    rcases kReleaseMsgEnv_cases hrelease with ⟨-, rfl⟩ | ⟨env', cur, henv, -, hrel⟩
    · exact .refl ..
    · obtain rfl := Option.some.inj henv
      obtain rfl : cur = p := Option.some.inj (hrel.current.symm.trans hcur₂)
      exact .ipc (.release cur (homeQueue env) env) ⟨rfl, rfl⟩
        ⟨_, _, log, congrArg _ hlog, htype⟩ hrel.act
  · rw [if_neg htype] at h
    obtain ⟨⟨r, s₃⟩, hsend, h⟩ := Option.bind_eq_some_iff.1 h
    cases h
    have hfill : Works .uart b p s₂ (s₂.filled env
        { (s₂.ipc.env env).toLetter with msgType := displayAck }) :=
      .filled (.inr ⟨rfl, _, log, congrArg _ hlog⟩)
    refine hfill.trans ?_
    rcases kSendMessage_cases hsend with ⟨-, rfl⟩ | ⟨env', cur, dest, henv, -, hs⟩
    · exact .refl ..
    · obtain rfl := Option.some.inj henv
      obtain rfl : cur = p := Option.some.inj (hs.current.symm.trans hcur₂)
      refine .ipc _ hs.by (.inr ⟨_, _, log, congrArg _ hlog, htype, ?_, ?_⟩) hs.act
      · rfl
      · exact Ipc.toLetter_setLetter_self ..

theorem uartStart_works (hcur : s.sched.currentProcess = some p) (h : s.uartStart = some s') :
    Works .uart b p s s' := by
  unfold uartStart at h
  obtain ⟨⟨m, s₁⟩, hrec, hpick⟩ := Option.bind_eq_some_iff.1 h
  obtain ⟨h₁, -, hm⟩ := receiveNow_works .uart (b := b) (fun _ => trivial) hcur hrec
  cases m with
  | none => cases hpick; exact h₁
  | some env =>
    exact h₁.trans (pickUp_works (h₁.pointers.1.trans hcur) (hm env rfl).2.1 hpick)

theorem uartNext_works (hcur : s.sched.currentProcess = some p) (h : s.uartNext = some s') :
    Works .uart b p s s' := by
  unfold uartNext at h
  obtain ⟨⟨m, s₁⟩, hrec, hpick⟩ := Option.bind_eq_some_iff.1 h
  obtain ⟨h₁, -, hm⟩ :=
    receiveNow_works .uart (b := b) (fun _ => trivial) (p := p) (by exact hcur) hrec
  have h₁ : Works .uart b p s s₁ := (Works.uart ..).trans h₁
  cases m with
  | none =>
    obtain rfl := Option.some.inj hpick
    exact h₁.trans (.uart ..)
  | some env =>
    exact h₁.trans (pickUp_works (h₁.pointers.1.trans hcur) (hm env rfl).2.1 hpick)

theorem uartIdle_works (hcur : s.sched.currentProcess = some p) (h : s.uartIdle = some s') :
    Works .uart b p s s' := by
  unfold uartIdle at h
  split at h
  · exact uartStart_works hcur h
  · cases h; exact .refl ..

theorem uartPrint_works (hcur : s.sched.currentProcess = some p) (h : s.uartPrint = some s') :
    Works .uart b p s s' := by
  unfold uartPrint at h
  split at h
  · split at h
    · exact uartNext_works hcur h
    · cases h; exact .uart ..
  · cases h; exact .refl ..

theorem uartTransmit_works (hcur : s.sched.currentProcess = some p)
    (h : s.uartTransmit = some s') : Works .uart b p s s' := by
  obtain ⟨s₁, hidle, hprint⟩ := Option.bind_eq_some_iff.1 h
  have h₁ : Works .uart b p s s₁ := uartIdle_works hcur hidle
  exact h₁.trans (uartPrint_works (h₁.pointers.1.trans hcur) hprint)

/-- The envelope that was just requested is filled in and sent. -/
theorem fill_and_send_works {letter : Letter} {destPid : ℤ} {log : List (Event n)}
    (hdest : destPid = cciPid ∨ destPid = pongPid) (hcur : s.sched.currentProcess = some p)
    (hlog : s.ipc.log = .requested p env :: log)
    (h : (s.filled env letter).kSendMessage destPid (some env) = some (r, s')) :
    Works .uart b p s s' := by
  have hfill : Works .uart b p s (s.filled env letter) := .filled (.inl ⟨log, hlog⟩)
  refine hfill.trans ?_
  rcases kSendMessage_cases h with ⟨-, rfl⟩ | ⟨env', cur, dest, henv, -, hs⟩
  · exact .refl ..
  · obtain rfl := Option.some.inj henv
    obtain rfl : cur = p := Option.some.inj (hs.current.symm.trans hcur)
    exact .ipc _ hs.by (.inl ⟨hdest, log, hlog⟩) hs.act

theorem requestNow_works (hcur : s.sched.currentProcess = some p) {m : Option EnvPtr}
    (h : s.requestNow = some (m, s')) :
    Works .uart b p s s' ∧ ∀ env ∈ m, ∃ log, s'.ipc.log = .requested p env :: log := by
  obtain ⟨cur, hcur', hcases⟩ := requestNow_cases h
  obtain rfl : cur = p := Option.some.inj (hcur'.symm.trans hcur)
  rcases hcases with ⟨rfl, rfl⟩ | ⟨queue, env, hqueue, rfl, hreq⟩
  · exact ⟨.refl .., nofun⟩
  · refine ⟨.ipc (.request cur queue env) ⟨rfl, hqueue⟩ trivial hreq.act, ?_⟩
    intro x hx
    obtain rfl := Option.some.inj hx
    exact ⟨_, hreq.logged⟩

theorem uartPong_works {charIn : UInt8} (hcur : s.sched.currentProcess = some p)
    (h : s.uartPong charIn = some s') : Works .uart b p s s' := by
  unfold uartPong at h
  obtain ⟨⟨m, s₁⟩, hreq, h₁⟩ := Option.bind_eq_some_iff.1 h
  obtain ⟨env, rfl, h₂⟩ := Option.bind_eq_some_iff.1 h₁
  obtain ⟨msg, -, h₃⟩ := Option.bind_eq_some_iff.1 h₂
  obtain ⟨⟨r, s₂⟩, hsend, h₄⟩ := Option.bind_eq_some_iff.1 h₃
  cases h₄
  obtain ⟨hworks, hm⟩ := requestNow_works (b := b) hcur hreq
  obtain ⟨log, hlog⟩ := hm env rfl
  exact hworks.trans (fill_and_send_works (.inr rfl) (hworks.pointers.1.trans hcur) hlog hsend)

theorem sendLine_works (hcur : s.sched.currentProcess = some p)
    (hmsg : ∀ env ∈ msgEnv, ∃ log, s.ipc.log = .requested p env :: log)
    (h : s.sendLine msgEnv = some s') : Works .uart b p s s' := by
  cases msgEnv with
  | none => cases h; exact .refl ..
  | some env =>
    unfold sendLine at h
    obtain ⟨msg, -, h⟩ := Option.bind_eq_some_iff.1 h
    obtain ⟨⟨r, s₁⟩, hsend, h⟩ := Option.bind_eq_some_iff.1 h
    cases h
    obtain ⟨log, hlog⟩ := hmsg env rfl
    exact fill_and_send_works (.inl rfl) hcur hlog hsend

theorem uartLineEnd_works (hcur : s.sched.currentProcess = some p)
    (h : s.uartLineEnd = some s') : Works .uart b p s s' := by
  unfold uartLineEnd at h
  obtain ⟨⟨m, s₁⟩, hreq, h⟩ := Option.bind_eq_some_iff.1 h
  obtain ⟨s₂, hline, h⟩ := Option.bind_eq_some_iff.1 h
  cases h
  obtain ⟨h₁, hm⟩ := requestNow_works (b := b) (p := p) (by exact hcur) hreq
  have h₂ : Works .uart b p s₁ s₂ := sendLine_works (h₁.pointers.1.trans hcur) hm hline
  exact (((Works.uart b p s _).trans h₁).trans h₂).trans (.uart ..)

theorem uartIProcess_works {ucsr rd : UInt8} (hcur : s.sched.currentProcess = some p)
    (h : s.uartIProcess ucsr rd = some s') : Works .uart b p s s' := by
  unfold uartIProcess uartReceive at h
  split at h
  · split at h
    · exact uartPong_works hcur h
    split at h
    · exact uartLineEnd_works hcur h
    split at h
    · rcases uartEnter_cases h with ⟨-, rfl⟩ | ⟨-, rfl⟩
      · exact .refl ..
      · exact .uart ..
    · cases h; exact .refl ..
  · split at h
    · exact uartTransmit_works hcur h
    · cases h; exact .refl ..

end Kernel

end Rtx.Coldfire
