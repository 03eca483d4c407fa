import Rtx.Lib.Run
import Rtx.Unix.MailKeeps
import Rtx.Unix.SchedFrame
import Rtx.Unix.System

/-!
# Who does what in the Unix port

A step of the machine is a short run of acts: it moves envelopes, and with that wakes processes up,
or it does something else to the scheduler. What an act may be depends on who works (`Act.Ok`): the
running process gives away what it holds, and an i-process sends an envelope back to its sender.

The turn of an i-process is a run of acts too, on the kernel as it will be once the i-process has
left (`Kernel.seen`). There is one lemma for each function of the source. What holds of every act
then holds of whole steps by the rule for reachable states.
-/

namespace Rtx.Unix

open Transition
open Coldfire (Body Letter ProcessState Context Sched codeSuccess errorNullArg errorIllegalArg)

variable {n : ℕ}

/-! ## Acts -/

/-- One thing the kernel does. -/
inductive Act (n : ℕ)
  /-- Move an envelope, and with that wake a process up, or let one go on. -/
  | mail (m : MailMove n)
  /-- Do something else to the scheduler. -/
  | sched (m : SchedMove n)
  /-- Give the status of the running process back to it. -/
  | restore (p : Fin n)
  | crt (crtBuf : Body)

/-- What a move of envelopes does to the scheduler. -/
def MailMove.brings (S : Sched n) : MailMove n → Option (SchedMove n)
  | .send _ q _ _ _ => some (.wakeReceiver q)
  | .release .. => some .wakeRequester
  | .receive p _ | .request p _ => if (S.ids p).2 then none else some (.toUser p)
  | _ => none

/-- It wakes somebody up, or lets the running process go on. -/
theorem MailMove.brings_cases {S : Sched n} {m : MailMove n} {w : SchedMove n}
    (h : m.brings S = some w) :
    (∃ q, w = .wakeReceiver q) ∨ w = .wakeRequester ∨ ∃ p, w = .toUser p := by
  cases m with
  | send => cases h; exact .inl ⟨_, rfl⟩
  | release => cases h; exact .inr (.inl rfl)
  | receive p | request p =>
    obtain ⟨-, hw⟩ := Option.ite_none_left_eq_some.1 h
    cases hw
    exact .inr (.inr ⟨p, rfl⟩)
  | _ => contradiction

/-- A move that may be there. -/
def follow (S : Sched n) : Option (SchedMove n) → Option (Sched n)
  | none => some S
  | some m => schedMove S m

/-- A number that is not 0. -/
def Ipc.Empty (I : Ipc n) (queue : QueuePtr n) : Prop := ∃ k ∈ I.isEmpty queue, k ≠ 0

/-- The step is a signal, and so a turn of an i-process. -/
def RtxLabel.isSignal : RtxLabel → Bool
  | .sigalrm | .sigusr1 .. | .sigusr2 .. => true
  | .call _ | .resume | .write .. => false

namespace Kernel

/-- One act. -/
def act (s : Kernel n) : Act n → Option (Kernel n)
  | .mail m => do
    let ipc ← s.ipc.move m
    let sched ← follow s.sched (m.brings s.sched)
    return { s with sched := sched, ipc := ipc }
  | .sched m => (schedMove s.sched m).map fun sched => { s with sched := sched }
  | .restore p => some { s with sched := s.sched.setState p .executing }
  | .crt crtBuf => some { s with crtBuf := crtBuf }

/-- The process is at work: it runs, or is an i-process. -/
def AtWork (s : Kernel n) (p : Fin n) : Prop :=
  s.sched.currentProcess = some p ∨ (s.sched.ids p).2 = true

/-- The i-process with this pid. -/
def IsIProcess (s : Kernel n) (pid : ℤ) (p : Fin n) : Prop :=
  pcbOf n pid = some p ∧ (s.sched.ids p).2 = true

end Kernel

/-- Who may make a move in a step `l` from `b`. Sends are stamped and addressed as `k_send_message`
does; what an i-process sends goes to the process that sent it. A text goes to the screen while
another is there only where the flag became free between the two tests of a turn. -/
def MailMove.Ok (b : Kernel n) (l : RtxLabel) (s : Kernel n) : MailMove n → Prop
  | .fill p env letter => s.AtWork p ∧ s.ipc.HeldBy p env ∧
    ((s.sched.ids p).2 = true → letter.sendPid = (s.ipc.letter env).sendPid)
  | .write p env _ => s.sched.currentProcess = some p ∧ s.ipc.HeldBy p env
  | .send p q env sendPid destPid => s.AtWork p ∧ s.ipc.HeldBy p env ∧
    sendPid = (s.sched.ids p).1 ∧ pcbOf n destPid = some q ∧
    ((s.sched.ids p).2 = true → destPid = (s.ipc.letter env).sendPid)
  | .receive p _ => s.sched.currentProcess = some p ∧ s.sched.contexts p ≠ .requestMsgEnv ∨
    (s.sched.ids p).2 = true ∧ l.isSignal = true
  | .request p _ => s.sched.currentProcess = some p
  | .release p env => s.sched.currentProcess = some p ∧ s.ipc.HeldBy p env
  | .tick => l = .sigalrm
  | .insert p env => s.IsIProcess timeoutIProcessPid p ∧ s.ipc.HeldBy p env ∧
    (s.ipc.mem env).next = none ∧ l = .sigalrm
  | .expire p _ => s.IsIProcess timeoutIProcessPid p ∧ l = .sigalrm
  | .store p env => s.IsIProcess crtIProcessPid p ∧ s.ipc.HeldBy p env
  | .display p _ => s.IsIProcess crtIProcessPid p ∧ (s.ipc.prevMsg = none ∨
    l = .sigusr2 .wait .free ∧ s.ipc.prevMsg = b.ipc.prevMsg)
  | .ack p _ => s.IsIProcess crtIProcessPid p ∧ ∃ second, l = .sigusr2 .free second

/-- What a step `l` from `b` may do to the scheduler. -/
def SchedMove.Permits (b : Kernel n) (l : RtxLabel) : SchedMove n → Prop
  | .blockReceive p => b.running = some (p, .user) ∧ l = .call .receiveMessage ∨
    b.running = some (p, .receiveMessage) ∧ l = .resume
  | .blockRequest p => b.running = some (p, .user) ∧ l = .call .requestMsgEnv ∨
    b.running = some (p, .requestMsgEnv) ∧ l = .resume
  | .yield p => b.running = some (p, .user) ∧ l = .call .releaseProcessor
  | .changePriority newPriority targetProcessId =>
    l = .call (.changePriority newPriority targetProcessId)
  | .toUser _ | .wakeReceiver _ | .wakeRequester => True

/-- What the scheduler may be asked to do in a step `l` from `b`, but for what comes with the moves
of envelopes. A process blocks only where its queue is empty, and goes on only when it has what it
waited for. -/
def SchedMove.Ok (b : Kernel n) (l : RtxLabel) (s : Kernel n) : SchedMove n → Prop
  | .blockReceive p =>
    s = b ∧ s.ipc.Empty (.recvMsgs p) ∧ (SchedMove.blockReceive p).Permits b l
  | .blockRequest p => s = b ∧ s.ipc.Empty .freeEnvQ ∧ (SchedMove.blockRequest p).Permits b l
  | .yield p => s = b ∧ (SchedMove.yield p).Permits b l
  | .changePriority newPriority targetProcessId =>
    s = b ∧ (SchedMove.changePriority newPriority targetProcessId).Permits b l
  | .toUser p => s.sched.contexts p = .user ∨ s.sched.contexts p = .releaseProcessor
  | .wakeReceiver _ | .wakeRequester => False

/-- The acts of a step `l` from `b`. -/
def Act.Ok (b : Kernel n) (l : RtxLabel) (s : Kernel n) : Act n → Prop
  | .mail m => m.Ok b l s
  | .sched m => m.Ok b l s
  | .restore p => s.sched.currentProcess = some p
  | .crt _ => True

theorem MailMove.Ok.proper {b s : Kernel n} {l : RtxLabel} {m : MailMove n} (h : m.Ok b l s) :
    m.Proper s.ipc := by
  cases m with
  | fill p env letter => exact h.2.1
  | write p env content => exact h.2
  | send p q env sendPid destPid => exact h.2.1
  | release p env => exact h.2
  | insert p env => exact ⟨h.2.1, h.2.2.1⟩
  | store p env => exact h.2
  | _ => trivial

namespace Kernel

variable {b s s' t t' : Kernel n} {l : RtxLabel} {p q r : Fin n} {env : EnvPtr} {m : MailMove n}

theorem act_mail (h : s.act (.mail m) = some s') :
    s.ipc.move m = some s'.ipc ∧ follow s.sched (m.brings s.sched) = some s'.sched := by
  obtain ⟨ipc, hipc, h⟩ := Option.bind_eq_some_iff.1 h
  obtain ⟨sched, hsched, h⟩ := Option.bind_eq_some_iff.1 h
  cases h
  exact ⟨hipc, hsched⟩

theorem act_mail_of {ipc : Ipc n} {sched : Sched n} (hipc : s.ipc.move m = some ipc)
    (hsched : follow s.sched (m.brings s.sched) = some sched) :
    s.act (.mail m) = some { s with sched := sched, ipc := ipc } := by
  simp only [act, hipc, hsched, Option.bind_eq_bind, Option.bind_some]
  rfl

/-! ## The kernel, as it will be -/

/-- The kernel, as it will be when the i-process that runs has left. -/
def seen (s : Kernel n) : Kernel n :=
  match s.sched.currentProcess, s.sched.interruptedProcess with
  | some i, some p => { s with sched := left i p s.sched, flag := false }
  | _, _ => s

theorem seen_of_none (h : s.sched.interruptedProcess = none) : s.seen = s := by
  unfold seen
  rw [h]
  cases s.sched.currentProcess <;> rfl

theorem seen_of_some (hcur : s.sched.currentProcess = some r)
    (hint : s.sched.interruptedProcess = some p) :
    s.seen = { s with sched := left r p s.sched, flag := false } := by
  unfold seen
  rw [hcur, hint]

@[simp] theorem ipc_seen (s : Kernel n) : s.seen.ipc = s.ipc := by
  unfold seen
  split <;> rfl

theorem seen_ipc (s : Kernel n) (ipc : Ipc n) :
    ({ s with ipc := ipc } : Kernel n).seen = { s.seen with ipc := ipc } := by
  obtain ⟨⟨pTable, pq, current, interrupted, readyLog⟩, -, flag, crtBuf⟩ := s
  cases current <;> cases interrupted <;> rfl

theorem seen_crtBuf (s : Kernel n) (crtBuf : Body) :
    ({ s with crtBuf := crtBuf } : Kernel n).seen = { s.seen with crtBuf := crtBuf } := by
  obtain ⟨⟨pTable, pq, current, interrupted, readyLog⟩, ipc, flag, -⟩ := s
  cases current <;> cases interrupted <;> rfl

@[simp] theorem ids_seen (s : Kernel n) : s.seen.sched.ids = s.sched.ids := by
  unfold seen
  split
  · exact ids_left ..
  · rfl

/-- In a step `l` from `b`, the kernel has come to `t`, where the code of `r` runs. -/
structure Working (b : Kernel n) (l : RtxLabel) (r : Fin n) (t : Kernel n) : Prop where
  current : t.sched.currentProcess = some r
  within : ∀ p, t.sched.interruptedProcess = some p →
    Interrupting t.sched r p ∧ (t.sched.ids r).2 = true
  done : Reach Kernel.act (· = b) (Act.Ok b l) t.seen

theorem Working.atWork (h : Working b l r t) : t.seen.AtWork r := by
  cases hint : t.sched.interruptedProcess with
  | none =>
    rw [seen_of_none hint]
    exact .inl h.current
  | some p =>
    refine .inr ?_
    rw [ids_seen]
    exact (h.within p hint).2

/-- A change of the envelopes that wakes nobody. -/
theorem Working.mail {ipc : Ipc n} (h : Working b l r t) (hm : m.Ok b l t.seen)
    (hbrings : ∀ S : Sched n, S.ids = t.sched.ids → m.brings S = none)
    (hmove : t.ipc.move m = some ipc) : Working b l r { t with ipc := ipc } := by
  refine ⟨h.current, h.within, ?_⟩
  have hact : t.seen.act (.mail m) = some { t.seen with ipc := ipc } := by
    have hfollow : follow t.seen.sched (m.brings t.seen.sched) = some t.seen.sched := by
      rw [hbrings _ (ids_seen t)]
      rfl
    refine act_mail_of ?_ hfollow
    rw [ipc_seen]
    exact hmove
  rw [seen_ipc]
  exact h.done.step (l := Act.mail m) hm hact

theorem Working.crt (h : Working b l r t) (crtBuf : Body) :
    Working b l r { t with crtBuf := crtBuf } := by
  refine ⟨h.current, h.within, ?_⟩
  rw [seen_crtBuf]
  exact h.done.step (l := Act.crt crtBuf) trivial rfl

/-- A send, with its wake-up. -/
theorem Working.send {ipc : Ipc n} {sched : Sched n} {sendPid destPid : ℤ} (h : Working b l r t)
    (hm : (MailMove.send r q env sendPid destPid).Ok b l t.seen)
    (hmove : t.ipc.move (.send r q env sendPid destPid) = some ipc)
    (hwake : wakeReceiver t.sched q = some sched) :
    Working b l r { t with sched := sched, ipc := ipc } ∧
      sched.interruptedProcess = t.sched.interruptedProcess := by
  obtain ⟨hcur, hint⟩ := Coldfire.Sched.wakeReceiver_pointers (wakeReceiver_cold hwake)
  refine ⟨?_, hint⟩
  cases hintr : t.sched.interruptedProcess with
  | none =>
    rw [hintr] at hint
    refine ⟨hcur.trans h.current, fun p hp => absurd (hint.symm.trans hp) nofun, ?_⟩
    have hdone := h.done
    rw [seen_of_none hintr] at hdone hm
    rw [seen_of_none hint]
    exact hdone.step (l := Act.mail (.send r q env sendPid destPid)) hm (act_mail_of hmove hwake)
  | some p =>
    rw [hintr] at hint
    obtain ⟨hin, hi⟩ := h.within p hintr
    refine ⟨hcur.trans h.current, fun p' hp' => ?_, ?_⟩
    · obtain rfl : p = p' := Option.some.inj (hint.symm.trans hp')
      exact ⟨hin.wake hwake, by rw [wakeReceiver_ids hwake]; exact hi⟩
    · have hdone := h.done
      rw [seen_of_some h.current hintr] at hdone hm
      rw [seen_of_some (hcur.trans h.current) hint]
      refine hdone.step (l := Act.mail (.send r q env sendPid destPid)) hm (act_mail_of hmove ?_)
      show wakeReceiver (left r p t.sched) q = _
      rw [wake_leave hin, hwake]
      rfl

end Kernel

end Rtx.Unix
